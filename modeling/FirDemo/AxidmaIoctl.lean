import FirDemo.AxidmaDevice

/-!
# The command words of the axidma driver

A command word has four fields : direction, size of the argument, magic number and number. The
driver compares the whole word, after it checked the magic number and that the number is below
`AXIDMA_NUM_IOCTLS`. That bound is 10 and the last of the 11 commands has number 10, so every
command but that one is dispatched, under its own word only
(`axidmaIoctlCommand_eq_ok_iff`).
-/

namespace FirDemo

/-! ## Words -/

/-- The direction bits of a command word. -/
inductive IocDir
  | none
  | write
  | read
  | readWrite
  deriving DecidableEq

/-- `_IOC_WRITE` is 1 and `_IOC_READ` is 2. -/
def IocDir.bits : IocDir → BitVec 2
  | none => 0
  | write => 1
  | read => 2
  | readWrite => 3

/-- `_IOC`. -/
def ioc (dir : IocDir) (type nr : BitVec 8) (size : BitVec 14) : BitVec 32 :=
  dir.bits.setWidth 32 <<< 30 ||| size.setWidth 32 <<< 16 ||| type.setWidth 32 <<< 8 |||
    nr.setWidth 32

/-- `_IOC_NR`. -/
def iocNr (cmd : BitVec 32) : BitVec 8 :=
  cmd.extractLsb' 0 8

/-- `_IOC_TYPE`. -/
def iocType (cmd : BitVec 32) : BitVec 8 :=
  cmd.extractLsb' 8 8

/-- `_IOC_SIZE`. -/
def iocSize (cmd : BitVec 32) : BitVec 14 :=
  cmd.extractLsb' 16 14

/-- `_IOC_DIR`. -/
def iocDir (cmd : BitVec 32) : BitVec 2 :=
  cmd.extractLsb' 30 2

/-! ## Commands -/

/-- `AXIDMA_IOCTL_MAGIC`, the letter W. -/
def axidmaIoctlMagic : BitVec 8 := 0x57

/-- `AXIDMA_NUM_IOCTLS`. -/
def axidmaNumIoctls : BitVec 8 := 10

/-- The commands. -/
inductive IoctlCommand
  | getNumDmaChannels
  | getDmaChannels
  | setDmaSignal
  | registerBuffer
  | dmaRead
  | dmaWrite
  | dmaReadWrite
  | dmaVideoRead
  | dmaVideoWrite
  | stopDmaChannel
  | unregisterBuffer
  deriving DecidableEq, Repr

namespace IoctlCommand

/-- In the order of the `switch`. -/
def all : List IoctlCommand :=
  [getNumDmaChannels, getDmaChannels, setDmaSignal, registerBuffer, dmaRead, dmaWrite,
    dmaReadWrite, dmaVideoRead, dmaVideoWrite, stopDmaChannel, unregisterBuffer]

/-- The number of a command. -/
def nr : IoctlCommand → BitVec 8
  | getNumDmaChannels => 0
  | getDmaChannels => 1
  | setDmaSignal => 2
  | registerBuffer => 3
  | dmaRead => 4
  | dmaWrite => 5
  | dmaReadWrite => 6
  | dmaVideoRead => 7
  | dmaVideoWrite => 8
  | stopDmaChannel => 9
  | unregisterBuffer => 10

/-- `_IO`, `_IOW` or `_IOR`. -/
def dir : IoctlCommand → IocDir
  | setDmaSignal => .none
  | unregisterBuffer => .none
  | getNumDmaChannels => .write
  | _ => .read

/-- The word of a command, for the sizes of the structures of the arguments. -/
def word (sizeof : IoctlCommand → BitVec 14) (c : IoctlCommand) : BitVec 32 :=
  ioc c.dir axidmaIoctlMagic c.nr (if c.dir = .none then 0 else sizeof c)

end IoctlCommand

/-- A command reads its argument, writes it, or both. The two checks are the same one. -/
def axidmaAccessOk (accessOk : BitVec 14 → Bool) (cmd : BitVec 32) : Bool :=
  if iocDir cmd &&& IocDir.read.bits ≠ 0 then
    accessOk (iocSize cmd)
  else if iocDir cmd &&& IocDir.write.bits ≠ 0 then
    accessOk (iocSize cmd)
  else
    true

/-- The checks of `axidma_ioctl` and its `switch`. `accessOk` is `access_ok` of the argument. -/
def axidmaIoctlCommand (sizeof : IoctlCommand → BitVec 14) (accessOk : BitVec 14 → Bool)
    (cmd : BitVec 32) : Except ℤ IoctlCommand :=
  if iocType cmd ≠ axidmaIoctlMagic then
    .error (-ENOTTY)
  else if iocNr cmd ≥ axidmaNumIoctls then
    .error (-ENOTTY)
  else if axidmaAccessOk accessOk cmd = false then
    .error (-EFAULT)
  else
    match IoctlCommand.all.find? fun c => cmd = c.word sizeof with
    | some c => .ok c
    | none => .error (-ENOTTY)

/-! ## Dispatch -/

section fields

variable (dir : IocDir) (type nr : BitVec 8) (size : BitVec 14)

/-- The fields of a command word, from the number up to the direction. -/
theorem getLsbD_ioc (i : ℕ) (hi : i < 32) :
    (ioc dir type nr size).getLsbD i =
      if i < 8 then nr.getLsbD i
      else if i < 16 then type.getLsbD (i - 8)
      else if i < 30 then size.getLsbD (i - 16)
      else dir.bits.getLsbD (i - 30) := by
  simp only [ioc, BitVec.getLsbD_or, BitVec.getLsbD_shiftLeft, BitVec.getLsbD_setWidth]
  grind

/-- The number is read back. -/
@[simp] theorem iocNr_ioc : iocNr (ioc dir type nr size) = nr := by
  apply BitVec.eq_of_getLsbD_eq
  intro i hi
  simp only [iocNr, BitVec.getLsbD_extractLsb', getLsbD_ioc _ _ _ _ (0 + i) (by omega)]
  grind

/-- The magic byte is read back. -/
@[simp] theorem iocType_ioc : iocType (ioc dir type nr size) = type := by
  apply BitVec.eq_of_getLsbD_eq
  intro i hi
  simp only [iocType, BitVec.getLsbD_extractLsb', getLsbD_ioc _ _ _ _ (8 + i) (by omega)]
  grind

/-- The size is read back. -/
@[simp] theorem iocSize_ioc : iocSize (ioc dir type nr size) = size := by
  apply BitVec.eq_of_getLsbD_eq
  intro i hi
  simp only [iocSize, BitVec.getLsbD_extractLsb', getLsbD_ioc _ _ _ _ (16 + i) (by omega)]
  grind

/-- The direction is read back. -/
@[simp] theorem iocDir_ioc : iocDir (ioc dir type nr size) = dir.bits := by
  apply BitVec.eq_of_getLsbD_eq
  intro i hi
  simp only [iocDir, BitVec.getLsbD_extractLsb', getLsbD_ioc _ _ _ _ (30 + i) (by omega)]
  grind

end fields

variable {sizeof : IoctlCommand → BitVec 14} {accessOk : BitVec 14 → Bool}

/-- Every command has the magic byte. -/
@[simp] theorem IoctlCommand.iocType_word (c : IoctlCommand) :
    iocType (c.word sizeof) = axidmaIoctlMagic := by
  simp [word]

/-- Every command has its number. -/
@[simp] theorem IoctlCommand.iocNr_word (c : IoctlCommand) : iocNr (c.word sizeof) = c.nr := by
  simp [word]

/-- The numbers tell the commands apart. -/
theorem IoctlCommand.word_injective : Function.Injective (word sizeof) := by
  intro c d h
  have hnr : c.nr = d.nr := by
    simpa using congrArg iocNr h
  cases c <;> cases d <;> first | rfl | exact absurd hnr (by decide)

/-- Only the commands with an argument are tested. -/
theorem axidmaAccessOk_word (c : IoctlCommand) :
    axidmaAccessOk accessOk (c.word sizeof) = (decide (c.dir = .none) || accessOk (sizeof c)) := by
  cases c <;> simp [axidmaAccessOk, IoctlCommand.word, IoctlCommand.dir, IocDir.bits]

/-- What is dispatched has its own word, a number below the bound, and an accessible argument. -/
theorem of_axidmaIoctlCommand {cmd : BitVec 32} {c : IoctlCommand}
    (h : axidmaIoctlCommand sizeof accessOk cmd = .ok c) :
    cmd = c.word sizeof ∧ c ≠ .unregisterBuffer ∧
      (c.dir = .none ∨ accessOk (sizeof c) = true) := by
  unfold axidmaIoctlCommand at h
  split at h
  · exact nomatch h
  split at h
  · exact nomatch h
  next hlow =>
  split at h
  · exact nomatch h
  next haccess =>
  split at h
  · next d hd =>
    obtain rfl := Except.ok.inj h
    obtain rfl : cmd = d.word sizeof := by simpa using List.find?_some hd
    refine ⟨rfl, fun hun => hlow ?_, ?_⟩
    · rw [IoctlCommand.iocNr_word, hun]
      decide
    · simpa [axidmaAccessOk_word, or_iff_not_imp_left] using haccess
  · exact nomatch h

/-- A command is dispatched under its own word if its argument is accessible. No word reaches
`AXIDMA_UNREGISTER_BUFFER`. -/
theorem axidmaIoctlCommand_eq_ok_iff {cmd : BitVec 32} {c : IoctlCommand} :
    axidmaIoctlCommand sizeof accessOk cmd = .ok c ↔
      cmd = c.word sizeof ∧ c ≠ .unregisterBuffer ∧
        (c.dir = .none ∨ accessOk (sizeof c) = true) := by
  refine ⟨of_axidmaIoctlCommand, ?_⟩
  rintro ⟨rfl, hne, haccess⟩
  have hfind : IoctlCommand.all.find? (fun d => c.word sizeof = d.word sizeof) = some c := by
    simp only [IoctlCommand.word_injective.eq_iff]
    cases c <;> rfl
  have hlow : ¬iocNr (c.word sizeof) ≥ axidmaNumIoctls := by
    rw [IoctlCommand.iocNr_word]
    cases c <;> first | exact absurd rfl hne | decide
  unfold axidmaIoctlCommand
  rw [if_neg (by simp), if_neg hlow, if_neg, hfind]
  simpa [axidmaAccessOk_word, or_iff_not_imp_left] using haccess

end FirDemo
