import FirDemo.DemoMain
import FirDemo.Ledger
import Mathlib.Tactic.Abel

/-!
# The demo on the hardware

The hardware build of `main.cpp` and of `axilite_ctrl.cpp`, as programs over the calls to the
C library and to `libaxidma` : the search of the register window under `/sys/class/uio`, its
mapping, the register writes, and the transfer between two buffers. A directory stream has the
entries that it had when it was opened, and a mapping has whole pages.

Whatever the calls answer, and on every path through the `goto` chain, `main` gives back every
stream, file descriptor, mapping, buffer and device, uses none that it has not, stays in its
buffers, and returns (`main_settles`) : the exit of `axilite_write_reg` is not reached. The sample
count has to be less than `2 ^ 29`, since a word outside a buffer belongs to nothing that is held.
-/

namespace FirDemo

namespace Hardware

open Threads Ledger Ledger.Account

/-! ## Calls -/

/-- What `mmap` gave, with the size that was asked for. -/
structure Mapping where
  addr : ℕ
  size : BitVec 64

/-- What `axidma_malloc` gave, with the size that was asked for. -/
structure DmaBuffer where
  addr : ℕ
  size : ℕ

/-- A resource, with what it is known by. No call takes `nothing`. -/
inductive HostResource
  | dir (dir : ℕ)
  | file (file : ℕ)
  | fd (fd : ℤ)
  | mapping (map : Mapping)
  | axidmaDev (dev : ℕ)
  | buffer (buf : DmaBuffer)
  | nothing

/-- The bytes that are mapped, in pages of 4096. -/
def Mapping.bytes (map : Mapping) : ℕ :=
  (map.size.toNat + 4095) / 4096 * 4096

/-- What a word of a mapping belongs to. -/
def Mapping.word (map : Mapping) (i : ℕ) : HostResource :=
  if 4 * i + 4 ≤ map.bytes then .mapping map else .nothing

/-- What a word of a buffer belongs to. -/
def DmaBuffer.word (buf : DmaBuffer) (i : ℕ) : HostResource :=
  if 4 * i + 4 ≤ buf.size then .buffer buf else .nothing

/-- `storeReg` and the accesses to a buffer are those of the loops of `main.cpp`. -/
inductive HostOp
  | opendir (path : List Char)
  | readdir (dir : ℕ)
  | closedir (dir : ℕ)
  | fopen (path : List Char)
  | fgets (file : ℕ) (size : ℕ)
  | fclose (file : ℕ)
  | openFile (path : List Char)
  | close (fd : ℤ)
  | mmap (size : BitVec 64) (fd : ℤ)
  | munmap (map : Mapping)
  | storeReg (map : Mapping) (index value : BitVec 32)
  | axidmaInit
  | axidmaDestroy (dev : ℕ)
  | axidmaGetDmaTx (dev : ℕ)
  | axidmaGetDmaRx (dev : ℕ)
  | axidmaMalloc (dev size : ℕ)
  | axidmaFree (dev : ℕ) (buf : DmaBuffer)
  | memset (buf : DmaBuffer)
  | store (buf : DmaBuffer) (index : ℕ) (value : BitVec 32)
  | load (buf : DmaBuffer) (index : ℕ)
  | axidmaTwowayTransfer (dev : ℕ) (txChannel : ℤ) (txBuf : DmaBuffer) (rxChannel : ℤ)
      (rxBuf : DmaBuffer)

/-- The answers. A stream of a directory comes with its entries, and an array of channels is a
list. -/
abbrev HostOp.Ans : HostOp → Type
  | opendir _ => Option (ℕ × List (List Char))
  | fopen _ => Option ℕ
  | fgets _ _ => Option (List Char)
  | openFile _ => ℤ
  | mmap _ _ => Option ℕ
  | axidmaInit => Option ℕ
  | axidmaGetDmaTx _ => List ℤ
  | axidmaGetDmaRx _ => List ℤ
  | axidmaMalloc _ _ => Option ℕ
  | load _ _ => BitVec 32
  | axidmaTwowayTransfer _ _ _ _ _ => ℤ
  | _ => Unit

/-- What a function of the demo does among its calls. -/
abbrev HostProg : Type → Type :=
  Prog HostOp.Ans

/-- One call. -/
abbrev hostOp (o : HostOp) : HostProg o.Ans :=
  Prog.perform o

open HostResource

/-- What a call gives back. -/
def HostOp.frees : HostOp → Multiset HostResource
  | closedir d => {dir d}
  | fclose f => {file f}
  | close n => {fd n}
  | munmap map => {mapping map}
  | axidmaDestroy dev => {axidmaDev dev}
  | axidmaFree _ buf => {buffer buf}
  | _ => 0

/-- What has to be there for a call, and for an access to a word. -/
def HostOp.uses : HostOp → Multiset HostResource
  | readdir d => {dir d}
  | fgets f _ => {file f}
  | mmap _ n => {fd n}
  | storeReg map index _ => {map.word index.toNat}
  | axidmaGetDmaTx dev => {axidmaDev dev}
  | axidmaGetDmaRx dev => {axidmaDev dev}
  | axidmaMalloc dev _ => {axidmaDev dev}
  | axidmaFree dev _ => {axidmaDev dev}
  | memset buf => {buffer buf}
  | store buf i _ => {buf.word i}
  | load buf i => {buf.word i}
  | axidmaTwowayTransfer dev _ txBuf _ rxBuf =>
    {axidmaDev dev} + ({buffer txBuf} + {buffer rxBuf})
  | _ => 0

/-- What a call takes with its answer. -/
def HostOp.takes : (o : HostOp) → o.Ans → Multiset HostResource
  | opendir _, some (d, _) => {dir d}
  | fopen _, some f => {file f}
  | openFile _, n => if n < (0 : ℤ) then 0 else {fd n}
  | mmap size _, some p => {mapping ⟨p, size⟩}
  | axidmaInit, some dev => {axidmaDev dev}
  | axidmaMalloc _ size, some p => {buffer ⟨p, size⟩}
  | _, _ => 0

/-- What the calls take, need and give back. -/
def hostAccount : Account HostOp.Ans HostResource where
  frees := HostOp.frees
  uses := HostOp.uses
  takes := HostOp.takes

/-! ## The register window -/

/-- At most `size - 1` characters are kept. -/
def snprintf (size : ℕ) (s : List Char) : List Char :=
  s.take (size - 1)

/-- `strtoull` with base 0, `none` where `errno` is set or nothing was read. -/
def strtoull (nptr : List Char) : Option (BitVec 64) :=
  let (negative, unsigned) := splitSign (nptr.dropWhile isspace)
  let (base, digits) := splitBase unsigned
  let (magnitude, rest) := readDigits base 0 digits
  if rest.length = digits.length then none
  else if 2 ^ 64 ≤ magnitude then none
  else some (BitVec.ofInt 64 (if negative then -magnitude else magnitude))

/-- The number in the first line of a file, if there is one. -/
def readUioSize (path : List Char) : HostProg (Option (BitVec 64)) := do
  let file : Option ℕ ← hostOp (.fopen path)
  match file with
  | none => return none
  | some file =>
    let buffer : Option (List Char) ← hostOp (.fgets file 64)
    hostOp (.fclose file)
    return buffer.bind strtoull

/-- The body of the loop of `find_uio_device` : whether the entry is the device. -/
def isUioDevice (target dName : List Char) : HostProg Bool :=
  if dName.head? = some '.' then return false
  else do
    let namePath := snprintf 128 ("/sys/class/uio/".toList ++ dName ++ "/name".toList)
    let nameFile : Option ℕ ← hostOp (.fopen namePath)
    match nameFile with
    | none => return false
    | some nameFile =>
      let name : Option (List Char) ← hostOp (.fgets nameFile 64)
      hostOp (.fclose nameFile)
      return name.any fun name => target <:+: name.takeWhile fun c => c ≠ '\n'

/-- The loop of `find_uio_device` over the entries that are left. -/
def findEntry (d : ℕ) (target : List Char) (devlen : ℕ) :
    List (List Char) → HostProg (Option (List Char))
  | [] => do
    hostOp (.readdir d)
    hostOp (.closedir d)
    return none
  | dName :: rest => do
    hostOp (.readdir d)
    if ← isUioDevice target dName then
      hostOp (.closedir d)
      return some (snprintf devlen ("/dev/".toList ++ dName))
    else
      findEntry d target devlen rest

/-- The path of the device with the name, if there is one. -/
def findUioDevice (target : List Char) (devlen : ℕ) : HostProg (Option (List Char)) := do
  let d : Option (ℕ × List (List Char)) ← hostOp (.opendir "/sys/class/uio".toList)
  match d with
  | none => return none
  | some (d, entries) => findEntry d target devlen entries

/-- What follows the last slash, or the whole path. -/
def deviceName (devpath : List Char) : List Char :=
  (devpath.reverse.takeWhile fun c => c ≠ '/').reverse

/-- The size of the first map of a device, or a page. -/
def getUioMapSize (devpath : List Char) : HostProg (BitVec 64) := do
  let sysfsPath :=
    snprintf 160 ("/sys/class/uio/".toList ++ deviceName devpath ++ "/maps/map0/size".toList)
  let regionSize ← readUioSize sysfsPath
  return match regionSize with
    | none => 0x1000
    | some regionSize => if regionSize = 0 then 0x1000 else regionSize

/-- The global variables of `axilite_ctrl.cpp`, where `g_fir_regs` and `g_fir_map` may be null. -/
structure FirWindow where
  gFirRegs : Option ℕ
  gFirMap : Option ℕ
  gFirMapSize : BitVec 64
  gUioFd : ℤ

/-- Before the first call. -/
def FirWindow.closed : FirWindow :=
  ⟨none, none, 0, -1⟩

/-- The device is opened and mapped. -/
def mapFirUio (devpath : List Char) (g : FirWindow) : HostProg (Bool × FirWindow) := do
  let uioFd : ℤ ← hostOp (.openFile devpath)
  if uioFd < 0 then
    return (false, { g with gUioFd := uioFd })
  else
    let firMapSize ← getUioMapSize devpath
    let firMap : Option ℕ ← hostOp (.mmap firMapSize uioFd)
    match firMap with
    | none =>
      hostOp (.close uioFd)
      return (false, ⟨g.gFirRegs, none, 0, -1⟩)
    | some p => return (true, ⟨some p, some p, firMapSize, uioFd⟩)

/-- The register window is found and mapped. -/
def axiliteInit (uioPathOverride : Option (List Char)) (g : FirWindow) :
    HostProg (Bool × FirWindow) :=
  match uioPathOverride.filter fun path => path.head? = some '/' with
  | some path => mapFirUio (snprintf 64 path) g
  | none => do
    match ← findUioDevice "fir".toList 64 with
    | some devpath => mapFirUio devpath g
    | none => return (false, g)

/-- The status of an exit is the error. -/
def axiliteWriteReg (offset value : BitVec 32) (g : FirWindow) : HostProg (Except ℤ Unit) :=
  match g.gFirRegs with
  | none => return .error exitFailure
  | some p => do
    hostOp (.storeReg ⟨p, g.gFirMapSize⟩ (offset / 4) value)
    return .ok ()

/-- `munmap`, if the window is mapped. -/
def unmapWindow (g : FirWindow) : HostProg FirWindow :=
  match g.gFirMap with
  | none => return g
  | some p => do
    hostOp (.munmap ⟨p, g.gFirMapSize⟩)
    return { g with gFirMap := none, gFirRegs := none, gFirMapSize := 0 }

/-- The register window is given back. -/
def axiliteShutdown (g : FirWindow) : HostProg FirWindow := do
  let g ← unmapWindow g
  if g.gUioFd ≥ 0 then
    hostOp (.close g.gUioFd)
    return { g with gUioFd := -1 }
  else
    return g

/-! ## The transfer -/

/-- The buffers come from `transfer_and_verify`. -/
structure Transfer extends DmaTransfer where
  inputChannel : ℤ
  outputChannel : ℤ

/-- The reads of one line of `dump_buffers`. -/
def dumpLine (tx rx : DmaBuffer) (i : ℕ) : HostProg Unit := do
  let _ : BitVec 32 ← hostOp (.load tx (i + kPipelineLatency))
  let _ : BitVec 32 ← hostOp (.load tx i)
  let _ : BitVec 32 ← hostOp (.load rx i)
  return ()

/-- `dump_buffers`, as far as it reads the buffers. -/
def dumpBuffers (tx rx : DmaBuffer) (sampleCount : BitVec 32) : HostProg Unit :=
  forEach (dumpLine tx rx) (List.range (loopCount sampleCount))

/-- The verification loop over the indices that are left. -/
def verifySamples (rx : DmaBuffer) (pass : Bool) : List ℕ → HostProg Bool
  | [] => return pass
  | i :: rest => do
    let actual : BitVec 32 ← hostOp (.load rx i)
    verifySamples rx (pass && decide (actual = BitVec.ofNat 32 (i + kPipelineLatency))) rest

/-- Between the allocations and the label `free_bufs`. -/
def runTransfer (dev : ℕ) (trans : Transfer) (tx rx : DmaBuffer) (sampleCount : BitVec 32) :
    HostProg ℤ := do
  forEach (fun i => hostOp (.store tx i (BitVec.ofNat 32 i))) (List.range (loopCount sampleCount))
  hostOp (.memset rx)
  let rc : ℤ ←
    hostOp (.axidmaTwowayTransfer dev trans.inputChannel tx trans.outputChannel rx)
  if rc < 0 then
    dumpBuffers tx rx sampleCount
    return rc
  else
    let pass ← verifySamples rx true (List.range (loopCount sampleCount))
    if pass then
      return rc
    else
      dumpBuffers tx rx sampleCount
      return -1

/-- The two buffers are allocated, used and freed. -/
def transferAndVerify (dev : ℕ) (trans : Transfer) (sampleCount : BitVec 32) : HostProg ℤ := do
  let inputBuf : Option ℕ ← hostOp (.axidmaMalloc dev (toSizeT trans.inputSize))
  match inputBuf with
  | none => return -1
  | some input =>
    let tx : DmaBuffer := ⟨input, toSizeT trans.inputSize⟩
    let outputBuf : Option ℕ ← hostOp (.axidmaMalloc dev (toSizeT trans.outputSize))
    match outputBuf with
    | none =>
      hostOp (.axidmaFree dev tx)
      return -1
    | some output =>
      let rx : DmaBuffer := ⟨output, toSizeT trans.outputSize⟩
      let rc ← runTransfer dev trans tx rx sampleCount
      hostOp (.axidmaFree dev rx)
      hostOp (.axidmaFree dev tx)
      return rc

/-! ## `main` -/

/-- Nothing is to be done for the hardware. -/
def backendInit : HostProg Bool :=
  return true

/-- Nothing is left of it. -/
def backendShutdown : HostProg Unit :=
  return ()

/-- The first channel of each direction. -/
def transferChannels (dev : ℕ) (sampleCount : BitVec 32) : HostProg ℤ := do
  let txChans : List ℤ ← hostOp (.axidmaGetDmaTx dev)
  match txChans with
  | [] => return exitFailure
  | txChannel :: _ =>
    let rxChans : List ℤ ← hostOp (.axidmaGetDmaRx dev)
    match rxChans with
    | [] => return exitFailure
    | rxChannel :: _ =>
      let rc ←
        transferAndVerify dev ⟨buildTransfer sampleCount, txChannel, rxChannel⟩ sampleCount
      return if rc < 0 then exitFailure else 0

/-- From `axidma_init` to the label `destroy_axidma`. -/
def withAxidma (sampleCount : BitVec 32) : HostProg ℤ := do
  let dev : Option ℕ ← hostOp .axidmaInit
  match dev with
  | none => return exitFailure
  | some dev =>
    let rc ← transferChannels dev sampleCount
    hostOp (.axidmaDestroy dev)
    return rc

/-- A sequence of register writes, up to an exit. -/
def writeRegs (g : FirWindow) : List (BitVec 32 × BitVec 32) → HostProg (Except ℤ Unit)
  | [] => return .ok ()
  | (offset, value) :: rest => do
    match ← axiliteWriteReg offset value g with
    | .error status => return .error status
    | .ok () => writeRegs g rest

/-- From `axilite_init` to the label `shutdown_axilite`. -/
def withWindow (sampleCount : BitVec 32) : HostProg (Except ℤ ℤ) := do
  let (opened, g) ← axiliteInit none .closed
  if opened then
    match ← writeRegs g mainWrites with
    | .error status => return .error status
    | .ok () =>
      let rc ← withAxidma sampleCount
      let _ ← axiliteShutdown g
      return .ok rc
  else
    return .ok exitFailure

/-- The exit status, or that of an exit on the way. -/
def main (argv : List (List Char)) : HostProg (Except ℤ ℤ) :=
  match readSampleCount argv with
  | .error _ => return .ok exitFailure
  | .ok sampleCount => do
    if ← backendInit then
      let rc ← withWindow sampleCount
      match rc with
      | .error status => return .error status
      | .ok rc =>
        backendShutdown
        return .ok rc
    else
      return .ok exitFailure

/-! ## What they hold -/

section settles

variable {m : Multiset HostResource}

/-- The file is closed. -/
theorem readUioSize_settles (path : List Char) :
    hostAccount.Settles (fun _ n => n = m) (readUioSize path) m := by
  unfold readUioSize
  refine settles_take (o := HostOp.fopen path) rfl (Multiset.zero_le _) fun f => ?_
  cases f with
  | none => exact zero_add m
  | some f =>
    refine settles_use (o := HostOp.fgets f 64) (Multiset.le_add_right _ _) rfl (fun _ => rfl)
      fun _ => ?_
    exact settles_free m rfl (Multiset.zero_le _) (fun _ => rfl) fun _ => rfl

/-- The size is not 0. -/
theorem getUioMapSize_settles (devpath : List Char) :
    hostAccount.Settles (fun size n => size ≠ 0 ∧ n = m) (getUioMapSize devpath) m := by
  refine (readUioSize_settles _).bind fun regionSize n hn => ⟨?_, hn⟩
  cases regionSize with
  | none => exact (by decide : (0x1000 : BitVec 64) ≠ 0)
  | some regionSize =>
    dsimp only
    split
    · decide
    · next hne => exact hne

/-- The file of the name is closed. -/
theorem isUioDevice_settles (target dName : List Char) :
    hostAccount.Settles (fun _ n => n = m) (isUioDevice target dName) m := by
  unfold isUioDevice
  split
  · exact rfl
  · refine settles_take (o := HostOp.fopen _) rfl (Multiset.zero_le _) fun f => ?_
    cases f with
    | none => exact zero_add m
    | some f =>
      refine settles_use (o := HostOp.fgets f 64) (Multiset.le_add_right _ _) rfl (fun _ => rfl)
        fun _ => ?_
      exact settles_free m rfl (Multiset.zero_le _) (fun _ => rfl) fun _ => rfl

/-- The stream is closed where the device is found and at the end. -/
theorem findEntry_settles (d : ℕ) (target : List Char) (devlen : ℕ)
    (entries : List (List Char)) :
    hostAccount.Settles (fun _ n => n = m) (findEntry d target devlen entries) ({dir d} + m) := by
  have hclose : ∀ r : Option (List Char), hostAccount.Settles (fun _ n => n = m)
      (.call (.closedir d) fun _ => .ret r) ({dir d} + m) := fun r =>
    settles_free m rfl (Multiset.zero_le _) (fun _ => rfl) fun _ => rfl
  induction entries with
  | nil =>
    exact settles_use (o := HostOp.readdir d) (Multiset.le_add_right _ _) rfl (fun _ => rfl)
      fun _ => hclose none
  | cons dName rest ih =>
    unfold findEntry
    refine settles_use (o := HostOp.readdir d) (Multiset.le_add_right _ _) rfl (fun _ => rfl)
      fun _ => ?_
    refine (isUioDevice_settles target dName).bind_eq fun found => ?_
    cases found with
    | true => exact hclose _
    | false => exact ih

/-- The search holds nothing at its end. -/
theorem findUioDevice_settles (target : List Char) (devlen : ℕ) :
    hostAccount.Settles (fun _ n => n = m) (findUioDevice target devlen) m := by
  unfold findUioDevice
  refine settles_take (o := HostOp.opendir _) rfl (Multiset.zero_le _) fun d => ?_
  rcases d with _ | ⟨d, entries⟩
  · exact zero_add m
  · exact findEntry_settles d target devlen entries

/-- What a call of `axilite_init` adds. -/
def Opened (m : Multiset HostResource) : Bool × FirWindow → Multiset HostResource → Prop
  | (true, g), n => ∃ p, g.gFirRegs = some p ∧ g.gFirMap = some p ∧ 0 ≤ g.gUioFd ∧
      g.gFirMapSize ≠ 0 ∧ n = {mapping ⟨p, g.gFirMapSize⟩} + ({fd g.gUioFd} + m)
  | (false, _), n => n = m

/-- The descriptor is closed if the device cannot be mapped. -/
theorem mapFirUio_settles (devpath : List Char) (g : FirWindow) :
    hostAccount.Settles (Opened m) (mapFirUio devpath g) m := by
  unfold mapFirUio
  refine settles_take (o := HostOp.openFile devpath) rfl (Multiset.zero_le _) fun uioFd => ?_
  show hostAccount.Settles _ (if uioFd < (0 : ℤ) then _ else _)
    ((if uioFd < (0 : ℤ) then 0 else {fd uioFd}) + m)
  split
  · exact zero_add m
  · next hfd =>
    refine (getUioMapSize_settles devpath).bind fun firMapSize n hn => ?_
    rw [hn.2]
    refine settles_take (o := HostOp.mmap _ uioFd) rfl (Multiset.le_add_right _ _) fun firMap => ?_
    cases firMap with
    | none =>
      exact settles_free m (zero_add _) (Multiset.zero_le _) (fun _ => rfl) fun _ => rfl
    | some p => exact ⟨p, rfl, rfl, Int.not_lt.mp hfd, hn.1, rfl⟩

/-- A window that was opened holds its mapping and its descriptor. -/
theorem axiliteInit_settles (uioPathOverride : Option (List Char)) (g : FirWindow) :
    hostAccount.Settles (Opened m) (axiliteInit uioPathOverride g) m := by
  unfold axiliteInit
  split
  · exact mapFirUio_settles _ g
  · refine (findUioDevice_settles _ _).bind_eq fun devpath => ?_
    cases devpath with
    | none => exact rfl
    | some devpath => exact mapFirUio_settles devpath g

/-- Both are given back. -/
theorem axiliteShutdown_settles {g : FirWindow} {p : ℕ} (hmap : g.gFirMap = some p)
    (hfd : 0 ≤ g.gUioFd) :
    hostAccount.Settles (fun _ n => n = m) (axiliteShutdown g)
      ({mapping ⟨p, g.gFirMapSize⟩} + ({fd g.gUioFd} + m)) := by
  unfold axiliteShutdown unmapWindow
  rw [hmap]
  refine settles_free _ rfl (Multiset.zero_le _) (fun _ => rfl) fun _ => ?_
  show hostAccount.Settles _ (if g.gUioFd ≥ 0 then _ else _) _
  rw [if_pos hfd]
  exact settles_free m rfl (Multiset.zero_le _) (fun _ => rfl) fun _ => rfl

/-- The first page of a window is mapped. -/
theorem Mapping.word_of_lt {map : Mapping} (hsize : map.size ≠ 0) {i : ℕ} (hi : i < 1024) :
    map.word i = mapping map := by
  have hpos : 0 < map.size.toNat :=
    Nat.pos_of_ne_zero fun h => hsize (BitVec.eq_of_toNat_eq h)
  refine if_pos ?_
  unfold Mapping.bytes
  omega

/-- The writes go to the window, and none of them exits. -/
theorem writeRegs_settles {g : FirWindow} {p : ℕ} (hregs : g.gFirRegs = some p)
    (hsize : g.gFirMapSize ≠ 0) (hmap : {mapping ⟨p, g.gFirMapSize⟩} ≤ m)
    {writes : List (BitVec 32 × BitVec 32)} (hlow : ∀ w ∈ writes, (w.1 / 4).toNat < 1024) :
    hostAccount.Settles (fun r n => r = .ok () ∧ n = m) (writeRegs g writes) m := by
  induction writes with
  | nil => exact ⟨rfl, rfl⟩
  | cons w rest ih =>
    obtain ⟨offset, value⟩ := w
    obtain ⟨hoffset, hrest⟩ := List.forall_mem_cons.mp hlow
    unfold writeRegs axiliteWriteReg
    rw [hregs]
    refine settles_use (o := HostOp.storeReg _ _ _) ?_ rfl (fun _ => rfl) fun _ => ih hrest
    show {Mapping.word ⟨p, g.gFirMapSize⟩ (offset / 4).toNat} ≤ m
    rwa [Mapping.word_of_lt hsize hoffset]

section transfer

variable {dev : ℕ} {tx rx : DmaBuffer} {sampleCount : BitVec 32}

/-- The words that the loops use can be accessed. -/
def Accessible (m : Multiset HostResource) (sampleCount : BitVec 32) (buf : DmaBuffer) : Prop :=
  ∀ i ∈ List.range (loopCount sampleCount), {buf.word i} ≤ m

/-- Words inside a buffer that is held can be accessed. -/
theorem accessible_of_fits (hbuf : {buffer tx} ≤ m)
    (hfits : ∀ i ∈ usedIndices sampleCount, 4 * i + 4 ≤ tx.size) : Accessible m sampleCount tx := by
  intro i hi
  have hused : i ∈ usedIndices sampleCount := mem_usedIndices.mpr (List.mem_range.mp hi)
  have hword : tx.word i = buffer tx := if_pos (hfits i hused)
  rwa [hword]

/-- The dump reads both buffers. -/
theorem dumpBuffers_settles (htx : Accessible m sampleCount tx)
    (hrx : Accessible m sampleCount rx) :
    hostAccount.Settles (fun _ n => n = m) (dumpBuffers tx rx sampleCount) m := by
  refine forEach_keeps fun i hi => ?_
  unfold dumpLine
  refine settles_use (o := HostOp.load tx (i + kPipelineLatency)) (htx i hi) rfl (fun _ => rfl)
    fun _ => ?_
  refine settles_use (o := HostOp.load tx i) (htx i hi) rfl (fun _ => rfl) fun _ => ?_
  exact settles_use (o := HostOp.load rx i) (hrx i hi) rfl (fun _ => rfl) fun _ => rfl

/-- The verification reads the receive buffer. -/
theorem verifySamples_settles (pass : Bool) {indices : List ℕ}
    (hrx : ∀ i ∈ indices, {rx.word i} ≤ m) :
    hostAccount.Settles (fun _ n => n = m) (verifySamples rx pass indices) m := by
  induction indices generalizing pass with
  | nil => exact rfl
  | cons i rest ih =>
    obtain ⟨hi, hrest⟩ := List.forall_mem_cons.mp hrx
    exact settles_use (o := HostOp.load rx i) hi rfl (fun _ => rfl) fun _ => ih _ hrest

/-- The loops stay in the buffers. -/
theorem runTransfer_settles (hdev : {axidmaDev dev} + ({buffer tx} + {buffer rx}) ≤ m)
    (trans : Transfer) (hfits : ∀ i ∈ usedIndices sampleCount,
      4 * i + 4 ≤ tx.size ∧ 4 * i + 4 ≤ rx.size) :
    hostAccount.Settles (fun _ n => n = m) (runTransfer dev trans tx rx sampleCount) m := by
  have htx : Accessible m sampleCount tx := accessible_of_fits
    (((Multiset.le_add_right _ _).trans (Multiset.le_add_left _ _)).trans hdev)
    fun i hi => (hfits i hi).1
  have hbuf : {buffer rx} ≤ m :=
    ((Multiset.le_add_left _ _).trans (Multiset.le_add_left _ _)).trans hdev
  have hrx : Accessible m sampleCount rx := accessible_of_fits hbuf fun i hi => (hfits i hi).2
  have hstore : ∀ i ∈ List.range (loopCount sampleCount), hostAccount.Settles (fun _ n => n = m)
      (hostOp (.store tx i (BitVec.ofNat 32 i))) m := fun i hi =>
    settles_use (o := HostOp.store tx i _) (htx i hi) rfl (fun _ => rfl) fun _ => rfl
  unfold runTransfer
  refine (forEach_keeps hstore).bind_eq fun _ => ?_
  refine settles_use (o := HostOp.memset rx) hbuf rfl (fun _ => rfl) fun _ => ?_
  refine settles_use (o := HostOp.axidmaTwowayTransfer dev _ tx _ rx) hdev rfl (fun _ => rfl)
    fun rc => ?_
  show hostAccount.Settles _ (if rc < (0 : ℤ) then _ else _) _
  split
  · exact (dumpBuffers_settles htx hrx).bind fun _ _ hn => hn
  · refine (verifySamples_settles true hrx).bind_eq fun pass => ?_
    cases pass with
    | true => exact rfl
    | false => exact (dumpBuffers_settles htx hrx).bind fun _ _ hn => hn

/-- Both buffers are freed on every path. -/
theorem transferAndVerify_settles (hdev : {axidmaDev dev} ≤ m) (trans : Transfer)
    (hfits : ∀ i ∈ usedIndices sampleCount,
      4 * i + 4 ≤ toSizeT trans.inputSize ∧ 4 * i + 4 ≤ toSizeT trans.outputSize) :
    hostAccount.Settles (fun _ n => n = m) (transferAndVerify dev trans sampleCount) m := by
  unfold transferAndVerify
  refine settles_take (o := HostOp.axidmaMalloc dev _) rfl hdev fun inputBuf => ?_
  cases inputBuf with
  | none => exact zero_add m
  | some input =>
    have hdev' : ∀ b : DmaBuffer, {axidmaDev dev} ≤ {buffer b} + m := fun b =>
      hdev.trans (Multiset.le_add_left _ _)
    refine settles_take (o := HostOp.axidmaMalloc dev _) rfl (hdev' _) fun outputBuf => ?_
    cases outputBuf with
    | none => exact settles_free m (zero_add _) hdev (fun _ => rfl) fun _ => rfl
    | some output =>
      refine (runTransfer_settles ?_ trans hfits).bind fun rc n hn => ?_
      · obtain ⟨rest, rfl⟩ := Multiset.le_iff_exists_add.mp hdev
        refine Multiset.le_iff_exists_add.mpr ⟨rest, ?_⟩
        show {buffer _} + ({buffer _} + ({axidmaDev dev} + rest)) = _
        abel
      · rw [hn]
        refine settles_free _ rfl (hdev' _) (fun _ => rfl) fun _ => ?_
        exact settles_free m rfl hdev (fun _ => rfl) fun _ => rfl

/-- The statuses that `main` returns. -/
def ExitStatus (rc : ℤ) : Prop :=
  rc = 0 ∨ rc = exitFailure

/-- A direction without a channel is an error. -/
theorem transferChannels_settles (hdev : {axidmaDev dev} ≤ m) (hlt : sampleCount.toNat < 2 ^ 29) :
    hostAccount.Settles (fun rc n => ExitStatus rc ∧ n = m) (transferChannels dev sampleCount)
      m := by
  unfold transferChannels
  refine settles_use (o := HostOp.axidmaGetDmaTx dev) hdev rfl (fun _ => rfl) fun txChans => ?_
  rcases txChans with _ | ⟨txChannel, _⟩
  · exact ⟨Or.inr rfl, rfl⟩
  refine settles_use (o := HostOp.axidmaGetDmaRx dev) hdev rfl (fun _ => rfl) fun rxChans => ?_
  rcases rxChans with _ | ⟨rxChannel, _⟩
  · exact ⟨Or.inr rfl, rfl⟩
  have hverify := transferAndVerify_settles hdev
    ⟨buildTransfer sampleCount, txChannel, rxChannel⟩ (buildTransfer_fits hlt)
  refine hverify.bind fun rc n hn => ⟨?_, hn⟩
  split
  · exact Or.inr rfl
  · exact Or.inl rfl

end transfer

/-- The device is destroyed on every path. -/
theorem withAxidma_settles {sampleCount : BitVec 32} (hlt : sampleCount.toNat < 2 ^ 29) :
    hostAccount.Settles (fun rc n => ExitStatus rc ∧ n = m) (withAxidma sampleCount) m := by
  unfold withAxidma
  refine settles_take (o := HostOp.axidmaInit) rfl (Multiset.zero_le _) fun dev => ?_
  cases dev with
  | none => exact ⟨Or.inr rfl, zero_add m⟩
  | some dev =>
    refine (transferChannels_settles (Multiset.le_add_right _ _) hlt).bind
      fun rc n hn => ?_
    rw [hn.2]
    exact settles_free m rfl (Multiset.zero_le _) (fun _ => rfl) fun _ => ⟨hn.1, rfl⟩

/-- The window is given back on every path. -/
theorem withWindow_settles {sampleCount : BitVec 32} (hlt : sampleCount.toNat < 2 ^ 29) :
    hostAccount.Settles (fun r n => (∃ rc, r = .ok rc ∧ ExitStatus rc) ∧ n = m)
      (withWindow sampleCount) m := by
  unfold withWindow
  refine (axiliteInit_settles none .closed).bind ?_
  rintro ⟨opened, g⟩ n hn
  cases opened with
  | false => exact ⟨⟨_, rfl, Or.inr rfl⟩, hn⟩
  | true =>
    obtain ⟨p, hregs, hmap, hfd, hsize, rfl⟩ := hn
    have hlow : ∀ w ∈ mainWrites, (w.1 / 4).toNat < 1024 := by simp [mainWrites]
    refine (writeRegs_settles hregs hsize (Multiset.le_add_right _ _) hlow).bind ?_
    rintro r n ⟨rfl, rfl⟩
    refine (withAxidma_settles hlt).bind ?_
    rintro rc n ⟨hrc, rfl⟩
    exact (axiliteShutdown_settles hmap hfd).bind fun _ _ hn => ⟨⟨rc, rfl, hrc⟩, hn⟩

/-- Whatever the calls answer, with a count of less than `2 ^ 29` samples `main` returns, gives
back what it took, each thing once and with its size, uses nothing that it does not hold, and
accesses no word outside the window and its buffers. -/
theorem main_settles {argv : List (List Char)}
    (hlt : ∀ sampleCount, readSampleCount argv = .ok sampleCount → sampleCount.toNat < 2 ^ 29) :
    hostAccount.Settles (fun r n => (∃ rc, r = .ok rc ∧ ExitStatus rc) ∧ n = 0) (main argv) 0 := by
  unfold main
  split
  · exact ⟨⟨_, rfl, Or.inr rfl⟩, rfl⟩
  · next sampleCount hcount =>
    refine (withWindow_settles (hlt sampleCount hcount)).bind ?_
    rintro r n ⟨⟨rc, rfl, hrc⟩, hn⟩
    exact ⟨⟨rc, rfl, hrc⟩, hn⟩

/-- A thousand samples. -/
theorem main_settles_thousand :
    hostAccount.Settles (fun r n => (∃ rc, r = .ok rc ∧ ExitStatus rc) ∧ n = 0)
      (main ["fir-demo".toList, Nat.toDigits 10 1000]) 0 := by
  refine main_settles fun sampleCount hcount => ?_
  have hread : readSampleCount ["fir-demo".toList, Nat.toDigits 10 1000] =
      .ok (BitVec.ofNat 32 1000) := readSampleCount_toDigits _ [] (by omega) (by decide)
  obtain rfl := Except.ok.inj (hread.symm.trans hcount)
  decide

end settles

end Hardware

end FirDemo
