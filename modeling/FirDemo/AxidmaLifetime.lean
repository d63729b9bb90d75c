import FirDemo.AxidmaOf
import FirDemo.AxidmaTransfer
import FirDemo.Ledger
import Mathlib.Tactic.Abel

/-!
# What the axidma driver holds from its probe to its removal

The functions of `axi_dma.c`, and those that set up and clean up the dma part and the character
device, as programs over the kernel calls that take or give back a resource. An error of the
kernel is negative. The references that the device tree functions take are not counted.

A null pointer that is followed, an index outside its array and a `BUG_ON` are one operation
(`KernelOp.oops`), which uses what nothing ever takes : a run that gets there does not settle.

A probe that succeeds holds what `axidma_remove` gives back (`probe_settles`, `remove_settles`).
A probe that fails holds nothing, except where `axidma_of_parse_dma_nodes` refuses the tree :
`axidma_dma_init` returns there without freeing its two arrays. So the driver settles exactly if the
parser neither refuses the tree nor follows a null pointer (`loadUnload_settles_iff`).
-/

namespace FirDemo

open Threads Ledger Ledger.Account

/-! ## Kernel calls -/

/-- A resource, with what it is known by. The device is that of a class and a number, and the
character device that of the driver's structure. No operation takes `nothing`. -/
inductive KernelResource (w : ℕ)
  | mem (p : ℕ)
  | dmaChan (chan : ℕ)
  | chrdevRegion (devNum : ℕ)
  | devClass (devClass : ℕ)
  | device (devClass devNum : ℕ)
  | cdev (p : ℕ)
  | dmaRegion (size kernAddr dmaAddr : BitVec w)
  | dmaBuf (dmaBuf : ℕ)
  | attachment (dmaAttach : ℕ)
  | sgTable (sgTable : ℕ)
  | nothing
  deriving DecidableEq

/-- What `dma_buf_map_attachment` maps. -/
structure SgTable (w : ℕ) where
  sgTable : ℕ
  nents : ℕ
  dmaAddress : BitVec w

/-- `access` is a read or a write of an allocated structure, `transfer` an operation of a transfer,
and `oops` a null pointer that is followed, an index outside its array, or a `BUG_ON`. -/
inductive KernelOp (w : ℕ)
  | dmaSetCoherentMask
  | kmalloc
  | kfree (p : ℕ)
  | access (p : ℕ)
  | dmaRequestSlaveChannel (name : String)
  | dmaengineTerminateAll (chan : ℕ)
  | dmaReleaseChannel (chan : ℕ)
  | allocChrdevRegion
  | unregisterChrdevRegion (devNum : ℕ)
  | classCreate
  | classDestroy (devClass : ℕ)
  | deviceCreate (devClass devNum : ℕ)
  | deviceDestroy (devClass devNum : ℕ)
  | cdevAdd (p devNum : ℕ)
  | cdevDel (p : ℕ)
  | ofDmaConfigure (devClass devNum : ℕ)
  | dmaAllocCoherent (size : BitVec w)
  | dmaFreeCoherent (size kernAddr dmaAddr : BitVec w)
  | dmaMmapCoherent (size kernAddr dmaAddr : BitVec w)
  | dmaBufGet (fd : ℤ)
  | dmaBufPut (dmaBuf : ℕ)
  | dmaBufAttach (dmaBuf devClass devNum : ℕ)
  | dmaBufDetach (dmaBuf dmaAttach : ℕ)
  | dmaBufMapAttachment (dmaAttach : ℕ)
  | dmaBufUnmapAttachment (dmaAttach sgTable : ℕ)
  | sgDmaAddress (sgTable : ℕ)
  | accessOk
  | copyFromUser
  | copyToUser
  | transfer (o : AxidmaOp w)
  | oops

/-- The answers. -/
abbrev KernelOp.Ans {w : ℕ} : KernelOp w → Type
  | dmaSetCoherentMask => ℤ
  | kmalloc => Option ℕ
  | dmaRequestSlaveChannel _ => Option ℕ
  | allocChrdevRegion => Except ℤ ℕ
  | classCreate => Except ℤ ℕ
  | deviceCreate _ _ => Except ℤ Unit
  | cdevAdd _ _ => ℤ
  | dmaAllocCoherent _ => Option (BitVec w × BitVec w)
  | dmaMmapCoherent _ _ _ => ℤ
  | dmaBufGet _ => Except ℤ ℕ
  | dmaBufAttach _ _ _ => Except ℤ ℕ
  | dmaBufMapAttachment _ => Except ℤ (SgTable w)
  | accessOk => Bool
  | copyFromUser => Bool
  | copyToUser => Bool
  | transfer o => o.Ans
  | _ => Unit

/-- What a function of the driver does among the kernel calls. -/
abbrev KernelProg (w : ℕ) : Type → Type :=
  Prog (KernelOp.Ans : KernelOp w → Type)

/-- One kernel call. -/
abbrev kernelOp {w : ℕ} (o : KernelOp w) : KernelProg w o.Ans :=
  Prog.perform o

section account

variable {w : ℕ}

open KernelResource

/-- What a kernel call gives back. -/
def KernelOp.frees : KernelOp w → Multiset (KernelResource w)
  | kfree p => {mem p}
  | dmaReleaseChannel chan => {dmaChan chan}
  | unregisterChrdevRegion devNum => {chrdevRegion devNum}
  | classDestroy c => {devClass c}
  | deviceDestroy c devNum => {device c devNum}
  | cdevDel p => {cdev p}
  | dmaFreeCoherent size kernAddr dmaAddr => {dmaRegion size kernAddr dmaAddr}
  | dmaBufPut b => {dmaBuf b}
  | dmaBufDetach _ dmaAttach => {attachment dmaAttach}
  | dmaBufUnmapAttachment _ table => {sgTable table}
  | _ => 0

/-- The channel of the dma engine that an operation of a transfer calls. -/
def AxidmaOp.dmaChannel : AxidmaOp w → Option ℕ
  | setConfig chan => some chan
  | prep chan _ => some chan
  | submit chan _ _ => some chan
  | issuePending chan => some chan
  | isTxComplete chan _ => some chan
  | terminateAll chan => some chan
  | _ => none

/-- What has to be there for a kernel call. -/
def KernelOp.uses : KernelOp w → Multiset (KernelResource w)
  | access p => {mem p}
  | dmaengineTerminateAll chan => {dmaChan chan}
  | deviceCreate c devNum => {devClass c} + {chrdevRegion devNum}
  | deviceDestroy c _ => {devClass c}
  | cdevAdd p devNum => {mem p} + {chrdevRegion devNum}
  | cdevDel p => {mem p}
  | ofDmaConfigure c devNum => {device c devNum}
  | dmaMmapCoherent size kernAddr dmaAddr => {dmaRegion size kernAddr dmaAddr}
  | dmaBufAttach b c devNum => {dmaBuf b} + {device c devNum}
  | dmaBufDetach b _ => {dmaBuf b}
  | dmaBufMapAttachment dmaAttach => {attachment dmaAttach}
  | dmaBufUnmapAttachment dmaAttach _ => {attachment dmaAttach}
  | sgDmaAddress table => {sgTable table}
  | transfer o => match o.dmaChannel with
    | some chan => {dmaChan chan}
    | none => 0
  | oops => {nothing}
  | _ => 0

/-- What a kernel call takes with its answer. -/
def KernelOp.takes : (o : KernelOp w) → o.Ans → Multiset (KernelResource w)
  | kmalloc, some p => {mem p}
  | dmaRequestSlaveChannel _, some chan => {dmaChan chan}
  | allocChrdevRegion, .ok devNum => {chrdevRegion devNum}
  | classCreate, .ok c => {devClass c}
  | deviceCreate c devNum, .ok () => {device c devNum}
  | cdevAdd p _, rc => if rc < (0 : ℤ) then 0 else {cdev p}
  | dmaAllocCoherent size, some (kernAddr, dmaAddr) => {dmaRegion size kernAddr dmaAddr}
  | dmaBufGet _, .ok b => {dmaBuf b}
  | dmaBufAttach _ _ _, .ok dmaAttach => {attachment dmaAttach}
  | dmaBufMapAttachment _, .ok table => {sgTable table.sgTable}
  | _, _ => 0

/-- What the kernel calls take, need and give back. -/
def kernelAccount (w : ℕ) : Account (KernelOp.Ans (w := w)) (KernelResource w) where
  frees := KernelOp.frees
  uses := KernelOp.uses
  takes := KernelOp.takes

end account

/-! ## The programs -/

section programs

variable {w : ℕ}

/-- What `axidma_dma_init` leaves in the driver's structure. -/
structure AxidmaDma where
  of : OfDevice
  channels : ℕ
  cbData : ℕ
  chans : List ℕ

/-- What `axidma_chrdev_init` leaves in the driver's structure. -/
structure AxidmaChrdev where
  devNum : ℕ
  devClass : ℕ

/-- `struct axidma_device`, with the memory that it is in. -/
structure AxidmaDevice where
  mem : ℕ
  dma : AxidmaDma
  chrdev : AxidmaChrdev

/-- A channel that was requested is read from the array and released. -/
def releaseChannel (channels chan : ℕ) : KernelProg w Unit := do
  kernelOp (.access channels)
  kernelOp (.dmaReleaseChannel chan)

/-- The loop over the channels in the array, with those that are reserved. -/
def axidmaRequestChannels (channels : ℕ) (reserved : List ℕ) :
    List OfChan → KernelProg w (Except ℤ (List ℕ))
  | [] => return .ok reserved
  | chan :: rest => do
    kernelOp (.access channels)
    let dmaChan : Option ℕ ← kernelOp (.dmaRequestSlaveChannel chan.name)
    match dmaChan with
    | some dmaChan => axidmaRequestChannels channels (reserved ++ [dmaChan]) rest
    | none =>
      forEach (releaseChannel channels) reserved
      return .error (-ENODEV)

/-- An error of the tree, which may be a null pointer. -/
def ofFailure {α : Type} (e : OfError) : KernelProg w (Except ℤ α) :=
  match e.rc with
  | some rc => return .error rc
  | none => do
    kernelOp .oops
    return .error 0

/-- From the two arrays on. The parser writes the array of the channels. -/
def parseAndRequest (driverNode : DriverNode) (numChans channels cbData : ℕ) :
    KernelProg w (Except ℤ AxidmaDma) := do
  kernelOp (.access channels)
  match axidmaOfParseDmaNodes driverNode numChans with
  | .error e => ofFailure e
  | .ok dev =>
    match ← axidmaRequestChannels channels [] dev.channels with
    | .error rc =>
      kernelOp (.kfree cbData)
      kernelOp (.kfree channels)
      return .error rc
    | .ok chans => return .ok ⟨dev, channels, cbData, chans⟩

/-- The two arrays. -/
def allocArrays (driverNode : DriverNode) (numChans : ℕ) : KernelProg w (Except ℤ AxidmaDma) := do
  let channels : Option ℕ ← kernelOp .kmalloc
  match channels with
  | none => return .error (-ENOMEM)
  | some channels =>
    let cbData : Option ℕ ← kernelOp .kmalloc
    match cbData with
    | none =>
      kernelOp (.kfree channels)
      return .error (-ENOMEM)
    | some cbData => parseAndRequest driverNode numChans channels cbData

/-- The dma part of the driver is set up. -/
def axidmaDmaInit (driverNode : DriverNode) : KernelProg w (Except ℤ AxidmaDma) := do
  let rc : ℤ ← kernelOp .dmaSetCoherentMask
  if rc < 0 then
    return .error rc
  else
    match axidmaOfNumChannels driverNode with
    | .error e => ofFailure e
    | .ok numChans => allocArrays driverNode numChans

/-- A channel is read from the array, stopped and released. -/
def stopAndRelease (channels chan : ℕ) : KernelProg w Unit := do
  kernelOp (.access channels)
  kernelOp (.dmaengineTerminateAll chan)
  kernelOp (.dmaReleaseChannel chan)

/-- The dma part is cleaned up. The driver's structure has the arrays. -/
def axidmaDmaExit (p : ℕ) (dma : AxidmaDma) : KernelProg w Unit := do
  kernelOp (.access p)
  forEach (stopAndRelease dma.channels) dma.chans
  kernelOp (.kfree dma.channels)
  kernelOp (.kfree dma.cbData)

/-- From the device class on. -/
def createDevice (p devNum : ℕ) : KernelProg w (Except ℤ AxidmaChrdev) := do
  let devClass : Except ℤ ℕ ← kernelOp .classCreate
  match devClass with
  | .error rc =>
    kernelOp (.unregisterChrdevRegion devNum)
    return .error rc
  | .ok devClass =>
    let device : Except ℤ Unit ← kernelOp (.deviceCreate devClass devNum)
    match device with
    | .error rc =>
      kernelOp (.classDestroy devClass)
      kernelOp (.unregisterChrdevRegion devNum)
      return .error rc
    | .ok () =>
      let rc : ℤ ← kernelOp (.cdevAdd p devNum)
      if rc < 0 then
        kernelOp (.deviceDestroy devClass devNum)
        kernelOp (.classDestroy devClass)
        kernelOp (.unregisterChrdevRegion devNum)
        return .error rc
      else
        return .ok ⟨devNum, devClass⟩

/-- The character device is set up. -/
def axidmaChrdevInit (p : ℕ) : KernelProg w (Except ℤ AxidmaChrdev) := do
  let devNum : Except ℤ ℕ ← kernelOp .allocChrdevRegion
  match devNum with
  | .error rc => return .error rc
  | .ok devNum => createDevice p devNum

/-- The character device is cleaned up. -/
def axidmaChrdevExit (p : ℕ) (chrdev : AxidmaChrdev) : KernelProg w Unit := do
  kernelOp (.cdevDel p)
  kernelOp (.deviceDestroy chrdev.devClass chrdev.devNum)
  kernelOp (.classDestroy chrdev.devClass)
  kernelOp (.unregisterChrdevRegion chrdev.devNum)

/-- From the dma part on. -/
def probeChrdev (p : ℕ) (dma : AxidmaDma) : KernelProg w (Except ℤ AxidmaDevice) := do
  match ← axidmaChrdevInit p with
  | .error _ =>
    axidmaDmaExit p dma
    kernelOp (.kfree p)
    return .error (-ENOSYS)
  | .ok chrdev => return .ok ⟨p, dma, chrdev⟩

/-- The structure that a probe leaves as the driver's data. -/
def axidmaProbe (driverNode : DriverNode) : KernelProg w (Except ℤ AxidmaDevice) := do
  let axidmaDev : Option ℕ ← kernelOp .kmalloc
  match axidmaDev with
  | none => return .error (-ENOMEM)
  | some p =>
    match ← axidmaDmaInit driverNode with
    | .error _ =>
      kernelOp (.kfree p)
      return .error (-ENOSYS)
    | .ok dma => probeChrdev p dma

/-- The driver is removed. -/
def axidmaRemove (dev : AxidmaDevice) : KernelProg w Unit := do
  axidmaChrdevExit dev.mem dev.chrdev
  axidmaDmaExit dev.mem dev.dma
  kernelOp (.kfree dev.mem)

end programs

/-! ## What they hold -/

section settles

variable {w : ℕ} {α : Type} {Q : α → Multiset (KernelResource w) → Prop}
  {m : Multiset (KernelResource w)}

open KernelResource

/-- The channels of the dma engine. -/
def chansHeld (chans : List ℕ) : Multiset (KernelResource w) :=
  (chans.map fun chan => {dmaChan chan}).sum

/-- What the dma part holds. -/
def AxidmaDma.resources (dma : AxidmaDma) : Multiset (KernelResource w) :=
  {mem dma.channels} + ({mem dma.cbData} + chansHeld dma.chans)

/-- What the character device holds. -/
def AxidmaChrdev.resources (p : ℕ) (chrdev : AxidmaChrdev) : Multiset (KernelResource w) :=
  {cdev p} + ({device chrdev.devClass chrdev.devNum} +
    ({.devClass chrdev.devClass} + {chrdevRegion chrdev.devNum}))

/-- What a driver that was probed holds. -/
def AxidmaDevice.resources (dev : AxidmaDevice) : Multiset (KernelResource w) :=
  {.mem dev.mem} + (dev.dma.resources + dev.chrdev.resources dev.mem)

/-- Memory that is held is freed. -/
theorem settles_kfree {p : ℕ} {k : Unit → KernelProg w α} (rest : Multiset (KernelResource w))
    (hm : m = {mem p} + rest) (hk : (kernelAccount w).Settles Q (k ()) rest) :
    (kernelAccount w).Settles Q (.call (.kfree p) k) m :=
  settles_free rest hm (Multiset.zero_le _) (fun _ => rfl) fun _ => hk

/-- A read or a write of what is held. -/
theorem settles_access {p : ℕ} {k : Unit → KernelProg w α} (hp : {mem p} ≤ m)
    (hk : (kernelAccount w).Settles Q (k ()) m) :
    (kernelAccount w).Settles Q (.call (.access p) k) m :=
  settles_use hp rfl (fun _ => rfl) fun _ => hk

/-- A channel is given back. -/
theorem releaseChannel_settles {channels : ℕ} (hmem : {mem channels} ≤ m) (chan : ℕ) :
    (kernelAccount w).Settles (fun _ n => n = m) (releaseChannel channels chan)
      ({dmaChan chan} + m) :=
  settles_access (hmem.trans (Multiset.le_add_left _ _))
    (settles_free m rfl (Multiset.zero_le _) (fun _ => rfl) fun _ => rfl)

/-- The channels that are requested are held, and released where one of them is not there. -/
theorem requestChannels_settles {channels : ℕ} (hmem : {mem channels} ≤ m) (reserved : List ℕ)
    (chans : List OfChan) :
    (kernelAccount w).Settles
      (fun r n => match r with
        | .ok l => n = chansHeld l + m ∧ l.length = reserved.length + chans.length
        | .error _ => n = m)
      (axidmaRequestChannels channels reserved chans) (chansHeld reserved + m) := by
  induction chans generalizing reserved with
  | nil => exact ⟨rfl, rfl⟩
  | cons chan rest ih =>
    unfold axidmaRequestChannels
    refine settles_access (hmem.trans (Multiset.le_add_left _ _)) ?_
    refine settles_take rfl (Multiset.zero_le _) fun dmaChan => ?_
    cases dmaChan with
    | none =>
      show (kernelAccount w).Settles _ _ (0 + (chansHeld reserved + m))
      rw [zero_add]
      exact (settles_forEach (releaseChannel_settles hmem) reserved).bind fun _ n hn => hn
    | some dmaChan =>
      have hheld : {KernelResource.dmaChan dmaChan} + (chansHeld reserved + m) =
          chansHeld (reserved ++ [dmaChan]) + m := by
        rw [← add_assoc]
        simp [chansHeld, add_comm]
      show (kernelAccount w).Settles _ _
        ({KernelResource.dmaChan dmaChan} + (chansHeld reserved + m))
      rw [hheld]
      refine (ih (reserved ++ [dmaChan])).mono ?_
      rintro (rc | l) n hn
      · exact hn
      · refine ⟨hn.1, hn.2.trans ?_⟩
        simp only [List.length_append, List.length_cons, List.length_nil]
        omega

/-- An error that is not a null pointer is returned. -/
theorem ofFailure_settles {R : Except ℤ α → Multiset (KernelResource w) → Prop} {e : OfError}
    (hne : e.rc ≠ none) (hR : ∀ rc, e.rc = some rc → R (.error rc) m) :
    (kernelAccount w).Settles R (ofFailure e) m := by
  unfold ofFailure
  cases hrc : e.rc with
  | some rc => exact hR rc hrc
  | none => exact absurd hrc hne

/-- The parser follows a null pointer. -/
def Oopses (driverNode : DriverNode) : Prop :=
  ∃ e, axidmaOf driverNode = .error e ∧ e.rc = none

/-- The number of channels is read, and then the entries are refused. -/
def Rejected (driverNode : DriverNode) : Prop :=
  ∃ numChans e, axidmaOfNumChannels driverNode = .ok numChans ∧
    axidmaOfParseDmaNodes driverNode numChans = .error e ∧ e.rc ≠ none

/-- What the dma part holds after its initialisation. -/
def DmaInit (driverNode : DriverNode) : Except ℤ AxidmaDma → Multiset (KernelResource w) → Prop
  | .ok dma, n => axidmaOf driverNode = .ok dma.of ∧
      dma.chans.length = dma.of.channels.length ∧ n = dma.resources
  | .error _, n => n = 0 ∨ Rejected driverNode ∧ ∃ p q, n = {mem p} + {mem q}

section init

variable {driverNode : DriverNode} (hoops : ¬Oopses driverNode)

include hoops

/-- The arrays are freed if a channel is not there, and left if the tree is refused. -/
theorem parseAndRequest_settles {numChans : ℕ}
    (hnum : axidmaOfNumChannels driverNode = .ok numChans) (channels cbData : ℕ) :
    (kernelAccount w).Settles (DmaInit driverNode)
      (parseAndRequest driverNode numChans channels cbData) ({mem cbData} + {mem channels}) := by
  have hparse : axidmaOf driverNode = axidmaOfParseDmaNodes driverNode numChans := by
    rw [axidmaOf, hnum]
    rfl
  have hmem : {mem channels} ≤ ({mem cbData} + {mem channels} : Multiset (KernelResource w)) :=
    Multiset.le_add_left _ _
  unfold parseAndRequest
  refine settles_access hmem ?_
  cases hof : axidmaOfParseDmaNodes driverNode numChans with
  | error e =>
    have hne : e.rc ≠ none := fun hrc => hoops ⟨e, hparse.trans hof, hrc⟩
    exact ofFailure_settles hne fun rc hrc =>
      Or.inr ⟨⟨numChans, e, hnum, hof, hne⟩, cbData, channels, rfl⟩
  | ok dev =>
    rw [← zero_add ({mem cbData} + {mem channels})]
    refine (requestChannels_settles hmem [] dev.channels).bind ?_
    rintro (rc | chans) n hn
    · rw [show n = {mem cbData} + {mem channels} from hn]
      exact settles_kfree _ rfl (settles_kfree 0 (add_zero _).symm (Or.inl rfl))
    · refine ⟨hparse.trans hof, by simpa using hn.2, ?_⟩
      rw [hn.1, AxidmaDma.resources, add_comm, add_comm {mem cbData}, add_assoc]

/-- The first array is freed if the second one cannot be had. -/
theorem allocArrays_settles {numChans : ℕ}
    (hnum : axidmaOfNumChannels driverNode = .ok numChans) :
    (kernelAccount w).Settles (DmaInit driverNode) (allocArrays driverNode numChans) 0 := by
  refine settles_take (o := KernelOp.kmalloc) rfl (Multiset.zero_le _) fun channels => ?_
  cases channels with
  | none => exact Or.inl rfl
  | some channels =>
    refine settles_take (o := KernelOp.kmalloc) rfl (Multiset.zero_le _) fun cbData => ?_
    show (kernelAccount w).Settles _ _ (_ + ({mem channels} + 0))
    rw [add_zero]
    cases cbData with
    | none => exact settles_kfree 0 (add_comm _ _) (Or.inl rfl)
    | some cbData => exact parseAndRequest_settles hoops hnum channels cbData

/-- The dma part holds what it took, or left. -/
theorem dmaInit_settles :
    (kernelAccount w).Settles (DmaInit driverNode) (axidmaDmaInit driverNode) 0 := by
  refine settles_take (o := KernelOp.dmaSetCoherentMask) rfl (Multiset.zero_le _) fun rc => ?_
  show (kernelAccount w).Settles _ (if rc < (0 : ℤ) then _ else _) (0 + 0)
  rw [add_zero]
  split
  · exact Or.inl rfl
  · cases hnum : axidmaOfNumChannels driverNode with
    | error e =>
      have hne : e.rc ≠ none := fun hrc => hoops ⟨e, by rw [axidmaOf, hnum]; rfl, hrc⟩
      exact ofFailure_settles hne fun _ _ => Or.inl rfl
    | ok numChans => exact allocArrays_settles hoops hnum

end init

/-- A channel is stopped while it is held. -/
theorem stopAndRelease_settles {channels : ℕ} (hmem : {mem channels} ≤ m) (chan : ℕ) :
    (kernelAccount w).Settles (fun _ n => n = m) (stopAndRelease channels chan)
      ({dmaChan chan} + m) := by
  refine settles_access (hmem.trans (Multiset.le_add_left _ _)) ?_
  refine settles_use (o := KernelOp.dmaengineTerminateAll chan) (Multiset.le_add_right _ _) rfl
    (fun _ => rfl) fun _ => ?_
  exact settles_free m rfl (Multiset.zero_le _) (fun _ => rfl) fun _ => rfl

/-- The clean-up gives back what the dma part holds. -/
theorem dmaExit_settles {p : ℕ} (hmem : {mem p} ≤ m) (dma : AxidmaDma) :
    (kernelAccount w).Settles (fun _ n => n = m) (axidmaDmaExit p dma) (dma.resources + m) := by
  unfold axidmaDmaExit
  refine settles_access (hmem.trans (Multiset.le_add_left _ _)) ?_
  have hheld : dma.resources + m =
      (dma.chans.map fun chan => {dmaChan chan}).sum +
        ({mem dma.channels} + ({mem dma.cbData} + m)) := by
    rw [AxidmaDma.resources, chansHeld]
    abel
  rw [hheld]
  refine (settles_forEach (stopAndRelease_settles (Multiset.le_add_right _ _))
    dma.chans).bind_eq fun _ => ?_
  exact settles_kfree _ rfl (settles_kfree m rfl rfl)

/-- A device that is not added leaves the structure of the driver. -/
def ChrdevInit (p : ℕ) : Except ℤ AxidmaChrdev → Multiset (KernelResource w) → Prop
  | .ok chrdev, n => n = chrdev.resources p + {mem p}
  | .error _, n => n = {mem p}

/-- The class, the device and the numbers are given back in the reverse order. -/
theorem createDevice_settles (p devNum : ℕ) :
    (kernelAccount w).Settles (ChrdevInit p) (createDevice p devNum)
      ({chrdevRegion devNum} + {mem p}) := by
  have hregion : ∀ rc : ℤ, (kernelAccount w).Settles (ChrdevInit p)
      (.call (.unregisterChrdevRegion devNum) fun _ => .ret (.error rc))
      ({chrdevRegion devNum} + {mem p}) := fun rc =>
    settles_free _ rfl (Multiset.zero_le _) (fun _ => rfl) fun _ => rfl
  unfold createDevice
  refine settles_take (o := KernelOp.classCreate) rfl (Multiset.zero_le _) fun devClass => ?_
  rcases devClass with rc | c
  · show (kernelAccount w).Settles _ _ (0 + ({chrdevRegion devNum} + {mem p}))
    rw [zero_add]
    exact hregion rc
  have hclass : ∀ rc : ℤ, (kernelAccount w).Settles (ChrdevInit p)
      (.call (.classDestroy c) fun _ => .call (.unregisterChrdevRegion devNum) fun _ =>
        .ret (.error rc)) ({devClass c} + ({chrdevRegion devNum} + {mem p})) := fun rc =>
    settles_free _ rfl (Multiset.zero_le _) (fun _ => rfl) fun _ => hregion rc
  refine settles_take (o := KernelOp.deviceCreate c devNum) rfl ?_ fun device => ?_
  · show {devClass c} + {chrdevRegion devNum} ≤ {devClass c} + ({chrdevRegion devNum} + {mem p})
    rw [← add_assoc]
    exact Multiset.le_add_right _ _
  rcases device with rc | ⟨⟩
  · show (kernelAccount w).Settles _ _ (0 + ({devClass c} + ({chrdevRegion devNum} + {mem p})))
    rw [zero_add]
    exact hclass rc
  refine settles_take (o := KernelOp.cdevAdd p devNum) rfl ?_ fun rc => ?_
  · show {mem p} + {chrdevRegion devNum} ≤
      {device c devNum} + ({devClass c} + ({chrdevRegion devNum} + {mem p}))
    exact Multiset.le_iff_exists_add.mpr ⟨{device c devNum} + {devClass c}, by abel⟩
  show (kernelAccount w).Settles _ (if rc < (0 : ℤ) then _ else _)
    ((if rc < (0 : ℤ) then 0 else {cdev p}) + _)
  split
  · refine settles_free ({devClass c} + ({chrdevRegion devNum} + {mem p})) (zero_add _)
      (Multiset.le_add_right _ _) (fun _ => rfl) fun _ => hclass rc
  · show _ = _
    rw [AxidmaChrdev.resources]
    show {cdev p} + ({device c devNum} + ({devClass c} + ({chrdevRegion devNum} + {mem p}))) = _
    abel

/-- A character device that fails holds nothing. -/
theorem chrdevInit_settles (p : ℕ) :
    (kernelAccount w).Settles (ChrdevInit p) (axidmaChrdevInit p) {mem p} := by
  unfold axidmaChrdevInit
  refine settles_take (o := KernelOp.allocChrdevRegion) rfl (Multiset.zero_le _) fun devNum => ?_
  rcases devNum with rc | devNum
  · exact zero_add _
  · exact createDevice_settles p devNum

/-- The clean-up gives back what the character device holds. -/
theorem chrdevExit_settles (p : ℕ) (chrdev : AxidmaChrdev) :
    (kernelAccount w).Settles (fun _ n => n = {mem p}) (axidmaChrdevExit p chrdev)
      (chrdev.resources p + {mem p}) := by
  unfold axidmaChrdevExit AxidmaChrdev.resources
  obtain ⟨devNum, c⟩ := chrdev
  refine settles_free ({device c devNum} + ({devClass c} + ({chrdevRegion devNum} + {mem p})))
    (by show _ = {cdev p} + _; abel)
    (Multiset.le_iff_exists_add.mpr
      ⟨{device c devNum} + ({devClass c} + {chrdevRegion devNum}), by show _ = {mem p} + _; abel⟩)
    (fun _ => rfl) fun _ => ?_
  refine settles_free _ rfl (Multiset.le_add_right _ _) (fun _ => rfl) fun _ => ?_
  refine settles_free _ rfl (Multiset.zero_le _) (fun _ => rfl) fun _ => ?_
  exact settles_free _ rfl (Multiset.zero_le _) (fun _ => rfl) fun _ => rfl

/-- What the driver holds after its probe. -/
def Probed (driverNode : DriverNode) : Except ℤ AxidmaDevice → Multiset (KernelResource w) → Prop
  | .ok dev, n => axidmaOf driverNode = .ok dev.dma.of ∧
      dev.dma.chans.length = dev.dma.of.channels.length ∧ n = dev.resources
  | .error rc, n => (rc = -ENOMEM ∨ rc = -ENOSYS) ∧
      (n = 0 ∨ Rejected driverNode ∧ ∃ p q, n = {mem p} + {mem q})

/-- If the character device fails, the dma part is cleaned up. -/
theorem probeChrdev_settles {driverNode : DriverNode} (p : ℕ) {dma : AxidmaDma}
    (hof : axidmaOf driverNode = .ok dma.of) (hlen : dma.chans.length = dma.of.channels.length) :
    (kernelAccount w).Settles (Probed driverNode) (probeChrdev p dma)
      ({mem p} + dma.resources) := by
  unfold probeChrdev
  refine (chrdevInit_settles p).bind_frame _ ?_
  rintro (rc | chrdev) n hn
  · rw [show n = {mem p} from hn, add_comm]
    refine (dmaExit_settles le_rfl dma).bind_eq fun _ => ?_
    exact settles_kfree 0 (add_zero _).symm ⟨Or.inr rfl, Or.inl rfl⟩
  · refine ⟨hof, hlen, ?_⟩
    rw [show n = chrdev.resources p + {mem p} from hn, AxidmaDevice.resources]
    abel

/-- A probe that fails leaves nothing, or the arrays of a tree that is refused. -/
theorem probe_settles {driverNode : DriverNode} (hoops : ¬Oopses driverNode) :
    (kernelAccount w).Settles (Probed driverNode) (axidmaProbe driverNode) 0 := by
  unfold axidmaProbe
  refine settles_take (o := KernelOp.kmalloc) rfl (Multiset.zero_le _) fun axidmaDev => ?_
  cases axidmaDev with
  | none => exact ⟨Or.inl rfl, Or.inl rfl⟩
  | some p =>
    show (kernelAccount w).Settles _ _ ({mem p} + 0)
    rw [add_comm]
    refine (dmaInit_settles hoops).bind_frame {mem p} ?_
    rintro (rc | dma) n hn
    · exact settles_kfree n (add_comm _ _) ⟨Or.inr rfl, hn⟩
    · obtain ⟨hof, hlen, rfl⟩ := hn
      rw [add_comm]
      exact probeChrdev_settles p hof hlen

/-- The removal gives back what the probe took. -/
theorem remove_settles (dev : AxidmaDevice) :
    (kernelAccount w).Settles (fun _ n => n = 0) (axidmaRemove dev) dev.resources := by
  unfold axidmaRemove
  have hheld : (dev.resources : Multiset (KernelResource w)) =
      (dev.chrdev.resources dev.mem + {mem dev.mem}) + dev.dma.resources := by
    rw [AxidmaDevice.resources]
    abel
  rw [hheld]
  refine (chrdevExit_settles dev.mem dev.chrdev).bind_frame _ fun _ n hn => ?_
  rw [hn, add_comm]
  refine (dmaExit_settles le_rfl dev.dma).bind_eq fun _ => ?_
  exact settles_kfree 0 (add_zero _).symm rfl

/-- If the entries are refused, the arrays are left where the allocations succeed. -/
theorem dmaInit_leaves {driverNode : DriverNode} {numChans : ℕ} {e : OfError}
    (hnum : axidmaOfNumChannels driverNode = .ok numChans)
    (hof : axidmaOfParseDmaNodes driverNode numChans = .error e)
    {R : Except ℤ AxidmaDma → Multiset (KernelResource w) → Prop}
    (h : (kernelAccount w).Settles R (axidmaDmaInit driverNode) m) :
    (kernelAccount w).Settles R (ofFailure e) ({mem 2} + ({mem 1} + (0 + m))) := by
  have hmask : (kernelAccount w).Settles R (match axidmaOfNumChannels driverNode with
      | .error e => ofFailure e
      | .ok numChans => allocArrays driverNode numChans) (0 + m) :=
    h.call (o := KernelOp.dmaSetCoherentMask) (zero_add _).symm (0 : ℤ)
  rw [hnum] at hmask
  have hchannels := hmask.call (o := KernelOp.kmalloc) (zero_add _).symm (some 1)
  have hparse : (kernelAccount w).Settles R (parseAndRequest driverNode numChans 1 2)
      ({mem 2} + ({mem 1} + (0 + m))) :=
    hchannels.call (o := KernelOp.kmalloc) (zero_add _).symm (some 2)
  unfold parseAndRequest at hparse
  rw [hof] at hparse
  exact (Settles.of_use (o := KernelOp.access 1) hparse rfl fun _ => rfl).2 ()

/-- Nothing can be done after a null pointer was followed. -/
theorem not_settles_oops {k : Unit → KernelProg w α} (hm : nothing ∉ m) :
    ¬(kernelAccount w).Settles Q (.call .oops k) m := fun h =>
  hm (Multiset.singleton_le.mp (h.of_use rfl fun _ => rfl).1)

/-- The driver is loaded and unloaded. -/
def axidmaLoadUnload (driverNode : DriverNode) : KernelProg w Unit := do
  match ← axidmaProbe driverNode with
  | .error _ => return ()
  | .ok dev => axidmaRemove dev

/-- The entries are refused, or one of them makes the parser follow a null pointer. -/
theorem rejected_or_oopses {driverNode : DriverNode} :
    Rejected driverNode ∨ Oopses driverNode ↔
      ∃ numChans e, axidmaOfNumChannels driverNode = .ok numChans ∧
        axidmaOfParseDmaNodes driverNode numChans = .error e := by
  constructor
  · rintro (⟨numChans, e, hnum, hof, -⟩ | ⟨e, hof, hrc⟩)
    · exact ⟨numChans, e, hnum, hof⟩
    · rw [OfError.rc_eq_none_iff.mp hrc] at hof
      rcases bind_eq_error_iff.mp hof with h | ⟨numChans, hnum, h⟩
      · exact absurd h axidmaOfNumChannels_ne_nullNode
      · exact ⟨numChans, _, hnum, h⟩
  · rintro ⟨numChans, e, hnum, hof⟩
    by_cases hrc : e.rc = none
    · exact Or.inr ⟨e, by rw [axidmaOf, hnum]; exact hof, hrc⟩
    · exact Or.inl ⟨numChans, e, hnum, hof, hrc⟩

/-- Whatever fails, loading and unloading the driver frees what it takes and follows no null
pointer, exactly unless `axidma_of_parse_dma_nodes` refuses the tree or follows one itself. -/
theorem loadUnload_settles_iff (driverNode : DriverNode) :
    (kernelAccount w).Settles (fun _ n => n = 0) (axidmaLoadUnload driverNode) 0 ↔
      ¬Rejected driverNode ∧ ¬Oopses driverNode := by
  rw [← not_or]
  constructor
  · intro h hfails
    obtain ⟨numChans, e, hnum, hof⟩ := rejected_or_oopses.mp hfails
    have hprobe := (settles_bind_iff.mp h).call (o := KernelOp.kmalloc) (zero_add 0).symm (some 0)
    have hleft := dmaInit_leaves hnum hof (settles_bind_iff.mp hprobe)
    unfold ofFailure at hleft
    split at hleft
    · have hheld : ({mem 2} + ({mem 1} + (0 + ({mem 0} + 0))) : Multiset (KernelResource w)) =
          {mem 0} + ({mem 2} + {mem 1}) := by abel
      have hnil : (0 : Multiset (KernelResource w)) + ({mem 2} + {mem 1}) = 0 :=
        hleft.call (o := KernelOp.kfree 0) hheld ()
      simp at hnil
    · refine not_settles_oops ?_ hleft
      show nothing ∉ ({mem 2} + ({mem 1} + (0 + ({mem 0} + 0))) : Multiset (KernelResource w))
      simp
  · intro hfine
    obtain ⟨hrejected, hoops⟩ := not_or.mp hfine
    refine (probe_settles hoops).bind ?_
    rintro (rc | dev) n hn
    · exact hn.2.resolve_right fun h => hrejected h.1
    · rw [hn.2.2]
      exact remove_settles dev

/-- The tree of the board where both channels have id 0. -/
example : Rejected (boardTree 0) :=
  ⟨2, .sameChannelId 0 1, by decide, by decide, by decide⟩

end settles

end FirDemo
