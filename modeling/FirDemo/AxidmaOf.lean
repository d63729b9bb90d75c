import FirDemo.AxidmaDevice
import Mathlib.Data.List.Forall2
import Mathlib.Data.List.Induction

/-!
# The device tree of the axidma driver

`axidma_of.c` reads the channels from the node of the driver : an entry of `dmas` for each
channel, its name in `dma-names`, and the rest from the channel node that the entry points to.

The tree is accepted exactly if every entry is well formed (`Describes`) and no two channels have
the same id (`axidmaOf_ok_iff`). A channel node without `compatible` is accepted, with direction
and type not set. An entry for the second channel of a dma with one channel node makes the driver
print the name of a node that is not there (`axidmaOf_oops_iff`).

User space is told the channels by direction and type. The parser leaves those of a channel
without `compatible` as they were in memory (`OfDevice.stored`), and counts it in the total alone
(`axidmaGetNumChannels_counts`).
-/

namespace FirDemo

/-! ## Nodes -/

/-- A property that is missing, cannot be read, or has a value. -/
abbrev OfProperty (α : Type) : Type :=
  Option (Except ℤ α)

/-- A channel node. `compatible` answers `of_device_is_compatible`, where the property is there. -/
structure ChanNode where
  deviceId : OfProperty (BitVec 32)
  compatible : Option (String → Bool)

/-- A dma in the tree, with its channel nodes. -/
structure DmaNode where
  children : List ChanNode

/-- `struct of_phandle_args`. -/
structure PhandleArgs where
  np : DmaNode
  args : List (BitVec 32)

/-- The node of the driver. An entry of `dmas` may not resolve. -/
structure DriverNode where
  dmaNames : OfProperty (List String)
  dmas : OfProperty (List (Except ℤ PhandleArgs))

/-! ## What is read -/

/-- Direction and type. -/
abbrev ChanKind : Type :=
  AxidmaDir × AxidmaType

/-- A channel before it is requested. `kind` is `none` where it is not set. -/
structure OfChan where
  kind : Option ChanKind
  channelId : ℤ
  name : String
  deriving DecidableEq

/-- The counters of the kinds. -/
structure ChanCounts where
  numDmaTxChans : ℕ
  numDmaRxChans : ℕ
  numVdmaTxChans : ℕ
  numVdmaRxChans : ℕ
  deriving DecidableEq

/-- What the parser fills in of `axidma_device`. -/
structure OfDevice where
  channels : List OfChan
  counts : ChanCounts
  deriving DecidableEq

/-- A check that fails, in the order of the source. -/
inductive OfError
  | noDmaNames
  | noDmas
  | dmaNamesLength
  | dmaNamesEmpty
  | dmasLength
  | dmasEmpty
  | lengthsDiffer
  | phandle (i : ℕ) (rc : ℤ)
  | noChannelArgument (i : ℕ)
  | invalidChannel (i : ℕ)
  | noChannelNodes
  | moreThanTwoChannelNodes
  | nullNode
  | noDeviceId
  | deviceIdUnreadable
  | invalidCompatible
  | dmaName (i : ℕ)
  | sameChannelId (i j : ℕ)
  deriving DecidableEq

/-- What the parser returns, `none` where it follows the null pointer. -/
def OfError.rc : OfError → Option ℤ
  | phandle _ rc => some rc
  | nullNode => none
  | _ => some (-EINVAL)

/-! ## The parser -/

/-- `of_device_is_compatible`. -/
def ChanNode.isCompatible (np : ChanNode) (compat : String) : Bool :=
  np.compatible.any fun answer => answer compat

/-- The kind of a channel node, which stays open without the property. -/
def axidmaParseCompatibleProperty (np : ChanNode) : Except OfError (Option ChanKind) :=
  if np.isCompatible "xlnx,axi-dma-mm2s-channel" then
    .ok (some (.write, .dma))
  else if np.isCompatible "xlnx,axi-dma-s2mm-channel" then
    .ok (some (.read, .dma))
  else if np.isCompatible "xlnx,axi-vdma-mm2s-channel" then
    .ok (some (.write, .vdma))
  else if np.isCompatible "xlnx,axi-vdma-s2mm-channel" then
    .ok (some (.read, .vdma))
  else if np.compatible.isNone then
    .ok none
  else
    .error .invalidCompatible

/-- The counter of the kind is raised. -/
def ChanCounts.add (counts : ChanCounts) : Option ChanKind → ChanCounts
  | some (.write, .dma) => { counts with numDmaTxChans := counts.numDmaTxChans + 1 }
  | some (.read, .dma) => { counts with numDmaRxChans := counts.numDmaRxChans + 1 }
  | some (.write, .vdma) => { counts with numVdmaTxChans := counts.numVdmaTxChans + 1 }
  | some (.read, .vdma) => { counts with numVdmaRxChans := counts.numVdmaRxChans + 1 }
  | none => counts

/-- The channel node, and the checks on the number of them. -/
def channelNode (dmaNode : DmaNode) (channel : BitVec 32) : Except OfError ChanNode :=
  if dmaNode.children.length < 1 then
    .error .noChannelNodes
  else if 2 < dmaNode.children.length then
    .error .moreThanTwoChannelNodes
  else
    match dmaNode.children[channel.toNat]? with
    | some np => .ok np
    | none => .error .nullNode

/-- The id of a channel. -/
def readDeviceId (np : ChanNode) : Except OfError (BitVec 32) :=
  match np.deviceId with
  | none => .error .noDeviceId
  | some (.error _) => .error .deviceIdUnreadable
  | some (.ok channelId) => .ok channelId

/-- The id, and the direction and type. -/
def axidmaOfParseChannel (dmaNode : DmaNode) (channel : BitVec 32) :
    Except OfError (ℤ × Option ChanKind) := do
  let np ← channelNode dmaNode channel
  let channelId ← readDeviceId np
  let kind ← axidmaParseCompatibleProperty np
  return (channelId.toInt, kind)

/-- `of_parse_phandle_with_args`. -/
def DriverNode.parsePhandle (driverNode : DriverNode) (i : ℕ) : Except OfError PhandleArgs :=
  match driverNode.dmas with
  | some (.ok entries) =>
    match entries[i]? with
    | some (.ok phandleArgs) => .ok phandleArgs
    | some (.error rc) => .error (.phandle i rc)
    | none => .error (.phandle i (-ENOENT))
  | _ => .error (.phandle i (-ENOENT))

/-- The argument of an entry, which is the number of a channel of its dma. -/
def channelArgument (i : ℕ) (phandleArgs : PhandleArgs) : Except OfError (BitVec 32) :=
  match phandleArgs.args with
  | [] => .error (.noChannelArgument i)
  | channel :: _ =>
    if channel ≠ 0 ∧ channel ≠ 1 then .error (.invalidChannel i) else .ok channel

/-- The name of a channel. -/
def axidmaOfParseDmaName (driverNode : DriverNode) (i : ℕ) : Except OfError String :=
  match driverNode.dmaNames with
  | some (.ok names) =>
    match names[i]? with
    | some name => .ok name
    | none => .error (.dmaName i)
  | _ => .error (.dmaName i)

/-- The body of the loop over the channels. -/
def parseDmaNode (driverNode : DriverNode) (i : ℕ) : Except OfError OfChan := do
  let phandleArgs ← driverNode.parsePhandle i
  let channel ← channelArgument i phandleArgs
  let (channelId, kind) ← axidmaOfParseChannel phandleArgs.np channel
  let name ← axidmaOfParseDmaName driverNode i
  return ⟨kind, channelId, name⟩

/-- A channel is added to the array, and counted. -/
def OfDevice.push (dev : OfDevice) (chan : OfChan) : OfDevice where
  channels := dev.channels ++ [chan]
  counts := dev.counts.add chan.kind

/-- The loop over the channels, from `i` on. -/
def parseDmaNodesFrom (driverNode : DriverNode) (i : ℕ) :
    ℕ → OfDevice → Except OfError OfDevice
  | 0, dev => .ok dev
  | n + 1, dev => do
    let chan ← parseDmaNode driverNode i
    parseDmaNodesFrom driverNode (i + 1) n (dev.push chan)

/-- Each channel against the ones after it. -/
def checkUniqueIdsFrom (i : ℕ) : List OfChan → Except OfError Unit
  | [] => .ok ()
  | chan1 :: rest =>
    match rest.findIdx? fun chan2 => chan1.channelId = chan2.channelId with
    | some j => .error (.sameChannelId i (i + 1 + j))
    | none => checkUniqueIdsFrom (i + 1) rest

/-- `axidma_check_unique_ids`. -/
def axidmaCheckUniqueIds (dev : OfDevice) : Except OfError Unit :=
  checkUniqueIdsFrom 0 dev.channels

/-- The length of a property, which is not empty. -/
def propertyLength {α : Type} (missing length empty : OfError) :
    OfProperty (List α) → Except OfError ℕ
  | none => .error missing
  | some (.error _) => .error length
  | some (.ok l) => if l.length = 0 then .error empty else .ok l.length

/-- The properties are looked for before their lengths are read. -/
def axidmaOfNumChannels (driverNode : DriverNode) : Except OfError ℕ := do
  if driverNode.dmaNames.isNone then
    throw .noDmaNames
  else if driverNode.dmas.isNone then
    throw .noDmas
  else
    let numDmaNames ←
      propertyLength .noDmaNames .dmaNamesLength .dmaNamesEmpty driverNode.dmaNames
    let numDmas ← propertyLength .noDmas .dmasLength .dmasEmpty driverNode.dmas
    if numDmaNames ≠ numDmas then
      throw .lengthsDiffer
    else
      return numDmaNames

/-- The loop over the entries, and the check of the ids. -/
def axidmaOfParseDmaNodes (driverNode : DriverNode) (numChans : ℕ) :
    Except OfError OfDevice := do
  let dev ← parseDmaNodesFrom driverNode 0 numChans ⟨[], ⟨0, 0, 0, 0⟩⟩
  axidmaCheckUniqueIds dev
  return dev

/-- What `axidma_dma_init` reads of the tree. -/
def axidmaOf (driverNode : DriverNode) : Except OfError OfDevice := do
  let numChans ← axidmaOfNumChannels driverNode
  axidmaOfParseDmaNodes driverNode numChans

/-! ## Well formed entries -/

/-- The compatible strings, in the order in which they are tried. -/
def compatibleKinds : List (String × ChanKind) :=
  [("xlnx,axi-dma-mm2s-channel", .write, .dma), ("xlnx,axi-dma-s2mm-channel", .read, .dma),
    ("xlnx,axi-vdma-mm2s-channel", .write, .vdma), ("xlnx,axi-vdma-s2mm-channel", .read, .vdma)]

/-- The kind of a channel node, if a compatible string matches. -/
def ChanNode.kind (np : ChanNode) : Option ChanKind :=
  (compatibleKinds.find? fun p => np.isCompatible p.1).map Prod.snd

/-- What an entry of `dmas` and its name say of a channel. -/
inductive Describes : Except ℤ PhandleArgs × String → OfChan → Prop
  | intro {phandleArgs : PhandleArgs} {channel : BitVec 32} {args : List (BitVec 32)}
      {np : ChanNode} {channelId : BitVec 32} {kind : Option ChanKind} {name : String}
      (hargs : phandleArgs.args = channel :: args) (hchannel : channel = 0 ∨ channel = 1)
      (hcount : phandleArgs.np.children.length ≤ 2)
      (hnode : phandleArgs.np.children[channel.toNat]? = some np)
      (hid : np.deviceId = some (.ok channelId))
      (hkind : kind = np.kind) (hset : kind = none → np.compatible = none) :
      Describes (.ok phandleArgs, name) ⟨kind, channelId.toInt, name⟩

/-- Two steps succeed if each of them does. -/
theorem bind_eq_ok_iff {ε α β : Type} {x : Except ε α} {f : α → Except ε β} {b : β} :
    (x >>= f) = .ok b ↔ ∃ a, x = .ok a ∧ f a = .ok b := by
  cases x with
  | error e => exact ⟨nofun, fun ⟨_, h, _⟩ => nomatch h⟩
  | ok a => exact ⟨fun h => ⟨a, rfl, h⟩, fun ⟨_, h, hb⟩ => Except.ok.inj h ▸ hb⟩

/-- Two steps fail where the first that fails does. -/
theorem bind_eq_error_iff {ε α β : Type} {x : Except ε α} {f : α → Except ε β} {e : ε} :
    (x >>= f) = .error e ↔ x = .error e ∨ ∃ a, x = .ok a ∧ f a = .error e := by
  cases x with
  | error e' =>
    refine ⟨fun h => Or.inl (Except.error.inj h ▸ rfl), ?_⟩
    rintro (h | ⟨_, h, _⟩)
    · exact Except.error.inj h ▸ rfl
    · exact nomatch h
  | ok a =>
    refine ⟨fun h => Or.inr ⟨a, rfl, h⟩, ?_⟩
    rintro (h | ⟨_, h, hb⟩)
    · exact nomatch h
    · exact Except.ok.inj h ▸ hb

/-- The four tests are a look in the table of kinds. -/
theorem axidmaParseCompatibleProperty_eq (np : ChanNode) :
    axidmaParseCompatibleProperty np =
      match np.kind with
      | some kind => .ok (some kind)
      | none => if np.compatible.isNone then .ok none else .error .invalidCompatible := by
  unfold axidmaParseCompatibleProperty ChanNode.kind compatibleKinds
  simp only [List.find?_cons, List.find?_nil]
  cases np.isCompatible "xlnx,axi-dma-mm2s-channel"
  · cases np.isCompatible "xlnx,axi-dma-s2mm-channel"
    · cases np.isCompatible "xlnx,axi-vdma-mm2s-channel"
      · cases np.isCompatible "xlnx,axi-vdma-s2mm-channel" <;> rfl
      · rfl
    · rfl
  · rfl

/-- A kind that is not known is accepted only where the property is absent. -/
theorem axidmaParseCompatibleProperty_eq_ok_iff {np : ChanNode} {kind : Option ChanKind} :
    axidmaParseCompatibleProperty np = .ok kind ↔
      kind = np.kind ∧ (kind = none → np.compatible = none) := by
  rw [axidmaParseCompatibleProperty_eq]
  cases np.kind with
  | some kind' =>
    refine ⟨fun h => ?_, fun ⟨h, _⟩ => by rw [h]⟩
    obtain rfl := Except.ok.inj h
    exact ⟨rfl, nofun⟩
  | none =>
    cases hcompatible : np.compatible with
    | none => simp [eq_comm]
    | some answer => simp

/-- A dma has at most two channel nodes, and the one asked for is there. -/
theorem channelNode_eq_ok_iff {dmaNode : DmaNode} {channel : BitVec 32} {np : ChanNode} :
    channelNode dmaNode channel = .ok np ↔
      dmaNode.children.length ≤ 2 ∧ dmaNode.children[channel.toNat]? = some np := by
  unfold channelNode
  split
  · next hnil =>
    refine ⟨nofun, fun ⟨_, hnode⟩ => ?_⟩
    have := (List.getElem?_eq_some_iff.mp hnode).1
    omega
  · split
    · next hmany => exact ⟨nofun, fun ⟨hcount, _⟩ => absurd hcount (by omega)⟩
    · next hcount =>
      cases dmaNode.children[channel.toNat]? with
      | none => simp
      | some np' => simpa using fun _ => by omega

/-- The id is present and readable. -/
theorem readDeviceId_eq_ok_iff {np : ChanNode} {channelId : BitVec 32} :
    readDeviceId np = .ok channelId ↔ np.deviceId = some (.ok channelId) := by
  unfold readDeviceId
  rcases np.deviceId with _ | _ | channelId' <;> simp

/-- The first argument is 0 or 1. -/
theorem channelArgument_eq_ok_iff {i : ℕ} {phandleArgs : PhandleArgs} {channel : BitVec 32} :
    channelArgument i phandleArgs = .ok channel ↔
      (∃ args, phandleArgs.args = channel :: args) ∧ (channel = 0 ∨ channel = 1) := by
  unfold channelArgument
  cases phandleArgs.args with
  | nil => simp
  | cons channel' args =>
    simp only
    split
    · next h =>
      refine ⟨nofun, ?_⟩
      rintro ⟨⟨args', heq⟩, h0 | h1⟩
      · exact absurd ((List.cons.inj heq).1.trans h0) h.1
      · exact absurd ((List.cons.inj heq).1.trans h1) h.2
    · next h =>
      refine ⟨fun heq => ?_, fun ⟨⟨_, heq⟩, _⟩ => congrArg _ (List.cons.inj heq).1⟩
      obtain rfl := Except.ok.inj heq
      exact ⟨⟨args, rfl⟩, by tauto⟩

/-- An entry of `dmas` and its name. -/
structure DriverNode.Entry (driverNode : DriverNode) (i : ℕ)
    (p : Except ℤ PhandleArgs × String) : Prop where
  dmas : ∃ entries, driverNode.dmas = some (.ok entries) ∧ entries[i]? = some p.1
  dmaNames : ∃ names, driverNode.dmaNames = some (.ok names) ∧ names[i]? = some p.2

section entries

variable {driverNode : DriverNode} {i : ℕ} {p : Except ℤ PhandleArgs × String}

/-- The phandle is that of the entry. -/
theorem DriverNode.Entry.parsePhandle (h : driverNode.Entry i p) :
    driverNode.parsePhandle i = p.1.mapError (OfError.phandle i) := by
  obtain ⟨entries, hdmas, hentry⟩ := h.dmas
  rw [DriverNode.parsePhandle, hdmas]
  simp only [hentry]
  cases p.1 <;> rfl

/-- The name is that of the entry. -/
theorem DriverNode.Entry.axidmaOfParseDmaName (h : driverNode.Entry i p) :
    FirDemo.axidmaOfParseDmaName driverNode i = .ok p.2 := by
  obtain ⟨names, hnames, hname⟩ := h.dmaNames
  rw [FirDemo.axidmaOfParseDmaName, hnames]
  simp only [hname]

/-- An entry gives the channel that it describes. -/
theorem parseDmaNode_eq_ok_iff (h : driverNode.Entry i p) {chan : OfChan} :
    parseDmaNode driverNode i = .ok chan ↔ Describes p chan := by
  obtain ⟨entry, name⟩ := p
  unfold parseDmaNode axidmaOfParseChannel
  rw [h.parsePhandle]
  simp only [h.axidmaOfParseDmaName, bind_eq_ok_iff, channelArgument_eq_ok_iff,
    channelNode_eq_ok_iff, readDeviceId_eq_ok_iff, axidmaParseCompatibleProperty_eq_ok_iff]
  constructor
  · rintro ⟨phandleArgs, hentry, channel, ⟨⟨args, hargs⟩, hchannel⟩, ⟨_, _⟩,
      ⟨np, ⟨hcount, hnode⟩, channelId, hid, kind, ⟨hkind, hset⟩, hpair⟩, name', hname, hchan⟩
    obtain ⟨rfl, rfl⟩ := Prod.mk.inj (Except.ok.inj hpair)
    obtain rfl := Except.ok.inj hname
    obtain rfl := Except.ok.inj hchan
    cases entry with
    | error rc => exact nomatch hentry
    | ok phandleArgs' =>
      obtain rfl := Except.ok.inj hentry
      exact .intro hargs hchannel hcount hnode hid hkind hset
  · rintro ⟨hargs, hchannel, hcount, hnode, hid, hkind, hset⟩
    exact ⟨_, rfl, _, ⟨⟨_, hargs⟩, hchannel⟩, _,
      ⟨_, ⟨hcount, hnode⟩, _, hid, _, ⟨hkind, hset⟩, rfl⟩, _, rfl, rfl⟩

end entries

/-! ## The whole tree -/

section loop

variable {driverNode : DriverNode} {i : ℕ} {l : List (Except ℤ PhandleArgs × String)}

/-- By induction on the entries that are left. -/
theorem parseDmaNodesFrom_eq_ok_iff (hl : ∀ k p, l[k]? = some p → driverNode.Entry (i + k) p)
    {dev dev' : OfDevice} :
    parseDmaNodesFrom driverNode i l.length dev = .ok dev' ↔
      ∃ chans, List.Forall₂ Describes l chans ∧ dev' = chans.foldl OfDevice.push dev := by
  induction l generalizing i dev with
  | nil =>
    refine ⟨fun h => ⟨[], .nil, (Except.ok.inj h).symm⟩, ?_⟩
    rintro ⟨chans, hchans, rfl⟩
    rw [List.forall₂_nil_left_iff] at hchans
    rw [hchans]
    rfl
  | cons p l ih =>
    have hp : driverNode.Entry i p := hl 0 p rfl
    have htail : ∀ k q, l[k]? = some q → driverNode.Entry (i + 1 + k) q := fun k q hq => by
      simpa [Nat.add_assoc, Nat.add_comm 1 k] using hl (k + 1) q hq
    rw [List.length_cons, parseDmaNodesFrom, bind_eq_ok_iff]
    simp only [parseDmaNode_eq_ok_iff hp, ih htail]
    constructor
    · rintro ⟨chan, hchan, chans, hchans, rfl⟩
      exact ⟨chan :: chans, .cons hchan hchans, rfl⟩
    · rintro ⟨_, hchans, rfl⟩
      cases hchans with
      | cons hchan hchans => exact ⟨_, hchan, _, hchans, rfl⟩

/-- The loop stops at the first entry that is not well formed. -/
theorem parseDmaNodesFrom_eq_error_iff (hl : ∀ k p, l[k]? = some p → driverNode.Entry (i + k) p)
    {dev : OfDevice} {e : OfError} :
    parseDmaNodesFrom driverNode i l.length dev = .error e ↔
      ∃ pre p post, l = pre ++ p :: post ∧ (∀ q ∈ pre, ∃ chan, Describes q chan) ∧
        parseDmaNode driverNode (i + pre.length) = .error e := by
  induction l generalizing i dev with
  | nil => simp [parseDmaNodesFrom]
  | cons p l ih =>
    have hp : driverNode.Entry i p := hl 0 p rfl
    have htail : ∀ k q, l[k]? = some q → driverNode.Entry (i + 1 + k) q := fun k q hq => by
      simpa [Nat.add_assoc, Nat.add_comm 1 k] using hl (k + 1) q hq
    rw [List.length_cons, parseDmaNodesFrom, bind_eq_error_iff]
    simp only [parseDmaNode_eq_ok_iff hp, ih htail]
    constructor
    · rintro (herror | ⟨chan, hchan, pre, q, post, rfl, hpre, herror⟩)
      · exact ⟨[], p, l, rfl, nofun, herror⟩
      · refine ⟨p :: pre, q, post, rfl, ?_, ?_⟩
        · rintro r (_ | ⟨_, hr⟩)
          · exact ⟨chan, hchan⟩
          · exact hpre r hr
        · rwa [List.length_cons, Nat.add_comm pre.length 1, ← Nat.add_assoc]
    · rintro ⟨pre, q, post, hsplit, hpre, herror⟩
      cases pre with
      | nil => exact Or.inl herror
      | cons r pre =>
        obtain ⟨rfl, rfl⟩ := List.cons.inj hsplit
        obtain ⟨chan, hchan⟩ := hpre p List.mem_cons_self
        refine Or.inr ⟨chan, hchan, pre, q, post, rfl,
          fun r hr => hpre r (List.mem_cons_of_mem _ hr), ?_⟩
        rwa [List.length_cons, Nat.add_comm pre.length 1, ← Nat.add_assoc] at herror

end loop

/-- The channels of each kind. -/
def countKinds (chans : List OfChan) : ChanCounts where
  numDmaTxChans := chans.countP fun chan => chan.kind = some (.write, .dma)
  numDmaRxChans := chans.countP fun chan => chan.kind = some (.read, .dma)
  numVdmaTxChans := chans.countP fun chan => chan.kind = some (.write, .vdma)
  numVdmaRxChans := chans.countP fun chan => chan.kind = some (.read, .vdma)

/-- One more channel is counted. -/
theorem countKinds_append_singleton (chans : List OfChan) (chan : OfChan) :
    countKinds (chans ++ [chan]) = (countKinds chans).add chan.kind := by
  obtain ⟨kind, channelId, name⟩ := chan
  rcases kind with _ | ⟨_ | _, _ | _⟩ <;> simp [countKinds, ChanCounts.add]

/-- The counters follow the channels. -/
theorem foldl_push (chans : List OfChan) :
    chans.foldl OfDevice.push ⟨[], ⟨0, 0, 0, 0⟩⟩ = ⟨chans, countKinds chans⟩ := by
  induction chans using List.reverseRecOn with
  | nil => rfl
  | append_singleton chans chan ih =>
    rw [List.foldl_append, ih, countKinds_append_singleton]
    rfl

/-- The two loops find any two equal ids. -/
theorem checkUniqueIdsFrom_eq_ok_iff {chans : List OfChan} {i : ℕ} :
    checkUniqueIdsFrom i chans = .ok () ↔ (chans.map OfChan.channelId).Nodup := by
  induction chans generalizing i with
  | nil => simp [checkUniqueIdsFrom]
  | cons chan1 rest ih =>
    rw [checkUniqueIdsFrom, List.map_cons, List.nodup_cons, ← ih (i := i + 1)]
    cases hfind : rest.findIdx? fun chan2 => chan1.channelId = chan2.channelId with
    | none =>
      rw [List.findIdx?_eq_none_iff] at hfind
      simp_all [eq_comm]
    | some j =>
      obtain ⟨hj, hsame, -⟩ := List.findIdx?_eq_some_iff_getElem.mp hfind
      refine ⟨nofun, fun ⟨hnot, _⟩ => absurd (List.mem_map.mpr ?_) hnot⟩
      exact ⟨rest[j], List.getElem_mem hj, by simpa [eq_comm] using hsame⟩

/-- The property is present, readable and not empty. -/
theorem propertyLength_eq_ok_iff {α : Type} {missing length empty : OfError}
    {prop : OfProperty (List α)} {n : ℕ} :
    propertyLength missing length empty prop = .ok n ↔
      ∃ l, prop = some (.ok l) ∧ l ≠ [] ∧ l.length = n := by
  unfold propertyLength
  rcases prop with _ | _ | l
  · simp
  · simp
  · cases l <;> simp

/-- The two properties have one length. -/
theorem axidmaOfNumChannels_eq_ok_iff {driverNode : DriverNode} {n : ℕ} :
    axidmaOfNumChannels driverNode = .ok n ↔
      ∃ entries names, driverNode.dmas = some (.ok entries) ∧
        driverNode.dmaNames = some (.ok names) ∧ names ≠ [] ∧ entries.length = names.length ∧
          names.length = n := by
  unfold axidmaOfNumChannels
  split
  · next hnone => exact ⟨nofun, fun ⟨_, _, _, hnames, _⟩ => by simp [hnames] at hnone⟩
  · split
    · next hnone => exact ⟨nofun, fun ⟨_, _, hdmas, _⟩ => by simp [hdmas] at hnone⟩
    · simp only [bind_eq_ok_iff, propertyLength_eq_ok_iff]
      constructor
      · rintro ⟨_, ⟨names, hnames, hne, rfl⟩, _, ⟨entries, hdmas, -, rfl⟩, h⟩
        split at h
        · exact nomatch h
        · next hlen =>
          exact ⟨entries, names, hdmas, hnames, hne, (not_not.mp hlen).symm, Except.ok.inj h⟩
      · rintro ⟨entries, names, hdmas, hnames, hne, hlen, rfl⟩
        refine ⟨_, ⟨names, hnames, hne, rfl⟩, _, ⟨entries, hdmas, fun hnil => hne ?_, rfl⟩, ?_⟩
        · rwa [hnil, List.length_nil, eq_comm, List.length_eq_zero_iff] at hlen
        · rw [if_neg (not_not.mpr hlen.symm)]
          rfl

/-- The entries of the tree, with their names. -/
theorem entry_of_zip {driverNode : DriverNode} {entries : List (Except ℤ PhandleArgs)}
    {names : List String} (hdmas : driverNode.dmas = some (.ok entries))
    (hnames : driverNode.dmaNames = some (.ok names)) (k : ℕ) (p : Except ℤ PhandleArgs × String)
    (hp : (entries.zip names)[k]? = some p) : driverNode.Entry (0 + k) p := by
  rw [List.getElem?_zip_eq_some] at hp
  rw [Nat.zero_add]
  exact ⟨⟨entries, hdmas, hp.1⟩, ⟨names, hnames, hp.2⟩⟩

/-- The channels are those that the entries describe, in order. -/
theorem axidmaOfParseDmaNodes_eq_ok_iff {driverNode : DriverNode}
    {entries : List (Except ℤ PhandleArgs)} {names : List String}
    (hdmas : driverNode.dmas = some (.ok entries))
    (hnames : driverNode.dmaNames = some (.ok names)) (hlen : entries.length = names.length)
    {dev : OfDevice} :
    axidmaOfParseDmaNodes driverNode names.length = .ok dev ↔
      List.Forall₂ Describes (entries.zip names) dev.channels ∧
        (dev.channels.map OfChan.channelId).Nodup ∧ dev.counts = countKinds dev.channels := by
  have hzip : names.length = (entries.zip names).length := by
    rw [List.length_zip, hlen, Nat.min_self]
  unfold axidmaOfParseDmaNodes axidmaCheckUniqueIds
  rw [hzip]
  simp only [bind_eq_ok_iff, parseDmaNodesFrom_eq_ok_iff (entry_of_zip hdmas hnames), foldl_push]
  constructor
  · rintro ⟨_, ⟨chans, hchans, rfl⟩, ⟨⟩, hids, hdev⟩
    obtain rfl := Except.ok.inj hdev
    exact ⟨hchans, checkUniqueIdsFrom_eq_ok_iff.mp hids, rfl⟩
  · rintro ⟨hchans, hids, hcounts⟩
    refine ⟨dev, ⟨dev.channels, hchans, ?_⟩, (), checkUniqueIdsFrom_eq_ok_iff.mpr hids, rfl⟩
    rw [← hcounts]

/-- What an accepted tree describes. -/
theorem described_of_axidmaOf {driverNode : DriverNode} {dev : OfDevice}
    (h : axidmaOf driverNode = .ok dev) :
    ∃ entries names, driverNode.dmas = some (.ok entries) ∧
      driverNode.dmaNames = some (.ok names) ∧ names ≠ [] ∧ entries.length = names.length ∧
        List.Forall₂ Describes (entries.zip names) dev.channels ∧
          (dev.channels.map OfChan.channelId).Nodup ∧ dev.counts = countKinds dev.channels := by
  unfold axidmaOf at h
  simp only [bind_eq_ok_iff, axidmaOfNumChannels_eq_ok_iff] at h
  obtain ⟨_, ⟨entries, names, hdmas, hnames, hne, hlen, rfl⟩, hparse⟩ := h
  exact ⟨entries, names, hdmas, hnames, hne, hlen,
    (axidmaOfParseDmaNodes_eq_ok_iff hdmas hnames hlen).mp hparse⟩

/-- The tree is accepted exactly if `dmas` and `dma-names` have the same length and are not
empty, every entry is well formed, and no two channels have the same id. -/
theorem axidmaOf_ok_iff {driverNode : DriverNode} {dev : OfDevice} :
    axidmaOf driverNode = .ok dev ↔
      ∃ entries names, driverNode.dmas = some (.ok entries) ∧
        driverNode.dmaNames = some (.ok names) ∧ names ≠ [] ∧ entries.length = names.length ∧
          List.Forall₂ Describes (entries.zip names) dev.channels ∧
            (dev.channels.map OfChan.channelId).Nodup ∧
              dev.counts = countKinds dev.channels := by
  refine ⟨described_of_axidmaOf, ?_⟩
  rintro ⟨entries, names, hdmas, hnames, hne, hlen, h⟩
  unfold axidmaOf
  simp only [bind_eq_ok_iff, axidmaOfNumChannels_eq_ok_iff]
  exact ⟨_, ⟨entries, names, hdmas, hnames, hne, hlen, rfl⟩,
    (axidmaOfParseDmaNodes_eq_ok_iff hdmas hnames hlen).mpr h⟩

/-- An accepted tree has channels, with distinct ids. -/
theorem channels_of_axidmaOf {driverNode : DriverNode} {dev : OfDevice}
    (h : axidmaOf driverNode = .ok dev) :
    (dev.channels.map OfChan.channelId).Nodup ∧ dev.channels ≠ [] := by
  obtain ⟨entries, names, -, -, hne, hlen, hdescribes, hids, -⟩ := described_of_axidmaOf h
  refine ⟨hids, fun hnil => hne ?_⟩
  have hlength := hdescribes.length_eq
  rw [hnil, List.length_zip, hlen, Nat.min_self] at hlength
  exact List.length_eq_zero_iff.mp hlength

/-! ## A node that is not there -/

/-- Only the null node has no return code. -/
theorem OfError.rc_eq_none_iff {e : OfError} : e.rc = none ↔ e = nullNode := by
  cases e <;> simp [rc]

/-- The list of children ends before the channel. -/
theorem channelNode_eq_nullNode_iff {dmaNode : DmaNode} {channel : BitVec 32} :
    channelNode dmaNode channel = .error .nullNode ↔
      0 < dmaNode.children.length ∧ dmaNode.children.length ≤ 2 ∧
        dmaNode.children.length ≤ channel.toNat := by
  unfold channelNode
  split
  · exact ⟨nofun, fun h => by omega⟩
  · split
    · exact ⟨nofun, fun h => by omega⟩
    · cases hnode : dmaNode.children[channel.toNat]? with
      | none =>
        rw [List.getElem?_eq_none_iff] at hnode
        exact ⟨fun _ => by omega, fun _ => rfl⟩
      | some np =>
        have := (List.getElem?_eq_some_iff.mp hnode).1
        exact ⟨nofun, fun h => by omega⟩

/-- The argument is a number. -/
theorem channelArgument_ne_nullNode {i : ℕ} {phandleArgs : PhandleArgs} :
    channelArgument i phandleArgs ≠ .error .nullNode := by
  unfold channelArgument
  split
  · nofun
  · split <;> nofun

/-- The id is read from a node that is there. -/
theorem readDeviceId_ne_nullNode {np : ChanNode} : readDeviceId np ≠ .error .nullNode := by
  unfold readDeviceId
  split <;> nofun

/-- The kind is read from a node that is there. -/
theorem axidmaParseCompatibleProperty_ne_nullNode {np : ChanNode} :
    axidmaParseCompatibleProperty np ≠ .error .nullNode := by
  rw [axidmaParseCompatibleProperty_eq]
  split
  · nofun
  · split <;> nofun

/-- Only the look for the channel node follows a null node. -/
theorem axidmaOfParseChannel_eq_nullNode_iff {dmaNode : DmaNode} {channel : BitVec 32} :
    axidmaOfParseChannel dmaNode channel = .error .nullNode ↔
      0 < dmaNode.children.length ∧ dmaNode.children.length ≤ 2 ∧
        dmaNode.children.length ≤ channel.toNat := by
  unfold axidmaOfParseChannel
  rw [bind_eq_error_iff, channelNode_eq_nullNode_iff]
  refine ⟨fun h => h.resolve_right ?_, Or.inl⟩
  rintro ⟨np, -, h⟩
  simp only [bind_eq_error_iff, readDeviceId_ne_nullNode,
    axidmaParseCompatibleProperty_ne_nullNode, false_or] at h
  obtain ⟨_, -, _, -, hpair⟩ := h
  exact nomatch hpair

/-- The second channel of a dma with one. -/
theorem parseDmaNode_eq_nullNode_iff {driverNode : DriverNode} {i : ℕ}
    {p : Except ℤ PhandleArgs × String} (h : driverNode.Entry i p) :
    parseDmaNode driverNode i = .error .nullNode ↔
      ∃ phandleArgs args, p.1 = .ok phandleArgs ∧ phandleArgs.args = 1 :: args ∧
        phandleArgs.np.children.length = 1 := by
  obtain ⟨entry, name⟩ := p
  unfold parseDmaNode
  rw [h.parsePhandle]
  cases entry with
  | error rc => exact ⟨nofun, fun ⟨_, _, hentry, _⟩ => nomatch hentry⟩
  | ok phandleArgs =>
    rw [bind_eq_error_iff]
    simp only [bind_eq_error_iff, channelArgument_ne_nullNode, channelArgument_eq_ok_iff,
      axidmaOfParseChannel_eq_nullNode_iff, h.axidmaOfParseDmaName, false_or]
    constructor
    · rintro (h | ⟨_, hentry, channel, ⟨⟨args, hargs⟩, rfl | rfl⟩, hnode | ⟨_, -, h | ⟨_, -, h⟩⟩⟩)
      · exact nomatch h
      · exact absurd hnode.1 (Nat.not_lt.mpr hnode.2.2)
      · exact nomatch h
      · exact nomatch h
      · obtain rfl := Except.ok.inj hentry
        have hle : phandleArgs.np.children.length ≤ 1 := hnode.2.2
        exact ⟨phandleArgs, args, rfl, hargs, by omega⟩
      · exact nomatch h
      · exact nomatch h
    · rintro ⟨phandleArgs', args, hentry, hargs, hone⟩
      obtain rfl := Except.ok.inj hentry
      refine Or.inr ⟨phandleArgs, rfl, 1, ⟨⟨args, hargs⟩, Or.inr rfl⟩, Or.inl ?_⟩
      rw [hone]
      decide

/-- A length is read from the driver's node. -/
theorem propertyLength_ne_nullNode {α : Type} {missing length empty : OfError}
    {prop : OfProperty (List α)} (hmissing : missing ≠ .nullNode) (hlength : length ≠ .nullNode)
    (hempty : empty ≠ .nullNode) : propertyLength missing length empty prop ≠ .error .nullNode := by
  unfold propertyLength
  split
  · exact fun h => hmissing (Except.error.inj h)
  · exact fun h => hlength (Except.error.inj h)
  · split
    · exact fun h => hempty (Except.error.inj h)
    · nofun

/-- Both lengths are. -/
theorem axidmaOfNumChannels_ne_nullNode {driverNode : DriverNode} :
    axidmaOfNumChannels driverNode ≠ .error .nullNode := by
  unfold axidmaOfNumChannels
  split
  · nofun
  · split
    · nofun
    · rw [Ne, bind_eq_error_iff]
      rintro (h | ⟨numDmaNames, -, h⟩)
      · exact propertyLength_ne_nullNode (by decide) (by decide) (by decide) h
      · rcases bind_eq_error_iff.mp h with h | ⟨numDmas, -, h⟩
        · exact propertyLength_ne_nullNode (by decide) (by decide) (by decide) h
        · split at h <;> exact nomatch h

/-- The ids are compared in memory. -/
theorem checkUniqueIdsFrom_ne_nullNode {chans : List OfChan} {i : ℕ} :
    checkUniqueIdsFrom i chans ≠ .error .nullNode := by
  induction chans generalizing i with
  | nil => nofun
  | cons chan1 rest ih =>
    rw [checkUniqueIdsFrom]
    split
    · nofun
    · exact ih

/-- The parser follows the null pointer exactly if the first entry that is not well formed asks
for the second channel of a dma that has one channel node. -/
theorem axidmaOf_oops_iff {driverNode : DriverNode} :
    (∃ e, axidmaOf driverNode = .error e ∧ e.rc = none) ↔
      ∃ entries names, driverNode.dmas = some (.ok entries) ∧
        driverNode.dmaNames = some (.ok names) ∧ entries.length = names.length ∧
          ∃ pre phandleArgs name post args,
            entries.zip names = pre ++ (.ok phandleArgs, name) :: post ∧
              (∀ p ∈ pre, ∃ chan, Describes p chan) ∧ phandleArgs.args = 1 :: args ∧
                phandleArgs.np.children.length = 1 := by
  have hnull : (∃ e, axidmaOf driverNode = .error e ∧ e.rc = none) ↔
      axidmaOf driverNode = .error .nullNode := by
    constructor
    · rintro ⟨e, herror, hrc⟩
      rwa [OfError.rc_eq_none_iff.mp hrc] at herror
    · exact fun h => ⟨_, h, rfl⟩
  rw [hnull]
  unfold axidmaOf axidmaOfParseDmaNodes axidmaCheckUniqueIds
  simp only [bind_eq_error_iff, axidmaOfNumChannels_ne_nullNode, axidmaOfNumChannels_eq_ok_iff,
    checkUniqueIdsFrom_ne_nullNode, false_or]
  constructor
  · rintro ⟨_, ⟨entries, names, hdmas, hnames, -, hlen, rfl⟩, h | ⟨_, -, _, -, h⟩⟩
    · have hzip : names.length = (entries.zip names).length := by
        rw [List.length_zip, hlen, Nat.min_self]
      rw [hzip, parseDmaNodesFrom_eq_error_iff (entry_of_zip hdmas hnames)] at h
      obtain ⟨pre, ⟨entry, name⟩, post, hsplit, hpre, herror⟩ := h
      have hentry := entry_of_zip hdmas hnames pre.length (entry, name) (by rw [hsplit]; simp)
      obtain ⟨phandleArgs, args, rfl, hargs, hone⟩ :=
        (parseDmaNode_eq_nullNode_iff hentry).mp herror
      exact ⟨entries, names, hdmas, hnames, hlen, pre, phandleArgs, name, post, args, hsplit, hpre,
        hargs, hone⟩
    · exact nomatch h
  · rintro ⟨entries, names, hdmas, hnames, hlen, pre, phandleArgs, name, post, args, hsplit, hpre,
      hargs, hone⟩
    have hzip : names.length = (entries.zip names).length := by
      rw [List.length_zip, hlen, Nat.min_self]
    have hne : names ≠ [] := by
      rintro rfl
      rw [List.zip_nil_right] at hsplit
      exact absurd hsplit.symm (by simp)
    refine ⟨_, ⟨entries, names, hdmas, hnames, hne, hlen, rfl⟩, Or.inl ?_⟩
    rw [hzip, parseDmaNodesFrom_eq_error_iff (entry_of_zip hdmas hnames)]
    have hentry := entry_of_zip hdmas hnames pre.length (.ok phandleArgs, name)
      (by rw [hsplit]; simp)
    exact ⟨pre, _, post, hsplit, hpre,
      (parseDmaNode_eq_nullNode_iff hentry).mpr ⟨phandleArgs, args, rfl, hargs, hone⟩⟩

/-! ## The board -/

/-- A channel node with an id and one compatible string. -/
def channelNodeOf (compat : String) (channelId : BitVec 32) : ChanNode where
  deviceId := some (.ok channelId)
  compatible := some fun s => s = compat

/-- The tree of the board, where the receive channel has the given id. -/
def boardTree (rxChannelId : BitVec 32) : DriverNode :=
  let axiDma0 : DmaNode :=
    ⟨[channelNodeOf "xlnx,axi-dma-mm2s-channel" 0,
      channelNodeOf "xlnx,axi-dma-s2mm-channel" rxChannelId]⟩
  { dmaNames := some (.ok ["tx_channel", "rx_channel"])
    dmas := some (.ok [.ok ⟨axiDma0, [0]⟩, .ok ⟨axiDma0, [1]⟩]) }

/-- The board with the receive channel at argument 1. -/
theorem axidmaOf_boardTree : axidmaOf (boardTree 1) =
    .ok ⟨[⟨some (.write, .dma), 0, "tx_channel"⟩, ⟨some (.read, .dma), 1, "rx_channel"⟩],
      ⟨1, 1, 0, 0⟩⟩ := by
  decide

example : axidmaOf (boardTree 0) = .error (.sameChannelId 0 1) := by
  decide

/-! ## What user space is told -/

/-- `struct axidma_num_channels`. -/
structure AxidmaNumChannels extends ChanCounts where
  numChannels : ℕ

/-- `axidma_get_num_channels`. -/
def axidmaGetNumChannels (dev : OfDevice) : AxidmaNumChannels where
  toChanCounts := dev.counts
  numChannels := dev.channels.length

/-- The direction and the type that the memory of a channel holds before it is parsed. -/
abbrev ChanMemory : Type :=
  Option AxidmaDir × Option AxidmaType

/-- The channel in memory, once its channel of the dma engine is requested. -/
def OfChan.stored (memory : ChanMemory) (engine : ℕ) (chan : OfChan) : AxidmaChan where
  dir := (chan.kind.map Prod.fst).or memory.1
  type := (chan.kind.map Prod.snd).or memory.2
  channelId := chan.channelId
  name := chan.name
  chan := engine

/-- The array of channels of a driver that was probed. -/
def OfDevice.stored (memory : ℕ → ChanMemory) (engine : ℕ → ℕ) (dev : OfDevice) :
    List AxidmaChan :=
  dev.channels.mapIdx fun i chan => chan.stored (memory i) (engine i)

/-- The array that `axidma_channel_info` points to. -/
def axidmaGetChannelInfo (memory : ℕ → ChanMemory) (engine : ℕ → ℕ) (dev : OfDevice) :
    List AxidmaChan :=
  dev.stored memory engine

/-- The ids in the array are those of the tree. -/
theorem OfDevice.stored_channelId (memory : ℕ → ChanMemory) (engine : ℕ → ℕ) (dev : OfDevice) :
    (dev.stored memory engine).map AxidmaChan.channelId =
      dev.channels.map OfChan.channelId :=
  List.ext_getElem (by simp [stored]) fun i _ _ => by simp [stored, OfChan.stored]

/-- Where the kinds of all channels are set, the memory does not matter. -/
theorem OfDevice.countP_stored {memory : ℕ → ChanMemory} {engine : ℕ → ℕ} {dev : OfDevice}
    (hset : ∀ chan ∈ dev.channels, chan.kind ≠ none) (kind : ChanKind) :
    ((dev.stored memory engine).countP fun chan =>
        chan.dir = some kind.1 ∧ chan.type = some kind.2) =
      dev.channels.countP fun chan => chan.kind = some kind := by
  have hmap : (dev.stored memory engine).map (fun chan => (chan.dir, chan.type)) =
      dev.channels.map fun chan => (chan.kind.map Prod.fst, chan.kind.map Prod.snd) := by
    refine List.ext_getElem (by simp [stored]) fun i hi hi' => ?_
    rw [List.length_map] at hi'
    obtain ⟨k, hk⟩ := Option.ne_none_iff_exists'.mp (hset _ (List.getElem_mem hi'))
    simp [stored, OfChan.stored, hk]
  have hcount := congrArg (List.countP fun p => p = (some kind.1, some kind.2)) hmap
  simp only [List.countP_map, Function.comp_def, Prod.mk.injEq] at hcount
  rw [hcount]
  refine List.countP_congr fun chan _ => ?_
  rcases hk : chan.kind with _ | ⟨dir, type⟩ <;> simp [Prod.ext_iff]

/-- The counter of a kind. -/
def ChanCounts.ofKind (counts : ChanCounts) : ChanKind → ℕ
  | (.write, .dma) => counts.numDmaTxChans
  | (.read, .dma) => counts.numDmaRxChans
  | (.write, .vdma) => counts.numVdmaTxChans
  | (.read, .vdma) => counts.numVdmaRxChans

/-- The sum of the counters. -/
def ChanCounts.total (counts : ChanCounts) : ℕ :=
  counts.numDmaTxChans + counts.numDmaRxChans + counts.numVdmaTxChans + counts.numVdmaRxChans

/-- Each counter counts its kind. -/
theorem countKinds_ofKind (chans : List OfChan) (kind : ChanKind) :
    (countKinds chans).ofKind kind = chans.countP fun chan => chan.kind = some kind := by
  rcases kind with ⟨_ | _, _ | _⟩ <;> rfl

/-- Together they count the channels that have one. -/
theorem countKinds_total (chans : List OfChan) :
    (countKinds chans).total = chans.countP fun chan => chan.kind.isSome := by
  induction chans using List.reverseRecOn with
  | nil => rfl
  | append_singleton chans chan ih =>
    rw [countKinds_append_singleton, List.countP_append, ← ih]
    obtain ⟨kind, channelId, name⟩ := chan
    rcases kind with _ | ⟨_ | _, _ | _⟩ <;> simp [ChanCounts.add, ChanCounts.total] <;> omega

/-- If every channel has its kind set, each counter that user space gets is the number of channels
of that kind in the array that it gets. The counters sum up to the channels exactly then. -/
theorem axidmaGetNumChannels_counts {driverNode : DriverNode} {dev : OfDevice}
    (h : axidmaOf driverNode = .ok dev) :
    ((∀ chan ∈ dev.channels, chan.kind ≠ none) → ∀ memory engine kind,
      (axidmaGetNumChannels dev).ofKind kind =
        (axidmaGetChannelInfo memory engine dev).countP fun chan =>
          chan.dir = some kind.1 ∧ chan.type = some kind.2) ∧
      ((axidmaGetNumChannels dev).total = (axidmaGetNumChannels dev).numChannels ↔
        ∀ chan ∈ dev.channels, chan.kind ≠ none) := by
  obtain ⟨-, -, -, -, -, -, -, -, hcounts⟩ := described_of_axidmaOf h
  rw [axidmaGetNumChannels, hcounts]
  constructor
  · intro hset memory engine kind
    exact (countKinds_ofKind dev.channels kind).trans (OfDevice.countP_stored hset kind).symm
  · rw [countKinds_total, List.countP_eq_length]
    simp only [Option.isSome_iff_ne_none]

/-- One channel of each direction, in memory that held another one. -/
theorem axidmaGetNumChannels_counts_board :
    let dev : OfDevice :=
      ⟨[⟨some (.write, .dma), 0, "tx_channel"⟩, ⟨some (.read, .dma), 1, "rx_channel"⟩],
        ⟨1, 1, 0, 0⟩⟩
    (axidmaGetNumChannels dev).ofKind (.read, .dma) =
      (axidmaGetChannelInfo (fun _ => (some .read, none)) id dev).countP fun chan =>
        chan.dir = some .read ∧ chan.type = some .dma :=
  (axidmaGetNumChannels_counts axidmaOf_boardTree).1 (by decide) _ id (.read, .dma)

end FirDemo
