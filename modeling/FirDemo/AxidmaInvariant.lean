import FirDemo.AxidmaEngine
import Mathlib.Data.List.Lattice

/-!
# What holds in every state of the axidma driver

The invariant (`AxidmaInv`) : running calls name different channels, a descriptor carries the
index of its own channel, and if a channel has descriptors then the completion in its callback
data is initialised and belongs to a running call that waits for that channel. If the frames of
all calls fit (`AxidmaRequest.Framed`), what the engines access lies in buffers.

A step that only drops descriptors or counts completions keeps it (`AxidmaInv.quiet`), and so do
the steps of the engine and of memory (`AxidmaInv.env`).
-/

namespace FirDemo

open Segments Threads

section

variable {w : ℕ} {ι : Type}

/-! ## Assumptions on the channels and on the callers -/

/-- Distinct ids inside the callback data, distinct channels of the dma engine, and a type in each
channel. -/
structure ChannelsSound (channels : List AxidmaChan) : Prop where
  ids : (channels.map AxidmaChan.channelId).Nodup
  chans : (channels.map AxidmaChan.chan).Nodup
  inTable : ∀ chan ∈ channels, InTable channels chan.channelId
  types : ∀ chan ∈ channels, chan.type ≠ none

/-- Bytes on the bus. -/
structure BusRange where
  addr : ℕ
  len : ℕ
  deriving DecidableEq, Repr

namespace BusRange

/-- The range lies in the buffer. -/
def Inside (r : BusRange) (g : Segment) : Prop :=
  g.target ≤ r.addr ∧ r.addr + r.len ≤ g.target + g.size

/-- The range lies in the other one. -/
def Within (r r' : BusRange) : Prop :=
  r'.addr ≤ r.addr ∧ r.addr + r.len ≤ r'.addr + r'.len

/-- A range lies within itself. -/
theorem Within.refl (r : BusRange) : r.Within r :=
  ⟨le_rfl, le_rfl⟩

/-- What is within a range is in the buffer that holds the range. -/
theorem Within.inside {r r' : BusRange} (h : r.Within r') {g : Segment} (hin : r'.Inside g) :
    r.Inside g :=
  ⟨hin.1.trans h.1, h.2.trans hin.2⟩

end BusRange

/-- The bytes of an entry. -/
def SgEntry.range (e : SgEntry w) : BusRange :=
  ⟨e.dmaAddress.toNat, e.dmaLen.toNat⟩

/-- The bytes of a frame, whose lines follow each other without a gap. -/
def AxidmaVideoFrame.bytes (frame : AxidmaVideoFrame) (w : ℕ) : ℕ :=
  (frame.numf w).toNat * (frame.lineSize w).toNat

/-- What a descriptor makes the engine access. -/
def DmaWork.ranges : DmaWork w → List BusRange
  | .slaveSg sgList _ => sgList.map SgEntry.range
  | .interleaved start numf size _ => [⟨start.toNat, numf.toNat * size.toNat⟩]

/-- The descriptor keeps to the entries. -/
def DmaWork.Granted (work : DmaWork w) (G : List (SgEntry w)) : Prop :=
  ∀ r ∈ work.ranges, ∃ e ∈ G, r.Within e.range

/-- More entries may be granted. -/
theorem DmaWork.Granted.mono {work : DmaWork w} {G G' : List (SgEntry w)} (h : work.Granted G)
    (hsub : G ⊆ G') : work.Granted G' := by
  intro r hr
  obtain ⟨e, he, hwithin⟩ := h r hr
  exact ⟨e, hsub he, hwithin⟩

/-- The frame of a video transfer fits its entries. -/
def AxidmaTransfer.Framed (dmaTfr : AxidmaTransfer w) : Prop :=
  dmaTfr.type = some .vdma → ∀ entry ∈ dmaTfr.sgList, dmaTfr.frame.bytes w ≤ entry.dmaLen.toNat

/-- A range that a running call has looked up or that a descriptor covers. -/
def AxidmaState.InUse (s : AxidmaState w ι) (r : BusRange) : Prop :=
  (∃ t f, s.frame t = some f ∧ r ∈ f.granted.map SgEntry.range) ∨
    ∃ chan d, d ∈ (s.engine chan).outstanding ∧ r ∈ d.work.ranges

/-- Processes close no buffer that is in use. -/
def Kernel.ClosesUnused (K : Kernel w ι) : Prop :=
  ∀ dmaAlloc s, K.mayClose dmaAlloc s → ∀ r, s.InUse r → ¬r.Inside dmaAlloc.segment

/-- Frames fit the ranges that are looked up for them. A transfer in one direction does not set its
frame, and one in both directions sets both where the transmit channel is of video type. -/
def AxidmaRequest.Framed (channels : List AxidmaChan) : AxidmaRequest w → Prop
  | .read t => ∀ chan ∈ getChanOfDir channels .read t.channelId, chan.type = some .dma
  | .write t => ∀ chan ∈ getChanOfDir channels .write t.channelId, chan.type = some .dma
  | .readWrite t => ∀ txChan ∈ getChanOfDir channels .write t.txChannelId,
    ∀ rxChan ∈ getChanOfDir channels .read t.rxChannelId,
      (txChan.type = some .vdma → t.txFrame.bytes w ≤ (t.txBufLen.setWidth 32).toNat) ∧
      (rxChan.type = some .vdma →
        txChan.type = some .vdma ∧ t.rxFrame.bytes w ≤ (t.rxBufLen.setWidth 32).toNat)
  | .video t _ => t.frame.bytes w ≤ (t.imageSize.setWidth 32).toNat
  | _ => True

/-- No two calls use one channel at a time, a call that waits finds its channel without
descriptors, and no range wraps. -/
structure Disciplined (channels : List AxidmaChan) (t : ι) (r : AxidmaRequest w)
    (s : AxidmaState w ι) : Prop where
  exclusive : ∀ u f, s.frame u = some f → r.uses.Disjoint f.uses
  drained : ∀ id, r.blocks = some id → ∀ chan ∈ channels, chan.channelId = id →
    (s.engine chan.chan).outstanding = []
  named : r.Named channels
  noWrap : ∀ p ∈ r.ranges, p.1.toNat + p.2.toNat < 2 ^ w

/-- `framed` : the frames of all calls fit. -/
structure AxidmaInv (channels : List AxidmaChan) (K : Kernel w ι) (framed : Prop)
    (s : AxidmaState w ι) : Prop where
  exclusive : ∀ t u f g, s.frame t = some f → s.frame u = some g → t ≠ u →
    f.uses.Disjoint g.uses
  call_lt : ∀ t f, s.frame t = some f → f.call < s.nextCall
  call_inj : ∀ t u f g, s.frame t = some f → s.frame u = some g → f.call = g.call → t = u
  param : ∀ h d, d ∈ (s.engine h).outstanding →
    ∃ chan ∈ channels, chan.chan = h ∧ d.callbackParam = chan.channelId
  comp : ∀ chan ∈ channels, (s.engine chan.chan).outstanding ≠ [] → ∀ call,
    (s.cbData chan.channelId).comp = some call →
      ∃ t f, s.frame t = some f ∧ f.call = call ∧ f.comp ≠ none ∧
        f.blocks = some chan.channelId
  placed : ∀ g ∈ s.buffers.segments, Placed w g
  inside : framed → K.ClosesUnused → ∀ r, s.InUse r → ∃ g ∈ s.buffers.segments, r.Inside g

/-- The frame is that of the same call. -/
structure CallFrame.Keeps (f f' : CallFrame w) : Prop where
  key : f'.toCallKey = f.toCallKey
  comp : f.comp ≠ none → f'.comp ≠ none

/-- A step that drops descriptors, counts completions or grants entries inside buffers. -/
structure Quiet (s s' : AxidmaState w ι) : Prop where
  frame : ∀ t f', s'.frame t = some f' → ∃ f, s.frame t = some f ∧ f.Keeps f'
  frame' : ∀ t f, s.frame t = some f → ∃ f', s'.frame t = some f' ∧ f.Keeps f'
  outstanding : ∀ h d, d ∈ (s'.engine h).outstanding → d ∈ (s.engine h).outstanding
  comp : ∀ i, (s'.cbData i).comp = (s.cbData i).comp
  buffers : s'.buffers = s.buffers
  nextCall : s'.nextCall = s.nextCall
  granted : ∀ t f', s'.frame t = some f' → ∀ e ∈ f'.granted,
    s.InUse e.range ∨ ∃ g ∈ s.buffers.segments, e.range.Inside g

/-- A quiet step keeps the invariant. -/
theorem AxidmaInv.quiet {channels : List AxidmaChan} {K : Kernel w ι} {framed : Prop}
    {s s' : AxidmaState w ι} (hinv : AxidmaInv channels K framed s) (hq : Quiet s s') :
    AxidmaInv channels K framed s' where
  exclusive := by
    intro t u f' g' hf' hg' htu
    obtain ⟨f, hf, hkf⟩ := hq.frame t f' hf'
    obtain ⟨g, hg, hkg⟩ := hq.frame u g' hg'
    rw [hkf.key, hkg.key]
    exact hinv.exclusive t u f g hf hg htu
  call_lt := by
    intro t f' hf'
    obtain ⟨f, hf, hkf⟩ := hq.frame t f' hf'
    rw [hkf.key, hq.nextCall]
    exact hinv.call_lt t f hf
  call_inj := by
    intro t u f' g' hf' hg' hcall
    obtain ⟨f, hf, hkf⟩ := hq.frame t f' hf'
    obtain ⟨g, hg, hkg⟩ := hq.frame u g' hg'
    rw [hkf.key, hkg.key] at hcall
    exact hinv.call_inj t u f g hf hg hcall
  param h d hd := hinv.param h d (hq.outstanding h d hd)
  comp := by
    intro chan hchan hout call hcall
    have hout' : (s.engine chan.chan).outstanding ≠ [] := by
      obtain ⟨d, hd⟩ := List.exists_mem_of_ne_nil _ hout
      exact List.ne_nil_of_mem (hq.outstanding _ d hd)
    rw [hq.comp] at hcall
    obtain ⟨t, f, hf, hfcall, hcomp, hblocks⟩ := hinv.comp chan hchan hout' call hcall
    obtain ⟨f', hf', hkeeps⟩ := hq.frame' t f hf
    exact ⟨t, f', hf', by rw [hkeeps.key, hfcall], hkeeps.comp hcomp, by rw [hkeeps.key, hblocks]⟩
  placed := hq.buffers ▸ hinv.placed
  inside := by
    rw [hq.buffers]
    rintro hframed hK r (⟨t, f', hf', hr⟩ | ⟨chan, d, hd, hr⟩)
    · obtain ⟨e, he, rfl⟩ := List.mem_map.mp hr
      rcases hq.granted t f' hf' e he with huse | hin
      · exact hinv.inside hframed hK e.range huse
      · exact hin
    · exact hinv.inside hframed hK r (Or.inr ⟨chan, d, hq.outstanding chan d hd, hr⟩)

/-! ## Quiet steps -/

/-- A frame is that of its own call. -/
theorem CallFrame.Keeps.refl (f : CallFrame w) : f.Keeps f :=
  ⟨rfl, id⟩

/-- Two steps keep the call. -/
theorem CallFrame.Keeps.trans {f g h : CallFrame w} (hfg : f.Keeps g) (hgh : g.Keeps h) :
    f.Keeps h :=
  ⟨hgh.key.trans hfg.key, fun hf => hgh.comp (hfg.comp hf)⟩

/-- Quiet steps compose. -/
theorem Quiet.trans {s s' s'' : AxidmaState w ι} (h : Quiet s s') (h' : Quiet s' s'') :
    Quiet s s'' where
  frame t f'' hf'' := by
    obtain ⟨f', hf', hk'⟩ := h'.frame t f'' hf''
    obtain ⟨f, hf, hk⟩ := h.frame t f' hf'
    exact ⟨f, hf, hk.trans hk'⟩
  frame' t f hf := by
    obtain ⟨f', hf', hk⟩ := h.frame' t f hf
    obtain ⟨f'', hf'', hk'⟩ := h'.frame' t f' hf'
    exact ⟨f'', hf'', hk.trans hk'⟩
  outstanding chan d hd := h.outstanding chan d (h'.outstanding chan d hd)
  comp i := (h'.comp i).trans (h.comp i)
  buffers := h'.buffers.trans h.buffers
  nextCall := h'.nextCall.trans h.nextCall
  granted t f'' hf'' e he := by
    rcases h'.granted t f'' hf'' e he with (⟨u, f', hf', hr⟩ | ⟨chan, d, hd, hr⟩) | hin
    · obtain ⟨e', he', heq⟩ := List.mem_map.mp hr
      exact heq ▸ h.granted u f' hf' e' he'
    · exact Or.inl (Or.inr ⟨chan, d, h.outstanding chan d hd, hr⟩)
    · exact Or.inr (h.buffers ▸ hin)

/-- A step that leaves the frames and at most drops descriptors is quiet. -/
theorem quiet_of_frame_eq {s s' : AxidmaState w ι} (hframe : s'.frame = s.frame)
    (hout : ∀ h d, d ∈ (s'.engine h).outstanding → d ∈ (s.engine h).outstanding)
    (hcb : s'.cbData = s.cbData) (hbuffers : s'.buffers = s.buffers)
    (hnext : s'.nextCall = s.nextCall) : Quiet s s' where
  frame t f' hf' := ⟨f', by rw [← hframe, hf'], .refl f'⟩
  frame' t f hf := ⟨f, by rw [hframe, hf], .refl f⟩
  outstanding := hout
  comp i := by rw [hcb]
  buffers := hbuffers
  nextCall := hnext
  granted t f' hf' e he :=
    Or.inl (Or.inl ⟨t, f', by rw [← hframe, hf'], List.mem_map_of_mem he⟩)

/-- To do nothing is quiet. -/
theorem Quiet.refl (s : AxidmaState w ι) : Quiet s s :=
  quiet_of_frame_eq rfl (fun _ _ h => h) rfl rfl rfl

/-- A refused call leaves the channel. -/
@[simp] theorem AxidmaState.setEngine_self (s : AxidmaState w ι) (chan : ℕ) :
    s.setEngine chan (s.engine chan) = s := by
  simp [AxidmaState.setEngine]

/-- Descriptors may be dropped. -/
theorem quiet_setEngine (s : AxidmaState w ι) {chan : ℕ} {e : DmaEngine w}
    (he : ∀ d ∈ e.outstanding, d ∈ (s.engine chan).outstanding) :
    Quiet s (s.setEngine chan e) := by
  refine quiet_of_frame_eq rfl (fun h d hd => ?_) rfl rfl rfl
  simp only [AxidmaState.setEngine, Function.update_apply] at hd
  split at hd
  · next heq => exact heq ▸ he d hd
  · exact hd

/-- The completion of a call may change, if it stays initialised. -/
theorem quiet_onCompletion (s : AxidmaState w ι) (call : ℕ) {g : Option ℕ → Option ℕ}
    (hg : ∀ m, m ≠ none → g m ≠ none) : Quiet s (s.onCompletion call g) := by
  have hframe : ∀ {t f'}, (s.onCompletion call g).frame t = some f' →
      ∃ f, s.frame t = some f ∧ f' = if f.call = call then { f with comp := g f.comp } else f := by
    intro t f' hf'
    obtain ⟨f, hf, rfl⟩ := Option.map_eq_some_iff.mp hf'
    exact ⟨f, hf, rfl⟩
  have hkeeps : ∀ f : CallFrame w,
      f.Keeps (if f.call = call then { f with comp := g f.comp } else f) := by
    intro f
    split
    · exact ⟨rfl, hg f.comp⟩
    · exact .refl f
  refine ⟨fun t f' hf' => ?_, fun t f hf => ⟨_, congrArg (Option.map _) hf, hkeeps f⟩,
    fun _ _ h => h, fun _ => rfl, rfl, rfl, fun t f' hf' e he => ?_⟩
  · obtain ⟨f, hf, rfl⟩ := hframe hf'
    exact ⟨f, hf, hkeeps f⟩
  · obtain ⟨f, hf, rfl⟩ := hframe hf'
    refine Or.inl (Or.inl ⟨t, f, hf, List.mem_map_of_mem ?_⟩)
    split at he <;> exact he

/-- Only the frame of the thread changes. -/
theorem AxidmaState.modifyFrame_frame [DecidableEq ι] (s : AxidmaState w ι) (t u : ι)
    (g : CallFrame w → CallFrame w) :
    (s.modifyFrame t g).frame u = if u = t then (s.frame t).map g else s.frame u := by
  simp only [AxidmaState.modifyFrame, Function.update_apply]

/-- The frame before a change. -/
theorem AxidmaState.exists_of_modifyFrame [DecidableEq ι] {s : AxidmaState w ι} {t u : ι}
    {g : CallFrame w → CallFrame w} {f' : CallFrame w}
    (h : (s.modifyFrame t g).frame u = some f') :
    ∃ f, s.frame u = some f ∧ (f' = f ∨ u = t ∧ f' = g f) := by
  rw [AxidmaState.modifyFrame_frame] at h
  split at h
  · next hu =>
    obtain ⟨f, hf, rfl⟩ := Option.map_eq_some_iff.mp h
    exact ⟨f, hu ▸ hf, Or.inr ⟨hu, rfl⟩⟩
  · exact ⟨f', h, Or.inl rfl⟩

/-- A frame may change, if its call stays and what it is granted lies in buffers. -/
theorem quiet_modifyFrame [DecidableEq ι] (s : AxidmaState w ι) (t : ι)
    {g : CallFrame w → CallFrame w} (hg : ∀ f : CallFrame w, f.Keeps (g f))
    (hgranted : ∀ f, s.frame t = some f → ∀ e ∈ (g f).granted,
      e ∈ f.granted ∨ ∃ seg ∈ s.buffers.segments, e.range.Inside seg) :
    Quiet s (s.modifyFrame t g) := by
  refine ⟨fun u f' hf' => ?_, fun u f hf => ?_, fun _ _ h => h, fun _ => rfl, rfl, rfl,
    fun u f' hf' e he => ?_⟩
  · obtain ⟨f, hf, rfl | ⟨-, rfl⟩⟩ := AxidmaState.exists_of_modifyFrame hf'
    · exact ⟨f', hf, .refl f'⟩
    · exact ⟨f, hf, hg f⟩
  · rw [AxidmaState.modifyFrame_frame]
    split
    · next hu => exact ⟨g f, by rw [← hu, hf, Option.map_some], hg f⟩
    · exact ⟨f, hf, .refl f⟩
  · obtain ⟨f, hf, rfl | ⟨rfl, rfl⟩⟩ := AxidmaState.exists_of_modifyFrame hf'
    · exact Or.inl (Or.inl ⟨u, f', hf, List.mem_map_of_mem he⟩)
    · exact (hgranted f hf e he).imp_left fun he => Or.inl ⟨u, f, hf, List.mem_map_of_mem he⟩

/-- A completion may be completed. -/
theorem quiet_complete (s : AxidmaState w ι) (call : ℕ) : Quiet s (s.complete call) :=
  quiet_onCompletion s call fun m hm => by simpa using hm

/-- A completion may be initialised. -/
theorem quiet_initCompletion (s : AxidmaState w ι) (call : ℕ) : Quiet s (s.initCompletion call) :=
  quiet_onCompletion s call fun _ _ => Option.some_ne_none 0

/-- The callback completes a completion or sends a signal. -/
theorem quiet_axidmaDmaCallback (s : AxidmaState w ι) (cb : AxidmaCbData ι) :
    Quiet s (s.axidmaDmaCallback cb) := by
  unfold AxidmaState.axidmaDmaCallback
  split
  · exact quiet_complete s _
  · split
    · exact quiet_of_frame_eq rfl (fun _ _ h => h) rfl rfl rfl
    · exact .refl s

/-- A callback drops its descriptor. -/
theorem quiet_runCallback (s : AxidmaState w ι) (chan : ℕ) : Quiet s (s.runCallback chan) := by
  unfold AxidmaState.runCallback
  split
  · exact .refl s
  · next d rest hdone =>
    refine (quiet_setEngine s fun d' hd' => ?_).trans (quiet_axidmaDmaCallback _ _)
    simp only [DmaEngine.outstanding, List.mem_append, hdone, List.mem_cons] at hd' ⊢
    tauto

/-- A descriptor that completes is still there for its callback. -/
theorem DmaEngine.mem_outstanding_complete (e : DmaEngine w) (d : TxDescriptor w) :
    d ∈ e.complete.outstanding ↔ d ∈ e.outstanding := by
  unfold DmaEngine.complete DmaEngine.outstanding
  cases hissued : e.issued with
  | nil => simp [hissued]
  | cons d' rest => simp

/-- To issue descriptors drops none. -/
theorem DmaEngine.mem_outstanding_issuePending (e : DmaEngine w) (d : TxDescriptor w) :
    d ∈ e.issuePending.outstanding ↔ d ∈ e.outstanding := by
  simp [DmaEngine.issuePending, DmaEngine.outstanding]

/-- One descriptor is added. -/
theorem DmaEngine.mem_outstanding_submit (e : DmaEngine w) (work : DmaWork w)
    (callbackParam : ℤ) (d : TxDescriptor w) :
    d ∈ (e.submit work callbackParam).outstanding ↔
      d ∈ e.outstanding ∨ d = ⟨work, callbackParam, e.next⟩ := by
  simp [DmaEngine.submit, DmaEngine.outstanding, or_assoc]

/-! ## Steps of the engine and of memory -/

/-- Buffers may change, if those in use stay. -/
theorem AxidmaInv.buffers {channels : List AxidmaChan} {K : Kernel w ι} {framed : Prop}
    {s : AxidmaState w ι} (hinv : AxidmaInv channels K framed s) {buffers : DmaBuffers w}
    (hplaced : ∀ g ∈ buffers.segments, Placed w g)
    (hinside : K.ClosesUnused → ∀ r g, s.InUse r → g ∈ s.buffers.segments → r.Inside g →
      g ∈ buffers.segments) :
    AxidmaInv channels K framed { s with buffers := buffers } where
  exclusive := hinv.exclusive
  call_lt := hinv.call_lt
  call_inj := hinv.call_inj
  param := hinv.param
  comp := hinv.comp
  placed := hplaced
  inside hframed hK r hr := by
    obtain ⟨g, hg, hin⟩ := hinv.inside hframed hK r hr
    exact ⟨g, hinside hK r g hr hg hin, hin⟩

/-- The segments are those of the two lists. -/
theorem DmaBuffers.mem_segments {dev : DmaBuffers w} {g : Segment} :
    g ∈ dev.segments ↔ (∃ a ∈ dev.dmabufList, a.segment = g) ∨
      ∃ a ∈ dev.externalDmabufs, a.segment = g := by
  simp [DmaBuffers.segments]

/-- A registered buffer is added. -/
theorem DmaBuffers.mem_segments_addExternal {dev : DmaBuffers w} {a : ExternalAllocation w}
    {g : Segment} : g ∈ (dev.addExternal a).segments ↔ a.segment = g ∨ g ∈ dev.segments := by
  simp [DmaBuffers.mem_segments, DmaBuffers.addExternal, or_left_comm]

/-- A mapped buffer is added. -/
theorem DmaBuffers.mem_segments_addMapped {dev : DmaBuffers w} {a : DmaAllocation w}
    {g : Segment} : g ∈ (dev.addMapped a).segments ↔ a.segment = g ∨ g ∈ dev.segments := by
  simp [DmaBuffers.mem_segments, DmaBuffers.addMapped, or_assoc]

/-- To close a mapping adds nothing. -/
theorem DmaBuffers.mem_segments_of_close {dev : DmaBuffers w} {a : DmaAllocation w}
    {g : Segment} (h : g ∈ (dev.close a).segments) : g ∈ dev.segments := by
  rw [DmaBuffers.mem_segments] at h ⊢
  rcases h with ⟨b, hb, rfl⟩ | h
  · exact Or.inl ⟨b, List.mem_of_mem_erase hb, rfl⟩
  · exact Or.inr h

/-- The other buffers stay when a mapping is closed. -/
theorem DmaBuffers.mem_segments_close {dev : DmaBuffers w} {a : DmaAllocation w}
    {g : Segment} (h : g ∈ dev.segments) (hne : g ≠ a.segment) : g ∈ (dev.close a).segments := by
  rw [DmaBuffers.mem_segments] at h ⊢
  rcases h with ⟨b, hb, rfl⟩ | h
  · exact Or.inl ⟨b, (List.mem_erase_of_ne fun hba => hne (congrArg _ hba)).mpr hb, rfl⟩
  · exact Or.inr h

/-- Steps of the engine, of callbacks and of memory keep the invariant. -/
theorem AxidmaInv.env {channels : List AxidmaChan} {K : Kernel w ι} {framed : Prop}
    {s s' : AxidmaState w ι} (hinv : AxidmaInv channels K framed s)
    (h : AxidmaEnv channels K s s') : AxidmaInv channels K framed s' := by
  cases h with
  | complete chan hcomplete =>
    obtain rfl := K.complete_first hcomplete
    exact hinv.quiet (quiet_setEngine s fun d hd => (DmaEngine.mem_outstanding_complete _ d).mp hd)
  | callback chan => exact hinv.quiet (quiet_runCallback s chan)
  | mmap dmaAlloc hplaced =>
    refine hinv.buffers (fun g hg => ?_) fun _ e g _ hg _ =>
      DmaBuffers.mem_segments_addMapped.mpr (Or.inr hg)
    rcases DmaBuffers.mem_segments_addMapped.mp hg with rfl | hg
    · exact hplaced
    · exact hinv.placed g hg
  | register dmaExtAlloc hplaced =>
    refine hinv.buffers (fun g hg => ?_) fun _ e g _ hg _ =>
      DmaBuffers.mem_segments_addExternal.mpr (Or.inr hg)
    rcases DmaBuffers.mem_segments_addExternal.mp hg with rfl | hg
    · exact hplaced
    · exact hinv.placed g hg
  | close dmaAlloc hmay =>
    exact hinv.buffers (fun g hg => hinv.placed g (DmaBuffers.mem_segments_of_close hg))
      fun hK e g he hg hin =>
        DmaBuffers.mem_segments_close hg fun heq => hK dmaAlloc s hmay e he (heq ▸ hin)

/-! ## Steps of calls -/

section calls

variable {channels : List AxidmaChan} {K : Kernel w ι} {framed : Prop} {s : AxidmaState w ι}

/-- A lookup grants an entry inside a buffer. -/
theorem AxidmaInv.inside_of_lookup (hinv : AxidmaInv channels K framed s) {userAddr size : BitVec w}
    (hreq : userAddr.toNat + size.toNat < 2 ^ w)
    (hne : axidmaUservirtToDma s.buffers userAddr size ≠ 0) :
    ∃ g ∈ s.buffers.segments, (SgEntry.range
      ⟨axidmaUservirtToDma s.buffers userAddr size, size.setWidth 32⟩).Inside g := by
  obtain ⟨g, hg, ⟨hlo, hhi⟩, himage⟩ :=
    exists_of_translate (translate_of_ne_zero hinv.placed hreq hne)
  have hlen : (size.setWidth 32).toNat ≤ size.toNat := by
    rw [BitVec.toNat_setWidth]
    exact Nat.mod_le _ _
  refine ⟨g, hg, ?_, ?_⟩ <;> simp only [SgEntry.range, himage, Segment.image] <;> omega

/-- A channel may be given a completion while it has descriptors only if the completion is one
that a running call waits for. -/
theorem AxidmaInv.setCbData (hinv : AxidmaInv channels K framed s) {index : ℤ} {cb : AxidmaCbData ι}
    (hcb : ∀ chan ∈ channels, chan.channelId = index → (s.engine chan.chan).outstanding ≠ [] →
      ∀ call, cb.comp = some call → ∃ t f, s.frame t = some f ∧ f.call = call ∧ f.comp ≠ none ∧
        f.blocks = some chan.channelId) :
    AxidmaInv channels K framed (s.setCbData index cb) :=
  { hinv with
    comp := by
      intro chan hchan hout call hcall
      simp only [AxidmaState.setCbData, Function.update_apply] at hcall
      split at hcall
      · next hid => exact hcb chan hchan hid hout call hcall
      · exact hinv.comp chan hchan hout call hcall }

/-- A descriptor may be submitted to a channel whose callback data has no completion, or one
that a running call waits for. -/
theorem AxidmaInv.submit (hinv : AxidmaInv channels K framed s) {chan : AxidmaChan}
    (hsound : ChannelsSound channels) (hchan : chan ∈ channels) {work : DmaWork w}
    (hcomp : ∀ call, (s.cbData chan.channelId).comp = some call → ∃ t f, s.frame t = some f ∧
      f.call = call ∧ f.comp ≠ none ∧ f.blocks = some chan.channelId)
    (hgranted : framed → ∃ t f, s.frame t = some f ∧ work.Granted f.granted) :
    AxidmaInv channels K framed
      (s.setEngine chan.chan ((s.engine chan.chan).submit work chan.channelId)) := by
  have hout : ∀ {h d}, d ∈ ((s.setEngine chan.chan
      ((s.engine chan.chan).submit work chan.channelId)).engine h).outstanding →
      d ∈ (s.engine h).outstanding ∨
        h = chan.chan ∧ d.work = work ∧ d.callbackParam = chan.channelId := by
    intro h d hd
    simp only [AxidmaState.setEngine, Function.update_apply] at hd
    split at hd
    · next hh =>
      rcases (DmaEngine.mem_outstanding_submit _ _ _ d).mp hd with hd | rfl
      · exact Or.inl (hh ▸ hd)
      · exact Or.inr ⟨hh, rfl, rfl⟩
    · exact Or.inl hd
  refine { hinv with param := ?_, comp := ?_, inside := ?_ }
  · intro h d hd
    rcases hout hd with hd | ⟨rfl, -, hparam⟩
    · exact hinv.param h d hd
    · exact ⟨chan, hchan, rfl, hparam⟩
  · intro c hc hne call hcall
    obtain ⟨d, hd⟩ := List.exists_mem_of_ne_nil _ hne
    rcases hout hd with hd | ⟨hcc, -, -⟩
    · exact hinv.comp c hc (List.ne_nil_of_mem hd) call hcall
    · rw [List.inj_on_of_nodup_map hsound.chans hc hchan hcc] at hcall ⊢
      exact hcomp call hcall
  · rintro hframed hK r (hlooked | ⟨h, d, hd, hr⟩)
    · exact hinv.inside hframed hK r (Or.inl hlooked)
    · rcases hout hd with hd | ⟨-, hwork, -⟩
      · exact hinv.inside hframed hK r (Or.inr ⟨h, d, hd, hr⟩)
      · obtain ⟨t, f, hf, hwithin⟩ := hgranted hframed
        obtain ⟨e, he, hre⟩ := hwithin r (hwork ▸ hr)
        obtain ⟨g, hg, hin⟩ :=
          hinv.inside hframed hK e.range (Or.inl ⟨t, f, hf, List.mem_map_of_mem he⟩)
        exact ⟨g, hg, hre.inside hin⟩

variable [DecidableEq ι]

/-- The frames after a call starts. -/
theorem AxidmaState.enter_frame (s : AxidmaState w ι) (t u : ι) (r : AxidmaRequest w) :
    (s.enter t r).frame u = if u = t then some (.ofRequest s.nextCall r) else s.frame u := by
  simp only [AxidmaState.enter, Function.update_apply]

/-- The frames after a call returns. -/
theorem AxidmaState.leave_frame (s : AxidmaState w ι) (t u : ι) :
    (s.leave t).frame u = if u = t then none else s.frame u := by
  simp only [AxidmaState.leave, Function.update_apply]

/-- A call that keeps to the discipline may start. -/
theorem AxidmaInv.enter (hinv : AxidmaInv channels K framed s) {t : ι} {r : AxidmaRequest w}
    (hr : Disciplined channels t r s) (hidle : s.frame t = none) :
    AxidmaInv channels K framed (s.enter t r) where
  exclusive := by
    intro u v f g hf hg huv
    rw [AxidmaState.enter_frame] at hf hg
    split at hf <;> split at hg
    · next hu hv => exact absurd (hu.trans hv.symm) huv
    · rw [← Option.some.inj hf]
      exact hr.exclusive v g hg
    · rw [← Option.some.inj hg]
      exact (hr.exclusive u f hf).symm
    · exact hinv.exclusive u v f g hf hg huv
  call_lt := by
    intro u f hf
    rw [AxidmaState.enter_frame] at hf
    split at hf
    · rw [← Option.some.inj hf]
      exact Nat.lt_succ_self _
    · exact (hinv.call_lt u f hf).trans (Nat.lt_succ_self _)
  call_inj := by
    intro u v f g hf hg hcall
    rw [AxidmaState.enter_frame] at hf hg
    split at hf <;> split at hg
    · next hu hv => exact hu.trans hv.symm
    · rw [← Option.some.inj hf] at hcall
      exact absurd hcall.symm (hinv.call_lt v g hg).ne
    · rw [← Option.some.inj hg] at hcall
      exact absurd hcall (hinv.call_lt u f hf).ne
    · exact hinv.call_inj u v f g hf hg hcall
  param := hinv.param
  comp := by
    intro chan hchan hout call hcall
    obtain ⟨u, f, hf, hrest⟩ := hinv.comp chan hchan hout call hcall
    refine ⟨u, f, ?_, hrest⟩
    rw [AxidmaState.enter_frame, if_neg, hf]
    rintro rfl
    exact nomatch hidle.symm.trans hf
  placed := hinv.placed
  inside := by
    rintro hframed hK r (⟨u, f, hf, hr⟩ | hout)
    · rw [AxidmaState.enter_frame] at hf
      split at hf
      · rw [← Option.some.inj hf] at hr
        exact nomatch hr
      · exact hinv.inside hframed hK r (Or.inl ⟨u, f, hf, hr⟩)
    · exact hinv.inside hframed hK r (Or.inr hout)

/-- A call may return when the channel that it waits for has no descriptors. -/
theorem AxidmaInv.leave (hinv : AxidmaInv channels K framed s) {t : ι}
    (hdrained : ∀ f id, s.frame t = some f → f.blocks = some id →
      ∀ chan ∈ channels, chan.channelId = id → (s.engine chan.chan).outstanding = []) :
    AxidmaInv channels K framed (s.leave t) := by
  have hframe : ∀ {u f}, (s.leave t).frame u = some f → s.frame u = some f := by
    intro u f hf
    rw [AxidmaState.leave_frame] at hf
    split at hf
    · exact nomatch hf
    · exact hf
  refine ⟨fun u v f g hf hg => hinv.exclusive u v f g (hframe hf) (hframe hg),
    fun u f hf => hinv.call_lt u f (hframe hf),
    fun u v f g hf hg => hinv.call_inj u v f g (hframe hf) (hframe hg), hinv.param, ?_,
    hinv.placed, ?_⟩
  · intro chan hchan hout call hcall
    obtain ⟨u, f, hf, hfcall, hcomp, hblocks⟩ := hinv.comp chan hchan hout call hcall
    refine ⟨u, f, ?_, hfcall, hcomp, hblocks⟩
    rw [AxidmaState.leave_frame, if_neg, hf]
    rintro rfl
    exact hout (hdrained f _ hf hblocks chan hchan rfl)
  · rintro hframed hK r (⟨u, f, hf, hr⟩ | hout)
    · exact hinv.inside hframed hK r (Or.inl ⟨u, f, hframe hf, hr⟩)
    · exact hinv.inside hframed hK r (Or.inr hout)

/-- A lookup is quiet. -/
theorem AxidmaInv.quiet_lookup (hinv : AxidmaInv channels K framed s) (t : ι)
    {userAddr size : BitVec w} (hreq : userAddr.toNat + size.toNat < 2 ^ w) :
    Quiet s (s.lookup t userAddr size) := by
  unfold AxidmaState.lookup
  split
  · exact .refl s
  · next hne =>
    refine quiet_modifyFrame s t (fun f => ⟨rfl, id⟩) fun f hf e he => ?_
    rcases List.mem_cons.mp he with rfl | he
    · exact Or.inr (hinv.inside_of_lookup hreq hne)
    · exact Or.inl he

end calls

end

end FirDemo
