import FirDemo.AxidmaOf
import FirDemo.AxidmaRisks
import Mathlib.Data.List.Perm.Subperm

/-!
# What the axidma driver needs for its safety

Each of the assumptions of `axidma_not_faulty` is needed. From any reachable state, a call that
waits and whose buffer is found may fault

* if the kernel does not wait for callbacks when it stops a channel : the callback of a call
  that timed out may come after the call returned (`hazard_of_not_quiesces`);
* if the channel still has descriptors : the completion is set before it is initialised, so the
  callback of an older descriptor may come in between (`hazard_of_outstanding`);
* if the id of the channel is outside the callback data (`hazard_of_not_inTable`).

The parser checks that the ids differ, but not that they are below the number of channels, so
a driver that was probed is safe only if they are the numbers from 0 on (`probed_safe_iff`).
-/

namespace FirDemo

open Threads

section

variable {w : ℕ} {ι : Type} {t : ι} {chan : AxidmaChan} {call : ℕ} {e : DmaEngine w}
  {comp own : Option ℕ} {s : AxidmaState w ι}

section hazards

variable [DecidableEq ι] {channels : List AxidmaChan} {K : Kernel w ι}

/-! ## An id outside the callback data -/

/-- An index outside the callback data is written. -/
theorem setupCallback_faults {dmaTfr : AxidmaTransfer w}
    (hid : dmaTfr.channelId = chan.channelId) (hout : ¬InTable channels chan.channelId) :
    May (axidmaSystem channels K) t (Calling fun o s' => s'.faults channels t o)
      (setupCallback dmaTfr) s := by
  unfold setupCallback
  rw [hid]
  exact may_here hout

/-! ## A type that is not set -/

/-- A channel without a type meets the `BUG_ON`. -/
theorem prepAndStart_faults {dmaTfr : AxidmaTransfer w} (htype : dmaTfr.type = none) :
    May (axidmaSystem channels K) t (Calling fun o s' => s'.faults channels t o)
      (prepAndStart chan dmaTfr) s := by
  unfold prepAndStart axidmaPrepTransfer
  rw [htype]
  exact may_here trivial

/-! ## Descriptors that are left -/

/-- Where nothing waits for it, a callback survives the stop of its channel. -/
theorem startTransfer_leaves (hK : K.Able) {rc₀ : ℤ} {left : Terminated}
    (hleft : K.terminateAll rc₀ left) (hne : left ≠ .all) {dmaTfr : AxidmaTransfer w}
    (hwait : dmaTfr.wait = true) (h : At t chan call e (some call) (some 0) s)
    (hissued : e.issued = []) (hdone : e.done = []) {d : TxDescriptor w}
    (hsubmitted : e.submitted = [d]) (cookie : ℕ) :
    May (axidmaSystem channels K) t
      (Returned fun _ s' => ∃ e', e'.done = [d] ∧ At t chan call e' (some call) (some 0) s')
      (axidmaStartTransfer chan dmaTfr cookie) s := by
  have hcomplete : e.issuePending.complete.done = [d] := by
    simp [DmaEngine.issuePending, DmaEngine.complete, hissued, hdone, hsubmitted]
  unfold axidmaStartTransfer
  rw [hwait]
  have h₁ := h.setEngine e.issuePending
  refine may_call () id (h.exec_issuePending hK) ?_
  -- the descriptor completes, and its callback is under way when the wait times out
  refine May.of_env (h₁.env_complete hK) ?_
  have h₂ := h₁.setEngine e.issuePending.complete
  generalize (s.setEngine chan.chan e.issuePending).setEngine chan.chan
    e.issuePending.complete = s₂ at h₂ ⊢
  obtain ⟨f, hf, -, hzero⟩ := h₂.frame
  refine may_call false (fun hfault => Option.some_ne_none 0 (hzero.symm.trans (hfault f hf)))
    ⟨f, 0, 0, hf, hzero, hK.timesOut, rfl⟩ ?_
  have h₃ : At t chan call _ (some call) (some 0)
      (s₂.modifyFrame t fun f => { f with comp := some 0 }) :=
    h₂.modifyFrame (fun _ => rfl) fun _ _ => rfl
  refine may_call _ id ⟨hK.isTxComplete _ cookie, rfl⟩ ?_
  refine may_call rc₀ id ⟨left, hleft, rfl⟩ (may_ret ⟨_, ?_, h₃.setEngine _⟩)
  rw [h₃.engine]
  cases left with
  | refused => exact hcomplete
  | running => simp [DmaEngine.terminate, hcomplete]
  | all => exact absurd rfl hne

/-- A timeout can leave a callback that is still to run. -/
theorem prepAndStart_leaves (hK : K.Able) {rc₀ : ℤ} {left : Terminated}
    (hleft : K.terminateAll rc₀ left) (hne : left ≠ .all) {dmaTfr : AxidmaTransfer w}
    {type : AxidmaType} (htype : dmaTfr.type = some type) {work : DmaWork w}
    (hwork : dmaTfr.work type = some work) (hid : dmaTfr.channelId = chan.channelId)
    (hin : InTable channels chan.channelId) (hwait : dmaTfr.wait = true)
    (h : At t chan call e comp own s) (hdrained : e.outstanding = []) :
    May (axidmaSystem channels K) t
      (Returned fun _ s' => ∃ e' d, e'.done = [d] ∧ d.callbackParam = chan.channelId ∧
        At t chan call e' (some call) (some 0) s')
      (prepAndStart chan dmaTfr) s := by
  obtain ⟨hdone, hissued, hsubmitted⟩ := DmaEngine.outstanding_eq_nil.mp hdrained
  unfold prepAndStart
  refine (prepTransfer_submits hK htype hwork hid hin h).bind ?_
  rintro r s₁ ⟨rfl, h₁⟩
  rw [hwait, if_pos rfl, if_pos rfl] at h₁
  have hone : (e.submit work chan.channelId).submitted = [⟨work, chan.channelId, e.next⟩] := by
    rw [DmaEngine.submit, hsubmitted, List.nil_append]
  refine (startTransfer_leaves hK hleft hne hwait h₁ hissued hdone hone e.next).mono
    fun q s₂ hq => ?_
  cases q with
  | ret r =>
    obtain ⟨e', he', h₂⟩ := hq
    exact ⟨e', _, he', rfl, h₂⟩
  | call o k => exact hq.elim

/-! ## Reachable hazards -/

section reachable

variable {allowed : ι → AxidmaRequest w → AxidmaState w ι → Prop} {s₀ : AxidmaState w ι}
  (h₀ : s₀.Fresh) {c : Config ι (AxidmaState w ι) (AxidmaOp.Ans (w := w)) ℤ}
  (h : Reachable (axidmaSystem channels K) allowed s₀ c) (hidle : c.thread t = none)
  {dir : AxidmaDir} {trans : AxidmaTransaction w}
  (hallowed : allowed t (.oneWay dir trans) c.state)
  (hget : getChanOfDir channels dir trans.channelId = some chan)
  (hfound : axidmaUservirtToDma c.state.buffers trans.buf trans.bufLen ≠ 0)

include h₀ h hidle hallowed hget hfound

/-- A transfer that may call an operation that faults. -/
theorem hazard_of_calling (hstart : ∀ entry signal frame s',
      May (axidmaSystem channels K) t (Calling fun o s' => s'.faults channels t o)
        (prepAndStart chan (trans.transfer dir chan entry signal frame)) s') :
    ∃ c', Reachable (axidmaSystem channels K) allowed s₀ c' ∧
      Faulty (axidmaSystem channels K) c' := by
  obtain ⟨q, s', hserves, hcalling⟩ :=
    transfer_may h₀ h hidle hallowed hget hfound ⟨0, 0, 0⟩ fun signal s' _ =>
      (hstart _ signal ⟨0, 0, 0⟩ s').bind_calling
  cases q with
  | ret rc => exact hcalling.elim
  | call o k =>
    exact ⟨_, h.of_serves hserves, Or.inr ⟨t, o, k, Function.update_self .., hcalling⟩⟩

/-- The type of the channel is not set. -/
theorem hazard_of_untyped (htype : chan.type = none) :
    ∃ c', Reachable (axidmaSystem channels K) allowed s₀ c' ∧
      Faulty (axidmaSystem channels K) c' :=
  hazard_of_calling h₀ h hidle hallowed hget hfound fun _ _ _ _ => prepAndStart_faults htype

/-- The id of the channel is outside the callback data. -/
theorem hazard_of_not_inTable (hK : K.Able) {type : AxidmaType} (htype : chan.type = some type)
    (hout : ¬InTable channels chan.channelId) :
    ∃ c', Reachable (axidmaSystem channels K) allowed s₀ c' ∧
      Faulty (axidmaSystem channels K) c' := by
  obtain ⟨q, s', hserves, hcalling⟩ :=
    transfer_may h₀ h hidle hallowed hget hfound ⟨0, 0, 0⟩ fun signal s' hat =>
      (prepTransfer_may hK htype (trans.transfer_work dir chan _ signal ⟨0, 0, 0⟩ type) hat
        fun s₁ _ => (setupCallback_faults (chan_of_getChanOfDir hget).2.1.symm
          hout).bind_calling).bind_calling.bind_calling
  cases q with
  | ret rc => exact hcalling.elim
  | call o k =>
    exact ⟨_, h.of_serves hserves, Or.inr ⟨t, o, k, Function.update_self .., hcalling⟩⟩

/-- Stopping a channel leaves a callback, and a call that waits times out. -/
theorem hazard_of_not_quiesces (hK : K.Able) {rc₀ : ℤ} {left : Terminated}
    (hleft : K.terminateAll rc₀ left) (hne : left ≠ .all) {type : AxidmaType}
    (htype : chan.type = some type) (hin : InTable channels chan.channelId)
    (hwait : trans.wait = true) (hdrained : (c.state.engine chan.chan).outstanding = []) :
    ∃ c', Reachable (axidmaSystem channels K) allowed s₀ c' ∧
      Faulty (axidmaSystem channels K) c' := by
  obtain ⟨q, s', hserves, hret⟩ :=
    transfer_may (P := Returned fun _ s' => ∃ e' d, e'.done = [d] ∧
        d.callbackParam = chan.channelId ∧
          At t chan c.state.nextCall e' (some c.state.nextCall) (some 0) s')
      h₀ h hidle hallowed hget hfound ⟨0, 0, 0⟩ fun signal s' hat =>
        (prepAndStart_leaves hK hleft hne htype (trans.transfer_work ..)
          (chan_of_getChanOfDir hget).2.1.symm hin hwait hat hdrained).bind fun _ _ hr => may_ret hr
  cases q with
  | call o k => exact hret.elim
  | ret rc =>
    obtain ⟨e', d, hdone, hd, hat⟩ := hret
    -- the call returns, and then the callback comes
    have hfinish : Step (axidmaSystem channels K) allowed (c.runs t (.ret rc) s')
        ⟨s'.leave t, Function.update (c.runs t (.ret rc) s').thread t none⟩ :=
      .finish (Function.update_self ..) rfl
    refine ⟨_, (h.of_serves hserves).tail hfinish, Or.inl ⟨chan.chan, callbackFaults_of_comp
      (hat.engine ▸ hdone) hd hat.comp fun u f hf hcall => ?_⟩⟩
    rw [AxidmaState.leave_frame] at hf
    split at hf
    · exact nomatch hf
    · next hu => exact absurd (hat.others u f hf hcall) hu

end reachable

end hazards

end

/-- Distinct ids are indices exactly if they are `0..n-1` in some order. -/
theorem inTable_iff_perm {channels : List AxidmaChan}
    (hids : (channels.map AxidmaChan.channelId).Nodup) :
    (∀ chan ∈ channels, InTable channels chan.channelId) ↔
      (channels.map AxidmaChan.channelId).Perm ((List.range channels.length).map Int.ofNat) := by
  constructor
  · intro hin
    have hsubset : channels.map AxidmaChan.channelId ⊆
        (List.range channels.length).map Int.ofNat := by
      intro id hid
      obtain ⟨chan, hchan, rfl⟩ := List.mem_map.mp hid
      obtain ⟨hlow, hhigh⟩ := hin chan hchan
      exact List.mem_map.mpr ⟨chan.channelId.toNat, List.mem_range.mpr (by omega),
        Int.toNat_of_nonneg hlow⟩
    exact (List.subperm_of_subset hids hsubset).perm_of_length_le (by simp)
  · intro hperm chan hchan
    obtain ⟨i, hi, hid⟩ := List.mem_map.mp (hperm.mem_iff.mp (List.mem_map_of_mem hchan))
    rw [← hid]
    exact ⟨Int.natCast_nonneg i, Int.ofNat_lt.mpr (List.mem_range.mp hi)⟩

/-- The channels in memory, with the ids of the tree and distinct channels of the engine. -/
theorem stored_sound {memory : ℕ → ChanMemory} {engine : ℕ → ℕ} {dev : OfDevice}
    (hids : (dev.channels.map OfChan.channelId).Nodup)
    (hset : ∀ chan ∈ dev.channels, chan.kind ≠ none)
    (hperm : (dev.channels.map OfChan.channelId).Perm
      ((List.range dev.channels.length).map Int.ofNat)) (hengine : Function.Injective engine) :
    ChannelsSound (dev.stored memory engine) where
  ids := dev.stored_channelId memory engine ▸ hids
  chans := by
    have hmap : (dev.stored memory engine).map AxidmaChan.chan =
        (List.range dev.channels.length).map engine :=
      List.ext_getElem (by simp [OfDevice.stored]) fun i _ _ => by
        simp [OfDevice.stored, OfChan.stored]
    rw [hmap]
    exact List.nodup_range.map hengine
  inTable := by
    rw [inTable_iff_perm (dev.stored_channelId memory engine ▸ hids), dev.stored_channelId]
    simpa [OfDevice.stored] using hperm
  types := by
    intro chan hchan
    obtain ⟨i, hi, rfl⟩ := List.mem_mapIdx.mp hchan
    obtain ⟨kind, hkind⟩ := Option.ne_none_iff_exists'.mp (hset _ (List.getElem_mem hi))
    simp [OfChan.stored, hkind]

/-- A buffer of one byte, for a process to map. -/
def oneByte (w : ℕ) : DmaAllocation w :=
  ⟨1, 0, 0, 1⟩

/-- Addresses of at least two bits hold a byte at 1. -/
theorem toNat_one_of_le {w : ℕ} (hw : 2 ≤ w) : (1 : BitVec w).toNat = 1 ∧ 2 < 2 ^ w := by
  have hpow : 2 ^ 2 ≤ 2 ^ w := Nat.pow_le_pow_right Nat.two_pos hw
  have hlt : 1 < 2 ^ w := by omega
  exact ⟨(BitVec.toNat_ofNat 1 w).trans (Nat.mod_eq_of_lt hlt), by omega⟩

/-- A buffer of one byte. -/
theorem oneByte_placed {w : ℕ} (hw : 2 ≤ w) : Placed w (oneByte w).segment := by
  obtain ⟨hone, hpow⟩ := toNat_one_of_le hw
  have hzero : (0 : BitVec w).toNat = 0 := by simp
  refine ⟨?_, ?_, ?_⟩
  · show (0 : BitVec w).toNat + (1 : BitVec w).toNat < 2 ^ w
    omega
  · show 0 < (1 : BitVec w).toNat
    omega
  · show (1 : BitVec w).toNat + (1 : BitVec w).toNat < 2 ^ w
    omega

/-- It is found once it is mapped last. -/
theorem oneByte_found {w : ℕ} (hw : 2 ≤ w) (dev : DmaBuffers w) :
    axidmaUservirtToDma (dev.addMapped (oneByte w)) 0 1 ≠ 0 := by
  have hvalid : validDmaRequest (oneByte w).userAddr (oneByte w).size 0 1 = true := by
    simp [validDmaRequest, oneByte]
  have hlookup : axidmaUservirtToDma (dev.addMapped (oneByte w)) 0 1 = 1 := by
    simp only [axidmaUservirtToDma, DmaBuffers.addMapped, List.find?_cons, hvalid]
    simp [oneByte]
  rw [hlookup]
  intro hzero
  have htoNat := congrArg BitVec.toNat hzero
  rw [(toNat_one_of_le hw).1] at htoNat
  simp at htoNat

/-- After a process mapped a buffer, a transfer on any channel that holds a direction keeps to the
discipline. -/
theorem exists_disciplined {w : ℕ} {ι : Type} [DecidableEq ι] {K : Kernel w ι}
    {channels : List AxidmaChan} (hids : (channels.map AxidmaChan.channelId).Nodup)
    {s₀ : AxidmaState w ι} (h₀ : s₀.Fresh) (hw : 2 ≤ w) (t : ι) {chan : AxidmaChan}
    (hchan : chan ∈ channels) (hdir : chan.dir ≠ none) (wait : Bool) :
    ∃ (c : Config ι (AxidmaState w ι) (AxidmaOp.Ans (w := w)) ℤ) (dir : AxidmaDir),
      Reachable (axidmaSystem channels K) (Disciplined channels) s₀ c ∧ c.thread t = none ∧
        Disciplined channels t (.oneWay dir ⟨wait, chan.channelId, 0, 1⟩) c.state ∧
        getChanOfDir channels dir chan.channelId = some chan ∧
        axidmaUservirtToDma c.state.buffers 0 1 ≠ 0 ∧
        (c.state.engine chan.chan).outstanding = [] := by
  obtain ⟨dir, hdir⟩ := Option.ne_none_iff_exists'.mp hdir
  refine ⟨⟨{ s₀ with buffers := s₀.buffers.addMapped (oneByte w) }, fun _ => none⟩, dir,
    .single (.env (.mmap (oneByte w) (oneByte_placed hw))), rfl, ?_, ?_,
    oneByte_found hw s₀.buffers, h₀.engine _⟩
  · refine ⟨fun u f hf => (nomatch (h₀.frame u).symm.trans hf), fun _ _ c _ _ => h₀.engine c.chan,
      ?_, ?_⟩
    · cases dir <;> trivial
    · obtain ⟨hone, hpow⟩ := toNat_one_of_le hw
      have hrange : (0 : BitVec w).toNat + (1 : BitVec w).toNat < 2 ^ w := by
        rw [hone]
        simp
        omega
      cases dir <;> exact fun p hp => List.mem_singleton.mp hp ▸ hrange
  · rw [getChanOfDir, axidmaGetChan_of_mem hids hchan]
    simp [hdir]

/-- A driver that was probed from a tree is safe, whatever its memory held, exactly if stopping a
channel waits for its callbacks, every channel node has its kind, and the ids in the tree are the
numbers below the number of channels, in some order. -/
theorem probed_safe_iff {w : ℕ} {ι : Type} [DecidableEq ι] {K : Kernel w ι} (hK : K.Able)
    {driverNode : DriverNode} {dev : OfDevice} (hof : axidmaOf driverNode = .ok dev) (hw : 2 ≤ w)
    {s₀ : AxidmaState w ι} (h₀ : s₀.Fresh) (t : ι) :
    (∀ memory engine, Function.Injective engine →
      ∀ c, Reachable (axidmaSystem (dev.stored memory engine) K)
        (Disciplined (dev.stored memory engine)) s₀ c →
          ¬Faulty (axidmaSystem (dev.stored memory engine) K) c) ↔
      K.Quiesces ∧ (∀ chan ∈ dev.channels, chan.kind ≠ none) ∧
        (dev.channels.map OfChan.channelId).Perm
          ((List.range dev.channels.length).map Int.ofNat) := by
  obtain ⟨hids, hne⟩ := channels_of_axidmaOf hof
  have hids' : ∀ memory engine,
      ((dev.stored memory engine).map AxidmaChan.channelId).Nodup := fun memory engine =>
    dev.stored_channelId memory engine ▸ hids
  constructor
  · intro hsafe
    have hset : ∀ chan ∈ dev.channels, chan.kind ≠ none := by
      intro chan hchan hkind
      obtain ⟨i, hi, rfl⟩ := List.getElem_of_mem hchan
      -- the memory held a direction, and no type
      let memory : ℕ → ChanMemory := fun _ => (some .write, none)
      have hmem : dev.channels[i].stored (memory i) i ∈ dev.stored memory id :=
        List.mem_mapIdx.mpr ⟨i, hi, rfl⟩
      obtain ⟨c, dir, hreach, hidle, hdisc, hget, hfound, -⟩ :=
        exists_disciplined (K := K) (hids' memory id) h₀ hw t hmem
          (by simp [OfChan.stored, memory, hkind]) false
      obtain ⟨c', hreach', hfault⟩ := hazard_of_untyped h₀ hreach hidle hdisc hget hfound
        (by simp [OfChan.stored, memory, hkind])
      exact hsafe memory id Function.injective_id c' hreach' hfault
    let memory : ℕ → ChanMemory := fun _ => (some .write, some .dma)
    have hkinds : ∀ chan ∈ dev.stored memory id,
        chan.dir ≠ none ∧ ∃ type, chan.type = some type := by
      intro chan hchan
      obtain ⟨i, hi, rfl⟩ := List.mem_mapIdx.mp hchan
      cases hkind : dev.channels[i].kind <;> simp [OfChan.stored, memory, hkind]
    have hin : ∀ chan ∈ dev.stored memory id,
        InTable (dev.stored memory id) chan.channelId := by
      intro chan hchan
      by_contra hout
      obtain ⟨hdir, type, htype⟩ := hkinds chan hchan
      obtain ⟨c, dir, hreach, hidle, hdisc, hget, hfound, -⟩ :=
        exists_disciplined (K := K) (hids' memory id) h₀ hw t hchan hdir false
      obtain ⟨c', hreach', hfault⟩ :=
        hazard_of_not_inTable h₀ hreach hidle hdisc hget hfound hK htype hout
      exact hsafe memory id Function.injective_id c' hreach' hfault
    refine ⟨fun rc left hleft => ?_, hset, ?_⟩
    · by_contra hleave
      have hstored : dev.stored memory id ≠ [] := by simpa [OfDevice.stored] using hne
      obtain ⟨chan, hchan⟩ := List.exists_mem_of_ne_nil _ hstored
      obtain ⟨hdir, type, htype⟩ := hkinds chan hchan
      obtain ⟨c, dir, hreach, hidle, hdisc, hget, hfound, hdrained⟩ :=
        exists_disciplined (K := K) (hids' memory id) h₀ hw t hchan hdir true
      obtain ⟨c', hreach', hfault⟩ := hazard_of_not_quiesces h₀ hreach hidle hdisc hget hfound hK
        hleft hleave htype (hin chan hchan) rfl hdrained
      exact hsafe memory id Function.injective_id c' hreach' hfault
    · have hperm := (inTable_iff_perm (hids' memory id)).mp hin
      rw [dev.stored_channelId] at hperm
      simpa [OfDevice.stored] using hperm
  · rintro ⟨hq, hset, hperm⟩ memory engine hengine c hreach
    exact axidma_not_faulty (stored_sound hids hset hperm hengine) hq h₀ hreach

/-- Right after the probe, when no buffer is mapped. -/
def emptyState : AxidmaState 32 ℕ :=
  { boardState with buffers := ⟨[], []⟩ }

/-- No call runs. -/
theorem emptyState_fresh : emptyState.Fresh :=
  ⟨fun _ => rfl, fun _ => rfl, fun _ hg => nomatch hg⟩

/-- What the tree of the board describes. -/
def boardDevice : OfDevice :=
  ⟨[⟨some (.write, .dma), 0, "tx_channel"⟩, ⟨some (.read, .dma), 1, "rx_channel"⟩], ⟨1, 1, 0, 0⟩⟩

/-- The tree of the board. -/
theorem probed_safe_iff_board :
    (∀ memory engine, Function.Injective engine →
      ∀ c, Reachable (axidmaSystem (boardDevice.stored memory engine) boardKernel)
        (Disciplined (boardDevice.stored memory engine)) emptyState c →
          ¬Faulty (axidmaSystem (boardDevice.stored memory engine) boardKernel) c) ↔
      boardKernel.Quiesces ∧ (∀ chan ∈ boardDevice.channels, chan.kind ≠ none) ∧
        [(0 : ℤ), 1].Perm ((List.range 2).map Int.ofNat) :=
  @probed_safe_iff 32 ℕ _ boardKernel boardKernel_able (boardTree 1) boardDevice
    axidmaOf_boardTree (by decide) emptyState emptyState_fresh 0

end FirDemo
