import FirDemo.AxidmaContract

/-!
# The calls of the axidma driver keep their contract

One lemma for each operation, then one for each function. A function that does not wait keeps
whatever the call knows of other channels (`Kept`). A function that waits finds its channel
drained, and leaves it drained or with its descriptor finished
(`prepTransfer_waits`, `startTransfer_waits`).
-/

namespace FirDemo

open Threads Threads.Contract

variable {w : ℕ} {ι : Type} {channels : List AxidmaChan} {K : Kernel w ι} {framed : Prop} {t : ι}
  {key : CallKey} {A : List ℕ} {G : List (SgEntry w)}

/-! ## Own steps -/

/-- A step of a call that touches only the given channels, and not its completion. -/
structure OwnStep (t : ι) (chans : List AxidmaChan) (s s' : AxidmaState w ι) : Prop where
  frame : ∀ f, s.frame t = some f → ∃ f', s'.frame t = some f' ∧ f'.comp = f.comp
  engine : ∀ h, (∀ c ∈ chans, c.chan ≠ h) → s'.engine h = s.engine h
  comp : ∀ i, (∀ c ∈ chans, c.channelId ≠ i) → (s'.cbData i).comp = (s.cbData i).comp

/-- A call uses what its request names. -/
theorem usedBy_of_runs {s : AxidmaState w ι} (h : Runs t key A G s) {id : ℤ}
    (hid : id ∈ key.uses) : s.UsedBy t id := by
  obtain ⟨f, hf, rfl, -, -⟩ := h
  exact ⟨f, hf, hid⟩

/-- Fewer entries may be kept in view. -/
theorem Runs.mono {G' : List (SgEntry w)} {s : AxidmaState w ι} (h : Runs t key A G s)
    (hsub : G' ⊆ G) : Runs t key A G' s := by
  obtain ⟨f, hf, hkey, hn, hG⟩ := h
  exact ⟨f, hf, hkey, hn, List.Subset.trans hsub hG⟩

/-- To do nothing leaves all alone. -/
theorem Guarantee.refl (s : AxidmaState w ι) : Guarantee channels t s s :=
  ⟨fun _ _ => rfl, fun _ _ _ => rfl, fun _ _ => rfl⟩

/-- A call may drive the channels that it names. -/
theorem guarantee_setEngine (hsound : ChannelsSound channels) {s : AxidmaState w ι}
    {chan : AxidmaChan} (hchan : chan ∈ channels) (hused : s.UsedBy t chan.channelId)
    (e : DmaEngine w) : Guarantee channels t s (s.setEngine chan.chan e) where
  frame _ _ := rfl
  engine c hc hc' := by
    have hne : c.chan ≠ chan.chan := fun heq =>
      hc' (List.inj_on_of_nodup_map hsound.chans hc hchan heq ▸ hused)
    simp only [AxidmaState.setEngine, Function.update_of_ne hne]
  cbData _ _ := rfl

/-- A call may write the entries that it names. -/
theorem guarantee_setCbData {s : AxidmaState w ι} {i : ℤ} (hused : s.UsedBy t i)
    (cb : AxidmaCbData ι) : Guarantee channels t s (s.setCbData i cb) where
  frame _ _ := rfl
  engine _ _ _ := rfl
  cbData j hj := by
    have hne : j ≠ i := fun heq => hj (heq ▸ hused)
    simp only [AxidmaState.setCbData, Function.update_of_ne hne]

/-- A call may initialise its own completion. -/
theorem guarantee_initCompletion {s : AxidmaState w ι} (hinv : AxidmaInv channels K framed s)
    {f : CallFrame w} (hf : s.frame t = some f) :
    Guarantee channels t s (s.initCompletion f.call) where
  frame u hu := by
    simp only [AxidmaState.initCompletion, AxidmaState.onCompletion]
    cases hg : s.frame u with
    | none => rfl
    | some g =>
      rw [Option.map_some, if_neg fun hcall => hu (hinv.call_inj u t g f hg hf hcall)]
  engine _ _ _ := rfl
  cbData _ _ := rfl

/-- Other channels stay as they are. -/
theorem ownStep_setEngine (s : AxidmaState w ι) (chan : AxidmaChan) (e : DmaEngine w) :
    OwnStep t [chan] s (s.setEngine chan.chan e) where
  frame f hf := ⟨f, hf, rfl⟩
  engine h hh := by
    have hne : h ≠ chan.chan := fun heq => hh chan (List.mem_singleton_self chan) heq.symm
    simp only [AxidmaState.setEngine, Function.update_of_ne hne]
  comp _ _ := rfl

/-- Other entries stay as they are. -/
theorem ownStep_setCbData (s : AxidmaState w ι) (chan : AxidmaChan) (cb : AxidmaCbData ι) :
    OwnStep t [chan] s (s.setCbData chan.channelId cb) where
  frame f hf := ⟨f, hf, rfl⟩
  engine _ _ := rfl
  comp i hi := by
    have hne : i ≠ chan.channelId := fun heq =>
      hi chan (List.mem_singleton_self chan) heq.symm
    simp only [AxidmaState.setCbData, Function.update_of_ne hne]

/-- An assignment to another field than the completion. -/
theorem ownStep_setCbData_of_comp (s : AxidmaState w ι) {i : ℤ} {cb : AxidmaCbData ι}
    (hcb : cb.comp = (s.cbData i).comp) : OwnStep t [] s (s.setCbData i cb) where
  frame f hf := ⟨f, hf, rfl⟩
  engine _ _ := rfl
  comp j _ := by
    simp only [AxidmaState.setCbData, Function.update_apply]
    split
    · next hj => rw [hcb, hj]
    · rfl

/-- More channels may be touched. -/
theorem OwnStep.mono {chans chans' : List AxidmaChan} {s s' : AxidmaState w ι}
    (h : OwnStep t chans s s') (hsub : chans ⊆ chans') : OwnStep t chans' s s' :=
  ⟨h.frame, fun i hi => h.engine i fun c hc => hi c (hsub hc),
    fun i hi => h.comp i fun c hc => hi c (hsub hc)⟩

/-! ## What a call leaves -/

/-- An error code is not 0. -/
def Signalled {α : Type} (r : Except ℤ α) : Prop :=
  ∀ rc, r = .error rc → rc ≠ 0

/-- What a call that waits knows after it prepared its transfer. -/
def Prepared (t : ι) (key : CallKey) (chan : AxidmaChan) (s : AxidmaState w ι) :
    Except ℤ ℕ → Prop
  | .error _ => OnChan t chan Drained s
  | .ok cookie => OnChan t chan (Submitted key.call cookie) s

/-- What a call that waits leaves on its channel. -/
def Left (t : ι) (chan : AxidmaChan) (s : AxidmaState w ι) (r : Except ℤ Unit) : Prop :=
  OnChan t chan Drained s ∧ (r = .ok () → ∃ cookie, OnChan t chan (Finished cookie) s)

/-- What a call leaves when it returns. -/
def Returns (channels : List AxidmaChan) (t : ι) (key : CallKey) (rc : ℤ)
    (s : AxidmaState w ι) : Prop :=
  ∃ G, Runs t key [] G s ∧ ∀ chan ∈ channels, key.blocks = some chan.channelId →
    OnChan t chan Drained s ∧ (rc = 0 → ∃ cookie, OnChan t chan (Finished cookie) s)

/-- Only success returns 0. -/
theorem returnCode_eq_zero {r : Except ℤ Unit} (hr : Signalled r) (h : returnCode r = 0) :
    r = .ok () := by
  cases r with
  | error rc => exact absurd h (hr rc rfl)
  | ok u => rfl

/-- The channel that a call waits for has no descriptors. -/
def DrainedBlocked (channels : List AxidmaChan) (t : ι) (key : CallKey) (s : AxidmaState w ι) :
    Prop :=
  ∀ chan ∈ channels, key.blocks = some chan.channelId → OnChan t chan Drained s

/-- A call that fails may return once its channel is drained. -/
theorem returns_of_drained {s : AxidmaState w ι} {rc : ℤ} (hrc : rc ≠ 0)
    (hruns : Runs t key [] G s) (h : DrainedBlocked channels t key s) :
    Returns channels t key rc s :=
  ⟨G, hruns, fun chan hchan hblocks => ⟨h chan hchan hblocks, fun h => absurd h hrc⟩⟩

/-- A call that does not wait may return. -/
theorem returns_of_none {s : AxidmaState w ι} {rc : ℤ} (hblocks : key.blocks = none)
    (hruns : Runs t key [] G s) : Returns channels t key rc s :=
  ⟨G, hruns, fun _ _ h => nomatch hblocks.symm.trans h⟩

/-- A call that waited may return. -/
theorem returns_of_left (hsound : ChannelsSound channels) {s : AxidmaState w ι}
    {r : Except ℤ Unit} (hr : Signalled r)
    {chan : AxidmaChan} (hchan : chan ∈ channels) (hblocks : key.blocks = some chan.channelId)
    (hruns : Runs t key [] G s) (h : Left t chan s r) :
    Returns channels t key (returnCode r) s := by
  refine ⟨G, hruns, fun chan' hchan' hblocks' => ?_⟩
  obtain rfl := List.inj_on_of_nodup_map hsound.ids hchan hchan'
    (Option.some.inj (hblocks.symm.trans hblocks'))
  exact ⟨h.1, fun hrc => h.2 (returnCode_eq_zero hr hrc)⟩

section threads

variable [DecidableEq ι]

/-- A call may change its own frame. -/
theorem guarantee_modifyFrame (s : AxidmaState w ι) (g : CallFrame w → CallFrame w) :
    Guarantee channels t s (s.modifyFrame t g) where
  frame u hu := by rw [AxidmaState.modifyFrame_frame, if_neg hu]
  engine _ _ _ := rfl
  cbData _ _ := rfl

/-- A change of the frame that leaves the completion. -/
theorem ownStep_modifyFrame (s : AxidmaState w ι) {g : CallFrame w → CallFrame w}
    (hg : ∀ f, (g f).comp = f.comp) : OwnStep t [] s (s.modifyFrame t g) where
  frame f hf := ⟨g f, by rw [AxidmaState.modifyFrame_frame, if_pos rfl, hf, Option.map_some], hg f⟩
  engine _ _ := rfl
  comp _ _ := rfl

/-- What a call keeps through its own steps on the given channels. -/
structure Kept (channels : List AxidmaChan) (K : Kernel w ι) (framed : Prop) (t : ι)
    (key : CallKey) (chans : List AxidmaChan) (Y : AxidmaState w ι → Prop) : Prop where
  stable : ∀ s s' A G,
    (axidmaContract channels K framed).Interferes (axidmaSystem channels K) t s s' →
      Runs t key A G s → Y s → Y s'
  own : ∀ s s', OwnStep t chans s s' → Y s → Y s'

/-- What says nothing is kept. -/
theorem kept_true (chans : List AxidmaChan) : Kept channels K framed t key chans fun _ => True :=
  ⟨fun _ _ _ _ _ _ h => h, fun _ _ _ h => h⟩

/-- What holds of one channel is kept by steps on others. -/
theorem kept_onChan (hsound : ChannelsSound channels) {chan : AxidmaChan}
    (hchan : chan ∈ channels) (huses : chan.channelId ∈ key.uses)
    {φ : DmaEngine w → Option ℕ → Option ℕ → Prop} (hφ : EnvStable key chan φ)
    {chans : List AxidmaChan}
    (hapart : ∀ c ∈ chans, c.chan ≠ chan.chan ∧ c.channelId ≠ chan.channelId) :
    Kept channels K framed t key chans (OnChan t chan φ) where
  stable _ _ _ _ hstep hruns h := onChan_stable hsound hchan huses hφ hstep hruns h
  own s s' hown := by
    rintro ⟨f, hf, hfφ⟩
    obtain ⟨f', hf', hcomp⟩ := hown.frame f hf
    refine ⟨f', hf', ?_⟩
    rwa [hown.engine _ fun c hc => (hapart c hc).1, hown.comp _ fun c hc => (hapart c hc).2, hcomp]

/-- Two facts are kept together. -/
theorem Kept.and {chans : List AxidmaChan} {X Y : AxidmaState w ι → Prop}
    (hX : Kept channels K framed t key chans X) (hY : Kept channels K framed t key chans Y) :
    Kept channels K framed t key chans fun s => X s ∧ Y s :=
  ⟨fun s s' n G h hr hs => ⟨hX.stable s s' n G h hr hs.1, hY.stable s s' n G h hr hs.2⟩,
    fun s s' h hs => ⟨hX.own s s' h hs.1, hY.own s s' h hs.2⟩⟩

/-- A fact is kept by fewer steps. -/
theorem Kept.mono {chans chans' : List AxidmaChan} {Y : AxidmaState w ι → Prop}
    (hY : Kept channels K framed t key chans' Y) (hsub : chans ⊆ chans') :
    Kept channels K framed t key chans Y :=
  ⟨hY.stable, fun s s' h => hY.own s s' (h.mono hsub)⟩

/-- A fact that is kept is stable while the call runs. -/
theorem Kept.runs_stable {chans : List AxidmaChan} {Y : AxidmaState w ι → Prop}
    (hY : Kept channels K framed t key chans Y) :
    (axidmaContract channels K framed).Stable (axidmaSystem channels K) t
      fun s => Runs t key A G s ∧ Y s :=
  FirDemo.runs_stable.and fun s s' h hruns hs => hY.stable s s' A G h hruns hs

/-! ## Operations -/

/-- An operation that only answers. -/
theorem performs_still {o : AxidmaOp w} {P : AxidmaState w ι → Prop}
    (hsafe : ∀ s, ¬(axidmaSystem channels K).faults t o s)
    (hstill : ∀ s x s', (axidmaSystem channels K).exec t o s x s' → s' = s) :
    (axidmaContract channels K framed).Performs (axidmaSystem channels K) t P o fun _ => P := by
  intro s hinv hs
  refine ⟨hsafe s, fun x s' hexec => ?_⟩
  obtain rfl := hstill s x s' hexec
  exact ⟨hinv, .refl s', hs⟩

section ops

variable {Y : AxidmaState w ι → Prop}

/-- The call goes on after a change of its frame. -/
theorem runs_modifyFrame {s : AxidmaState w ι} (h : Runs t key A G s)
    {g : CallFrame w → CallFrame w} {A' : List ℕ} {G' : List (SgEntry w)}
    (hkey : ∀ f, (g f).toCallKey = f.toCallKey)
    (hA : ∀ f, f.sgLists = A → (g f).sgLists = A') (hG : ∀ f, G ⊆ f.granted → G' ⊆ (g f).granted) :
    Runs t key A' G' (s.modifyFrame t g) := by
  obtain ⟨f, hf, hfkey, hfn, hfG⟩ := h
  exact ⟨g f, by rw [AxidmaState.modifyFrame_frame, if_pos rfl, hf, Option.map_some],
    (hkey f).trans hfkey, hA f hfn, hG f hfG⟩

/-- The entry of a lookup that succeeds is granted. -/
theorem performs_uservirtToDma (hY : Kept channels K framed t key [] Y) {userAddr size : BitVec w}
    (hreq : userAddr.toNat + size.toNat < 2 ^ w) :
    (axidmaContract channels K framed).Performs (axidmaSystem channels K) t
      (fun s => Runs t key A G s ∧ Y s) (.uservirtToDma userAddr size)
      fun (x : BitVec w) s =>
        (if x = 0 then Runs t key A G s else Runs t key A (⟨x, size.setWidth 32⟩ :: G) s) ∧
          Y s := by
  rintro s hinv ⟨hruns, hYs⟩
  refine ⟨id, ?_⟩
  rintro x s' ⟨rfl, rfl⟩
  refine ⟨AxidmaInv.quiet hinv (hinv.quiet_lookup t hreq), ?_⟩
  by_cases hzero : axidmaUservirtToDma s.buffers userAddr size = 0
  · simp only [AxidmaState.lookup, if_pos hzero]
    exact ⟨.refl s, hruns, hYs⟩
  · simp only [AxidmaState.lookup, if_neg hzero]
    exact ⟨guarantee_modifyFrame s _,
      runs_modifyFrame hruns (fun _ => rfl) (fun _ h => h) fun f h =>
        List.cons_subset_cons _ h,
      hY.own _ _ (ownStep_modifyFrame s fun _ => rfl) hYs⟩

/-- The scatterlist that is allocated is the call's. -/
theorem performs_kmallocSgList (hY : Kept channels K framed t key [] Y) :
    (axidmaContract channels K framed).Performs (axidmaSystem channels K) t
      (fun s => Runs t key A G s ∧ Y s) .kmallocSgList
      fun (x : Option ℕ) s => Runs t key (x.toList ++ A) G s ∧ Y s := by
  rintro s hinv ⟨hruns, hYs⟩
  refine ⟨id, ?_⟩
  rintro x s' rfl
  exact ⟨hinv.quiet (quiet_modifyFrame s t (fun _ => ⟨rfl, id⟩) fun _ _ _ h => Or.inl h),
    guarantee_modifyFrame s _,
    runs_modifyFrame hruns (fun _ => rfl) (fun _ h => congrArg (x.toList ++ ·) h) fun _ h => h,
    hY.own _ _ (ownStep_modifyFrame s fun _ => rfl) hYs⟩

/-- A scatterlist that the call holds can be read and written. -/
theorem performs_accessSgList {sgList : ℕ} (hmem : sgList ∈ A) :
    (axidmaContract channels K framed).Performs (axidmaSystem channels K) t
      (fun s => Runs t key A G s ∧ Y s) (.accessSgList sgList)
      fun _ s => Runs t key A G s ∧ Y s := by
  rintro s hinv ⟨⟨f, hf, hkey, hA, hG⟩, hYs⟩
  refine ⟨fun hfault => hfault f hf (hA ▸ hmem), ?_⟩
  rintro _ s' rfl
  exact ⟨hinv, .refl s', ⟨f, hf, hkey, hA, hG⟩, hYs⟩

/-- It is freed once. -/
theorem performs_kfreeSgList (hY : Kept channels K framed t key [] Y) (sgList : ℕ) :
    (axidmaContract channels K framed).Performs (axidmaSystem channels K) t
      (fun s => Runs t key (sgList :: A) G s ∧ Y s) (.kfreeSgList sgList)
      fun _ s => Runs t key A G s ∧ Y s := by
  rintro s hinv ⟨hruns, hYs⟩
  refine ⟨fun hfault => ?_, ?_⟩
  · obtain ⟨f, hf, -, hA, -⟩ := hruns
    exact hfault f hf (hA ▸ List.mem_cons_self)
  · rintro _ s' rfl
    exact ⟨hinv.quiet (quiet_modifyFrame s t (fun _ => ⟨rfl, id⟩) fun _ _ _ h => Or.inl h),
      guarantee_modifyFrame s _,
      runs_modifyFrame hruns (fun _ => rfl)
        (fun _ h => (congrArg (List.erase · sgList) h).trans (List.erase_cons_head ..))
        fun _ h => h,
      hY.own _ _ (ownStep_modifyFrame s fun _ => rfl) hYs⟩

/-- The signal is no other call's. -/
theorem performs_setNotifySignal (hY : Kept channels K framed t key [] Y) (signal : ℤ) :
    (axidmaContract channels K framed).Performs (axidmaSystem channels K) t
      (fun s => Runs t key A G s ∧ Y s) (.setNotifySignal signal)
      fun _ s => Runs t key A G s ∧ Y s := by
  rintro s hinv ⟨hruns, hYs⟩
  refine ⟨id, ?_⟩
  rintro _ s' rfl
  exact ⟨hinv.quiet (quiet_of_frame_eq rfl (fun _ _ h => h) rfl rfl rfl),
    ⟨fun _ _ => rfl, fun _ _ _ => rfl, fun _ _ => rfl⟩, hruns,
    hY.own s _ ⟨fun f hf => ⟨f, hf, rfl⟩, fun _ _ => rfl, fun _ _ => rfl⟩ hYs⟩

/-- The completion that is pointed to is armed. -/
theorem performs_initCompletion (chan : AxidmaChan) :
    (axidmaContract channels K framed).Performs (axidmaSystem channels K) t
      (fun s => Runs t key A G s ∧ OnChan t chan (Pointed key.call) s)
      (.initCompletion chan.channelId)
      fun _ s => Runs t key A G s ∧ OnChan t chan (Armed key.call) s := by
  rintro s hinv ⟨⟨f, hf, rfl, hn, hG⟩, f₁, hf₁, hdrained, hcomp⟩
  refine ⟨fun hfault => hfault ⟨f.call, t, f, hcomp, hf, rfl⟩, ?_⟩
  rintro _ s' ⟨call, hcall, rfl⟩
  obtain rfl := Option.some.inj (hcomp.symm.trans hcall)
  have hframe : (s.initCompletion f.call).frame t = some { f with comp := some 0 } := by
    simp [AxidmaState.initCompletion, AxidmaState.onCompletion, hf]
  exact ⟨hinv.quiet (quiet_initCompletion s _), guarantee_initCompletion hinv hf,
    ⟨_, hframe, rfl, hn, hG⟩, _, hframe, hdrained, hcomp, rfl⟩

/-- If the wait ends in time, the descriptor is finished. -/
theorem performs_waitForCompletionTimeout (chan : AxidmaChan) (cookie : ℕ) :
    (axidmaContract channels K framed).Performs (axidmaSystem channels K) t
      (fun s => Runs t key A G s ∧ OnChan t chan (Awaited key.call cookie) s)
      .waitForCompletionTimeout
      fun (x : Bool) s => Runs t key A G s ∧ (x = true → OnChan t chan (Finished cookie) s) := by
  rintro s hinv ⟨⟨f, hf, hkey, hn, hG⟩, f₁, hf₁, hsubmitted, hnext, hcomp, hphase⟩
  obtain rfl := Option.some.inj (hf₁.symm.trans hf)
  have hruns : Runs t key A G s := ⟨f₁, hf, hkey, hn, hG⟩
  refine ⟨fun hfault => ?_, ?_⟩
  · have hnone := hfault f₁ hf
    rcases hphase with ⟨_, _, _, _, hown⟩ | ⟨_, _, _, _, hown⟩ | ⟨_, _, _, hown⟩ <;>
      exact nomatch hnone.symm.trans hown
  · rintro x s' ⟨f₂, m, m', hf₂, hm, hwait, rfl⟩
    obtain rfl := Option.some.inj (hf₂.symm.trans hf)
    refine ⟨hinv.quiet (quiet_modifyFrame s t (fun _ => ⟨rfl, fun _ => Option.some_ne_none m'⟩)
        fun _ _ _ h => Or.inl h),
      guarantee_modifyFrame s _,
      runs_modifyFrame hruns (fun _ => rfl) (fun _ h => h) fun _ h => h, ?_⟩
    rintro rfl
    have hpos : 0 < m := K.wait_completed hwait
    have hown : f₂.comp ≠ some 0 := fun hzero =>
      hpos.ne (Option.some.inj (hzero.symm.trans hm))
    refine ⟨_, by rw [AxidmaState.modifyFrame_frame, if_pos rfl, hf, Option.map_some], ?_⟩
    rcases hphase with ⟨_, _, _, _, hzero⟩ | ⟨_, _, _, _, hzero⟩ | ⟨hissued, hdone, hlast, -⟩
    · exact absurd hzero hown
    · exact absurd hzero hown
    · exact ⟨DmaEngine.outstanding_eq_nil.mpr ⟨hdone, hissued, hsubmitted⟩, hlast, hnext⟩

end ops

/-! ## Operations on a channel that the call names -/

section chanOps

variable (hsound : ChannelsSound channels) {chan : AxidmaChan} (hchan : chan ∈ channels)
  (huses : chan.channelId ∈ key.uses) {Y : AxidmaState w ι → Prop}

include hsound hchan huses

/-- Another field of the callback data. -/
theorem performs_setCbData (hY : Kept channels K framed t key [] Y) {field : CbField}
    (hfield : ∀ own, field ≠ .comp own) :
    (axidmaContract channels K framed).Performs (axidmaSystem channels K) t
      (fun s => Runs t key A G s ∧ Y s) (.setCbData chan.channelId field)
      fun _ s => Runs t key A G s ∧ Y s := by
  rintro s hinv ⟨hruns, hYs⟩
  refine ⟨fun hfault => hfault (hsound.inTable chan hchan), ?_⟩
  rintro _ s' ⟨f, -, rfl⟩
  have hcomp : (field.assign t f.call (s.cbData chan.channelId)).comp =
      (s.cbData chan.channelId).comp := by
    cases field with
    | comp own => exact absurd rfl (hfield own)
    | channelId | notifySignal | process => rfl
  refine ⟨hinv.setCbData fun c hc hid hout call hcall => ?_,
    guarantee_setCbData (usedBy_of_runs hruns huses) _, hruns,
    hY.own _ _ (ownStep_setCbData_of_comp s hcomp) hYs⟩
  rw [hcomp, ← hid] at hcall
  exact hinv.comp c hc hout call hcall

/-- The completion is set to `NULL`. -/
theorem performs_setCbData_null (hY : Kept channels K framed t key [chan] Y) :
    (axidmaContract channels K framed).Performs (axidmaSystem channels K) t
      (fun s => Runs t key A G s ∧ Y s) (.setCbData chan.channelId (.comp false))
      fun _ s => Runs t key A G s ∧ OnChan t chan CompNull s ∧ Y s := by
  rintro s hinv ⟨hruns, hYs⟩
  refine ⟨fun hfault => hfault (hsound.inTable chan hchan), ?_⟩
  rintro _ s' ⟨f, hf, rfl⟩
  refine ⟨hinv.setCbData fun c hc hid hout call hcall => (nomatch hcall),
    guarantee_setCbData (usedBy_of_runs hruns huses) _, hruns, ⟨f, hf, ?_⟩,
    hY.own _ _ (ownStep_setCbData s chan _) hYs⟩
  simp only [AxidmaState.setCbData, Function.update_self]
  rfl

/-- The completion is set to that of the call, while the channel is drained. -/
theorem performs_setCbData_own :
    (axidmaContract channels K framed).Performs (axidmaSystem channels K) t
      (fun s => Runs t key A G s ∧ OnChan t chan Drained s) (.setCbData chan.channelId (.comp true))
      fun _ s => Runs t key A G s ∧ OnChan t chan (Pointed key.call) s := by
  rintro s hinv ⟨⟨f, hf, hkey, hn, hG⟩, f₁, hf₁, hdrained⟩
  have hruns : Runs t key A G s := ⟨f, hf, hkey, hn, hG⟩
  refine ⟨fun hfault => hfault (hsound.inTable chan hchan), ?_⟩
  rintro _ s' ⟨f₂, hf₂, rfl⟩
  obtain rfl := Option.some.inj (hf₂.symm.trans hf)
  refine ⟨hinv.setCbData fun c hc hid hout call hcall => ?_,
    guarantee_setCbData (usedBy_of_runs hruns huses) _, hruns, f₂, hf, ?_⟩
  · exact absurd hdrained (List.inj_on_of_nodup_map hsound.ids hc hchan hid ▸ hout)
  · simp only [AxidmaState.setCbData, Function.update_self]
    exact ⟨hdrained, congrArg some (congrArg CallKey.call hkey)⟩

/-- A descriptor is submitted to a channel without a completion. -/
theorem performs_submit (hY : Kept channels K framed t key [chan] Y) {work : DmaWork w}
    (hwork : framed → work.Granted G) :
    (axidmaContract channels K framed).Performs (axidmaSystem channels K) t
      (fun s => Runs t key A G s ∧ OnChan t chan CompNull s ∧ Y s)
      (.submit chan.chan work chan.channelId)
      fun _ s => Runs t key A G s ∧ Y s := by
  rintro s hinv ⟨⟨f, hf, hkey, hn, hG⟩, ⟨f₁, hf₁, hcomp⟩, hYs⟩
  have hruns : Runs t key A G s := ⟨f, hf, hkey, hn, hG⟩
  refine ⟨id, ?_⟩
  rintro x s' ⟨e, hsubmit, rfl⟩
  rcases K.submit_queues hsubmit with ⟨rfl, rfl⟩ | ⟨rfl, rfl⟩
  · rw [AxidmaState.setEngine_self]
    exact ⟨hinv, .refl s, hruns, hYs⟩
  · refine ⟨hinv.submit hsound hchan (fun call hcall => ?_) fun hframed =>
        ⟨t, f, hf, (hwork hframed).mono hG⟩,
      guarantee_setEngine hsound hchan (usedBy_of_runs hruns huses) _, hruns,
      hY.own _ _ (ownStep_setEngine s chan _) hYs⟩
    exact nomatch hcomp.symm.trans hcall

/-- The only descriptor of a channel that the call waits for. -/
theorem performs_submit_waits (hblocks : key.blocks = some chan.channelId) {work : DmaWork w}
    (hwork : framed → work.Granted G) :
    (axidmaContract channels K framed).Performs (axidmaSystem channels K) t
      (fun s => Runs t key A G s ∧ OnChan t chan (Armed key.call) s)
      (.submit chan.chan work chan.channelId)
      fun (x : Option ℕ) s => Runs t key A G s ∧
        match x with
        | none => OnChan t chan (Armed key.call) s
        | some cookie => OnChan t chan (Submitted key.call cookie) s := by
  rintro s hinv ⟨⟨f, hf, hkey, hn, hG⟩, f₁, hf₁, hdrained, hcomp, hown⟩
  obtain rfl := Option.some.inj (hf₁.symm.trans hf)
  have hruns : Runs t key A G s := ⟨f₁, hf, hkey, hn, hG⟩
  refine ⟨id, ?_⟩
  rintro x s' ⟨e, hsubmit, rfl⟩
  rcases K.submit_queues hsubmit with ⟨rfl, rfl⟩ | ⟨rfl, rfl⟩
  · rw [AxidmaState.setEngine_self]
    exact ⟨hinv, .refl s, hruns, f₁, hf, hdrained, hcomp, hown⟩
  · refine ⟨hinv.submit hsound hchan (fun call hcall => ?_) fun hframed =>
        ⟨t, f₁, hf, (hwork hframed).mono hG⟩,
      guarantee_setEngine hsound hchan (usedBy_of_runs hruns huses) _, hruns, f₁, hf, ?_⟩
    · obtain rfl := Option.some.inj (hcomp.symm.trans hcall)
      exact ⟨t, f₁, hf, congrArg CallKey.call hkey, by simp [hown],
        (congrArg CallKey.blocks hkey).trans hblocks⟩
    · obtain ⟨hdone, hissued, hsubmitted⟩ := DmaEngine.outstanding_eq_nil.mp hdrained
      simp only [AxidmaState.setEngine, Function.update_self, DmaEngine.submit]
      exact ⟨⟨_, by rw [hsubmitted, List.nil_append], rfl⟩, hissued, hdone, rfl, hcomp, hown⟩

/-- The queue may be issued. -/
theorem performs_issuePending (hY : Kept channels K framed t key [chan] Y) :
    (axidmaContract channels K framed).Performs (axidmaSystem channels K) t
      (fun s => Runs t key A G s ∧ Y s) (.issuePending chan.chan)
      fun _ s => Runs t key A G s ∧ Y s := by
  rintro s hinv ⟨hruns, hYs⟩
  refine ⟨id, ?_⟩
  rintro _ s' ⟨e, hissue, rfl⟩
  obtain rfl := K.issuePending_issues hissue
  exact ⟨hinv.quiet (quiet_setEngine s fun d hd =>
      (DmaEngine.mem_outstanding_issuePending _ d).mp hd),
    guarantee_setEngine hsound hchan (usedBy_of_runs hruns huses) _, hruns,
    hY.own _ _ (ownStep_setEngine s chan _) hYs⟩

/-- After that its end is awaited. -/
theorem performs_issuePending_waits (cookie : ℕ) :
    (axidmaContract channels K framed).Performs (axidmaSystem channels K) t
      (fun s => Runs t key A G s ∧ OnChan t chan (Submitted key.call cookie) s)
      (.issuePending chan.chan)
      fun _ s => Runs t key A G s ∧ OnChan t chan (Awaited key.call cookie) s := by
  rintro s hinv ⟨hruns, f, hf, ⟨d, hsubmitted, hd⟩, hissued, hdone, hnext, hcomp, hown⟩
  refine ⟨id, ?_⟩
  rintro _ s' ⟨e, hissue, rfl⟩
  obtain rfl := K.issuePending_issues hissue
  refine ⟨hinv.quiet (quiet_setEngine s fun d hd =>
      (DmaEngine.mem_outstanding_issuePending _ d).mp hd),
    guarantee_setEngine hsound hchan (usedBy_of_runs hruns huses) _, hruns, f, hf, ?_⟩
  simp only [AxidmaState.setEngine, Function.update_self, DmaEngine.issuePending]
  exact ⟨rfl, hnext, hcomp,
    Or.inl ⟨d, by rw [hissued, hsubmitted, List.nil_append], hd, hdone, hown⟩⟩

/-- The channel is drained, if the kernel waits for its callbacks. -/
theorem performs_terminateAll (hq : K.Quiesces) (hY : Kept channels K framed t key [chan] Y) :
    (axidmaContract channels K framed).Performs (axidmaSystem channels K) t
      (fun s => Runs t key A G s ∧ Y s) (.terminateAll chan.chan)
      fun _ s => Runs t key A G s ∧ OnChan t chan Drained s ∧ Y s := by
  rintro s hinv ⟨hruns, hYs⟩
  have ⟨f, hf, _⟩ := hruns
  refine ⟨id, ?_⟩
  rintro x s' ⟨left, hleft, rfl⟩
  obtain rfl := hq x left hleft
  refine ⟨hinv.quiet (quiet_setEngine s fun d hd => ?_),
    guarantee_setEngine hsound hchan (usedBy_of_runs hruns huses) _, hruns, ⟨f, hf, ?_⟩,
    hY.own _ _ (ownStep_setEngine s chan _) hYs⟩
  · simp [DmaEngine.terminate, DmaEngine.outstanding] at hd
  · simp only [AxidmaState.setEngine, Function.update_self]
    rfl

end chanOps

/-! ## Functions -/

section functions

variable {Y : AxidmaState w ι → Prop}

/-- An entry that is found is granted. -/
theorem initSgEntry_triple (hY : Kept channels K framed t key [] Y) {buf bufLen : BitVec w}
    (hreq : buf.toNat + bufLen.toNat < 2 ^ w) :
    (axidmaContract channels K framed).Triple (axidmaSystem channels K) t
      (fun s => Runs t key A G s ∧ Y s) (axidmaInitSgEntry buf bufLen)
      fun r s => (Signalled r ∧ ∀ entry, r = .ok entry → entry.dmaLen = bufLen.setWidth 32) ∧
        match r with
        | .error _ => Runs t key A G s ∧ Y s
        | .ok entry => Runs t key A (entry :: G) s ∧ Y s := by
  unfold axidmaInitSgEntry
  refine Triple.bind (triple_perform hY.runs_stable (fun x => ?_)
    (performs_uservirtToDma hY hreq)) fun (x : BitVec w) => ?_
  · by_cases hx : (show BitVec w from x) = 0
    · simpa only [if_pos hx] using hY.runs_stable
    · simpa only [if_neg hx] using hY.runs_stable
  · by_cases hx : x = 0
    · simp only [if_pos hx]
      exact triple_ret hY.runs_stable fun s _ hs =>
        ⟨⟨fun rc hrc => by cases hrc; decide, nofun⟩, hs⟩
    · simp only [if_neg hx]
      exact triple_ret hY.runs_stable fun s _ hs =>
        ⟨⟨nofun, fun entry h => by cases h; rfl⟩, hs⟩

/-- An operation that only answers, of a call that keeps what it knows. -/
theorem triple_still (hY : Kept channels K framed t key [] Y) {o : AxidmaOp w}
    (hsafe : ∀ s, ¬(axidmaSystem channels K).faults t o s)
    (hstill : ∀ s x s', (axidmaSystem channels K).exec t o s x s' → s' = s) :
    (axidmaContract channels K framed).Triple (axidmaSystem channels K) t
      (fun s => Runs t key A G s ∧ Y s) (callOp o) fun _ s => Runs t key A G s ∧ Y s :=
  triple_perform hY.runs_stable (fun _ => hY.runs_stable) (performs_still hsafe hstill)

/-- The signal is read. -/
theorem notifySignal_triple (hY : Kept channels K framed t key [] Y) :
    (axidmaContract channels K framed).Triple (axidmaSystem channels K) t
      (fun s => Runs t key A G s ∧ Y s) (callOp .notifySignal)
      fun _ s => Runs t key A G s ∧ Y s :=
  triple_still hY (fun _ => id) fun _ _ _ h => h.2

/-- The stack is read. -/
theorem uninitialisedFrame_triple (hY : Kept channels K framed t key [] Y) :
    (axidmaContract channels K framed).Triple (axidmaSystem channels K) t
      (fun s => Runs t key A G s ∧ Y s) (callOp .uninitialisedFrame)
      fun _ s => Runs t key A G s ∧ Y s :=
  triple_still hY (fun _ => id) fun _ _ _ h => h

/-- The array is read. -/
theorem readChannels_triple (hY : Kept channels K framed t key [] Y) :
    (axidmaContract channels K framed).Triple (axidmaSystem channels K) t
      (fun s => Runs t key A G s ∧ Y s) (callOp .readChannels)
      fun _ s => Runs t key A G s ∧ Y s :=
  triple_still hY (fun _ => id) fun _ _ _ h => h

/-- A descriptor is prepared. -/
theorem prep_triple (hY : Kept channels K framed t key [] Y) (chan : ℕ) (work : DmaWork w) :
    (axidmaContract channels K framed).Triple (axidmaSystem channels K) t
      (fun s => Runs t key A G s ∧ Y s) (callOp (.prep chan work))
      fun _ s => Runs t key A G s ∧ Y s :=
  triple_still hY (fun _ => id) fun _ _ _ h => h.2

/-- The channel is configured. -/
theorem setVdmaConfig_triple (hY : Kept channels K framed t key [] Y) (chan : AxidmaChan)
    (type : AxidmaType) :
    (axidmaContract channels K framed).Triple (axidmaSystem channels K) t
      (fun s => Runs t key A G s ∧ Y s) (setVdmaConfig chan type)
      fun _ s => Runs t key A G s ∧ Y s := by
  cases type with
  | dma => exact triple_ret hY.runs_stable fun _ _ hs => hs
  | vdma => exact triple_still hY (fun _ => id) fun _ _ _ h => h.2

end functions

section chanFunctions

variable (hsound : ChannelsSound channels) {chan : AxidmaChan} (hchan : chan ∈ channels)
  (huses : chan.channelId ∈ key.uses) {Y : AxidmaState w ι → Prop}

include hsound hchan huses

/-- A channel without descriptors stays so. -/
theorem kept_drained :
    Kept channels K framed t key [] (OnChan t chan Drained : AxidmaState w ι → Prop) :=
  kept_onChan hsound hchan huses (drained_envStable key chan) nofun

/-- An entry without a completion stays so. -/
theorem kept_compNull :
    Kept channels K framed t key [] (OnChan t chan CompNull : AxidmaState w ι → Prop) :=
  kept_onChan hsound hchan huses (compNull_envStable key chan) nofun

/-- A field other than the completion is written. -/
theorem setCbData_triple (hY : Kept channels K framed t key [] Y) {field : CbField}
    (hfield : ∀ own, field ≠ .comp own) :
    (axidmaContract channels K framed).Triple (axidmaSystem channels K) t
      (fun s => Runs t key A G s ∧ Y s) (callOp (.setCbData chan.channelId field))
      fun _ s => Runs t key A G s ∧ Y s :=
  triple_perform hY.runs_stable (fun _ => hY.runs_stable)
    (performs_setCbData hsound hchan huses hY hfield)

/-- A channel is stopped on an error. -/
theorem stopDma_triple (hq : K.Quiesces) (hY : Kept channels K framed t key [chan] Y) {α : Type}
    {rc : ℤ} (hrc : rc ≠ 0) :
    (axidmaContract channels K framed).Triple (axidmaSystem channels K) t
      (fun s => Runs t key A G s ∧ Y s) (stopDma (α := α) chan rc)
      fun r s => (r = .error rc ∧ rc ≠ 0) ∧ Runs t key A G s ∧ OnChan t chan Drained s ∧ Y s := by
  have hdrained : Kept channels K framed t key []
      (OnChan t chan Drained : AxidmaState w ι → Prop) := kept_drained hsound hchan huses
  have hY' := hdrained.and (hY.mono (List.nil_subset _))
  unfold stopDma
  refine Triple.bind (triple_perform hY.runs_stable (fun _ => hY'.runs_stable)
    (performs_terminateAll hsound hchan huses hq hY)) fun _ => ?_
  exact triple_ret hY'.runs_stable fun s _ hs => ⟨⟨rfl, hrc⟩, hs⟩

/-- The callback data of a call that does not wait. -/
theorem setupCallback_triple (hY : Kept channels K framed t key [chan] Y)
    {dmaTfr : AxidmaTransfer w} (hid : dmaTfr.channelId = chan.channelId)
    (hwait : dmaTfr.wait = false) :
    (axidmaContract channels K framed).Triple (axidmaSystem channels K) t
      (fun s => Runs t key A G s ∧ Y s) (setupCallback dmaTfr)
      fun _ s => Runs t key A G s ∧ OnChan t chan CompNull s ∧ Y s := by
  have hY₀ := hY.mono (List.nil_subset _)
  have hnull : Kept channels K framed t key []
      (OnChan t chan CompNull : AxidmaState w ι → Prop) := kept_compNull hsound hchan huses
  have hY' := hnull.and hY₀
  unfold setupCallback
  rw [hid, hwait, if_neg Bool.false_ne_true]
  refine Triple.bind (setCbData_triple hsound hchan huses hY₀ (by nofun)) fun _ => ?_
  refine Triple.bind (triple_perform hY.runs_stable (fun _ => hY'.runs_stable)
    (performs_setCbData_null hsound hchan huses hY)) fun _ => ?_
  refine Triple.bind (setCbData_triple hsound hchan huses hY' (by nofun)) fun _ => ?_
  exact setCbData_triple hsound hchan huses hY' (by nofun)

/-- The callback data of a call that waits. -/
theorem setupCallback_waits (hblocks : key.blocks = some chan.channelId)
    {dmaTfr : AxidmaTransfer w} (hid : dmaTfr.channelId = chan.channelId)
    (hwait : dmaTfr.wait = true) :
    (axidmaContract channels K framed).Triple (axidmaSystem channels K) t
      (fun s => Runs t key A G s ∧ OnChan t chan Drained s) (setupCallback dmaTfr)
      fun _ s => Runs t key A G s ∧ OnChan t chan (Armed key.call) s := by
  have hdrained : Kept channels K framed t key []
      (OnChan t chan Drained : AxidmaState w ι → Prop) := kept_drained hsound hchan huses
  have hpointed : Kept channels K framed t key []
      (OnChan t chan (Pointed key.call) : AxidmaState w ι → Prop) :=
    kept_onChan hsound hchan huses (pointed_envStable hblocks) nofun
  have harmed : Kept channels K framed t key []
      (OnChan t chan (Armed key.call) : AxidmaState w ι → Prop) :=
    kept_onChan hsound hchan huses (armed_envStable hblocks) nofun
  unfold setupCallback
  rw [hid, hwait, if_pos rfl]
  refine Triple.bind (setCbData_triple hsound hchan huses hdrained (by nofun)) fun _ => ?_
  refine Triple.bind (triple_perform hdrained.runs_stable (fun _ => hpointed.runs_stable)
    (performs_setCbData_own hsound hchan huses)) fun _ => ?_
  refine Triple.bind (setCbData_triple hsound hchan huses hpointed (by nofun)) fun _ => ?_
  refine Triple.bind (setCbData_triple hsound hchan huses hpointed (by nofun)) fun _ => ?_
  exact triple_perform hpointed.runs_stable (fun _ => harmed.runs_stable)
    (performs_initCompletion chan)

/-- A transfer that does not wait is submitted. -/
theorem submitWork_triple (hq : K.Quiesces) (hY : Kept channels K framed t key [chan] Y)
    {dmaTfr : AxidmaTransfer w} (hid : dmaTfr.channelId = chan.channelId)
    (hwait : dmaTfr.wait = false) {work : DmaWork w} (hwork : framed → work.Granted G) :
    (axidmaContract channels K framed).Triple (axidmaSystem channels K) t
      (fun s => Runs t key A G s ∧ Y s) (submitWork chan dmaTfr work)
      fun r s => Signalled r ∧ Runs t key A G s ∧ Y s := by
  have hY₀ := hY.mono (List.nil_subset _)
  have hnull : Kept channels K framed t key []
      (OnChan t chan CompNull : AxidmaState w ι → Prop) := kept_compNull hsound hchan huses
  have hY' := hnull.and hY₀
  have hstop : (axidmaContract channels K framed).Triple (axidmaSystem channels K) t
      (fun s => Runs t key A G s ∧ Y s) (stopDma (α := ℕ) chan (-EBUSY))
      fun r s => Signalled r ∧ Runs t key A G s ∧ Y s :=
    (stopDma_triple hsound hchan huses hq hY (by decide)).conseq (fun _ _ h => h)
      fun r s _ h => ⟨fun rc hrc => by cases h.1.1.symm.trans hrc; exact h.1.2, h.2.1, h.2.2.2⟩
  unfold submitWork submitTxnd
  rw [hid]
  refine Triple.bind (prep_triple hY₀ chan.chan work) fun (prepared : Bool) => ?_
  cases prepared with
  | false => exact hstop
  | true =>
    refine Triple.bind (setupCallback_triple hsound hchan huses hY hid hwait) fun _ => ?_
    refine Triple.bind (triple_perform hY'.runs_stable (fun _ => hY.runs_stable)
      (performs_submit hsound hchan huses hY hwork)) fun (cookie : Option ℕ) => ?_
    cases cookie with
    | none => exact hstop
    | some cookie => exact triple_ret hY.runs_stable fun s _ hs => ⟨nofun, hs⟩

/-- A transfer that waits is submitted. -/
theorem submitWork_waits (hq : K.Quiesces) (hblocks : key.blocks = some chan.channelId)
    {dmaTfr : AxidmaTransfer w} (hid : dmaTfr.channelId = chan.channelId)
    (hwait : dmaTfr.wait = true) {work : DmaWork w} (hwork : framed → work.Granted G) :
    (axidmaContract channels K framed).Triple (axidmaSystem channels K) t
      (fun s => Runs t key A G s ∧ OnChan t chan Drained s) (submitWork chan dmaTfr work)
      fun r s => Signalled r ∧ Runs t key A G s ∧ Prepared t key chan s r := by
  have hdrained : Kept channels K framed t key []
      (OnChan t chan Drained : AxidmaState w ι → Prop) := kept_drained hsound hchan huses
  have harmed : Kept channels K framed t key []
      (OnChan t chan (Armed key.call) : AxidmaState w ι → Prop) :=
    kept_onChan hsound hchan huses (armed_envStable hblocks) nofun
  have hsubmitted : ∀ cookie, Kept channels K framed t key []
      (OnChan t chan (Submitted key.call cookie) : AxidmaState w ι → Prop) := fun cookie =>
    kept_onChan hsound hchan huses (submitted_envStable hblocks cookie) nofun
  have hstop : (axidmaContract channels K framed).Triple (axidmaSystem channels K) t
      (fun s => Runs t key A G s ∧ True) (stopDma (α := ℕ) chan (-EBUSY))
      fun r s => Signalled r ∧ Runs t key A G s ∧ Prepared t key chan s r :=
    (stopDma_triple hsound hchan huses hq (kept_true _) (by decide)).conseq (fun _ _ h => h)
      fun r s _ h => by
        obtain ⟨⟨rfl, hrc⟩, hruns, hdrained, -⟩ := h
        exact ⟨fun rc' hrc' => by cases hrc'; exact hrc, hruns, hdrained⟩
  unfold submitWork submitTxnd
  rw [hid]
  refine Triple.bind (prep_triple hdrained chan.chan work) fun (prepared : Bool) => ?_
  cases prepared with
  | false => exact hstop.conseq (fun _ _ h => ⟨h.1, trivial⟩) fun _ _ _ h => h
  | true =>
    refine Triple.bind (setupCallback_waits hsound hchan huses hblocks hid hwait) fun _ => ?_
    refine Triple.bind (triple_perform harmed.runs_stable (fun x => ?_)
      (performs_submit_waits hsound hchan huses hblocks hwork)) fun (cookie : Option ℕ) => ?_
    · rcases (show Option ℕ from x) with _ | cookie
      · exact harmed.runs_stable
      · exact (hsubmitted cookie).runs_stable
    · cases cookie with
      | none => exact hstop.conseq (fun _ _ h => ⟨h.1, trivial⟩) fun _ _ _ h => h
      | some cookie => exact triple_ret (hsubmitted cookie).runs_stable fun s _ hs => ⟨nofun, hs⟩

omit hsound hchan huses in
/-- A transfer with entries asks for something, which keeps to the entries if its frame fits. -/
theorem AxidmaTransfer.exists_work {dmaTfr : AxidmaTransfer w} {type : AxidmaType}
    (htype : dmaTfr.type = some type) (hsg : dmaTfr.sgList ≠ []) :
    ∃ work, dmaTfr.work type = some work ∧ (dmaTfr.Framed → work.Granted dmaTfr.sgList) := by
  unfold AxidmaTransfer.work AxidmaTransfer.Framed
  cases type with
  | dma =>
    refine ⟨_, rfl, fun _ r hr => ?_⟩
    obtain ⟨e, he, rfl⟩ := List.mem_map.mp hr
    exact ⟨e, he, .refl _⟩
  | vdma =>
    cases hlist : dmaTfr.sgList with
    | nil => exact absurd hlist hsg
    | cons entry rest =>
      refine ⟨_, rfl, fun hframed r hr => ⟨entry, List.mem_cons_self, ?_⟩⟩
      obtain rfl := List.mem_singleton.mp hr
      exact ⟨le_rfl, Nat.add_le_add_left (hframed htype entry List.mem_cons_self) _⟩

/-- A transfer that does not wait is prepared. -/
theorem prepTransfer_triple (hq : K.Quiesces) (hY : Kept channels K framed t key [chan] Y)
    {dmaTfr : AxidmaTransfer w} (hid : dmaTfr.channelId = chan.channelId)
    (hwait : dmaTfr.wait = false) (htype : dmaTfr.type ≠ none) (hsg : dmaTfr.sgList ≠ [])
    (hG : dmaTfr.sgList ⊆ G) (hframed : framed → dmaTfr.Framed) :
    (axidmaContract channels K framed).Triple (axidmaSystem channels K) t
      (fun s => Runs t key A G s ∧ Y s) (axidmaPrepTransfer chan dmaTfr)
      fun r s => Signalled r ∧ Runs t key A G s ∧ Y s := by
  obtain ⟨type, htype⟩ := Option.ne_none_iff_exists'.mp htype
  obtain ⟨work, hwork, hgranted⟩ := AxidmaTransfer.exists_work htype hsg
  unfold axidmaPrepTransfer
  rw [htype]
  refine Triple.bind (setVdmaConfig_triple (hY.mono (List.nil_subset _)) chan type)
    fun rc => ?_
  by_cases hrc : rc < 0
  · rw [if_pos hrc]
    exact (stopDma_triple hsound hchan huses hq hY hrc.ne).conseq (fun _ _ h => h)
      fun r s _ h => ⟨fun rc' hrc' => by cases h.1.1.symm.trans hrc'; exact h.1.2, h.2.1, h.2.2.2⟩
  · rw [if_neg hrc, hwork]
    exact submitWork_triple hsound hchan huses hq hY hid hwait fun hf =>
      (hgranted (hframed hf)).mono hG

/-- A transfer that waits is prepared. -/
theorem prepTransfer_waits (hq : K.Quiesces) (hblocks : key.blocks = some chan.channelId)
    {dmaTfr : AxidmaTransfer w} (hid : dmaTfr.channelId = chan.channelId)
    (hwait : dmaTfr.wait = true) (htype : dmaTfr.type ≠ none) (hsg : dmaTfr.sgList ≠ [])
    (hG : dmaTfr.sgList ⊆ G) (hframed : framed → dmaTfr.Framed) :
    (axidmaContract channels K framed).Triple (axidmaSystem channels K) t
      (fun s => Runs t key A G s ∧ OnChan t chan Drained s) (axidmaPrepTransfer chan dmaTfr)
      fun r s => Signalled r ∧ Runs t key A G s ∧ Prepared t key chan s r := by
  obtain ⟨type, htype⟩ := Option.ne_none_iff_exists'.mp htype
  obtain ⟨work, hwork, hgranted⟩ := AxidmaTransfer.exists_work htype hsg
  have hdrained : Kept channels K framed t key []
      (OnChan t chan Drained : AxidmaState w ι → Prop) := kept_drained hsound hchan huses
  unfold axidmaPrepTransfer
  rw [htype]
  refine Triple.bind (setVdmaConfig_triple hdrained chan type) fun rc => ?_
  by_cases hrc : rc < 0
  · rw [if_pos hrc]
    refine (stopDma_triple hsound hchan huses hq (kept_true _) hrc.ne).conseq
      (fun _ _ h => ⟨h.1, trivial⟩) fun r s _ h => ?_
    obtain ⟨⟨rfl, hrc⟩, hruns, hdrained, -⟩ := h
    exact ⟨fun rc' hrc' => by cases hrc'; exact hrc, hruns, hdrained⟩
  · rw [if_neg hrc, hwork]
    exact submitWork_waits hsound hchan huses hq hblocks hid hwait fun hf =>
      (hgranted (hframed hf)).mono hG

/-- A transfer that does not wait is started. -/
theorem startTransfer_triple (hY : Kept channels K framed t key [chan] Y)
    {dmaTfr : AxidmaTransfer w} (hwait : dmaTfr.wait = false) (cookie : ℕ) :
    (axidmaContract channels K framed).Triple (axidmaSystem channels K) t
      (fun s => Runs t key A G s ∧ Y s) (axidmaStartTransfer chan dmaTfr cookie)
      fun r s => r = .ok () ∧ Runs t key A G s ∧ Y s := by
  unfold axidmaStartTransfer
  rw [hwait]
  refine Triple.bind (triple_perform hY.runs_stable (fun _ => hY.runs_stable)
    (performs_issuePending hsound hchan huses hY)) fun _ => ?_
  exact triple_ret hY.runs_stable fun s _ hs => ⟨rfl, hs⟩

/-- Where the wait does not end in time the channel is stopped, and where it does the
descriptor is complete. -/
theorem startTransfer_waits (hq : K.Quiesces) (hblocks : key.blocks = some chan.channelId)
    {dmaTfr : AxidmaTransfer w} (hwait : dmaTfr.wait = true) (cookie : ℕ) :
    (axidmaContract channels K framed).Triple (axidmaSystem channels K) t
      (fun s => Runs t key A G s ∧ OnChan t chan (Submitted key.call cookie) s)
      (axidmaStartTransfer chan dmaTfr cookie)
      fun r s => Signalled r ∧ Runs t key A G s ∧ Left t chan s r := by
  have hsubmitted : Kept channels K framed t key []
      (OnChan t chan (Submitted key.call cookie) : AxidmaState w ι → Prop) :=
    kept_onChan hsound hchan huses (submitted_envStable hblocks cookie) nofun
  have hawaited : Kept channels K framed t key []
      (OnChan t chan (Awaited key.call cookie) : AxidmaState w ι → Prop) :=
    kept_onChan hsound hchan huses (awaited_envStable hblocks cookie) nofun
  have hfinished : Kept channels K framed t key []
      (OnChan t chan (Finished cookie) : AxidmaState w ι → Prop) :=
    kept_onChan hsound hchan huses (finished_envStable key chan cookie) nofun
  have hwaited : ∀ inTime : Bool, Kept channels K framed t key []
      fun s : AxidmaState w ι => inTime = true → OnChan t chan (Finished cookie) s :=
    fun inTime =>
      ⟨fun s s' n G h hr hs hin => hfinished.stable s s' n G h hr (hs hin),
        fun s s' h hs hin => hfinished.own s s' h (hs hin)⟩
  have hstop : ∀ rc : ℤ, rc ≠ 0 →
      (axidmaContract channels K framed).Triple (axidmaSystem channels K) t
      (fun s => Runs t key A G s ∧ True) (stopDma (α := Unit) chan rc)
      fun r s => Signalled r ∧ Runs t key A G s ∧ Left t chan s r := fun rc hrc =>
    (stopDma_triple hsound hchan huses hq (kept_true _) hrc).conseq (fun _ _ h => h)
      fun r s _ h => by
        obtain ⟨⟨rfl, hrc⟩, hruns, hdrained, -⟩ := h
        exact ⟨fun rc' hrc' => by cases hrc'; exact hrc, hruns, hdrained, nofun⟩
  unfold axidmaStartTransfer
  rw [hwait]
  refine Triple.bind (triple_perform hsubmitted.runs_stable (fun _ => hawaited.runs_stable)
    (performs_issuePending_waits hsound hchan huses cookie)) fun _ => ?_
  refine Triple.bind (triple_perform hawaited.runs_stable
    (fun inTime => (hwaited inTime).runs_stable)
    (performs_waitForCompletionTimeout chan cookie)) fun (inTime : Bool) => ?_
  refine Triple.bind (triple_still (hwaited inTime) (fun _ => id) fun _ _ _ h => h.2)
    fun (complete : Bool) => ?_
  cases inTime with
  | false =>
    exact (hstop (-ETIME) (by decide)).conseq (fun _ _ h => ⟨h.1, trivial⟩) fun _ _ _ h => h
  | true =>
    cases complete with
    | false =>
      exact (hstop (-EBUSY) (by decide)).conseq (fun _ _ h => ⟨h.1, trivial⟩) fun _ _ _ h => h
    | true =>
      refine triple_ret (hwaited true).runs_stable fun s _ hs => ⟨nofun, hs.1, ?_⟩
      obtain ⟨f, hf, hfinished⟩ := hs.2 rfl
      exact ⟨⟨f, hf, hfinished.1⟩, fun _ => ⟨cookie, f, hf, hfinished⟩⟩

/-- The two together, without a wait. -/
theorem prepAndStart_triple (hq : K.Quiesces) (hY : Kept channels K framed t key [chan] Y)
    {dmaTfr : AxidmaTransfer w} (hid : dmaTfr.channelId = chan.channelId)
    (hwait : dmaTfr.wait = false) (htype : dmaTfr.type ≠ none) (hsg : dmaTfr.sgList ≠ [])
    (hG : dmaTfr.sgList ⊆ G) (hframed : framed → dmaTfr.Framed) :
    (axidmaContract channels K framed).Triple (axidmaSystem channels K) t
      (fun s => Runs t key A G s ∧ Y s) (prepAndStart chan dmaTfr)
      fun r s => Signalled r ∧ Runs t key A G s ∧ Y s := by
  unfold prepAndStart
  refine Triple.bind (prepTransfer_triple hsound hchan huses hq hY hid hwait htype hsg hG hframed)
    fun r => triple_of_fact fun hr => ?_
  cases r with
  | error rc =>
    exact triple_ret hY.runs_stable fun s _ hs => ⟨fun rc' h => by cases h; exact hr rc rfl, hs⟩
  | ok cookie =>
    exact (startTransfer_triple hsound hchan huses hY hwait cookie).conseq (fun _ _ h => h)
      fun r s _ h => ⟨h.1 ▸ nofun, h.2⟩

/-- The two together, with a wait. -/
theorem prepAndStart_waits (hq : K.Quiesces) (hblocks : key.blocks = some chan.channelId)
    {dmaTfr : AxidmaTransfer w} (hid : dmaTfr.channelId = chan.channelId)
    (hwait : dmaTfr.wait = true) (htype : dmaTfr.type ≠ none) (hsg : dmaTfr.sgList ≠ [])
    (hG : dmaTfr.sgList ⊆ G) (hframed : framed → dmaTfr.Framed) :
    (axidmaContract channels K framed).Triple (axidmaSystem channels K) t
      (fun s => Runs t key A G s ∧ OnChan t chan Drained s) (prepAndStart chan dmaTfr)
      fun r s => Signalled r ∧ Runs t key A G s ∧ Left t chan s r := by
  unfold prepAndStart
  refine Triple.bind
    (prepTransfer_waits hsound hchan huses hq hblocks hid hwait htype hsg hG hframed)
    fun r => triple_of_fact fun hr => ?_
  cases r with
  | error rc =>
    exact triple_ret (kept_drained hsound hchan huses).runs_stable fun s _ hs =>
      ⟨fun rc' h => by cases h; exact hr rc rfl, hs.1, hs.2, nofun⟩
  | ok cookie => exact startTransfer_waits hsound hchan huses hq hblocks hwait cookie

end chanFunctions

/-! ## Commands -/

section commands

variable (hsound : ChannelsSound channels) (hq : K.Quiesces)

include hsound in
/-- It stays drained while the call works on other channels. -/
theorem kept_drainedBlocked (hkey : ∀ id, key.blocks = some id → id ∈ key.uses)
    {chans : List AxidmaChan} (hsub : chans ⊆ channels)
    (hapart : ∀ c ∈ chans, key.blocks ≠ some c.channelId) :
    Kept channels K framed t key chans
      (DrainedBlocked channels t key : AxidmaState w ι → Prop) := by
  have hkept : ∀ chan ∈ channels, key.blocks = some chan.channelId →
      Kept channels K framed t key chans (OnChan t chan Drained : AxidmaState w ι → Prop) := by
    intro chan hchan hblocks
    have hne : ∀ c ∈ chans, c ≠ chan := fun c hc heq => hapart c hc (heq ▸ hblocks)
    exact kept_onChan hsound hchan (hkey _ hblocks) (drained_envStable key chan) fun c hc =>
      ⟨fun h => hne c hc (List.inj_on_of_nodup_map hsound.chans (hsub hc) hchan h),
        fun h => hne c hc (List.inj_on_of_nodup_map hsound.ids (hsub hc) hchan h)⟩
  exact ⟨fun s s' n G h hr hs chan hchan hblocks =>
      (hkept chan hchan hblocks).stable s s' n G h hr (hs chan hchan hblocks),
    fun s s' h hs chan hchan hblocks =>
      (hkept chan hchan hblocks).own s s' h (hs chan hchan hblocks)⟩

include hsound hq

/-- A transfer of one channel, which may be the one that the call waits for. -/
theorem prepAndStart_returns {chan : AxidmaChan} (hchan : chan ∈ channels)
    (huses : chan.channelId ∈ key.uses) {dmaTfr : AxidmaTransfer w}
    (hid : dmaTfr.channelId = chan.channelId)
    (hblocks : key.blocks = if dmaTfr.wait then some chan.channelId else none)
    (htype : dmaTfr.type ≠ none) (hsg : dmaTfr.sgList ≠ []) (hG : dmaTfr.sgList ⊆ G)
    (hframed : framed → dmaTfr.Framed) :
    (axidmaContract channels K framed).Triple (axidmaSystem channels K) t
      (fun s => Runs t key [] G s ∧ DrainedBlocked channels t key s) (prepAndStart chan dmaTfr)
      fun r => Returns channels t key (returnCode r) := by
  cases hwait : dmaTfr.wait with
  | false =>
    rw [hwait] at hblocks
    exact (prepAndStart_triple hsound hchan huses hq (kept_true _) hid hwait htype hsg hG
      hframed).conseq (fun _ _ h => ⟨h.1, trivial⟩) fun r s _ h => returns_of_none hblocks h.2.1
  | true =>
    rw [hwait, if_pos rfl] at hblocks
    exact (prepAndStart_waits hsound hchan huses hq hblocks hid hwait htype hsg hG hframed).conseq
      (fun _ _ h => ⟨h.1, h.2 chan hchan hblocks⟩)
      fun r s _ h => returns_of_left hsound h.1 hchan hblocks h.2.1 h.2.2

/-- A read or a write. -/
theorem oneWayTransfer_triple {dir : AxidmaDir} {trans : AxidmaTransaction w}
    (hframed : framed → ∀ chan ∈ getChanOfDir channels dir trans.channelId,
      chan.type = some .dma)
    (hkey : ∀ id, key.blocks = some id → id ∈ key.uses) (huses : trans.channelId ∈ key.uses)
    (hblocks : key.blocks = if trans.wait then some trans.channelId else none)
    (hreq : trans.buf.toNat + trans.bufLen.toNat < 2 ^ w) :
    (axidmaContract channels K framed).Triple (axidmaSystem channels K) t
      (fun s => Runs t key [] [] s ∧ DrainedBlocked channels t key s)
      (oneWayTransfer dir channels trans) (Returns channels t key) := by
  have hdrained : Kept channels K framed t key []
      (DrainedBlocked channels t key : AxidmaState w ι → Prop) :=
    kept_drainedBlocked hsound hkey (List.nil_subset _) nofun
  unfold oneWayTransfer
  refine Triple.bind (readChannels_triple hdrained) fun _ => ?_
  cases hget : getChanOfDir channels dir trans.channelId with
  | none =>
    exact triple_ret hdrained.runs_stable fun s _ hs => returns_of_drained (by decide) hs.1 hs.2
  | some chan =>
    obtain ⟨hchan, hid, -⟩ := chan_of_getChanOfDir hget
    refine Triple.bind (initSgEntry_triple hdrained hreq) fun r => triple_of_fact fun hr => ?_
    cases r with
    | error rc =>
      exact triple_ret hdrained.runs_stable fun s _ hs =>
        returns_of_drained (hr.1 rc rfl) hs.1 hs.2
    | ok entry =>
      refine Triple.bind (notifySignal_triple hdrained) fun signal => ?_
      refine Triple.bind (uninitialisedFrame_triple hdrained) fun frame => ?_
      refine Triple.map returnCode (prepAndStart_returns hsound hq hchan (hid ▸ huses) hid.symm
        (hid ▸ hblocks) (hsound.types chan hchan) (List.cons_ne_nil _ _) (fun e he => he)
        fun hf htype => ?_)
      exact nomatch htype.symm.trans (hframed hf chan hget)

/-- The transmit side does not wait, and leaves the channel of the receive side alone. -/
theorem rwPrepared_triple (hkey : ∀ id, key.blocks = some id → id ∈ key.uses)
    {txChan rxChan : AxidmaChan} (htx : txChan ∈ channels) (hrx : rxChan ∈ channels)
    (hne : txChan ≠ rxChan) (htxUses : txChan.channelId ∈ key.uses)
    (hrxUses : rxChan.channelId ∈ key.uses) {txTfr rxTfr : AxidmaTransfer w}
    (htxId : txTfr.channelId = txChan.channelId) (hrxId : rxTfr.channelId = rxChan.channelId)
    (htxWait : txTfr.wait = false)
    (hblocks : key.blocks = if rxTfr.wait then some rxChan.channelId else none)
    (htxType : txTfr.type ≠ none) (hrxType : rxTfr.type ≠ none)
    (htxSg : txTfr.sgList ≠ []) (hrxSg : rxTfr.sgList ≠ []) (htxG : txTfr.sgList ⊆ G)
    (hrxG : rxTfr.sgList ⊆ G) (htxFramed : framed → txTfr.Framed)
    (hrxFramed : framed → rxTfr.Framed) :
    (axidmaContract channels K framed).Triple (axidmaSystem channels K) t
      (fun s => Runs t key [] G s ∧ DrainedBlocked channels t key s)
      (axidmaRwPrepared txChan rxChan txTfr rxTfr)
      fun r => Returns channels t key (returnCode r) := by
  have hids : txChan.channelId ≠ rxChan.channelId := fun h =>
    hne (List.inj_on_of_nodup_map hsound.ids htx hrx h)
  have hchans : txChan.chan ≠ rxChan.chan := fun h =>
    hne (List.inj_on_of_nodup_map hsound.chans htx hrx h)
  have hapart : ∀ c ∈ [txChan], key.blocks ≠ some c.channelId := by
    intro c hc heq
    obtain rfl := List.mem_singleton.mp hc
    rw [hblocks] at heq
    split at heq
    · exact hids (Option.some.inj heq).symm
    · exact nomatch heq
  have hdrained : Kept channels K framed t key [txChan]
      (DrainedBlocked channels t key : AxidmaState w ι → Prop) :=
    kept_drainedBlocked hsound hkey (List.cons_subset.mpr ⟨htx, List.nil_subset _⟩) hapart
  unfold axidmaRwPrepared
  refine Triple.bind
    (prepTransfer_triple hsound htx htxUses hq hdrained htxId htxWait htxType htxSg htxG htxFramed)
    fun r => triple_of_fact fun hr => ?_
  cases r with
  | error rc =>
    exact triple_ret hdrained.runs_stable fun s _ hs => returns_of_drained (hr rc rfl) hs.1 hs.2
  | ok txCookie =>
  cases hwait : rxTfr.wait with
  | false =>
    rw [hwait] at hblocks
    have htrue : ∀ chans, Kept channels K framed t key chans fun _ : AxidmaState w ι => True :=
      kept_true
    refine Triple.conseq (Q := fun r => Returns channels t key (returnCode r)) ?_
      (P := fun s => Runs t key [] G s ∧ True) (fun _ _ h => ⟨h.1, trivial⟩) fun _ _ _ h => h
    refine Triple.bind
      (prepTransfer_triple hsound hrx hrxUses hq (htrue _) hrxId hwait hrxType hrxSg hrxG hrxFramed)
      fun r => triple_of_fact fun hr => ?_
    cases r with
    | error rc => exact triple_ret (htrue []).runs_stable fun s _ hs => returns_of_none hblocks hs.1
    | ok rxCookie =>
      refine Triple.bind (startTransfer_triple hsound htx htxUses (htrue _) htxWait txCookie)
        fun r => triple_of_fact fun hr => ?_
      subst hr
      exact (startTransfer_triple hsound hrx hrxUses (htrue _) hwait rxCookie).conseq
        (fun _ _ h => h) fun r s _ h => returns_of_none hblocks h.2.1
  | true =>
    rw [hwait, if_pos rfl] at hblocks
    refine Triple.conseq (Q := fun r => Returns channels t key (returnCode r)) ?_
      (P := fun s => Runs t key [] G s ∧ OnChan t rxChan Drained s)
      (fun _ _ h => ⟨h.1, h.2 rxChan hrx hblocks⟩) fun _ _ _ h => h
    refine Triple.bind
      (prepTransfer_waits hsound hrx hrxUses hq hblocks hrxId hwait hrxType hrxSg hrxG hrxFramed)
      fun r => triple_of_fact fun hr => ?_
    cases r with
    | error rc =>
      exact triple_ret (kept_drained hsound hrx hrxUses).runs_stable fun s _ hs =>
        returns_of_left hsound (r := .error rc) (fun rc' h => by cases h; exact hr rc rfl) hrx
          hblocks hs.1 ⟨hs.2, nofun⟩
    | ok rxCookie =>
      have hsubmitted : Kept channels K framed t key [txChan]
          (OnChan t rxChan (Submitted key.call rxCookie) : AxidmaState w ι → Prop) :=
        kept_onChan hsound hrx hrxUses (submitted_envStable hblocks rxCookie) fun c hc => by
          obtain rfl := List.mem_singleton.mp hc
          exact ⟨hchans, hids⟩
      refine Triple.bind (startTransfer_triple hsound htx htxUses hsubmitted htxWait txCookie)
        fun r => triple_of_fact fun hr => ?_
      subst hr
      exact (startTransfer_waits hsound hrx hrxUses hq hblocks hwait rxCookie).conseq
        (fun _ _ h => h) fun r s _ h => returns_of_left hsound h.1 hrx hblocks h.2.1 h.2.2

/-- A transfer in both directions. -/
theorem rwTransfer_triple {trans : AxidmaInoutTransaction w}
    (hframed : framed → (AxidmaRequest.readWrite trans).Framed channels)
    (hkey : ∀ id, key.blocks = some id → id ∈ key.uses)
    (huses : trans.txChannelId ∈ key.uses ∧ trans.rxChannelId ∈ key.uses)
    (hblocks : key.blocks = if trans.wait then some trans.rxChannelId else none)
    (htx : trans.txBuf.toNat + trans.txBufLen.toNat < 2 ^ w)
    (hrx : trans.rxBuf.toNat + trans.rxBufLen.toNat < 2 ^ w) :
    (axidmaContract channels K framed).Triple (axidmaSystem channels K) t
      (fun s => Runs t key [] [] s ∧ DrainedBlocked channels t key s)
      (axidmaRwTransfer channels trans) (Returns channels t key) := by
  have hdrained : Kept channels K framed t key []
      (DrainedBlocked channels t key : AxidmaState w ι → Prop) :=
    kept_drainedBlocked hsound hkey (List.nil_subset _) nofun
  have hnodev : (axidmaContract channels K framed).Triple (axidmaSystem channels K) t
      (fun s => Runs t key [] [] s ∧ DrainedBlocked channels t key s)
      (.ret (-ENODEV)) (Returns channels t key) :=
    triple_ret hdrained.runs_stable fun s _ hs => returns_of_drained (by decide) hs.1 hs.2
  unfold axidmaRwTransfer
  refine Triple.bind (readChannels_triple hdrained) fun _ => ?_
  cases htxGet : getChanOfDir channels .write trans.txChannelId with
  | none => exact hnodev
  | some txChan =>
  cases hrxGet : getChanOfDir channels .read trans.rxChannelId with
  | none => exact hnodev
  | some rxChan =>
    obtain ⟨htxChan, htxId, htxDir⟩ := chan_of_getChanOfDir htxGet
    obtain ⟨hrxChan, hrxId, hrxDir⟩ := chan_of_getChanOfDir hrxGet
    have hne : txChan ≠ rxChan := by
      rintro rfl
      exact nomatch htxDir.symm.trans hrxDir
    refine Triple.bind (initSgEntry_triple hdrained htx) fun r => triple_of_fact fun hr => ?_
    cases r with
    | error rc =>
      exact triple_ret hdrained.runs_stable fun s _ hs =>
        returns_of_drained (hr.1 rc rfl) hs.1 hs.2
    | ok txEntry =>
    refine Triple.bind (initSgEntry_triple hdrained hrx) fun r => triple_of_fact fun hr' => ?_
    cases r with
    | error rc =>
      exact triple_ret hdrained.runs_stable fun s _ hs =>
        returns_of_drained (hr'.1 rc rfl) hs.1 hs.2
    | ok rxEntry =>
    refine Triple.bind (notifySignal_triple hdrained) fun txSignal => ?_
    refine Triple.bind (uninitialisedFrame_triple hdrained) fun txJunk => ?_
    refine Triple.bind (notifySignal_triple hdrained) fun rxSignal => ?_
    refine Triple.bind (uninitialisedFrame_triple hdrained) fun rxJunk => ?_
    refine Triple.map returnCode (rwPrepared_triple hsound hq hkey htxChan hrxChan hne
      (htxId ▸ huses.1) (hrxId ▸ huses.2) htxId.symm hrxId.symm rfl (hrxId ▸ hblocks)
      (hsound.types txChan htxChan) (hsound.types rxChan hrxChan) (List.cons_ne_nil _ _)
      (List.cons_ne_nil _ _) (by simp) (by simp)
      (fun hf htype entry hentry => ?_) fun hf htype entry hentry => ?_)
    · obtain rfl := List.mem_singleton.mp hentry
      rw [if_pos htype, hr.2 entry rfl]
      exact (hframed hf txChan htxGet rxChan hrxGet).1 htype
    · obtain rfl := List.mem_singleton.mp hentry
      obtain ⟨htxType, hbytes⟩ := (hframed hf txChan htxGet rxChan hrxGet).2 htype
      rw [if_pos htxType, hr'.2 entry rfl]
      exact hbytes

omit hsound hq in
/-- The frame buffers that are found are granted. -/
theorem initSgEntries_triple {Y : AxidmaState w ι → Prop} (hY : Kept channels K framed t key [] Y)
    {sgList : ℕ} (hmem : sgList ∈ A) (imageSize : BitVec w) (bufs : List (BitVec w))
    (hreq : ∀ buf ∈ bufs, buf.toNat + imageSize.toNat < 2 ^ w) (G : List (SgEntry w)) :
    (axidmaContract channels K framed).Triple (axidmaSystem channels K) t
      (fun s => Runs t key A G s ∧ Y s) (initSgEntries sgList imageSize bufs)
      fun r s => (∀ entries, r = .ok entries → entries.length = bufs.length ∧
          ∀ entry ∈ entries, entry.dmaLen = imageSize.setWidth 32) ∧
        match r with
        | .error _ => Runs t key A G s ∧ Y s
        | .ok entries => Runs t key A (entries ++ G) s ∧ Y s := by
  induction bufs generalizing G with
  | nil =>
    exact triple_ret hY.runs_stable fun s _ hs => ⟨fun entries h => by cases h; simp, hs⟩
  | cons buf bufs ih =>
    refine Triple.bind (initSgEntry_triple hY (hreq buf List.mem_cons_self)) fun r =>
      triple_of_fact fun hr => ?_
    cases r with
    | error rc => exact triple_ret hY.runs_stable fun s _ hs => ⟨nofun, hs⟩
    | ok entry =>
      refine Triple.bind (triple_perform hY.runs_stable (fun _ => hY.runs_stable)
        (performs_accessSgList hmem)) fun _ => ?_
      refine Triple.bind (ih (fun buf hbuf => hreq buf (List.mem_cons_of_mem _ hbuf)) _) fun r =>
        triple_of_fact fun hlen => ?_
      cases r with
      | error rc =>
        exact triple_ret hY.runs_stable fun s _ hs =>
          ⟨nofun, hs.1.mono (List.subset_cons_self _ _), hs.2⟩
      | ok entries =>
        refine triple_ret hY.runs_stable fun s _ hs => ⟨fun entries' h => ?_, hs.1.mono ?_, hs.2⟩
        · cases h
          obtain ⟨hlength, hlens⟩ := hlen entries rfl
          exact ⟨by rw [List.length_cons, List.length_cons, hlength],
            List.forall_mem_cons.mpr ⟨hr.2 entry rfl, hlens⟩⟩
        · exact List.cons_subset.mpr ⟨by simp, fun e he => by
            rcases List.mem_append.mp he with he | he <;> simp [he]⟩

/-- The scatterlist is freed on every path. -/
theorem videoTransfer_triple {trans : AxidmaVideoTransaction w} (dir : AxidmaDir)
    (hframed : framed → (AxidmaRequest.video trans dir).Framed channels)
    (huses : trans.channelId ∈ key.uses) (hblocks : key.blocks = none)
    (hnamed : (axidmaGetChan channels trans.channelId).isSome ∧ trans.frameBuffers ≠ [])
    (hreq : ∀ buf ∈ trans.frameBuffers, buf.toNat + trans.imageSize.toNat < 2 ^ w) :
    (axidmaContract channels K framed).Triple (axidmaSystem channels K) t
      (fun s => Runs t key [] [] s ∧ True)
      (axidmaVideoTransfer channels trans dir) (Returns channels t key) := by
  have htrue : ∀ chans, Kept channels K framed t key chans fun _ : AxidmaState w ι => True :=
    kept_true
  obtain ⟨chan, hget⟩ := Option.isSome_iff_exists.mp hnamed.1
  have hchan := mem_of_axidmaGetChan hget
  have hid := channelId_of_axidmaGetChan hget
  have hbody : ∀ signal sgList,
      (axidmaContract channels K framed).Triple (axidmaSystem channels K) t
        (fun s => Runs t key [sgList] [] s ∧ True)
        (videoTransferWith channels trans dir signal sgList)
        fun _ s => Runs t key [sgList] [] s ∧ True := by
    intro signal sgList
    have hmem : sgList ∈ [sgList] := List.mem_singleton_self sgList
    unfold videoTransferWith
    refine Triple.bind (initSgEntries_triple (htrue _) hmem _ _ hreq []) fun r =>
      triple_of_fact fun hlen => ?_
    cases r with
    | error rc => exact triple_ret (htrue []).runs_stable fun s _ hs => hs
    | ok entries =>
      have hsg : entries ≠ [] := by
        rintro rfl
        exact hnamed.2 (List.eq_nil_of_length_eq_zero (hlen [] rfl).1.symm)
      simp only [List.append_nil, hget]
      refine Triple.bind (readChannels_triple (htrue [])) fun _ => ?_
      refine Triple.bind (triple_perform (htrue []).runs_stable (fun _ => (htrue []).runs_stable)
        (performs_accessSgList hmem)) fun _ => ?_
      refine Triple.bind (prepAndStart_triple hsound hchan (hid ▸ huses) hq (htrue _)
        hid.symm rfl (Option.some_ne_none _) hsg (fun _ h => h) fun hf _ entry hentry => ?_)
        fun r => triple_of_fact fun _ => ?_
      · rw [(hlen entries rfl).2 entry hentry]
        exact hframed hf
      exact triple_ret (htrue []).runs_stable fun s _ hs => ⟨hs.1.mono (List.nil_subset _), trivial⟩
  unfold axidmaVideoTransfer
  refine Triple.bind (notifySignal_triple (htrue [])) fun signal => ?_
  refine Triple.bind (triple_perform (htrue []).runs_stable (fun _ => (htrue []).runs_stable)
    (performs_kmallocSgList (htrue []))) fun (sgList : Option ℕ) => ?_
  cases sgList with
  | none =>
    exact triple_ret (htrue []).runs_stable fun s _ hs => returns_of_none hblocks hs.1
  | some sgList =>
    refine Triple.bind (hbody signal sgList) fun _ => ?_
    refine Triple.bind (triple_perform (htrue []).runs_stable (fun _ => (htrue []).runs_stable)
      (performs_kfreeSgList (htrue []) sgList)) fun _ => ?_
    exact triple_ret (htrue []).runs_stable fun s _ hs => returns_of_none hblocks hs.1

/-- A channel that exists is stopped. -/
theorem stopChannel_triple {channelId : ℤ} (huses : channelId ∈ key.uses)
    (hblocks : key.blocks = none) (hnamed : (axidmaGetChan channels channelId).isSome) :
    (axidmaContract channels K framed).Triple (axidmaSystem channels K) t
      (fun s => Runs t key [] [] s ∧ True)
      (axidmaStopChannel channels channelId) (Returns channels t key) := by
  have htrue : ∀ chans, Kept channels K framed t key chans fun _ : AxidmaState w ι => True :=
    kept_true
  obtain ⟨chan, hget⟩ := Option.isSome_iff_exists.mp hnamed
  have hchan := mem_of_axidmaGetChan hget
  have hid := channelId_of_axidmaGetChan hget
  have hdrained : Kept channels K framed t key []
      (OnChan t chan Drained : AxidmaState w ι → Prop) :=
    kept_drained hsound hchan (hid ▸ huses)
  have hkept := hdrained.and (htrue _)
  unfold axidmaStopChannel
  refine Triple.bind (readChannels_triple (htrue [])) fun _ => ?_
  rw [hget]
  exact (triple_perform (htrue []).runs_stable (fun _ => hkept.runs_stable)
    (performs_terminateAll hsound hchan (hid ▸ huses) hq (htrue _))).conseq (fun _ _ h => h)
    fun _ s _ h => returns_of_none hblocks h.1

omit hsound hq in
/-- The signal is set. -/
theorem setSignal_triple (signal : ℤ) (hblocks : key.blocks = none) :
    (axidmaContract channels K framed).Triple (axidmaSystem channels K) t
      (fun s => Runs t key [] [] s ∧ True)
      (axidmaSetSignal signal) (Returns channels t key) := by
  have htrue : ∀ chans, Kept channels K framed t key chans fun _ : AxidmaState w ι => True :=
    kept_true
  unfold axidmaSetSignal
  split
  · refine Triple.bind (triple_perform (htrue []).runs_stable (fun _ => (htrue []).runs_stable)
      (performs_setNotifySignal (htrue []) signal)) fun _ => ?_
    exact triple_ret (htrue []).runs_stable fun s _ hs => returns_of_none hblocks hs.1
  · exact triple_ret (htrue []).runs_stable fun s _ hs => returns_of_none hblocks hs.1

/-- Every command that keeps to the discipline meets the contract. -/
theorem request_triple (r : AxidmaRequest w) (call : ℕ) (hnamed : r.Named channels)
    (hreq : ∀ p ∈ r.ranges, p.1.toNat + p.2.toNat < 2 ^ w)
    (hframed : framed → r.Framed channels) :
    (axidmaContract channels K framed).Triple (axidmaSystem channels K) t
      (fun s => Runs t ⟨call, r.uses, r.blocks⟩ [] [] s ∧
        DrainedBlocked channels t ⟨call, r.uses, r.blocks⟩ s)
      (r.code channels) (Returns channels t ⟨call, r.uses, r.blocks⟩) := by
  have hkey : ∀ id, r.blocks = some id → id ∈ r.uses := fun id => r.mem_uses_of_blocks
  cases r with
  | setSignal signal =>
    exact (setSignal_triple signal rfl).conseq (fun _ _ h => ⟨h.1, trivial⟩) fun _ _ _ h => h
  | read trans =>
    exact oneWayTransfer_triple hsound hq hframed hkey (List.mem_singleton_self _) rfl
      (hreq (trans.buf, trans.bufLen) (List.mem_singleton_self _))
  | write trans =>
    exact oneWayTransfer_triple hsound hq hframed hkey (List.mem_singleton_self _) rfl
      (hreq (trans.buf, trans.bufLen) (List.mem_singleton_self _))
  | readWrite trans =>
    exact rwTransfer_triple hsound hq hframed hkey (by simp [AxidmaRequest.uses]) rfl
      (hreq (trans.txBuf, trans.txBufLen) (by simp [AxidmaRequest.ranges]))
      (hreq (trans.rxBuf, trans.rxBufLen) (by simp [AxidmaRequest.ranges]))
  | video trans dir =>
    exact (videoTransfer_triple hsound hq dir hframed (List.mem_singleton_self _) rfl hnamed
      fun buf hbuf => hreq (buf, trans.imageSize) (List.mem_map_of_mem hbuf)).conseq
      (fun _ _ h => ⟨h.1, trivial⟩) fun _ _ _ h => h
  | stop channelId =>
    exact (stopChannel_triple hsound hq (List.mem_singleton_self _) rfl hnamed).conseq
      (fun _ _ h => ⟨h.1, trivial⟩) fun _ _ _ h => h

end commands

end threads

end FirDemo
