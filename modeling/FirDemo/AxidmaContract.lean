import FirDemo.AxidmaInvariant

/-!
# The contract of a call of the axidma driver

A call changes only its own frame, and the engine and callback data of channels that it names
(`Guarantee`). When it returns, the channel that it waits for has no descriptors, and if it
returns 0 then the last descriptor of that channel completed (`axidmaContract`).

What a call knows of a channel is a predicate on the engine, on the completion in the callback
data, and on its own completion (`OnChan`). Other calls cannot change it, and it is stable if
the engine's steps keep it (`EnvStable`).
-/

namespace FirDemo

open Threads

section

variable {w : ℕ} {ι : Type}

/-- The call of `t` names the channel. -/
def AxidmaState.UsedBy (s : AxidmaState w ι) (t : ι) (id : ℤ) : Prop :=
  ∃ f, s.frame t = some f ∧ id ∈ f.uses

/-- What a step of `t` leaves alone : other frames, and the channels that its call does not name. -/
structure Guarantee (channels : List AxidmaChan) (t : ι) (s s' : AxidmaState w ι) : Prop where
  frame : ∀ u, u ≠ t → s'.frame u = s.frame u
  engine : ∀ chan ∈ channels, ¬s.UsedBy t chan.channelId →
    s'.engine chan.chan = s.engine chan.chan
  cbData : ∀ i, ¬s.UsedBy t i → s'.cbData i = s.cbData i

/-- Every step keeps the invariant, and what a call leaves is freed and drained. -/
def axidmaContract (channels : List AxidmaChan) (K : Kernel w ι) (framed : Prop) :
    Contract ι (AxidmaState w ι) ℤ where
  inv := AxidmaInv channels K framed
  guar := Guarantee channels
  post t rc s := ∃ f, s.frame t = some f ∧ f.sgLists = [] ∧
    ∀ chan ∈ channels, f.blocks = some chan.channelId →
      (s.engine chan.chan).outstanding = [] ∧
        (rc = 0 → (s.engine chan.chan).last + 1 = (s.engine chan.chan).next)

/-- The thread runs the call, holds the scatterlists, and was granted the entries. -/
def Runs (t : ι) (key : CallKey) (A : List ℕ) (G : List (SgEntry w)) (s : AxidmaState w ι) : Prop :=
  ∃ f, s.frame t = some f ∧ f.toCallKey = key ∧ f.sgLists = A ∧ G ⊆ f.granted

/-- A property of the engine of a channel, of the completion in its callback data, and of the
completion of the call. -/
def OnChan (t : ι) (chan : AxidmaChan) (φ : DmaEngine w → Option ℕ → Option ℕ → Prop)
    (s : AxidmaState w ι) : Prop :=
  ∃ f, s.frame t = some f ∧ φ (s.engine chan.chan) (s.cbData chan.channelId).comp f.comp

/-- The engine and the callbacks keep the property. Callbacks of other channels can reach the
completion only if the call waits for another channel. -/
structure EnvStable (key : CallKey) (chan : AxidmaChan)
    (φ : DmaEngine w → Option ℕ → Option ℕ → Prop) : Prop where
  complete : ∀ e comp own, φ e comp own → φ e.complete comp own
  callback : ∀ e comp own d rest, e.done = d :: rest → φ e comp own →
    φ { e with done := rest } comp
      (if comp = some key.call then own.map fun n => n + 1 else own)
  others : key.blocks = some chan.channelId ∨
    ∀ e comp own own', φ e comp own → φ e comp own'

/-! ## Callbacks -/

/-- A callback counts in the frame that holds its completion. -/
theorem AxidmaState.axidmaDmaCallback_frame (s : AxidmaState w ι) (cb : AxidmaCbData ι) (t : ι) :
    (s.axidmaDmaCallback cb).frame t = (s.frame t).map fun f =>
      if cb.comp = some f.call then { f with comp := f.comp.map fun n => n + 1 } else f := by
  unfold AxidmaState.axidmaDmaCallback
  cases hcomp : cb.comp with
  | some call => simp only [AxidmaState.complete, AxidmaState.onCompletion, Option.some.injEq,
      eq_comm]
  | none =>
    simp only [reduceCtorEq, ↓reduceIte, Option.map_id']
    split <;> rfl

/-- A callback leaves the engine. -/
theorem AxidmaState.axidmaDmaCallback_engine (s : AxidmaState w ι) (cb : AxidmaCbData ι) :
    (s.axidmaDmaCallback cb).engine = s.engine := by
  unfold AxidmaState.axidmaDmaCallback
  split
  · rfl
  · split <;> rfl

/-- A callback leaves the callback data. -/
theorem AxidmaState.axidmaDmaCallback_cbData (s : AxidmaState w ι) (cb : AxidmaCbData ι) :
    (s.axidmaDmaCallback cb).cbData = s.cbData := by
  unfold AxidmaState.axidmaDmaCallback
  split
  · rfl
  · split <;> rfl

section callbacks

variable {s : AxidmaState w ι} {chan : ℕ} {d : TxDescriptor w} {rest : List (TxDescriptor w)}
  (hdone : (s.engine chan).done = d :: rest)

include hdone

/-- The frames after the callback of the first descriptor. -/
theorem AxidmaState.runCallback_frame (t : ι) :
    (s.runCallback chan).frame t = (s.frame t).map fun f =>
      if (s.cbData d.callbackParam).comp = some f.call then
        { f with comp := f.comp.map fun n => n + 1 }
      else f := by
  unfold AxidmaState.runCallback
  rw [hdone]
  exact AxidmaState.axidmaDmaCallback_frame _ _ t

/-- That descriptor is dropped. -/
theorem AxidmaState.runCallback_engine :
    (s.runCallback chan).engine =
      Function.update s.engine chan { s.engine chan with done := rest } := by
  unfold AxidmaState.runCallback
  rw [hdone]
  exact AxidmaState.axidmaDmaCallback_engine _ _

/-- The callback data stays. -/
theorem AxidmaState.runCallback_cbData : (s.runCallback chan).cbData = s.cbData := by
  unfold AxidmaState.runCallback
  rw [hdone]
  exact AxidmaState.axidmaDmaCallback_cbData _ _

end callbacks

/-- Without a descriptor that is done there is no callback. -/
theorem AxidmaState.runCallback_of_nil {s : AxidmaState w ι} {chan : ℕ}
    (h : (s.engine chan).done = []) : s.runCallback chan = s := by
  unfold AxidmaState.runCallback
  rw [h]

/-! ## Stable assertions -/

section stable

variable {channels : List AxidmaChan} {K : Kernel w ι} {framed : Prop} {t : ι} {key : CallKey}
  {A : List ℕ} {G : List (SgEntry w)}

/-- A step of the environment keeps a frame up to its completion. -/
theorem AxidmaEnv.frame {s s' : AxidmaState w ι} (h : AxidmaEnv channels K s s')
    {f : CallFrame w} (hf : s.frame t = some f) :
    ∃ f', s'.frame t = some f' ∧ f'.toCallKey = f.toCallKey ∧ f'.sgLists = f.sgLists ∧
      f'.granted = f.granted := by
  cases h with
  | callback chan =>
    cases hdone : (s.engine chan).done with
    | nil => exact ⟨f, by rw [AxidmaState.runCallback_of_nil hdone, hf], rfl, rfl, rfl⟩
    | cons d rest =>
      refine ⟨_, by rw [AxidmaState.runCallback_frame hdone, hf, Option.map_some], ?_⟩
      split <;> exact ⟨rfl, rfl, rfl⟩
  | complete | mmap | register | close => exact ⟨f, hf, rfl, rfl, rfl⟩

variable [DecidableEq ι]

/-- Nobody else changes what a call holds. -/
theorem runs_stable :
    (axidmaContract channels K framed).Stable (axidmaSystem channels K) t (Runs t key A G) := by
  rintro s s' ⟨-, -, henv | ⟨u, hut, hguar⟩⟩ ⟨f, hf, hkey, hn, hG⟩
  · obtain ⟨f', hf', hkey', hn', hG'⟩ := AxidmaEnv.frame henv hf
    exact ⟨f', hf', hkey'.trans hkey, hn'.trans hn, hG' ▸ hG⟩
  · exact ⟨f, (hguar.frame t hut.symm).trans hf, hkey, hn, hG⟩

/-- Nobody else changes what a call knows of a channel that it names, if the engine does not. -/
theorem onChan_stable (hsound : ChannelsSound channels) {chan : AxidmaChan}
    (hchan : chan ∈ channels) (huses : chan.channelId ∈ key.uses)
    {φ : DmaEngine w → Option ℕ → Option ℕ → Prop} (hφ : EnvStable key chan φ)
    {s s' : AxidmaState w ι}
    (hstep : (axidmaContract channels K framed).Interferes (axidmaSystem channels K) t s s')
    (hruns : Runs t key A G s) (h : OnChan t chan φ s) : OnChan t chan φ s' := by
  obtain ⟨hinv, -, henv | ⟨u, hut, hguar⟩⟩ := hstep
  · obtain ⟨f, hf, hkey, -, -⟩ := hruns
    obtain ⟨f₁, hf₁, hfφ⟩ := h
    obtain rfl := Option.some.inj (hf₁.symm.trans hf)
    cases henv with
    | mmap | register | close => exact ⟨f₁, hf, hfφ⟩
    | complete c hcomplete =>
      obtain rfl := K.complete_first hcomplete
      refine ⟨f₁, hf, ?_⟩
      by_cases hc : c = chan.chan
      · subst hc
        simpa [AxidmaState.setEngine] using hφ.complete _ _ _ hfφ
      · simpa [AxidmaState.setEngine, Function.update_of_ne (Ne.symm hc)] using hfφ
    | callback c =>
      cases hdone : (s.engine c).done with
      | nil => exact ⟨f₁, by rw [AxidmaState.runCallback_of_nil hdone, hf],
          by rwa [AxidmaState.runCallback_of_nil hdone]⟩
      | cons d rest =>
        obtain ⟨c', hc', rfl, hparam⟩ := hinv.param c d
          (by simp [DmaEngine.outstanding, hdone])
        refine ⟨_, by rw [AxidmaState.runCallback_frame hdone, hf, Option.map_some], ?_⟩
        rw [AxidmaState.runCallback_engine hdone, AxidmaState.runCallback_cbData hdone, hparam]
        by_cases hcc : c' = chan
        · subst hcc
          have hnext := hφ.callback _ _ _ d rest hdone hfφ
          rw [← hkey] at hnext
          rw [Function.update_self]
          split <;> simp_all
        · have hne : chan.chan ≠ c'.chan := fun heq =>
            hcc (List.inj_on_of_nodup_map hsound.chans hchan hc' heq).symm
          rw [Function.update_of_ne hne]
          split
          · next hcomp =>
            -- the completion of this call, so it waits for the other channel
            rcases hφ.others with hblocks | hfree
            · obtain ⟨v, g, hg, hgcall, -, hgblocks⟩ := hinv.comp c' hc'
                (List.ne_nil_of_mem (a := d) (by simp [DmaEngine.outstanding, hdone])) _ hcomp
              obtain rfl := hinv.call_inj v t g f₁ hg hf hgcall
              obtain rfl := Option.some.inj (hg.symm.trans hf)
              rw [hkey, hblocks] at hgblocks
              exact absurd (List.inj_on_of_nodup_map hsound.ids hchan hc'
                (Option.some.inj hgblocks)).symm hcc
            · exact hfree _ _ _ _ hfφ
          · exact hfφ
  · obtain ⟨f, hf, hfφ⟩ := h
    obtain ⟨f₁, hf₁, hkey, -, -⟩ := hruns
    have hother : ¬s.UsedBy u chan.channelId := by
      rintro ⟨g, hg, hmem⟩
      exact (hinv.exclusive u t g f₁ hg hf₁ hut) hmem (hkey ▸ huses)
    refine ⟨f, (hguar.frame t hut.symm).trans hf, ?_⟩
    rwa [hguar.engine chan hchan hother, hguar.cbData _ hother]

end stable

/-! ## What a call knows of its channels -/

section facts

/-- The engine has no descriptors. -/
def Drained (e : DmaEngine w) (_ _ : Option ℕ) : Prop :=
  e.outstanding = []

/-- The callback data has no completion. -/
def CompNull (_ : DmaEngine w) (comp _ : Option ℕ) : Prop :=
  comp = none

/-- The callback data points to the completion of the call. -/
def Pointed (call : ℕ) (e : DmaEngine w) (comp _ : Option ℕ) : Prop :=
  e.outstanding = [] ∧ comp = some call

/-- The completion is initialised. -/
def Armed (call : ℕ) (e : DmaEngine w) (comp own : Option ℕ) : Prop :=
  e.outstanding = [] ∧ comp = some call ∧ own = some 0

/-- The only descriptor of the channel is in the queue, and the completion of the call is ready. -/
def Submitted (call cookie : ℕ) (e : DmaEngine w) (comp own : Option ℕ) : Prop :=
  (∃ d, e.submitted = [d] ∧ d.cookie = cookie) ∧ e.issued = [] ∧ e.done = [] ∧
    e.next = cookie + 1 ∧ comp = some call ∧ own = some 0

/-- The descriptor is issued, done, or gone after its callback has counted. -/
def Awaited (call cookie : ℕ) (e : DmaEngine w) (comp own : Option ℕ) : Prop :=
  e.submitted = [] ∧ e.next = cookie + 1 ∧ comp = some call ∧
    ((∃ d, e.issued = [d] ∧ d.cookie = cookie ∧ e.done = [] ∧ own = some 0) ∨
      (∃ d, e.issued = [] ∧ e.done = [d] ∧ e.last = cookie ∧ own = some 0) ∨
      e.issued = [] ∧ e.done = [] ∧ e.last = cookie ∧ own = some 1)

/-- The descriptor with the cookie was the last one to complete, and none is left. -/
def Finished (cookie : ℕ) (e : DmaEngine w) (_ _ : Option ℕ) : Prop :=
  e.outstanding = [] ∧ e.last = cookie ∧ e.next = cookie + 1

/-- No descriptors means none in any of the queues. -/
theorem DmaEngine.outstanding_eq_nil {e : DmaEngine w} :
    e.outstanding = [] ↔ e.done = [] ∧ e.issued = [] ∧ e.submitted = [] := by
  simp [DmaEngine.outstanding]

/-- Without an issued descriptor nothing completes. -/
theorem DmaEngine.complete_of_nil {e : DmaEngine w} (h : e.issued = []) : e.complete = e := by
  unfold DmaEngine.complete
  rw [h]

/-- Nothing happens to an engine without descriptors. -/
theorem envStable_of_drained {key : CallKey} {chan : AxidmaChan}
    {φ : DmaEngine w → Option ℕ → Option ℕ → Prop}
    (hφ : ∀ e comp own, φ e comp own → e.issued = [] ∧ e.done = [])
    (hothers : key.blocks = some chan.channelId ∨
      ∀ e comp own own', φ e comp own → φ e comp own') : EnvStable key chan φ where
  complete e comp own h := by rwa [DmaEngine.complete_of_nil (hφ e comp own h).1]
  callback e comp own d rest hdone h := by
    rw [(hφ e comp own h).2] at hdone
    exact nomatch hdone
  others := hothers

/-- A drained channel stays drained. -/
theorem drained_envStable (key : CallKey) (chan : AxidmaChan) :
    EnvStable key chan (Drained : DmaEngine w → _) :=
  envStable_of_drained (fun _ _ _ h => (DmaEngine.outstanding_eq_nil.mp h).symm.imp_left And.left)
    (Or.inr fun _ _ _ _ h => h)

/-- A completion that is not there does not come. -/
theorem compNull_envStable (key : CallKey) (chan : AxidmaChan) :
    EnvStable key chan (CompNull : DmaEngine w → _) :=
  ⟨fun _ _ _ h => h, fun _ _ _ _ _ _ h => h, Or.inr fun _ _ _ _ h => h⟩

/-- What is finished stays so. -/
theorem finished_envStable (key : CallKey) (chan : AxidmaChan) (cookie : ℕ) :
    EnvStable key chan (Finished cookie : DmaEngine w → _) :=
  envStable_of_drained
    (fun _ _ _ h => (DmaEngine.outstanding_eq_nil.mp h.1).symm.imp_left And.left)
    (Or.inr fun _ _ _ _ h => h)

section blocking

variable {key : CallKey} {chan : AxidmaChan} (hblocks : key.blocks = some chan.channelId)

include hblocks

/-- Before the descriptor is submitted nothing happens. -/
theorem pointed_envStable : EnvStable key chan (Pointed key.call : DmaEngine w → _) :=
  envStable_of_drained
    (fun _ _ _ h => (DmaEngine.outstanding_eq_nil.mp h.1).symm.imp_left And.left) (Or.inl hblocks)

/-- The same once the completion is initialised. -/
theorem armed_envStable : EnvStable key chan (Armed key.call : DmaEngine w → _) :=
  envStable_of_drained
    (fun _ _ _ h => (DmaEngine.outstanding_eq_nil.mp h.1).symm.imp_left And.left) (Or.inl hblocks)

/-- A descriptor in the queue waits. -/
theorem submitted_envStable (cookie : ℕ) :
    EnvStable key chan (Submitted key.call cookie : DmaEngine w → _) :=
  envStable_of_drained (fun _ _ _ h => ⟨h.2.1, h.2.2.1⟩) (Or.inl hblocks)

/-- The engine completes the descriptor, and then the callback counts. -/
theorem awaited_envStable (cookie : ℕ) :
    EnvStable key chan (Awaited key.call cookie : DmaEngine w → _) where
  complete e comp own h := by
    obtain ⟨hsub, hnext, hcomp, ⟨d, hissued, hd, hdone, hown⟩ | hrest⟩ := h
    · simp only [DmaEngine.complete, hissued]
      exact ⟨hsub, hnext, hcomp, Or.inr (Or.inl ⟨d, rfl, by rw [hdone, List.nil_append], hd, hown⟩)⟩
    · have hissued : e.issued = [] := by
        rcases hrest with ⟨d, h, -⟩ | ⟨h, -⟩ <;> exact h
      rw [DmaEngine.complete_of_nil hissued]
      exact ⟨hsub, hnext, hcomp, Or.inr hrest⟩
  callback e comp own d rest hdone h := by
    obtain ⟨hsub, hnext, hcomp, ⟨d', -, -, hnil, -⟩ | ⟨d', hissued, hone, hlast, hown⟩ |
      ⟨-, hnil, -⟩⟩ := h
    · rw [hnil] at hdone
      exact nomatch hdone
    · rw [hone] at hdone
      obtain ⟨-, rfl⟩ := List.cons.inj hdone
      exact ⟨hsub, hnext, hcomp, Or.inr (Or.inr ⟨hissued, rfl, hlast, by simp [hcomp, hown]⟩)⟩
    · rw [hnil] at hdone
      exact nomatch hdone
  others := Or.inl hblocks

end blocking

end facts

end

end FirDemo
