import FirDemo.AxidmaSafety

/-!
# What a transfer of the axidma driver may run into

While a call runs, the callbacks of its channel depend on its frame, its engine and its callback
data (`At`). One lemma for each function says what it may do from there without a fault, with
answers of the kernel and steps of the engine of our choice. `transfer_may` brings them to any
reachable configuration : what a transfer may run into, it runs into from there, alone with the
engine. In particular it may hand over its descriptor and return 0 (`transfer_completes`).
-/

namespace FirDemo

open Threads

section

variable {w : ℕ} {ι : Type} {t : ι} {chan : AxidmaChan} {call : ℕ} {e : DmaEngine w}
  {comp own : Option ℕ} {s : AxidmaState w ι}

/-- What the callbacks of a channel depend on while `t` runs a call. -/
structure At (t : ι) (chan : AxidmaChan) (call : ℕ) (e : DmaEngine w) (comp own : Option ℕ)
    (s : AxidmaState w ι) : Prop where
  frame : ∃ f, s.frame t = some f ∧ f.call = call ∧ f.comp = own
  others : ∀ u f, s.frame u = some f → f.call = call → u = t
  engine : s.engine chan.chan = e
  comp : (s.cbData chan.channelId).comp = comp

/-- The channel of the engine changes. -/
theorem At.setEngine (h : At t chan call e comp own s) (e' : DmaEngine w) :
    At t chan call e' comp own (s.setEngine chan.chan e') :=
  ⟨h.frame, h.others, by simp [AxidmaState.setEngine], h.comp⟩

/-- The entry of the channel changes. -/
theorem At.setCbData (h : At t chan call e comp own s) (cb : AxidmaCbData ι) :
    At t chan call e cb.comp own (s.setCbData chan.channelId cb) :=
  ⟨h.frame, h.others, h.engine, by simp [AxidmaState.setCbData]⟩

/-- The frame of the call changes. -/
theorem At.modifyFrame [DecidableEq ι] (h : At t chan call e comp own s)
    {g : CallFrame w → CallFrame w} {own' : Option ℕ}
    (hcall : ∀ f, (g f).call = f.call) (hcomp : ∀ f, f.comp = own → (g f).comp = own') :
    At t chan call e comp own' (s.modifyFrame t g) := by
  obtain ⟨f, hf, hfcall, hfcomp⟩ := h.frame
  refine ⟨⟨g f, by rw [AxidmaState.modifyFrame_frame, if_pos rfl, hf, Option.map_some],
    (hcall f).trans hfcall, hcomp f hfcomp⟩, fun u f' hf' hcall' => ?_, h.engine, h.comp⟩
  obtain ⟨f₁, hf₁, rfl | ⟨hu, -⟩⟩ := AxidmaState.exists_of_modifyFrame hf'
  · exact h.others u f' hf₁ hcall'
  · exact hu

/-- The completion of the call changes. -/
theorem At.onCompletion (h : At t chan call e comp own s) (g : Option ℕ → Option ℕ) :
    At t chan call e comp (g own) (s.onCompletion call g) := by
  obtain ⟨f, hf, hfcall, hfcomp⟩ := h.frame
  refine ⟨⟨{ f with comp := g f.comp }, ?_, hfcall, hfcomp ▸ rfl⟩, fun u f' hf' hcall' => ?_,
    h.engine, h.comp⟩
  · simp [AxidmaState.onCompletion, hf, hfcall]
  · obtain ⟨f₁, hf₁, rfl⟩ := Option.map_eq_some_iff.mp hf'
    refine h.others u f₁ hf₁ ?_
    split at hcall' <;> exact hcall'

/-- The callback of the channel completes the call. -/
theorem At.runCallback {n : ℕ} (h : At t chan call e (some call) (some n) s)
    {d : TxDescriptor w} {rest : List (TxDescriptor w)} (hdone : e.done = d :: rest)
    (hd : d.callbackParam = chan.channelId) :
    At t chan call { e with done := rest } (some call) (some (n + 1))
      (s.runCallback chan.chan) := by
  unfold AxidmaState.runCallback
  rw [h.engine, hdone]
  simp only
  unfold AxidmaState.axidmaDmaCallback
  rw [hd, h.comp]
  exact (h.setEngine _).onCompletion fun comp => comp.map fun n => n + 1

/-- The next callback comes when the completion is gone or not initialised. -/
theorem callbackFaults_of_comp {channels : List AxidmaChan} {d : TxDescriptor w}
    {rest : List (TxDescriptor w)} (hdone : (s.engine chan.chan).done = d :: rest)
    (hd : d.callbackParam = chan.channelId) (hcomp : (s.cbData chan.channelId).comp = some call)
    (hframe : ∀ u f, s.frame u = some f → f.call = call → f.comp = none) :
    s.callbackFaults channels chan.chan := by
  refine ⟨d, rest, hdone, Or.inr ⟨call, hd ▸ hcomp, ?_⟩⟩
  rintro ⟨u, f, hf, hfcall, hne⟩
  exact hne (hframe u f hf hfcall)

/-- The frames are those of the same calls. -/
structure SameCalls (s s' : AxidmaState w ι) : Prop where
  frame : ∀ u f', s'.frame u = some f' → ∃ f, s.frame u = some f ∧ f'.call = f.call
  nextCall : s'.nextCall = s.nextCall

/-- A step that leaves the frames leaves the calls. -/
theorem sameCalls_of_frame {s s' : AxidmaState w ι} (hframe : s'.frame = s.frame)
    (hnext : s'.nextCall = s.nextCall) : SameCalls s s' :=
  ⟨fun _ f hf => ⟨f, hframe ▸ hf, rfl⟩, hnext⟩

/-- A quiet step leaves the calls. -/
theorem Quiet.sameCalls {s' : AxidmaState w ι} (hq : Quiet s s') : SameCalls s s' := by
  refine ⟨fun u f' hf' => ?_, hq.nextCall⟩
  obtain ⟨f, hf, hkeeps⟩ := hq.frame u f' hf'
  exact ⟨f, hf, congrArg CallKey.call hkeeps.key⟩

section risks

variable [DecidableEq ι] {channels : List AxidmaChan} {K : Kernel w ι}

/-! ## Calls and frames -/

/-- A change of a frame that keeps its call. -/
theorem sameCalls_modifyFrame (s : AxidmaState w ι) (t : ι) {g : CallFrame w → CallFrame w}
    (hg : ∀ f, (g f).call = f.call) : SameCalls s (s.modifyFrame t g) := by
  refine ⟨fun u f' hf' => ?_, rfl⟩
  obtain ⟨f, hf, rfl | ⟨-, rfl⟩⟩ := AxidmaState.exists_of_modifyFrame hf'
  · exact ⟨f', hf, rfl⟩
  · exact ⟨f, hf, hg f⟩

/-- No operation starts or ends a call. -/
theorem sameCalls_exec {o : AxidmaOp w} {x : o.Ans} {s' : AxidmaState w ι}
    (h : AxidmaState.exec K t o s x s') : SameCalls s s' := by
  cases o with
  | notifySignal => exact sameCalls_of_frame (congrArg _ h.2) (congrArg _ h.2)
  | setNotifySignal => exact h ▸ sameCalls_of_frame rfl rfl
  | uninitialisedFrame => exact h ▸ sameCalls_of_frame rfl rfl
  | uservirtToDma userAddr size =>
    obtain ⟨-, rfl⟩ := h
    unfold AxidmaState.lookup
    split
    · exact sameCalls_of_frame rfl rfl
    · exact sameCalls_modifyFrame s t fun _ => rfl
  | readChannels => exact h ▸ sameCalls_of_frame rfl rfl
  | kmallocSgList =>
    rw [show s' = _ from h]
    exact sameCalls_modifyFrame s t fun _ => rfl
  | accessSgList => exact h ▸ sameCalls_of_frame rfl rfl
  | kfreeSgList =>
    rw [show s' = _ from h]
    exact sameCalls_modifyFrame s t fun _ => rfl
  | setConfig => exact h.2 ▸ sameCalls_of_frame rfl rfl
  | prep => exact h.2 ▸ sameCalls_of_frame rfl rfl
  | setCbData index field =>
    obtain ⟨f, -, rfl⟩ := h
    exact sameCalls_of_frame rfl rfl
  | initCompletion index =>
    obtain ⟨call', -, rfl⟩ := h
    exact (quiet_initCompletion s call').sameCalls
  | submit chan work callbackParam =>
    obtain ⟨e, -, rfl⟩ := h
    exact sameCalls_of_frame rfl rfl
  | issuePending chan =>
    obtain ⟨e, -, rfl⟩ := h
    exact sameCalls_of_frame rfl rfl
  | waitForCompletionTimeout =>
    obtain ⟨f, n, n', -, -, -, rfl⟩ := h
    exact sameCalls_modifyFrame s t fun _ => rfl
  | isTxComplete => exact sameCalls_of_frame (congrArg _ h.2) (congrArg _ h.2)
  | terminateAll chan =>
    obtain ⟨left, -, rfl⟩ := h
    exact sameCalls_of_frame rfl rfl
  | bugOn => exact h.elim
  | nullDereference => exact h.elim

omit [DecidableEq ι] in
/-- Nor does a step of the engine, a callback or memory. -/
theorem sameCalls_env {s s' : AxidmaState w ι} (h : AxidmaEnv channels K s s') :
    SameCalls s s' := by
  cases h with
  | callback chan => exact (quiet_runCallback s chan).sameCalls
  | complete | mmap | register | close => exact sameCalls_of_frame rfl rfl

/-- A frame belongs to a thread that runs, and its number is used. -/
def FramesRun (c : Config ι (AxidmaState w ι) (AxidmaOp.Ans (w := w)) ℤ) : Prop :=
  ∀ u f, c.state.frame u = some f → f.call < c.state.nextCall ∧ c.thread u ≠ none

/-- In every reachable configuration the frames are those of the threads that run. -/
theorem framesRun_reachable {allowed : ι → AxidmaRequest w → AxidmaState w ι → Prop}
    {s₀ : AxidmaState w ι} (h₀ : s₀.Fresh)
    {c : Config ι (AxidmaState w ι) (AxidmaOp.Ans (w := w)) ℤ}
    (h : Reachable (axidmaSystem channels K) allowed s₀ c) : FramesRun c := by
  induction h with
  | refl => exact fun u f hf => nomatch (h₀.frame u).symm.trans hf
  | @tail c c' _ hstep ih =>
    intro u f hf
    cases hstep with
    | @start t _ _ _ _ hstart =>
      obtain ⟨-, rfl⟩ := hstart
      rw [AxidmaState.enter_frame] at hf
      by_cases hu : u = t
      · subst hu
        rw [if_pos rfl] at hf
        exact ⟨Option.some.inj hf ▸ Nat.lt_succ_self _, by simp⟩
      · rw [if_neg hu] at hf
        obtain ⟨hlt, hrun⟩ := ih u f hf
        exact ⟨hlt.trans (Nat.lt_succ_self _), by simpa [Function.update_of_ne hu] using hrun⟩
    | @exec t _ _ _ _ _ hexec =>
      obtain ⟨hframe, hnext⟩ := sameCalls_exec hexec
      obtain ⟨g, hg, hcall⟩ := hframe u f hf
      obtain ⟨hlt, hrun⟩ := ih u g hg
      refine ⟨hcall ▸ hnext ▸ hlt, ?_⟩
      by_cases hu : u = t
      · simp [hu]
      · simpa [Function.update_of_ne hu] using hrun
    | @finish t _ _ _ hfinish =>
      obtain rfl := hfinish
      rw [AxidmaState.leave_frame] at hf
      by_cases hu : u = t
      · rw [if_pos hu] at hf
        exact nomatch hf
      · rw [if_neg hu] at hf
        obtain ⟨hlt, hrun⟩ := ih u f hf
        exact ⟨hlt, by simpa [Function.update_of_ne hu] using hrun⟩
    | env henv =>
      obtain ⟨hframe, hnext⟩ := sameCalls_env henv
      obtain ⟨g, hg, hcall⟩ := hframe u f hf
      obtain ⟨hlt, hrun⟩ := ih u g hg
      exact ⟨hcall ▸ hnext ▸ hlt, hrun⟩

/-! ## Functions -/

/-- A buffer that is found gives its entry. -/
theorem initSgEntry_may (h : At t chan call e comp own s) {buf bufLen : BitVec w}
    (hne : axidmaUservirtToDma s.buffers buf bufLen ≠ 0) :
    May (axidmaSystem channels K) t
      (Returned fun r s' =>
        r = .ok ⟨axidmaUservirtToDma s.buffers buf bufLen, bufLen.setWidth 32⟩ ∧
          At t chan call e comp own s')
      (axidmaInitSgEntry buf bufLen) s := by
  have hat : At t chan call e comp own (s.lookup t buf bufLen) := by
    unfold AxidmaState.lookup
    rw [if_neg hne]
    exact h.modifyFrame (fun _ => rfl) fun _ hcomp => hcomp
  unfold axidmaInitSgEntry
  refine may_call (axidmaUservirtToDma s.buffers buf bufLen) id ⟨rfl, rfl⟩ ?_
  show May _ _ _ (if axidmaUservirtToDma s.buffers buf bufLen = 0 then _ else _) _
  rw [if_neg hne]
  exact may_ret ⟨rfl, hat⟩

/-- An assignment to the callback data of the channel. -/
theorem setCbData_may {α : Type} {P : AxidmaProg w α → AxidmaState w ι → Prop} {field : CbField}
    {k : Unit → AxidmaProg w α} (hin : InTable channels chan.channelId)
    (h : At t chan call e comp own s)
    (hk : ∀ s', At t chan call e
      (match field with
        | .comp true => some call
        | .comp false => none
        | _ => comp) own s' → May (axidmaSystem channels K) t P (k ()) s') :
    May (axidmaSystem channels K) t P (.call (.setCbData chan.channelId field) k) s := by
  obtain ⟨f, hf, rfl, -⟩ := h.frame
  have hat := h.setCbData (field.assign t f.call (s.cbData chan.channelId))
  refine may_call () (fun hfault => hfault hin) ⟨f, hf, rfl⟩ (hk _ ?_)
  rcases field with _ | (_ | _) | _ | _
  · exact h.comp ▸ hat
  · exact hat
  · exact hat
  · exact h.comp ▸ hat
  · exact h.comp ▸ hat

/-- The callback data is that of the call. -/
theorem setupCallback_may {dmaTfr : AxidmaTransfer w} (hid : dmaTfr.channelId = chan.channelId)
    (hin : InTable channels chan.channelId) (h : At t chan call e comp own s) :
    May (axidmaSystem channels K) t
      (Returned fun _ => At t chan call e (if dmaTfr.wait then some call else none)
        (if dmaTfr.wait then some 0 else own))
      (setupCallback dmaTfr) s := by
  unfold setupCallback
  rw [hid]
  cases dmaTfr.wait with
  | false =>
    refine setCbData_may hin h fun s₁ h₁ => setCbData_may hin h₁ fun s₂ h₂ =>
      setCbData_may hin h₂ fun s₃ h₃ => setCbData_may hin h₃ fun s₄ h₄ => ?_
    exact may_ret h₄
  | true =>
    refine setCbData_may hin h fun s₁ h₁ => setCbData_may hin h₁ fun s₂ h₂ =>
      setCbData_may hin h₂ fun s₃ h₃ => setCbData_may hin h₃ fun s₄ h₄ => ?_
    obtain ⟨f, hf, hcall, -⟩ := h₄.frame
    exact may_call () (fun hfault => hfault ⟨call, t, f, h₄.comp, hf, hcall⟩) ⟨call, h₄.comp, rfl⟩
      (may_ret (h₄.onCompletion fun _ => some 0))

/-- A transfer whose buffer is found gets as far as preparing it. -/
theorem oneWayTransfer_may {P : AxidmaProg w ℤ → AxidmaState w ι → Prop} {dir : AxidmaDir}
    {trans : AxidmaTransaction w} (hget : getChanOfDir channels dir trans.channelId = some chan)
    (h : At t chan call e comp own s)
    (hne : axidmaUservirtToDma s.buffers trans.buf trans.bufLen ≠ 0) (frame : AxidmaVideoFrame)
    (hstart : ∀ signal s', At t chan call e comp own s' → May (axidmaSystem channels K) t P
      (prepAndStart chan (trans.transfer dir chan ⟨axidmaUservirtToDma s.buffers trans.buf
        trans.bufLen, trans.bufLen.setWidth 32⟩ signal frame) >>= fun r =>
          .ret (returnCode r)) s') :
    May (axidmaSystem channels K) t P (oneWayTransfer dir channels trans) s := by
  unfold oneWayTransfer
  refine may_call () id rfl ?_
  rw [hget]
  refine (initSgEntry_may h hne).bind ?_
  rintro r s' ⟨rfl, h'⟩
  refine may_call s'.notifySignal id ⟨rfl, rfl⟩ ?_
  exact may_call frame id rfl (hstart _ s' h')

section able

variable (hK : K.Able)
include hK

/-- A descriptor can be queued. -/
theorem At.exec_submit (h : At t chan call e comp own s) (work : DmaWork w) (id : ℤ) :
    (axidmaSystem channels K).exec t (.submit chan.chan work id) s (some e.next)
      (s.setEngine chan.chan (e.submit work id)) := by
  rw [← h.engine]
  exact ⟨_, hK.submit _ work id, rfl⟩

/-- The queue can be issued. -/
theorem At.exec_issuePending (h : At t chan call e comp own s) :
    (axidmaSystem channels K).exec t (.issuePending chan.chan) s ()
      (s.setEngine chan.chan e.issuePending) := by
  rw [← h.engine]
  exact ⟨_, hK.issuePending _, rfl⟩

/-- The first descriptor can complete. -/
theorem At.env_complete (h : At t chan call e comp own s) :
    (axidmaSystem channels K).env s (s.setEngine chan.chan e.complete) := by
  rw [← h.engine]
  exact .complete chan.chan (hK.complete _)

/-- The configuration can succeed. -/
theorem setVdmaConfig_may (h : At t chan call e comp own s) (type : AxidmaType) :
    May (axidmaSystem channels K) t
      (Returned fun rc s' => rc = 0 ∧ At t chan call e comp own s')
      (setVdmaConfig chan type) s := by
  cases type with
  | dma => exact may_ret ⟨rfl, h⟩
  | vdma => exact may_call (0 : ℤ) id ⟨hK.setConfig _, rfl⟩ (may_ret ⟨rfl, h⟩)

/-- A transfer is prepared up to its callback data. -/
theorem prepTransfer_may {P : AxidmaProg w (Except ℤ ℕ) → AxidmaState w ι → Prop}
    {dmaTfr : AxidmaTransfer w} {type : AxidmaType} (htype : dmaTfr.type = some type)
    {work : DmaWork w} (hwork : dmaTfr.work type = some work) (h : At t chan call e comp own s)
    (hsetup : ∀ s', At t chan call e comp own s' → May (axidmaSystem channels K) t P
      (setupCallback dmaTfr >>= fun _ => submitTxnd chan dmaTfr work) s') :
    May (axidmaSystem channels K) t P (axidmaPrepTransfer chan dmaTfr) s := by
  unfold axidmaPrepTransfer
  rw [htype]
  refine (setVdmaConfig_may hK h type).bind ?_
  rintro rc s' ⟨rfl, h'⟩
  rw [if_neg (lt_irrefl 0), hwork]
  exact may_call true id ⟨hK.prep _ _, rfl⟩ (hsetup s' h')

/-- The descriptor is queued. -/
theorem prepTransfer_submits {dmaTfr : AxidmaTransfer w} {type : AxidmaType}
    (htype : dmaTfr.type = some type) {work : DmaWork w} (hwork : dmaTfr.work type = some work)
    (hid : dmaTfr.channelId = chan.channelId) (hin : InTable channels chan.channelId)
    (h : At t chan call e comp own s) :
    May (axidmaSystem channels K) t
      (Returned fun r s' => r = .ok e.next ∧
        At t chan call (e.submit work chan.channelId) (if dmaTfr.wait then some call else none)
          (if dmaTfr.wait then some 0 else own) s')
      (axidmaPrepTransfer chan dmaTfr) s := by
  refine prepTransfer_may hK htype hwork h fun s₁ h₁ =>
    (setupCallback_may hid hin h₁).bind fun _ s₂ h₂ => ?_
  unfold submitTxnd
  rw [hid]
  exact may_call (some e.next) id (h₂.exec_submit hK work chan.channelId)
    (may_ret ⟨rfl, h₂.setEngine _⟩)

/-- The descriptor completes and its callback comes before the wait times out. -/
theorem startTransfer_waits_completes {dmaTfr : AxidmaTransfer w} (hwait : dmaTfr.wait = true)
    (hin : InTable channels chan.channelId) (h : At t chan call e (some call) (some 0) s)
    (hissued : e.issued = []) (hdone : e.done = []) {d : TxDescriptor w}
    (hsubmitted : e.submitted = [d]) (hd : d.callbackParam = chan.channelId) :
    May (axidmaSystem channels K) t
      (Returned fun r s' => r = .ok () ∧ (s'.engine chan.chan).outstanding = [] ∧
        (s'.engine chan.chan).last = d.cookie)
      (axidmaStartTransfer chan dmaTfr d.cookie) s := by
  have hcomplete : e.issuePending.complete = ⟨[], [], [d], e.next, d.cookie⟩ := by
    simp [DmaEngine.issuePending, DmaEngine.complete, hissued, hdone, hsubmitted]
  unfold axidmaStartTransfer
  rw [hwait]
  refine may_call () id (h.exec_issuePending hK) ?_
  have h₁ := h.setEngine e.issuePending
  refine May.of_env (h₁.env_complete hK) ?_
  have h₂ := h₁.setEngine e.issuePending.complete
  generalize (s.setEngine chan.chan e.issuePending).setEngine chan.chan
    e.issuePending.complete = s₂ at h₂ ⊢
  rw [hcomplete] at h₂
  -- the callback finds the completion of this call
  have hsafe : ¬s₂.callbackFaults channels chan.chan := by
    rintro ⟨d', rest, hdone', hfault⟩
    rw [h₂.engine] at hdone'
    obtain ⟨rfl, -⟩ := List.cons.inj hdone'
    rw [hd, h₂.comp] at hfault
    rcases hfault with hout | ⟨call', hcall, hgone⟩
    · exact hout hin
    · obtain ⟨f, hf, hfcall, hfcomp⟩ := h₂.frame
      exact hgone ⟨t, f, hf, hfcall.trans (Option.some.inj hcall), by simp [hfcomp]⟩
  refine May.of_env (.callback chan.chan hsafe) ?_
  have h₃ := h₂.runCallback rfl hd
  generalize s₂.runCallback chan.chan = s₃ at h₃ ⊢
  obtain ⟨f, hf, -, hone⟩ := h₃.frame
  refine may_call true (fun hfault => Option.some_ne_none 1 (hone.symm.trans (hfault f hf)))
    ⟨f, 1, 0, hf, hone, hK.inTime 0, rfl⟩ ?_
  generalize hs₄ : s₃.modifyFrame t (fun f => { f with comp := some 0 }) = s₄
  have hengine : s₄.engine chan.chan = ⟨[], [], [], e.next, d.cookie⟩ := by
    rw [← hs₄]
    exact h₃.engine
  -- the cookie is that of the last descriptor
  have hlast : (axidmaSystem channels K).exec t (.isTxComplete chan.chan d.cookie) s₄ true s₄ := by
    have htrue : (s₄.engine chan.chan).isComplete d.cookie = true := by
      rw [hengine]
      exact decide_eq_true le_rfl
    exact ⟨htrue ▸ hK.isTxComplete _ _, rfl⟩
  exact may_call true id hlast (may_ret ⟨rfl, by rw [hengine]; rfl, by rw [hengine]⟩)

/-- A transfer that does not wait leaves its descriptors with the engine. -/
theorem startTransfer_completes {dmaTfr : AxidmaTransfer w} (hwait : dmaTfr.wait = false)
    (h : At t chan call e comp own s) (cookie : ℕ) :
    May (axidmaSystem channels K) t
      (Returned fun r s' => r = .ok () ∧
        (s'.engine chan.chan).outstanding = e.issuePending.outstanding)
      (axidmaStartTransfer chan dmaTfr cookie) s := by
  unfold axidmaStartTransfer
  rw [hwait]
  exact may_call () id (h.exec_issuePending hK)
    (may_ret ⟨rfl, by rw [(h.setEngine e.issuePending).engine]⟩)

/-- What a transfer that returned 0 leaves of its descriptor. -/
def Served (chan : AxidmaChan) (wait : Bool) (d : TxDescriptor w) (s : AxidmaState w ι) : Prop :=
  if wait then (s.engine chan.chan).outstanding = [] ∧ (s.engine chan.chan).last = d.cookie
  else d ∈ (s.engine chan.chan).outstanding

/-- A transfer hands over its descriptor, and returns. -/
theorem prepAndStart_completes {dmaTfr : AxidmaTransfer w} {type : AxidmaType}
    (htype : dmaTfr.type = some type) {work : DmaWork w} (hwork : dmaTfr.work type = some work)
    (hid : dmaTfr.channelId = chan.channelId) (hin : InTable channels chan.channelId)
    (h : At t chan call e comp own s) (hdrained : dmaTfr.wait = true → e.outstanding = []) :
    May (axidmaSystem channels K) t
      (fun q s₁ => ⟨work, chan.channelId, e.next⟩ ∈ (s₁.engine chan.chan).outstanding ∧
        May (axidmaSystem channels K) t
          (Returned fun r s' => r = .ok () ∧
            Served chan dmaTfr.wait ⟨work, chan.channelId, e.next⟩ s') q s₁)
      (prepAndStart chan dmaTfr) s := by
  have hmem : ⟨work, chan.channelId, e.next⟩ ∈ (e.submit work chan.channelId).outstanding :=
    (DmaEngine.mem_outstanding_submit _ _ _ _).mpr (Or.inr rfl)
  unfold prepAndStart
  refine (prepTransfer_submits hK htype hwork hid hin h).bind ?_
  rintro r s₁ ⟨rfl, h₁⟩
  refine may_here ⟨h₁.engine ▸ hmem, ?_⟩
  cases hwait : dmaTfr.wait with
  | false =>
    refine (startTransfer_completes hK hwait h₁ e.next).mono fun q s' hq => ?_
    cases q with
    | ret r =>
      refine ⟨hq.1, ?_⟩
      rw [Served, if_neg Bool.false_ne_true, hq.2]
      exact (DmaEngine.mem_outstanding_issuePending _ _).mpr hmem
    | call o k => exact hq.elim
  | true =>
    obtain ⟨hdone, hissued, hsubmitted⟩ := DmaEngine.outstanding_eq_nil.mp (hdrained hwait)
    rw [hwait, if_pos rfl, if_pos rfl] at h₁
    have hone : (e.submit work chan.channelId).submitted = [⟨work, chan.channelId, e.next⟩] := by
      rw [DmaEngine.submit, hsubmitted, List.nil_append]
    refine (startTransfer_waits_completes hK hwait hin h₁ hissued hdone hone rfl).mono
      fun q s' hq => ?_
    cases q with
    | ret r => exact ⟨hq.1, by rw [Served, if_pos rfl]; exact hq.2⟩
    | call o k => exact hq.elim

end able

/-! ## From a reachable configuration -/

section reachable

variable {allowed : ι → AxidmaRequest w → AxidmaState w ι → Prop} {s₀ : AxidmaState w ι}
  (h₀ : s₀.Fresh) {c : Config ι (AxidmaState w ι) (AxidmaOp.Ans (w := w)) ℤ}
  (h : Reachable (axidmaSystem channels K) allowed s₀ c) (hidle : c.thread t = none)
  {dir : AxidmaDir} {trans : AxidmaTransaction w}
  (hallowed : allowed t (.oneWay dir trans) c.state)
  (hget : getChanOfDir channels dir trans.channelId = some chan)
  (hfound : axidmaUservirtToDma c.state.buffers trans.buf trans.bufLen ≠ 0)

include h₀ h hidle hallowed hget hfound

/-- What a transfer may get to where it is prepared and started, it gets to from there. -/
theorem transfer_may {P : AxidmaProg w ℤ → AxidmaState w ι → Prop} (frame : AxidmaVideoFrame)
    (hstart : ∀ signal s',
      At t chan c.state.nextCall (c.state.engine chan.chan)
        (c.state.cbData chan.channelId).comp none s' →
      May (axidmaSystem channels K) t P
        (prepAndStart chan (trans.transfer dir chan ⟨axidmaUservirtToDma c.state.buffers trans.buf
          trans.bufLen, trans.bufLen.setWidth 32⟩ signal frame) >>= fun r => .ret (returnCode r))
        s') :
    ∃ q s', c.Serves (axidmaSystem channels K) allowed t (.oneWay dir trans) q s' ∧ P q s' := by
  have hat : At t chan c.state.nextCall (c.state.engine chan.chan)
      (c.state.cbData chan.channelId).comp none (c.state.enter t (.oneWay dir trans)) := by
    refine ⟨⟨.ofRequest c.state.nextCall (.oneWay dir trans), ?_, rfl, rfl⟩, fun u f hf hcall => ?_,
      rfl, rfl⟩
    · rw [AxidmaState.enter_frame, if_pos rfl]
    · rw [AxidmaState.enter_frame] at hf
      split at hf
      · assumption
      · exact absurd hcall (framesRun_reachable h₀ h u f hf).1.ne
  have hframe : c.state.frame t = none := by
    by_contra hne
    obtain ⟨f, hf⟩ := Option.ne_none_iff_exists'.mp hne
    exact (framesRun_reachable h₀ h t f hf).2 hidle
  obtain ⟨q, s', hsolo, hP⟩ := oneWayTransfer_may hget hat hfound frame hstart
  rw [← AxidmaRequest.code_oneWay] at hsolo
  exact ⟨q, s', ⟨hidle, hallowed, _, ⟨hframe, rfl⟩, hsolo⟩, hP⟩

/-- A transfer may hand over its descriptor, with whatever frame the stack holds, and return 0. -/
theorem transfer_completes (hK : K.Able) {type : AxidmaType} (htype : chan.type = some type)
    (hin : InTable channels chan.channelId)
    (hdrained : trans.wait = true → (c.state.engine chan.chan).outstanding = [])
    (frame : AxidmaVideoFrame) :
    let d : TxDescriptor w :=
      ⟨oneWayWork dir type ⟨axidmaUservirtToDma c.state.buffers trans.buf trans.bufLen,
        trans.bufLen.setWidth 32⟩ frame, chan.channelId, (c.state.engine chan.chan).next⟩
    ∃ q s₁ s', c.Serves (axidmaSystem channels K) allowed t (.oneWay dir trans) q s₁ ∧
      d ∈ (s₁.engine chan.chan).outstanding ∧
        Solo (axidmaSystem channels K) t (q, s₁) (.ret 0, s') ∧ Served chan trans.wait d s' := by
  intro d
  obtain ⟨q, s₁, hserves, hd, q', s', hsolo, hret⟩ :=
    transfer_may h₀ h hidle hallowed hget hfound frame fun signal s' hat =>
      (prepAndStart_completes hK htype (trans.transfer_work dir chan _ signal frame type)
        (chan_of_getChanOfDir hget).2.1.symm hin hat hdrained).bind_through
          fun r s'' hr => may_ret (Q := fun rc s => rc = 0 ∧ Served chan trans.wait d s)
            ⟨hr.1 ▸ rfl, hr.2⟩
  cases q' with
  | ret rc =>
    obtain ⟨rfl, hserved⟩ := hret
    exact ⟨q, s₁, s', hserves, hd, hsolo, hserved⟩
  | call o k => exact hret.elim

end reachable

end risks

end

end FirDemo
