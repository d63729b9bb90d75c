import FirDemo.AxidmaCalls

/-!
# The axidma driver under any interleaving

If the kernel waits for callbacks when it stops a channel, and the callers keep to the
discipline, then in no interleaving of calls, completions and callbacks does a step fault
(`axidma_not_faulty`) : no completion is signalled after its call returned, no index leaves the
callback data, no null pointer is followed. Every request meets the contract of the calls
(`axidmaContract_valid`).
-/

namespace FirDemo

open Threads Threads.Contract

section

variable {w : ℕ} {ι : Type} {channels : List AxidmaChan} {K : Kernel w ι} {framed : Prop}

/-- Before the first call. -/
structure AxidmaState.Fresh (s : AxidmaState w ι) : Prop where
  frame : ∀ t, s.frame t = none
  engine : ∀ h, (s.engine h).outstanding = []
  placed : ∀ g ∈ s.buffers.segments, Placed w g

/-- The invariant holds before any call. -/
theorem AxidmaState.Fresh.inv {s : AxidmaState w ι} (h : s.Fresh) :
    AxidmaInv channels K framed s where
  exclusive t _ _ _ hf := nomatch (h.frame t).symm.trans hf
  call_lt t _ hf := nomatch (h.frame t).symm.trans hf
  call_inj t _ _ _ hf := nomatch (h.frame t).symm.trans hf
  param c d hd := by
    rw [h.engine c] at hd
    exact nomatch hd
  comp chan _ hout := absurd (h.engine chan.chan) hout
  placed := h.placed
  inside := by
    rintro - - r (⟨t, f, hf, -⟩ | ⟨c, d, hd, -⟩)
    · exact nomatch (h.frame t).symm.trans hf
    · rw [h.engine c] at hd
      exact nomatch hd

/-- Callbacks find their completion. -/
theorem AxidmaInv.not_callbackFaults (hsound : ChannelsSound channels) {s : AxidmaState w ι}
    (hinv : AxidmaInv channels K framed s) (c : ℕ) : ¬s.callbackFaults channels c := by
  rintro ⟨d, rest, hdone, hfault⟩
  have hd : d ∈ (s.engine c).outstanding := by simp [DmaEngine.outstanding, hdone]
  obtain ⟨chan, hchan, rfl, hparam⟩ := hinv.param c d hd
  rw [hparam] at hfault
  rcases hfault with hindex | ⟨call, hcall, hdangles⟩
  · exact hindex (hsound.inTable chan hchan)
  · obtain ⟨t, f, hf, hfcall, hcomp, -⟩ := hinv.comp chan hchan (List.ne_nil_of_mem hd) call hcall
    exact hdangles ⟨t, f, hf, hfcall, hcomp⟩

/-- What a call leaves is what the contract asks. -/
theorem post_of_returns {t : ι} {key : CallKey} {rc : ℤ} {s : AxidmaState w ι}
    (h : Returns channels t key rc s) : (axidmaContract channels K framed).post t rc s := by
  obtain ⟨G, ⟨f, hf, rfl, hn, -⟩, hchan⟩ := h
  refine ⟨f, hf, hn, fun chan hmem hblocks => ?_⟩
  obtain ⟨⟨_, _, hdrained⟩, hzero⟩ := hchan chan hmem hblocks
  refine ⟨hdrained, fun hrc => ?_⟩
  obtain ⟨cookie, _, _, -, hlast, hnext⟩ := hzero hrc
  rw [hlast, hnext]

variable [DecidableEq ι]

/-- To start a call leaves other frames alone. -/
theorem guarantee_enter (s : AxidmaState w ι) (t : ι) (r : AxidmaRequest w) :
    Guarantee channels t s (s.enter t r) where
  frame u hu := by rw [AxidmaState.enter_frame, if_neg hu]
  engine _ _ _ := rfl
  cbData _ _ := rfl

/-- To return leaves other frames alone. -/
theorem guarantee_leave (s : AxidmaState w ι) (t : ι) : Guarantee channels t s (s.leave t) where
  frame u hu := by rw [AxidmaState.leave_frame, if_neg hu]
  engine _ _ _ := rfl
  cbData _ _ := rfl

section safe

variable (hsound : ChannelsSound channels) (hq : K.Quiesces)
include hsound hq

/-- Every step keeps the contract, whichever disciplined calls are made. -/
theorem axidmaContract_valid {allowed : ι → AxidmaRequest w → AxidmaState w ι → Prop}
    (hallowed : ∀ t r s, allowed t r s →
      Disciplined channels t r s ∧ (framed → r.Framed channels)) :
    (axidmaContract channels K framed).Valid (axidmaSystem channels K) allowed where
  start t r s s' hinv hstarts hstart := by
    obtain ⟨hidle, rfl⟩ := hstart
    obtain ⟨hr, hframed⟩ := hallowed t r s hstarts
    have hinv' := AxidmaInv.enter hinv hr hidle
    have hframe : (s.enter t r).frame t = some (.ofRequest s.nextCall r) := by
      rw [AxidmaState.enter_frame, if_pos rfl]
    refine ⟨hinv', guarantee_enter s t r, ?_⟩
    refine ((request_triple hsound hq r s.nextCall hr.named hr.noWrap hframed) _ hinv'
      ⟨⟨_, hframe, rfl, rfl, List.nil_subset _⟩, fun chan hchan hblocks => ?_⟩).mono
      fun rc s' _ h => post_of_returns h
    exact ⟨_, hframe, hr.drained chan.channelId hblocks chan hchan rfl⟩
  finish t rc s s' hinv hpost hfinish := by
    obtain rfl := hfinish
    refine ⟨AxidmaInv.leave hinv fun f id hf hblocks chan hchan hid => ?_, guarantee_leave s t⟩
    obtain ⟨f', hf', -, hdrained⟩ := hpost
    obtain rfl := Option.some.inj (hf'.symm.trans hf)
    exact (hdrained chan hchan (hid ▸ hblocks)).1
  env s s' hinv henv := AxidmaInv.env hinv henv
  envSafe s hinv := by
    rintro ⟨c, hfault⟩
    exact AxidmaInv.not_callbackFaults hsound hinv c hfault

/-- Calls with any frames. -/
theorem disciplined_valid :
    (axidmaContract channels K False).Valid (axidmaSystem channels K) (Disciplined channels) :=
  axidmaContract_valid hsound hq fun _ _ _ h => ⟨h, False.elim⟩

variable {s₀ : AxidmaState w ι} (h₀ : s₀.Fresh)
  {c : Config ι (AxidmaState w ι) (AxidmaOp.Ans (w := w)) ℤ}
  (h : Reachable (axidmaSystem channels K) (Disciplined channels) s₀ c)
include h₀ h

/-- No interleaving signals a completion whose call is gone, leaves the callback data or follows
a null pointer. -/
theorem axidma_not_faulty : ¬Faulty (axidmaSystem channels K) c :=
  (disciplined_valid hsound hq).not_faulty h₀.inv h

end safe

end

/-! ## The board -/

/-- The channels of the device tree, with their dma channels in order. -/
def boardChannels : List AxidmaChan :=
  [⟨some .write, some .dma, 0, "tx_channel", 0⟩, ⟨some .read, some .dma, 1, "rx_channel", 1⟩]

/-- The channels of the board are sound. -/
theorem boardChannels_sound : ChannelsSound boardChannels where
  ids := by decide
  chans := by decide
  inTable := by unfold InTable; decide
  types := by decide

/-- Nothing has run, and the buffers of a transfer are mapped. -/
def boardState : AxidmaState 32 ℕ where
  buffers := rampBuffers
  notifySignal := 0
  cbData id := ⟨id, 0, none, none⟩
  engine _ := ⟨[], [], [], 1, 0⟩
  frame _ := none
  nextCall := 0
  signals := []

/-- No call runs. -/
theorem boardState_fresh : boardState.Fresh :=
  ⟨fun _ => rfl, fun _ => rfl, rampBuffers_sound.placed⟩

/-- The only call on its channel. -/
theorem boardState_disciplined (channels : List AxidmaChan) (wait : Bool) :
    Disciplined channels 0 (.oneWay .write ⟨wait, 0, 4096, 256⟩) boardState where
  exclusive _ _ hf := nomatch hf
  drained _ _ _ _ _ := rfl
  named := trivial
  noWrap := by simp [AxidmaRequest.oneWay, AxidmaRequest.ranges]

/-- A kernel whose engine takes all descriptors, waits for callbacks when it is stopped, and closes
nothing. -/
def boardKernel : Kernel 32 ℕ where
  setConfig _ rc := rc = 0
  prep _ _ _ := True
  submit e work param x e' := x = some e.next ∧ e' = e.submit work param
  issuePending e e' := e' = e.issuePending
  complete e e' := e' = e.complete
  isTxComplete e cookie x := x = e.isComplete cookie
  terminateAll rc left := rc = 0 ∧ left = .all
  waitForCompletionTimeout n inTime n' := if inTime then n = n' + 1 else n = 0 ∧ n' = 0
  mayClose _ _ := False
  submit_queues h := Or.inr h
  issuePending_issues h := h
  complete_first h := h
  wait_completed h := h ▸ Nat.succ_pos _

/-- The board stops its channels. -/
theorem boardKernel_quiesces : boardKernel.Quiesces :=
  fun _ _ h => h.2

/-- The calls of the board succeed. -/
theorem boardKernel_able : boardKernel.Able where
  setConfig _ := rfl
  prep _ _ := trivial
  submit _ _ _ := ⟨rfl, rfl⟩
  issuePending _ := rfl
  complete _ := rfl
  isTxComplete _ _ := rfl
  inTime _ := rfl
  timesOut := ⟨rfl, rfl⟩

end FirDemo
