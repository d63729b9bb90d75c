import FirDemo.AxidmaTransfer

/-!
# The axidma driver among threads, the dma engine and memory

The state that the commands share : the buffers, the callback data of the channels, the dma
engine of each channel, and the stack frame of each running call, which holds its completion.
A pointer to a completion is the number of the call, and it dangles when the call has returned.

A descriptor is submitted, issued, and done when the engine has finished it; then its callback
is under way. The calls of the dma engine and of completions are relations of a `Kernel`, which
carries what they promise : descriptors are queued, issued and completed in their order, and a
wait ends in time only if the completion was completed. What `dmaengine_terminate_all` leaves is
open (`Terminated`); that it stops the channel and waits for its callbacks is a hypothesis
(`Kernel.Quiesces`), and so is that the calls can succeed (`Kernel.Able`).
-/

namespace FirDemo

open Threads

/-! ## State -/

/-- A descriptor that was submitted, with the parameter of its callback. -/
structure TxDescriptor (w : ℕ) where
  work : DmaWork w
  callbackParam : ℤ
  cookie : ℕ
  deriving DecidableEq, Repr

/-- What a channel of the dma engine still has of the driver. `next` is the next cookie, `last` that
of the last descriptor that completed. -/
structure DmaEngine (w : ℕ) where
  submitted : List (TxDescriptor w)
  issued : List (TxDescriptor w)
  done : List (TxDescriptor w)
  next : ℕ
  last : ℕ
  deriving DecidableEq, Repr

/-- `comp` is the number of the call that holds the completion. -/
structure AxidmaCbData (ι : Type) where
  channelId : ℤ
  notifySignal : ℤ
  process : Option ι
  comp : Option ℕ
  deriving DecidableEq, Repr

/-- A call, the channels that it names, and the one that it waits for. -/
structure CallKey where
  call : ℕ
  uses : List ℤ
  blocks : Option ℤ
  deriving DecidableEq, Repr

/-- The frame of a running call. `comp` counts the completions, and is `none` until it is
initialised. `sgLists` are the scatterlists that it has allocated, and `granted` the entries that
its lookups have accepted. -/
structure CallFrame (w : ℕ) extends CallKey where
  comp : Option ℕ
  sgLists : List ℕ
  granted : List (SgEntry w)
  deriving DecidableEq, Repr

/-- The frame of a call that starts. -/
def CallFrame.ofRequest {w : ℕ} (call : ℕ) (r : AxidmaRequest w) : CallFrame w where
  call := call
  uses := r.uses
  blocks := r.blocks
  comp := none
  sgLists := []
  granted := []

/-- A lookup accepted the entry. -/
def CallFrame.grant {w : ℕ} (f : CallFrame w) (e : SgEntry w) : CallFrame w :=
  { f with granted := e :: f.granted }

/-- A signal that a callback sends. -/
structure SigInfo (ι : Type) where
  signo : ℤ
  siInt : ℤ
  process : Option ι
  deriving DecidableEq, Repr

/-- What the commands, the dma engine and its callbacks share. -/
structure AxidmaState (w : ℕ) (ι : Type) where
  buffers : DmaBuffers w
  notifySignal : ℤ
  cbData : ℤ → AxidmaCbData ι
  engine : ℕ → DmaEngine w
  frame : ι → Option (CallFrame w)
  nextCall : ℕ
  signals : List (SigInfo ι)

/-- The descriptors that have not been dropped. -/
def DmaEngine.outstanding {w : ℕ} (e : DmaEngine w) : List (TxDescriptor w) :=
  e.done ++ e.issued ++ e.submitted

/-- `dma_async_is_complete`. -/
def DmaEngine.isComplete {w : ℕ} (e : DmaEngine w) (cookie : ℕ) : Bool :=
  decide (cookie ≤ e.last)

/-- The engine finishes the first issued descriptor. -/
def DmaEngine.complete {w : ℕ} (e : DmaEngine w) : DmaEngine w :=
  match e.issued with
  | [] => e
  | d :: rest => { e with issued := rest, done := e.done ++ [d], last := d.cookie }

/-- A descriptor joins the queue. -/
def DmaEngine.submit {w : ℕ} (e : DmaEngine w) (work : DmaWork w) (callbackParam : ℤ) :
    DmaEngine w :=
  { e with submitted := e.submitted ++ [⟨work, callbackParam, e.next⟩], next := e.next + 1 }

/-- The queue is handed to the engine. -/
def DmaEngine.issuePending {w : ℕ} (e : DmaEngine w) : DmaEngine w :=
  { e with submitted := [], issued := e.issued ++ e.submitted }

/-- How `dmaengine_terminate_all` leaves a channel : it may refuse, return while a callback still
runs, or leave nothing. -/
inductive Terminated
  | refused
  | running
  | all
  deriving DecidableEq, Repr

/-- The descriptors that are left. -/
def DmaEngine.terminate {w : ℕ} (e : DmaEngine w) : Terminated → DmaEngine w
  | .refused => e
  | .running => { e with submitted := [], issued := [], done := e.done.take 1 }
  | .all => { e with submitted := [], issued := [], done := [] }

namespace AxidmaState

variable {w : ℕ} {ι : Type} (s : AxidmaState w ι)

/-- Another state of a channel of the engine. -/
def setEngine (chan : ℕ) (e : DmaEngine w) : AxidmaState w ι :=
  { s with engine := Function.update s.engine chan e }

/-- Another entry of the callback data. -/
def setCbData (index : ℤ) (cb : AxidmaCbData ι) : AxidmaState w ι :=
  { s with cbData := Function.update s.cbData index cb }

/-- A change of the completion that belongs to a call. -/
def onCompletion (call : ℕ) (g : Option ℕ → Option ℕ) : AxidmaState w ι :=
  { s with
    frame := fun u => (s.frame u).map fun f =>
      if f.call = call then { f with comp := g f.comp } else f }

/-- `complete`. -/
def complete (call : ℕ) : AxidmaState w ι :=
  s.onCompletion call fun comp => comp.map fun n => n + 1

/-- `init_completion`. -/
def initCompletion (call : ℕ) : AxidmaState w ι :=
  s.onCompletion call fun _ => some 0

/-- `axidma_dma_callback`, for a completion that is initialised. -/
def axidmaDmaCallback (cbData : AxidmaCbData ι) : AxidmaState w ι :=
  match cbData.comp with
  | some call => s.complete call
  | none =>
    if validNotifySignal cbData.notifySignal then
      { s with signals := ⟨cbData.notifySignal, cbData.channelId, cbData.process⟩ :: s.signals }
    else
      s

/-- The callback of the first descriptor that is done. -/
def runCallback (chan : ℕ) : AxidmaState w ι :=
  match (s.engine chan).done with
  | [] => s
  | d :: rest =>
    (s.setEngine chan { s.engine chan with done := rest }).axidmaDmaCallback
      (s.cbData d.callbackParam)

/-- A call holds the completion, and has initialised it. -/
def Waitable (call : ℕ) : Prop :=
  ∃ t f, s.frame t = some f ∧ f.call = call ∧ f.comp ≠ none

section threads

variable [DecidableEq ι]

/-- A change of the frame of `t`. -/
def modifyFrame (t : ι) (g : CallFrame w → CallFrame w) : AxidmaState w ι :=
  { s with frame := Function.update s.frame t ((s.frame t).map g) }

/-- `t` starts a call. -/
def enter (t : ι) (r : AxidmaRequest w) : AxidmaState w ι :=
  { s with
    frame := Function.update s.frame t (some (.ofRequest s.nextCall r))
    nextCall := s.nextCall + 1 }

/-- `t` returns. -/
def leave (t : ι) : AxidmaState w ι :=
  { s with frame := Function.update s.frame t none }

end threads

end AxidmaState

/-- The entry after an assignment of a call of `t`. -/
def CbField.assign {ι : Type} (t : ι) (call : ℕ) (cb : AxidmaCbData ι) :
    CbField → AxidmaCbData ι
  | channelId id => { cb with channelId := id }
  | comp own => { cb with comp := if own then some call else none }
  | notifySignal signal => { cb with notifySignal := signal }
  | process own => { cb with process := if own then some t else none }

/-! ## Operations -/

/-- What the driver does not decide : what the calls of the kernel may answer, with the channel of
the engine before and after them, and when a process closes a mapping. The laws are what the dma
engine and completions promise. -/
structure Kernel (w : ℕ) (ι : Type) where
  setConfig : DmaEngine w → ℤ → Prop
  prep : DmaEngine w → DmaWork w → Bool → Prop
  submit : DmaEngine w → DmaWork w → ℤ → Option ℕ → DmaEngine w → Prop
  issuePending : DmaEngine w → DmaEngine w → Prop
  complete : DmaEngine w → DmaEngine w → Prop
  isTxComplete : DmaEngine w → ℕ → Bool → Prop
  terminateAll : ℤ → Terminated → Prop
  waitForCompletionTimeout : ℕ → Bool → ℕ → Prop
  mayClose : DmaAllocation w → AxidmaState w ι → Prop
  /-- A descriptor is refused, or queued under the next cookie. -/
  submit_queues : ∀ {e work param x e'}, submit e work param x e' →
    x = none ∧ e' = e ∨ x = some e.next ∧ e' = e.submit work param
  /-- The descriptors of the queue are handed over in their order. -/
  issuePending_issues : ∀ {e e'}, issuePending e e' → e' = e.issuePending
  /-- The first of them completes first. -/
  complete_first : ∀ {e e'}, complete e e' → e' = e.complete
  /-- A wait ends in time only if the completion was completed. -/
  wait_completed : ∀ {n n'}, waitForCompletionTimeout n true n' → 0 < n

/-- `dmaengine_terminate_all` stops the channel, and waits for the callback that runs. -/
def Kernel.Quiesces {w : ℕ} {ι : Type} (K : Kernel w ι) : Prop :=
  ∀ rc left, K.terminateAll rc left → left = .all

/-- The calls can succeed, and a wait that nothing completes can time out. -/
structure Kernel.Able {w : ℕ} {ι : Type} (K : Kernel w ι) : Prop where
  setConfig : ∀ e, K.setConfig e 0
  prep : ∀ e work, K.prep e work true
  submit : ∀ e work param, K.submit e work param (some e.next) (e.submit work param)
  issuePending : ∀ e, K.issuePending e e.issuePending
  complete : ∀ e, K.complete e e.complete
  isTxComplete : ∀ e cookie, K.isTxComplete e cookie (e.isComplete cookie)
  inTime : ∀ n, K.waitForCompletionTimeout (n + 1) true n
  timesOut : K.waitForCompletionTimeout 0 false 0

section system

variable {w : ℕ} {ι : Type} [DecidableEq ι] (channels : List AxidmaChan) (K : Kernel w ι)

/-- The callback data has an entry for each channel, from 0 on. -/
def InTable (index : ℤ) : Prop :=
  0 ≤ index ∧ index < channels.length

/-- A lookup of a call. -/
def AxidmaState.lookup (s : AxidmaState w ι) (t : ι) (userAddr size : BitVec w) :
    AxidmaState w ι :=
  if axidmaUservirtToDma s.buffers userAddr size = 0 then
    s
  else
    s.modifyFrame t fun f =>
      f.grant ⟨axidmaUservirtToDma s.buffers userAddr size, size.setWidth 32⟩

/-- What an operation may answer, and the state after it. -/
def AxidmaState.exec (t : ι) : (o : AxidmaOp w) → AxidmaState w ι → o.Ans → AxidmaState w ι → Prop
  | .notifySignal, s, (x : ℤ), s' => x = s.notifySignal ∧ s' = s
  | .setNotifySignal signal, s, _, s' => s' = { s with notifySignal := signal }
  | .uninitialisedFrame, s, _, s' => s' = s
  | .readChannels, s, _, s' => s' = s
  | .uservirtToDma userAddr size, s, (x : BitVec w), s' =>
    x = axidmaUservirtToDma s.buffers userAddr size ∧ s' = s.lookup t userAddr size
  | .kmallocSgList, s, (x : Option ℕ), s' =>
    s' = s.modifyFrame t fun f => { f with sgLists := x.toList ++ f.sgLists }
  | .accessSgList _, s, _, s' => s' = s
  | .kfreeSgList sgList, s, _, s' =>
    s' = s.modifyFrame t fun f => { f with sgLists := f.sgLists.erase sgList }
  | .setConfig chan, s, (x : ℤ), s' => K.setConfig (s.engine chan) x ∧ s' = s
  | .prep chan work, s, (x : Bool), s' => K.prep (s.engine chan) work x ∧ s' = s
  | .setCbData index field, s, _, s' =>
    ∃ f, s.frame t = some f ∧ s' = s.setCbData index (field.assign t f.call (s.cbData index))
  | .initCompletion index, s, _, s' =>
    ∃ call, (s.cbData index).comp = some call ∧ s' = s.initCompletion call
  | .submit chan work callbackParam, s, (x : Option ℕ), s' =>
    ∃ e, K.submit (s.engine chan) work callbackParam x e ∧ s' = s.setEngine chan e
  | .issuePending chan, s, _, s' =>
    ∃ e, K.issuePending (s.engine chan) e ∧ s' = s.setEngine chan e
  | .waitForCompletionTimeout, s, (x : Bool), s' =>
    ∃ f n n', s.frame t = some f ∧ f.comp = some n ∧ K.waitForCompletionTimeout n x n' ∧
      s' = s.modifyFrame t fun f => { f with comp := some n' }
  | .isTxComplete chan cookie, s, (x : Bool), s' =>
    K.isTxComplete (s.engine chan) cookie x ∧ s' = s
  | .terminateAll chan, s, (x : ℤ), s' =>
    ∃ left, K.terminateAll x left ∧ s' = s.setEngine chan ((s.engine chan).terminate left)
  | .bugOn, _, _, _ => False
  | .nullDereference, _, _, _ => False

/-- An index outside the callback data, a completion that is not there, a scatterlist that is
not allocated, a `BUG_ON`, a null pointer. -/
def AxidmaState.faults (t : ι) (s : AxidmaState w ι) : AxidmaOp w → Prop
  | .setCbData index _ => ¬InTable channels index
  | .initCompletion index =>
    ¬∃ call u f, (s.cbData index).comp = some call ∧ s.frame u = some f ∧ f.call = call
  | .waitForCompletionTimeout => ∀ f, s.frame t = some f → f.comp = none
  | .accessSgList sgList => ∀ f, s.frame t = some f → sgList ∉ f.sgLists
  | .kfreeSgList sgList => ∀ f, s.frame t = some f → sgList ∉ f.sgLists
  | .bugOn => True
  | .nullDereference => True
  | _ => False

/-- The next callback of a channel has an index outside the callback data, or a completion that
is not there. -/
def AxidmaState.callbackFaults (s : AxidmaState w ι) (chan : ℕ) : Prop :=
  ∃ d rest, (s.engine chan).done = d :: rest ∧
    (¬InTable channels d.callbackParam ∨
      ∃ call, (s.cbData d.callbackParam).comp = some call ∧ ¬s.Waitable call)

/-- Steps of the engine, of its callbacks, and of processes that map and close buffers. -/
inductive AxidmaEnv : AxidmaState w ι → AxidmaState w ι → Prop
  | complete {s : AxidmaState w ι} (chan : ℕ) {e : DmaEngine w}
      (hcomplete : K.complete (s.engine chan) e) : AxidmaEnv s (s.setEngine chan e)
  | callback {s : AxidmaState w ι} (chan : ℕ) (hsafe : ¬s.callbackFaults channels chan) :
      AxidmaEnv s (s.runCallback chan)
  | mmap {s : AxidmaState w ι} (dmaAlloc : DmaAllocation w)
      (hplaced : Placed w dmaAlloc.segment) :
      AxidmaEnv s { s with buffers := s.buffers.addMapped dmaAlloc }
  | register {s : AxidmaState w ι} (dmaExtAlloc : ExternalAllocation w)
      (hplaced : Placed w dmaExtAlloc.segment) :
      AxidmaEnv s { s with buffers := s.buffers.addExternal dmaExtAlloc }
  | close {s : AxidmaState w ι} (dmaAlloc : DmaAllocation w) (hmay : K.mayClose dmaAlloc s) :
      AxidmaEnv s { s with buffers := s.buffers.close dmaAlloc }

/-- The commands among each other, the engine and memory. -/
def axidmaSystem : System ι (AxidmaState w ι) (AxidmaRequest w) (AxidmaOp.Ans (w := w)) ℤ where
  code := AxidmaRequest.code channels
  start t r s s' := s.frame t = none ∧ s' = s.enter t r
  exec t o s x s' := AxidmaState.exec K t o s x s'
  finish t _ s s' := s' = s.leave t
  env := AxidmaEnv channels K
  faults t o s := s.faults channels t o
  envFaults s := ∃ chan, s.callbackFaults channels chan

end system

end FirDemo
