import FirDemo.AxidmaDevice
import FirDemo.Threads

/-!
# Transfers of the axidma driver

The functions behind the transfer commands, as programs over the operations that other threads
or the dma engine can see : lookups, the callback data of a channel, and the calls to the
engine. A program waits only in `waitForCompletionTimeout`.

The entry of the callback data is the one under the channel id that the caller gave, and a
channel is looked up by its id alone. `axidma_video_transfer` and `axidma_stop_channel` test
`chan == NULL && chan->dir != ...`, so an unknown id makes them follow the null pointer. A channel
whose type holds neither value of the enumeration meets a `BUG_ON` where its transfer is prepared.
-/

namespace FirDemo

open Threads

/-! ## Operations -/

/-- One entry of a scatterlist, with its 32 bit length. -/
structure SgEntry (w : ℕ) where
  dmaAddress : BitVec w
  dmaLen : BitVec 32
  deriving DecidableEq, Repr

/-- What a descriptor asks of the engine. -/
inductive DmaWork (w : ℕ)
  | slaveSg (sgList : List (SgEntry w)) (dir : AxidmaDir)
  | interleaved (start numf size : BitVec w) (dir : AxidmaDir)
  deriving DecidableEq, Repr

/-- An assignment to a field of `axidma_cb_data`. The completion and the process are those of
the call, or `NULL`. -/
inductive CbField
  | channelId (id : ℤ)
  | comp (own : Bool)
  | notifySignal (signal : ℤ)
  | process (own : Bool)
  deriving DecidableEq, Repr

/-- `uninitialisedFrame` is what the stack holds in a field that is not set, `readChannels` a look
for a channel in the array, and `accessSgList` a read or a write of a scatterlist. -/
inductive AxidmaOp (w : ℕ)
  | notifySignal
  | setNotifySignal (signal : ℤ)
  | uninitialisedFrame
  | readChannels
  | uservirtToDma (userAddr size : BitVec w)
  | kmallocSgList
  | accessSgList (sgList : ℕ)
  | kfreeSgList (sgList : ℕ)
  | setConfig (chan : ℕ)
  | prep (chan : ℕ) (work : DmaWork w)
  | setCbData (index : ℤ) (field : CbField)
  | initCompletion (index : ℤ)
  | submit (chan : ℕ) (work : DmaWork w) (callbackParam : ℤ)
  | issuePending (chan : ℕ)
  | waitForCompletionTimeout
  | isTxComplete (chan : ℕ) (cookie : ℕ)
  | terminateAll (chan : ℕ)
  | bugOn
  | nullDereference

/-- The answers of the operations. -/
abbrev AxidmaOp.Ans {w : ℕ} : AxidmaOp w → Type
  | notifySignal => ℤ
  | uninitialisedFrame => AxidmaVideoFrame
  | uservirtToDma _ _ => BitVec w
  | kmallocSgList => Option ℕ
  | setConfig _ => ℤ
  | prep _ _ => Bool
  | submit _ _ _ => Option ℕ
  | waitForCompletionTimeout => Bool
  | isTxComplete _ _ => Bool
  | terminateAll _ => ℤ
  | _ => Unit

/-- What a command does among its operations. -/
abbrev AxidmaProg (w : ℕ) : Type → Type :=
  Prog (AxidmaOp.Ans : AxidmaOp w → Type)

/-- One operation. -/
abbrev callOp {w : ℕ} (o : AxidmaOp w) : AxidmaProg w o.Ans :=
  Prog.perform o

/-! ## Requests -/

/-- `struct axidma_transaction`. Its frame is not read. -/
structure AxidmaTransaction (w : ℕ) where
  wait : Bool
  channelId : ℤ
  buf : BitVec w
  bufLen : BitVec w

/-- `struct axidma_inout_transaction`. -/
structure AxidmaInoutTransaction (w : ℕ) where
  wait : Bool
  txChannelId : ℤ
  txBuf : BitVec w
  txBufLen : BitVec w
  txFrame : AxidmaVideoFrame
  rxChannelId : ℤ
  rxBuf : BitVec w
  rxBufLen : BitVec w
  rxFrame : AxidmaVideoFrame

/-- `frameBuffers` has `num_frame_buffers` addresses. -/
structure AxidmaVideoTransaction (w : ℕ) where
  channelId : ℤ
  frameBuffers : List (BitVec w)
  frame : AxidmaVideoFrame

/-- The lines of a frame. An `int` is converted to `size_t`. -/
def AxidmaVideoFrame.numf (frame : AxidmaVideoFrame) (w : ℕ) : BitVec w :=
  frame.height.signExtend w

/-- The bytes of a line. -/
def AxidmaVideoFrame.lineSize (frame : AxidmaVideoFrame) (w : ℕ) : BitVec w :=
  (frame.width * frame.depth).signExtend w

/-- `int` products, converted to `size_t`. -/
def AxidmaVideoTransaction.imageSize {w : ℕ} (trans : AxidmaVideoTransaction w) : BitVec w :=
  (trans.frame.width * trans.frame.height * trans.frame.depth).signExtend w

/-- `struct axidma_transfer`, whose type is that of the channel in memory. -/
structure AxidmaTransfer (w : ℕ) where
  sgList : List (SgEntry w)
  wait : Bool
  dir : AxidmaDir
  type : Option AxidmaType
  channelId : ℤ
  notifySignal : ℤ
  frame : AxidmaVideoFrame

/-! ## Preparing and starting a transfer -/

section programs

variable {w : ℕ}

/-- An entry of a scatterlist, if a buffer holds the range. -/
def axidmaInitSgEntry (buf bufLen : BitVec w) : AxidmaProg w (Except ℤ (SgEntry w)) := do
  let dmaAddr : BitVec w ← callOp (.uservirtToDma buf bufLen)
  if dmaAddr = 0 then
    return .error (-EFAULT)
  else
    return .ok ⟨dmaAddr, bufLen.setWidth 32⟩

/-- The label `stop_dma`. -/
def stopDma {α : Type} (chan : AxidmaChan) (rc : ℤ) : AxidmaProg w (Except ℤ α) := do
  let _ ← callOp (.terminateAll chan.chan)
  return .error rc

/-- The interleaved transfer reads the first entry of the scatterlist. -/
def AxidmaTransfer.work (dmaTfr : AxidmaTransfer w) (type : AxidmaType) : Option (DmaWork w) :=
  match type with
  | .dma => some (.slaveSg dmaTfr.sgList dmaTfr.dir)
  | .vdma => dmaTfr.sgList.head?.map fun entry =>
      .interleaved entry.dmaAddress (dmaTfr.frame.numf w) (dmaTfr.frame.lineSize w) dmaTfr.dir

/-- The callback data, for a call that waits or one that does not. -/
def setupCallback (dmaTfr : AxidmaTransfer w) : AxidmaProg w Unit := do
  callOp (.setCbData dmaTfr.channelId (.channelId dmaTfr.channelId))
  if dmaTfr.wait then
    callOp (.setCbData dmaTfr.channelId (.comp true))
    callOp (.setCbData dmaTfr.channelId (.notifySignal (-1)))
    callOp (.setCbData dmaTfr.channelId (.process false))
    callOp (.initCompletion dmaTfr.channelId)
  else
    callOp (.setCbData dmaTfr.channelId (.comp false))
    callOp (.setCbData dmaTfr.channelId (.notifySignal dmaTfr.notifySignal))
    callOp (.setCbData dmaTfr.channelId (.process true))

/-- The cookie of a prepared descriptor. -/
def submitTxnd (chan : AxidmaChan) (dmaTfr : AxidmaTransfer w) (work : DmaWork w) :
    AxidmaProg w (Except ℤ ℕ) := do
  let cookie : Option ℕ ← callOp (.submit chan.chan work dmaTfr.channelId)
  match cookie with
  | some cookie => return .ok cookie
  | none => stopDma chan (-EBUSY)

/-- A descriptor is prepared, given its callback and submitted. -/
def submitWork (chan : AxidmaChan) (dmaTfr : AxidmaTransfer w) (work : DmaWork w) :
    AxidmaProg w (Except ℤ ℕ) := do
  let prepared : Bool ← callOp (.prep chan.chan work)
  if prepared then
    setupCallback dmaTfr
    submitTxnd chan dmaTfr work
  else
    stopDma chan (-EBUSY)

/-- The channel is configured for a video transfer only. -/
def setVdmaConfig (chan : AxidmaChan) (type : AxidmaType) : AxidmaProg w ℤ :=
  match type with
  | .dma => return 0
  | .vdma => callOp (.setConfig chan.chan)

/-- The cookie of the transaction, or an error after the channel was stopped. -/
def axidmaPrepTransfer (chan : AxidmaChan) (dmaTfr : AxidmaTransfer w) :
    AxidmaProg w (Except ℤ ℕ) := do
  match dmaTfr.type with
  | none =>
    callOp .bugOn
    return .error 0
  | some type =>
    let rc ← setVdmaConfig chan type
    if rc < 0 then
      stopDma chan rc
    else
      match dmaTfr.work type with
      | some work => submitWork chan dmaTfr work
      | none =>
        callOp .nullDereference
        return .error 0

/-- Issues the descriptors of the channel, and waits for the last one if the transfer waits. -/
def axidmaStartTransfer (chan : AxidmaChan) (dmaTfr : AxidmaTransfer w) (cookie : ℕ) :
    AxidmaProg w (Except ℤ Unit) := do
  callOp (.issuePending chan.chan)
  if dmaTfr.wait then
    let inTime : Bool ← callOp .waitForCompletionTimeout
    let complete : Bool ← callOp (.isTxComplete chan.chan cookie)
    if inTime = false then
      stopDma chan (-ETIME)
    else if complete = false then
      stopDma chan (-EBUSY)
    else
      return .ok ()
  else
    return .ok ()

/-! ## The commands -/

/-- `rc` of a function that returns 0 where it succeeds. -/
def returnCode : Except ℤ Unit → ℤ
  | .error rc => rc
  | .ok () => 0

/-- Prepare a transfer and start it. -/
def prepAndStart (chan : AxidmaChan) (dmaTfr : AxidmaTransfer w) :
    AxidmaProg w (Except ℤ Unit) := do
  match ← axidmaPrepTransfer chan dmaTfr with
  | .error rc => return .error rc
  | .ok cookie => axidmaStartTransfer chan dmaTfr cookie

/-- The channel under the id, if it has the direction. -/
def getChanOfDir (channels : List AxidmaChan) (dir : AxidmaDir) (channelId : ℤ) :
    Option AxidmaChan :=
  (axidmaGetChan channels channelId).filter fun chan => chan.dir = some dir

/-- A channel that was found has the id and the direction. -/
theorem chan_of_getChanOfDir {channels : List AxidmaChan} {dir : AxidmaDir} {channelId : ℤ}
    {chan : AxidmaChan}
    (h : getChanOfDir channels dir channelId = some chan) :
    chan ∈ channels ∧ chan.channelId = channelId ∧ chan.dir = some dir := by
  obtain ⟨hget, hdir⟩ := Option.filter_eq_some_iff.mp h
  exact ⟨mem_of_axidmaGetChan hget, channelId_of_axidmaGetChan hget, by simpa using hdir⟩

/-- The transfer of a command in the direction of its channel. -/
def AxidmaTransaction.transfer (trans : AxidmaTransaction w) (dir : AxidmaDir)
    (chan : AxidmaChan) (entry : SgEntry w) (signal : ℤ) (frame : AxidmaVideoFrame) :
    AxidmaTransfer w where
  sgList := [entry]
  wait := trans.wait
  dir := dir
  type := chan.type
  channelId := trans.channelId
  notifySignal := signal
  frame := frame

/-- What a command in one direction asks of the engine, with the frame that the stack holds. -/
def oneWayWork (dir : AxidmaDir) (type : AxidmaType) (entry : SgEntry w)
    (frame : AxidmaVideoFrame) : DmaWork w :=
  match type with
  | .dma => .slaveSg [entry] dir
  | .vdma => .interleaved entry.dmaAddress (frame.numf w) (frame.lineSize w) dir

/-- A transfer of one entry always has its work. -/
theorem AxidmaTransaction.transfer_work (trans : AxidmaTransaction w) (dir : AxidmaDir)
    (chan : AxidmaChan) (entry : SgEntry w) (signal : ℤ) (frame : AxidmaVideoFrame)
    (type : AxidmaType) :
    (trans.transfer dir chan entry signal frame).work type =
      some (oneWayWork dir type entry frame) := by
  cases type <;> rfl

/-- `axidma_read_transfer` and `axidma_write_transfer`, which differ in the direction. -/
def oneWayTransfer (dir : AxidmaDir) (channels : List AxidmaChan)
    (trans : AxidmaTransaction w) : AxidmaProg w ℤ := do
  callOp .readChannels
  match getChanOfDir channels dir trans.channelId with
  | none => return -ENODEV
  | some chan =>
    match ← axidmaInitSgEntry trans.buf trans.bufLen with
    | .error rc => return rc
    | .ok entry =>
      let signal : ℤ ← callOp .notifySignal
      let frame : AxidmaVideoFrame ← callOp .uninitialisedFrame
      let rc ← prepAndStart chan (trans.transfer dir chan entry signal frame)
      return returnCode rc

/-- `axidma_read_transfer`. -/
def axidmaReadTransfer (channels : List AxidmaChan) (trans : AxidmaTransaction w) :
    AxidmaProg w ℤ :=
  oneWayTransfer .read channels trans

/-- `axidma_write_transfer`. -/
def axidmaWriteTransfer (channels : List AxidmaChan) (trans : AxidmaTransaction w) :
    AxidmaProg w ℤ :=
  oneWayTransfer .write channels trans

/-- Both transfers are prepared before either is started. The frame of the receive side is
copied where the transmit channel is of video type. -/
def axidmaRwPrepared (txChan rxChan : AxidmaChan) (txTfr rxTfr : AxidmaTransfer w) :
    AxidmaProg w (Except ℤ Unit) := do
  match ← axidmaPrepTransfer txChan txTfr with
  | .error rc => return .error rc
  | .ok txCookie =>
    match ← axidmaPrepTransfer rxChan rxTfr with
    | .error rc => return .error rc
    | .ok rxCookie =>
      match ← axidmaStartTransfer txChan txTfr txCookie with
      | .error rc => return .error rc
      | .ok () => axidmaStartTransfer rxChan rxTfr rxCookie

/-- `axidma_rw_transfer`. -/
def axidmaRwTransfer (channels : List AxidmaChan) (trans : AxidmaInoutTransaction w) :
    AxidmaProg w ℤ := do
  callOp .readChannels
  match getChanOfDir channels .write trans.txChannelId,
    getChanOfDir channels .read trans.rxChannelId with
  | some txChan, some rxChan =>
    match ← axidmaInitSgEntry trans.txBuf trans.txBufLen with
    | .error rc => return rc
    | .ok txEntry =>
      match ← axidmaInitSgEntry trans.rxBuf trans.rxBufLen with
      | .error rc => return rc
      | .ok rxEntry =>
        let txSignal : ℤ ← callOp .notifySignal
        let txJunk : AxidmaVideoFrame ← callOp .uninitialisedFrame
        let rxSignal : ℤ ← callOp .notifySignal
        let rxJunk : AxidmaVideoFrame ← callOp .uninitialisedFrame
        let rc ← axidmaRwPrepared txChan rxChan
          { sgList := [txEntry], wait := false, dir := .write, type := txChan.type,
            channelId := trans.txChannelId, notifySignal := txSignal,
            frame := if txChan.type = some .vdma then trans.txFrame else txJunk }
          { sgList := [rxEntry], wait := trans.wait, dir := .read, type := rxChan.type,
            channelId := trans.rxChannelId, notifySignal := rxSignal,
            frame := if txChan.type = some .vdma then trans.rxFrame else rxJunk }
        return returnCode rc
  | _, _ => return -ENODEV

/-- The entries of the frame buffers, up to the first that is refused. -/
def initSgEntries (sgList : ℕ) (imageSize : BitVec w) :
    List (BitVec w) → AxidmaProg w (Except ℤ (List (SgEntry w)))
  | [] => return .ok []
  | buf :: bufs => do
    match ← axidmaInitSgEntry buf imageSize with
    | .error rc => return .error rc
    | .ok entry =>
      callOp (.accessSgList sgList)
      match ← initSgEntries sgList imageSize bufs with
      | .error rc => return .error rc
      | .ok entries => return .ok (entry :: entries)

/-- What happens while the scatterlist is allocated. -/
def videoTransferWith (channels : List AxidmaChan) (trans : AxidmaVideoTransaction w)
    (dir : AxidmaDir) (signal : ℤ) (sgList : ℕ) : AxidmaProg w Unit := do
  match ← initSgEntries sgList trans.imageSize trans.frameBuffers with
  | .error _ => return ()
  | .ok entries =>
    callOp .readChannels
    match axidmaGetChan channels trans.channelId with
    | none => callOp .nullDereference
    | some chan =>
      -- the preparation reads the list, or its first entry
      callOp (.accessSgList sgList)
      let _ ← prepAndStart chan
        { sgList := entries, wait := false, dir := dir, type := some .vdma,
          channelId := trans.channelId, notifySignal := signal, frame := trans.frame }
      return ()

/-- Errors are not returned. -/
def axidmaVideoTransfer (channels : List AxidmaChan) (trans : AxidmaVideoTransaction w)
    (dir : AxidmaDir) : AxidmaProg w ℤ := do
  let signal : ℤ ← callOp .notifySignal
  let sgList : Option ℕ ← callOp .kmallocSgList
  match sgList with
  | none => return 0
  | some sgList =>
    videoTransferWith channels trans dir signal sgList
    callOp (.kfreeSgList sgList)
    return 0

/-- The answer of `dmaengine_terminate_all` is returned. -/
def axidmaStopChannel (channels : List AxidmaChan) (channelId : ℤ) : AxidmaProg w ℤ := do
  callOp .readChannels
  match axidmaGetChan channels channelId with
  | none =>
    callOp .nullDereference
    return 0
  | some chan => callOp (.terminateAll chan.chan)

/-- The first real-time signal. -/
def SIGRTMIN : ℤ := 32

/-- The last real-time signal. -/
def SIGRTMAX : ℤ := 64

/-- `VALID_NOTIFY_SIGNAL`. -/
def validNotifySignal (signal : ℤ) : Bool :=
  decide (SIGRTMIN ≤ signal) && decide (signal ≤ SIGRTMAX)

/-- `axidma_set_signal`. -/
def axidmaSetSignal (signal : ℤ) : AxidmaProg w ℤ := do
  if validNotifySignal signal then
    callOp (.setNotifySignal signal)
    return 0
  else
    return -EINVAL

/-- The commands that reach the dma part of the driver. -/
inductive AxidmaRequest (w : ℕ)
  | setSignal (signal : ℤ)
  | read (trans : AxidmaTransaction w)
  | write (trans : AxidmaTransaction w)
  | readWrite (trans : AxidmaInoutTransaction w)
  | video (trans : AxidmaVideoTransaction w) (dir : AxidmaDir)
  | stop (channelId : ℤ)

namespace AxidmaRequest

/-- The function that a command calls. -/
def code (channels : List AxidmaChan) : AxidmaRequest w → AxidmaProg w ℤ
  | .setSignal signal => axidmaSetSignal signal
  | .read t => axidmaReadTransfer channels t
  | .write t => axidmaWriteTransfer channels t
  | .readWrite t => axidmaRwTransfer channels t
  | .video t dir => axidmaVideoTransfer channels t dir
  | .stop channelId => axidmaStopChannel channels channelId

/-- The request of a transfer in one direction. -/
def oneWay (dir : AxidmaDir) (trans : AxidmaTransaction w) : AxidmaRequest w :=
  match dir with
  | .read => .read trans
  | .write => .write trans

/-- The two commands run the same function. -/
theorem code_oneWay (channels : List AxidmaChan) (dir : AxidmaDir) (trans : AxidmaTransaction w) :
    (oneWay dir trans).code channels = oneWayTransfer dir channels trans := by
  cases dir <;> rfl

/-- The channels that a request names. -/
def uses : AxidmaRequest w → List ℤ
  | .setSignal _ => []
  | .read t => [t.channelId]
  | .write t => [t.channelId]
  | .readWrite t => [t.txChannelId, t.rxChannelId]
  | .video t _ => [t.channelId]
  | .stop channelId => [channelId]

/-- The channel that a request waits for. -/
def blocks : AxidmaRequest w → Option ℤ
  | .read t => if t.wait then some t.channelId else none
  | .write t => if t.wait then some t.channelId else none
  | .readWrite t => if t.wait then some t.rxChannelId else none
  | _ => none

/-- Stopping and video commands name a channel that exists, and video commands a buffer. -/
def Named (channels : List AxidmaChan) : AxidmaRequest w → Prop
  | .video t _ => (axidmaGetChan channels t.channelId).isSome ∧ t.frameBuffers ≠ []
  | .stop channelId => (axidmaGetChan channels channelId).isSome
  | _ => True

/-- The user ranges that a request names. -/
def ranges : AxidmaRequest w → List (BitVec w × BitVec w)
  | .read t => [(t.buf, t.bufLen)]
  | .write t => [(t.buf, t.bufLen)]
  | .readWrite t => [(t.txBuf, t.txBufLen), (t.rxBuf, t.rxBufLen)]
  | .video t _ => t.frameBuffers.map fun buf => (buf, t.imageSize)
  | _ => []

/-- A request names the channel that it waits for. -/
theorem mem_uses_of_blocks {r : AxidmaRequest w} {id : ℤ} (h : r.blocks = some id) :
    id ∈ r.uses := by
  cases r <;> simp_all [blocks, uses]

end AxidmaRequest

end programs

end FirDemo
