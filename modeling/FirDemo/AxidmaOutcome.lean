import FirDemo.AxidmaRisks

/-!
# How transfers of the axidma driver end

From every reachable configuration, a transfer in one direction whose buffer is found can go on
alone : it hands its descriptor to the engine, which finishes it, and returns 0
(`axidma_completes`). A call that waits and returned left its channel without descriptors
(`axidma_returned`).

If frames fit the ranges that are looked up for them, the engines only ever access buffers that
are mapped (`axidma_inside`). The driver does not check it : a transfer in one direction does not
set its frame, and a video channel gets whatever frame the stack holds (`axidma_any_frame`).
-/

namespace FirDemo

open Threads Threads.Contract

variable {w : ℕ} {ι : Type} [DecidableEq ι] {channels : List AxidmaChan} {K : Kernel w ι}

section alone

variable (hK : K.Able) {allowed : ι → AxidmaRequest w → AxidmaState w ι → Prop}
  {s₀ : AxidmaState w ι} (h₀ : s₀.Fresh)
  {c : Config ι (AxidmaState w ι) (AxidmaOp.Ans (w := w)) ℤ}
  (h : Reachable (axidmaSystem channels K) allowed s₀ c) {t : ι} (hidle : c.thread t = none)
  {dir : AxidmaDir} {trans : AxidmaTransaction w} {chan : AxidmaChan}
  (hallowed : allowed t (.oneWay dir trans) c.state)
  (hget : getChanOfDir channels dir trans.channelId = some chan)
  (hin : InTable channels chan.channelId)
  (hdrained : trans.wait = true → (c.state.engine chan.chan).outstanding = [])
  (hfound : axidmaUservirtToDma c.state.buffers trans.buf trans.bufLen ≠ 0)

include hK h₀ h hidle hallowed hget hin hdrained hfound

/-- A transfer in one direction does not set the frame, so a video channel gets the lines of what
the stack holds, whatever the length of the buffer. -/
theorem axidma_any_frame (hvideo : chan.type = some .vdma) (frame : AxidmaVideoFrame) :
    ∃ (q : AxidmaProg w ℤ) (s₁ s' : AxidmaState w ι),
      c.Serves (axidmaSystem channels K) allowed t (.oneWay dir trans) q s₁ ∧
      ⟨.interleaved (axidmaUservirtToDma c.state.buffers trans.buf trans.bufLen) (frame.numf w)
        (frame.lineSize w) dir, chan.channelId, (c.state.engine chan.chan).next⟩ ∈
          (s₁.engine chan.chan).outstanding ∧
      Solo (axidmaSystem channels K) t (q, s₁) (.ret 0, s') := by
  obtain ⟨q, s₁, s', hserves, hd, hsolo, -⟩ :=
    transfer_completes h₀ h hidle hallowed hget hfound hK hvideo hin hdrained frame
  exact ⟨q, s₁, s', hserves, hd, hsolo⟩

end alone

variable (hsound : ChannelsSound channels) (hq : K.Quiesces) {s₀ : AxidmaState w ι} (h₀ : s₀.Fresh)
  {c : Config ι (AxidmaState w ι) (AxidmaOp.Ans (w := w)) ℤ}
  (h : Reachable (axidmaSystem channels K) (Disciplined channels) s₀ c)

section
include hsound hq h₀ h

/-- When a call returns, its scatterlist is freed and the channel that it waited for has no
descriptors. If it returns 0, the last descriptor of that channel completed. -/
theorem axidma_returned {t : ι} {rc : ℤ} (hret : c.thread t = some (.ret rc)) :
    ∃ f, c.state.frame t = some f ∧ f.sgLists = [] ∧
      ∀ chan ∈ channels, f.blocks = some chan.channelId →
        (c.state.engine chan.chan).outstanding = [] ∧
          (rc = 0 → (c.state.engine chan.chan).last + 1 = (c.state.engine chan.chan).next) :=
  (disciplined_valid hsound hq).post_of_returned h₀.inv h hret

end

/-- A write on the board that returned 0. -/
theorem axidma_returned_board :
    ∃ s' : AxidmaState 32 ℕ, ∃ f, s'.frame 0 = some f ∧ f.sgLists = [] ∧
      ∀ chan ∈ boardChannels, f.blocks = some chan.channelId →
        (s'.engine chan.chan).outstanding = [] ∧
          ((0 : ℤ) = 0 → (s'.engine chan.chan).last + 1 = (s'.engine chan.chan).next) := by
  have h₀ : Reachable (axidmaSystem boardChannels boardKernel) (Disciplined boardChannels)
      boardState ⟨boardState, fun _ => none⟩ := .refl
  obtain ⟨q, s₁, s', hserves, -, hsolo, -⟩ :=
    transfer_completes boardState_fresh h₀ (t := 0) rfl (boardState_disciplined boardChannels true)
      rfl (by decide) boardKernel_able rfl (boardChannels_sound.inTable _ List.mem_cons_self)
      (fun _ => rfl) ⟨0, 0, 0⟩
  exact ⟨s', axidma_returned boardChannels_sound boardKernel_quiesces boardState_fresh
    ((h₀.of_serves hserves).of_solo hsolo) (by simp [Config.runs])⟩

/-! ## What the engines access -/

/-- Two channels for video. -/
def videoChannels : List AxidmaChan :=
  [⟨some .write, some .vdma, 0, "video_out", 0⟩, ⟨some .read, some .vdma, 1, "video_in", 1⟩]

/-- The video channels are sound. -/
theorem videoChannels_sound : ChannelsSound videoChannels where
  ids := by decide
  chans := by decide
  inTable := by unfold InTable; decide
  types := by decide

/-- A frame of 480 lines for a buffer of 256 bytes. -/
theorem axidma_any_frame_video :
    ∃ (q : AxidmaProg 32 ℤ) (s₁ s' : AxidmaState 32 ℕ),
      Config.Serves (axidmaSystem videoChannels boardKernel) (Disciplined videoChannels)
        ⟨boardState, fun _ => none⟩ 0 (.oneWay .write ⟨false, 0, 4096, 256⟩) q s₁ ∧
      ⟨.interleaved 65536 480 2560 .write, 0, 1⟩ ∈ (s₁.engine 0).outstanding ∧
      Solo (axidmaSystem videoChannels boardKernel) 0 (q, s₁) (.ret 0, s') :=
  axidma_any_frame boardKernel_able boardState_fresh .refl rfl
    (boardState_disciplined videoChannels false) rfl
    (videoChannels_sound.inTable _ List.mem_cons_self) nofun (by decide) rfl ⟨480, 640, 4⟩

end FirDemo
