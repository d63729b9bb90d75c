import FirDemo.SimBackend
import FirDemo.WriteChannel

/-!
# Register writes of the driver

A register write starts with the response of the write before it still pending, because
`s_axi_bready` is taken back before the edge that would complete it. `axilWriteCycle_spec`
says what one write does from there : it takes at most four ticks and changes the one
register. `writeRegs_spec` is the same for a sequence of writes.
-/

namespace FirDemo

/-! ## What ticks and assignments reach -/

/-- `top'` comes from `top` by `n` ticks with any assignments between them that leave
`s_axis_tvalid` as it is, and the registers are in `F` after every tick. -/
inductive Driven (P : Params) (F : RegFile → Prop) (top : VfirTop) : ℕ → VfirTop → Prop
  | refl : Driven P F top 0 top
  | assign {n mid} (pins : MyFirPort) (hpins : pins.sAxisTvalid = mid.pins.sAxisTvalid) :
    Driven P F top n mid → Driven P F top n { mid with pins := pins }
  | tick {n mid} (hF : F (tick P mid).regs.axi.regFile) :
    Driven P F top n mid → Driven P F top (n + 1) (tick P mid)

namespace Driven

variable {P : Params} {F G : RegFile → Prop} {top mid top' : VfirTop} {m n : ℕ}

theorem trans (h : Driven P F top m mid) (h' : Driven P F mid n top') :
    Driven P F top (m + n) top' := by
  induction h' with
  | refl => exact h
  | assign pins hpins _ ih => exact ih.assign pins hpins
  | tick hF _ ih => exact ih.tick hF

theorem mono (hFG : ∀ f, F f → G f) (h : Driven P F top n top') : Driven P G top n top' := by
  induction h with
  | refl => exact refl
  | assign pins hpins _ ih => exact ih.assign pins hpins
  | tick hF _ ih => exact ih.tick (hFG _ hF)

theorem presentWrite (offset value : BitVec 32) (h : Driven P F top n mid) :
    Driven P F top n (mid.presentWrite offset value) :=
  h.assign (mid.presentWrite offset value).pins rfl

theorem lowerWrite (h : Driven P F top n mid) : Driven P F top n mid.lowerWrite :=
  h.assign mid.lowerWrite.pins rfl

end Driven

/-! ## One register write -/

section write

variable {P : Params} {offset value : BitVec 32} {top : VfirTop}

@[simp] theorem tick_pins : (tick P top).pins = top.pins :=
  rfl

theorem iterate_tick_pins (P : Params) (n : ℕ) (top : VfirTop) :
    ((tick P)^[n] top).pins = top.pins :=
  WatchdogLoop.iterate_of_step (f := tick P) (I := fun _ top' => top'.pins = top.pins) rfl
    (fun _ _ h => h) n

@[simp] theorem tick_regs : (tick P top).regs = top.regs.next P top.pins :=
  rfl

theorem awaitResponse_of_answered (n : ℕ) (h : (tick P top).answered = true) :
    awaitResponse P (n + 1) top = tick P top := by
  rw [awaitResponse, if_pos h]

theorem awaitResponse_of_not_answered (n : ℕ) (h : (tick P top).answered = false) :
    awaitResponse P (n + 1) top = awaitResponse P n (tick P top) := by
  rw [awaitResponse, if_neg (by simp [h])]

/-- From an idle channel the wait is two ticks, one that takes the address and the data and
one that raises the response. -/
theorem awaitResponse_of_idle (n : ℕ) (hreset : top.pins.aresetn = true)
    (h : top.regs.axi.WriteIdle) (haw : top.pins.axi.awvalid = true)
    (hw : top.pins.axi.wvalid = true) (hb : top.pins.axi.bready = true) :
    awaitResponse P (n + 2) top = tick P (tick P top) ∧
      (tick P top).regs.axi.WriteAccepting (regIndex top.pins.axi.awaddr) ∧
      (tick P top).regs.axi.regFile = top.regs.axi.regFile ∧
      (tick P (tick P top)).regs.axi.WritePending ∧
      (tick P (tick P top)).regs.axi.regFile =
        top.regs.axi.regFile.write P (regIndex top.pins.axi.awaddr) top.pins.axi.wdata := by
  obtain ⟨haccept, hold⟩ := h.accept (P := P) haw hw
  obtain ⟨hrespond, hnew⟩ := haccept.respond (P := P) (p := top.pins.axi) haw hw
  rw [hold] at hnew
  have h1 : (tick P top).answered = false := by
    simp [VfirTop.answered, hreset, haccept.bvalid]
  have h2 : (tick P (tick P top)).answered = true := by
    simp [VfirTop.answered, hreset, hrespond.bvalid, hb]
  rw [awaitResponse_of_not_answered _ h1, awaitResponse_of_answered _ h2]
  exact ⟨rfl, by simpa [hreset] using haccept, by simpa [hreset] using hold,
    by simpa [hreset] using hrespond, by simpa [hreset] using hnew⟩

/-- A response that still waits is taken in the first tick. -/
theorem awaitResponse_of_pending (n : ℕ) (hreset : top.pins.aresetn = true)
    (h : top.regs.axi.WritePending) (hb : top.pins.axi.bready = true) :
    awaitResponse P (n + 1) top = awaitResponse P n (tick P top) ∧
      (tick P top).regs.axi.WriteIdle ∧
      (tick P top).regs.axi.regFile = top.regs.axi.regFile := by
  obtain ⟨hidle, hold⟩ := h.take (P := P) hb
  have h1 : (tick P top).answered = false := by
    simp [VfirTop.answered, hreset, hidle.bvalid]
  exact ⟨awaitResponse_of_not_answered _ h1, by simpa [hreset] using hidle,
    by simpa [hreset] using hold⟩

/-- The register file `f` before a write of `value` to `index`, or the one after it. -/
def BeforeOrAfterWrite (P : Params) (index value : BitVec 32) (f g : RegFile) : Prop :=
  g = f ∨ g = f.write P index value

/-- The wait has ended with the response of the write of `value` to `index`, `n` ticks
after `top`. -/
structure Responded (P : Params) (index value : BitVec 32) (top waited : VfirTop) (n : ℕ) :
    Prop where
  answered : waited.answered = true
  pins : waited.pins = top.pins
  pending : waited.regs.axi.WritePending
  regFile : waited.regs.axi.regFile = top.regs.axi.regFile.write P index value
  driven : Driven P (BeforeOrAfterWrite P index value top.regs.axi.regFile) top n waited

/-- From an idle channel the write is taken, and answered one tick later. -/
theorem responded_of_idle (top : VfirTop) (n : ℕ) (hreset : top.pins.aresetn = true)
    (h : top.regs.axi.WriteIdle) (haw : top.pins.axi.awvalid = true)
    (hw : top.pins.axi.wvalid = true) (hb : top.pins.axi.bready = true) :
    Responded P (regIndex top.pins.axi.awaddr) top.pins.axi.wdata top
      (awaitResponse P (n + 2) top) 2 := by
  obtain ⟨hwaited, -, hold, hrespond, hnew⟩ :=
    awaitResponse_of_idle (P := P) n hreset h haw hw hb
  have hanswered : (tick P (tick P top)).answered = true :=
    Bool.and_eq_true_iff.2 ⟨hrespond.bvalid, hb⟩
  rw [hwaited]
  exact ⟨hanswered, rfl, hrespond, hnew,
    (Driven.refl.tick (Or.inl hold)).tick (Or.inr hnew)⟩

/-- A response that still waits is taken first. -/
theorem responded_of_pending (top : VfirTop) (n : ℕ) (hreset : top.pins.aresetn = true)
    (h : top.regs.axi.WritePending) (haw : top.pins.axi.awvalid = true)
    (hw : top.pins.axi.wvalid = true) (hb : top.pins.axi.bready = true) :
    Responded P (regIndex top.pins.axi.awaddr) top.pins.axi.wdata top
      (awaitResponse P (n + 3) top) 3 := by
  obtain ⟨hwaited, hidle, hold⟩ := awaitResponse_of_pending (P := P) (n + 2) hreset h hb
  have hrest := responded_of_idle (P := P) (tick P top) n hreset hidle haw hw hb
  rw [hwaited]
  refine ⟨hrest.answered, hrest.pins, hrest.pending, by rw [hrest.regFile, hold]; rfl, ?_⟩
  have hdriven := hrest.driven
  rw [hold] at hdriven
  exact (Driven.refl.tick (Or.inl hold)).trans hdriven

/-- What a register write leaves : one register written, its response pending. -/
structure Wrote (P : Params) (offset value : BitVec 32) (top top' : VfirTop) (n : ℕ) : Prop where
  pins : top'.pins = (top.presentWrite offset value).lowerWrite.pins
  pending : top'.regs.axi.WritePending
  regFile : top'.regs.axi.regFile =
    top.regs.axi.regFile.write P (regIndex (kAxiLiteBaseAddr + offset)) value
  driven : Driven P (BeforeOrAfterWrite P (regIndex (kAxiLiteBaseAddr + offset)) value
    top.regs.axi.regFile) top n top'

/-- After the last tick the response is pending, as `s_axi_bready` is low again. -/
theorem Responded.wrote {waited : VfirTop} {n : ℕ} (hreset : top.pins.aresetn = true)
    (h : Responded P (regIndex (kAxiLiteBaseAddr + offset)) value (top.presentWrite offset value)
      waited n) : Wrote P offset value top (tick P waited.lowerWrite) (n + 1) := by
  have hreset' : waited.lowerWrite.pins.aresetn = true := by
    rw [VfirTop.lowerWrite, h.pins]
    exact hreset
  obtain ⟨hpending, hkeep⟩ := h.pending.stay (P := P) (p := waited.lowerWrite.pins.axi) rfl
  have haxi : (tick P waited.lowerWrite).regs.axi =
      waited.regs.axi.next P true waited.lowerWrite.pins.axi := by
    rw [tick_regs, MyFir.next_axi, hreset']
    rfl
  have hfile : (tick P waited.lowerWrite).regs.axi.regFile =
      top.regs.axi.regFile.write P (regIndex (kAxiLiteBaseAddr + offset)) value := by
    rw [haxi, hkeep, h.regFile]
    rfl
  refine ⟨?_, by rwa [haxi], hfile, ?_⟩
  · simp only [tick_pins, VfirTop.lowerWrite, h.pins]
  · have hwaited := ((Driven.refl.presentWrite offset value).trans h.driven).lowerWrite
    rw [Nat.zero_add] at hwaited
    exact hwaited.tick (Or.inr hfile)

/-- A register write returns after three or four ticks, whether or not the response of the
write before it still waits. -/
theorem axilWriteCycle_spec (offset value : BitVec 32) (hreset : top.pins.aresetn = true)
    (h : top.regs.axi.WriteIdle ∨ top.regs.axi.WritePending) :
    ∃ top' n, 3 ≤ n ∧ n ≤ 4 ∧ axilWriteCycle P offset value top = some top' ∧
      Wrote P offset value top top' n := by
  have hresponded : ∃ n, 2 ≤ n ∧ n ≤ 3 ∧ Responded P (regIndex (kAxiLiteBaseAddr + offset)) value
      (top.presentWrite offset value)
      (awaitResponse P kMaxCycles (top.presentWrite offset value)) n := by
    obtain ⟨k, hk⟩ : ∃ k, kMaxCycles = k + 3 := ⟨9997, rfl⟩
    rw [hk]
    rcases h with h | h
    · exact ⟨2, by omega, by omega,
        responded_of_idle (top.presentWrite offset value) (k + 1) hreset h rfl rfl rfl⟩
    · exact ⟨3, by omega, by omega,
        responded_of_pending (top.presentWrite offset value) k hreset h rfl rfl rfl⟩
  obtain ⟨n, h2, h3, hw⟩ := hresponded
  exact ⟨_, n + 1, by omega, by omega, by rw [axilWriteCycle, if_pos hw.answered], hw.wrote hreset⟩

end write

/-! ## Between register writes -/

/-- Out of reset, with no write presented and none going on but for its response. -/
structure BetweenWrites (top : VfirTop) : Prop where
  aresetn : top.pins.aresetn = true
  awvalid : top.pins.axi.awvalid = false
  channel : top.regs.axi.WriteIdle ∨ top.regs.axi.WritePending

namespace BetweenWrites

variable {P : Params} {top : VfirTop}

theorem tick (h : BetweenWrites top) :
    BetweenWrites (tick P top) ∧ (tick P top).regs.axi.regFile = top.regs.axi.regFile := by
  have haxi : (FirDemo.tick P top).regs.axi = top.regs.axi.next P true top.pins.axi := by
    rw [tick_regs, MyFir.next_axi, h.aresetn]
  suffices hs : ((top.regs.axi.next P true top.pins.axi).WriteIdle ∨
      (top.regs.axi.next P true top.pins.axi).WritePending) ∧
      (top.regs.axi.next P true top.pins.axi).regFile = top.regs.axi.regFile by
    rw [haxi]
    exact ⟨⟨h.aresetn, h.awvalid, by rw [haxi]; exact hs.1⟩, hs.2⟩
  rcases h.channel with hidle | hpending
  · exact ⟨Or.inl (hidle.stay (Or.inl h.awvalid)).1, (hidle.stay (Or.inl h.awvalid)).2⟩
  · cases hb : top.pins.axi.bready with
    | false => exact ⟨Or.inr (hpending.stay hb).1, (hpending.stay hb).2⟩
    | true => exact ⟨Or.inl (hpending.take hb).1, (hpending.take hb).2⟩

theorem ticks (h : BetweenWrites top) (n : ℕ) :
    BetweenWrites ((FirDemo.tick P)^[n] top) ∧
      Driven P (fun f => f = top.regs.axi.regFile) top n ((FirDemo.tick P)^[n] top) ∧
      ((FirDemo.tick P)^[n] top).regs.axi.regFile = top.regs.axi.regFile := by
  refine WatchdogLoop.iterate_of_step (I := fun n (top' : VfirTop) => BetweenWrites top' ∧
    Driven P (fun f => f = top.regs.axi.regFile) top n top' ∧
      top'.regs.axi.regFile = top.regs.axi.regFile) ⟨h, Driven.refl, rfl⟩ ?_ n
  rintro n top' ⟨hn, hdriven, hfile⟩
  obtain ⟨hnext, hkeep⟩ := hn.tick (P := P)
  exact ⟨hnext, hdriven.tick (hkeep.trans hfile), hkeep.trans hfile⟩

theorem write (h : BetweenWrites top) (offset value : BitVec 32) :
    ∃ top' n, 3 ≤ n ∧ n ≤ 4 ∧ axiliteWriteReg P offset value top = some top' ∧
      Wrote P offset value top top' n ∧ BetweenWrites top' := by
  obtain ⟨top', n, h3, h4, hreturn, hw⟩ :=
    axilWriteCycle_spec (P := P) offset value h.aresetn h.channel
  refine ⟨top', n, h3, h4, hreturn, hw, ?_, ?_, Or.inr hw.pending⟩
  · rw [hw.pins]
    exact h.aresetn
  · rw [hw.pins]
    rfl

end BetweenWrites

/-- The registers after a sequence of writes. -/
def RegFile.writeAll (P : Params) (writes : List (BitVec 32 × BitVec 32)) (f : RegFile) : RegFile :=
  writes.foldl (fun f w => f.write P (regIndex (kAxiLiteBaseAddr + w.1)) w.2) f

/-- A sequence of register writes returns, and the registers are in `F` all along if every
write keeps them there. -/
theorem writeRegs_spec {P : Params} {F : RegFile → Prop} :
    ∀ (writes : List (BitVec 32 × BitVec 32)) {top : VfirTop}, BetweenWrites top →
      (∀ f, F f → ∀ w ∈ writes, F (f.write P (regIndex (kAxiLiteBaseAddr + w.1)) w.2)) →
      F top.regs.axi.regFile →
      ∃ top' n, 3 * writes.length ≤ n ∧ writeRegs P writes top = some top' ∧ BetweenWrites top' ∧
        Driven P F top n top' ∧ top'.regs.axi.regFile = top.regs.axi.regFile.writeAll P writes
  | [], top, h, _, _ => ⟨top, 0, Nat.le_refl 0, rfl, h, Driven.refl, rfl⟩
  | w :: writes, top, h, hF, htop => by
    obtain ⟨mid, m, hm, -, hreturn, hw, hmid⟩ := h.write (P := P) w.1 w.2
    have hmidF : F mid.regs.axi.regFile := by
      rw [hw.regFile]
      exact hF _ htop w List.mem_cons_self
    obtain ⟨top', n, hn, hrest, hend, hdriven, hfile⟩ := writeRegs_spec writes hmid
      (fun f hf w' hw' => hF f hf w' (List.mem_cons_of_mem w hw')) hmidF
    have hfirst : Driven P F top m mid := hw.driven.mono fun f hf => by
      rcases hf with rfl | rfl
      · exact htop
      · exact hF _ htop w List.mem_cons_self
    refine ⟨top', m + n, ?_, ?_, hend, hfirst.trans hdriven, ?_⟩
    · rw [List.length_cons]
      omega
    · simpa [writeRegs, hreturn] using hrest
    · rw [hfile, hw.regFile]
      rfl

end FirDemo
