import FirDemo.RegisterWrites

/-!
# From power-up to the first transfer

`backend_init` clears the registers, and the writes of `main` leave the filter enabled,
with the identity coefficients and no beat in it (`simStart_spec`). With `coeff[1]` as the
only tap since reset, the delay line stays zero (`SinceReset.line`).
-/

namespace FirDemo

/-- All registers that software programs are zero. -/
def RegFile.Cleared (P : Params) (f : RegFile) : Prop :=
  f.ctrlReg = 0 ∧ ∀ k, 1 ≤ k → k ≤ P.TAPS → f.coefSlvReg k = 0

/-- Since a cycle of reset the coefficients other than `coeff[1]` were zero, whatever was
assigned to the inputs. -/
inductive SinceReset (P : Params) : VfirTop → Prop
  | reset {held : VfirTop} (hreset : held.pins.aresetn = false) : SinceReset P (tick P held)
  | assign {top : VfirTop} (pins : MyFirPort) :
    SinceReset P top → SinceReset P { top with pins := pins }
  | tick {top : VfirTop} (hcoeff : SingleTap P.TAPS (tick P top).regs.axi.coefSlvReg) :
    SinceReset P top → SinceReset P (tick P top)

theorem SinceReset.driven {P : Params} {top top' : VfirTop} {n : ℕ} (h : SinceReset P top)
    (hdriven : Driven P (fun f => SingleTap P.TAPS f.coefSlvReg) top n top') :
    SinceReset P top' := by
  induction hdriven with
  | refl => exact h
  | assign pins _ _ ih => exact ih.assign pins
  | tick hF _ ih => exact ih.tick hF

/-- With a single tap since reset the delay line has stayed zero. -/
theorem SinceReset.line {P : Params} {top : VfirTop} (h : SinceReset P top) :
    SingleTap P.TAPS top.regs.axi.coefSlvReg ∧ LineZero P.TAPS top.regs.uFilter := by
  induction h with
  | @reset held hreset =>
    refine ⟨fun k hk hkT => ?_, fun i _ => ?_⟩
    · rw [tick_regs, MyFir.next_axi, hreset]
      exact SAxi.regs_reset.2 k (by omega) hkT
    · simp [MyFir.next, firTransposed, TransposedBlock.delayedSignal, hreset]
  | assign pins _ ih => exact ih
  | tick hcoeff _ ih => exact ⟨hcoeff, lineZero_next ih.1 ih.2 _ _⟩

/-- `s_axis_tvalid` was 0 at the last two ticks. -/
def QuietTicks (P : Params) (top : VfirTop) : Prop :=
  ∃ (s : MyFir) (p₀ p₁ : MyFirPort), p₀.sAxisTvalid = false ∧ p₁.sAxisTvalid = false ∧
    top.regs = (s.next P p₀).next P p₁

theorem Driven.sAxisTvalid_eq {P : Params} {F : RegFile → Prop} {top top' : VfirTop} {n : ℕ}
    (hdriven : Driven P F top n top') : top'.pins.sAxisTvalid = top.pins.sAxisTvalid := by
  induction hdriven with
  | refl => rfl
  | assign pins hpins _ ih => exact hpins.trans ih
  | tick _ _ ih => exact ih

/-- Two ticks with `s_axis_tvalid` low are enough. -/
theorem Driven.quietTicks {P : Params} {F : RegFile → Prop} {top top' : VfirTop} {n : ℕ}
    (hdriven : Driven P F top n top') (hn : 2 ≤ n) (htvalid : top.pins.sAxisTvalid = false) :
    QuietTicks P top' := by
  have hlast : ∀ {n mid}, Driven P F top n mid → 1 ≤ n →
      ∃ (s : MyFir) (p : MyFirPort), p.sAxisTvalid = false ∧ mid.regs = s.next P p := by
    intro n mid h hn
    induction h with
    | refl => omega
    | assign pins _ _ ih => exact ih hn
    | tick _ h _ => exact ⟨_, _, h.sAxisTvalid_eq.trans htvalid, rfl⟩
  induction hdriven with
  | refl => omega
  | assign pins _ _ ih => exact ih hn
  | tick _ h _ =>
    obtain ⟨s, p, hp, hregs⟩ := hlast h (by omega)
    exact ⟨s, p, _, hp, h.sAxisTvalid_eq.trans htvalid, by rw [tick_regs, hregs]⟩

theorem RegFile.Cleared.singleTap {P : Params} {f : RegFile} (h : f.Cleared P) :
    SingleTap P.TAPS f.coefSlvReg := fun k hk hkT => h.2 k (by omega) hkT

theorem RegFile.singleTap_write {P : Params} {f : RegFile} {index data : BitVec 32}
    (h : SingleTap P.TAPS f.coefSlvReg) (hw : index.toNat < 2 ∨ data.setWidth 16 = 0#16) :
    SingleTap P.TAPS (f.write P index data).coefSlvReg := by
  intro k hk hkT
  simp only [RegFile.write]
  split
  · rcases hw with hw | hw
    · omega
    · exact hw
  · exact h k hk hkT

/-- `backend_init` clears the registers. -/
theorem backendInit_spec (P : Params) (regs : MyFir) :
    BetweenWrites (backendInit P regs) ∧ (backendInit P regs).regs.axi.regFile.Cleared P ∧
      SinceReset P (backendInit P regs) ∧ (backendInit P regs).pins.sAxisTvalid = false := by
  set held := (tick P)^[7] (powerUp regs) with hheld
  have hlow : held.pins = (powerUp regs).pins := iterate_tick_pins P 7 _
  have h8 : (tick P)^[8] (powerUp regs) = tick P held :=
    Function.iterate_succ_apply' (tick P) 7 (powerUp regs)
  set out : VfirTop := { tick P held with pins := { held.pins with aresetn := true } } with hout
  have hinit : backendInit P regs = (tick P)^[4] out := by
    rw [backendInit, h8]
    rfl
  have haxi : out.regs.axi = held.regs.axi.next P false held.pins.axi := by
    rw [hout, tick_regs, MyFir.next_axi, hlow]
    rfl
  have hcleared : out.regs.axi.regFile.Cleared P := by
    rw [haxi]
    exact SAxi.regs_reset
  have hbetween : BetweenWrites out :=
    ⟨rfl, by rw [hout, hlow]; rfl, by rw [haxi]; exact Or.inl SAxi.writeIdle_reset⟩
  obtain ⟨hend, hdriven, hfile⟩ := hbetween.ticks (P := P) 4
  rw [hinit]
  have htvalid : out.pins.sAxisTvalid = false := by
    rw [hout, hlow]
    rfl
  have hreset : SinceReset P out :=
    (SinceReset.reset (by rw [hlow]; rfl)).assign { held.pins with aresetn := true }
  refine ⟨hend, by rwa [hfile], hreset.driven (hdriven.mono fun f hf => ?_),
    by rw [iterate_tick_pins, htvalid]⟩
  rw [hf]
  exact hcleared.singleTap

/-- The writes of `main` set no other coefficient than `coeff[1]`. -/
theorem singleTap_mainWrites : ∀ w ∈ mainWrites,
    (regIndex (kAxiLiteBaseAddr + w.1)).toNat < 2 ∨ w.2.setWidth 16 = 0#16 := by
  intro w hw
  simp only [mainWrites, List.mem_cons, List.not_mem_nil, or_false] at hw
  rcases hw with rfl | rfl | rfl | rfl | rfl | rfl
  · exact Or.inl (by decide)
  · exact Or.inl (by decide)
  · exact Or.inr rfl
  · exact Or.inr rfl
  · exact Or.inr rfl
  · exact Or.inr rfl

/-- The state `main` starts the first transfer in. -/
theorem simStart_spec (P : Params) (regs : MyFir) :
    ∃ top, simStart P regs = some top ∧ BetweenWrites top ∧ SinceReset P top ∧ QuietTicks P top ∧
      top.regs.axi.ctrlReg = 1 ∧ top.regs.axi.coefSlvReg 1 = 1 := by
  obtain ⟨hinit, hcleared, hreset, htvalid⟩ := backendInit_spec P regs
  obtain ⟨top, n, hn, hreturn, hend, hwrites, hfile⟩ := writeRegs_spec (P := P)
    (F := fun f => SingleTap P.TAPS f.coefSlvReg) mainWrites hinit
    (fun f hf w hw => RegFile.singleTap_write hf (singleTap_mainWrites w hw)) hcleared.singleTap
  refine ⟨top, hreturn, hend, hreset.driven hwrites, hwrites.quietTicks ?_ htvalid, ?_, ?_⟩
  · exact (show 2 ≤ 3 * mainWrites.length by decide).trans hn
  · exact congrArg RegFile.ctrlReg hfile
  · have hcoeff := congrFun (congrArg RegFile.coefSlvReg hfile) 1
    have hTAPS := P.TAPS_pos
    simpa [RegFile.writeAll, RegFile.write, mainWrites, SAxi.regFile, regIndex, kAxiLiteBaseAddr,
      show 1 ≤ P.TAPS by omega] using hcoeff

end FirDemo
