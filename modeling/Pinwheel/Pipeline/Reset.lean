import Pinwheel.Pipeline.Refinement

/-!
# Reset

A reset tock empties the stages and puts hart 0 at address 4 in stage A, but the
code RAM still reads what the pipeline asked for before.  The program boots as it
should if that happens to be the word at address 4.
-/

namespace Pinwheel

open Clocked RV32I

namespace Sequential

variable {cb db : ℕ} {code : BitVec cb → BitVec 32} {hart : BitVec 7}

/-- One slot has the hart and the other one is empty. -/
def Alone (hart : BitVec 7) (σ : Sequential db) : Prop :=
  (σ.b = none ∧ ∃ pc, σ.a = some ⟨hart, pc⟩) ∨ (σ.a = none ∧ ∃ pc, σ.b = some ⟨hart, pc⟩)

theorem Alone.step {σ σ' : Sequential db} (h : σ.Alone hart) (hs : σ.step code = some σ') :
    σ'.Alone hart := by
  rcases h with ⟨hb, pc, ha⟩ | ⟨ha, pc, hb⟩
  · rw [Sequential.step, hb] at hs
    cases hs
    exact .inr ⟨rfl, pc, ha⟩
  · rw [Sequential.step, hb] at hs
    obtain ⟨i, -, hi⟩ := Option.bind_eq_some_iff.mp hs
    split_ifs at hi
    cases hi
    exact .inl ⟨ha, _, rfl⟩

theorem Alone.run {n : ℕ} {σ σ' : Sequential db} (h : σ.Alone hart)
    (hs : Sequential.run code n σ = some σ') : σ'.Alone hart := by
  induction n generalizing σ' with
  | zero =>
    cases hs
    exact h
  | succ n ih =>
    obtain ⟨σ₁, hrun, hstep⟩ := Option.bind_eq_some_iff.mp hs
    exact (ih hrun).step hstep

end Sequential

namespace Soc

variable {cb db : ℕ}

/-- The state after `k` tocks with reset. -/
def resets (dcs : ℕ → DontCare) (s : Soc cb db) (k : ℕ) : Soc cb db :=
  run (fun dc s ↦ s.tock dc true) dcs s k

/-- The word of the code RAM that a tock reads. -/
def fetchAddr (dc : DontCare) (s : Soc cb db) : BitVec cb :=
  wordIndex cb (s.core.nextCodeTla dc s.coreIn).aAddress

variable {dc : DontCare} {dcs rcs : ℕ → DontCare} {s : Soc cb db} {k : ℕ}

theorem Mirrored.resets (h : s.Mirrored) (dcs : ℕ → DontCare) (k : ℕ) :
    (s.resets dcs k).Mirrored :=
  run_invariant h (fun _ _ hs ↦ hs.tock true) k

theorem rdata_tock (reset : Bool) :
    (s.tock dc reset).codeRam.ram.rdata = s.codeRam.ram.ram (s.fetchAddr dc) :=
  BusRam.rdata_tockB _ _ _ _

/-- The last reset tock reads the word at address 4. -/
def FetchesBoot (dcs : ℕ → DontCare) (s : Soc cb db) (k : ℕ) : Prop :=
  (s.resets dcs k).codeRam.ram.ram ((s.resets dcs k).fetchAddr (dcs k)) =
    (s.resets dcs (k + 1)).codeRam.ram.ram (wordIndex cb 4#32)

/-- After a reset the pipeline is ready to boot, if the right word was fetched. -/
theorem ready_resets (hm : s.Mirrored) (hf : s.FetchesBoot rcs k) :
    (s.resets rcs (k + 1)).Ready where
  mirrored := hm.resets rcs (k + 1)
  cIdle := rfl
  dIdle := rfl
  harts _ h := absurd h Bool.false_ne_true
  fetched _ := (rdata_tock true).trans hf
  latched h := absurd h Bool.false_ne_true
  read1 h := absurd h Bool.false_ne_true
  read2 h := absurd h Bool.false_ne_true

/-- What the reset leaves in stage D does no harm. -/
theorem bypassSound_resets : (s.resets rcs (k + 1)).BypassSound := by
  intro _ r hr _ _ ht
  have h0 : (s.resets rcs (k + 1)).core.dWrite.target = cell 0#3 0#5 :=
    (show _ = (0#13).setWidth 8 from rfl).trans (by decide)
  exact absurd (cell_inj.mp (h0.symm.trans ht)).2.symm hr

end Soc

end Pinwheel
