import Pinwheel.Pipeline.Boot

/-!
# The test driver

`run_test_hex` of `tests/pinwheel_test.cpp`: after a reset tock it waits for a store of
one word to the debug register, for a bounded number of tocks, and then looks at the
register.  The screen messages and the measured times are left out.
-/

namespace Pinwheel

open Clocked

/-- What the driver waits for on the data bus. -/
def TilelinkA.reports (tla : TilelinkA) : Bool :=
  tla.aAddress == 0xFFFFFFF0#32 && tla.aOpcode == TL.putFullData

/-- The same of what the machine puts out. -/
def Output.reports (o : Output) : Bool := o.addr == 0xFFFFFFF0#32 && o.op == TL.putFullData

namespace Soc

variable {cb db : ℕ}

def getDebug (s : Soc cb db) : BitVec 32 := s.debugReg.getTld.dData

/-- The loop, from `elapsed_cycles` on and with some cycles left: where it breaks, and what
is in the debug register. -/
def watch (dcs : ℕ → DontCare) (s : Soc cb db) (elapsed : ℕ) : ℕ → Option (ℕ × BitVec 32)
  | 0 => none
  | left + 1 =>
    let s := s.tock (dcs elapsed) false
    if s.core.dataTla.reports then some (elapsed, s.getDebug) else watch dcs s (elapsed + 1) left

/-- One repetition: nothing on a timeout, else whether the expectation is met. -/
def runTestHex (rc : DontCare) (dcs : ℕ → DontCare) (maxCycles : ℕ) (expectFail : Bool)
    (s : Soc cb db) : Option Bool :=
  (watch dcs (s.tock rc true) 0 maxCycles).map fun r ↦
    if expectFail then r.2 != 1#32 else r.2 == 1#32

variable {s : Soc cb db} {dc : DontCare} {dcs : ℕ → DontCare} {o : Output}

end Soc

/-- A store that reports is one of a whole word. -/
theorem Output.IsStore.mask_of_reports {o : Output} (h : o.IsStore) (hr : o.reports = true) :
    o.mask = 0xF#4 := by
  obtain ⟨w, a, v, hlane, rfl⟩ := h
  obtain ⟨haddr, hop⟩ := (Bool.and_eq_true _ _).mp hr
  have ha : a = 0xFFFFFFF0#32 := beq_iff_eq.mp haddr
  have hw : w = .word := by
    by_contra hne
    have hput : (Output.ofStore w a v).op = TL.putPartialData := if_neg hne
    rw [hput] at hop
    exact absurd hop (by decide)
  rw [ha, hw]
  rfl

namespace Soc

variable {cb db : ℕ} {s : Soc cb db} {dc : DontCare} {dcs : ℕ → DontCare} {o : Output}

/-- What the driver sees is what is put out. -/
theorem reports_tock : (s.tock dc false).core.dataTla.reports =
    ((s.tock dc false).core.dataTla.output.map Output.reports).getD false := by
  have htla : (s.tock dc false).core.dataTla = s.issue.request dc := rfl
  rw [htla]
  by_cases hput : (s.issue.request dc).output = none
  · rw [hput]
    refine Bool.eq_false_iff.mpr fun hr ↦ ?_
    obtain ⟨haddr, hop⟩ := (Bool.and_eq_true _ _).mp hr
    have haddr : (s.issue.request dc).aAddress = 0xFFFFFFF0#32 := beq_iff_eq.mp haddr
    have hisPut : (s.issue.request dc).isPut = true := by
      rw [TilelinkA.isPut, beq_iff_eq.mp hop]
      rfl
    rw [Issue.Takes.output_of_isPut hisPut (by rw [haddr]; decide)] at hput
    exact absurd hput (Option.some_ne_none _)
  · obtain ⟨o, ho⟩ := Option.ne_none_iff_exists'.mp hput
    have ho' := ho
    unfold TilelinkA.output at ho'
    split_ifs at ho'
    rw [ho, ← Option.some.inj ho']
    rfl

/-- A report of one word is in the debug register. -/
theorem getDebug_tock (ho : (s.tock dc false).core.dataTla.output = some o)
    (hr : o.reports = true) (hmask : o.mask = 0xF#4) : (s.tock dc false).getDebug = o.data := by
  have hdebug : (s.tock dc false).getDebug =
      (s.debugReg.tock debugMask debugTag (s.tock dc false).core.dataTla).tld.dData := rfl
  generalize (s.tock dc false).core.dataTla = tla at ho hdebug
  unfold TilelinkA.output at ho
  split_ifs at ho with hput
  obtain rfl := Option.some.inj ho
  obtain ⟨haddr, -⟩ := (Bool.and_eq_true _ _).mp hr
  have haddr : tla.aAddress = 0xFFFFFFF0#32 := beq_iff_eq.mp haddr
  have hmask : tla.aMask = 0xF#4 := hmask
  have hsel : tla.selects debugMask debugTag = true :=
    Core.selects_pageMask hput.1 (by rw [haddr]; decide)
  rw [hdebug, TestReg.tock]
  dsimp only
  rw [if_pos ⟨hsel, hput.2.1⟩, hmask, show expandBitmask 0xF#4 = BitVec.allOnes 32 by decide,
    BitVec.and_allOnes, BitVec.not_allOnes, BitVec.and_zero, BitVec.zero_or]

/-- The loop finds the first report that is put out. -/
theorem watch_states {left m : ℕ}
    (hmask : ∀ i < left, ∀ o, (states dcs s (m + i + 1)).core.dataTla.output = some o →
      o.reports = true → o.mask = 0xF#4) :
    (watch dcs (states dcs s m) m left).map Prod.snd =
      ((emitted (fun i ↦ (states dcs s (m + i + 1)).core.dataTla.output) left).find?
        Output.reports).map Output.data := by
  induction left generalizing m with
  | zero => rfl
  | succ left ih =>
    have hshift : ∀ i, states dcs s (m + (i + 1) + 1) = states dcs s (m + 1 + i + 1) :=
      fun i ↦ by rw [Nat.add_assoc m 1 i, Nat.add_comm 1 i]
    have hih := @ih (m + 1) fun i hi o ho ↦ hmask (i + 1) (Nat.succ_lt_succ hi) o (by
      rw [← ho, hshift])
    have hreports : (states dcs s (m + 1)).core.dataTla.reports =
        ((states dcs s (m + 1)).core.dataTla.output.map Output.reports).getD false := by
      rw [states_succ]
      exact reports_tock
    simp only [emitted_cons, hshift, List.find?_append, Nat.add_zero]
    rw [watch, ← states_succ, hreports]
    cases hout : (states dcs s (m + 1)).core.dataTla.output with
    | none => exact hih
    | some o =>
      have hlist : (some o).toList = [o] := rfl
      have hget : ((some o).map Output.reports).getD false = o.reports := rfl
      rw [hlist, hget]
      cases hr : o.reports with
      | false =>
        rw [List.find?_cons_of_neg (ne_true_of_eq_false hr), if_neg Bool.false_ne_true]
        exact hih
      | true =>
        have hdebug : (states dcs s (m + 1)).getDebug = o.data := by
          rw [states_succ] at hout ⊢
          exact getDebug_tock hout hr (hmask 0 (Nat.succ_pos left) o hout hr)
        rw [List.find?_cons_of_pos hr, if_pos rfl, Option.map_some, hdebug]
        rfl

/-- **The driver's verdict is the program's**: with a program that the reset tock finds
guarded, it is decided by the first word that the machine stores to the debug register,
and a run of the machine without one ends in a timeout. -/
theorem runTestHex_eq {rc : DontCare} {n : ℕ} {σ : Machine db} {out : List Output}
    (hm : s.Mirrored) (hguard : s.codeRam.ram.ram (s.fetchAddr rc) = guardWord)
    (hb : ∀ m < n, (states dcs (s.tock rc true) (2 + m)).BypassSound)
    (hrun : Machine.run (s.tock rc true).codeRam.ram.ram (fun m ↦ (dcs (2 + m)).nextPc) n
      ((s.tock rc true).boot (dcs 0).nextPc) = some (σ, out)) (expectFail : Bool) :
    runTestHex rc dcs (2 + n) expectFail s = (out.find? Output.reports).map fun o ↦
      if expectFail then o.data != 1#32 else o.data == 1#32 := by
  have hstore := Machine.isStore_of_run hrun
  rw [← behindGuard_tock] at hrun
  obtain ⟨-, hout⟩ := (guarded_tock hm hguard).refines hb hrun
  have hmask : ∀ i < 2 + n, ∀ o,
      (states dcs (s.tock rc true) (0 + i + 1)).core.dataTla.output = some o →
      o.reports = true → o.mask = 0xF#4 := by
    intro i hi o ho hr
    rw [Nat.zero_add] at ho
    refine (hstore o ?_).mask_of_reports hr
    rw [← hout]
    exact mem_emitted.mpr ⟨i, hi, ho⟩
  have hwatch := watch_states hmask
  simp only [Nat.zero_add, hout] at hwatch
  have hdecide : runTestHex rc dcs (2 + n) expectFail s =
      ((watch dcs (s.tock rc true) 0 (2 + n)).map Prod.snd).map fun w ↦
        if expectFail then w != 1#32 else w == 1#32 := by
    rw [runTestHex, Option.map_map]
    rfl
  rw [hdecide]
  exact (congrArg _ hwatch).trans (Option.map_map _ _ _)

/-- A program that stores a 1 passes, if it has six cycles. -/
theorem runTestHex_passing :
    let s : Soc 2 1 := blank fun a ↦ if a = 0#2 then guardWord
      else if a = 1#2 then 0x00100093#32 else 0xFE102823#32
    runTestHex (.const 0#32) (fun _ ↦ .const 0#32) 6 false s = some true := by
  intro s
  have hout : (Machine.run (s.tock (.const 0#32) true).codeRam.ram.ram (fun _ ↦ 0#24) 4
      ((s.tock (.const 0#32) true).boot 0#24)).map Prod.snd =
        some [⟨TL.putFullData, 0xFFFFFFF0#32, 1#32, 0xF#4⟩] := by
    decide
  obtain ⟨⟨σ, out⟩, hrun, hput⟩ := Option.map_eq_some_iff.mp hout
  have hput : out = _ := hput
  subst hput
  have hverdict := @runTestHex_eq _ _ s (fun _ ↦ .const 0#32) (.const 0#32) 4 _ _
    (show s.Mirrored from rfl) (by decide) (fun m hm ↦ ?_) hrun false
  · exact hverdict.trans (by decide)
  · unfold BypassSound BypassAt
    interval_cases m <;> decide

end Soc

end Pinwheel
