import Pinwheel.Pipeline.Multitasking

/-!
# Single steps

A thread can run another one an instruction at a time: it swaps it in and, with the
next instruction, swaps it out again.  The second swap meets the other thread in its
first turn.
-/

namespace Pinwheel

open Clocked RV32I

/-- The next instruction. -/
def Hpc.skip (h : Hpc) : Hpc := ⟨h.active, h.hart, h.pc + 4#24⟩

theorem pc_skip (h : Hpc) : (h.pc.setWidth 32 + 4#32).setWidth 24 = h.skip.pc := by
  rw [BitVec.setWidth_add _ _ (by decide), BitVec.setWidth_setWidth_of_le _ (by decide),
    BitVec.setWidth_eq]
  rfl

namespace Machine

variable {cb db : ℕ} {code : BitVec cb → BitVec 32} {σ : Machine db} {free : ℕ → BitVec 24}
  {rd rs1 : BitVec 5} {k : Hpc} {t : Turn (db + 2)}

/-- The turn of a thread depends on its own registers and the memory only. -/
theorem turn_congr {σ' : Machine db} (hb : σ'.b = σ.b)
    (hregs : σ'.regs (rowOf σ.b.hart) = σ.regs (rowOf σ.b.hart)) (hmem : σ'.mem = σ.mem) :
    σ'.turn code = σ.turn code := by
  rw [turn, turn, hart, hart, hb, hregs, hmem]

/-- The turn of a swap, with none under way. -/
theorem step_of_swap (hfit : σ.Fit) (hb : σ.b.active = true) (hnone : σ.swap = none)
    (hd : Command.decode (code (wordIndex cb (σ.b.pc.setWidth 32))) = some (.swap rd rs1))
    (pc : BitVec 24) :
    σ.step code pc = some (⟨σ.b.skip, σ.a, some ⟨σ.b.hart, rd, σ.hart.read rs1⟩, σ.regs,
      σ.mem⟩, none) := by
  have hturn : σ.turn code = some
      { pc := σ.hart.pc + 4#32
        x := σ.hart.x
        mem := σ.mem
        swap := some ⟨σ.b.hart, rd, σ.hart.read rs1⟩ } := by
    rw [turn, hd]
    rfl
  rw [step_of_turn hfit hb hturn (Turn.spares_of_none rfl _)]
  refine congrArg some (Prod.ext (Machine.ext ?_ rfl rfl ?_ rfl) rfl)
  · refine (entering_of_none _ hnone).trans ?_
    exact congrArg (Hpc.mk σ.b.active σ.b.hart) (pc_skip σ.b)
  · show Function.update (σ.swapped _) (rowOf σ.b.hart) (σ.regs (rowOf σ.b.hart)) = σ.regs
    rw [swapped_of_none _ hnone, Function.update_eq_self]

/-- Slot B steps the thread of a handle: it is about to exchange, twice in a row, a
register that has the handle. -/
structure Steps (code : BitVec cb → BitVec 32) (σ : Machine db) (rd : BitVec 5) (k : Hpc) :
    Prop where
  none : σ.swap = none
  idle : σ.a.active = false
  active : σ.b.active = true
  first : Command.decode (code (wordIndex cb (σ.b.pc.setWidth 32))) = some (.swap rd rd)
  second : Command.decode (code (wordIndex cb (σ.b.skip.pc.setWidth 32))) = some (.swap rd rd)
  named : rd ≠ 0#5
  handle : σ.regs (rowOf σ.b.hart) rd = k.toLogic
  target : k.active = true
  small : σ.b.hart.toNat < 8 ∧ k.hart.toNat < 8
  apart : rowOf k.hart ≠ rowOf σ.b.hart

/-- The state when the thread of the handle has had a turn. -/
def stepped (σ : Machine db) (pc : BitVec 24) (rd : BitVec 5) (k : Hpc) (t : Turn (db + 2)) :
    Machine db where
  a := ⟨false, σ.a.hart, pc⟩
  b := σ.b.skip.skip
  swap := t.swap
  regs := t.poked (Function.update
    (σ.regs.set (rowOf σ.b.hart) rd (Hpc.toLogic ⟨k.active, k.hart, t.pc.setWidth 24⟩))
    (rowOf k.hart) t.x)
  mem := t.mem

/-- Four turns: the first swap, the empty slot, the second swap, and the turn of the thread
that was swapped in. -/
theorem Steps.run (h : σ.Steps code rd k) (ht : (σ.seat k).turn code = some t)
    (hspares : t.Spares σ.b) :
    Machine.run code free 4 σ = some (σ.stepped (free 1) rd k t, t.out.toList) := by
  have hread : σ.hart.read rd = k.toLogic := (if_neg h.named).trans h.handle
  -- The handle of the empty slot, which the first swap takes out.
  let e : Hpc := ⟨false, σ.a.hart, free 1⟩
  let regs₂ : Rows := σ.regs.set (rowOf σ.b.hart) rd e.toLogic
  let σ₁ : Machine db := ⟨σ.b.skip, σ.a, some ⟨σ.b.hart, rd, k.toLogic⟩, σ.regs, σ.mem⟩
  let σ₂ : Machine db := ⟨k, σ.b.skip, Option.none, regs₂, σ.mem⟩
  let σ₃ : Machine db := ⟨σ.b.skip.skip, k, some ⟨σ.b.hart, rd, e.toLogic⟩, regs₂, σ.mem⟩
  have hna : ¬σ.a.active = true := ne_true_of_eq_false h.idle
  have h₁ : σ.step code (free 0) = some (σ₁, Option.none) := by
    have hfit : σ.Fit := ⟨fun ha ↦ absurd ha hna, fun _ ↦ h.small.1, fun ha ↦ absurd ha hna⟩
    rw [step_of_swap hfit h.active h.none h.first, hread]
  have h₂ : σ₁.step code (free 1) = some (σ₂, Option.none) := by
    have hfit : σ₁.Fit := ⟨fun _ ↦ h.small.1, fun ha ↦ absurd ha hna, fun _ ha ↦ absurd ha hna⟩
    rw [step_of_idle hfit h.idle]
    refine congrArg some (Prod.ext (Machine.ext (Hpc.fromLogic2_toLogic k) rfl rfl ?_ rfl) rfl)
    have hnext : (⟨σ.a.active, σ.a.hart, free 1⟩ : Hpc) = e := by rw [h.idle]
    exact congrArg (fun next ↦ σ.regs.set (rowOf σ.b.hart) rd next.toLogic) hnext
  have hfit₂ : σ₂.Fit := ⟨fun _ ↦ h.small.2, fun _ ↦ h.small.1, fun _ _ ↦ h.apart⟩
  have h₃ : σ₂.step code (free 2) = some (σ₃, Option.none) := by
    have hread₂ : σ₂.hart.read rd = e.toLogic := (if_neg h.named).trans (Rows.set_self h.named)
    rw [step_of_swap hfit₂ h.active rfl h.second, hread₂]
    rfl
  have h₄ : σ₃.step code (free 3) = some (σ.stepped (free 1) rd k t, t.out) := by
    have hfit : σ₃.Fit :=
      ⟨fun _ ↦ h.small.1, fun _ ↦ h.small.2, fun _ _ ↦ Ne.symm h.apart⟩
    have hturn : σ₃.turn code = some t := by
      rw [← ht]
      exact turn_congr rfl (Rows.set_of_ne h.apart) rfl
    rw [step_of_turn hfit h.target hturn hspares]
    refine congrArg some (Prod.ext (Machine.ext (Hpc.fromLogic2_toLogic e) rfl rfl ?_ rfl) rfl)
    exact congrArg (fun regs ↦ t.poked (Function.update regs (rowOf k.hart) t.x))
      (Rows.set_set (Hpc.toLogic ⟨k.active, k.hart, t.pc.setWidth 24⟩))
  have hrun := run_succ_of_step (run_succ_of_step (run_succ_of_step
    (run_succ_of_step rfl h₁) h₂) h₃) h₄
  exact hrun

end Machine

namespace Soc

variable {cb db : ℕ} {s : Soc cb db} {code : BitVec cb → BitVec 32} {dcs : ℕ → DontCare}
  {rd : BitVec 5} {k : Hpc} {t : Turn (db + 2)}

/-- **Two swaps step another thread**, if the turn that it would have had in slot B is one
that the machine has, and spares the registers of the one who steps it: the thread whose
handle is in `rd` has this turn and no other, its new handle is in `rd`, and it is out of its
slot again. -/
theorem step_secondary_thread (h : Tracked code (dcs 0) s)
    (hb : ∀ m < 4, (states dcs s m).BypassSound)
    (hsteps : (s.machine (dcs 0)).Steps code rd k)
    (ht : ((s.machine (dcs 0)).seat k).turn code = some t)
    (hspares : t.Spares s.core.bHpc) :
    (states dcs s 4).machine (dcs 4) = (s.machine (dcs 0)).stepped (dcs 1).nextPc rd k t ∧
      emitted (fun m ↦ (states dcs s (m + 1)).core.dataTla.output) 4 = t.out.toList :=
  (tracked_states h hb (hsteps.run ht hspares)).2

/-- Hart 1 stores to the debug register, and is then at address 28. -/
theorem step_secondary_thread_stepper :
    let dcs := fun _ : ℕ ↦ DontCare.const 0#32
    let s := states dcs stepper 5
    ∃ t, ((s.machine (dcs 0)).seat ⟨true, 1#7, 24#24⟩).turn stepper.codeRam.ram.ram = some t ∧
      t.pc = 28#32 ∧
      (states dcs s 4).machine (dcs 4) =
        (s.machine (dcs 0)).stepped (dcs 1).nextPc 2#5 ⟨true, 1#7, 24#24⟩ t ∧
      emitted (fun m ↦ (states dcs s (m + 1)).core.dataTla.output) 4 =
        [⟨TL.putFullData, 0xFFFFFFF0#32, 0#32, 0xF#4⟩] := by
  intro dcs s
  obtain ⟨⟨σ, out⟩, hrun⟩ : ∃ r, Machine.run stepper.codeRam.ram.ram (fun m ↦ (dcs m).nextPc) 5
      (stepper.machine (dcs 0)) = some r := Option.isSome_iff_exists.mp (by decide)
  have htracked : Tracked stepper.codeRam.ram.ram (dcs 5) s := by
    refine (tracked_states (stepper_ready.tracked (fun _ ↦ rfl) _) (fun m hm ↦ ?_) hrun).1
    unfold BypassSound BypassAt
    interval_cases m <;> decide
  have hsound : ∀ m < 4, (states dcs s m).BypassSound := by
    intro m hm
    unfold BypassSound BypassAt
    interval_cases m <;> decide
  have hsteps : (s.machine (dcs 0)).Steps stepper.codeRam.ram.ram 2#5 ⟨true, 1#7, 24#24⟩ :=
    ⟨by decide, by decide, by decide, by decide, by decide, by decide, by decide, rfl, by decide,
      by decide⟩
  obtain ⟨t, ht, hpoke, hpc, hout⟩ : ∃ t,
      ((s.machine (dcs 0)).seat ⟨true, 1#7, 24#24⟩).turn stepper.codeRam.ram.ram = some t ∧
      t.poke = none ∧ t.pc = 28#32 ∧ t.out = some ⟨TL.putFullData, 0xFFFFFFF0#32, 0#32, 0xF#4⟩ := by
    refine ⟨_, (Option.some_get (by decide)).symm, ?_, ?_, ?_⟩ <;> decide
  obtain ⟨hmachine, hemitted⟩ :=
    step_secondary_thread htracked hsound hsteps ht (Turn.spares_of_none hpoke _)
  rw [hout] at hemitted
  exact ⟨t, ht, hpc, hmachine, hemitted⟩

end Soc

end Pinwheel
