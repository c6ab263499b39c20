import Pinwheel.Core.Tock

/-!
# Signals that are low

Most rules about the pipeline say of some instruction that it is not one of the
special ones: then the signal of the special one is low, and the signals behind it
take their default.
-/

namespace Pinwheel

open RV32I

namespace Core

variable {dc : DontCare} {c : Core} {i : CoreIn}

/-- An idle stage A hands on the empty instruction. -/
theorem abInsn_of_idle (h : c.aHpc.active = false) : c.abInsn i = ⟨0#32⟩ :=
  if_neg (by rw [h]; exact Bool.false_ne_true)

/-! ## Accesses of stage C -/

/-- The five access signals are alike: none of them is high for an instruction of
another opcode, or for an address on another page. -/
theorem access_eq_false {active : Bool} {i : Insn} {op : BitVec 7} {p q : BitVec 4}
    (h : active = true → i.op = op → p ≠ q) : (active && i.op == op && p == q) = false := by
  rw [← Bool.not_eq_true, Bool.and_eq_true, Bool.and_eq_true, beq_iff_eq, beq_iff_eq]
  rintro ⟨⟨ha, hop⟩, hpage⟩
  exact h ha hop hpage

theorem access_of_idle {active : Bool} {i : Insn} {op : BitVec 7} {p q : BitVec 4}
    (h : active = false) : (active && i.op == op && p == q) = false :=
  access_eq_false fun ha ↦ absurd (h.symm.trans ha) Bool.false_ne_true

theorem access_eq_true {active : Bool} {i : Insn} {op : BitVec 7} {p q : BitVec 4}
    (ha : active = true) (hop : i.op = op) (hp : p = q) :
    (active && i.op == op && p == q) = true := by
  rw [ha, hop, hp, beq_self_eq_true, beq_self_eq_true]
  rfl

/-! ## Switches -/

theorem cdSwap_of_idle (h : c.cHpc.active = false) : c.cdSwap = false := by
  rw [cdSwap, h, Bool.false_and]

theorem cdSwap_of_insn (h : c.cInsn.isCsrrw csrSwap = false) : c.cdSwap = false := by
  rw [cdSwap, h, Bool.and_false]

theorem cdYield_of_insn (h : c.cInsn.isCsrrw csrYield = false) : c.cdYield = false := by
  rw [cdYield, h, Bool.and_false]

theorem bcYield_of_idle (h : c.bHpc.active = false) : c.bcYield = false := by
  rw [bcYield, h, Bool.false_and]

theorem bcYield_of_insn (h : c.bInsn.isCsrrw csrYield = false) : c.bcYield = false := by
  rw [bcYield, h, Bool.and_false]

theorem baHpc_of_swap (hs : c.cdSwap = true) : c.baHpc dc i = Hpc.fromLogic2 c.cResult := if_pos hs

/-- Without a switch the thread in stage B goes on. -/
theorem baHpc_eq (hs : c.cdSwap = false) (hy : c.bcYield = false) :
    c.baHpc dc i = c.bcHpc dc i := by
  rw [baHpc, hs, hy, if_neg Bool.false_ne_true, if_neg Bool.false_ne_true]

/-- Without a swap an empty slot stays empty. -/
theorem baHpc_of_idle (hs : c.cdSwap = false) (h : c.bHpc.active = false) :
    (c.baHpc dc i).active = false := by
  rw [baHpc_eq hs (bcYield_of_idle h)]
  exact h

theorem active_of_baHpc (hs : c.cdSwap = false) (h : (c.baHpc dc i).active = true) :
    c.bHpc.active = true := by
  rw [← Bool.not_eq_false]
  intro hidle
  exact absurd ((baHpc_of_idle hs hidle).symm.trans h) Bool.false_ne_true

end Core

end Pinwheel
