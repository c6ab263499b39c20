import Mathlib.Data.Multiset.AddSub
import Pinwheel.Pipeline.Reset

/-!
# Thread switches

A swap acts from stage C, a yield from stage B.  Each exchanges one thread handle
for another: the target goes to stage A, and the thread that would have gone there
is written to the register of the switch.  If both act in the same tock, both
registers get the same handle, and the target of the yield is nowhere.
-/

namespace Pinwheel

open RV32I

namespace Hpc

/-- A word is a handle and nothing else. -/
theorem toLogic_fromLogic2 (w : BitVec 32) : (fromLogic2 w).toLogic = w := by
  refine BitVec.eq_of_getLsbD_eq fun i hi ↦ ?_
  rw [toLogic, fromLogic2, BitVec.getLsbD_append, BitVec.getLsbD_append, BitVec.getLsbD_ofBool]
  by_cases h24 : i < 24
  · simp [h24]
  · by_cases h31 : i - 24 < 7
    · simp [h24, h31, show 24 + (i - 24) = i by omega]
    · obtain rfl : i = 31 := by omega
      simp

theorem fromLogic2_toLogic (h : Hpc) : fromLogic2 h.toLogic = h := by
  obtain ⟨active, hart, pc⟩ := h
  have hact : (BitVec.ofBool active ++ hart ++ pc).getLsbD 31 = active := by
    rw [BitVec.getLsbD_append, BitVec.getLsbD_append]
    simp
  have hhart : (BitVec.ofBool active ++ hart ++ pc).extractLsb' 24 7 = hart := by
    rw [BitVec.extractLsb'_append_eq_of_le (by decide), BitVec.extractLsb'_append_eq_right]
  have hpc : (BitVec.ofBool active ++ hart ++ pc).extractLsb' 0 24 = pc :=
    BitVec.extractLsb'_append_eq_right
  rw [fromLogic2, toLogic, hact, hhart, hpc]

end Hpc

/-- The word that is written to a register. -/
def RegWrite.wordTo (w : RegWrite) (hart : BitVec 7) (r : BitVec 5) : Multiset (BitVec 32) :=
  if w.en = true ∧ w.addr = (regAddr hart r).setWidth 13 then {w.data} else 0

theorem RegWrite.wordTo_self {hart : BitVec 7} {r : BitVec 5} (data : BitVec 32) (hr : r ≠ 0#5) :
    RegWrite.wordTo ⟨(regAddr hart r).setWidth 13, data, r != 0#5⟩ hart r = {data} :=
  if_pos ⟨bne_iff_ne.mpr hr, rfl⟩

namespace Soc

variable {cb db : ℕ} (dc dc' : DontCare) (s : Soc cb db)

/-- The handles before a tock: where the thread in stage B goes on, the target of a
swap in stage C, and the target of a yield in stage B. -/
def handlesBefore : Multiset (BitVec 32) :=
  {(s.core.bcHpc dc s.coreIn).toLogic} + (if s.core.cdSwap then {s.core.cResult} else 0) +
    if s.core.bcYield then {s.core.bcReg1 s.coreIn} else 0

/-- The handles after it: the one that enters stage A, and what the swap and, a tock
later, the yield write to their registers. -/
def handlesAfter : Multiset (BitVec 32) :=
  {(s.tock dc false).core.aHpc.toLogic} +
    (if s.core.cdSwap then (s.cdWrite dc).wordTo s.core.cHpc.hart s.core.cInsn.rd else 0) +
    if s.core.bcYield then
      ((s.tock dc false).cdWrite dc').wordTo s.core.bHpc.hart s.core.bInsn.rd
    else 0

variable {dc dc' s}

/-- A CSR instruction is no load or store. -/
theorem op_of_isCsrrw {i : Insn} {csr : BitVec 12} (h : i.isCsrrw csr = true) :
    i.op = opSystem ∧ i.csr = csr := by
  rw [Insn.isCsrrw, Bool.and_eq_true, Bool.and_eq_true, beq_iff_eq, beq_iff_eq, beq_iff_eq] at h
  exact ⟨h.1.1, h.2⟩

/-- A CSR instruction in stage C writes its register. -/
theorem cdWrite_of_isCsrrw {csr : BitVec 12} (ha : s.core.cHpc.active = true)
    (hi : s.core.cInsn.isCsrrw csr = true) :
    s.cdWrite dc = ⟨(regAddr s.core.cHpc.hart s.core.cInsn.rd).setWidth 13,
      s.core.cdWriteback dc s.coreIn, s.core.cInsn.rd != 0#5⟩ := by
  obtain ⟨hop, -⟩ := op_of_isCsrrw hi
  have hwr : s.core.cdWriteRegfile = false :=
    Core.access_eq_false fun _ hstore ↦ absurd (hop.symm.trans hstore) (by decide)
  have hen : s.core.cdWren = (s.core.cInsn.rd != 0#5) := by
    rw [Core.cdWren, hwr, if_neg Bool.false_ne_true, if_pos ha, hop]
    simp [opSystem, opStore, opBranch]
  rw [cdWrite, Core.cdWrite, Core.cdWaddr, Core.cdWdata, hen, hwr, if_neg Bool.false_ne_true,
    if_neg Bool.false_ne_true, if_pos ha, if_pos ha]

theorem cdSwap_iff :
    s.core.cdSwap = true ↔ s.core.cHpc.active = true ∧ s.core.cInsn.isCsrrw csrSwap = true := by
  rw [Core.cdSwap, Bool.and_eq_true]

theorem bcYield_iff :
    s.core.bcYield = true ↔ s.core.bHpc.active = true ∧ s.core.bInsn.isCsrrw csrYield = true := by
  rw [Core.bcYield, Bool.and_eq_true]

/-- A swap writes the handle of the thread that was in stage B. -/
theorem cdWrite_of_swap (hs : s.core.cdSwap = true) :
    s.cdWrite dc = ⟨(regAddr s.core.cHpc.hart s.core.cInsn.rd).setWidth 13,
      (s.core.bcHpc dc s.coreIn).toLogic, s.core.cInsn.rd != 0#5⟩ := by
  obtain ⟨ha, hi⟩ := cdSwap_iff.mp hs
  have hyield : s.core.cdYield = false := by
    refine Core.cdYield_of_insn ?_
    rw [← Bool.not_eq_true]
    intro hy
    exact absurd ((op_of_isCsrrw hi).2.symm.trans (op_of_isCsrrw hy).2) (by decide)
  rw [cdWrite_of_isCsrrw ha hi, Core.cdWriteback, hyield, if_neg Bool.false_ne_true, if_pos hs]

/-- A yield writes, a tock later, the handle of its own thread. -/
theorem cdWrite_of_yield (hy : s.core.bcYield = true) :
    (s.tock dc false).cdWrite dc' = ⟨(regAddr s.core.bHpc.hart s.core.bInsn.rd).setWidth 13,
      (s.core.bcHpc dc s.coreIn).toLogic, s.core.bInsn.rd != 0#5⟩ := by
  obtain ⟨ha, hi⟩ := bcYield_iff.mp hy
  have hyield : (s.tock dc false).core.cdYield = true := by
    rw [Core.cdYield, Bool.and_eq_true]
    exact ⟨ha, hi⟩
  have hresult : (s.tock dc false).core.cResult = (s.core.bcHpc dc s.coreIn).toLogic := by
    have hexec : (s.tock dc false).core.cResult = s.core.bcResult dc s.coreIn := rfl
    rw [hexec, Core.bcResult, execute, ha, hi, Bool.and_self, if_pos rfl]
  have hw := @cdWrite_of_isCsrrw _ _ dc' (s.tock dc false) csrYield ha hi
  rw [hw, Core.cdWriteback, hyield, if_pos rfl, hresult]
  rfl

/-- **No handle is lost or duplicated** by thread switches, exactly if no swap and
yield coincide, or the yield was to its own thread. -/
theorem handles_preserved_iff (hP : s.core.cdSwap = true → s.core.cInsn.rd ≠ 0#5)
    (hY : s.core.bcYield = true → s.core.bInsn.rd ≠ 0#5) :
    s.handlesBefore dc = s.handlesAfter dc dc' ↔
      ¬(s.core.cdSwap = true ∧ s.core.bcYield = true) ∨
        s.core.bcReg1 s.coreIn = (s.core.bcHpc dc s.coreIn).toLogic := by
  have haHpc : (s.tock dc false).core.aHpc = s.core.baHpc dc s.coreIn := rfl
  rw [handlesBefore, handlesAfter, haHpc, Core.baHpc]
  cases hs : s.core.cdSwap with
  | false =>
    cases hy : s.core.bcYield with
    | false => simp
    | true =>
      rw [cdWrite_of_yield hy, RegWrite.wordTo_self _ (hY hy)]
      simpa [Hpc.toLogic_fromLogic2] using Multiset.pair_comm _ _
  | true =>
    rw [cdWrite_of_swap hs, RegWrite.wordTo_self _ (hP hs)]
    cases hy : s.core.bcYield with
    | false => simpa [Hpc.toLogic_fromLogic2] using Multiset.pair_comm _ _
    | true =>
      -- The yield's target is lost, and its thread's handle is there twice.
      rw [cdWrite_of_yield hy, RegWrite.wordTo_self _ (hY hy)]
      simp only [if_true, Hpc.toLogic_fromLogic2, Multiset.singleton_add, Multiset.cons_add]
      rw [Multiset.cons_swap, Multiset.cons_inj_right, Multiset.cons_inj_right,
        Multiset.singleton_inj]
      simp

/-- Hart 0 puts hart 1 into the other slot, at address 20, and swaps again, just when
hart 1 yields. -/
def colliding (n : ℕ) : Soc 3 1 :=
  let program := fun a ↦
    if a = 0#3 ∨ a = 1#3 then 0x81000137#32 else if a = 2#3 then 0x01410113#32
    else if a = 3#3 then 0x800110F3#32 else if a = 4#3 then 0x800091F3#32
    else if a = 5#3 then 0x801312F3#32 else 0x0000006F#32
  states (fun _ ↦ DontCare.const 0#32)
    ((blank program).resets (fun _ ↦ DontCare.const 0#32) 1) n

/-- The first swap meets no yield. -/
theorem handles_preserved_colliding :
    (colliding 6).core.cdSwap = true ∧ (colliding 6).handlesBefore (DontCare.const 0#32) =
      (colliding 6).handlesAfter (DontCare.const 0#32) (DontCare.const 0#32) :=
  ⟨by decide, (handles_preserved_iff (by decide) (by decide)).mpr (.inl (by decide))⟩

/-- The second one does: the handle 0 that hart 1 yields to is lost, and the one of
hart 1 is there twice. -/
theorem colliding_loses :
    ((colliding 8).core.cdSwap = true ∧ (colliding 8).core.cInsn.rd ≠ 0#5) ∧
      ((colliding 8).core.bcYield = true ∧ (colliding 8).core.bInsn.rd ≠ 0#5) ∧
      (colliding 8).handlesBefore (DontCare.const 0#32) ≠
        (colliding 8).handlesAfter (DontCare.const 0#32) (DontCare.const 0#32) := by
  decide

end Soc

end Pinwheel
