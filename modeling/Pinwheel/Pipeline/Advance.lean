import Pinwheel.Pipeline.Window

/-!
# Instructions that only advance

The opcode is decoded three times, in `decode_imm`, `next_hpc` and `execute`, and a
fourth time for the writeback.  For the instructions that are no control transfer all
of them agree that the thread goes on at the next word and writes `rd` at most, with
the exception that the registers are part of the address space and stores reach them
there.
-/

namespace Pinwheel

open RV32I

/-- The instructions of RV32I that are neither control transfers nor fences, with the CSR
instructions on `mhartid`. -/
def Insn.Sequential (i : Insn) : Prop :=
  (i.op = opLui ∨ i.op = opAuipc ∨ i.op = opLoad ∨ i.op = opStore ∨ i.op = opOpimm ∨
    i.op = opOp) ∨ (i.op = opSystem ∧ i.csr = mhartid)

instance (i : Insn) : Decidable i.Sequential := inferInstanceAs (Decidable (_ ∨ _))

/-- The opcodes after which `next_hpc` goes on at the next word. -/
def Insn.Straight (i : Insn) : Prop :=
  (i.op = opLui ∨ i.op = opAuipc ∨ i.op = opLoad ∨ i.op = opStore ∨ i.op = opOpimm ∨
    i.op = opOp) ∨ i.op = opSystem

theorem Insn.Sequential.straight {i : Insn} (h : i.Sequential) : i.Straight :=
  h.imp_right And.left

/-- None of them switches threads. -/
theorem Insn.Sequential.isCsrrw {i : Insn} (h : i.Sequential) {csr : BitVec 12}
    (hcsr : csr ≠ mhartid) : i.isCsrrw csr = false := by
  rcases h with h | ⟨-, h⟩
  · refine Executes.isCsrrw_of_op ?_ csr
    rcases h with h | h | h | h | h | h <;> rw [h] <;> decide
  · rw [← Bool.not_eq_true]
    intro hi
    exact hcsr ((Soc.op_of_isCsrrw hi).2.symm.trans h)

/-- The next word, modulo the 24 bits of a pc. -/
theorem setWidth_add_four (pc : BitVec 24) : (pc.setWidth 32 + 4#32).setWidth 24 = pc + 4#24 := by
  refine BitVec.eq_of_toNat_eq ?_
  have := pc.isLt
  simp only [BitVec.toNat_setWidth, BitVec.toNat_add, BitVec.toNat_ofNat]
  omega

namespace Issue

variable {dc : DontCare} {e : Issue}

theorem next_pc_of_straight (h : e.insn.Straight) : (e.next dc).pc = e.hpc.pc + 4#24 := by
  rw [← setWidth_add_four]
  rcases h with h | h
  · exact Executes.next_pc h
  · exact Executes.next_pc_system h

/-- The thread goes on at the next word. -/
theorem next_of_sequential (h : e.insn.Sequential) :
    e.next dc = ⟨e.hpc.active, e.hpc.hart, e.hpc.pc + 4#24⟩ := by
  rw [← @next_pc_of_straight dc e h.straight]
  rfl

/-- A store writes no `rd`. -/
theorem op_ne_opStore_of_writes (h : e.writes = true) : e.insn.op ≠ opStore := by
  rw [Issue.writes, Bool.and_eq_true, Bool.and_eq_true] at h
  exact bne_iff_ne.mp h.1.2

end Issue

namespace Soc

variable {cb db : ℕ} {dc : DontCare} {s : Soc cb db}

/-- **A sequential instruction advances the program**: its thread goes on at the next
word, in stage A or in the handle that a swap takes of it, and no register changes but
its `rd`, which a store has none of, and the one that a store addresses through the
window. -/
theorem sequential_advances (ha : s.issue.hpc.active = true) (hi : s.issue.insn.Sequential)
    (dc' : DontCare) :
    (s.issue.next dc = ⟨true, s.issue.hpc.hart, s.issue.hpc.pc + 4#24⟩ ∧
      (s.core.cdSwap = false → (s.tock dc false).core.aHpc = s.issue.next dc) ∧
      (s.core.cdSwap = true → (s.cdWrite dc).data = (s.issue.next dc).toLogic)) ∧
    ∀ a, (s.issue.insn.op = opStore ∨ a ≠ cell (rowOf s.issue.hpc.hart) s.issue.insn.rd) →
      ¬(s.issue.StoresWindow dc ∧ storeCell (s.issue.addr dc) = a) →
      (s.tock dc false).drained dc' a = s.drained dc a := by
  have hyield : s.issue.insn.isCsrrw csrYield = false := hi.isCsrrw (by decide)
  refine ⟨⟨?_, fun hs ↦ ?_, fun hs ↦ ?_⟩, fun a hrd hstore ↦ ?_⟩
  · rw [Issue.next_of_sequential hi, ha]
  · exact baHpc_eq hs hyield
  · exact congrArg RegWrite.data (cdWrite_of_swap hs)
  · refine drained_tock_of_ne dc' (fun hw ht ↦ hstore ⟨hw, ht⟩) fun hw ht ↦ ?_
    exact hrd.elim (Issue.op_ne_opStore_of_writes hw) fun hne ↦ hne ht.symm

/-- `sw x2, 148(x1)` of hart 0 goes on at the next word, and leaves its own `x20` alone,
which has the number in its `rd` bits. -/
theorem sequential_advances_windowing :
    let s := windowing [0x0820AA23#32, 0x0940A183#32] 5
    let dc := DontCare.const 0#32
    s.issue.next dc = ⟨true, 0#7, 16#24⟩ ∧ s.issue.insn.rd = 20#5 ∧
      (s.tock dc false).drained dc 20#8 = s.drained dc 20#8 := by
  intro s dc
  have h := @sequential_advances _ _ dc s (by decide) (by decide) dc
  refine ⟨h.1.1.trans (by decide), by decide, h.2 20#8 (.inl (by decide)) ?_⟩
  rintro ⟨-, ht⟩
  exact absurd ht (by decide)

/-- It changes `x5` of hart 1, which is not its `rd`. -/
theorem store_changes_register :
    let s := windowing [0x0820AA23#32, 0x0940A183#32] 5
    let dc := DontCare.const 0#32
    s.issue.hpc.active = true ∧ (Rv32i.decode s.issue.insn.raw).isSome = true ∧
      s.issue.insn.op = opStore ∧ cell (rowOf s.issue.hpc.hart) s.issue.insn.rd ≠ 37#8 ∧
      s.drained dc 37#8 = 0#32 ∧ (s.tock dc false).drained dc 37#8 = 7#32 := by
  decide

end Soc

end Pinwheel
