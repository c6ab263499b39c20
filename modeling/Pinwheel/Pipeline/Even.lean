import Pinwheel.Pipeline.Advance

/-!
# Even program counters

Sequential instructions, branches and `JAL` move an even pc to an even one.  `JALR`
goes to the sum of its operands as it is, without clearing the lowest bit, and a
fence goes wherever `DONTCARE` says.
-/

namespace Pinwheel

open RV32I

/-- An opcode of the RV32I base set, and no thread switch. -/
def Insn.Baseline (i : Insn) : Prop :=
  (i.op = opLui ∨ i.op = opAuipc ∨ i.op = opLoad ∨ i.op = opStore ∨ i.op = opOpimm ∨ i.op = opOp ∨
      i.op = opSystem ∨ i.op = opBranch ∨ i.op = opJal ∨ i.op = opJalr ∨ i.op = opMiscmem) ∧
    i.isCsrrw csrSwap = false ∧ i.isCsrrw csrYield = false

instance (i : Insn) : Decidable i.Baseline := inferInstanceAs (Decidable (_ ∧ _))

/-- The kinds of instructions that `next_hpc` tells apart. -/
theorem Insn.Baseline.cases {i : Insn} (h : i.Baseline) :
    i.Straight ∨ i.op = opBranch ∨ i.op = opJal ∨ i.op = opJalr ∨ i.op = opMiscmem := by
  simpa only [Straight, or_assoc] using h.1

/-! ## Low bits -/

theorem getLsbD_zero_setWidth (w : BitVec 32) : (w.setWidth 24).getLsbD 0 = w.getLsbD 0 := by
  rw [BitVec.getLsbD_setWidth]
  rfl

/-- The next word of an even one is even. -/
theorem getLsbD_zero_add_four {pc : BitVec 24} (h : pc.getLsbD 0 = false) :
    (pc + 4#24).getLsbD 0 = false := by
  rw [BitVec.getLsbD_add (by decide), h, BitVec.carry_zero]
  rfl

theorem getLsbD_zero_setWidth_pc (pc : BitVec 24) :
    (pc.setWidth 32).getLsbD 0 = pc.getLsbD 0 := by
  rw [BitVec.getLsbD_setWidth]
  rfl

/-- The sum of two even words is even. -/
theorem getLsbD_zero_add {a b : BitVec 32} (ha : a.getLsbD 0 = false) (hb : b.getLsbD 0 = false) :
    (a + b).getLsbD 0 = false := by
  rw [BitVec.getLsbD_add (by decide), ha, hb, BitVec.carry_zero]
  rfl

/-- The offsets of branches and jumps are even. -/
theorem decodeImm_even {dc : DontCare} {i : Insn} (h : i.op = opBranch ∨ i.op = opJal) :
    (decodeImm dc i).getLsbD 0 = false := by
  have hlow : ∀ {n} (w : BitVec n), ((w ++ 0#1).signExtend 32).getLsbD 0 = false := fun w ↦ by
    rw [BitVec.getLsbD_signExtend, BitVec.getLsbD_append]
    simp
  rcases h with h | h
  · have himm : decodeImm dc i =
        (i.immB12 ++ i.immB11 ++ i.immB105 ++ i.immB41 ++ 0#1).signExtend 32 := by
      rw [decodeImm, h]
      rfl
    rw [himm]
    exact hlow _
  · have himm : decodeImm dc i =
        (i.immJ20 ++ i.immJ1912 ++ i.immJ11 ++ i.immJ101 ++ 0#1).signExtend 32 := by
      rw [decodeImm, h]
      rfl
    rw [himm]
    exact hlow _

/-! ## One instruction -/

namespace Issue

variable (dc : DontCare) (e : Issue)

/-- An active `JALR` to an odd address. -/
def OddJump : Prop :=
  e.hpc.active = true ∧ e.insn.op = opJalr ∧ (e.addr dc).getLsbD 0 = true

/-- An active fence that `DONTCARE` sends to an odd address. -/
def OddFence : Prop :=
  e.hpc.active = true ∧ e.insn.op = opMiscmem ∧ dc.nextPc.getLsbD 0 = true

instance : Decidable (e.OddJump dc) := inferInstanceAs (Decidable (_ ∧ _ ∧ _))

instance : Decidable (e.OddFence dc) := inferInstanceAs (Decidable (_ ∧ _ ∧ _))

variable {dc e}

/-- Every way on from an even pc leads to an even pc, but for these two. -/
theorem next_even (h : e.insn.Baseline) (ha : e.hpc.active = true)
    (heven : e.hpc.pc.getLsbD 0 = false) (hj : ¬e.OddJump dc) (hf : ¬e.OddFence dc) :
    (e.next dc).pc.getLsbD 0 = false := by
  have hpc : (e.hpc.pc.setWidth 32).getLsbD 0 = false := (getLsbD_zero_setWidth_pc _).trans heven
  rcases h.cases with h | h | h | h | h
  · rw [next_pc_of_straight h]
    exact getLsbD_zero_add_four heven
  · rw [Executes.next_pc_branch h, getLsbD_zero_setWidth]
    split_ifs
    · exact getLsbD_zero_add hpc (decodeImm_even (.inl h))
    · exact getLsbD_zero_add hpc rfl
  · rw [Executes.next_pc_jal h, getLsbD_zero_setWidth]
    exact getLsbD_zero_add hpc (decodeImm_even (.inr h))
  · rw [Executes.next_pc_jalr h, getLsbD_zero_setWidth, ← Bool.not_eq_true]
    exact fun hodd ↦ hj ⟨ha, h, hodd⟩
  · rw [Executes.next_pc_miscmem h, ← Bool.not_eq_true]
    exact fun hodd ↦ hf ⟨ha, h, hodd⟩

end Issue

/-! ## Runs -/

namespace Soc

variable {cb db : ℕ} {dc : DontCare} {dcs : ℕ → DontCare} {s : Soc cb db}

/-- The pcs of the active stages are even. -/
structure EvenPcs (s : Soc cb db) : Prop where
  a : s.core.aHpc.active = true → s.core.aHpc.pc.getLsbD 0 = false
  b : s.core.bHpc.active = true → s.core.bHpc.pc.getLsbD 0 = false
  c : s.core.cHpc.active = true → s.core.cHpc.pc.getLsbD 0 = false

/-- The pcs are even in a state, so is the link that a jump in stage B writes in the next
tock, and a `JALR` in stage B goes to its target with the lowest bit cleared. -/
structure EvenAt (dcs : ℕ → DontCare) (s : Soc cb db) (n : ℕ) : Prop where
  pcs : (states dcs s n).EvenPcs
  link : (states dcs s n).issue.hpc.active = true →
    (states dcs s n).issue.insn.op = opJal ∨ (states dcs s n).issue.insn.op = opJalr →
    ((states dcs s (n + 1)).cdWrite (dcs (n + 1))).data.getLsbD 0 = false
  jump : (states dcs s n).issue.hpc.active = true → (states dcs s n).issue.insn.op = opJalr →
    ((states dcs s n).issue.next (dcs n)).pc =
      ((states dcs s n).issue.addr (dcs n) &&& ~~~1#32).setWidth 24

/-- Up to a time, every instruction that is executed is one of the base set. -/
def RunsBaseline (dcs : ℕ → DontCare) (s : Soc cb db) (n : ℕ) : Prop :=
  ∀ m ≤ n, (states dcs s m).issue.hpc.active = true → (states dcs s m).issue.insn.Baseline

/-- After a reset only hart 0 is there, at an even address. -/
theorem evenPcs_reset (dc : DontCare) (s : Soc cb db) : (s.tock dc true).EvenPcs :=
  ⟨fun _ ↦ (by decide : (4#24).getLsbD 0 = false), fun h ↦ absurd h Bool.false_ne_true,
    fun h ↦ absurd h Bool.false_ne_true⟩

/-- One tock. -/
theorem EvenPcs.tock (h : s.EvenPcs) (hs : s.core.cdSwap = false)
    (hb : s.issue.hpc.active = true → s.issue.insn.Baseline) (hj : ¬s.issue.OddJump dc)
    (hf : ¬s.issue.OddFence dc) : (s.tock dc false).EvenPcs := by
  refine ⟨fun hact ↦ ?_, h.a, h.b⟩
  have hba : (s.core.baHpc dc s.coreIn).active = true := hact
  have hbact : s.issue.hpc.active = true := Core.active_of_baHpc hs hba
  have hbase := hb hbact
  have hnext : (s.tock dc false).core.aHpc = s.issue.next dc := baHpc_eq hs hbase.2.2
  rw [hnext]
  exact Issue.next_even hbase hbact (h.b hbact) hj hf

/-- The link is the next word. -/
theorem link_even (h : s.EvenPcs) (ha : s.issue.hpc.active = true)
    (hop : s.issue.insn.op = opJal ∨ s.issue.insn.op = opJalr) (dc' : DontCare) :
    ((s.tock dc false).cdWrite dc').data.getLsbD 0 = false := by
  have hne : s.issue.insn.op ≠ opSystem ∧ s.issue.insn.op ≠ opLoad ∧
      s.issue.insn.op ≠ opStore := by
    rcases hop with hop | hop <;> rw [hop] <;> decide
  have hresult : s.issue.result dc = s.issue.hpc.pc.setWidth 32 + 4#32 := by
    rcases hop with hop | hop
    · rw [Executes.result_eq hop (by decide)]
      rfl
    · rw [Executes.result_eq hop (by decide)]
      rfl
  rw [cdWrite_tock dc' ha (Executes.tame_of_op hne.1 hne.2.1 hne.2.2), Issue.write,
    Executes.value_of_op hne.2.1, hresult]
  exact getLsbD_zero_add ((getLsbD_zero_setWidth_pc _).trans (h.b ha)) rfl

/-- In a run from reset no swap is in stage C. -/
theorem RunsBaseline.noSwap {n : ℕ} (h : RunsBaseline dcs (s.tock dc true) n) {m : ℕ}
    (hm : m ≤ n + 1) : (states dcs (s.tock dc true) m).core.cdSwap = false := by
  cases m with
  | zero => exact Core.cdSwap_of_idle rfl
  | succ m => exact noSwap_tock fun ha ↦ (h m (Nat.le_of_succ_le_succ hm) ha).2.1

/-- **The pcs of a run stay even**, if it meets no odd jump and no odd fence. -/
theorem evenPcs_states {n : ℕ} (hb : RunsBaseline dcs (s.tock dc true) n)
    (h : ∀ m < n, ¬(states dcs (s.tock dc true) m).issue.OddJump (dcs m) ∧
      ¬(states dcs (s.tock dc true) m).issue.OddFence (dcs m)) :
    (states dcs (s.tock dc true) n).EvenPcs := by
  induction n with
  | zero => exact evenPcs_reset dc s
  | succ n ih =>
    have hprev : RunsBaseline dcs (s.tock dc true) n := fun m hm ↦ hb m (Nat.le_succ_of_le hm)
    have hn := h n (Nat.lt_succ_self n)
    rw [states_succ]
    exact (ih hprev fun m hm ↦ h m (Nat.lt_succ_of_lt hm)).tock
      (hprev.noSwap (Nat.le_succ n)) (hb n (Nat.le_succ n)) hn.1 hn.2

/-- An odd jump goes to the odd address. -/
theorem EvenAt.not_oddJump {n : ℕ} (h : EvenAt dcs s n) :
    ¬(states dcs s n).issue.OddJump (dcs n) := by
  rintro ⟨ha, hop, hodd⟩
  have hpc : ((states dcs s n).issue.next (dcs n)).pc =
      ((states dcs s n).issue.addr (dcs n)).setWidth 24 := Executes.next_pc_jalr hop
  have hlow := congrArg (BitVec.getLsbD · 0) (hpc.symm.trans (h.jump ha hop))
  simp only [getLsbD_zero_setWidth, BitVec.getLsbD_and, BitVec.getLsbD_not] at hlow
  rw [hodd] at hlow
  exact absurd hlow (by decide)

/-- An odd fence puts its thread at an odd address. -/
theorem EvenPcs.not_oddFence (h : (s.tock dc false).EvenPcs) (hs : s.core.cdSwap = false) :
    ¬s.issue.OddFence dc := by
  rintro ⟨ha, hop, hodd⟩
  have hyield : s.issue.insn.isCsrrw csrYield = false :=
    Executes.isCsrrw_of_op (by rw [hop]; decide) _
  have hnext : (s.tock dc false).core.aHpc = s.issue.next dc := baHpc_eq hs hyield
  have hpc := h.a (by rw [hnext]; exact ha)
  rw [hnext, Executes.next_pc_miscmem hop, hodd] at hpc
  exact Bool.noConfusion hpc

/-- **The program counter stays even**, links and targets of `JALR` with it, exactly as
long as no `JALR` goes to an odd address and no fence is sent to one. -/
theorem pc_stays_even_iff {n : ℕ} (hb : RunsBaseline dcs (s.tock dc true) n) :
    (∀ m ≤ n, EvenAt dcs (s.tock dc true) m) ↔
      (∀ m ≤ n, ¬(states dcs (s.tock dc true) m).issue.OddJump (dcs m)) ∧
        ∀ m < n, ¬(states dcs (s.tock dc true) m).issue.OddFence (dcs m) := by
  constructor
  · intro h
    refine ⟨fun m hm ↦ (h m hm).not_oddJump, fun m hm ↦ ?_⟩
    exact (h (m + 1) hm).pcs.not_oddFence (hb.noSwap (Nat.le_succ_of_le (Nat.le_of_lt hm)))
  · rintro ⟨hj, hf⟩ m hm
    have hbm : RunsBaseline dcs (s.tock dc true) m := fun j hjm ↦ hb j (hjm.trans hm)
    have heven := evenPcs_states hbm fun j hjm ↦
      ⟨hj j ((Nat.le_of_lt hjm).trans hm), hf j (Nat.lt_of_lt_of_le hjm hm)⟩
    refine ⟨heven, fun ha hop ↦ link_even heven ha hop _, fun ha hop ↦ ?_⟩
    have hlow : ((states dcs (s.tock dc true) m).issue.addr (dcs m)).getLsbD 0 = false := by
      rw [← Bool.not_eq_true]
      exact fun hodd ↦ hj m hm ⟨ha, hop, hodd⟩
    rw [Executes.and_not_one hlow]
    exact Executes.next_pc_jalr hop

/-- A program of one instruction, out of reset. -/
def repeating (word : BitVec 32) : Soc 1 1 :=
  (blank fun _ ↦ word).tock (DontCare.const 0#32) true

/-- Every instruction is `j .`. -/
theorem pc_stays_even_repeating :
    EvenAt (fun _ ↦ DontCare.const 0#32) (repeating 0x0000006F#32) 3 := by
  have hb : RunsBaseline (fun _ ↦ DontCare.const 0#32) (repeating 0x0000006F#32) 3 := by
    intro m hm
    interval_cases m <;> decide
  refine (pc_stays_even_iff hb).mpr ⟨fun m hm ↦ ?_, fun m hm ↦ ?_⟩ 3 (Nat.le_refl 3)
  · show ¬(states _ (repeating 0x0000006F#32) m).issue.OddJump _
    interval_cases m <;> decide
  · show ¬(states _ (repeating 0x0000006F#32) m).issue.OddFence _
    interval_cases m <;> decide

/-- Every instruction is `jalr x1, 5(x0)`: the pc becomes 5, and the next link 9. -/
theorem odd_jump_stays_odd :
    let dcs := fun _ ↦ DontCare.const 0#32
    let s := repeating 0x005000E7#32
    (Rv32i.decode 0x005000E7#32).isSome = true ∧ (states dcs s 1).issue.OddJump (dcs 1) ∧
      (states dcs s 2).core.aHpc = ⟨true, 0#7, 5#24⟩ ∧
      (states dcs s 3).issue.hpc = ⟨true, 0#7, 5#24⟩ ∧
      ((states dcs s 4).cdWrite (dcs 4)).en = true ∧
      ((states dcs s 4).cdWrite (dcs 4)).data = 9#32 := by
  decide

end Soc

end Pinwheel
