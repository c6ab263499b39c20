import Pinwheel.Pipeline.Lanes
import Pinwheel.Pipeline.Thread

/-!
# The core executes RV32I

For each class of instructions the units of the core compute what RV32I says: the
next pc, the register write and, through the lanes of the data RAM, the effect on
memory.
-/

namespace Pinwheel

open RV32I

/-- The hart that a thread is. -/
def Thread.toHart (t : Thread) : Rv32i.Hart := ⟨t.hpc.pc.setWidth 32, t.x⟩

/-- What an instruction may ask of the platform: a load or store goes to the data
RAM and stays within one word, and a computed jump target is even. -/
def Inside (h : Rv32i.Hart) (i : Rv32i.Instr) : Bool :=
  match i with
  | .load w _ _ _ _ => Core.page (i.address h) == 0x8#4 && decide (lane (i.address h) + w.bytes ≤ 4)
  | .store w _ _ _ => Core.page (i.address h) == 0x8#4 && decide (lane (i.address h) + w.bytes ≤ 4)
  | .jalr _ rs1 imm => !(h.read rs1 + imm).getLsbD 0
  | _ => true

/-- An instruction in stage B does what a given outcome says. -/
structure Executes {db : ℕ} (dc : DontCare) (mem : BitVec db → BitVec 32) (t : Thread) (i : Insn)
    (outcome : Rv32i.Hart × Rv32i.Memory (db + 2)) : Prop where
  pc : ((t.issue i).next dc).pc = outcome.1.pc.setWidth 24
  x : ((t.issue i).retire dc mem t.x).x = outcome.1.x
  mem : ramBytes (((t.issue i).request dc).store Soc.dataMask Soc.dataTag mem) = outcome.2
  tame : (t.issue i).Tame dc
  noCode : i.op = opStore → Core.page ((t.issue i).addr dc) ≠ 0x0#4

namespace Executes

variable {db : ℕ} {dc : DontCare} {mem : BitVec db → BitVec 32} {t : Thread} {i : Insn}

/-! ## What the classes have in common -/

theorem isPut_genBus (op : BitVec 7) (f3 : BitVec 3) (a v : BitVec 32) :
    (genBus dc op f3 a v).isPut = (op == opStore) := by
  have hop : (genBus dc op f3 a v).aOpcode =
      if op = opStore then
        if (genBus dc op f3 a v).aSize = 2#3 then TL.putFullData else TL.putPartialData
      else TL.get := rfl
  rw [TilelinkA.isPut, hop]
  by_cases h : op = opStore
  · rw [if_pos h, h]
    split_ifs <;> rfl
  · rw [if_neg h, beq_eq_false_iff_ne.mpr h]
    rfl

theorem isPut_request (e : Issue) : (e.request dc).isPut = (e.insn.op == opStore) :=
  isPut_genBus _ _ _ _

/-- Only stores change the data RAM. -/
theorem store_request {e : Issue} (h : e.insn.op ≠ opStore) :
    (e.request dc).store Soc.dataMask Soc.dataTag mem = mem := by
  rw [TilelinkA.store, isPut_request, beq_eq_false_iff_ne.mpr h,
    if_neg fun hp ↦ Bool.false_ne_true hp.2]

theorem isCsrrw_of_op (h : i.op ≠ opSystem) (csr : BitVec 12) : i.isCsrrw csr = false := by
  rw [Insn.isCsrrw, beq_eq_false_iff_ne.mpr h, Bool.false_and, Bool.false_and]

/-- An instruction that is neither a load, a store nor a system instruction is tame. -/
theorem tame_of_op {e : Issue} (hsys : e.insn.op ≠ opSystem) (hload : e.insn.op ≠ opLoad)
    (hstore : e.insn.op ≠ opStore) : e.Tame dc :=
  ⟨isCsrrw_of_op hsys _, isCsrrw_of_op hsys _, fun h ↦ absurd h hload, fun h ↦ absurd h hstore⟩

/-- Sequential instructions go on at the next word. -/
theorem next_pc {e : Issue}
    (h : e.insn.op = opLui ∨ e.insn.op = opAuipc ∨ e.insn.op = opLoad ∨ e.insn.op = opStore ∨
      e.insn.op = opOpimm ∨ e.insn.op = opOp) :
    (e.next dc).pc = (e.hpc.pc.setWidth 32 + 4#32).setWidth 24 := by
  unfold Issue.next nextHpc
  dsimp only
  rcases h with h | h | h | h | h | h <;> rw [h] <;> rfl

theorem next_pc_system {e : Issue} (h : e.insn.op = opSystem) :
    (e.next dc).pc = (e.hpc.pc.setWidth 32 + 4#32).setWidth 24 := by
  unfold Issue.next nextHpc
  dsimp only
  rw [h]
  rfl

/-- A fence goes on wherever it is sent. -/
theorem next_pc_miscmem {e : Issue} (h : e.insn.op = opMiscmem) : (e.next dc).pc = dc.nextPc := by
  unfold Issue.next nextHpc
  dsimp only
  rw [h]
  rfl

theorem next_pc_jal {e : Issue} (h : e.insn.op = opJal) :
    (e.next dc).pc = (e.hpc.pc.setWidth 32 + decodeImm dc e.insn).setWidth 24 := by
  unfold Issue.next nextHpc
  dsimp only
  rw [h]
  rfl

theorem next_pc_jalr {e : Issue} (h : e.insn.op = opJalr) :
    (e.next dc).pc = (e.op1 + decodeImm dc e.insn).setWidth 24 := by
  unfold Issue.next nextHpc
  dsimp only
  rw [h]
  rfl

theorem next_pc_branch {e : Issue} (h : e.insn.op = opBranch) :
    (e.next dc).pc = (if takeBranch e.insn.f3 e.op1 e.op2
      then e.hpc.pc.setWidth 32 + decodeImm dc e.insn
      else e.hpc.pc.setWidth 32 + 4#32).setWidth 24 := by
  unfold Issue.next nextHpc
  dsimp only
  rw [h]
  rfl

/-- Instructions that write a register write it as RV32I does. -/
theorem retire_x {v pc : BitVec 32} (hstore : i.op ≠ opStore) (hbranch : i.op ≠ opBranch)
    (hv : (t.issue i).value dc mem = v) :
    ((t.issue i).retire dc mem t.x).x = (t.toHart.write i.rd v pc).x := by
  funext r
  have hw : (t.issue i).writes = (i.rd != 0#5) := by
    have hdef : (t.issue i).writes = (i.rd != 0#5 && i.op != opStore && i.op != opBranch) := rfl
    rw [hdef, bne_iff_ne.mpr hstore, bne_iff_ne.mpr hbranch, Bool.and_true, Bool.and_true]
  have hx : ((t.issue i).retire dc mem t.x).x r =
      if (t.issue i).writes ∧ i.rd = r then (t.issue i).value dc mem else t.x r := rfl
  rw [hx, hw, hv]
  exact if_congr (and_congr_left' bne_iff_ne) rfl rfl

/-- An instruction that writes no register leaves them all. -/
theorem retire_x_of_not_writes (h : (t.issue i).writes = false) :
    ((t.issue i).retire dc mem t.x).x = t.x := by
  funext r
  have hx : ((t.issue i).retire dc mem t.x).x r =
      if (t.issue i).writes ∧ i.rd = r then (t.issue i).value dc mem else t.x r := rfl
  rw [hx, h, if_neg fun hw ↦ Bool.false_ne_true hw.1]

/-- An instruction that is not a load writes back its result. -/
theorem value_of_op {e : Issue} (h : e.insn.op ≠ opLoad) : e.value dc mem = e.result dc :=
  if_neg fun hl ↦ h hl.1

/-- The instruction is not a thread switch, so `execute` goes by its opcode. -/
theorem result_eq {e : Issue} {o : BitVec 7} (h : e.insn.op = o) (hsys : o ≠ opSystem) :
    e.result dc =
      if o = opOpimm then executeAlu e.insn e.op1 (decodeImm dc e.insn)
      else if o = opOp then executeAlu e.insn e.op1 e.op2
      else if o = opSystem then executeSystem dc e.hpc.hart e.insn
      else if o = opBranch then dc.branchResult
      else if o = opJal then e.hpc.pc.setWidth 32 + 4#32
      else if o = opJalr then e.hpc.pc.setWidth 32 + 4#32
      else if o = opLui then decodeImm dc e.insn
      else if o = opAuipc then e.hpc.pc.setWidth 32 + decodeImm dc e.insn
      else if o = opLoad then dc.loadResult
      else if o = opStore then e.op2
      else dc.otherResult := by
  subst o
  rw [Issue.result, execute]
  simp only [isCsrrw_of_op hsys, Bool.and_false, Bool.false_eq_true, if_false]

/-- An instruction that only writes a register. -/
theorem of_write {o : BitVec 7} {v pc : BitVec 32} (h : i.op = o)
    (ho : o ≠ opSystem ∧ o ≠ opLoad ∧ o ≠ opStore ∧ o ≠ opBranch)
    (hpc : ((t.issue i).next dc).pc = pc.setWidth 24)
    (hv : (t.issue i).result dc = v) :
    Executes dc mem t i (t.toHart.write i.rd v pc, ramBytes mem) := by
  subst o
  obtain ⟨hsys, hload, hstore, hbranch⟩ := ho
  exact ⟨hpc, retire_x hstore hbranch (by rw [value_of_op hload, hv]),
    congrArg ramBytes (store_request hstore), tame_of_op hsys hload hstore,
    fun h ↦ absurd h hstore⟩

/-! ## Class by class -/

theorem decodeImm_immU (h : i.op = opLui ∨ i.op = opAuipc) :
    decodeImm dc i = Rv32i.immU i.raw := by
  rw [decodeImm]
  rcases h with h | h <;> rw [h] <;> rfl

theorem lui (h : i.op = opLui) :
    Executes dc mem t i
      ((Rv32i.Instr.lui i.rd (Rv32i.immU i.raw)).exec t.toHart (ramBytes mem)) := by
  have hresult : (t.issue i).result dc = decodeImm dc i := result_eq (e := t.issue i) h (by decide)
  exact of_write h (by decide) (next_pc (.inl h)) (hresult.trans (decodeImm_immU (.inl h)))

theorem auipc (h : i.op = opAuipc) :
    Executes dc mem t i
      ((Rv32i.Instr.auipc i.rd (Rv32i.immU i.raw)).exec t.toHart (ramBytes mem)) := by
  rw [← @decodeImm_immU dc i (.inr h)]
  exact of_write h (by decide) (next_pc (.inr (.inl h))) (result_eq (e := t.issue i) h (by decide))

theorem jal (h : i.op = opJal) :
    Executes dc mem t i
      ((Rv32i.Instr.jal i.rd (Rv32i.immJ i.raw)).exec t.toHart (ramBytes mem)) := by
  have himm : decodeImm dc i = Rv32i.immJ i.raw := by
    rw [decodeImm, h]
    rfl
  rw [← himm]
  exact of_write h (by decide) (next_pc_jal h) (result_eq (e := t.issue i) h (by decide))

theorem decodeImm_immI (h : i.op = opLoad ∨ i.op = opOpimm ∨ i.op = opJalr) :
    decodeImm dc i = Rv32i.immI i.raw := by
  rcases h with h | h | h <;> rw [decodeImm, h] <;> rfl

/-- Clearing the lowest bit of an even number does nothing. -/
theorem and_not_one {a : BitVec 32} (h : a.getLsbD 0 = false) : a &&& ~~~1#32 = a := by
  refine BitVec.eq_of_getLsbD_eq fun k hk ↦ ?_
  rw [BitVec.getLsbD_and, BitVec.getLsbD_not]
  rcases Nat.eq_zero_or_pos k with rfl | hpos
  · rw [h, Bool.false_and]
  · have hone : (1#32).getLsbD k = false := by
      rw [BitVec.getLsbD_one]
      simp [Nat.pos_iff_ne_zero.mp hpos]
    rw [hone, Bool.not_false, Bool.and_true, decide_eq_true hk, Bool.and_true]

theorem jalr (h : i.op = opJalr)
    (hin : Inside t.toHart (Rv32i.Instr.jalr i.rd i.rs1 (Rv32i.immI i.raw)) = true) :
    Executes dc mem t i
      ((Rv32i.Instr.jalr i.rd i.rs1 (Rv32i.immI i.raw)).exec t.toHart (ramBytes mem)) := by
  have himm := @decodeImm_immI dc i (.inr (.inr h))
  have heven : (t.read i.rs1 + Rv32i.immI i.raw).getLsbD 0 = false := Bool.not_eq_true' _ ▸ hin
  refine of_write h (by decide) ?_ (result_eq (e := t.issue i) h (by decide))
  rw [show t.toHart.read i.rs1 = t.read i.rs1 from rfl, and_not_one heven, ← himm]
  exact next_pc_jalr h

/-- `take_branch` decides the RV32I conditions. -/
theorem takeBranch_eq {f3 : BitVec 3} {c : Rv32i.Cond} (h : Rv32i.condOf f3 = some c)
    (a b : BitVec 32) : takeBranch f3 a b = c.eval a b := by
  obtain ⟨rfl, rfl⟩ | ⟨rfl, rfl⟩ | ⟨rfl, rfl⟩ | ⟨rfl, rfl⟩ | ⟨rfl, rfl⟩ | ⟨rfl, rfl⟩ :=
    Rv32i.eq_of_condOf h <;> rfl

theorem branch (h : i.op = opBranch) {c : Rv32i.Cond} (hc : Rv32i.condOf i.f3 = some c) :
    Executes dc mem t i
      ((Rv32i.Instr.branch c i.rs1 i.rs2 (Rv32i.immB i.raw)).exec t.toHart (ramBytes mem)) := by
  have himm : decodeImm dc i = Rv32i.immB i.raw := by
    rw [decodeImm, h]
    rfl
  have hwrites : (t.issue i).writes = false := by
    have hdef : (t.issue i).writes = (i.rd != 0#5 && i.op != opStore && i.op != opBranch) := rfl
    rw [hdef, h, bne_self_eq_false, Bool.and_false]
  have hsys : i.op ≠ opSystem := by rw [h]; decide
  have hload : i.op ≠ opLoad := by rw [h]; decide
  have hstore : i.op ≠ opStore := by rw [h]; decide
  refine ⟨?_, retire_x_of_not_writes hwrites, congrArg ramBytes (store_request hstore),
    tame_of_op hsys hload hstore, fun hs ↦ absurd hs hstore⟩
  have htake : takeBranch (t.issue i).insn.f3 (t.issue i).op1 (t.issue i).op2 =
      c.eval (t.read i.rs1) (t.read i.rs2) := takeBranch_eq hc _ _
  rw [next_pc_branch h, htake, ← himm]
  rfl

theorem load (h : i.op = opLoad) {w : Rv32i.Width} {signed : Bool}
    (hl : Rv32i.loadOf i.f3 = some (w, signed))
    (hin : Inside t.toHart (.load w signed i.rd i.rs1 (Rv32i.immI i.raw)) = true) :
    Executes dc mem t i
      ((Rv32i.Instr.load w signed i.rd i.rs1 (Rv32i.immI i.raw)).exec t.toHart (ramBytes mem)) := by
  have haddr : (t.issue i).addr dc = t.read i.rs1 + Rv32i.immI i.raw :=
    congrArg _ (decodeImm_immI (.inl h))
  obtain ⟨hpage, hlane⟩ := (Bool.and_eq_true _ _).mp hin
  have hpage : Core.page ((t.issue i).addr dc) = 0x8#4 := by
    rw [haddr]
    exact beq_iff_eq.mp hpage
  have hvalue : (t.issue i).value dc mem =
      (ramBytes mem).load w signed (t.read i.rs1 + Rv32i.immI i.raw) := by
    rw [Issue.value, if_pos ⟨h, hpage⟩, haddr]
    exact unpackMem_eq_load hl (of_decide_eq_true hlane)
  have hsys : i.op ≠ opSystem := by rw [h]; decide
  have hstore : i.op ≠ opStore := by rw [h]; decide
  have hbranch : i.op ≠ opBranch := by rw [h]; decide
  refine ⟨next_pc (.inr (.inr (.inl h))), retire_x hstore hbranch hvalue,
    congrArg ramBytes (store_request hstore), ⟨isCsrrw_of_op hsys _, isCsrrw_of_op hsys _,
      fun _ ↦ ?_, fun hs ↦ absurd hs hstore⟩, fun hs ↦ absurd hs hstore⟩
  rw [hpage]
  decide

/-- What a RAM gets of a store in its range. -/
theorem store_genBus_of_selects {f3 : BitVec 3} {w : Rv32i.Width}
    (hw : Rv32i.storeOf f3 = some w) {a v addrMask addrTag : BitVec 32}
    (hsel : a &&& addrMask = addrTag) :
    (genBus dc opStore f3 a v).store addrMask addrTag mem =
      Function.update mem (wordIndex db a)
        (mergeLanes (mem (wordIndex db a)) (v <<< (8 * lane a)) (busMask w a)) := by
  have haddr : (genBus dc opStore f3 a v).aAddress = a := rfl
  have hselects : (genBus dc opStore f3 a v).selects addrMask addrTag = true :=
    beq_iff_eq.mpr hsel
  have hput : (genBus dc opStore f3 a v).isPut = true := isPut_genBus _ _ _ _
  rw [TilelinkA.store, if_pos ⟨hselects, hput⟩, aMask_genBus hw, aData_genBus, haddr]

/-- What a RAM gets of a store to its page. -/
theorem store_genBus {f3 : BitVec 3} {w : Rv32i.Width} (hw : Rv32i.storeOf f3 = some w)
    {a v tag : BitVec 32} (htag : Core.page a ++ 0#28 = tag) :
    (genBus dc opStore f3 a v).store 0xF0000000#32 tag mem =
      Function.update mem (wordIndex db a)
        (mergeLanes (mem (wordIndex db a)) (v <<< (8 * lane a)) (busMask w a)) := by
  have hsel : (genBus dc opStore f3 a v).selects 0xF0000000#32 tag = true :=
    Core.selects_pageMask rfl htag
  exact store_genBus_of_selects hw (beq_iff_eq.mp hsel)

/-- What the data RAM gets of a store. -/
theorem request_of_store (h : i.op = opStore) {w : Rv32i.Width} (hw : Rv32i.storeOf i.f3 = some w)
    (hpage : Core.page ((t.issue i).addr dc) = 0x8#4) :
    ((t.issue i).request dc).store Soc.dataMask Soc.dataTag mem =
      Function.update mem (wordIndex db ((t.issue i).addr dc))
        (mergeLanes (mem (wordIndex db ((t.issue i).addr dc)))
          (t.read i.rs2 <<< (8 * lane ((t.issue i).addr dc)))
          (busMask w ((t.issue i).addr dc))) := by
  have hreq : (t.issue i).request dc =
      genBus dc opStore i.f3 ((t.issue i).addr dc) (t.read i.rs2) := by
    rw [← h]
    rfl
  rw [hreq]
  exact store_genBus hw (by rw [hpage]; rfl)

theorem store (h : i.op = opStore) {w : Rv32i.Width} (hw : Rv32i.storeOf i.f3 = some w)
    (hin : Inside t.toHart (.store w i.rs1 i.rs2 (Rv32i.immS i.raw)) = true) :
    Executes dc mem t i
      ((Rv32i.Instr.store w i.rs1 i.rs2 (Rv32i.immS i.raw)).exec t.toHart (ramBytes mem)) := by
  have himm : decodeImm dc i = Rv32i.immS i.raw := by
    rw [decodeImm, h]
    rfl
  have haddr : (t.issue i).addr dc = t.read i.rs1 + Rv32i.immS i.raw := congrArg _ himm
  obtain ⟨hpage, hlane⟩ := (Bool.and_eq_true _ _).mp hin
  have hpage : Core.page ((t.issue i).addr dc) = 0x8#4 := by
    rw [haddr]
    exact beq_iff_eq.mp hpage
  have hwrites : (t.issue i).writes = false := by
    have hdef : (t.issue i).writes = (i.rd != 0#5 && i.op != opStore && i.op != opBranch) := rfl
    rw [hdef, h, bne_self_eq_false, Bool.and_false, Bool.false_and]
  have hsys : i.op ≠ opSystem := by rw [h]; decide
  have hload : i.op ≠ opLoad := by rw [h]; decide
  refine ⟨next_pc (.inr (.inr (.inr (.inl h)))), retire_x_of_not_writes hwrites, ?_,
    ⟨isCsrrw_of_op hsys _, isCsrrw_of_op hsys _, fun hl ↦ absurd hl hload, fun _ ↦ ?_⟩,
    fun _ ↦ ?_⟩
  · rw [request_of_store h hw hpage, haddr]
    exact ramBytes_store (of_decide_eq_true hlane) _
  all_goals
    rw [hpage]
    decide

/-- `execute_alu` shifts as the shifts of both classes ask for. -/
theorem executeAlu_shift {f : Rv32i.Alu} (hf : Rv32i.shiftOf i.f3 i.f7 = some f)
    (a b : BitVec 32) : executeAlu i a b = f.eval a b := by
  obtain ⟨h3, h7, rfl⟩ | ⟨h3, h7, rfl⟩ | ⟨h3, h7, rfl⟩ := Rv32i.eq_of_shiftOf hf <;>
    rw [executeAlu, h3, h7] <;> rfl

/-- It computes what an `OP-IMM` instruction asks for, if it does not subtract. -/
theorem executeAlu_opImm (h : ¬(i.op = opOp ∧ i.f7 = 32#7)) {f : Rv32i.Alu}
    (hf : Rv32i.opImmOf i.f3 i.f7 = some f) (a b : BitVec 32) : executeAlu i a b = f.eval a b := by
  obtain ⟨h3, rfl⟩ | ⟨h3, rfl⟩ | ⟨h3, rfl⟩ | ⟨h3, rfl⟩ | ⟨h3, rfl⟩ | ⟨h3, rfl⟩ | hs :=
    Rv32i.eq_of_opImmOf hf
  · rw [executeAlu, h3, if_neg h]
    rfl
  · rw [executeAlu, h3]
    rfl
  · rw [executeAlu, h3]
    rfl
  · rw [executeAlu, h3]
    rfl
  · rw [executeAlu, h3]
    rfl
  · rw [executeAlu, h3]
    rfl
  · exact executeAlu_shift hs a b

/-- It computes what an `OP` instruction asks for. -/
theorem executeAlu_op (h : i.op = opOp) {f : Rv32i.Alu}
    (hf : Rv32i.opOf i.f3 i.f7 = some f) (a b : BitVec 32) : executeAlu i a b = f.eval a b := by
  obtain ⟨h3, h7, rfl⟩ | hs | ⟨hi, h7⟩ := Rv32i.eq_of_opOf hf
  · rw [executeAlu, h3, h7, h]
    rfl
  · exact executeAlu_shift hs a b
  · refine executeAlu_opImm (fun hsub ↦ ?_) hi a b
    rw [h7] at hsub
    exact absurd hsub.2 (by decide)

theorem opImm (h : i.op = opOpimm) {f : Rv32i.Alu} (hf : Rv32i.opImmOf i.f3 i.f7 = some f) :
    Executes dc mem t i
      ((Rv32i.Instr.opImm f i.rd i.rs1 (Rv32i.immI i.raw)).exec t.toHart (ramBytes mem)) := by
  refine of_write h (by decide) (next_pc (.inr (.inr (.inr (.inr (.inl h)))))) ?_
  refine (result_eq (e := t.issue i) h (by decide)).trans ?_
  rw [if_pos rfl]
  have hne : ¬(i.op = opOp ∧ i.f7 = 32#7) := by
    rintro ⟨hop, -⟩
    exact absurd (h.symm.trans hop) (by decide)
  refine (executeAlu_opImm hne hf _ _).trans ?_
  exact congrArg (f.eval _) (decodeImm_immI (.inr (.inl h)))

theorem op (h : i.op = opOp) {f : Rv32i.Alu} (hf : Rv32i.opOf i.f3 i.f7 = some f) :
    Executes dc mem t i
      ((Rv32i.Instr.op f i.rd i.rs1 i.rs2).exec t.toHart (ramBytes mem)) := by
  refine of_write h (by decide) (next_pc (.inr (.inr (.inr (.inr (.inr h)))))) ?_
  refine (result_eq (e := t.issue i) h (by decide)).trans ?_
  exact executeAlu_op h hf _ _

/-- **The core executes RV32I.** -/
theorem of_decode {instr : Rv32i.Instr} (hd : Rv32i.decode i.raw = some instr)
    (hin : Inside t.toHart instr = true) :
    Executes dc mem t i (instr.exec t.toHart (ramBytes mem)) := by
  cases Rv32i.encodes_of_decode hd with
  | lui h => exact lui h
  | auipc h => exact auipc h
  | jal h => exact jal h
  | jalr h => exact jalr h hin
  | branch h hc => exact branch h hc
  | load h hl => exact load h hl hin
  | store h hs => exact store h hs hin
  | opImm h hf => exact opImm h hf
  | op h hf => exact op h hf

end Executes

end Pinwheel
