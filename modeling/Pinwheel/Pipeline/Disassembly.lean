import Mathlib.Tactic.IntervalCases
import Mathlib.Tactic.SplitIfs
import Pinwheel.Pipeline.Rv32i
import Pinwheel.Tools.Rvdisasm

/-!
# The disassembler and the core

`print_rv` takes the fields of a word apart by code of its own.  What can be read off a
line that it prints is compared with the instruction that the core executes and with the
immediate that the core uses.
-/

namespace Pinwheel

open RV32I Rvdisasm

/-! ## Lines -/

/-- The operation, the registers and the immediate of a line. -/
structure Line where
  name : String
  regs : List (BitVec 5)
  imm : Option ℤ
deriving DecidableEq, Repr

namespace Line

/-- The first text is the operation. -/
def nameOf : List Piece → String
  | .text s :: _ => s
  | _ => ""

def regsOf : List Piece → List (BitVec 5)
  | [] => []
  | .reg n :: l => n :: regsOf l
  | _ :: l => regsOf l

/-- The first number is the immediate, with the sign in front of it. -/
def immOf : List Piece → Option ℤ
  | [] => none
  | .char c :: .dec n :: _ => some (if c = '-' then -n else n)
  | .dec n :: _ => some n
  | .hex _ n :: _ => some n
  | _ :: l => immOf l

/-- What a reader takes from a line. -/
def read (l : List Piece) : Line := ⟨nameOf l, regsOf l, immOf l⟩

end Line

/-! ## What the core does -/

/-- The operation of an instruction, in the words of `print_rv`. -/
def opcodeName : Rv32i.Instr → String
  | .lui .. => "LUI   "
  | .auipc .. => "AUIPC "
  | .jal .. => "JAL   "
  | .jalr .. => "JALR  "
  | .branch c .. => match c with
    | .eq => "BEQ   "
    | .ne => "BNE   "
    | .lt => "BLT   "
    | .ge => "BGE   "
    | .ltu => "BLTU  "
    | .geu => "BGEU  "
  | .load w signed .. => match w, signed with
    | .byte, true => "LB    "
    | .half, true => "LH    "
    | .word, _ => "LW    "
    | .byte, false => "LBU   "
    | .half, false => "LHU   "
  | .store w .. => match w with
    | .byte => "SB    "
    | .half => "SH    "
    | .word => "SW    "
  | .opImm f .. => match f with
    | .add => "ADDI  "
    | .sub => "SUBI  "
    | .sll => "SLLI  "
    | .slt => "SLTI  "
    | .sltu => "SLTUI "
    | .xor => "XORI  "
    | .srl => "SRLI  "
    | .sra => "SRAI  "
    | .or => "ORI   "
    | .and => "ANDI  "
  | .op f .. => match f with
    | .add => "ADD   "
    | .sub => "SUB   "
    | .sll => "SLL   "
    | .slt => "SLT   "
    | .sltu => "SLTU  "
    | .xor => "XOR   "
    | .srl => "SRL   "
    | .sra => "SRA   "
    | .or => "OR    "
    | .and => "AND   "

/-- The registers of an instruction, in the order in which they are printed. -/
def registers : Rv32i.Instr → List (BitVec 5)
  | .lui rd _ => [rd]
  | .auipc rd _ => [rd]
  | .jal rd _ => [rd]
  | .jalr rd rs1 _ => [rd, rs1]
  | .branch _ rs1 rs2 _ => [rs1, rs2]
  | .load _ _ rd rs1 _ => [rd, rs1]
  | .store _ rs1 rs2 _ => [rs2, rs1]
  | .opImm _ rd rs1 _ => [rd, rs1]
  | .op _ rd rs1 rs2 => [rd, rs1, rs2]

/-- The immediate that the core uses: what a shift shifts by, the upper 20 bits of a
`LUI`, and else the output of `decode_imm`. -/
def usedImm (dc : DontCare) (i : Insn) : Option ℤ :=
  if i.op = opOp then none
  else if i.op = opOpimm ∧ (i.f3 = f3Sl ∨ i.f3 = f3Sr) then
    some ((decodeImm dc i).setWidth 5).toNat
  else if i.op = opLui then some (decodeImm dc i >>> 12).toNat
  else if i.op = opAuipc then some (decodeImm dc i).toNat
  else some (decodeImm dc i).toInt

/-- The line that says what the core does with an instruction. -/
def coreLine (dc : DontCare) (i : Insn) (instr : Rv32i.Instr) : Line :=
  ⟨opcodeName instr, registers instr, usedImm dc i⟩

/-- `SRAI`. -/
def IsSrai : Rv32i.Instr → Prop
  | .opImm .sra .. => True
  | _ => False

namespace Disassembly

variable {w : BitVec 32} {dc : DontCare}

/-! ## Immediates -/

theorem getLsbD_dup (n : ℕ) (b : Bool) (k : ℕ) : (dup n b).getLsbD k = (decide (k < n) && b) := by
  cases b
  · exact BitVec.getLsbD_zero.trans (Bool.and_false _).symm
  · exact BitVec.getLsbD_allOnes.trans (Bool.and_true _).symm

/-- The sign of a concatenation is the sign of its upper part. -/
theorem signExtend_append {k n m : ℕ} (x : BitVec (k + 1)) (y : BitVec n) :
    (x ++ y).signExtend (m + n) = x.signExtend m ++ y := by
  have hmsb : (x ++ y).msb = x.msb := by
    rw [BitVec.msb_append, if_neg (Nat.succ_ne_zero k)]
  refine BitVec.eq_of_getLsbD_eq fun j hj ↦ ?_
  rw [BitVec.getLsbD_append, BitVec.getLsbD_signExtend, BitVec.getLsbD_signExtend,
    BitVec.getLsbD_append, hmsb, decide_eq_true hj, Bool.true_and]
  by_cases hlt : j < n
  · rw [if_pos hlt, if_pos hlt, if_pos (Nat.lt_add_left _ hlt)]
  · have hm : j - n < m := by omega
    have hiff : j < k + 1 + n ↔ j - n < k + 1 := by omega
    rw [if_neg hlt, if_neg hlt, decide_eq_true hm, Bool.true_and]
    exact if_congr hiff rfl rfl

theorem signExtend_sign (w : BitVec 32) (m : ℕ) :
    (w.extractLsb' 31 1).signExtend m = dup m (w.getLsbD 31) := by
  refine BitVec.eq_of_getLsbD_eq fun k hk ↦ ?_
  rw [BitVec.getLsbD_signExtend, getLsbD_dup, BitVec.msb_eq_getLsbD_last]
  rcases Nat.eq_zero_or_pos k with rfl | hpos
  · rw [if_pos Nat.one_pos, BitVec.getLsbD_extractLsb']
    rfl
  · rw [if_neg (Nat.not_lt.mpr hpos), BitVec.getLsbD_extractLsb']
    rfl

theorem immI_eq (w : BitVec 32) : immI w = (Rv32i.immI w).toInt :=
  (BitVec.toInt_signExtend_of_le (by decide)).symm

theorem immS_eq (w : BitVec 32) : immS w = (Rv32i.immS w).toInt := by
  have hfield : w.extractLsb' 25 7 = w.extractLsb' 31 1 ++ w.extractLsb' 25 6 :=
    (BitVec.extractLsb'_append_extractLsb'_eq_extractLsb' (show 31 = 25 + 6 from rfl)).symm
  refine congrArg BitVec.toInt (Eq.symm ?_)
  calc (w.extractLsb' 25 7 ++ w.extractLsb' 7 5).signExtend 32
    _ = (w.extractLsb' 25 7).signExtend 27 ++ w.extractLsb' 7 5 :=
      signExtend_append (m := 27) _ _
    _ = (w.extractLsb' 31 1 ++ w.extractLsb' 25 6).signExtend 27 ++ w.extractLsb' 7 5 := by
      rw [hfield]
    _ = (w.extractLsb' 31 1).signExtend 21 ++ w.extractLsb' 25 6 ++ w.extractLsb' 7 5 :=
      congrArg (· ++ w.extractLsb' 7 5) (signExtend_append (m := 21) _ _)
    _ = _ := by rw [signExtend_sign]

theorem immB_eq (w : BitVec 32) : immB w = (Rv32i.immB w).toInt := by
  refine congrArg BitVec.toInt (Eq.symm ?_)
  calc (w.extractLsb' 31 1 ++ w.extractLsb' 7 1 ++ w.extractLsb' 25 6 ++ w.extractLsb' 8 4 ++
        0#1).signExtend 32
    _ = (w.extractLsb' 31 1 ++ w.extractLsb' 7 1 ++ w.extractLsb' 25 6 ++
        w.extractLsb' 8 4).signExtend 31 ++ 0#1 := signExtend_append (m := 31) _ _
    _ = (w.extractLsb' 31 1 ++ w.extractLsb' 7 1 ++ w.extractLsb' 25 6).signExtend 27 ++
        w.extractLsb' 8 4 ++ 0#1 :=
      congrArg (· ++ 0#1) (signExtend_append (m := 27) _ _)
    _ = (w.extractLsb' 31 1 ++ w.extractLsb' 7 1).signExtend 21 ++ w.extractLsb' 25 6 ++
        w.extractLsb' 8 4 ++ 0#1 :=
      congrArg (· ++ w.extractLsb' 8 4 ++ 0#1) (signExtend_append (m := 21) _ _)
    _ = (w.extractLsb' 31 1).signExtend 20 ++ w.extractLsb' 7 1 ++ w.extractLsb' 25 6 ++
        w.extractLsb' 8 4 ++ 0#1 :=
      congrArg (· ++ w.extractLsb' 25 6 ++ w.extractLsb' 8 4 ++ 0#1)
        (signExtend_append (m := 20) _ _)
    _ = _ := by rw [signExtend_sign]

theorem immJ_eq (w : BitVec 32) : immJ w = (Rv32i.immJ w).toInt := by
  refine congrArg BitVec.toInt (Eq.symm ?_)
  calc (w.extractLsb' 31 1 ++ w.extractLsb' 12 8 ++ w.extractLsb' 20 1 ++ w.extractLsb' 21 10 ++
        0#1).signExtend 32
    _ = (w.extractLsb' 31 1 ++ w.extractLsb' 12 8 ++ w.extractLsb' 20 1 ++
        w.extractLsb' 21 10).signExtend 31 ++ 0#1 := signExtend_append (m := 31) _ _
    _ = (w.extractLsb' 31 1 ++ w.extractLsb' 12 8 ++ w.extractLsb' 20 1).signExtend 21 ++
        w.extractLsb' 21 10 ++ 0#1 :=
      congrArg (· ++ 0#1) (signExtend_append (m := 21) _ _)
    _ = (w.extractLsb' 31 1 ++ w.extractLsb' 12 8).signExtend 20 ++ w.extractLsb' 20 1 ++
        w.extractLsb' 21 10 ++ 0#1 :=
      congrArg (· ++ w.extractLsb' 21 10 ++ 0#1) (signExtend_append (m := 20) _ _)
    _ = (w.extractLsb' 31 1).signExtend 12 ++ w.extractLsb' 12 8 ++ w.extractLsb' 20 1 ++
        w.extractLsb' 21 10 ++ 0#1 :=
      congrArg (· ++ w.extractLsb' 20 1 ++ w.extractLsb' 21 10 ++ 0#1)
        (signExtend_append (m := 12) _ _)
    _ = _ := by rw [signExtend_sign]

theorem immU_eq (w : BitVec 32) : immU w = Rv32i.immU w := by
  refine BitVec.eq_of_getLsbD_eq fun k hk ↦ ?_
  rw [immU, Rv32i.immU, BitVec.getLsbD_append, BitVec.getLsbD_shiftLeft, BitVec.getLsbD_setWidth,
    BitVec.getLsbD_zero, decide_eq_true hk, Bool.true_and]
  by_cases hlt : k < 12
  · rw [if_pos hlt, decide_eq_true hlt]
    rfl
  · have h32 : k - 12 < 32 := by omega
    rw [if_neg hlt, decide_eq_false hlt, decide_eq_true h32, Bool.true_and]
    rfl

/-- A `LUI` prints the field itself. -/
theorem immU_ushiftRight (w : BitVec 32) :
    (Rv32i.immU w >>> 12).toNat = (w.extractLsb' 12 20).toNat := by
  rw [Rv32i.immU, BitVec.toNat_ushiftRight, BitVec.toNat_append, BitVec.toNat_zero, Nat.or_zero,
    Nat.shiftLeft_shiftRight]

/-- A reader puts sign and absolute value together again. -/
theorem immOf_signed (imm : ℤ) (l : List Piece) : Line.immOf (signed imm ++ l) = some imm := by
  have hread : Line.immOf (signed imm ++ l) =
      some (if (if imm < 0 then '-' else '+') = '-' then -(if imm < 0 then -imm else imm)
        else if imm < 0 then -imm else imm) := rfl
  rw [hread]
  split_ifs with hneg hchar hchar
  · rw [Int.neg_neg]
  · exact absurd rfl hchar
  · exact absurd hchar (by decide)
  · rfl

/-! ## Lines, class by class -/

/-- An opcode that ends in two ones gets to the `switch`. -/
theorem printRv_eq {o : BitVec 7} (h : w.extractLsb' 0 7 = o) (ho : o.extractLsb' 0 2 = 0b11#2) :
    printRv w = printOpcode w := by
  have hlow : w.extractLsb' 0 2 = 0b11#2 := by
    rw [← ho, ← h, BitVec.extractLsb'_extractLsb'_of_le (by decide)]
  have h0 : w ≠ 0#32 := by
    rintro rfl
    exact absurd hlow (by decide)
  rw [printRv, if_neg h0, if_neg (not_not.mpr hlow)]

theorem usedImm_of_op {i : Insn} {o : BitVec 7} (h : i.op = o)
    (ho : o ≠ opOp ∧ o ≠ opOpimm ∧ o ≠ opLui ∧ o ≠ opAuipc) :
    usedImm dc i = some (decodeImm dc i).toInt := by
  subst h
  obtain ⟨hop, himm, hlui, hauipc⟩ := ho
  rw [usedImm, if_neg hop, if_neg fun hi ↦ himm hi.1, if_neg hlui, if_neg hauipc]

theorem load (h : w.extractLsb' 0 7 = opLoad) {l : Rv32i.Width × Bool}
    (hl : Rv32i.loadOf (w.extractLsb' 12 3) = some l) :
    Line.read (printRv w) = coreLine dc ⟨w⟩
      (.load l.1 l.2 (w.extractLsb' 7 5) (w.extractLsb' 15 5) (Rv32i.immI w)) := by
  have hread : Line.read (printRv w) = ⟨loadName (w.extractLsb' 12 3),
      [w.extractLsb' 7 5, w.extractLsb' 15 5], some (immI w)⟩ := by
    rw [printRv_eq h rfl, printOpcode, h, ← immOf_signed (immI w) [.text "]"]]
    rfl
  have hname : loadName (w.extractLsb' 12 3) = opcodeName
      (.load l.1 l.2 (w.extractLsb' 7 5) (w.extractLsb' 15 5) (Rv32i.immI w)) := by
    obtain ⟨width, signed⟩ := l
    obtain ⟨hs, rfl⟩ | ⟨hf, rfl, rfl⟩ | ⟨hf, rfl, rfl⟩ := Rv32i.eq_of_loadOf hl
    · obtain ⟨hf, rfl⟩ | ⟨hf, rfl⟩ | ⟨hf, rfl⟩ := Rv32i.eq_of_storeOf hs <;> rw [hf] <;> rfl
    · rw [hf]
      rfl
    · rw [hf]
      rfl
  have himm : usedImm dc ⟨w⟩ = some (immI w) := by
    rw [usedImm_of_op (i := ⟨w⟩) h (by decide), Executes.decodeImm_immI (.inl h), immI_eq]
  rw [hread, coreLine, hname, himm]
  rfl

theorem store (h : w.extractLsb' 0 7 = opStore) {s : Rv32i.Width}
    (hs : Rv32i.storeOf (w.extractLsb' 12 3) = some s) :
    Line.read (printRv w) = coreLine dc ⟨w⟩
      (.store s (w.extractLsb' 15 5) (w.extractLsb' 20 5) (Rv32i.immS w)) := by
  have hread : Line.read (printRv w) = ⟨storeName (w.extractLsb' 12 3),
      [w.extractLsb' 20 5, w.extractLsb' 15 5], some (immS w)⟩ := by
    rw [printRv_eq h rfl, printOpcode, h, ← immOf_signed (immS w) [.text "]"]]
    rfl
  have hname : storeName (w.extractLsb' 12 3) = opcodeName
      (.store s (w.extractLsb' 15 5) (w.extractLsb' 20 5) (Rv32i.immS w)) := by
    obtain ⟨hf, rfl⟩ | ⟨hf, rfl⟩ | ⟨hf, rfl⟩ := Rv32i.eq_of_storeOf hs <;> rw [hf] <;> rfl
  have himm : usedImm dc ⟨w⟩ = some (immS w) := by
    rw [usedImm_of_op (i := ⟨w⟩) h (by decide), immS_eq, decodeImm, Insn.op, h]
    rfl
  rw [hread, coreLine, hname, himm]
  rfl

theorem branch (h : w.extractLsb' 0 7 = opBranch) {c : Rv32i.Cond}
    (hc : Rv32i.condOf (w.extractLsb' 12 3) = some c) :
    Line.read (printRv w) = coreLine dc ⟨w⟩
      (.branch c (w.extractLsb' 15 5) (w.extractLsb' 20 5) (Rv32i.immB w)) := by
  have hread : Line.read (printRv w) = ⟨branchName (w.extractLsb' 12 3),
      [w.extractLsb' 15 5, w.extractLsb' 20 5], some (immB w)⟩ := by
    rw [printRv_eq h rfl, printOpcode, h, ← immOf_signed (immB w) []]
    rfl
  have hname : branchName (w.extractLsb' 12 3) = opcodeName
      (.branch c (w.extractLsb' 15 5) (w.extractLsb' 20 5) (Rv32i.immB w)) := by
    obtain ⟨hf, rfl⟩ | ⟨hf, rfl⟩ | ⟨hf, rfl⟩ | ⟨hf, rfl⟩ | ⟨hf, rfl⟩ | ⟨hf, rfl⟩ :=
      Rv32i.eq_of_condOf hc <;> rw [hf] <;> rfl
  have himm : usedImm dc ⟨w⟩ = some (immB w) := by
    rw [usedImm_of_op (i := ⟨w⟩) h (by decide), immB_eq, decodeImm, Insn.op, h]
    rfl
  rw [hread, coreLine, hname, himm]
  rfl

theorem jal (h : w.extractLsb' 0 7 = opJal) :
    Line.read (printRv w) = coreLine dc ⟨w⟩ (.jal (w.extractLsb' 7 5) (Rv32i.immJ w)) := by
  have hread : Line.read (printRv w) = ⟨"JAL   ", [w.extractLsb' 7 5], some (immJ w)⟩ := by
    rw [printRv_eq h rfl, printOpcode, h, ← immOf_signed (immJ w) [.text "]"]]
    rfl
  have himm : usedImm dc ⟨w⟩ = some (immJ w) := by
    rw [usedImm_of_op (i := ⟨w⟩) h (by decide), immJ_eq, decodeImm, Insn.op, h]
    rfl
  rw [hread, coreLine, himm]
  rfl

theorem jalr (h : w.extractLsb' 0 7 = opJalr) :
    Line.read (printRv w) = coreLine dc ⟨w⟩
      (.jalr (w.extractLsb' 7 5) (w.extractLsb' 15 5) (Rv32i.immI w)) := by
  have hread : Line.read (printRv w) = ⟨"JALR  ", [w.extractLsb' 7 5, w.extractLsb' 15 5],
      some (immI w)⟩ := by
    rw [printRv_eq h rfl, printOpcode, h, ← immOf_signed (immI w) [.text "]"]]
    rfl
  have himm : usedImm dc ⟨w⟩ = some (immI w) := by
    rw [usedImm_of_op (i := ⟨w⟩) h (by decide), Executes.decodeImm_immI (.inr (.inr h)), immI_eq]
  rw [hread, coreLine, himm]
  rfl

theorem lui (h : w.extractLsb' 0 7 = opLui) :
    Line.read (printRv w) = coreLine dc ⟨w⟩ (.lui (w.extractLsb' 7 5) (Rv32i.immU w)) := by
  have hread : Line.read (printRv w) = ⟨"LUI   ", [w.extractLsb' 7 5],
      some (w.extractLsb' 12 20).toNat⟩ := by
    rw [printRv_eq h rfl, printOpcode, h]
    rfl
  have himm : usedImm dc ⟨w⟩ = some ((w.extractLsb' 12 20).toNat : ℤ) := by
    rw [usedImm, Executes.decodeImm_immU (.inl h), ← immU_ushiftRight, Insn.op, h]
    rfl
  rw [hread, coreLine, himm]
  rfl

theorem auipc (h : w.extractLsb' 0 7 = opAuipc) :
    Line.read (printRv w) = coreLine dc ⟨w⟩ (.auipc (w.extractLsb' 7 5) (Rv32i.immU w)) := by
  have hread : Line.read (printRv w) = ⟨"AUIPC ", [w.extractLsb' 7 5], some (immU w).toNat⟩ := by
    rw [printRv_eq h rfl, printOpcode, h]
    rfl
  have himm : usedImm dc ⟨w⟩ = some ((immU w).toNat : ℤ) := by
    rw [usedImm, Executes.decodeImm_immU (.inr h), immU_eq, Insn.op, h]
    rfl
  rw [hread, coreLine, himm]
  rfl

theorem getLsbD_thirty (w : BitVec 32) :
    w.getLsbD 30 = (w.extractLsb' 25 7).getLsbD 5 := by
  rw [BitVec.getLsbD_extractLsb']
  rfl

theorem opName_of_opOf {f : Rv32i.Alu} {rd rs1 rs2 : BitVec 5}
    (hf : Rv32i.opOf (w.extractLsb' 12 3) (w.extractLsb' 25 7) = some f) :
    opName w (w.extractLsb' 12 3) = opcodeName (.op f rd rs1 rs2) := by
  rw [opName, getLsbD_thirty]
  obtain ⟨h3, h7, rfl⟩ | hs | ⟨hi, h7⟩ := Rv32i.eq_of_opOf hf
  · rw [h3, h7]
    rfl
  · obtain ⟨h3, h7, rfl⟩ | ⟨h3, h7, rfl⟩ | ⟨h3, h7, rfl⟩ := Rv32i.eq_of_shiftOf hs <;>
      rw [h3, h7] <;> rfl
  · rw [h7] at hi ⊢
    obtain ⟨h3, rfl⟩ | ⟨h3, rfl⟩ | ⟨h3, rfl⟩ | ⟨h3, rfl⟩ | ⟨h3, rfl⟩ | ⟨h3, rfl⟩ | hs :=
      Rv32i.eq_of_opImmOf hi
    on_goal 7 =>
      obtain ⟨h3, -, rfl⟩ | ⟨h3, -, rfl⟩ | ⟨-, h7', -⟩ := Rv32i.eq_of_shiftOf hs
      on_goal 3 => exact absurd h7' (by decide)
    all_goals
      rw [h3]
      rfl

theorem op (h : w.extractLsb' 0 7 = opOp) {f : Rv32i.Alu}
    (hf : Rv32i.opOf (w.extractLsb' 12 3) (w.extractLsb' 25 7) = some f) :
    Line.read (printRv w) = coreLine dc ⟨w⟩
      (.op f (w.extractLsb' 7 5) (w.extractLsb' 15 5) (w.extractLsb' 20 5)) := by
  have hread : Line.read (printRv w) = ⟨opName w (w.extractLsb' 12 3),
      [w.extractLsb' 7 5, w.extractLsb' 15 5, w.extractLsb' 20 5], none⟩ := by
    rw [printRv_eq h rfl, printOpcode, h]
    rfl
  have himm : usedImm dc ⟨w⟩ = none := if_pos h
  rw [hread, coreLine, opName_of_opOf hf, himm]
  rfl

/-! ## `OP-IMM` -/

theorem opimmName_of_opImmOf {f : Rv32i.Alu} {rd rs1 : BitVec 5} {imm : BitVec 32}
    (hf : Rv32i.opImmOf (w.extractLsb' 12 3) (w.extractLsb' 25 7) = some f) :
    opimmName w (w.extractLsb' 12 3) = opcodeName (.opImm f rd rs1 imm) := by
  rw [opimmName, getLsbD_thirty]
  obtain ⟨h3, rfl⟩ | ⟨h3, rfl⟩ | ⟨h3, rfl⟩ | ⟨h3, rfl⟩ | ⟨h3, rfl⟩ | ⟨h3, rfl⟩ | hs :=
    Rv32i.eq_of_opImmOf hf
  on_goal 7 =>
    obtain ⟨h3, h7, rfl⟩ | ⟨h3, h7, rfl⟩ | ⟨h3, h7, rfl⟩ := Rv32i.eq_of_shiftOf hs <;>
      rw [h3, h7] <;> rfl
  all_goals
    rw [h3]
    rfl

theorem read_opImm (h : w.extractLsb' 0 7 = opOpimm) :
    Line.read (printRv w) = ⟨opimmName w (w.extractLsb' 12 3),
      [w.extractLsb' 7 5, w.extractLsb' 15 5], some (immI w)⟩ := by
  rw [printRv_eq h rfl, printOpcode, h]
  rfl

/-- The immediate field of a shift is `funct7` and the shift amount. -/
theorem immI_of_f7 {f7 : ℕ} (h : (w.extractLsb' 25 7).toNat = f7) (hf7 : f7 < 64) :
    immI w = ((32 * f7 + (w.extractLsb' 20 5).toNat : ℕ) : ℤ) := by
  have hfield : w.extractLsb' 20 12 = w.extractLsb' 25 7 ++ w.extractLsb' 20 5 :=
    (BitVec.extractLsb'_append_extractLsb'_eq_extractLsb' (show 25 = 20 + 5 from rfl)).symm
  have hshamt := (w.extractLsb' 20 5).isLt
  have hnat : (w.extractLsb' 20 12).toNat = 32 * f7 + (w.extractLsb' 20 5).toNat := by
    rw [hfield, BitVec.toNat_append, ← Nat.shiftLeft_add_eq_or_of_lt hshamt, h,
      Nat.shiftLeft_eq, Nat.mul_comm]
  rw [immI, BitVec.toInt_eq_toNat_of_lt, hnat]
  rw [hnat]
  omega

theorem setWidth_immI (w : BitVec 32) :
    (Rv32i.immI w).setWidth 5 = w.extractLsb' 20 5 := by
  refine BitVec.eq_of_getLsbD_eq fun k hk ↦ ?_
  have h12 : k < 12 := by omega
  have h32 : k < 32 := by omega
  rw [BitVec.getLsbD_setWidth, Rv32i.immI, BitVec.getLsbD_signExtend, BitVec.getLsbD_extractLsb',
    BitVec.getLsbD_extractLsb', if_pos h12, decide_eq_true hk, decide_eq_true h32,
    decide_eq_true h12, Bool.true_and, Bool.true_and]

theorem usedImm_of_shift (h : w.extractLsb' 0 7 = opOpimm)
    (hf3 : w.extractLsb' 12 3 = f3Sl ∨ w.extractLsb' 12 3 = f3Sr) :
    usedImm dc ⟨w⟩ = some ((w.extractLsb' 20 5).toNat : ℤ) := by
  have hop : (⟨w⟩ : Insn).op ≠ opOp := by
    rw [Insn.op, h]
    decide
  rw [usedImm, if_neg hop, if_pos ⟨h, hf3⟩, Executes.decodeImm_immI (.inr (.inl h)), setWidth_immI]

theorem usedImm_of_not_shift (h : w.extractLsb' 0 7 = opOpimm)
    (hf3 : ¬(w.extractLsb' 12 3 = f3Sl ∨ w.extractLsb' 12 3 = f3Sr)) :
    usedImm dc ⟨w⟩ = some (immI w) := by
  have hne : ∀ o, o ≠ opOpimm → (⟨w⟩ : Insn).op ≠ o := by
    intro o ho heq
    exact ho (heq.symm.trans h)
  rw [usedImm, if_neg (hne _ (by decide)), if_neg fun hs ↦ hf3 hs.2, if_neg (hne _ (by decide)),
    if_neg (hne _ (by decide)), Executes.decodeImm_immI (.inr (.inl h)), immI_eq]

/-- The operation bit of an `SRAI` is printed as part of its shift amount. -/
theorem immI_eq_usedImm_iff (h : w.extractLsb' 0 7 = opOpimm) {f : Rv32i.Alu}
    (hf : Rv32i.opImmOf (w.extractLsb' 12 3) (w.extractLsb' 25 7) = some f) :
    some (immI w) = usedImm dc ⟨w⟩ ↔ f ≠ .sra := by
  have hplain : ∀ f3 : BitVec 3, ¬(f3 = f3Sl ∨ f3 = f3Sr) → w.extractLsb' 12 3 = f3 →
      some (immI w) = usedImm dc ⟨w⟩ := by
    intro f3 hne heq
    rw [usedImm_of_not_shift h (heq ▸ hne)]
  obtain ⟨h3, rfl⟩ | ⟨h3, rfl⟩ | ⟨h3, rfl⟩ | ⟨h3, rfl⟩ | ⟨h3, rfl⟩ | ⟨h3, rfl⟩ | hs :=
    Rv32i.eq_of_opImmOf hf
  on_goal 7 =>
    obtain ⟨h3, h7, rfl⟩ | ⟨h3, h7, rfl⟩ | ⟨h3, h7, rfl⟩ := Rv32i.eq_of_shiftOf hs
    · rw [usedImm_of_shift h (.inl h3), @immI_of_f7 w 0 (by rw [h7]; rfl) (by decide),
        Nat.mul_zero, Nat.zero_add]
      exact iff_of_true rfl nofun
    · rw [usedImm_of_shift h (.inr h3), @immI_of_f7 w 0 (by rw [h7]; rfl) (by decide),
        Nat.mul_zero, Nat.zero_add]
      exact iff_of_true rfl nofun
    · rw [usedImm_of_shift h (.inr h3), @immI_of_f7 w 32 (by rw [h7]; rfl) (by decide)]
      refine iff_of_false (fun heq ↦ ?_) fun hne ↦ hne rfl
      have := Int.ofNat_inj.mp (Option.some.inj heq)
      omega
  all_goals exact iff_of_true (hplain _ (by decide) h3) nofun

theorem isSrai_opImm {f : Rv32i.Alu} {rd rs1 : BitVec 5} {imm : BitVec 32} :
    IsSrai (.opImm f rd rs1 imm) ↔ f = .sra := by
  cases f <;> simp [IsSrai]

theorem opImm (h : w.extractLsb' 0 7 = opOpimm) {f : Rv32i.Alu}
    (hf : Rv32i.opImmOf (w.extractLsb' 12 3) (w.extractLsb' 25 7) = some f) :
    Line.read (printRv w) = coreLine dc ⟨w⟩
      (.opImm f (w.extractLsb' 7 5) (w.extractLsb' 15 5) (Rv32i.immI w)) ↔ f ≠ .sra := by
  rw [← @immI_eq_usedImm_iff w dc h f hf, read_opImm h, coreLine, opimmName_of_opImmOf hf,
    Line.mk.injEq]
  exact ⟨fun heq ↦ heq.2.2, fun heq ↦ ⟨rfl, rfl, heq⟩⟩

/-- **The disassembler agrees with the core** on every instruction but `SRAI`.  The core
executes the instruction that the word encodes, and what `print_rv` prints of it is what
the core does, except that `SRAI` is printed with its operation bit in the shift amount. -/
theorem agrees_iff {w : BitVec 32} {instr : Rv32i.Instr}
    (hd : Rv32i.decode w = some instr) (dc : DontCare) :
    (∀ (db : ℕ) (mem : BitVec db → BitVec 32) (t : Thread), Inside t.toHart instr = true →
      Executes dc mem t ⟨w⟩ (instr.exec t.toHart (ramBytes mem))) ∧
    (Line.read (printRv w) = coreLine dc ⟨w⟩ instr ↔ ¬IsSrai instr) := by
  refine ⟨fun db mem t hin ↦ Executes.of_decode (i := ⟨w⟩) hd hin, ?_⟩
  cases Rv32i.encodes_of_decode hd with
  | lui h => exact iff_of_true (lui h) not_false
  | auipc h => exact iff_of_true (auipc h) not_false
  | jal h => exact iff_of_true (jal h) not_false
  | jalr h => exact iff_of_true (jalr h) not_false
  | branch h hc => exact iff_of_true (branch h hc) not_false
  | load h hl => exact iff_of_true (load h hl) not_false
  | store h hs => exact iff_of_true (store h hs) not_false
  | opImm h hf => exact (opImm h hf).trans (not_congr isSrai_opImm.symm)
  | op h hf => exact iff_of_true (op h hf) not_false

/-- `bne x1, x2, -4096` is printed with the most negative offset there is. -/
theorem agrees_bne : Line.read (printRv 0x80209063#32) = ⟨"BNE   ", [1#5, 2#5], some (-4096)⟩ :=
  ((agrees_iff (w := 0x80209063#32) rfl (DontCare.const 0#32)).2.mpr not_false).trans rfl

example : String.join ((printRv 0x80209063#32).map Piece.print) = "BNE   r01, r02, -4096" := by
  decide

/-- `srai x2, x1, 5` is printed as a shift by 1029. -/
theorem srai_shows_operation_bit :
    Rv32i.decode 0x4050D113#32 = some (.opImm .sra 2#5 1#5 0x405#32) ∧
      printRv 0x4050D113#32 = [.text "SRAI  ", .reg 2#5, .text ", ", .reg 1#5, .text ", ",
        .dec 1029] ∧
      usedImm (DontCare.const 0#32) ⟨0x4050D113#32⟩ = some 5 ∧
      Line.read (printRv 0x4050D113#32) ≠
        coreLine (DontCare.const 0#32) ⟨0x4050D113#32⟩ (.opImm .sra 2#5 1#5 0x405#32) := by
  decide

end Disassembly

end Pinwheel
