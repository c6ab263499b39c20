import Mathlib.Data.List.Nodup
import Pinwheel.Lib.Numerals
import Pinwheel.Lib.Readable
import Pinwheel.Pipeline.Disassembly

/-!
# Reading the disassembler

What `print_rv(d, op); d("\n")` prints of a word can be told from whatever is printed
behind it, although the numbers in it are as long as they need to be: the operation is told
by the first six characters, and what follows them has the form that the operation has.
-/

namespace Pinwheel

open RV32I Rvdisasm

/-- What `print_rv` prints of a word, with the end of the line. -/
def ended (w : BitVec 32) : List Piece := printRv w ++ [.text "\n"]

/-- An instruction of RV32I or an access to a control and status register. -/
def Named (w : BitVec 32) : Prop :=
  (Rv32i.decode w).isSome = true ∨
    w.extractLsb' 0 7 = opSystem ∧ w.extractLsb' 12 3 ≠ 0#3 ∧ w.extractLsb' 12 3 ≠ 4#3

instance (w : BitVec 32) : Decidable (Named w) := inferInstanceAs (Decidable (_ ∨ _ ∧ _ ∧ _))

/-- An instruction, or a word that was never written. -/
def Known (w : BitVec 32) : Prop := Named w ∨ w = 0#32

instance (w : BitVec 32) : Decidable (Known w) := inferInstanceAs (Decidable (_ ∨ _))

namespace Piece

/-! ## Pieces -/

def chars (p : Piece) : List Char := p.print.toList

/-- The value of a digit. -/
def digitValue (c : Char) : ℕ := if c.isDigit then c.toNat - 48 else c.toNat - 87

theorem digitValue_digitChar : ∀ d < 16, digitValue (Nat.digitChar d) = d := by decide

/-- Zeros in front of a number do not change it. -/
theorem zeroPadded_injective {b : ℕ} (hb : 1 < b) (hb' : b ≤ 16) (k : ℕ) :
    Function.Injective fun n ↦ (zeroPadded k (Nat.toDigits b n)).toList := by
  have hval : ∀ n, Numerals.value b ((zeroPadded k (Nat.toDigits b n)).toList.map digitValue) =
      n := by
    intro n
    rw [zeroPadded, String.toList_ofList, List.map_append, List.map_replicate,
      show digitValue '0' = 0 from rfl, Numerals.value_replicate_zero]
    exact Numerals.value_toDigits (fun d hd ↦ digitValue_digitChar d (by omega)) hb n
  intro n n' h
  rw [← hval n, ← hval n']
  exact congrArg (fun cs ↦ Numerals.value b (cs.map digitValue)) h

theorem length_zeroPadded {b k n : ℕ} (hb : 1 < b) (hk : 0 < k) (hn : n < b ^ k) :
    (zeroPadded k (Nat.toDigits b n)).toList.length = k := by
  have hlen : (Nat.toDigits b n).length ≤ k := (Nat.length_toDigits_le_iff hb hk).mpr hn
  rw [zeroPadded, String.toList_ofList, List.length_append, List.length_replicate]
  omega

theorem readable_reg : Readable Set.univ fun n ↦ (reg n).chars := by
  have hchars : ∀ n, (reg n).chars = 'r' :: (zeroPadded 2 (Nat.toDigits 10 n.toNat)).toList :=
    fun n ↦ String.toList_append
  refine Readable.of_length (k := 3) (fun n _ n' _ h ↦ ?_) fun n _ ↦ ?_
  · simp only [hchars] at h
    exact BitVec.eq_of_toNat_eq
      (zeroPadded_injective (by decide) (by decide) 2 (List.cons.inj h).2)
  · rw [hchars, List.length_cons,
      length_zeroPadded (by decide) (by decide) (Nat.lt_trans n.isLt (by decide))]

theorem readable_hex {k : ℕ} (hk : 0 < k) : Readable {n | n < 16 ^ k} fun n ↦ (hex k n).chars :=
  Readable.of_length ((zeroPadded_injective (by decide) (by decide) k).injOn)
    fun _ hn ↦ length_zeroPadded (by decide) hk hn

theorem chars_dec_ofNat (m : ℕ) : (dec (Int.ofNat m)).chars = Nat.toDigits 10 m := by
  simp [chars, print, Int.repr]

theorem chars_dec_negSucc (m : ℕ) :
    (dec (Int.negSucc m)).chars = '-' :: Nat.toDigits 10 (m + 1) := by
  simp [chars, print, Int.repr]

theorem toDigits_injective : Function.Injective (Nat.toDigits 10) := by
  have hval : ∀ n, Numerals.value 10 ((Nat.toDigits 10 n).map digitValue) = n :=
    Numerals.value_toDigits (fun d hd ↦ digitValue_digitChar d (by omega)) (by decide)
  intro n n' h
  rw [← hval n, h, hval n']

theorem minus_not_mem_toDigits (n : ℕ) : '-' ∉ Nat.toDigits 10 n := fun h ↦
  absurd (Nat.isDigit_of_mem_toDigits (by decide) (by decide) h) (by decide)

theorem chars_dec_injective : Function.Injective fun n ↦ (dec n).chars := by
  intro n n' h
  cases n <;> cases n' <;> simp only [chars_dec_ofNat, chars_dec_negSucc] at h
  case ofNat.ofNat m m' => rw [toDigits_injective h]
  case ofNat.negSucc m m' => exact absurd (h ▸ List.mem_cons_self) (minus_not_mem_toDigits m)
  case negSucc.ofNat m m' => exact absurd (h ▸ List.mem_cons_self) (minus_not_mem_toDigits m')
  case negSucc.negSucc m m' =>
    rw [Nat.succ.inj (toDigits_injective (List.cons.inj h).2)]

/-- A character of a number in decimals. -/
def inDecimal (c : Char) : Bool := c.isDigit || c == '-'

theorem inDecimal_of_mem {n : ℤ} : ∀ c ∈ (dec n).chars, inDecimal c = true := by
  have hdigit : ∀ m, ∀ c ∈ Nat.toDigits 10 m, inDecimal c = true := fun m c hc ↦ by
    rw [inDecimal, Nat.isDigit_of_mem_toDigits (by decide) (by decide) hc, Bool.true_or]
  intro c h
  cases n with
  | ofNat m =>
    rw [chars_dec_ofNat] at h
    exact hdigit m c h
  | negSucc m =>
    rw [chars_dec_negSucc] at h
    obtain rfl | hc := List.mem_cons.mp h
    · rfl
    · exact hdigit _ c hc

/-! ## Forms -/

/-- What is printed of some pieces. -/
def printed (l : List Piece) : List Char := l.flatMap chars

/-- Two lists of pieces that the same format prints, up to texts of one length: a number in
decimals ends where a text goes on that is none. -/
inductive SameForm : List Piece → List Piece → Prop
  | nil : SameForm [] []
  | text {s s' l l'} (h : s.toList.length = s'.toList.length) (hl : SameForm l l') :
    SameForm (.text s :: l) (.text s' :: l')
  | reg (n n') {l l'} (hl : SameForm l l') : SameForm (.reg n :: l) (.reg n' :: l')
  | char (c c') {l l'} (hl : SameForm l l') : SameForm (.char c :: l) (.char c' :: l')
  | hex {k n n' l l'} (hk : 0 < k) (hn : n < 16 ^ k) (hn' : n' < 16 ^ k) (hl : SameForm l l') :
    SameForm (.hex k n :: l) (.hex k n' :: l')
  | dec (n n') {s l l'} (hs : s.toList.head?.any (!inDecimal ·) = true) (hl : SameForm l l') :
    SameForm (.dec n :: .text s :: l) (.dec n' :: .text s :: l')

theorem printed_append (l l' : List Piece) : printed (l ++ l') = printed l ++ printed l' :=
  List.flatMap_append

theorem printed_cons_append (p : Piece) (l : List Piece) (r : List Char) :
    printed (p :: l) ++ r = p.chars ++ (printed l ++ r) := by
  rw [printed, List.flatMap_cons, List.append_assoc]
  rfl

/-- Pieces of one form can be read back, and what follows them too. -/
theorem SameForm.eq {l l' : List Piece} (h : SameForm l l') {r r' : List Char}
    (heq : printed l ++ r = printed l' ++ r') : l = l' ∧ r = r' := by
  induction h with
  | nil => exact ⟨rfl, heq⟩
  | text h _ ih =>
    rw [printed_cons_append, printed_cons_append] at heq
    obtain ⟨hs, hrest⟩ := List.append_inj heq h
    obtain ⟨rfl, rfl⟩ := ih hrest
    exact ⟨congrArg (Piece.text · :: _) (String.toList_inj.mp hs), rfl⟩
  | reg n n' _ ih =>
    rw [printed_cons_append, printed_cons_append] at heq
    obtain ⟨rfl, hrest⟩ := readable_reg (Set.mem_univ n) (Set.mem_univ n') _ _ heq
    obtain ⟨rfl, rfl⟩ := ih hrest
    exact ⟨rfl, rfl⟩
  | char c c' _ ih =>
    have hchars : ∀ c, (Piece.char c).chars = [c] := fun c ↦ String.toList_ofList
    rw [printed_cons_append, printed_cons_append, hchars, hchars] at heq
    obtain ⟨rfl, hrest⟩ := List.cons.inj heq
    obtain ⟨rfl, rfl⟩ := ih hrest
    exact ⟨rfl, rfl⟩
  | hex hk hn hn' _ ih =>
    rw [printed_cons_append, printed_cons_append] at heq
    obtain ⟨rfl, hrest⟩ := readable_hex hk hn hn' _ _ heq
    obtain ⟨rfl, rfl⟩ := ih hrest
    exact ⟨rfl, rfl⟩
  | @dec n n' s l l' hs _ ih =>
    rw [printed_cons_append, printed_cons_append, printed_cons_append, printed_cons_append,
      show (Piece.text s).chars = s.toList from rfl] at heq
    cases hlist : s.toList with
    | nil => rw [hlist] at hs; exact absurd hs (by decide)
    | cons c cs =>
      have hc : inDecimal c = false := by
        rw [hlist] at hs
        exact Bool.not_eq_true' _ ▸ hs
      rw [hlist] at heq
      obtain ⟨hn, hrest⟩ := Readable.append_stop inDecimal_of_mem inDecimal_of_mem hc hc heq
      obtain ⟨rfl, rfl⟩ := ih (List.append_cancel_left (List.cons.inj hrest).2)
      exact ⟨by rw [chars_dec_injective hn], rfl⟩

end Piece

namespace Listing

variable {w w' : BitVec 32} {i k m : ℕ}

/-! ## Fields -/

/-- Two words have the same bits from a bit on. -/
def SameBits (w w' : BitVec 32) (i k : ℕ) : Prop := w.extractLsb' i k = w'.extractLsb' i k

/-- Fields side by side. -/
theorem SameBits.append (h : SameBits w w' i k) (h' : SameBits w w' (i + k) m) :
    SameBits w w' i (m + k) := by
  have happend : ∀ v : BitVec 32, v.extractLsb' (i + k) m ++ v.extractLsb' i k =
      v.extractLsb' i (m + k) := fun v ↦ BitVec.extractLsb'_append_extractLsb'_eq_extractLsb' rfl
  rw [SameBits, ← happend w, ← happend w', h, h']

theorem SameBits.eq (h : SameBits w w' 0 32) : w = w' := by
  have hself : ∀ v : BitVec 32, v.extractLsb' 0 32 = v := fun v ↦ BitVec.extractLsb'_eq_self
  rw [← hself w, ← hself w', h]

theorem append_inj {x x' : BitVec k} {y y' : BitVec m} (h : x ++ y = x' ++ y') :
    x = x' ∧ y = y' := by
  constructor
  · rw [← @BitVec.extractLsb'_append_eq_left _ _ x y, h, BitVec.extractLsb'_append_eq_left]
  · rw [← @BitVec.extractLsb'_append_eq_right _ _ x y, h, BitVec.extractLsb'_append_eq_right]

/-- The copies of a bit of a word. -/
theorem sameBits_of_dup (h : dup (k + 1) (w.getLsbD i) = dup (k + 1) (w'.getLsbD i)) :
    SameBits w w' i 1 := by
  have hbit : ∀ (b : Bool), (dup (k + 1) b).getLsbD 0 = b := fun b ↦ by cases b <;> simp [dup]
  have h' : w.getLsbD i = w'.getLsbD i := by rw [← hbit (w.getLsbD i), h, hbit]
  refine BitVec.eq_of_getLsbD_eq fun j hj ↦ ?_
  obtain rfl : j = 0 := by omega
  simpa [BitVec.getLsbD_extractLsb'] using h'

theorem sameBits_immI (h : immI w = immI w') : SameBits w w' 20 12 := BitVec.toInt_inj.mp h

theorem sameBits_immS (h : immS w = immS w') : SameBits w w' 7 5 ∧ SameBits w w' 25 7 := by
  obtain ⟨h, hlow⟩ := append_inj (BitVec.toInt_inj.mp h)
  obtain ⟨hsign, hhigh⟩ := append_inj h
  exact ⟨hlow, SameBits.append hhigh (sameBits_of_dup hsign)⟩

theorem sameBits_immB (h : immB w = immB w') : SameBits w w' 7 5 ∧ SameBits w w' 25 7 := by
  obtain ⟨h, -⟩ := append_inj (BitVec.toInt_inj.mp h)
  obtain ⟨h, hlow⟩ := append_inj h
  obtain ⟨h, hhigh⟩ := append_inj h
  obtain ⟨hsign, heleven⟩ := append_inj h
  exact ⟨SameBits.append heleven hlow, SameBits.append hhigh (sameBits_of_dup hsign)⟩

theorem sameBits_immJ (h : immJ w = immJ w') : SameBits w w' 12 20 := by
  obtain ⟨h, -⟩ := append_inj (BitVec.toInt_inj.mp h)
  obtain ⟨h, hlow⟩ := append_inj h
  obtain ⟨h, heleven⟩ := append_inj h
  obtain ⟨hsign, hhigh⟩ := append_inj h
  exact SameBits.append (SameBits.append hhigh heleven)
    (SameBits.append hlow (sameBits_of_dup hsign))

theorem sameBits_immU (h : immU w = immU w') : SameBits w w' 12 20 := by
  have hshift : ∀ v : BitVec 32, (immU v >>> 12).setWidth 20 = v.extractLsb' 12 20 := fun v ↦ by
    refine BitVec.eq_of_getLsbD_eq fun j hj ↦ ?_
    have hj32 : 12 + j < 32 := by omega
    simp [immU, hj, hj32]
  rw [SameBits, ← hshift w, ← hshift w', h]

/-! ## Names -/

/-- An operation and the fields that its name stands for. -/
structure Entry where
  name : String
  opcode : BitVec 7
  f3 : BitVec 3
  f7 : BitVec 7
deriving DecidableEq

def table : List Entry :=
  [⟨"LB    ", opLoad, 0, 0⟩, ⟨"LH    ", opLoad, 1, 0⟩, ⟨"LW    ", opLoad, 2, 0⟩,
    ⟨"LBU   ", opLoad, 4, 0⟩, ⟨"LHU   ", opLoad, 5, 0⟩,
    ⟨"SB    ", opStore, 0, 0⟩, ⟨"SH    ", opStore, 1, 0⟩, ⟨"SW    ", opStore, 2, 0⟩,
    ⟨"ADD   ", opOp, 0, 0⟩, ⟨"SUB   ", opOp, 0, 32⟩, ⟨"SLL   ", opOp, 1, 0⟩,
    ⟨"SLT   ", opOp, 2, 0⟩, ⟨"SLTU  ", opOp, 3, 0⟩, ⟨"XOR   ", opOp, 4, 0⟩,
    ⟨"SRL   ", opOp, 5, 0⟩, ⟨"SRA   ", opOp, 5, 32⟩, ⟨"OR    ", opOp, 6, 0⟩,
    ⟨"AND   ", opOp, 7, 0⟩,
    ⟨"ADDI  ", opOpimm, 0, 0⟩, ⟨"SLLI  ", opOpimm, 1, 0⟩, ⟨"SLTI  ", opOpimm, 2, 0⟩,
    ⟨"SLTUI ", opOpimm, 3, 0⟩, ⟨"XORI  ", opOpimm, 4, 0⟩, ⟨"SRLI  ", opOpimm, 5, 0⟩,
    ⟨"SRAI  ", opOpimm, 5, 32⟩, ⟨"ORI   ", opOpimm, 6, 0⟩, ⟨"ANDI  ", opOpimm, 7, 0⟩,
    ⟨"BEQ   ", opBranch, 0, 0⟩, ⟨"BNE   ", opBranch, 1, 0⟩, ⟨"BLT   ", opBranch, 4, 0⟩,
    ⟨"BGE   ", opBranch, 5, 0⟩, ⟨"BLTU  ", opBranch, 6, 0⟩, ⟨"BGEU  ", opBranch, 7, 0⟩,
    ⟨"AUIPC ", opAuipc, 0, 0⟩, ⟨"LUI   ", opLui, 0, 0⟩, ⟨"JALR  ", opJalr, 0, 0⟩,
    ⟨"JAL   ", opJal, 0, 0⟩,
    ⟨"CSRRW ", opSystem, 1, 0⟩, ⟨"CSRRS ", opSystem, 2, 0⟩, ⟨"CSRRC ", opSystem, 3, 0⟩,
    ⟨"CSRWI ", opSystem, 5, 0⟩, ⟨"CSRSI ", opSystem, 6, 0⟩, ⟨"CSRCI ", opSystem, 7, 0⟩]

theorem length_name : ∀ e ∈ table, e.name.toList.length = 6 := by decide

/-- A name stands for one operation. -/
theorem entry_eq {e e' : Entry} (h : e ∈ table) (h' : e' ∈ table) (hname : e.name = e'.name) :
    e = e' :=
  List.inj_on_of_nodup_map (by decide : (table.map Entry.name).Nodup) h h' hname

/-- A word has the operation of an entry. -/
structure Entry.Of (e : Entry) (w : BitVec 32) : Prop where
  opcode : w.extractLsb' 0 7 = e.opcode
  f3 : e.opcode ∈ [opLui, opAuipc, opJal] ∨ w.extractLsb' 12 3 = e.f3
  f7 : e.opcode = opOp → w.extractLsb' 25 7 = e.f7
  name : (printRv w).head? = some (.text e.name)

theorem loadName_mem : ∀ f3, (Rv32i.loadOf f3).isSome = true →
    ⟨loadName f3, opLoad, f3, 0⟩ ∈ table := by decide

theorem storeName_mem : ∀ f3, (Rv32i.storeOf f3).isSome = true →
    ⟨storeName f3, opStore, f3, 0⟩ ∈ table := by decide

theorem branchName_mem : ∀ f3, (Rv32i.condOf f3).isSome = true →
    ⟨branchName f3, opBranch, f3, 0⟩ ∈ table := by decide

theorem systemName_mem : ∀ f3, f3 ≠ 0#3 ∧ f3 ≠ 4#3 →
    ⟨systemName f3, opSystem, f3, 0⟩ ∈ table := by decide

/-- The shifts to the right by an immediate differ in a bit of the immediate. -/
theorem opimmName_mem (w : BitVec 32) (f3 : BitVec 3) :
    ⟨opimmName w f3, opOpimm, f3, if f3 = 5#3 ∧ w.getLsbD 30 then 32#7 else 0#7⟩ ∈ table := by
  rw [opimmName]
  generalize w.getLsbD 30 = b
  revert f3 b
  decide

theorem opName_mem (h : (Rv32i.opOf (w.extractLsb' 12 3) (w.extractLsb' 25 7)).isSome = true) :
    ⟨opName w (w.extractLsb' 12 3), opOp, w.extractLsb' 12 3, w.extractLsb' 25 7⟩ ∈ table := by
  obtain ⟨f, hf⟩ := Option.isSome_iff_exists.mp h
  rw [opName, Disassembly.getLsbD_thirty]
  obtain ⟨h3, h7, -⟩ | hs | ⟨hi, h7⟩ := Rv32i.eq_of_opOf hf
  · rw [h3, h7]
    decide
  · obtain ⟨h3, h7, -⟩ | ⟨h3, h7, -⟩ | ⟨h3, h7, -⟩ := Rv32i.eq_of_shiftOf hs <;>
      rw [h3, h7] <;> decide
  · rw [h7]
    generalize w.extractLsb' 12 3 = f3
    revert f3
    decide

/-! ## Lines, class by class -/

/-- `r%02d, [r%02d%c%d]`. -/
def memory (r b : BitVec 5) (imm : ℤ) : List Piece :=
  [.reg r, .text ", [", .reg b] ++ signed imm ++ [.text "]"]

theorem printRv_load (h : w.extractLsb' 0 7 = opLoad) : printRv w =
    .text (loadName (w.extractLsb' 12 3)) ::
      memory (w.extractLsb' 7 5) (w.extractLsb' 15 5) (immI w) := by
  rw [Disassembly.printRv_eq h rfl, printOpcode, h]
  rfl

theorem printRv_store (h : w.extractLsb' 0 7 = opStore) : printRv w =
    .text (storeName (w.extractLsb' 12 3)) ::
      memory (w.extractLsb' 20 5) (w.extractLsb' 15 5) (immS w) := by
  rw [Disassembly.printRv_eq h rfl, printOpcode, h]
  rfl

theorem printRv_op (h : w.extractLsb' 0 7 = opOp) : printRv w =
    [.text (opName w (w.extractLsb' 12 3)), .reg (w.extractLsb' 7 5), .text ", ",
      .reg (w.extractLsb' 15 5), .text ", ", .reg (w.extractLsb' 20 5)] := by
  rw [Disassembly.printRv_eq h rfl, printOpcode, h]
  rfl

theorem printRv_opimm (h : w.extractLsb' 0 7 = opOpimm) : printRv w =
    [.text (opimmName w (w.extractLsb' 12 3)), .reg (w.extractLsb' 7 5), .text ", ",
      .reg (w.extractLsb' 15 5), .text ", ", .dec (immI w)] := by
  rw [Disassembly.printRv_eq h rfl, printOpcode, h]
  rfl

theorem printRv_branch (h : w.extractLsb' 0 7 = opBranch) : printRv w =
    [.text (branchName (w.extractLsb' 12 3)), .reg (w.extractLsb' 15 5), .text ", ",
      .reg (w.extractLsb' 20 5), .text ", "] ++ signed (immB w) := by
  rw [Disassembly.printRv_eq h rfl, printOpcode, h]
  rfl

theorem printRv_auipc (h : w.extractLsb' 0 7 = opAuipc) : printRv w =
    [.text "AUIPC ", .reg (w.extractLsb' 7 5), .text ", 0x", .hex 8 (immU w).toNat] := by
  rw [Disassembly.printRv_eq h rfl, printOpcode, h]
  rfl

theorem printRv_lui (h : w.extractLsb' 0 7 = opLui) : printRv w =
    [.text "LUI   ", .reg (w.extractLsb' 7 5), .text ", ",
      .dec (w.extractLsb' 12 20).toNat] := by
  rw [Disassembly.printRv_eq h rfl, printOpcode, h]
  rfl

theorem printRv_jalr (h : w.extractLsb' 0 7 = opJalr) : printRv w =
    .text "JALR  " :: memory (w.extractLsb' 7 5) (w.extractLsb' 15 5) (immI w) := by
  rw [Disassembly.printRv_eq h rfl, printOpcode, h]
  rfl

theorem printRv_jal (h : w.extractLsb' 0 7 = opJal) : printRv w =
    [.text "JAL   ", .reg (w.extractLsb' 7 5), .text ", ["] ++ signed (immJ w) ++
      [.text "]"] := by
  rw [Disassembly.printRv_eq h rfl, printOpcode, h]
  rfl

theorem printRv_system (h : w.extractLsb' 0 7 = opSystem) : printRv w =
    [.text (systemName (w.extractLsb' 12 3)), .reg (w.extractLsb' 7 5), .text ", 0x",
      .hex 3 (w.extractLsb' 20 12).toNat, .text ", ", .reg (w.extractLsb' 15 5)] := by
  rw [Disassembly.printRv_eq h rfl, printOpcode, h]
  rfl

theorem f3_of_jalr {i : Rv32i.Instr} (hd : Rv32i.decode w = some i)
    (h : w.extractLsb' 0 7 = opJalr) : w.extractLsb' 12 3 = 0#3 := by
  by_contra hne
  rw [Rv32i.decode, h, if_neg (by decide), if_neg (by decide), if_neg (by decide),
    if_pos (show opJalr = 103#7 from rfl), if_neg hne] at hd
  cases hd

/-- The name of an instruction is in the table. -/
theorem exists_entry (h : Named w) : ∃ e ∈ table, e.Of w := by
  obtain hd | ⟨h, hf⟩ := h
  · obtain ⟨i, hd⟩ := Option.isSome_iff_exists.mp hd
    cases Rv32i.encodes_of_decode hd with
    | lui h => exact ⟨⟨"LUI   ", opLui, 0, 0⟩, by decide, h, .inl (by decide), nofun,
        by rw [printRv_lui h]; rfl⟩
    | auipc h => exact ⟨⟨"AUIPC ", opAuipc, 0, 0⟩, by decide, h, .inl (by decide), nofun,
        by rw [printRv_auipc h]; rfl⟩
    | jal h => exact ⟨⟨"JAL   ", opJal, 0, 0⟩, by decide, h, .inl (by decide), nofun,
        by rw [printRv_jal h]; rfl⟩
    | jalr h => exact ⟨⟨"JALR  ", opJalr, 0, 0⟩, by decide, h, .inr (f3_of_jalr hd h), nofun,
        by rw [printRv_jalr h]; rfl⟩
    | branch h hc => exact ⟨_, branchName_mem _ (Option.isSome_of_mem hc), h, .inr rfl, nofun,
        by rw [printRv_branch h]; rfl⟩
    | load h hl => exact ⟨_, loadName_mem _ (Option.isSome_of_mem hl), h, .inr rfl, nofun,
        by rw [printRv_load h]; rfl⟩
    | store h hs => exact ⟨_, storeName_mem _ (Option.isSome_of_mem hs), h, .inr rfl, nofun,
        by rw [printRv_store h]; rfl⟩
    | opImm h hf => exact ⟨_, opimmName_mem w _, h, .inr rfl, nofun,
        by rw [printRv_opimm h]; rfl⟩
    | op h hf => exact ⟨_, opName_mem (Option.isSome_of_mem hf), h, .inr rfl, fun _ ↦ rfl,
        by rw [printRv_op h]; rfl⟩
  · exact ⟨_, systemName_mem _ hf, h, .inr rfl, nofun, by rw [printRv_system h]; rfl⟩

/-! ## What follows the name -/

/-- A line without its name. -/
def args (w : BitVec 32) : List Piece := (printRv w).tail ++ [.text "\n"]

theorem Entry.Of.ended {e : Entry} (h : e.Of w) : ended w = .text e.name :: args w := by
  have hcons : printRv w = .text e.name :: (printRv w).tail :=
    List.eq_cons_of_mem_head? h.name
  rw [Pinwheel.ended, args, hcons]
  rfl

theorem signed_injective : Function.Injective signed := by
  intro n n' h
  have hread := fun n ↦ Disassembly.immOf_signed n []
  exact Option.some.inj ((hread n).symm.trans (h ▸ hread n'))

theorem sameForm_memory (r r' b b' : BitVec 5) (imm imm' : ℤ) :
    Piece.SameForm (memory r b imm ++ [.text "\n"]) (memory r' b' imm' ++ [.text "\n"]) :=
  .reg _ _ (.text rfl (.reg _ _ (.char _ _ (.dec _ _ (by decide) (.text rfl .nil)))))

theorem memory_inj {r r' b b' : BitVec 5} {imm imm' : ℤ} (h : memory r b imm = memory r' b' imm') :
    r = r' ∧ b = b' ∧ imm = imm' := by
  obtain ⟨hfront, -⟩ := List.append_inj' h rfl
  obtain ⟨hregs, himm⟩ := List.append_inj hfront rfl
  simp only [List.cons.injEq, Piece.reg.injEq] at hregs
  exact ⟨hregs.1, hregs.2.2.1, signed_injective himm⟩

/-- The fields of a word side by side. -/
theorem eq_of_sameBits (hop : SameBits w w' 0 7) (hlow : SameBits w w' 7 5)
    (hhigh : SameBits w w' 12 20) : w = w' :=
  SameBits.eq ((hop.append hlow).append hhigh)

theorem sameBits_upper (h3 : SameBits w w' 12 3) (h15 : SameBits w w' 15 5)
    (h20 : SameBits w w' 20 12) : SameBits w w' 12 20 :=
  (h3.append h15).append h20

theorem args_eq {p : Piece} {l : List Piece} (h : printRv w = p :: l) :
    args w = l ++ [.text "\n"] := by
  rw [args, h]
  rfl

/-- What follows the names of two words has one form, and tells the words apart. -/
def Told (w w' : BitVec 32) : Prop :=
  Piece.SameForm (args w) (args w') ∧ (args w = args w' → w = w')

theorem told_load (h : w.extractLsb' 0 7 = opLoad) (h' : w'.extractLsb' 0 7 = opLoad)
    (h3 : SameBits w w' 12 3) : Told w w' := by
  rw [Told, args_eq (printRv_load h), args_eq (printRv_load h')]
  refine ⟨sameForm_memory _ _ _ _ _ _, fun heq ↦ ?_⟩
  obtain ⟨hrd, hrs1, himm⟩ := memory_inj (List.append_cancel_right heq)
  exact eq_of_sameBits (h.trans h'.symm) hrd (sameBits_upper h3 hrs1 (sameBits_immI himm))

theorem told_jalr (h : w.extractLsb' 0 7 = opJalr) (h' : w'.extractLsb' 0 7 = opJalr)
    (h3 : SameBits w w' 12 3) : Told w w' := by
  rw [Told, args_eq (printRv_jalr h), args_eq (printRv_jalr h')]
  refine ⟨sameForm_memory _ _ _ _ _ _, fun heq ↦ ?_⟩
  obtain ⟨hrd, hrs1, himm⟩ := memory_inj (List.append_cancel_right heq)
  exact eq_of_sameBits (h.trans h'.symm) hrd (sameBits_upper h3 hrs1 (sameBits_immI himm))

theorem told_store (h : w.extractLsb' 0 7 = opStore) (h' : w'.extractLsb' 0 7 = opStore)
    (h3 : SameBits w w' 12 3) : Told w w' := by
  rw [Told, args_eq (printRv_store h), args_eq (printRv_store h')]
  refine ⟨sameForm_memory _ _ _ _ _ _, fun heq ↦ ?_⟩
  obtain ⟨hrs2, hrs1, himm⟩ := memory_inj (List.append_cancel_right heq)
  obtain ⟨hlow, hhigh⟩ := sameBits_immS himm
  exact eq_of_sameBits (h.trans h'.symm) hlow
    (sameBits_upper h3 hrs1 (SameBits.append hrs2 hhigh))

theorem told_op (h : w.extractLsb' 0 7 = opOp) (h' : w'.extractLsb' 0 7 = opOp)
    (h3 : SameBits w w' 12 3) (h7 : SameBits w w' 25 7) : Told w w' := by
  rw [Told, args_eq (printRv_op h), args_eq (printRv_op h')]
  refine ⟨.reg _ _ (.text rfl (.reg _ _ (.text rfl (.reg _ _ (.text rfl .nil))))), fun heq ↦ ?_⟩
  simp only [List.cons_append, List.cons.injEq, Piece.reg.injEq] at heq
  obtain ⟨hrd, -, hrs1, -, hrs2, -⟩ := heq
  exact eq_of_sameBits (h.trans h'.symm) hrd (sameBits_upper h3 hrs1 (SameBits.append hrs2 h7))

theorem told_opimm (h : w.extractLsb' 0 7 = opOpimm) (h' : w'.extractLsb' 0 7 = opOpimm)
    (h3 : SameBits w w' 12 3) : Told w w' := by
  rw [Told, args_eq (printRv_opimm h), args_eq (printRv_opimm h')]
  refine ⟨.reg _ _ (.text rfl (.reg _ _ (.text rfl (.dec _ _ (by decide) .nil)))), fun heq ↦ ?_⟩
  simp only [List.cons_append, List.cons.injEq, Piece.reg.injEq, Piece.dec.injEq] at heq
  obtain ⟨hrd, -, hrs1, -, himm, -⟩ := heq
  exact eq_of_sameBits (h.trans h'.symm) hrd (sameBits_upper h3 hrs1 (sameBits_immI himm))

theorem told_branch (h : w.extractLsb' 0 7 = opBranch) (h' : w'.extractLsb' 0 7 = opBranch)
    (h3 : SameBits w w' 12 3) : Told w w' := by
  rw [Told, args_eq (printRv_branch h), args_eq (printRv_branch h')]
  refine ⟨.reg _ _ (.text rfl (.reg _ _ (.text rfl (.char _ _ (.dec _ _ (by decide) .nil))))),
    fun heq ↦ ?_⟩
  obtain ⟨hfront, himm⟩ := List.append_inj (List.append_cancel_right heq) rfl
  simp only [List.cons.injEq, Piece.reg.injEq] at hfront
  obtain ⟨hrs1, -, hrs2, -⟩ := hfront
  obtain ⟨hlow, hhigh⟩ := sameBits_immB (signed_injective himm)
  exact eq_of_sameBits (h.trans h'.symm) hlow
    (sameBits_upper h3 hrs1 (SameBits.append hrs2 hhigh))

theorem told_auipc (h : w.extractLsb' 0 7 = opAuipc) (h' : w'.extractLsb' 0 7 = opAuipc) :
    Told w w' := by
  rw [Told, args_eq (printRv_auipc h), args_eq (printRv_auipc h')]
  refine ⟨.reg _ _ (.text rfl (.hex (by decide) (immU w).isLt (immU w').isLt (.text rfl .nil))),
    fun heq ↦ ?_⟩
  simp only [List.cons_append, List.cons.injEq, Piece.reg.injEq, Piece.hex.injEq] at heq
  obtain ⟨hrd, -, ⟨-, himm⟩, -⟩ := heq
  exact eq_of_sameBits (h.trans h'.symm) hrd (sameBits_immU (BitVec.eq_of_toNat_eq himm))

theorem told_lui (h : w.extractLsb' 0 7 = opLui) (h' : w'.extractLsb' 0 7 = opLui) :
    Told w w' := by
  rw [Told, args_eq (printRv_lui h), args_eq (printRv_lui h')]
  refine ⟨.reg _ _ (.text rfl (.dec _ _ (by decide) .nil)), fun heq ↦ ?_⟩
  simp only [List.cons_append, List.cons.injEq, Piece.reg.injEq, Piece.dec.injEq] at heq
  obtain ⟨hrd, -, himm, -⟩ := heq
  exact eq_of_sameBits (h.trans h'.symm) hrd (BitVec.eq_of_toNat_eq (Int.ofNat_inj.mp himm))

theorem told_jal (h : w.extractLsb' 0 7 = opJal) (h' : w'.extractLsb' 0 7 = opJal) :
    Told w w' := by
  rw [Told, args_eq (printRv_jal h), args_eq (printRv_jal h')]
  refine ⟨.reg _ _ (.text rfl (.char _ _ (.dec _ _ (by decide) (.text rfl .nil)))), fun heq ↦ ?_⟩
  have hcut := List.append_cancel_right (List.append_cancel_right heq)
  obtain ⟨hfront, himm⟩ := List.append_inj hcut rfl
  simp only [List.cons.injEq, Piece.reg.injEq] at hfront
  exact eq_of_sameBits (h.trans h'.symm) hfront.1 (sameBits_immJ (signed_injective himm))

theorem told_system (h : w.extractLsb' 0 7 = opSystem) (h' : w'.extractLsb' 0 7 = opSystem)
    (h3 : SameBits w w' 12 3) : Told w w' := by
  rw [Told, args_eq (printRv_system h), args_eq (printRv_system h')]
  refine ⟨.reg _ _ (.text rfl (.hex (by decide) (BitVec.isLt _) (BitVec.isLt _)
    (.text rfl (.reg _ _ (.text rfl .nil))))), fun heq ↦ ?_⟩
  simp only [List.cons_append, List.cons.injEq, Piece.reg.injEq, Piece.hex.injEq] at heq
  obtain ⟨hrd, -, ⟨-, hcsr⟩, -, hrs1, -⟩ := heq
  exact eq_of_sameBits (h.trans h'.symm) hrd
    (sameBits_upper h3 hrs1 (BitVec.eq_of_toNat_eq hcsr))

theorem opcode_mem : ∀ e ∈ table, e.opcode ∈ [opLoad, opStore, opOp, opOpimm, opBranch, opAuipc,
    opLui, opJalr, opJal, opSystem] := by decide

theorem Entry.Of.told {e : Entry} (he : e ∈ table) (hw : e.Of w) (hw' : e.Of w') :
    Told w w' := by
  have h3 : e.opcode ∉ [opLui, opAuipc, opJal] → SameBits w w' 12 3 := fun hne ↦
    (hw.f3.resolve_left hne).trans (hw'.f3.resolve_left hne).symm
  have h7 : e.opcode = opOp → SameBits w w' 25 7 := fun h ↦ (hw.f7 h).trans (hw'.f7 h).symm
  have ho := opcode_mem e he
  obtain ⟨hop, hop'⟩ := And.intro hw.opcode hw'.opcode
  generalize e.opcode = o at h3 h7 ho hop hop'
  simp only [List.mem_cons, List.not_mem_nil, or_false] at ho
  obtain rfl | rfl | rfl | rfl | rfl | rfl | rfl | rfl | rfl | rfl := ho
  · exact told_load hop hop' (h3 (by decide))
  · exact told_store hop hop' (h3 (by decide))
  · exact told_op hop hop' (h3 (by decide)) (h7 rfl)
  · exact told_opimm hop hop' (h3 (by decide))
  · exact told_branch hop hop' (h3 (by decide))
  · exact told_auipc hop hop'
  · exact told_lui hop hop'
  · exact told_jalr hop hop' (h3 (by decide))
  · exact told_jal hop hop'
  · exact told_system hop hop' (h3 (by decide))

/-! ## Lines -/

theorem readable_named : Readable {w | Named w} fun w ↦ Piece.printed (ended w) := by
  intro w hw w' hw' r r' heq
  obtain ⟨e, he, hof⟩ := exists_entry hw
  obtain ⟨e', he', hof'⟩ := exists_entry hw'
  simp only [hof.ended, hof'.ended, Piece.printed_cons_append] at heq
  obtain ⟨hname, hargs⟩ := List.append_inj heq ((length_name e he).trans (length_name e' he').symm)
  obtain rfl := entry_eq he he' (String.toList_inj.mp hname)
  obtain ⟨hform, htold⟩ := Entry.Of.told he hof hof'
  obtain ⟨hsame, rfl⟩ := hform.eq hargs
  exact ⟨htold hsame, rfl⟩

theorem printed_zero : Piece.printed (ended 0#32) = "<???>\n".toList := by decide

theorem name_ne_unknown : ∀ e ∈ table, e.name ≠ "<???>\n" := by decide

/-- The line of an instruction is not that of an empty word. -/
theorem printed_ne_zero (hw : Named w) (r r' : List Char) :
    Piece.printed (ended w) ++ r ≠ Piece.printed (ended 0#32) ++ r' := by
  intro heq
  obtain ⟨e, he, hof⟩ := exists_entry hw
  rw [hof.ended, Piece.printed_cons_append, printed_zero] at heq
  have hname := (List.append_inj heq (length_name e he)).1
  exact name_ne_unknown e he (String.toList_inj.mp hname)

/-- **A line can be told from what follows it.** -/
theorem readable_ended : Readable {w | Known w} fun w ↦ Piece.printed (ended w) := by
  rintro w (hw | rfl) w' (hw' | rfl) r r' heq
  · exact readable_named hw hw' r r' heq
  · exact absurd heq (printed_ne_zero hw r r')
  · exact absurd heq.symm (printed_ne_zero hw' r' r)
  · exact ⟨rfl, List.append_cancel_left heq⟩

end Listing

end Pinwheel
