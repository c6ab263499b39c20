import Mathlib.Tactic.SplitIfs
import Mathlib.Data.Nat.Notation
import Mathlib.Data.Set.Defs

/-!
# RV32I

The user-level integer instructions that compute, branch and access memory: their
encodings, and what one of them does to a hart and to a byte-addressed memory.
Fences and environment calls are not here; they belong to a platform.
-/

namespace Rv32i

/-! ## Memory -/

/-- A memory of `2 ^ k` bytes, which repeats throughout the address space. -/
def Memory (k : ℕ) := BitVec k → BitVec 8

/-- The size of an access. -/
inductive Width where
  | byte
  | half
  | word
deriving DecidableEq, Repr

def Width.bytes : Width → ℕ
  | byte => 1
  | half => 2
  | word => 4

namespace Memory

variable {k : ℕ} (m : Memory k)

/-- The byte at an address. -/
def byte (a : BitVec 32) : BitVec 8 := m (a.setWidth k)

/-- A little-endian load, extended to the width of a register. -/
def load (w : Width) (signed : Bool) (a : BitVec 32) : BitVec 32 :=
  match w with
  | .byte => if signed then (m.byte a).signExtend 32 else (m.byte a).setWidth 32
  | .half =>
    if signed then (m.byte (a + 1#32) ++ m.byte a).signExtend 32
    else (m.byte (a + 1#32) ++ m.byte a).setWidth 32
  | .word => m.byte (a + 3#32) ++ m.byte (a + 2#32) ++ m.byte (a + 1#32) ++ m.byte a

/-- A little-endian store of the low bytes of a register. -/
def store (w : Width) (a v : BitVec 32) : Memory k := fun b ↦
  if (b - a.setWidth k).toNat < w.bytes then v.extractLsb' (8 * (b - a.setWidth k).toNat) 8
  else m b

/-- The bytes of an access. -/
def bytesAt (k : ℕ) (w : Width) (a : BitVec 32) : List (BitVec k) :=
  (List.range w.bytes).map fun i ↦ (a + BitVec.ofNat 32 i).setWidth k

section Congr

variable {m} {m' : Memory k} {w : Width} {a : BitVec 32}

theorem byte_congr (h : ∀ b ∈ bytesAt k w a, m b = m' b) {i : ℕ} (hi : i < w.bytes) :
    m.byte (a + BitVec.ofNat 32 i) = m'.byte (a + BitVec.ofNat 32 i) :=
  h _ (List.mem_map_of_mem (List.mem_range.mpr hi))

/-- A load depends on the bytes that it loads. -/
theorem load_congr (h : ∀ b ∈ bytesAt k w a, m b = m' b) (signed : Bool) :
    m.load w signed a = m'.load w signed a := by
  have hzero : m.byte a = m'.byte a := by
    rw [← BitVec.add_zero a]
    exact byte_congr h (i := 0) (by cases w <;> decide)
  cases w with
  | byte =>
    unfold load
    rw [hzero]
  | half =>
    unfold load
    rw [hzero, byte_congr h (i := 1) (by decide)]
  | word =>
    unfold load
    rw [hzero, byte_congr h (i := 1) (by decide), byte_congr h (i := 2) (by decide),
      byte_congr h (i := 3) (by decide)]

/-- A store keeps memories alike where they are alike. -/
theorem store_congr {b : BitVec k} (h : m b = m' b) (v : BitVec 32) :
    m.store w a v b = m'.store w a v b := by
  unfold store
  rw [h]

end Congr

end Memory

/-! ## Instructions -/

/-- The condition of a branch. -/
inductive Cond where
  | eq
  | ne
  | lt
  | ge
  | ltu
  | geu
deriving DecidableEq, Repr

def Cond.eval (a b : BitVec 32) : Cond → Bool
  | eq => a == b
  | ne => a != b
  | lt => a.slt b
  | ge => !a.slt b
  | ltu => a.ult b
  | geu => !a.ult b

/-- The operation of an integer computation. -/
inductive Alu where
  | add
  | sub
  | sll
  | slt
  | sltu
  | xor
  | srl
  | sra
  | or
  | and
deriving DecidableEq, Repr

def Alu.eval (a b : BitVec 32) : Alu → BitVec 32
  | add => a + b
  | sub => a - b
  | sll => a <<< (b.setWidth 5).toNat
  | slt => if a.slt b then 1#32 else 0#32
  | sltu => if a.ult b then 1#32 else 0#32
  | xor => a ^^^ b
  | srl => a >>> (b.setWidth 5).toNat
  | sra => a.sshiftRight (b.setWidth 5).toNat
  | or => a ||| b
  | and => a &&& b

/-- An instruction, with its immediate extended to 32 bits. -/
inductive Instr where
  | lui (rd : BitVec 5) (imm : BitVec 32)
  | auipc (rd : BitVec 5) (imm : BitVec 32)
  | jal (rd : BitVec 5) (imm : BitVec 32)
  | jalr (rd rs1 : BitVec 5) (imm : BitVec 32)
  | branch (c : Cond) (rs1 rs2 : BitVec 5) (imm : BitVec 32)
  | load (w : Width) (signed : Bool) (rd rs1 : BitVec 5) (imm : BitVec 32)
  | store (w : Width) (rs1 rs2 : BitVec 5) (imm : BitVec 32)
  | opImm (f : Alu) (rd rs1 : BitVec 5) (imm : BitVec 32)
  | op (f : Alu) (rd rs1 rs2 : BitVec 5)
deriving DecidableEq, Repr

/-! ## Encodings -/

def immI (w : BitVec 32) : BitVec 32 := (w.extractLsb' 20 12).signExtend 32

def immS (w : BitVec 32) : BitVec 32 :=
  (w.extractLsb' 25 7 ++ w.extractLsb' 7 5).signExtend 32

def immB (w : BitVec 32) : BitVec 32 :=
  (w.extractLsb' 31 1 ++ w.extractLsb' 7 1 ++ w.extractLsb' 25 6 ++ w.extractLsb' 8 4 ++
    0#1).signExtend 32

def immU (w : BitVec 32) : BitVec 32 := w.extractLsb' 12 20 ++ 0#12

def immJ (w : BitVec 32) : BitVec 32 :=
  (w.extractLsb' 31 1 ++ w.extractLsb' 12 8 ++ w.extractLsb' 20 1 ++ w.extractLsb' 21 10 ++
    0#1).signExtend 32

def condOf (f3 : BitVec 3) : Option Cond :=
  if f3 = 0b000#3 then some .eq
  else if f3 = 0b001#3 then some .ne
  else if f3 = 0b100#3 then some .lt
  else if f3 = 0b101#3 then some .ge
  else if f3 = 0b110#3 then some .ltu
  else if f3 = 0b111#3 then some .geu
  else none

def loadOf (f3 : BitVec 3) : Option (Width × Bool) :=
  if f3 = 0b000#3 then some (.byte, true)
  else if f3 = 0b001#3 then some (.half, true)
  else if f3 = 0b010#3 then some (.word, true)
  else if f3 = 0b100#3 then some (.byte, false)
  else if f3 = 0b101#3 then some (.half, false)
  else none

def storeOf (f3 : BitVec 3) : Option Width :=
  if f3 = 0b000#3 then some .byte
  else if f3 = 0b001#3 then some .half
  else if f3 = 0b010#3 then some .word
  else none

/-- The shifts, which `OP` and `OP-IMM` encode alike. -/
def shiftOf (f3 : BitVec 3) (f7 : BitVec 7) : Option Alu :=
  if f3 = 0b001#3 ∧ f7 = 0#7 then some .sll
  else if f3 = 0b101#3 ∧ f7 = 0#7 then some .srl
  else if f3 = 0b101#3 ∧ f7 = 32#7 then some .sra
  else none

/-- The operation of an `OP` instruction. -/
def opOf (f3 : BitVec 3) (f7 : BitVec 7) : Option Alu :=
  if f3 = 0b000#3 ∧ f7 = 0#7 then some .add
  else if f3 = 0b000#3 ∧ f7 = 32#7 then some .sub
  else if f3 = 0b010#3 ∧ f7 = 0#7 then some .slt
  else if f3 = 0b011#3 ∧ f7 = 0#7 then some .sltu
  else if f3 = 0b100#3 ∧ f7 = 0#7 then some .xor
  else if f3 = 0b110#3 ∧ f7 = 0#7 then some .or
  else if f3 = 0b111#3 ∧ f7 = 0#7 then some .and
  else shiftOf f3 f7

/-- The operation of an `OP-IMM` instruction, whose immediate covers `funct7`
unless it is a shift. -/
def opImmOf (f3 : BitVec 3) (f7 : BitVec 7) : Option Alu :=
  if f3 = 0b000#3 then some .add
  else if f3 = 0b010#3 then some .slt
  else if f3 = 0b011#3 then some .sltu
  else if f3 = 0b100#3 then some .xor
  else if f3 = 0b110#3 then some .or
  else if f3 = 0b111#3 then some .and
  else shiftOf f3 f7

section Tables

variable {f3 : BitVec 3} {f7 : BitVec 7} {c : Cond} {w : Width} {signed : Bool} {f : Alu}

theorem eq_of_condOf (h : condOf f3 = some c) :
    f3 = 0#3 ∧ c = .eq ∨ f3 = 1#3 ∧ c = .ne ∨ f3 = 4#3 ∧ c = .lt ∨ f3 = 5#3 ∧ c = .ge ∨
      f3 = 6#3 ∧ c = .ltu ∨ f3 = 7#3 ∧ c = .geu := by
  unfold condOf at h
  split_ifs at h with h0 h1 h4 h5 h6 h7 <;> obtain rfl := Option.some.inj h
  · exact .inl ⟨h0, rfl⟩
  · exact .inr (.inl ⟨h1, rfl⟩)
  · exact .inr (.inr (.inl ⟨h4, rfl⟩))
  · exact .inr (.inr (.inr (.inl ⟨h5, rfl⟩)))
  · exact .inr (.inr (.inr (.inr (.inl ⟨h6, rfl⟩))))
  · exact .inr (.inr (.inr (.inr (.inr ⟨h7, rfl⟩))))

theorem eq_of_storeOf (h : storeOf f3 = some w) :
    f3 = 0#3 ∧ w = .byte ∨ f3 = 1#3 ∧ w = .half ∨ f3 = 2#3 ∧ w = .word := by
  unfold storeOf at h
  split_ifs at h with h0 h1 h2 <;> obtain rfl := Option.some.inj h
  · exact .inl ⟨h0, rfl⟩
  · exact .inr (.inl ⟨h1, rfl⟩)
  · exact .inr (.inr ⟨h2, rfl⟩)

/-- The loads are the accesses of the stores, which are signed, and the two unsigned ones. -/
theorem eq_of_loadOf (h : loadOf f3 = some (w, signed)) :
    storeOf f3 = some w ∧ signed = true ∨
      f3 = 4#3 ∧ w = .byte ∧ signed = false ∨ f3 = 5#3 ∧ w = .half ∧ signed = false := by
  unfold loadOf at h
  split_ifs at h with h0 h1 h2 h4 h5 <;> obtain ⟨rfl, rfl⟩ := Prod.mk.inj (Option.some.inj h)
  · exact .inl ⟨by rw [h0]; rfl, rfl⟩
  · exact .inl ⟨by rw [h1]; rfl, rfl⟩
  · exact .inl ⟨by rw [h2]; rfl, rfl⟩
  · exact .inr (.inl ⟨h4, rfl, rfl⟩)
  · exact .inr (.inr ⟨h5, rfl, rfl⟩)

theorem eq_of_shiftOf (h : shiftOf f3 f7 = some f) :
    f3 = 1#3 ∧ f7 = 0#7 ∧ f = .sll ∨ f3 = 5#3 ∧ f7 = 0#7 ∧ f = .srl ∨
      f3 = 5#3 ∧ f7 = 32#7 ∧ f = .sra := by
  unfold shiftOf at h
  split_ifs at h with hsll hsrl hsra <;> obtain rfl := Option.some.inj h
  · exact .inl ⟨hsll.1, hsll.2, rfl⟩
  · exact .inr (.inl ⟨hsrl.1, hsrl.2, rfl⟩)
  · exact .inr (.inr ⟨hsra.1, hsra.2, rfl⟩)

theorem eq_of_opImmOf (h : opImmOf f3 f7 = some f) :
    f3 = 0#3 ∧ f = .add ∨ f3 = 2#3 ∧ f = .slt ∨ f3 = 3#3 ∧ f = .sltu ∨ f3 = 4#3 ∧ f = .xor ∨
      f3 = 6#3 ∧ f = .or ∨ f3 = 7#3 ∧ f = .and ∨ shiftOf f3 f7 = some f := by
  unfold opImmOf at h
  split_ifs at h with hadd hslt hsltu hxor hor hand
  · exact .inl ⟨hadd, (Option.some.inj h).symm⟩
  · exact .inr (.inl ⟨hslt, (Option.some.inj h).symm⟩)
  · exact .inr (.inr (.inl ⟨hsltu, (Option.some.inj h).symm⟩))
  · exact .inr (.inr (.inr (.inl ⟨hxor, (Option.some.inj h).symm⟩)))
  · exact .inr (.inr (.inr (.inr (.inl ⟨hor, (Option.some.inj h).symm⟩))))
  · exact .inr (.inr (.inr (.inr (.inr (.inl ⟨hand, (Option.some.inj h).symm⟩)))))
  · exact .inr (.inr (.inr (.inr (.inr (.inr h)))))

/-- The operations of `OP` are those of `OP-IMM` with `funct7` 0, and the subtraction. -/
theorem eq_of_opOf (h : opOf f3 f7 = some f) :
    f3 = 0#3 ∧ f7 = 32#7 ∧ f = .sub ∨ shiftOf f3 f7 = some f ∨
      opImmOf f3 f7 = some f ∧ f7 = 0#7 := by
  unfold opOf at h
  split_ifs at h with hadd hsub hslt hsltu hxor hor hand
  · exact .inr (.inr ⟨by rw [hadd.1, hadd.2]; exact h, hadd.2⟩)
  · exact .inl ⟨hsub.1, hsub.2, (Option.some.inj h).symm⟩
  · exact .inr (.inr ⟨by rw [hslt.1, hslt.2]; exact h, hslt.2⟩)
  · exact .inr (.inr ⟨by rw [hsltu.1, hsltu.2]; exact h, hsltu.2⟩)
  · exact .inr (.inr ⟨by rw [hxor.1, hxor.2]; exact h, hxor.2⟩)
  · exact .inr (.inr ⟨by rw [hor.1, hor.2]; exact h, hor.2⟩)
  · exact .inr (.inr ⟨by rw [hand.1, hand.2]; exact h, hand.2⟩)
  · exact .inr (.inl h)

end Tables

def decode (w : BitVec 32) : Option Instr :=
  let opcode := w.extractLsb' 0 7
  let rd := w.extractLsb' 7 5
  let f3 := w.extractLsb' 12 3
  let rs1 := w.extractLsb' 15 5
  let rs2 := w.extractLsb' 20 5
  let f7 := w.extractLsb' 25 7
  if opcode = 0b0110111#7 then some (.lui rd (immU w))
  else if opcode = 0b0010111#7 then some (.auipc rd (immU w))
  else if opcode = 0b1101111#7 then some (.jal rd (immJ w))
  else if opcode = 0b1100111#7 then if f3 = 0b000#3 then some (.jalr rd rs1 (immI w)) else none
  else if opcode = 0b1100011#7 then (condOf f3).map fun c ↦ .branch c rs1 rs2 (immB w)
  else if opcode = 0b0000011#7 then (loadOf f3).map fun l ↦ .load l.1 l.2 rd rs1 (immI w)
  else if opcode = 0b0100011#7 then (storeOf f3).map fun s ↦ .store s rs1 rs2 (immS w)
  else if opcode = 0b0010011#7 then (opImmOf f3 f7).map fun f ↦ .opImm f rd rs1 (immI w)
  else if opcode = 0b0110011#7 then (opOf f3 f7).map fun f ↦ .op f rd rs1 rs2
  else none

/-- How a word encodes an instruction, class by class. -/
inductive Encodes (w : BitVec 32) : Instr → Prop where
  | lui (h : w.extractLsb' 0 7 = 0b0110111#7) : Encodes w (.lui (w.extractLsb' 7 5) (immU w))
  | auipc (h : w.extractLsb' 0 7 = 0b0010111#7) : Encodes w (.auipc (w.extractLsb' 7 5) (immU w))
  | jal (h : w.extractLsb' 0 7 = 0b1101111#7) : Encodes w (.jal (w.extractLsb' 7 5) (immJ w))
  | jalr (h : w.extractLsb' 0 7 = 0b1100111#7) :
    Encodes w (.jalr (w.extractLsb' 7 5) (w.extractLsb' 15 5) (immI w))
  | branch (h : w.extractLsb' 0 7 = 0b1100011#7) {c : Cond}
    (hc : condOf (w.extractLsb' 12 3) = some c) :
    Encodes w (.branch c (w.extractLsb' 15 5) (w.extractLsb' 20 5) (immB w))
  | load (h : w.extractLsb' 0 7 = 0b0000011#7) {l : Width × Bool}
    (hl : loadOf (w.extractLsb' 12 3) = some l) :
    Encodes w (.load l.1 l.2 (w.extractLsb' 7 5) (w.extractLsb' 15 5) (immI w))
  | store (h : w.extractLsb' 0 7 = 0b0100011#7) {s : Width}
    (hs : storeOf (w.extractLsb' 12 3) = some s) :
    Encodes w (.store s (w.extractLsb' 15 5) (w.extractLsb' 20 5) (immS w))
  | opImm (h : w.extractLsb' 0 7 = 0b0010011#7) {f : Alu}
    (hf : opImmOf (w.extractLsb' 12 3) (w.extractLsb' 25 7) = some f) :
    Encodes w (.opImm f (w.extractLsb' 7 5) (w.extractLsb' 15 5) (immI w))
  | op (h : w.extractLsb' 0 7 = 0b0110011#7) {f : Alu}
    (hf : opOf (w.extractLsb' 12 3) (w.extractLsb' 25 7) = some f) :
    Encodes w (.op f (w.extractLsb' 7 5) (w.extractLsb' 15 5) (w.extractLsb' 20 5))

theorem encodes_of_decode {w : BitVec 32} {i : Instr} (hd : decode w = some i) :
    Encodes w i := by
  unfold decode at hd
  dsimp only at hd
  split_ifs at hd with hlui hauipc hjal hjalr hf3 hbranch hload hstore hopImm hop
  · cases hd
    exact .lui hlui
  · cases hd
    exact .auipc hauipc
  · cases hd
    exact .jal hjal
  · cases hd
    exact .jalr hjalr
  · obtain ⟨c, hc, rfl⟩ := Option.map_eq_some_iff.mp hd
    exact .branch hbranch hc
  · obtain ⟨l, hl, rfl⟩ := Option.map_eq_some_iff.mp hd
    exact .load hload hl
  · obtain ⟨s, hs, rfl⟩ := Option.map_eq_some_iff.mp hd
    exact .store hstore hs
  · obtain ⟨f, hf, rfl⟩ := Option.map_eq_some_iff.mp hd
    exact .opImm hopImm hf
  · obtain ⟨f, hf, rfl⟩ := Option.map_eq_some_iff.mp hd
    exact .op hop hf

/-! ## Execution -/

/-- The state of a hart.  `x0` is hard-wired, whatever `x` says. -/
structure Hart where
  pc : BitVec 32
  x : BitVec 5 → BitVec 32

namespace Hart

variable (h : Hart)

def read (r : BitVec 5) : BitVec 32 := if r = 0#5 then 0#32 else h.x r

/-- The hart after an instruction that writes `rd` and goes on at `pc`. -/
def write (rd : BitVec 5) (v pc : BitVec 32) : Hart where
  pc := pc
  x r := if rd ≠ 0#5 ∧ rd = r then v else h.x r

theorem write_zero (v pc : BitVec 32) : h.write 0#5 v pc = ⟨pc, h.x⟩ :=
  congrArg (Hart.mk pc) (funext fun _ ↦ if_neg fun hr ↦ hr.1 rfl)

end Hart

/-- The address a load or store accesses. -/
def Instr.address (h : Hart) : Instr → BitVec 32
  | load _ _ _ rs1 imm => h.read rs1 + imm
  | store _ rs1 _ imm => h.read rs1 + imm
  | _ => 0#32

/-- One instruction, on a hart and the memory. -/
def Instr.exec {k : ℕ} (h : Hart) (m : Memory k) : Instr → Hart × Memory k
  | lui rd imm => (h.write rd imm (h.pc + 4#32), m)
  | auipc rd imm => (h.write rd (h.pc + imm) (h.pc + 4#32), m)
  | jal rd imm => (h.write rd (h.pc + 4#32) (h.pc + imm), m)
  | jalr rd rs1 imm =>
    (h.write rd (h.pc + 4#32) ((h.read rs1 + imm) &&& ~~~1#32), m)
  | branch c rs1 rs2 imm =>
    ({ h with pc := if c.eval (h.read rs1) (h.read rs2) then h.pc + imm else h.pc + 4#32 }, m)
  | load w signed rd rs1 imm =>
    (h.write rd (m.load w signed (h.read rs1 + imm)) (h.pc + 4#32), m)
  | store w rs1 rs2 imm =>
    ({ h with pc := h.pc + 4#32 }, m.store w (h.read rs1 + imm) (h.read rs2))
  | opImm f rd rs1 imm => (h.write rd (f.eval (h.read rs1) imm) (h.pc + 4#32), m)
  | op f rd rs1 rs2 => (h.write rd (f.eval (h.read rs1) (h.read rs2)) (h.pc + 4#32), m)

/-- The bytes that an instruction loads. -/
def Instr.loads (k : ℕ) (h : Hart) : Instr → List (BitVec k)
  | load w _ _ rs1 imm => Memory.bytesAt k w (h.read rs1 + imm)
  | _ => []

/-- Memories that are alike where an instruction loads stay alike, and the hart cannot tell
them apart. -/
theorem Instr.exec_congr {k : ℕ} {h : Hart} {m m' : Memory k} {i : Instr} {W : Set (BitVec k)}
    (hm : ∀ b ∈ W, m b = m' b) (hloads : ∀ b ∈ i.loads k h, b ∈ W) :
    (i.exec h m).1 = (i.exec h m').1 ∧ ∀ b ∈ W, (i.exec h m).2 b = (i.exec h m').2 b := by
  cases i with
  | load w signed rd rs1 imm =>
    refine ⟨?_, hm⟩
    rw [exec, exec, Memory.load_congr (fun b hb ↦ hm b (hloads b hb))]
  | store w rs1 rs2 imm => exact ⟨rfl, fun b hb ↦ Memory.store_congr (hm b hb) _⟩
  | _ => exact ⟨rfl, hm⟩

end Rv32i
