/-!
# RISC-V constants and instruction words

`tools/riscv_constants.h`: the opcodes and `funct3` codes the core looks at, and
the bit fields through which it looks at an instruction word.
-/

namespace Pinwheel

namespace RV32I

def opLoad : BitVec 7 := 0b0000011#7
def opCustom0 : BitVec 7 := 0b0001011#7
def opMiscmem : BitVec 7 := 0b0001111#7
def opOpimm : BitVec 7 := 0b0010011#7
def opAuipc : BitVec 7 := 0b0010111#7
def opStore : BitVec 7 := 0b0100011#7
def opOp : BitVec 7 := 0b0110011#7
def opLui : BitVec 7 := 0b0110111#7
def opBranch : BitVec 7 := 0b1100011#7
def opJalr : BitVec 7 := 0b1100111#7
def opJal : BitVec 7 := 0b1101111#7
def opSystem : BitVec 7 := 0b1110011#7

def f3Beq : BitVec 3 := 0b000#3
def f3Bne : BitVec 3 := 0b001#3
def f3Bequ : BitVec 3 := 0b010#3
def f3Bneu : BitVec 3 := 0b011#3
def f3Blt : BitVec 3 := 0b100#3
def f3Bge : BitVec 3 := 0b101#3
def f3Bltu : BitVec 3 := 0b110#3
def f3Bgeu : BitVec 3 := 0b111#3

def f3Lb : BitVec 3 := 0b000#3
def f3Lh : BitVec 3 := 0b001#3
def f3Lw : BitVec 3 := 0b010#3
def f3Ld : BitVec 3 := 0b011#3
def f3Lbu : BitVec 3 := 0b100#3
def f3Lhu : BitVec 3 := 0b101#3
def f3Lwu : BitVec 3 := 0b110#3
def f3Ldu : BitVec 3 := 0b111#3

def f3Addsub : BitVec 3 := 0b000#3
def f3Sl : BitVec 3 := 0b001#3
def f3Slt : BitVec 3 := 0b010#3
def f3Sltu : BitVec 3 := 0b011#3
def f3Xor : BitVec 3 := 0b100#3
def f3Sr : BitVec 3 := 0b101#3
def f3Or : BitVec 3 := 0b110#3
def f3And : BitVec 3 := 0b111#3

def f3Csrrw : BitVec 3 := 0b001#3
def f3Csrrs : BitVec 3 := 0b010#3

def mhartid : BitVec 12 := 0xF14#12

/-- CSR 0x800 swaps the secondary thread. -/
def csrSwap : BitVec 12 := 0x800#12
/-- CSR 0x801 yields the primary thread. -/
def csrYield : BitVec 12 := 0x801#12

end RV32I

/-- `rv32_insn`: a raw word with the bit-field views of the six formats. -/
structure Insn where
  raw : BitVec 32
deriving DecidableEq, Repr

namespace Insn

variable (i : Insn)

def op : BitVec 7 := i.raw.extractLsb' 0 7
def rd : BitVec 5 := i.raw.extractLsb' 7 5
def f3 : BitVec 3 := i.raw.extractLsb' 12 3
def rs1 : BitVec 5 := i.raw.extractLsb' 15 5
def rs2 : BitVec 5 := i.raw.extractLsb' 20 5
def f7 : BitVec 7 := i.raw.extractLsb' 25 7
def csr : BitVec 12 := i.raw.extractLsb' 20 12

/-- I-type `imm_11_0`. -/
def immI110 : BitVec 12 := i.raw.extractLsb' 20 12

/-- S-type `imm_4_0`. -/
def immS40 : BitVec 5 := i.raw.extractLsb' 7 5
/-- S-type `imm_11_5`. -/
def immS115 : BitVec 7 := i.raw.extractLsb' 25 7

/-- B-type `imm_11`. -/
def immB11 : BitVec 1 := i.raw.extractLsb' 7 1
/-- B-type `imm_4_1`. -/
def immB41 : BitVec 4 := i.raw.extractLsb' 8 4
/-- B-type `imm_10_5`. -/
def immB105 : BitVec 6 := i.raw.extractLsb' 25 6
/-- B-type `imm_12`. -/
def immB12 : BitVec 1 := i.raw.extractLsb' 31 1

/-- U-type `imm_31_12`. -/
def immU3112 : BitVec 20 := i.raw.extractLsb' 12 20

/-- J-type `imm_19_12`. -/
def immJ1912 : BitVec 8 := i.raw.extractLsb' 12 8
/-- J-type `imm_11`. -/
def immJ11 : BitVec 1 := i.raw.extractLsb' 20 1
/-- J-type `imm_10_1`. -/
def immJ101 : BitVec 10 := i.raw.extractLsb' 21 10
/-- J-type `imm_20`. -/
def immJ20 : BitVec 1 := i.raw.extractLsb' 31 1

/-- A load or a store. -/
def isMem : Bool := i.op == RV32I.opLoad || i.op == RV32I.opStore

/-- A CSR read-write of the given register, as the core recognises its two
thread-switch instructions. -/
def isCsrrw (csr : BitVec 12) : Bool :=
  i.op == RV32I.opSystem && i.f3 == RV32I.f3Csrrw && i.csr == csr

end Insn

end Pinwheel
