import Mathlib.Data.Nat.Notation
import Mathlib.Data.Int.Notation
import Pinwheel.Tools.Riscv

/-!
# The disassembler

`tools/rvdisasm.cpp`: what `print_rv` prints for an instruction word.  A call of the
`Dumper` is the list of the pieces of its format string, each conversion with its
argument.  A `switch` is a chain of `if`s in the order of its cases.
-/

namespace Pinwheel

open RV32I

/-- A piece of a format string. -/
inductive Piece where
  | text (s : String)
  /-- `r%02d`. -/
  | reg (n : BitVec 5)
  /-- `%c`. -/
  | char (c : Char)
  /-- `%d`. -/
  | dec (n : ℤ)
  /-- `%0*x`. -/
  | hex (digits : ℕ) (n : ℕ)
deriving DecidableEq, Repr

/-- A number with at least so many digits. -/
def zeroPadded (digits : ℕ) (ds : List Char) : String :=
  String.ofList (List.replicate (digits - ds.length) '0' ++ ds)

def Piece.print : Piece → String
  | text s => s
  | reg n => "r" ++ zeroPadded 2 (Nat.toDigits 10 n.toNat)
  | char c => String.ofList [c]
  | dec n => toString n
  | hex digits n => zeroPadded digits (Nat.toDigits 16 n)

namespace Rvdisasm

/-- `dup<n>`. -/
def dup (n : ℕ) (b : Bool) : BitVec n := if b then BitVec.allOnes n else 0#n

variable (op : BitVec 32)

def immI : ℤ := (op.extractLsb' 20 12).toInt

def immS : ℤ :=
  (dup 21 (op.getLsbD 31) ++ op.extractLsb' 25 6 ++ op.extractLsb' 7 5).toInt

def immB : ℤ :=
  (dup 20 (op.getLsbD 31) ++ op.extractLsb' 7 1 ++ op.extractLsb' 25 6 ++ op.extractLsb' 8 4 ++
    0#1).toInt

/-- `b20(op, 12) << 12`, a shift of an integer of 32 bits. -/
def immU : BitVec 32 := (op.extractLsb' 12 20).setWidth 32 <<< 12

def immJ : ℤ :=
  (dup 12 (op.getLsbD 31) ++ op.extractLsb' 12 8 ++ op.extractLsb' 20 1 ++ op.extractLsb' 21 10 ++
    0#1).toInt

/-- `%c%d` with the sign and the absolute value of an immediate. -/
def signed (imm : ℤ) : List Piece :=
  [.char (if imm < 0 then '-' else '+'), .dec (if imm < 0 then -imm else imm)]

def loadName (f3 : BitVec 3) : String :=
  if f3 = 0#3 then "LB    "
  else if f3 = 1#3 then "LH    "
  else if f3 = 2#3 then "LW    "
  else if f3 = 3#3 then "L??   "
  else if f3 = 4#3 then "LBU   "
  else if f3 = 5#3 then "LHU   "
  else if f3 = 6#3 then "L??   "
  else "L??   "

def storeName (f3 : BitVec 3) : String :=
  if f3 = 0#3 then "SB    "
  else if f3 = 1#3 then "SH    "
  else if f3 = 2#3 then "SW    "
  else "S??   "

def opName (f3 : BitVec 3) : String :=
  if f3 = 0#3 then if op.getLsbD 30 then "SUB   " else "ADD   "
  else if f3 = 1#3 then "SLL   "
  else if f3 = 2#3 then "SLT   "
  else if f3 = 3#3 then "SLTU  "
  else if f3 = 4#3 then "XOR   "
  else if f3 = 5#3 then if op.getLsbD 30 then "SRA   " else "SRL   "
  else if f3 = 6#3 then "OR    "
  else "AND   "

def opimmName (f3 : BitVec 3) : String :=
  if f3 = 0#3 then "ADDI  "
  else if f3 = 1#3 then "SLLI  "
  else if f3 = 2#3 then "SLTI  "
  else if f3 = 3#3 then "SLTUI "
  else if f3 = 4#3 then "XORI  "
  else if f3 = 5#3 then if op.getLsbD 30 then "SRAI  " else "SRLI  "
  else if f3 = 6#3 then "ORI   "
  else "ANDI  "

def branchName (f3 : BitVec 3) : String :=
  if f3 = 0#3 then "BEQ   "
  else if f3 = 1#3 then "BNE   "
  else if f3 = 2#3 then "???   "
  else if f3 = 3#3 then "???   "
  else if f3 = 4#3 then "BLT   "
  else if f3 = 5#3 then "BGE   "
  else if f3 = 6#3 then "BLTU  "
  else "BGEU  "

def systemName (f3 : BitVec 3) : String :=
  if f3 = 0#3 then "???   "
  else if f3 = 1#3 then "CSRRW "
  else if f3 = 2#3 then "CSRRS "
  else if f3 = 3#3 then "CSRRC "
  else if f3 = 4#3 then "???   "
  else if f3 = 5#3 then "CSRWI "
  else if f3 = 6#3 then "CSRSI "
  else "CSRCI "

/-- The `switch` over the opcode. -/
def printOpcode : List Piece :=
  let opcode := op.extractLsb' 0 7
  let rd := op.extractLsb' 7 5
  let rs1 := op.extractLsb' 15 5
  let rs2 := op.extractLsb' 20 5
  let f3 := op.extractLsb' 12 3
  if opcode = opLoad then
    [.text (loadName f3), .reg rd, .text ", [", .reg rs1] ++ signed (immI op) ++ [.text "]"]
  else if opcode = opStore then
    [.text (storeName f3), .reg rs2, .text ", [", .reg rs1] ++ signed (immS op) ++ [.text "]"]
  else if opcode = opOp then
    [.text (opName op f3), .reg rd, .text ", ", .reg rs1, .text ", ", .reg rs2]
  else if opcode = opOpimm then
    [.text (opimmName op f3), .reg rd, .text ", ", .reg rs1, .text ", ", .dec (immI op)]
  else if opcode = opBranch then
    [.text (branchName f3), .reg rs1, .text ", ", .reg rs2, .text ", "] ++ signed (immB op)
  else if opcode = opAuipc then
    [.text "AUIPC ", .reg rd, .text ", 0x", .hex 8 (immU op).toNat]
  else if opcode = opLui then
    [.text "LUI   ", .reg rd, .text ", ", .dec (op.extractLsb' 12 20).toNat]
  else if opcode = opJalr then
    [.text "JALR  ", .reg rd, .text ", [", .reg rs1] ++ signed (immI op) ++ [.text "]"]
  else if opcode = opJal then
    [.text "JAL   ", .reg rd, .text ", ["] ++ signed (immJ op) ++ [.text "]"]
  else if opcode = opSystem then
    [.text (systemName f3), .reg rd, .text ", 0x", .hex 3 (op.extractLsb' 20 12).toNat,
      .text ", ", .reg rs1]
  else if opcode = opCustom0 then
    [.text "CUSTOM! rd=", .dec rd.toNat, .text " rs1 = ", .dec rs1.toNat, .text " rs2 = ",
      .dec rs2.toNat]
  else [.text "<???>"]

end Rvdisasm

def printRv (op : BitVec 32) : List Piece :=
  if op = 0#32 then [.text "<???>"]
  else if op.extractLsb' 0 2 ≠ 0b11#2 then [.text "<???>"]
  else Rvdisasm.printOpcode op

end Pinwheel
