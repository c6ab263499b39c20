import Pinwheel.Tools.DontCare
import Pinwheel.Tools.Riscv
import Pinwheel.Tools.Tilelink

/-!
# The combinational units of the core

The static functions of `core/pinwheel_core.h`: immediate decoding, branch
decision, ALU, next-HPC and result computation, and the two bus adapters.  Each
`switch` is a chain of `if`s in the order of its cases.  The functions that use
`DONTCARE` take the values for the current tock as their first argument.
-/

namespace Pinwheel

open RV32I

/-- `rv32_hpc`: a thread handle. -/
structure Hpc where
  active : Bool
  hart : BitVec 7
  pc : BitVec 24
deriving DecidableEq, Repr

namespace Hpc

def toLogic (h : Hpc) : BitVec 32 := BitVec.ofBool h.active ++ h.hart ++ h.pc

def fromLogic1 (active : Bool) (hart : BitVec 7) (pc : BitVec 24) : Hpc := ⟨active, hart, pc⟩

def fromLogic2 (w : BitVec 32) : Hpc :=
  ⟨w.getLsbD 31, w.extractLsb' 24 7, w.extractLsb' 0 24⟩

end Hpc

def decodeImm (dc : DontCare) (i : Insn) : BitVec 32 :=
  let immI : BitVec 32 := i.immI110.signExtend 32
  let immS : BitVec 32 := (i.immS115 ++ i.immS40).signExtend 32
  let immU : BitVec 32 := i.immU3112 ++ 0#12
  let immB : BitVec 32 := (i.immB12 ++ i.immB11 ++ i.immB105 ++ i.immB41 ++ 0#1).signExtend 32
  let immJ : BitVec 32 := (i.immJ20 ++ i.immJ1912 ++ i.immJ11 ++ i.immJ101 ++ 0#1).signExtend 32
  if i.op = opLoad then immI
  else if i.op = opOpimm then immI
  else if i.op = opAuipc then immU
  else if i.op = opStore then immS
  else if i.op = opOp then immI
  else if i.op = opLui then immU
  else if i.op = opBranch then immB
  else if i.op = opJalr then immI
  else if i.op = opJal then immJ
  else dc.imm

/-- `take_branch`: its eight cases cover every `f3`, so its default is dead. -/
def takeBranch (f3 : BitVec 3) (reg1 reg2 : BitVec 32) : Bool :=
  let eq := reg1 == reg2
  let slt := reg1.slt reg2
  let ult := reg1.ult reg2
  if f3 = f3Beq then eq
  else if f3 = f3Bne then !eq
  else if f3 = f3Bequ then eq
  else if f3 = f3Bneu then !eq
  else if f3 = f3Blt then slt
  else if f3 = f3Bge then !slt
  else if f3 = f3Bltu then ult
  else !ult

/-- `execute_alu`: its eight cases cover every `f3`, so its default is dead. -/
def executeAlu (i : Insn) (alu1 alu2 : BitVec 32) : BitVec 32 :=
  let shamt : BitVec 5 := alu2.setWidth 5
  if i.f3 = f3Addsub then if i.op = opOp ∧ i.f7 = 32#7 then alu1 - alu2 else alu1 + alu2
  else if i.f3 = f3Sl then alu1 <<< shamt.toNat
  else if i.f3 = f3Slt then if alu1.slt alu2 then 1#32 else 0#32
  else if i.f3 = f3Sltu then if alu1.ult alu2 then 1#32 else 0#32
  else if i.f3 = f3Xor then alu1 ^^^ alu2
  else if i.f3 = f3Sr then
    if i.f7 = 32#7 then alu1.sshiftRight shamt.toNat else alu1 >>> shamt.toNat
  else if i.f3 = f3Or then alu1 ||| alu2
  else alu1 &&& alu2

def executeSystem (dc : DontCare) (hart : BitVec 7) (i : Insn) : BitVec 32 :=
  if i.f3 = f3Csrrw then
    if i.csr = mhartid then hart.setWidth 32 else dc.systemResult
  else if i.f3 = f3Csrrs then
    if i.csr = mhartid then hart.setWidth 32 else dc.systemResult
  else dc.systemResult

def nextHpc (dc : DontCare) (old : Hpc) (i : Insn) (reg1 reg2 : BitVec 32) : Hpc :=
  let imm := decodeImm dc i
  let pcPlus4 : BitVec 32 := old.pc.setWidth 32 + 4#32
  let pcPlusImm : BitVec 32 := old.pc.setWidth 32 + imm
  let newPc : BitVec 24 :=
    if i.op = opBranch then
      (if takeBranch i.f3 reg1 reg2 then pcPlusImm else pcPlus4).setWidth 24
    else if i.op = opJal then pcPlusImm.setWidth 24
    else if i.op = opJalr then (reg1 + imm).setWidth 24
    else if i.op = opLui then pcPlus4.setWidth 24
    else if i.op = opAuipc then pcPlus4.setWidth 24
    else if i.op = opLoad then pcPlus4.setWidth 24
    else if i.op = opStore then pcPlus4.setWidth 24
    else if i.op = opSystem then pcPlus4.setWidth 24
    else if i.op = opOpimm then pcPlus4.setWidth 24
    else if i.op = opOp then pcPlus4.setWidth 24
    else dc.nextPc
  ⟨old.active, old.hart, newPc⟩

def execute (dc : DontCare) (old : Hpc) (i : Insn) (reg1 reg2 : BitVec 32) (next : Hpc) :
    BitVec 32 :=
  let yield := old.active && i.isCsrrw csrYield
  let swap := old.active && i.isCsrrw csrSwap
  -- A yield keeps where the thread would have gone, for the writeback in stage C.
  if yield then next.toLogic
  -- A swap keeps its target in the result, where stage C finds it.
  else if swap then reg1
  else
    let imm := decodeImm dc i
    let pcPlus4 : BitVec 32 := old.pc.setWidth 32 + 4#32
    if i.op = opOpimm then executeAlu i reg1 imm
    else if i.op = opOp then executeAlu i reg1 reg2
    else if i.op = opSystem then executeSystem dc old.hart i
    else if i.op = opBranch then dc.branchResult
    else if i.op = opJal then pcPlus4
    else if i.op = opJalr then pcPlus4
    else if i.op = opLui then imm
    else if i.op = opAuipc then old.pc.setWidth 32 + imm
    else if i.op = opLoad then dc.loadResult
    else if i.op = opStore then reg2
    else dc.otherResult

/-- `gen_bus`: translates an opcode into a TileLink A message. -/
def genBus (dc : DontCare) (op : BitVec 7) (f3 : BitVec 3) (addr reg2 : BitVec 32) :
    TilelinkA :=
  let busSize : BitVec 3 :=
    if f3 = 0#3 then 0#3 else if f3 = 1#3 then 1#3 else if f3 = 2#3 then 2#3 else dc.busSize
  let mask0 : BitVec 4 :=
    if f3 = 0#3 then 0b0001#4 else if f3 = 1#3 then 0b0011#4 else if f3 = 2#3 then 0b1111#4
    else 0#4
  let mask1 := if addr.getLsbD 0 then mask0 <<< 1 else mask0
  let mask2 := if addr.getLsbD 1 then mask1 <<< 2 else mask1
  { aAddress := addr
    aData := reg2 <<< ((addr &&& 3#32).toNat * 8)
    aMask := mask2
    aOpcode :=
      if op = opStore then if busSize = 2#3 then TL.putFullData else TL.putPartialData else TL.get
    aParam := dc.aParam
    aSize := busSize
    aSource := dc.aSource
    aValid := op == opLoad || op == opStore
    aReady := true }

def unpackMem (f3 : BitVec 3) (addr packedMem : BitVec 32) : BitVec 32 :=
  let mem1 := if addr.getLsbD 0 then packedMem >>> 8 else packedMem
  let mem := if addr.getLsbD 1 then mem1 >>> 16 else mem1
  if f3 = f3Lb then (mem.setWidth 8).signExtend 32
  else if f3 = f3Lh then (mem.setWidth 16).signExtend 32
  else if f3 = f3Lw then mem
  else if f3 = f3Ld then mem
  else if f3 = f3Lbu then (mem.setWidth 8).setWidth 32
  else if f3 = f3Lhu then (mem.setWidth 16).setWidth 32
  else mem

end Pinwheel
