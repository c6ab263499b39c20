import Pinwheel.Core.Units

/-!
# The core

`pinwheel_core`: the latches of the four stages, the signals that
`pinwheel_core::tock` computes from them, and the tock itself.  A signal that is
a local variable of the C++ function is a definition here, under its name.
Letters say which stages a signal runs between: `bc` is computed from the
latches of stage B and feeds stage C.
-/

namespace Pinwheel

open RV32I

/-- `regfile_if`: the two read ports and the write port of the register file. -/
structure RegfileIf where
  raddr1 : BitVec 12
  raddr2 : BitVec 12
  waddr : BitVec 12
  wdata : BitVec 32
  wren : Bool
deriving DecidableEq, Repr

/-- The registers of `pinwheel_core`, with its three output bundles. -/
structure Core where
  aHpc : Hpc
  bHpc : Hpc
  bInsn : Insn
  cHpc : Hpc
  cInsn : Insn
  cAddr : BitVec 32
  cResult : BitVec 32
  dWaddr : BitVec 13
  dWdata : BitVec 32
  dWren : Bool
  ticks : BitVec 32
  codeTla : TilelinkA
  dataTla : TilelinkA
  regIf : RegfileIf
deriving DecidableEq, Repr

/-- What the core reads from the rest of the SoC in one tock. -/
structure CoreIn where
  codeTld : TilelinkD
  dataTld : TilelinkD
  reg1 : BitVec 32
  reg2 : BitVec 32
deriving DecidableEq, Repr

/-- The 12-bit register-file address of a register of a hart. -/
def regAddr (hart : BitVec 7) (r : BitVec 5) : BitVec 12 := hart ++ r

namespace Core

variable (dc : DontCare) (c : Core) (i : CoreIn)

/-! ## Stage A and the operands of stage B -/

def abInsn : Insn := if c.aHpc.active then ⟨i.codeTld.dData⟩ else ⟨0#32⟩

/-- `_reg1` after the forward from stage D. -/
def reg1 : BitVec 32 :=
  if c.dWaddr = (regAddr c.bHpc.hart c.bInsn.rs1).setWidth 13 ∧ c.dWren then c.dWdata else i.reg1

/-- `_reg2` after the forward from stage D. -/
def reg2 : BitVec 32 :=
  if c.dWaddr = (regAddr c.bHpc.hart c.bInsn.rs2).setWidth 13 ∧ c.dWren then c.dWdata else i.reg2

def bcReg1 : BitVec 32 := if c.bInsn.rs1 = 0#5 then 0#32 else c.reg1 i
def bcReg2 : BitVec 32 := if c.bInsn.rs2 = 0#5 then 0#32 else c.reg2 i
def bcAddr : BitVec 32 := c.bcReg1 i + decodeImm dc c.bInsn

/-! ## What the instructions in B and C are -/

def bcYield : Bool := c.bHpc.active && c.bInsn.isCsrrw csrYield
def cdYield : Bool := c.cHpc.active && c.cInsn.isCsrrw csrYield
def cdSwap : Bool := c.cHpc.active && c.cInsn.isCsrrw csrSwap

/-- The top nibble of an address, by which the core decodes it. -/
def page (addr : BitVec 32) : BitVec 4 := addr.extractLsb' 28 4

def bcReadRegfile : Bool :=
  c.bHpc.active && c.bInsn.op == opLoad && page (c.bcAddr dc i) == 0xE#4

def cdReadCode : Bool := c.cHpc.active && c.cInsn.op == opLoad && page c.cAddr == 0x0#4
def cdReadRegfile : Bool := c.cHpc.active && c.cInsn.op == opLoad && page c.cAddr == 0xE#4
def cdReadMem : Bool := c.cHpc.active && c.cInsn.op == opLoad && page c.cAddr == 0x8#4
def cdWriteCode : Bool := c.cHpc.active && c.cInsn.op == opStore && page c.cAddr == 0x0#4
def cdWriteRegfile : Bool := c.cHpc.active && c.cInsn.op == opStore && page c.cAddr == 0xE#4

/-! ## Execution -/

def bcHpc : Hpc := nextHpc dc c.bHpc c.bInsn (c.bcReg1 i) (c.bcReg2 i)

def bcResult : BitVec 32 :=
  execute dc c.bHpc c.bInsn (c.bcReg1 i) (c.bcReg2 i) (c.bcHpc dc i)

/-- If both threads trigger PC swaps at once, the C one fires first. -/
def baHpc : Hpc :=
  if c.cdSwap then Hpc.fromLogic2 c.cResult
  else if c.bcYield then Hpc.fromLogic2 (c.bcReg1 i)
  else c.bcHpc dc i

/-! ## Writeback -/

def cdWriteback : BitVec 32 :=
  if c.cdYield then c.cResult
  else if c.cdSwap then (c.bcHpc dc i).toLogic
  -- The raw register, so that the R0s can be used as spare storage.
  else if c.cdReadRegfile then c.reg2 i
  else if c.cdReadMem then unpackMem c.cInsn.f3 c.cAddr i.dataTld.dData
  else if c.cHpc.active then c.cResult
  else dc.cdWriteback

def cdWaddr : BitVec 13 :=
  if c.cdWriteRegfile then (c.cAddr.extractLsb' 2 7).setWidth 13
  else if c.cHpc.active then (regAddr c.cHpc.hart c.cInsn.rd).setWidth 13
  else dc.cdWaddr.setWidth 13

def cdWdata : BitVec 32 :=
  if c.cdWriteRegfile then c.cdWriteback dc i
  else if c.cHpc.active then c.cdWriteback dc i
  else dc.cdWdata

def cdWren : Bool :=
  if c.cdWriteRegfile then true
  else if c.cHpc.active then
    c.cInsn.rd != 0#5 && c.cInsn.op != opStore && c.cInsn.op != opBranch
  else false

/-! ## Buses -/

/-- A code access of stage C takes the code bus while the other thread is idle. -/
def stealsCode : Bool := (c.cdReadCode || c.cdWriteCode) && !(c.baHpc dc i).active

def nextCodeTla : TilelinkA :=
  if c.stealsCode dc i then genBus dc c.cInsn.op c.cInsn.f3 c.cAddr c.cResult
  else genBus dc opLoad 2#3 ((c.baHpc dc i).pc.setWidth 32) c.cResult

def nextDataTla : TilelinkA :=
  genBus dc c.bInsn.op c.bInsn.f3 (c.bcAddr dc i) (c.bcReg2 i)

/-- If stage A is idle, its register slot serves mapped register reads. -/
def nextRegIf : RegfileIf where
  raddr1 :=
    if c.aHpc.active then regAddr c.aHpc.hart (c.abInsn i).rs1
    else if c.bcReadRegfile dc i then dc.raddr1Mapped
    else dc.raddr1Idle
  raddr2 :=
    if c.aHpc.active then regAddr c.aHpc.hart (c.abInsn i).rs2
    else if c.bcReadRegfile dc i then (c.bcAddr dc i).extractLsb' 2 12
    else dc.raddr2Idle
  waddr := c.dWaddr.setWidth 12
  wdata := c.dWdata
  wren := c.dWren

/-- `pinwheel_core::tock`, with `pinwheel_core::tick` as its last call. -/
def tock (reset : Bool) : Core :=
  { aHpc := if reset then Hpc.fromLogic1 true 0#7 4#24 else c.baHpc dc i
    bHpc := if reset then Hpc.fromLogic1 false 0#7 0#24 else c.aHpc
    bInsn := if reset then ⟨0#32⟩ else c.abInsn i
    cHpc := if reset then Hpc.fromLogic1 false 0#7 0#24 else c.bHpc
    cInsn := if reset then ⟨0#32⟩ else c.bInsn
    cAddr := if reset then 0#32 else c.bcAddr dc i
    cResult := if reset then 0#32 else c.bcResult dc i
    dWaddr := if reset then 0#13 else c.cdWaddr dc
    dWdata := if reset then 0#32 else c.cdWdata dc i
    dWren := if reset then false else c.cdWren
    ticks := if reset then 0#32 else c.ticks + 1#32
    codeTla := c.nextCodeTla dc i
    dataTla := c.nextDataTla dc i
    regIf := c.nextRegIf dc i }

end Core

end Pinwheel
