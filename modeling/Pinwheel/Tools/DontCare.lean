/-!
# The `DONTCARE` values

`DONTCARE` is defined in `metron_tools.h`, which is not part of the repository,
so its value is a parameter of the model.  Each place that uses the macro gets a
field of its own: the C++ simulation has one constant in all of them, while
synthesis may choose a different value at each place and in each clock.
-/

namespace Pinwheel

/-- The value each `DONTCARE` takes in one tock. -/
structure DontCare where
  /-- `CD_writeback` of an idle stage C. -/
  cdWriteback : BitVec 32
  /-- `CD_waddr` of an idle stage C. -/
  cdWaddr : BitVec 12
  /-- `CD_wdata` of an idle stage C. -/
  cdWdata : BitVec 32
  /-- `raddr1` while stage B reads the mapped register file. -/
  raddr1Mapped : BitVec 12
  /-- `raddr1` while nothing is read. -/
  raddr1Idle : BitVec 12
  /-- `raddr2` while nothing is read. -/
  raddr2Idle : BitVec 12
  /-- The result of a branch in `execute`. -/
  branchResult : BitVec 32
  /-- The result of a load in `execute`. -/
  loadResult : BitVec 32
  /-- The result of any other opcode in `execute`. -/
  otherResult : BitVec 32
  /-- The next pc of an unknown opcode in `next_hpc`. -/
  nextPc : BitVec 24
  /-- The initial result of `execute_system`. -/
  systemResult : BitVec 32
  /-- `bus_size` of an access that is not a byte, half or word in `gen_bus`. -/
  busSize : BitVec 3
  /-- `a_param` of `gen_bus`. -/
  aParam : BitVec 3
  /-- `a_source` of `gen_bus`. -/
  aSource : Bool
  /-- The immediate of an opcode without one in `decode_imm`. -/
  imm : BitVec 32
  /-- `d_opcode` of a UART adapter that was not addressed. -/
  dOpcode : BitVec 3
  /-- `d_data` of a UART adapter that was not addressed. -/
  dData : BitVec 32
deriving DecidableEq, Repr

/-- One constant `DONTCARE` everywhere, as in the C++ simulation. -/
def DontCare.const (x : BitVec 32) : DontCare where
  cdWriteback := x
  cdWaddr := x.setWidth 12
  cdWdata := x
  raddr1Mapped := x.setWidth 12
  raddr1Idle := x.setWidth 12
  raddr2Idle := x.setWidth 12
  branchResult := x
  loadResult := x
  otherResult := x
  nextPc := x.setWidth 24
  systemResult := x
  busSize := x.setWidth 3
  aParam := x.setWidth 3
  aSource := x.getLsbD 0
  imm := x
  dOpcode := x.setWidth 3
  dData := x

end Pinwheel
