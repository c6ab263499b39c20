import Mathlib.Data.Nat.Notation
import Mathlib.Logic.Function.Basic
import Pinwheel.Core.Tock

/-!
# The register file

`soc/regfile.h`: two banks of 256 words with the same contents, one for each read
port.
-/

namespace Pinwheel

/-- `ram_256x32`: one read port with an output latch and one write port. -/
structure Ram256x32 where
  ram : BitVec 8 → BitVec 32
  rdata : BitVec 32

/-- `ram_256x32::tick`.  The bypass compares the addresses only: it hands out
`wdata` for a disabled write too. -/
def Ram256x32.tick (r : Ram256x32) (raddr waddr : BitVec 8) (wdata : BitVec 32) (wren : Bool) :
    Ram256x32 where
  rdata := if raddr = waddr then wdata else r.ram raddr
  ram := if wren then Function.update r.ram waddr wdata else r.ram

/-- `logic<32>::operator[]`, which picks a bit of a word.  `metron_tools.h` is not in the
repository; what it picks behind the last bit is left open. -/
structure BitIndex where
  bit : BitVec 32 → ℕ → Bool
  bit_of_lt : ∀ w i, i < 32 → bit w i = w.getLsbD i

/-- There is no bit behind the last one. -/
def BitIndex.bounded : BitIndex := ⟨BitVec.getLsbD, fun _ _ _ ↦ rfl⟩

/-- `regfile`: both banks. -/
structure Regfile where
  ram1 : Ram256x32
  ram2 : Ram256x32

namespace Regfile

variable (r : Regfile)

def getRs1 : BitVec 32 := r.ram1.rdata
def getRs2 : BitVec 32 := r.ram2.rdata

/-- `get`, which indexes the output latch. -/
def get (op : BitIndex) (index : ℕ) : BitVec 32 :=
  (BitVec.ofBool (op.bit r.ram1.rdata index)).setWidth 32

def tick (i : RegfileIf) : Regfile where
  ram1 := r.ram1.tick (i.raddr1.setWidth 8) (i.waddr.setWidth 8) i.wdata i.wren
  ram2 := r.ram2.tick (i.raddr2.setWidth 8) (i.waddr.setWidth 8) i.wdata i.wren

end Regfile

end Pinwheel
