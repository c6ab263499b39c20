import Mathlib.Logic.Function.Basic
import Pinwheel.Tools.Tilelink

/-!
# Block RAM and its bus adapter

`soc/block_ram.h` and `soc/bus_ram.h`.  The number of words is a power of two,
`2 ^ bits`, so that `addr_bits = clog2(dwords)` is `bits` and every index is in
range.
-/

namespace Pinwheel

/-- `block_ram`: one port, whose output latch holds the word read last. -/
structure BlockRam (bits : Nat) where
  ram : BitVec bits → BitVec 32
  rdata : BitVec 32

/-- The byte lanes a write mask selects. -/
def laneMask (wmask : BitVec 4) : BitVec 32 :=
  (if wmask.getLsbD 0 then 0x000000FF#32 else 0#32) |||
    (if wmask.getLsbD 1 then 0x0000FF00#32 else 0#32) |||
    (if wmask.getLsbD 2 then 0x00FF0000#32 else 0#32) |||
    (if wmask.getLsbD 3 then 0xFF000000#32 else 0#32)

/-- The word that a masked write leaves in place of `old`. -/
def mergeLanes (old wdata : BitVec 32) (wmask : BitVec 4) : BitVec 32 :=
  (wdata &&& laneMask wmask) ||| (old &&& ~~~laneMask wmask)

namespace BlockRam

variable {bits : Nat}

def tock (r : BlockRam bits) (addr : BitVec bits) (wdata : BitVec 32) (wmask : BitVec 4) :
    BlockRam bits :=
  if wmask = 0#4 then { r with rdata := r.ram addr }
  else
    { rdata := r.ram addr
      ram := Function.update r.ram addr (mergeLanes (r.ram addr) wdata wmask) }

end BlockRam

/-- `bx<addr_bits>(address, 2)`: the word a byte address falls in. -/
def wordIndex (bits : Nat) (address : BitVec 32) : BitVec bits := (address >>> 2).setWidth bits

/-- `bus_ram`: a block RAM behind a TileLink adapter. -/
structure BusRam (bits : Nat) where
  tld : TilelinkD
  ram : BlockRam bits

namespace BusRam

variable {bits : Nat} (addrMask addrTag : BitVec 32) (r : BusRam bits) (tla : TilelinkA)

/-- The response, with the RAM output of the previous cycle as its data. -/
def getTld : TilelinkD := { r.tld with dData := r.ram.rdata }

def tick (cs : Bool) : TilelinkD :=
  { r.tld with
    dOpcode :=
      if cs ∧ tla.aOpcode = TL.get then TL.accessAckData
      else if cs ∧ tla.isPut then TL.accessAck
      else TL.invalid
    dSize := tla.aSize
    dValid := cs && (tla.isPut || tla.aOpcode == TL.get) }

def tockB : BusRam bits :=
  let cs := tla.selects addrMask addrTag
  { ram := r.ram.tock (wordIndex bits tla.aAddress) tla.aData
      (if cs ∧ tla.isPut then tla.aMask else 0#4)
    tld := r.tick tla cs }

end BusRam

end Pinwheel
