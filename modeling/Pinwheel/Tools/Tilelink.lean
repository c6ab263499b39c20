/-!
# TileLink messages

`tools/tilelink.h`: the opcodes of the two channels and the two message records
that the core and the bus slaves exchange.  A `logic<N>` is a `BitVec N` and a
`logic<1>` is a `Bool`, here and in every other module of the model.
-/

namespace Pinwheel

namespace TL

def putFullData : BitVec 3 := 0#3
def putPartialData : BitVec 3 := 1#3
def get : BitVec 3 := 4#3

def accessAck : BitVec 3 := 0#3
def accessAckData : BitVec 3 := 1#3

def invalid : BitVec 3 := 7#3

end TL

/-- A request on the A channel. -/
structure TilelinkA where
  aOpcode : BitVec 3
  aParam : BitVec 3
  aSize : BitVec 3
  aSource : Bool
  aAddress : BitVec 32
  aMask : BitVec 4
  aData : BitVec 32
  aValid : Bool
  aReady : Bool
deriving DecidableEq, Repr

/-- A response on the D channel. -/
structure TilelinkD where
  dOpcode : BitVec 3
  dParam : BitVec 2
  dSize : BitVec 3
  dSource : Bool
  dSink : BitVec 3
  dData : BitVec 32
  dError : Bool
  dValid : Bool
  dReady : Bool
deriving DecidableEq, Repr

namespace TilelinkA

/-- The request is valid and its address lies in the range a slave decodes. -/
def selects (tla : TilelinkA) (addrMask addrTag : BitVec 32) : Bool :=
  tla.aValid && tla.aAddress &&& addrMask == addrTag

/-- The request is one of the two writes. -/
def isPut (tla : TilelinkA) : Bool :=
  tla.aOpcode == TL.putFullData || tla.aOpcode == TL.putPartialData

end TilelinkA

end Pinwheel
