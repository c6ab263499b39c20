import Pinwheel.Tools.Tilelink

/-!
# The debug register

`soc/test_reg.h`: one word behind a TileLink adapter, kept in the data field of
the response itself.
-/

namespace Pinwheel

/-- `expand_bitmask`: each bit of the mask, eight times. -/
def expandBitmask (mask : BitVec 4) : BitVec 32 :=
  let lane (b : Bool) : BitVec 8 := if b then 0xFF#8 else 0x00#8
  lane (mask.getLsbD 3) ++ lane (mask.getLsbD 2) ++ lane (mask.getLsbD 1) ++ lane (mask.getLsbD 0)

/-- `test_reg`. -/
structure TestReg where
  tld : TilelinkD

namespace TestReg

variable (addrMask addrTag : BitVec 32) (r : TestReg) (tla : TilelinkA)

def getTld : TilelinkD := r.tld

/-- `test_reg::tock`, which only calls `tick`. -/
def tock : TestReg where
  tld :=
    let cs := tla.selects addrMask addrTag
    let mask := expandBitmask tla.aMask
    { r.tld with
      dValid := cs
      dData := if cs ∧ tla.isPut then (r.tld.dData &&& ~~~mask) ||| (tla.aData &&& mask)
        else r.tld.dData }

end TestReg

end Pinwheel
