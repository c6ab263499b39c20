import Mathlib.Data.Int.Notation
import Mathlib.Data.Nat.Notation

/-!
# The demo firmware's console

The `Console` of `tests/firmware/hello.cpp` prints numbers by storing one character after
another to `*out`, a word of 32 bits.  Each routine is the list of what it stores.  An
`int` has 32 bits, and the negation of the most negative one leaves it as it is.  A store
outside of the buffer of `putd` has no result.
-/

namespace Pinwheel

namespace Firmware

/-! ## Hexadecimal -/

/-- `(x > 9 ? 'A' - 10 : '0') + x`. -/
def putnx (x : BitVec 8) : BitVec 32 := (if 9#8 < x then 55#32 else 48#32) + x.setWidth 32

/-- `for (int i = ...; i >= 0; i -= 4) putnx((x >> i) & 0xF);` from some `i` on. -/
def putNibbles (x : BitVec 32) (i : ℤ) : List (BitVec 32) :=
  if 0 ≤ i then putnx ((x >>> i.toNat &&& 0xF#32).setWidth 8) :: putNibbles x (i - 4) else []
termination_by (i + 1).toNat
decreasing_by omega

def putdx (x : BitVec 32) : List (BitVec 32) := putNibbles x 28

/-- `while(t > 0xF) { t >>= 4; c += 4; }`, with the final `c`. -/
def countNibbles (t : BitVec 32) (c : ℤ) : ℤ :=
  if 0xF#32 < t then countNibbles (t >>> 4) (c + 4) else c
termination_by t.toNat
decreasing_by
  rename_i h
  rw [BitVec.lt_def] at h
  rw [BitVec.toNat_ushiftRight, Nat.shiftRight_eq_div_pow]
  exact Nat.div_lt_self (Nat.zero_lt_of_lt h) (by decide)

def putx (x : BitVec 32) : List (BitVec 32) :=
  if x = 0#32 then [48#32] else putNibbles x (countNibbles x 0 - 4)

/-! ## Decimal -/

/-- `uint8_t buf[16]`. -/
abbrev Buf := Vector (BitVec 8) 16

/-- `buf[count] = v`. -/
def Buf.put (buf : Buf) (count : ℕ) (v : BitVec 8) : Option Buf :=
  if h : count < 16 then some (buf.set count v) else none

/-! From 10 on an `int` is divided like a number. -/

section Division

variable {d : BitVec 32}

theorem msb_of_sle (h : (10#32).sle d = true) : d.msb = false := by
  rw [BitVec.sle_iff_toInt_le] at h
  rw [BitVec.msb_eq_toInt, decide_eq_false_iff_not, Int.not_lt]
  exact Int.le_trans (by decide) h

theorem toNat_of_sle (h : (10#32).sle d = true) : 10 ≤ d.toNat := by
  have hmsb := msb_of_sle h
  rw [BitVec.sle_iff_toInt_le, BitVec.toInt_eq_toNat_of_msb hmsb] at h
  exact Int.ofNat_le.mp h

theorem toNat_sdiv (h : (10#32).sle d = true) : (d.sdiv 10#32).toNat = d.toNat / 10 := by
  have hten : (10#32).msb = false := by decide
  rw [BitVec.sdiv_eq, msb_of_sle h, hten]
  exact BitVec.toNat_udiv

theorem toNat_srem (h : (10#32).sle d = true) : (d.srem 10#32).toNat = d.toNat % 10 := by
  have hten : (10#32).msb = false := by decide
  rw [BitVec.srem_eq, msb_of_sle h, hten]
  exact BitVec.toNat_umod

end Division

/-- `while(d >= 10) { buf[count++] = (d % 10); d = d / 10; }` and `buf[count++] = d`. -/
def splitDigits (d : BitVec 32) (count : ℕ) (buf : Buf) : Option (ℕ × Buf) :=
  if (10#32).sle d then
    (buf.put count ((d.srem 10#32).setWidth 8)).bind fun buf ↦
      splitDigits (d.sdiv 10#32) (count + 1) buf
  else (buf.put count (d.setWidth 8)).map fun buf ↦ (count + 1, buf)
termination_by d.toNat
decreasing_by
  rename_i h
  rw [toNat_sdiv h]
  exact Nat.div_lt_self (Nat.lt_of_lt_of_le (by decide) (toNat_of_sle h)) (by decide)

/-- `for (int i = count - 1; i >= 0; i--) *out = '0' + buf[i];`. -/
def putDigits (buf : Buf) : ℕ → Option (List (BitVec 32))
  | 0 => some []
  | i + 1 => do
    let v ← buf[i]?
    let out ← putDigits buf i
    return (48#32 + v.setWidth 32) :: out

/-- `putd`, with whatever the buffer holds. -/
def putd (buf : Buf) (d : BitVec 32) : Option (List (BitVec 32)) :=
  if d = 0#32 then some [48#32]
  else do
    let sign := if d.slt 0#32 then [45#32] else []
    let d := if d.slt 0#32 then -d else d
    let (count, buf) ← splitDigits d 0 buf
    let out ← putDigits buf count
    return sign ++ out

end Firmware

end Pinwheel
