import Mathlib.Data.Nat.Notation
import Mathlib.Logic.Function.Basic
import Pinwheel.Tools.Tilelink

/-!
# The console

`soc/console.h`: a text screen behind the bus, for the simulator only.  `buf_` is an
array of `width * height` characters; the model has a value for every index, and the
cursor stays where the array has one.  A `char` is a byte.
-/

namespace Pinwheel

structure Console where
  addrMask : BitVec 32
  addrTag : BitVec 32
  buf : ℕ → BitVec 8
  x : ℕ
  y : ℕ

namespace Console

def width : ℕ := 64
def height : ℕ := 16

/-- The glyph that marks the cursor. -/
def cursor : BitVec 8 := 30#8
/-- `\n`. -/
def lineFeed : BitVec 8 := 0x0A#8
/-- `\r`. -/
def carriageReturn : BitVec 8 := 0x0D#8
/-- `?`. -/
def questionMark : BitVec 8 := 0x3F#8

/-- The constructor, on whatever `buf_` holds. -/
def construct (buf : ℕ → BitVec 8) : Console := ⟨0#32, 0#32, buf, 0, 0⟩

/-- `memset`. -/
def memset (buf : ℕ → BitVec 8) (start : ℕ) (c : BitVec 8) (len : ℕ) : ℕ → BitVec 8 :=
  fun i ↦ if start ≤ i ∧ i < start + len then c else buf i

variable (k : Console)

def init (addrMask addrTag : BitVec 32) : Console :=
  { k with
    addrMask := addrMask
    addrTag := addrTag
    buf := memset k.buf 0 0#8 (width * height) }

/-- `buf_[y_ * width + x_] = c`. -/
def set (c : BitVec 8) : Console :=
  { k with buf := Function.update k.buf (k.y * width + k.x) c }

/-- The loop that moves every row up, one character after the other. -/
def moveUp (buf : ℕ → BitVec 8) (n : ℕ) : ℕ → BitVec 8 :=
  (List.range n).foldl (fun b i ↦ Function.update b i (b (i + width))) buf

/-- A cursor in the column behind the last one goes on in the next row. -/
def wrap : Console := if k.x = width then { k with x := 0, y := k.y + 1 } else k

/-- A cursor below the last row makes the screen scroll. -/
def settle : Console :=
  if k.y = height then
    { k with
      buf := memset (moveUp k.buf (width * (height - 1))) (width * (height - 1)) 0#8 width
      y := height - 1 }
  else k

/-- The effect of a character on the screen, after the cursor was erased. -/
def type (c : BitVec 8) : Console :=
  let c := if c = 0#8 then questionMark else c
  if c = lineFeed then { k with x := 0, y := k.y + 1 }
  else if c = carriageReturn then { k with x := 0 }
  else { k.set c with x := k.x + 1 }

def putchar (c : BitVec 8) : Console := (((k.set 0#8).type c).wrap.settle).set cursor

def tick (reset : Bool) (tla : TilelinkA) : Console :=
  if reset then { k with buf := memset k.buf 0 0#8 (width * height), x := 0, y := 0 }
  else if tla.aAddress &&& k.addrMask = k.addrTag then
    if tla.aOpcode = TL.putPartialData ∨ tla.aOpcode = TL.putFullData then
      (k.set 0#8).putchar (tla.aData.setWidth 8)
    else k
  else k

end Console

end Pinwheel
