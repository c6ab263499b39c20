import Pinwheel.Lib.Run

/-!
# The simple UART

The SystemVerilog modules of `synth/simple_uart`: the transmitter `simple_tx`, the
receiver `simple_rx` and their wire in `simple_top`.  The registers are the fields; an
`always_comb` block is a function of them that gives the registers for the next clock,
and each output has a function of its own.  `clocks_per_bit` is a byte, as it is in
`simple_rx`.
-/

namespace Pinwheel

namespace SimpleUart

variable (clocksPerBit : BitVec 8)

def delayMid : BitVec 8 := clocksPerBit / 2#8
def delayMax : BitVec 8 := clocksPerBit - 1#8
/-- `bits_per_byte - 1`. -/
def countMax : BitVec 8 := 9#8

end SimpleUart

open SimpleUart

/-- The registers of `simple_tx`. -/
structure SimpleTx where
  delay : BitVec 8
  count : BitVec 8
  shift : BitVec 10
deriving DecidableEq, Repr

namespace SimpleTx

variable (clocksPerBit : BitVec 8) (reset : Bool) (data : BitVec 8) (valid : Bool) (t : SimpleTx)

/-- `_out`. -/
def out : Bool := t.shift.getLsbD 0

/-- The last clock of a frame, and every clock until the next one. -/
def ready : Bool := t.delay == delayMax clocksPerBit && !decide (t.count < countMax)

/-- `_in_ready`. -/
def inReady : Bool := !reset && t.ready clocksPerBit

/-- `tx_delay_`, `tx_count_` and `tx_shift_`. -/
def next : SimpleTx :=
  if reset then ⟨delayMax clocksPerBit, countMax, 0b1111111111#10⟩
  else if t.delay ≠ delayMax clocksPerBit then { t with delay := t.delay + 1#8 }
  else if t.count < countMax then ⟨0#8, t.count + 1#8, 1#1 ++ t.shift.extractLsb' 1 9⟩
  else if valid then ⟨0#8, 0#8, 1#1 ++ data ++ 0#1⟩
  else t

end SimpleTx

/-- The registers of `simple_rx`. -/
structure SimpleRx where
  delay : BitVec 8
  count : BitVec 8
  shift : BitVec 8
deriving DecidableEq, Repr

namespace SimpleRx

variable (clocksPerBit : BitVec 8) (reset : Bool) (input : Bool) (r : SimpleRx)

/-- `delay_`, without a reset. -/
def delayNext : BitVec 8 :=
  if r.delay ≠ delayMax clocksPerBit then r.delay + 1#8
  else if r.count < countMax then 0#8
  else if input = false then 0#8
  else r.delay

/-- `count_`, without a reset. -/
def countNext : BitVec 8 :=
  if r.delay ≠ delayMax clocksPerBit then r.count
  else if r.count < countMax then r.count + 1#8
  else if input = false then 0#8
  else r.count

/-- `shift_`, without a reset: a sample is taken in the middle of a bit. -/
def shiftNext : BitVec 8 :=
  if r.delayNext clocksPerBit input = delayMid clocksPerBit then
    BitVec.ofBool input ++ r.shift.extractLsb' 1 7
  else r.shift

/-- `delay_`, `count_` and `shift_`. -/
def next : SimpleRx :=
  if reset then ⟨delayMax clocksPerBit, countMax, 0#8⟩
  else ⟨r.delayNext clocksPerBit input, r.countNext clocksPerBit input,
    r.shiftNext clocksPerBit input⟩

/-- `_out_valid`. -/
def outValid : Bool :=
  !reset && r.delayNext clocksPerBit input == delayMid clocksPerBit &&
    r.countNext clocksPerBit input == countMax - 1#8

/-- `_out`. -/
def out : BitVec 8 :=
  if r.outValid clocksPerBit reset input then r.shiftNext clocksPerBit input else 0#8

end SimpleRx

/-- The two ends of the wire in `simple_top`. -/
structure SimpleLink where
  tx : SimpleTx
  rx : SimpleRx
deriving DecidableEq, Repr

/-- What a producer offers in one clock. -/
structure SimpleIn where
  data : BitVec 8
  valid : Bool
deriving DecidableEq, Repr

namespace SimpleLink

variable (clocksPerBit : BitVec 8) (reset : Bool) (i : SimpleIn) (l : SimpleLink)

/-- A positive clock edge. -/
def tick : SimpleLink where
  tx := l.tx.next clocksPerBit reset i.data i.valid
  rx := l.rx.next clocksPerBit reset l.tx.out

/-- The byte for which `_in_valid` and `_in_ready` are both 1. -/
def accepted : Option (BitVec 8) :=
  if i.valid ∧ l.tx.inReady clocksPerBit reset then some i.data else none

/-- The byte that is on `_out` with `_out_valid` 1. -/
def presented : Option (BitVec 8) :=
  if l.rx.outValid clocksPerBit reset l.tx.out then some (l.rx.out clocksPerBit reset l.tx.out)
  else none

end SimpleLink

end Pinwheel
