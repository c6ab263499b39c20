/-!
# The UART transmitter

`uart/uart_tx.h`.  The bit period is `bitDelayMax + 1` clocks.
-/

namespace Pinwheel

/-- The registers of `uart_tx`. -/
structure UartTx where
  bitDelay : BitVec 16
  bitDelayMax : BitVec 16
  bitCount : BitVec 5
  shift : BitVec 9
deriving DecidableEq, Repr

namespace UartTx

/-- 1 start bit, 8 data bits and 1 stop bit. -/
def bitCountDone : BitVec 5 := 10#5

/-- 7 more stop bits between messages. -/
def bitCountMax : BitVec 5 := 17#5

/-- The constructor: `clock_rate / baud_rate` clocks per bit. -/
def init (clockRate baudRate : Nat) : UartTx where
  bitDelay := BitVec.ofNat 16 (clockRate / baudRate) - 1#16
  bitDelayMax := BitVec.ofNat 16 (clockRate / baudRate) - 1#16
  bitCount := bitCountMax
  shift := 0#9

variable (t : UartTx)

/-- The bit on the line. -/
def getSerial : Bool := t.shift.getLsbD 0

def getReady : Bool :=
  (t.bitCount == bitCountDone && t.bitDelay == t.bitDelayMax) || decide (bitCountDone < t.bitCount)

def getIdle : Bool := t.bitCount == bitCountMax && t.bitDelay == t.bitDelayMax

def tick (reset : Bool) (sendData : BitVec 8) (sendRequest : Bool) : UartTx :=
  if reset then { t with bitDelay := t.bitDelayMax, bitCount := bitCountMax, shift := 0x1FF#9 }
  -- If we've just sent a bit, wait for the delay to expire.
  else if t.bitDelay < t.bitDelayMax then { t with bitDelay := t.bitDelay + 1#16 }
  -- More bits to send: shift the output over and append a stop bit.
  else if t.bitCount < bitCountDone then
    { t with bitDelay := 0#16, bitCount := t.bitCount + 1#5, shift := (t.shift >>> 1) ||| 0x100#9 }
  -- The new byte goes in shifted left, its low 0 bit is the start bit.
  else if sendRequest then
    { t with bitDelay := 0#16, bitCount := 0#5, shift := sendData.setWidth 9 <<< 1 }
  -- No request: keep sending extra stop bits.
  else if t.bitCount < bitCountMax then { t with bitDelay := 0#16, bitCount := t.bitCount + 1#5 }
  else t

end UartTx

end Pinwheel
