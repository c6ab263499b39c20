/-!
# The UART receiver

`uart/uart_rx.h`.
-/

namespace Pinwheel

/-- The registers of `uart_rx`. -/
structure UartRx where
  bitDelay : BitVec 16
  bitDelayMax : BitVec 16
  bitCount : BitVec 4
  shift : BitVec 8
  dataBuf : BitVec 8
  dataFlag : Bool
  checksum : BitVec 32
deriving DecidableEq, Repr

namespace UartRx

def bitCountMax : BitVec 4 := 9#4

variable (r : UartRx)

/-- True once 8 bits have been received. -/
def getValid : Bool := r.bitCount == 8#4

def getDataBuf : BitVec 8 := r.dataBuf
def getDataFlag : Bool := r.dataFlag
def getChecksum : BitVec 32 := r.checksum

/-- `new_shift`: the shift register with the line shifted in at the top. -/
def newShift (serial : Bool) : BitVec 8 :=
  (if serial then 0x80#8 else 0#8) ||| (r.shift >>> 1)

def tick (reset serial byteConsumed : Bool) : UartRx :=
  if reset then
    { r with bitDelay := r.bitDelayMax, bitCount := bitCountMax, shift := 0#8, checksum := 0#32 }
  else
    let r := if byteConsumed then { r with dataFlag := false } else r
    -- Waiting for the next bit.
    if r.bitDelay < r.bitDelayMax then { r with bitDelay := r.bitDelay + 1#16 }
    -- Bits left to receive: shift the line into the top of the output register.
    else if r.bitCount < bitCountMax then
      let newShift := r.newShift serial
      let r :=
        if r.bitCount = 7#4 then
          { r with
            dataBuf := newShift
            dataFlag := true
            checksum := r.checksum + newShift.setWidth 32 }
        else r
      { r with bitDelay := 0#16, bitCount := r.bitCount + 1#4, shift := newShift }
    -- Between bytes: wait for the line to go low.
    else if serial = false then { r with bitDelay := 0#16, bitCount := 0#4 }
    else r

end UartRx

end Pinwheel
