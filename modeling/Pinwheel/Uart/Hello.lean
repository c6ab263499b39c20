/-!
# The hello client

`uart/uart_hello.h`: offers a fixed message of 512 bytes to the transmitter.
-/

namespace Pinwheel

/-- The registers of `uart_hello`, with the message it was built with. -/
structure UartHello where
  state : BitVec 2
  repeatMsg : Bool
  memory : BitVec 9 → BitVec 8
  cursor : BitVec 9

namespace UartHello

/-- Waiting for the transmitter to be free. -/
def wait : BitVec 2 := 0#2
/-- Sending the message buffer. -/
def send : BitVec 2 := 1#2
/-- Message buffer sent. -/
def done : BitVec 2 := 2#2

variable (h : UartHello)

/-- The byte to transmit is always the one at the cursor. -/
def getData : BitVec 8 := h.memory h.cursor

def getRequest : Bool := h.state == send

def getDone : Bool := h.state == done

def tick (reset clearToSend idle : Bool) : UartHello :=
  if reset then { h with state := wait, cursor := 0#9 }
  else if h.state = wait ∧ idle then { h with state := send }
  else if h.state = send ∧ clearToSend then
    if h.cursor = 511#9 then { h with state := done }
    else { h with cursor := h.cursor + 1#9 }
  else if h.state = done then
    { h with cursor := 0#9, state := if h.repeatMsg then wait else h.state }
  else h

end UartHello

end Pinwheel
