import Pinwheel.Tools.DontCare
import Pinwheel.Tools.Tilelink
import Pinwheel.Uart.Rx
import Pinwheel.Uart.Tx

/-!
# TileLink adapters of the UART

`uart/uart_tilelink.h`.  TX @ 0x00 is clear to send and TX @ 0x04 the data; RX @
0x00 is data ready, RX @ 0x04 the data and RX @ 0x08 the checksum.  The address
mask and tag are set by the constructor and never assigned again, so they are
arguments here.
-/

namespace Pinwheel

/-- The register offset within a UART: `a_address & 0xF`. -/
def TilelinkA.offset (tla : TilelinkA) : BitVec 32 := tla.aAddress &&& 0xF#32

/-- What both adapters answer before they look at the request. -/
def idleTld (dc : DontCare) : TilelinkD where
  dOpcode := dc.dOpcode
  dParam := 0#2
  dSize := 2#3
  dSource := false
  dSink := 0#3
  dData := dc.dData
  dError := false
  dValid := false
  dReady := true

/-- `uart_tx_tilelink`. -/
structure UartTxTilelink where
  tx : UartTx
  tld : TilelinkD

namespace UartTxTilelink

variable (dc : DontCare) (addrMask addrTag : BitVec 32) (u : UartTxTilelink)

def getSerial : Bool := u.tx.getSerial
def getReady : Bool := u.tx.getReady
def getIdle : Bool := u.tx.getIdle
def getTld : TilelinkD := u.tld

/-- The bus writes the transmitter's data register in this tock. -/
def busWrite (tla : TilelinkA) : Bool :=
  tla.selects addrMask addrTag && tla.aOpcode == TL.putFullData && tla.offset == 0x0004#32

/-- `next_data`: a bus write overrides the byte of the hello client. -/
def nextData (helloData : BitVec 8) (tla : TilelinkA) : BitVec 8 :=
  if busWrite addrMask addrTag tla then tla.aData.setWidth 8 else helloData

/-- `next_req`. -/
def nextReq (helloReq : Bool) (tla : TilelinkA) : Bool :=
  if busWrite addrMask addrTag tla then true else helloReq

/-- `uart_tx_tilelink::tick`: the response to a request. -/
def tick (tla : TilelinkA) : TilelinkD :=
  if tla.selects addrMask addrTag then
    if tla.aOpcode = TL.get then
      if tla.offset = 0x0000#32 then
        { idleTld dc with
          dOpcode := TL.accessAckData
          dData := if u.tx.getReady then 1#32 else 0#32
          dValid := true }
      else { idleTld dc with dError := true }
    else if tla.aOpcode = TL.putFullData then
      if tla.offset = 0x0004#32 then { idleTld dc with dOpcode := TL.accessAck, dValid := true }
      else { idleTld dc with dError := true }
    else idleTld dc
  else idleTld dc

def tock (reset : Bool) (helloData : BitVec 8) (helloReq : Bool) (tla : TilelinkA) :
    UartTxTilelink where
  tld := u.tick dc addrMask addrTag tla
  tx := u.tx.tick reset (nextData addrMask addrTag helloData tla)
    (nextReq addrMask addrTag helloReq tla)

end UartTxTilelink

/-- `uart_rx_tilelink`. -/
structure UartRxTilelink where
  rx : UartRx
  tld : TilelinkD

namespace UartRxTilelink

variable (dc : DontCare) (addrMask addrTag : BitVec 32) (u : UartRxTilelink)

def getValid : Bool := u.rx.getValid
def getDataBuf : BitVec 8 := u.rx.getDataBuf
def getDataFlag : Bool := u.rx.getDataFlag
def getChecksum : BitVec 32 := u.rx.getChecksum
def getTld : TilelinkD := u.tld

/-- The bus reads the receiver's data register in this tock. -/
def byteConsumed (tla : TilelinkA) : Bool :=
  tla.selects addrMask addrTag && tla.aOpcode == TL.get && tla.offset == 0x0004#32

/-- `uart_rx_tilelink::tick`: the response to a request. -/
def tick (tla : TilelinkA) : TilelinkD :=
  if tla.selects addrMask addrTag ∧ tla.aOpcode = TL.get then
    let ack : TilelinkD := { idleTld dc with dOpcode := TL.accessAckData, dError := false }
    if tla.offset = 0x0000#32 then
      { ack with dData := if u.rx.getDataFlag then 1#32 else 0#32, dValid := true }
    else if tla.offset = 0x0004#32 then
      { ack with dData := u.rx.getDataBuf.setWidth 32, dValid := true }
    else if tla.offset = 0x0008#32 then { ack with dData := u.rx.getChecksum, dValid := true }
    else ack
  else idleTld dc

def tock (reset serial : Bool) (tla : TilelinkA) : UartRxTilelink where
  tld := u.tick dc addrMask addrTag tla
  rx := u.rx.tick reset serial (byteConsumed addrMask addrTag tla)

end UartRxTilelink

end Pinwheel
