import Pinwheel.Soc.Ram
import Pinwheel.Soc.Regfile
import Pinwheel.Soc.TestReg
import Pinwheel.Uart.Hello
import Pinwheel.Uart.Tilelink

/-!
# The SoC

`soc/pinwheel_soc.h`: the core, the register file, the two RAMs and the three
devices, wired together.  `Soc.tock` is one clock: the core computes its bus
requests from the responses latched in the previous clock, then every slave sees
the request of this clock.
-/

namespace Pinwheel

/-- `pinwheel_soc`, with `2 ^ codeBits` words of code and `2 ^ dataBits` of data. -/
structure Soc (codeBits dataBits : Nat) where
  core : Core
  regs : Regfile
  codeRam : BusRam codeBits
  dataRam : BusRam dataBits
  debugReg : TestReg
  uart0Tx : UartTxTilelink
  uart0Rx : UartRxTilelink
  uart0Hello : UartHello

namespace Soc

variable {cb db : Nat} (dc : DontCare) (s : Soc cb db)

/-! ## The memory map -/

def codeMask : BitVec 32 := 0xF0000000#32
def codeTag : BitVec 32 := 0x00000000#32
def dataMask : BitVec 32 := 0xF0000000#32
def dataTag : BitVec 32 := 0x80000000#32
def debugMask : BitVec 32 := 0xF0000000#32
def debugTag : BitVec 32 := 0xF0000000#32
def txMask : BitVec 32 := 0xFFFF0000#32
def txTag : BitVec 32 := 0xB0000000#32
def rxMask : BitVec 32 := 0xFFFF0000#32
def rxTag : BitVec 32 := 0xB0010000#32

/-! ## The tock -/

/-- `get_data_tld`: the response on the data bus. -/
def getDataTld : TilelinkD :=
  if s.debugReg.getTld.dValid then s.debugReg.getTld
  else if s.uart0Tx.getTld.dValid then s.uart0Tx.getTld
  else if s.uart0Rx.getTld.dValid then s.uart0Rx.getTld
  else s.dataRam.getTld

/-- What the core reads in this tock. -/
def coreIn : CoreIn where
  codeTld := s.codeRam.getTld
  dataTld := s.getDataTld
  reg1 := s.regs.getRs1
  reg2 := s.regs.getRs2

def tock (reset : Bool) : Soc cb db :=
  let core := s.core.tock dc s.coreIn reset
  { core := core
    uart0Rx := s.uart0Rx.tock dc rxMask rxTag reset s.uart0Tx.getSerial core.dataTla
    debugReg := s.debugReg.tock debugMask debugTag core.dataTla
    codeRam := s.codeRam.tockB codeMask codeTag core.codeTla
    dataRam := s.dataRam.tockB dataMask dataTag core.dataTla
    regs := s.regs.tick core.regIf
    uart0Tx := s.uart0Tx.tock dc txMask txTag reset s.uart0Hello.getData
      s.uart0Hello.getRequest core.dataTla
    uart0Hello := s.uart0Hello.tick reset s.uart0Tx.getReady s.uart0Tx.getIdle }

end Soc

end Pinwheel
