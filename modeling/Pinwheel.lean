import Pinwheel.Firmware.Hello
import Pinwheel.Firmware.Numbers
import Pinwheel.Firmware.Printf
import Pinwheel.Firmware.Start
import Pinwheel.Lib.Terminal
import Pinwheel.Lib.Transitions
import Pinwheel.Pipeline.Advance
import Pinwheel.Pipeline.Boot
import Pinwheel.Pipeline.ByteMemory
import Pinwheel.Pipeline.Disassembly
import Pinwheel.Pipeline.Drain
import Pinwheel.Pipeline.Even
import Pinwheel.Pipeline.Fetch
import Pinwheel.Pipeline.Independence
import Pinwheel.Pipeline.Inert
import Pinwheel.Pipeline.Isolation
import Pinwheel.Pipeline.Lanes
import Pinwheel.Pipeline.Listing
import Pinwheel.Pipeline.Loads
import Pinwheel.Pipeline.Mapped
import Pinwheel.Pipeline.Pausing
import Pinwheel.Pipeline.Program
import Pinwheel.Pipeline.Refinement
import Pinwheel.Pipeline.Requests
import Pinwheel.Pipeline.Reset
import Pinwheel.Pipeline.Rv32i
import Pinwheel.Pipeline.Stepping
import Pinwheel.Pipeline.Storage
import Pinwheel.Pipeline.Switch
import Pinwheel.Pipeline.Thread
import Pinwheel.Simulator.Exclusive
import Pinwheel.Simulator.Exit
import Pinwheel.Simulator.PinwheelApp
import Pinwheel.Simulator.PinwheelSim
import Pinwheel.Simulator.RunTest
import Pinwheel.Simulator.SimThread
import Pinwheel.Soc.Bank
import Pinwheel.Soc.Bus
import Pinwheel.Soc.Console
import Pinwheel.Soc.Pinwheel
import Pinwheel.Soc.Producers
import Pinwheel.Soc.Screen
import Pinwheel.Soc.Slaves
import Pinwheel.Soc.Uart
import Pinwheel.Synth.Fitted
import Pinwheel.Synth.Lossless
import Pinwheel.Synth.SimpleTop
import Pinwheel.Tools.Rvdisasm
import Pinwheel.Uart.Frame
import Pinwheel.Uart.Loopback
import Pinwheel.Uart.Mailbox
import Pinwheel.Uart.Message
