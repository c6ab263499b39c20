import Pinwheel.Lib.Run
import Pinwheel.Soc.Pinwheel

/-!
# Runs of the SoC

A run without reset is a sequence of tocks, in each of which `DONTCARE` may take
new values.
-/

namespace Pinwheel

open Clocked

namespace Soc

variable {cb db : Nat}

/-- The state after `n` tocks without reset. -/
def states (dcs : ℕ → DontCare) (s : Soc cb db) (n : ℕ) : Soc cb db :=
  run (fun dc s ↦ s.tock dc false) dcs s n

theorem states_succ (dcs : ℕ → DontCare) (s : Soc cb db) (n : ℕ) :
    states dcs s (n + 1) = (states dcs s n).tock (dcs n) false := run_succ n

theorem states_add (dcs : ℕ → DontCare) (s : Soc cb db) (m n : ℕ) :
    states dcs s (m + n) = states (fun i ↦ dcs (m + i)) (states dcs s m) n := run_add m n

/-- Every latch zero, both threads inactive, and the given program. -/
def blank (code : BitVec cb → BitVec 32) : Soc cb db where
  core :=
    { aHpc := ⟨false, 0#7, 0#24⟩
      bHpc := ⟨false, 0#7, 0#24⟩
      bInsn := ⟨0#32⟩
      cHpc := ⟨false, 0#7, 0#24⟩
      cInsn := ⟨0#32⟩
      cAddr := 0#32
      cResult := 0#32
      dWaddr := 0#13
      dWdata := 0#32
      dWren := false
      ticks := 0#32
      codeTla := ⟨TL.invalid, 0#3, 0#3, false, 0#32, 0#4, 0#32, false, false⟩
      dataTla := ⟨TL.invalid, 0#3, 0#3, false, 0#32, 0#4, 0#32, false, false⟩
      regIf := ⟨0#12, 0#12, 0#12, 0#32, false⟩ }
  regs := ⟨⟨fun _ ↦ 0#32, 0#32⟩, ⟨fun _ ↦ 0#32, 0#32⟩⟩
  codeRam := ⟨⟨TL.invalid, 0#2, 0#3, false, 0#3, 0#32, false, false, true⟩, ⟨code, 0#32⟩⟩
  dataRam := ⟨⟨TL.invalid, 0#2, 0#3, false, 0#3, 0#32, false, false, true⟩, ⟨fun _ ↦ 0#32, 0#32⟩⟩
  debugReg := ⟨⟨TL.invalid, 0#2, 0#3, false, 0#3, 0#32, false, false, true⟩⟩
  uart0Tx := ⟨UartTx.init 12000000 115200, idleTld (DontCare.const 0#32)⟩
  uart0Rx := ⟨⟨103#16, 103#16, 0#4, 0#8, 0#8, false, 0#32⟩, idleTld (DontCare.const 0#32)⟩
  uart0Hello := ⟨UartHello.wait, true, fun _ ↦ 0#8, 0#9⟩

end Soc

end Pinwheel
