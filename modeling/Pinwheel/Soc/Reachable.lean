import Pinwheel.Soc.Run

/-!
# Reachable states

The SoC comes out of its constructors with empty stages, but with arbitrary memories
and registers, and `DONTCARE` in most of its bus latches.  A reset tock is possible
in any state whatever.
-/

namespace Pinwheel

namespace Soc

variable {cb db : Nat}

/-- What the constructors say of a state. -/
structure Constructed (s : Soc cb db) : Prop where
  aHpc : s.core.aHpc = ⟨false, 0#7, 0#24⟩
  bHpc : s.core.bHpc = ⟨false, 0#7, 0#24⟩
  bInsn : s.core.bInsn = ⟨0#32⟩
  cHpc : s.core.cHpc = ⟨false, 0#7, 0#24⟩
  cInsn : s.core.cInsn = ⟨0#32⟩
  cAddr : s.core.cAddr = 0#32
  cResult : s.core.cResult = 0#32
  dWaddr : s.core.dWaddr = 0#13
  dWdata : s.core.dWdata = 0#32
  dWren : s.core.dWren = false
  ticks : s.core.ticks = 0#32
  codeTla : s.core.codeTla.aOpcode = TL.invalid
  dataTla : s.core.dataTla.aOpcode = TL.invalid
  codeRam : s.codeRam.tld.dValid = false
  dataRam : s.dataRam.tld.dValid = false
  debugReg : s.debugReg.tld.dValid = false
  txTld : s.uart0Tx.tld.dValid = false
  rxTld : s.uart0Rx.tld.dValid = false
  tx : ∃ clockRate baudRate, s.uart0Tx.tx = UartTx.init clockRate baudRate
  hello : s.uart0Hello.state = UartHello.wait
  cursor : s.uart0Hello.cursor = 0#9

/-- The states that can be reached from the constructors or from a reset. -/
inductive Reachable : Soc cb db → Prop
  | construct {s : Soc cb db} : s.Constructed → Reachable s
  | reset (dc : DontCare) (s : Soc cb db) : Reachable (s.tock dc true)
  | tock {s : Soc cb db} (dc : DontCare) : Reachable s → Reachable (s.tock dc false)

theorem Reachable.states {s : Soc cb db} (h : s.Reachable) (dcs : ℕ → DontCare) (n : ℕ) :
    (Soc.states dcs s n).Reachable := by
  induction n with
  | zero => exact h
  | succ n ih => exact ih.tock (dcs n)

theorem constructed_blank (code : BitVec cb → BitVec 32) :
    (blank code : Soc cb db).Constructed := by
  constructor <;> first | rfl | exact ⟨12000000, 115200, rfl⟩

end Soc

end Pinwheel
