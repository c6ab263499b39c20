import Pinwheel.Pipeline.Interleaving
import Pinwheel.Simulator.UartTest
import Pinwheel.Soc.Screen

/-!
# The simulator

`simulator/pinwheel_sim.h` and `simulator/pinwheel_sim.cpp`: the SoC with five consoles.
Four of them are on the data bus, each with a page of its own; the fifth prints what the
receiver of the UART stores.  The state is the one at the top of the stack of states that
the application keeps.
-/

namespace Pinwheel

open Clocked

structure PinwheelTB (codeBits dataBits : ℕ) where
  soc : Soc codeBits dataBits
  console1 : Console
  console2 : Console
  console3 : Console
  console4 : Console
  console5 : Console

structure PinwheelSim (codeBits dataBits : ℕ) where
  top : PinwheelTB codeBits dataBits
  steps : BitVec 64
  ticks : BitVec 64

/-- The places of the consoles on the bus. -/
inductive BusConsole where
  | first
  | second
  | third
  | fourth
deriving DecidableEq, Repr

def BusConsole.tag : BusConsole → BitVec 32
  | .first => 0x40000000#32
  | .second => 0x50000000#32
  | .third => 0x60000000#32
  | .fourth => 0x70000000#32

variable {cb db : ℕ}

namespace PinwheelTB

/-- The constructor, on whatever the buffers of the consoles hold. -/
def construct (soc : Soc cb db) (buf : Fin 5 → ℕ → BitVec 8) : PinwheelTB cb db where
  soc := soc
  console1 := (Console.construct (buf 0)).init 0xF0000000#32 0x40000000#32
  console2 := (Console.construct (buf 1)).init 0xF0000000#32 0x50000000#32
  console3 := (Console.construct (buf 2)).init 0xF0000000#32 0x60000000#32
  console4 := (Console.construct (buf 3)).init 0xF0000000#32 0x70000000#32
  console5 := (Console.construct (buf 4)).init 0x00000000#32 0x00000000#32

variable (tb : PinwheelTB cb db) (dc : DontCare)

/-- What `step` does to the state. -/
def step : PinwheelTB cb db :=
  let oldUartValid := tb.soc.uart0Rx.getValid
  let soc := tb.soc.tock dc false
  { soc := soc
    console1 := tb.console1.tick false soc.core.dataTla
    console2 := tb.console2.tick false soc.core.dataTla
    console3 := tb.console3.tick false soc.core.dataTla
    console4 := tb.console4.tick false soc.core.dataTla
    console5 :=
      if !oldUartValid && soc.uart0Rx.getValid then tb.console5.putchar soc.uart0Rx.getDataBuf
      else tb.console5 }

/-- `app_init`: the SoC gets two reset tocks, and the consoles are left as they are. -/
def appInit (rcs : ℕ → DontCare) : PinwheelTB cb db := { tb with soc := tb.soc.resets rcs 2 }

/-- The state after `n` steps. -/
def states (dcs : ℕ → DontCare) (n : ℕ) : PinwheelTB cb db :=
  run (fun dc tb ↦ tb.step dc) dcs tb n

/-- The console in its place. -/
def busConsole : BusConsole → Console
  | .first => tb.console1
  | .second => tb.console2
  | .third => tb.console3
  | .fourth => tb.console4

end PinwheelTB

namespace PinwheelSim

variable (sim : PinwheelSim cb db) (dc : DontCare)

def step : PinwheelSim cb db :=
  if sim.steps = 0#64 then sim
  else { top := sim.top.step dc, steps := sim.steps - 1#64, ticks := sim.ticks + 1#64 }

/-- After `n` calls of `step`. -/
def calls (dcs : ℕ → DontCare) (n : ℕ) : PinwheelSim cb db :=
  run (fun dc sim ↦ sim.step dc) dcs sim n

/-- The calls take the steps that were asked for, and then no more. -/
theorem calls_eq (dcs : ℕ → DontCare) (n : ℕ) :
    (sim.calls dcs n).top = sim.top.states dcs (min n sim.steps.toNat) ∧
      (sim.calls dcs n).steps.toNat = sim.steps.toNat - n := by
  induction n with
  | zero => exact ⟨by rw [Nat.zero_min]; rfl, rfl⟩
  | succ n ih =>
    obtain ⟨htop, hsteps⟩ := ih
    have hsucc : sim.calls dcs (n + 1) = (sim.calls dcs n).step (dcs n) := run_succ n
    rw [hsucc, step]
    split_ifs with hzero
    · rw [hzero] at hsteps
      have hle : sim.steps.toNat ≤ n := Nat.sub_eq_zero_iff_le.mp hsteps.symm
      rw [htop, hzero, Nat.min_eq_right hle, Nat.min_eq_right (Nat.le_succ_of_le hle)]
      exact ⟨rfl, (Nat.sub_eq_zero_of_le (Nat.le_succ_of_le hle)).symm⟩
    · have hpos : (sim.calls dcs n).steps.toNat ≠ 0 := fun h ↦ hzero (BitVec.eq_of_toNat_eq h)
      have hlt : n < sim.steps.toNat := by omega
      refine ⟨?_, ?_⟩
      · rw [Nat.min_eq_left hlt, htop, Nat.min_eq_left (Nat.le_of_lt hlt)]
        rfl
      · have := (sim.calls dcs n).steps.isLt
        simp only [BitVec.toNat_sub, BitVec.toNat_ofNat]
        omega

end PinwheelSim

/-! ## The consoles on the bus -/

/-- What is printed of a store, by the console with the given tag. -/
def Output.char (tag : BitVec 32) (o : Output) : Option (BitVec 8) :=
  if o.addr &&& 0xF0000000#32 = tag then some (o.data.setWidth 8) else none

/-- A console decodes the page of its tag, and no RAM nor the register window is there. -/
structure Console.OnPage (k : Console) (tag : BitVec 32) : Prop where
  addrMask : k.addrMask = 0xF0000000#32
  addrTag : k.addrTag = tag
  page : Core.page tag ≠ 0xE#4 ∧ Core.page tag ≠ 0x0#4 ∧ Core.page tag ≠ 0x8#4

namespace Console

variable {k : Console} {tag : BitVec 32}

@[simp] theorem addrMask_putchar (c : BitVec 8) : (k.putchar c).addrMask = k.addrMask := by
  unfold putchar settle wrap type
  dsimp only
  split_ifs <;> rfl

@[simp] theorem addrTag_putchar (c : BitVec 8) : (k.putchar c).addrTag = k.addrTag := by
  unfold putchar settle wrap type
  dsimp only
  split_ifs <;> rfl

theorem OnPage.putchar (h : k.OnPage tag) (c : BitVec 8) : (k.putchar c).OnPage tag :=
  ⟨(addrMask_putchar c).trans h.addrMask, (addrTag_putchar c).trans h.addrTag, h.page⟩

theorem OnPage.foldl (h : k.OnPage tag) (text : List (BitVec 8)) :
    (text.foldl Console.putchar k).OnPage tag := by
  induction text generalizing k with
  | nil => exact h
  | cons c text ih => exact ih (h.putchar c)

end Console

namespace Soc

variable {s : Soc cb db} {dc : DontCare} {k : Console} {tag : BitVec 32}

/-- **A console prints what is put out** to its page. -/
theorem console_tock (h : k.OnPage tag) :
    k.tick false (s.tock dc false).core.dataTla =
      ((s.tock dc false).core.dataTla.output.bind (Output.char tag)).toList.foldl
        Console.putchar k := by
  have htla : (s.tock dc false).core.dataTla = s.issue.request dc := rfl
  rw [htla]
  generalize hreq : s.issue.request dc = tla
  by_cases hprint : tla.aAddress &&& 0xF0000000#32 = tag ∧ tla.isPut = true
  · obtain ⟨hsel, hput⟩ := hprint
    have hpage : Core.page tla.aAddress = Core.page tag := by
      rw [← hsel, Core.page_and, show Core.page 0xF0000000#32 = BitVec.allOnes 4 by decide,
        BitVec.and_allOnes]
    have hout : tla.output = some ⟨tla.aOpcode, tla.aAddress, tla.aData, tla.aMask⟩ := by
      subst hreq
      exact Issue.Takes.output_of_isPut hput (hpage ▸ h.page)
    rw [hout, Console.tick_put (by rw [h.addrMask, h.addrTag]; exact hsel) hput, Option.bind_some,
      Output.char, if_pos hsel]
    rfl
  · have hnone : tla.output.bind (Output.char tag) = none := by
      rw [TilelinkA.output]
      split_ifs with hput
      · rw [Option.bind_some, Output.char, if_neg fun hsel ↦ hprint ⟨hsel, hput.2.1⟩]
      · rfl
    have htick : k.tick false tla = k := by
      unfold Console.tick
      rw [if_neg Bool.false_ne_true, h.addrMask, h.addrTag]
      split_ifs with hsel hop
      · refine absurd ⟨hsel, ?_⟩ hprint
        rcases hop with hop | hop <;> rw [TilelinkA.isPut, hop] <;> rfl
      · rfl
      · rfl
    rw [hnone, htick]
    rfl

end Soc

namespace PinwheelTB

variable {tb : PinwheelTB cb db} {dcs : ℕ → DontCare} {i : BusConsole}

theorem soc_states (n : ℕ) : (tb.states dcs n).soc = Soc.states dcs tb.soc n := by
  induction n with
  | zero => rfl
  | succ n ih => rw [Soc.states_succ, ← ih]; rfl

theorem busConsole_step (dc : DontCare) : (tb.step dc).busConsole i =
    (tb.busConsole i).tick false (tb.soc.tock dc false).core.dataTla := by
  cases i <;> rfl

/-- What a console on the bus has printed. -/
theorem busConsole_states (h : (tb.busConsole i).OnPage i.tag) (n : ℕ) :
    (tb.states dcs n).busConsole i =
      ((emitted (fun m ↦ (Soc.states dcs tb.soc (m + 1)).core.dataTla.output) n).filterMap
        (Output.char i.tag)).foldl Console.putchar (tb.busConsole i) := by
  rw [← emitted_bind]
  induction n with
  | zero => rfl
  | succ n ih =>
    have hsucc : tb.states dcs (n + 1) = (tb.states dcs n).step (dcs n) := run_succ n
    have hpage : ((tb.states dcs n).busConsole i).OnPage i.tag := ih ▸ h.foldl _
    rw [hsucc, busConsole_step, Soc.console_tock hpage, soc_states, ← Soc.states_succ, ih,
      emitted_succ, List.foldl_append]

/-! ## The console of the receiver -/

/-- The fifth console prints the byte that is stored. -/
theorem console5_step (dc : DontCare) :
    (tb.step dc).console5 = tb.soc.link.stored.toList.foldl Console.putchar tb.console5 := by
  let consumed := UartRxTilelink.byteConsumed Soc.rxMask Soc.rxTag
    (tb.soc.tock dc false).core.dataTla
  have hrises : tb.soc.link.stored.isSome =
      (!tb.soc.uart0Rx.getValid && (tb.soc.tock dc false).uart0Rx.getValid) := by
    rw [Bool.eq_iff_iff, Bool.and_eq_true, Bool.not_eq_true']
    exact @UartRx.stored_isSome_iff tb.soc.uart0Rx.rx tb.soc.uart0Tx.getSerial consumed
  have hstep : (tb.step dc).console5 =
      if !tb.soc.uart0Rx.getValid && (tb.soc.tock dc false).uart0Rx.getValid then
        tb.console5.putchar (tb.soc.tock dc false).uart0Rx.getDataBuf
      else tb.console5 := rfl
  rw [hstep, ← hrises]
  cases hs : tb.soc.link.stored with
  | none => rfl
  | some b =>
    have hbuf : (tb.soc.tock dc false).uart0Rx.getDataBuf = b :=
      (UartRx.tick_of_stored tb.soc.uart0Rx.rx consumed hs).1
    rw [hbuf]
    rfl

theorem console5_states (n : ℕ) : (tb.states dcs n).console5 =
    (emitted (fun m ↦ (Soc.states dcs tb.soc m).link.stored) n).foldl Console.putchar
      tb.console5 := by
  refine foldl_emitted (s := fun n ↦ (tb.states dcs n).console5) (fun m ↦ ?_) n
  rw [← soc_states]
  exact console5_step (dcs m)

end PinwheelTB

/-! ## The application -/

namespace PinwheelSim

variable {soc : Soc cb db} {buf : Fin 5 → ℕ → BitVec 8} {rcs dcs : ℕ → DontCare}
  {steps ticks : BitVec 64} {n calls : ℕ}

/-- The simulator of an application that has asked for some steps. -/
def launched (soc : Soc cb db) (buf : Fin 5 → ℕ → BitVec 8) (rcs : ℕ → DontCare)
    (steps ticks : BitVec 64) : PinwheelSim cb db :=
  ⟨(PinwheelTB.construct soc buf).appInit rcs, steps, ticks⟩

/-- What a console on the bus has printed. -/
theorem busConsole_calls (i : BusConsole) (hsteps : min calls steps.toNat = n) :
    ((launched soc buf rcs steps ticks).calls dcs calls).top.busConsole i =
      ((emitted (Soc.outputs dcs (soc.resets rcs 2)) n).filterMap (Output.char i.tag)).foldl
        Console.putchar ((PinwheelTB.construct soc buf).busConsole i) := by
  have hpage : ((PinwheelTB.construct soc buf).busConsole i).OnPage i.tag := by
    cases i <;> exact ⟨rfl, rfl, by decide⟩
  have hinit : ((PinwheelTB.construct soc buf).appInit rcs).busConsole i =
      (PinwheelTB.construct soc buf).busConsole i := by
    cases i <;> rfl
  rw [((launched soc buf rcs steps ticks).calls_eq dcs calls).1]
  show (((PinwheelTB.construct soc buf).appInit rcs).states dcs (min calls steps.toNat)).busConsole
    i = _
  rw [hsteps, PinwheelTB.busConsole_states (hinit ▸ hpage), hinit]
  rfl

/-- A text without zeros and carriage returns is shown. -/
theorem busConsole_shows (i : BusConsole) {text : List (BitVec 8)}
    (htext : ∀ c ∈ text, c ≠ 0#8 ∧ c ≠ Console.carriageReturn) :
    let k := text.foldl Console.putchar ((PinwheelTB.construct soc buf).busConsole i)
    k.At (Console.screen text) ∧ k.Shows (Console.screen text) := by
  cases i <;> exact Console.shows_screen htext

/-- The SoC behind the guard of its program. -/
theorem guarded_resets (hm : soc.Mirrored)
    (hguard : (soc.resets rcs 1).codeRam.ram.ram
      (wordIndex cb ((rcs 1).nextPc.setWidth 32)) = guardWord) :
    (soc.resets rcs 2).Guarded ∧
      (soc.resets rcs 2).behindGuard (dcs 0) = (soc.resets rcs 2).boot (dcs 0).nextPc := by
  have hlast : soc.resets rcs 2 = (soc.resets rcs 1).tock (rcs 1) true := run_succ 1
  rw [hlast]
  exact ⟨Soc.guarded_tock (hm.resets rcs 1) (by rw [Soc.fetchAddr_resets]; exact hguard),
    Soc.behindGuard_tock⟩

/-- **The consoles show what the program stores**: with a program that is guarded, each
console on the bus has printed what the machine puts out to its page, and what it shows
is what a terminal shows of a text without zeros and carriage returns. -/
theorem consoles_show {σ : Machine db} {out : List Output} (hm : soc.Mirrored)
    (hguard : (soc.resets rcs 1).codeRam.ram.ram
      (wordIndex cb ((rcs 1).nextPc.setWidth 32)) = guardWord)
    (hsteps : min calls steps.toNat = 2 + n)
    (hb : ∀ m < n, (Soc.states dcs (soc.resets rcs 2) (2 + m)).BypassSound)
    (hrun : Machine.run (soc.resets rcs 2).codeRam.ram.ram (fun m ↦ (dcs (2 + m)).nextPc) n
      ((soc.resets rcs 2).boot (dcs 0).nextPc) = some (σ, out)) (i : BusConsole) :
    let text := out.filterMap (Output.char i.tag)
    let k := ((launched soc buf rcs steps ticks).calls dcs calls).top.busConsole i
    k = text.foldl Console.putchar ((PinwheelTB.construct soc buf).busConsole i) ∧
      ((∀ c ∈ text, c ≠ 0#8 ∧ c ≠ Console.carriageReturn) →
        k.At (Console.screen text) ∧ k.Shows (Console.screen text)) := by
  intro text k
  obtain ⟨hguarded, hboot⟩ := @guarded_resets _ _ soc rcs dcs hm hguard
  rw [← hboot] at hrun
  have hout : emitted (Soc.outputs dcs (soc.resets rcs 2)) (2 + n) = out :=
    (hguarded.refines hb hrun).2
  have hprinted : k = text.foldl Console.putchar
      ((PinwheelTB.construct soc buf).busConsole i) := by
    have hk := @busConsole_calls _ _ soc buf rcs dcs steps ticks _ calls i hsteps
    rw [hout] at hk
    exact hk
  refine ⟨hprinted, fun htext ↦ ?_⟩
  rw [hprinted]
  exact busConsole_shows i htext

/-- **A console shows what one thread stores**, in a legal run behind the guard with a sound
bypass, if the others store nothing to its page and leave the registers, the memory and the
handle of the thread alone: it prints what the thread puts out there on its own, across all
switches, and shows it if there are no zeros and carriage returns in it. -/
theorem console_shows_thread {t u : Process (db + 2)} {W : Set (BitVec (db + 2))}
    {out : List Output} (hm : soc.Mirrored)
    (hguard : (soc.resets rcs 1).codeRam.ram.ram
      (wordIndex cb ((rcs 1).nextPc.setWidth 32)) = guardWord)
    (hsteps : min calls steps.toNat = 2 + n)
    (hb : ∀ m < n, (Soc.states dcs (soc.resets rcs 2) (2 + m)).BypassSound)
    (hlegal : (Machine.run (soc.resets rcs 2).codeRam.ram.ram (fun m ↦ (dcs (2 + m)).nextPc) n
      ((soc.resets rcs 2).boot (dcs 0).nextPc)).isSome)
    (h0 : ((soc.resets rcs 2).boot (dcs 0).nextPc).Has W t) (i : BusConsole) :
    let code := (soc.resets rcs 2).codeRam.ram.ram
    let τ m := Soc.machines dcs (soc.resets rcs 2) (2 + m)
    let o m := Soc.outputs dcs (soc.resets rcs 2) (2 + m)
    let k := ((launched soc buf rcs steps ticks).calls dcs calls).top.busConsole i
    (∀ m < n, ∀ r ∈ t.run code (Machine.turnsOf τ t.row (m + 1)),
      (τ m).Leaves code W r.1 (τ (m + 1))) →
    (∀ m < n, ¬(τ m).HasTurn t.row → ∀ x ∈ o m, x.char i.tag = none) →
    t.LoadsIn code W (Machine.turnsOf τ t.row n) →
    t.run code (Machine.turnsOf τ t.row n) = some (u, out) →
    let text := out.filterMap (Output.char i.tag)
    k = text.foldl Console.putchar ((PinwheelTB.construct soc buf).busConsole i) ∧
      ((∀ c ∈ text, c ≠ 0#8 ∧ c ≠ Console.carriageReturn) →
        k.At (Console.screen text) ∧ k.Shows (Console.screen text)) := by
  intro code τ o k hleaves hothers hloads hrun text
  obtain ⟨hguarded, hboot⟩ := @guarded_resets _ _ soc rcs dcs hm hguard
  obtain ⟨r, hr⟩ := Option.isSome_iff_exists.mp hlegal
  rw [← hboot] at hr h0
  obtain ⟨hstart, htrace⟩ := hguarded.trace hb hr
  obtain ⟨-, hout⟩ := htrace.has (hstart ▸ h0) hleaves hloads hrun
  have hprinted : k = text.foldl Console.putchar
      ((PinwheelTB.construct soc buf).busConsole i) := by
    have hk := @busConsole_calls _ _ soc buf rcs dcs steps ticks _ calls i hsteps
    have hquiet : emitted (Soc.outputs dcs (soc.resets rcs 2)) (2 + n) = emitted o n :=
      hguarded.emitted_output n
    rw [hquiet, filterMap_emitted hothers, hout] at hk
    exact hk
  refine ⟨hprinted, fun htext ↦ ?_⟩
  rw [hprinted]
  exact busConsole_shows i htext

/-- The link of an application, which counts as many clocks per bit as the one it was
built with. -/
theorem link_resets (hm : soc.link.Matched) :
    (soc.resets rcs 1).link.Matched ∧ (soc.resets rcs 1).link.latency = soc.link.latency := by
  have hlink : (soc.resets rcs 1).link =
      soc.link.tick true (soc.linkIn (soc.tock (rcs 0) true).core.dataTla) :=
    soc.link_tock (rcs 0) true
  refine ⟨hlink ▸ hm.tick true, ?_⟩
  rw [hlink]
  simp [Link.latency, Link.period, Link.tick]

/-- The fifth console has printed what the transmitter had loaded `latency` tocks before. -/
theorem console5_appInit (hm : soc.link.Matched) (m : ℕ) :
    (((PinwheelTB.construct soc buf).appInit rcs).states dcs m).console5 =
      (emitted ((soc.resets rcs 2).txLoads dcs) (m - soc.link.latency)).foldl Console.putchar
        (PinwheelTB.construct soc buf).console5 := by
  obtain ⟨hmatched, hlatency⟩ := @link_resets _ _ soc rcs hm
  rw [PinwheelTB.console5_states]
  have hstored := @Soc.emitted_stored _ _ (rcs 1) _ dcs hmatched m
  rw [hlatency] at hstored
  exact congrArg (List.foldl Console.putchar _) hstored

/-- **The fifth console prints what the transmitter sends**, whoever it is from, if both ends
of the link have the same bit time.  It shows that if there are no zeros and carriage returns
in it, and the checksum register has its sum. -/
theorem console5_shows (hm : soc.link.Matched) :
    let sim := (launched soc buf rcs steps ticks).calls dcs calls
    let text := emitted ((soc.resets rcs 2).txLoads dcs)
      (min calls steps.toNat - soc.link.latency)
    sim.top.console5 = text.foldl Console.putchar (PinwheelTB.construct soc buf).console5 ∧
      ((∀ c ∈ text, c ≠ 0#8 ∧ c ≠ Console.carriageReturn) →
        sim.top.console5.At (Console.screen text) ∧
          sim.top.console5.Shows (Console.screen text)) ∧
      sim.top.soc.uart0Rx.getChecksum = (text.map (BitVec.setWidth 32)).sum := by
  intro sim text
  have htop : sim.top = _ := ((launched soc buf rcs steps ticks).calls_eq dcs calls).1
  have hprinted : sim.top.console5 =
      text.foldl Console.putchar (PinwheelTB.construct soc buf).console5 := by
    rw [htop]
    exact console5_appInit hm _
  refine ⟨hprinted, fun htext ↦ ?_, ?_⟩
  · rw [hprinted]
    exact Console.shows_screen htext
  · obtain ⟨hmatched, hlatency⟩ := @link_resets _ _ soc rcs hm
    have hchecksum := @Soc.getChecksum_states _ _ (rcs 1) _ dcs hmatched (min calls steps.toNat)
    rw [hlatency] at hchecksum
    rw [htop, PinwheelTB.soc_states]
    exact hchecksum

/-- The first letter is on the fifth console. -/
theorem console5_shows_saying :
    let dcs := fun _ : ℕ ↦ DontCare.const 0#32
    ((launched (Soc.saying true) (fun _ _ ↦ 0#8) dcs 12#64 0#64).calls dcs 12).top.console5.Shows
      (Console.screen [0x41#8]) := by
  intro dcs
  have htext : emitted (((Soc.saying true).resets dcs 2).txLoads dcs) (min 12 (12#64).toNat - 9) =
      [0x41#8] := by
    decide
  have hshow :=
    (@console5_shows _ _ (Soc.saying true) (fun _ _ ↦ 0#8) dcs dcs 12#64 0#64 12 rfl).2.1
  have hlatency : (Soc.saying true).link.latency = 9 := rfl
  rw [hlatency, htext] at hshow
  exact (hshow (by decide)).2

/-- **The fifth console shows the message of the hello client** of a program that leaves
the transmitter alone: at any time a beginning of it, and sooner or later all of it, over
and over if it is repeated. -/
theorem console5_shows_hello (hm : soc.link.Matched) (h : (soc.resets rcs 2).NoTxWrite dcs)
    (htext : ∀ a, soc.uart0Hello.memory a ≠ 0#8 ∧
      soc.uart0Hello.memory a ≠ Console.carriageReturn) :
    (∀ m, ∃ k, (((PinwheelTB.construct soc buf).appInit rcs).states dcs m).console5.Shows
        (Console.screen (soc.uart0Hello.message k)) ∧
      (soc.uart0Hello.repeatMsg = false → k ≤ 512)) ∧
    ∀ k, soc.uart0Hello.repeatMsg = true ∨ k ≤ 512 →
      ∃ m, (((PinwheelTB.construct soc buf).appInit rcs).states dcs m).console5.Shows
        (Console.screen (soc.uart0Hello.message k)) := by
  have hloads : (soc.resets rcs 2).txLoads dcs = (soc.resets rcs 1).client.loads :=
    funext fun n ↦ (Soc.client_states h n).2
  have hmemory : (soc.resets rcs 1).client.hello.memory = soc.uart0Hello.memory :=
    soc.client.memory_tick true
  have hrepeat : (soc.resets rcs 1).client.hello.repeatMsg = soc.uart0Hello.repeatMsg :=
    soc.client.repeatMsg_tick true
  have hmessage : ∀ k, (soc.resets rcs 1).client.hello.message k = soc.uart0Hello.message k :=
    fun k ↦ by rw [UartHello.message, UartHello.message, hmemory]
  have hshows : ∀ k, ((soc.uart0Hello.message k).foldl Console.putchar
      (PinwheelTB.construct soc buf).console5).Shows
        (Console.screen (soc.uart0Hello.message k)) := by
    refine fun k ↦ (Console.shows_screen fun c hc ↦ ?_).2
    obtain ⟨a, -, rfl⟩ := List.mem_map.mp hc
    exact htext _
  refine ⟨fun m ↦ ?_, fun k hk ↦ ?_⟩
  · obtain ⟨k, hk, -⟩ := (soc.resets rcs 1).client.phase_states (m - soc.link.latency)
    refine ⟨k, ?_, fun hrep ↦ ?_⟩
    · rw [console5_appInit hm, hloads, hk, hmessage]
      exact hshows k
    · have hle := (soc.resets rcs 1).client.length_loads_le (hrepeat.trans hrep)
        (m - soc.link.latency)
      rwa [hk, UartHello.length_message] at hle
  · obtain ⟨m, hsent⟩ := (soc.resets rcs 1).client.exists_message (hrepeat.symm ▸ hk)
    refine ⟨m + soc.link.latency, ?_⟩
    rw [console5_appInit hm, Nat.add_sub_cancel, hloads, hsent, hmessage]
    exact hshows k

theorem console5_shows_hello_saying :
    let dcs := fun _ : ℕ ↦ DontCare.const 0#32
    let tb := PinwheelTB.construct (Soc.saying true) fun _ _ ↦ 0#8
    ∃ m, ((tb.appInit dcs).states dcs m).console5.Shows
      (Console.screen ((Soc.saying true).uart0Hello.message 600)) := by
  intro dcs tb
  have honly : ((Soc.saying true).resets dcs 2).Only fun i ↦ i.isMem = false :=
    ⟨by decide, by decide, rfl, rfl⟩
  exact (console5_shows_hello (show (Soc.saying true).link.Matched from rfl) (honly.noTxWrite dcs)
    fun _ ↦ show 0x41#8 ≠ 0#8 ∧ 0x41#8 ≠ Console.carriageReturn by decide).2 600 (.inl rfl)

/-- A program that prints the letter A, behind the guard: `addi x1, x0, 65`, then
`lui x2, 0x40000` and `sb x1, 0(x2)`. -/
def printing : Soc 2 1 := .blank fun a ↦
  if a = 0#2 then guardWord else if a = 1#2 then 0x04100093#32
  else if a = 2#2 then 0x40000137#32 else 0x00110023#32

/-- The letter is on the first console. -/
theorem consoles_show_printing :
    let dcs := fun _ : ℕ ↦ DontCare.const 0#32
    (((launched printing (fun _ _ ↦ 0#8) dcs 9#64 0#64).calls dcs 8).top.busConsole .first).Shows
      (Console.screen [0x41#8]) := by
  intro dcs
  have hout : (Machine.run (printing.resets dcs 2).codeRam.ram.ram (fun m ↦ (dcs (2 + m)).nextPc)
      6 ((printing.resets dcs 2).boot 0#24)).map Prod.snd =
        some [⟨TL.putPartialData, 0x40000000#32, 0x41#32, 0x1#4⟩] := by
    decide
  obtain ⟨⟨σ, out⟩, hrun, hput⟩ := Option.map_eq_some_iff.mp hout
  have hput : out = _ := hput
  subst hput
  have hshow := @consoles_show _ _ printing (fun _ _ ↦ 0#8) dcs dcs 9#64 0#64 6 8 σ _
    (show printing.Mirrored from rfl) (by decide) (by decide) (fun m hm ↦ ?_) hrun .first
  · exact (hshow.2 (by decide)).2
  · unfold Soc.BypassSound Soc.BypassAt
    interval_cases m <;> decide

/-- Hart 0 starts hart 1 at address 28, and prints on the first console.  Hart 1 prints the
letter B on the second one: `addi x1, x0, 66`, `lui x2, 0x50000` and `sb x1, 0(x2)`. -/
def sharing : Soc 4 1 := .blank fun a ↦
  [guardWord, 0x810000B7#32, 0x01C08093#32, 0x800090F3#32, 0x40000137#32, 0x00110023#32, guardWord,
    0x04200093#32, 0x50000137#32, 0x00110023#32].getD a.toNat guardWord

/-- The letter is on the second console. -/
theorem console_shows_thread_sharing :
    let dcs := fun _ : ℕ ↦ DontCare.const 0#32
    (((launched sharing (fun _ _ ↦ 0#8) dcs 15#64 0#64).calls dcs 15).top.busConsole
      .second).Shows (Console.screen [0x42#8]) := by
  intro dcs
  let code := (sharing.resets dcs 2).codeRam.ram.ram
  let σ := (sharing.resets dcs 2).boot 0#24
  let t : Process 3 := ⟨⟨⟨true, 1#7, 28#24⟩, σ.regs 1#3⟩, σ.mem⟩
  let τ := fun m ↦ Soc.machines dcs (sharing.resets dcs 2) (2 + m)
  let o := fun m ↦ Soc.outputs dcs (sharing.resets dcs 2) (2 + m)
  have hturns : Machine.turnsOf τ t.row 13 = 3 := by decide
  have hthree : (t.run code 3).map Prod.snd =
      some [⟨TL.putPartialData, 0x50000000#32, 0x42#32, 0x1#4⟩] := by
    decide
  obtain ⟨⟨u, out⟩, hrun, hout⟩ := Option.map_eq_some_iff.mp hthree
  have hout : out = _ := hout
  subst hout
  have hown := (congrArg (t.run code) hturns).trans hrun
  have hleaves : ∀ m < 13, ∀ r ∈ t.run code (Machine.turnsOf τ t.row (m + 1)),
      ((τ (m + 1)).Waits r.1.row → ((τ m).HasTurn r.1.row → (τ m).swap ≠ none) →
        (τ (m + 1)).a = r.1.hpc) ∧
      ((τ m).b.active = true → ∀ e ∈ (τ m).turn code, ∀ p ∈ e.poke, p.row ≠ r.1.row) := by
    decide
  have hothers : ∀ m < 13, ¬(τ m).HasTurn t.row → ∀ x ∈ o m, x.char 0x50000000#32 = none := by
    decide
  have hloads : ∀ m < 3, ∀ r ∈ t.run code m, ∀ c ∈ r.1.command code,
      c.loads 3 r.1.toHart = [] := by
    decide
  have hshow := @console_shows_thread _ _ sharing (fun _ _ ↦ 0#8) dcs dcs 15#64 0#64 13 15 t u ∅ _
    (show sharing.Mirrored from rfl) (by decide) (by decide) (fun m hm ↦ ?_) (by decide)
    ⟨rfl, fun _ hb ↦ hb.elim, by decide, by decide, by decide⟩ .second
    (fun m hm r hr ↦ ⟨(hleaves m hm r hr).1, (hleaves m hm r hr).2, fun _ _ hb ↦ hb.elim⟩)
    hothers (fun m hm r hr c hc b hb ↦ ?_) hown
  · exact (hshow.2 (by decide)).2
  · unfold Soc.BypassSound Soc.BypassAt
    interval_cases m <;> decide
  · rw [hloads m (hturns ▸ hm) r hr c hc] at hb
    exact absurd hb List.not_mem_nil

end PinwheelSim

end Pinwheel
