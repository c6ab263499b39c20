import Pinwheel.Soc.Bus
import Pinwheel.Uart.Loopback
import Pinwheel.Uart.Message

/-!
# The UART in the SoC

The SoC contains the serial link, with the transmitter's line looped back to the
receiver, and the hello client.  The link takes part in every tock, whatever the
program does; the client has the transmitter for itself as long as the program
does not write to it.
-/

namespace Pinwheel

open Clocked

namespace Soc

variable {cb db : Nat} (dc : DontCare) (s : Soc cb db)

/-! ## The link -/

/-- The SoC's serial link. -/
def link : Link := ⟨s.uart0Tx.tx, s.uart0Rx.rx⟩

/-- What the link receives in a tock, as decoded from the bus request. -/
def linkIn (tla : TilelinkA) : LinkIn where
  sendData := UartTxTilelink.nextData txMask txTag s.uart0Hello.getData tla
  sendRequest := UartTxTilelink.nextReq txMask txTag s.uart0Hello.getRequest tla
  byteConsumed := UartRxTilelink.byteConsumed rxMask rxTag tla

/-- A tock of the SoC is a clock of its link. -/
theorem link_tock (reset : Bool) :
    (s.tock dc reset).link = s.link.tick reset (s.linkIn (s.tock dc reset).core.dataTla) := rfl

/-- What the link receives in the tock after the `n`-th state of a run. -/
def linkIns (dcs : ℕ → DontCare) (n : ℕ) : LinkIn :=
  (states dcs s n).linkIn (states dcs s (n + 1)).core.dataTla

/-- A run of the SoC from a reset tock contains a run of the link from a reset
clock. -/
theorem link_states (dcs : ℕ → DontCare) (n : ℕ) :
    (states dcs (s.tock dc true) n).link =
      s.link.states (s.linkIn (s.tock dc true).core.dataTla) ((s.tock dc true).linkIns dcs) n := by
  induction n with
  | zero => rfl
  | succ n ih => rw [Link.states_succ, ← ih, states_succ, link_tock]; rfl

/-! ## The hello client -/

/-- The SoC's hello client with its transmitter. -/
def client : Client := ⟨s.uart0Hello, s.uart0Tx.tx⟩

/-- The byte `uart_tx` loads in a tock without reset. -/
def txLoaded : Option (BitVec 8) :=
  s.link.loaded (s.linkIn (s.tock dc false).core.dataTla)

/-- The bytes `uart_tx` loads in a run. -/
def txLoads (dcs : ℕ → DontCare) (n : ℕ) : Option (BitVec 8) :=
  (states dcs s n).txLoaded (dcs n)

/-- In a run the program never writes the transmitter's data register. -/
def NoTxWrite (dcs : ℕ → DontCare) : Prop :=
  ∀ n, UartTxTilelink.busWrite txMask txTag (states dcs s (n + 1)).core.dataTla = false

variable {dc s}

/-- The receiver stores what the transmitter loaded `latency` tocks before, whoever it is
from. -/
theorem emitted_stored {dcs : ℕ → DontCare} (hm : s.link.Matched) (n : ℕ) :
    emitted (fun m ↦ (states dcs (s.tock dc true) m).link.stored) n =
      emitted ((s.tock dc true).txLoads dcs) (n - s.link.latency) := by
  let i₀ := s.linkIn (s.tock dc true).core.dataTla
  let inputs := (s.tock dc true).linkIns dcs
  have hstores : (fun m ↦ (states dcs (s.tock dc true) m).link.stored) =
      s.link.stores i₀ inputs :=
    funext fun m ↦ congrArg Link.stored (s.link_states dc dcs m)
  have hloads : (s.tock dc true).txLoads dcs = s.link.loads i₀ inputs :=
    funext fun m ↦ congrArg (Link.loaded (inputs m)) (s.link_states dc dcs m)
  rw [hstores, hloads]
  exact (Link.frames hm).transit.emitted_eq n

/-- The checksum is the sum of these bytes. -/
theorem getChecksum_states {dcs : ℕ → DontCare} (hm : s.link.Matched) (n : ℕ) :
    (states dcs (s.tock dc true) n).uart0Rx.getChecksum =
      ((emitted ((s.tock dc true).txLoads dcs) (n - s.link.latency)).map
        (BitVec.setWidth 32)).sum := by
  have hrx : (states dcs (s.tock dc true) n).uart0Rx.rx = _ :=
    congrArg Link.rx (s.link_states dc dcs n)
  rw [UartRxTilelink.getChecksum, hrx, Link.checksum_states, ← emitted_stored hm]
  congr 3
  funext m
  exact (congrArg Link.stored (s.link_states dc dcs m)).symm

theorem client_reset : (s.tock dc true).client = s.client.tick true := rfl

/-- Without a bus write a tock of the SoC is a clock of its client. -/
theorem client_tock
    (h : UartTxTilelink.busWrite txMask txTag (s.tock dc false).core.dataTla = false) :
    (s.tock dc false).client = s.client.tick false ∧ s.txLoaded dc = s.client.loaded := by
  have hdata : (s.linkIn (s.tock dc false).core.dataTla).sendData = s.uart0Hello.getData := by
    simp [linkIn, UartTxTilelink.nextData, h]
  have hreq : (s.linkIn (s.tock dc false).core.dataTla).sendRequest =
      s.uart0Hello.getRequest := by
    simp [linkIn, UartTxTilelink.nextReq, h]
  constructor
  · have htx : (s.tock dc false).uart0Tx.tx = (s.client.tick false).tx := by
      rw [show (s.tock dc false).uart0Tx.tx = _ from congrArg Link.tx (s.link_tock dc false),
        Link.tick, hdata, hreq]
      rfl
    rw [client, htx]
    rfl
  · rw [txLoaded, Link.loaded, hdata, hreq]
    rfl

variable {dcs : ℕ → DontCare}

theorem NoTxWrite.client_succ (h : s.NoTxWrite dcs) (n : ℕ) :
    (states dcs s (n + 1)).client = (states dcs s n).client.tick false ∧
      s.txLoads dcs n = (states dcs s n).client.loaded :=
  client_tock (h n)

theorem client_states (h : (s.tock dc true).NoTxWrite dcs) (n : ℕ) :
    (states dcs (s.tock dc true) n).client = s.client.states n ∧
      (s.tock dc true).txLoads dcs n = s.client.loads n := by
  have hrun : (states dcs (s.tock dc true) n).client = s.client.states n := by
    induction n with
    | zero => exact client_reset
    | succ n ih => rw [(h.client_succ n).1, ih, Client.states_succ]
  refine ⟨hrun, ?_⟩
  rw [(h.client_succ n).2, hrun]
  rfl

/-- **The hello client transmits its message.**  In a run from reset in which the
program leaves the transmitter alone, the bytes loaded so far are the first bytes
of the message, over and over; all of it is sent, once or for ever; each new
round starts at an idle transmitter; and the client moves on exactly in the tocks
in which the byte at its cursor is loaded, which puts it into the shift register behind
a start bit. -/
theorem hello_transmits (h : (s.tock dc true).NoTxWrite dcs) :
    (∀ n, ∃ k, emitted ((s.tock dc true).txLoads dcs) n = s.uart0Hello.message k ∧
      (s.uart0Hello.repeatMsg = false → k ≤ 512)) ∧
    (∀ k, s.uart0Hello.repeatMsg = true ∨ k ≤ 512 →
      ∃ n, emitted ((s.tock dc true).txLoads dcs) n = s.uart0Hello.message k) ∧
    (∀ n, ((s.tock dc true).txLoads dcs n).isSome →
      (emitted ((s.tock dc true).txLoads dcs) n).length % 512 = 0 →
        (states dcs (s.tock dc true) n).uart0Tx.getIdle = true) ∧
    ∀ n, (states dcs (s.tock dc true) n).uart0Hello.cursor.toNat ≤ 511 ∧
      ((states dcs (s.tock dc true) n).uart0Hello.Advances
          (states dcs (s.tock dc true) (n + 1)).uart0Hello ↔
        ((s.tock dc true).txLoads dcs n).isSome) ∧
      (∀ b, (s.tock dc true).txLoads dcs n = some b →
        b = (states dcs (s.tock dc true) n).uart0Hello.getData ∧
          (states dcs (s.tock dc true) (n + 1)).uart0Tx.tx.bitCount = 0#5 ∧
          (states dcs (s.tock dc true) (n + 1)).uart0Tx.tx.shift = b.setWidth 9 <<< 1) ∧
      ((s.tock dc true).txLoads dcs n = none →
        (states dcs (s.tock dc true) (n + 1)).uart0Hello.cursor =
            (states dcs (s.tock dc true) n).uart0Hello.cursor ∨
          ((states dcs (s.tock dc true) n).uart0Hello.getDone = true ∧
            (states dcs (s.tock dc true) (n + 1)).uart0Hello.cursor = 0#9)) := by
  have hload : (s.tock dc true).txLoads dcs = s.client.loads :=
    funext fun n ↦ (client_states h n).2
  have hclient := fun n ↦ (client_states h n).1
  have hhello : ∀ n, (states dcs (s.tock dc true) n).uart0Hello = (s.client.states n).hello :=
    fun n ↦ congrArg Client.hello (hclient n)
  rw [hload]
  refine ⟨fun n ↦ ?_, fun k hk ↦ s.client.exists_message hk, fun n hs hlen ↦ ?_, fun n ↦ ?_⟩
  · obtain ⟨k, hk, -⟩ := s.client.phase_states n
    refine ⟨k, hk, fun hrep ↦ ?_⟩
    have := s.client.length_loads_le hrep n
    rwa [hk, UartHello.length_message] at this
  · obtain ⟨b, hb⟩ := Option.isSome_iff_exists.mp hs
    have hidle := s.client.idle_of_first hb hlen
    rwa [← hclient n] at hidle
  · have htx : (states dcs (s.tock dc true) (n + 1)).uart0Tx.tx =
        ((s.client.states n).tick false).tx := congrArg Client.tx (hclient (n + 1))
    rw [hhello n, hhello (n + 1), htx, s.client.advances_iff_loads n]
    refine ⟨Nat.le_of_lt_succ (BitVec.isLt _), Iff.rfl, fun b hb ↦ ?_,
      s.client.cursor_of_loads_none⟩
    have hload : ((s.client.states n).tick false).tx = _ := UartTx.tick_of_loaded _ hb
    rw [hload]
    exact ⟨Option.some.inj (hb.symm.trans (s.client.loads_of_isSome (by rw [hb]; rfl))), rfl, rfl⟩

/-- A program without loads and stores leaves the transmitter alone. -/
theorem Only.noTxWrite (h : s.Only fun i ↦ i.isMem = false) (dcs : ℕ → DontCare) :
    s.NoTxWrite dcs := by
  intro n
  have hstore : ∀ i : Insn, i.isMem = false → i.op ≠ RV32I.opStore := by
    intro i hi ho
    rw [Insn.isMem, ho] at hi
    exact absurd hi (by decide)
  have hb := (h.states rfl hstore dcs n).bInsn
  have hvalid : (Soc.states dcs s (n + 1)).core.dataTla.aValid = false := hb
  rw [UartTxTilelink.busWrite, TilelinkA.selects, hvalid]
  rfl

/-- A SoC whose whole program is `j .`. -/
def spinning : Soc 4 4 := blank fun _ ↦ 0x0000006F#32

theorem spinning_only : (spinning.tock (DontCare.const 0#32) true).Only fun i ↦ i.isMem = false :=
  ⟨fun _ ↦ rfl, rfl, rfl, rfl⟩

theorem hello_transmits_spinning :
    ∃ n, emitted
        ((spinning.tock (DontCare.const 0#32) true).txLoads fun _ ↦ DontCare.const 0#32) n =
      spinning.uart0Hello.message 1024 :=
  (hello_transmits (spinning_only.noTxWrite _)).2.1 1024 (.inl rfl)

end Soc

end Pinwheel
