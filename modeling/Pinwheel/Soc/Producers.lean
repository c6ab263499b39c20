import Pinwheel.Soc.Reachable
import Pinwheel.Soc.Uart
import Pinwheel.Uart.Handshake

/-!
# The two producers of the transmitter

The hello client and the core share the transmitter.  The client goes by
`get_ready`, which it is told before the bus write of the core overrides its byte;
the core gets its acknowledgement from the address decoder alone.
-/

namespace Pinwheel

/-! ## The client next to a second producer -/

namespace UartHello

variable {h : UartHello} {ready idle : Bool}

/-- The two ways to be in `SEND` after a clock. -/
theorem send_of_tick (hs : (h.tick false ready idle).state = send) :
    (h.state = wait ∧ idle = true) ∨ h.state = send := by
  rw [tick, if_neg Bool.false_ne_true] at hs
  split_ifs at hs with hwait hsend hlast hdone hrep
  · exact .inl hwait
  · exact .inr hsend.1
  · exact .inr hsend.1
  · exact absurd (show wait = send from hs) (by decide)
  · exact .inr hs
  · exact .inr hs

/-- A clock in which the client is not in `SEND`, or is not told ready, is no advance. -/
theorem not_advances_tick (hn : ¬(h.state = send ∧ ready = true)) :
    ¬h.Advances (h.tick false ready idle) := by
  rw [tick, if_neg Bool.false_ne_true, if_neg (c := h.state = send ∧ ready = true) hn]
  split_ifs with hwait hdone hrep
  · exact not_advances_of_le (Nat.le_refl _) fun _ ↦ rfl
  · exact not_advances_of_le (Nat.zero_le _) fun hnot ↦ absurd hdone (beq_eq_false_iff_ne.mp hnot)
  · exact not_advances_of_le (Nat.zero_le _) fun hnot ↦ absurd hdone (beq_eq_false_iff_ne.mp hnot)
  · exact not_advances_of_le (Nat.le_refl _) id

/-- In `SEND` the client advances when it is told ready. -/
theorem advances_tick (hs : h.state = send) : h.Advances (h.tick false true idle) := by
  rw [tick_send hs, if_pos rfl]
  split_ifs with hlast
  · exact .inr ⟨by rw [getDone, hs]; rfl, rfl⟩
  · refine .inl ?_
    have hlt := h.cursor.isLt
    have hne : h.cursor.toNat ≠ 511 := fun h511 ↦ hlast (BitVec.eq_of_toNat_eq h511)
    simp only [BitVec.toNat_add, BitVec.toNat_ofNat]
    omega

theorem advances_tick_iff :
    h.Advances (h.tick false ready idle) ↔ h.state = send ∧ ready = true := by
  constructor
  · intro hadv
    by_contra hn
    exact not_advances_tick hn hadv
  · rintro ⟨hs, rfl⟩
    exact advances_tick hs

end UartHello

namespace Client

/-- The client is in `SEND` only while the transmitter is within a frame or idle. -/
structure Granted (c : Client) : Prop where
  range : c.tx.InRange
  send : c.hello.state = UartHello.send → c.tx.Sending ∨ c.tx.getIdle = true

variable {c : Client} {data : BitVec 8} {req : Bool}

/-- While the client is granted the transmitter, `get_ready` is the load condition. -/
theorem Granted.ready_iff (h : c.Granted) (hs : c.hello.state = UartHello.send) :
    c.tx.getReady = true ↔ c.tx.CanLoad := by
  have hload : (c.tx.loaded 0#8 true).isSome ↔ c.tx.CanLoad := by
    rw [UartTx.loaded_isSome_iff_canLoad, eq_self_iff_true, and_true]
  rw [← hload]
  rcases h.send hs with hsend | hidle
  · exact hsend.loaded_isSome.symm
  · exact iff_of_true (UartTx.ready_of_idle hidle) (by rw [UartTx.loaded_of_idle hidle]; rfl)

/-- A second producer may put in its own bytes, as long as the request of the client
is one in any case. -/
theorem Granted.tick (h : c.Granted) (hreq : c.hello.state = UartHello.send → req = true) :
    (Client.mk (c.hello.tick false c.tx.getReady c.tx.getIdle)
      (c.tx.tick false data req)).Granted := by
  refine ⟨h.range.tick false, fun hs ↦ ?_⟩
  cases hl : c.tx.loaded data req with
  | some b => exact .inl (.of_loaded hl)
  | none =>
    rcases UartHello.send_of_tick hs with ⟨-, hidle⟩ | hsend
    · refine .inr ?_
      show (c.tx.tick false data req).getIdle = true
      rw [UartTx.tick_of_idle hl hidle]
      exact hidle
    · obtain rfl := hreq hsend
      rcases h.send hsend with hbusy | hidle
      · exact .inl (hbusy.tick hl)
      · exact absurd (hl.symm.trans (UartTx.loaded_of_idle hidle)) (Option.some_ne_none _).symm

end Client

/-! ## In the SoC -/

namespace Soc

variable {cb db : ℕ} {dc : DontCare} {s : Soc cb db}

theorem Reachable.granted (h : s.Reachable) : s.client.Granted := by
  induction h with
  | @construct s hs =>
    obtain ⟨clockRate, baudRate, htx⟩ := hs.tx
    have hwait : s.client.hello.state = UartHello.wait := hs.hello
    refine ⟨?_, fun hsend ↦ absurd (hwait.symm.trans hsend) (by decide)⟩
    show s.uart0Tx.tx.InRange
    rw [htx]
    exact UartTx.inRange_init clockRate baudRate
  | reset dc s =>
    refine ⟨s.uart0Tx.tx.inRange_reset s.uart0Hello.getData s.uart0Hello.getRequest,
      fun hsend ↦ ?_⟩
    have hwait : (s.tock dc true).client.hello.state = UartHello.wait := by
      rw [client_reset]
      simp [Client.tick, UartHello.tick]
    exact absurd (hwait.symm.trans hsend) (by decide)
  | @tock s dc _ ih =>
    refine ih.tick fun hsend ↦ ?_
    have hreq : s.uart0Hello.getRequest = true := beq_iff_eq.mpr hsend
    rw [UartTxTilelink.nextReq, hreq, ite_self]

variable (dc s)

/-- The core writes the data register of the transmitter in this tock. -/
def coreWrites : Bool :=
  UartTxTilelink.busWrite txMask txTag (s.core.nextDataTla dc s.coreIn)

/-- The client advances exactly if its byte is loaded, and not the core's. -/
def HelloServed : Prop :=
  s.uart0Hello.Advances (s.tock dc false).uart0Hello ↔
    (s.txLoaded dc).isSome ∧ s.coreWrites dc = false

/-- The core's write is acknowledged exactly if its byte is loaded. -/
def CoreServed : Prop :=
  s.coreWrites dc = true →
    (((s.tock dc false).uart0Tx.getTld.dOpcode = TL.accessAck ∧
      (s.tock dc false).uart0Tx.getTld.dValid = true ∧
      (s.tock dc false).uart0Tx.getTld.dError = false) ↔ (s.txLoaded dc).isSome)

variable {dc s}

theorem txLoaded_isSome_iff :
    (s.txLoaded dc).isSome ↔
      s.uart0Tx.tx.CanLoad ∧ (s.coreWrites dc = true ∨ s.uart0Hello.state = UartHello.send) := by
  have hload : s.txLoaded dc = s.uart0Tx.tx.loaded
      (UartTxTilelink.nextData txMask txTag s.uart0Hello.getData (s.core.nextDataTla dc s.coreIn))
      (UartTxTilelink.nextReq txMask txTag s.uart0Hello.getRequest
        (s.core.nextDataTla dc s.coreIn)) := rfl
  have hreq : s.uart0Hello.getRequest = true ↔ s.uart0Hello.state = UartHello.send := beq_iff_eq
  rw [hload, UartTx.loaded_isSome_iff_canLoad, UartTxTilelink.nextReq, coreWrites, ← hreq]
  cases UartTxTilelink.busWrite txMask txTag (s.core.nextDataTla dc s.coreIn) <;> simp

/-- Every write to the data register is acknowledged. -/
theorem acked_of_coreWrites (h : s.coreWrites dc = true) :
    (s.tock dc false).uart0Tx.getTld =
      { idleTld dc with dOpcode := TL.accessAck, dValid := true } := by
  rw [coreWrites, UartTxTilelink.busWrite, Bool.and_eq_true, Bool.and_eq_true, beq_iff_eq,
    beq_iff_eq] at h
  obtain ⟨⟨hsel, hop⟩, hoff⟩ := h
  have htld : (s.tock dc false).uart0Tx.getTld =
      s.uart0Tx.tick dc txMask txTag (s.core.nextDataTla dc s.coreIn) := rfl
  rw [htld, UartTxTilelink.tick, if_pos hsel, hop, if_neg (by decide), if_pos rfl, if_pos hoff]

theorem advances_iff (h : s.Reachable) :
    s.uart0Hello.Advances (s.tock dc false).uart0Hello ↔
      s.uart0Hello.state = UartHello.send ∧ s.uart0Tx.tx.CanLoad :=
  UartHello.advances_tick_iff.trans (and_congr_right fun hs ↦ h.granted.ready_iff hs)

/-- **No byte is lost** between the two producers, in a tock of a reachable state,
exactly if the core does not write, or writes when the transmitter can load and the
client is not sending. -/
theorem no_byte_lost_iff (h : s.Reachable) (dc : DontCare) :
    (s.HelloServed dc ∧ s.CoreServed dc) ↔
      (s.coreWrites dc = true → s.uart0Tx.tx.CanLoad ∧ s.uart0Hello.state ≠ UartHello.send) := by
  rw [HelloServed, CoreServed, advances_iff h, txLoaded_isSome_iff]
  cases hw : s.coreWrites dc with
  | false =>
    refine iff_of_true ⟨?_, fun h ↦ absurd h Bool.false_ne_true⟩ fun h ↦
      absurd h Bool.false_ne_true
    simp [and_comm]
  | true =>
    rw [acked_of_coreWrites hw]
    simp only [idleTld, true_or, and_true, true_implies, Bool.true_eq_false, and_false,
      iff_false, true_iff]
    exact ⟨fun ⟨hidle, hcan⟩ ↦ ⟨hcan, fun hs ↦ hidle ⟨hs, hcan⟩⟩,
      fun ⟨hcan, hs⟩ ↦ ⟨fun hboth ↦ hs hboth.1, hcan⟩⟩

/-- At one clock per bit, a program that stores to the data register all the time:
`lui x1, 0xB0000; sw x0, 4(x1); ...`. -/
def sharing (n : ℕ) : Soc 4 1 :=
  let s : Soc 4 1 := blank fun a ↦ if a.toNat < 2 then 0xB00000B7#32 else 0x0000A223#32
  states (fun _ ↦ DontCare.const 0#32)
    ({ s with uart0Tx := { s.uart0Tx with tx := UartTx.init 1 1 } }.tock
      (DontCare.const 0#32) true) n

theorem sharing_reachable (n : ℕ) : (sharing n).Reachable :=
  (Reachable.reset _ _).states _ n

/-- After twelve tocks the client's second byte is loaded, and the core does not write. -/
theorem no_byte_lost_sharing :
    (sharing 12).HelloServed (DontCare.const 0#32) ∧
      (sharing 12).CoreServed (DontCare.const 0#32) :=
  (no_byte_lost_iff (sharing_reachable 12) (DontCare.const 0#32)).mpr fun h ↦
    absurd h (by decide +kernel)

/-- After three tocks the core's write is acknowledged and its byte is lost; after
twenty-three the core's byte is loaded and the client takes it for its own. -/
theorem sharing_loses :
    ((sharing 3).Reachable ∧ ¬(sharing 3).CoreServed (DontCare.const 0#32)) ∧
      (sharing 23).Reachable ∧ ¬(sharing 23).HelloServed (DontCare.const 0#32) := by
  constructor
  · refine ⟨sharing_reachable 3, fun h ↦ ?_⟩
    have hnone : (sharing 3).txLoaded (DontCare.const 0#32) = none := by decide +kernel
    have hsome := (h (by decide +kernel)).mp (by decide +kernel)
    rw [hnone] at hsome
    exact Bool.false_ne_true hsome
  · refine ⟨sharing_reachable 23, fun h ↦ ?_⟩
    have hadv : (sharing 23).uart0Hello.Advances
        ((sharing 23).tock (DontCare.const 0#32) false).uart0Hello := .inl (by decide +kernel)
    exact absurd (h.mp hadv).2 (by decide +kernel)

end Soc

end Pinwheel
