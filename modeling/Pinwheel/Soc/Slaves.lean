import Pinwheel.Soc.Bus

/-!
# The slaves of the SoC

Five slaves answer requests, each by code of its own.  A RAM keeps the error bit that its
constructor left, the debug register keeps the opcode as well and answers whatever opcode
it is asked for, and the UART adapters leave the valid bit low when they report an error.
-/

namespace Pinwheel

/-- The slaves.  The code RAM has a bus of its own, the others share the data bus. -/
inductive Slave where
  | codeRam
  | dataRam
  | debugReg
  | uart0Tx
  | uart0Rx
deriving DecidableEq, Repr

namespace Slave

def mask : Slave → BitVec 32
  | codeRam => Soc.codeMask
  | dataRam => Soc.dataMask
  | debugReg => Soc.debugMask
  | uart0Tx => Soc.txMask
  | uart0Rx => Soc.rxMask

def tag : Slave → BitVec 32
  | codeRam => Soc.codeTag
  | dataRam => Soc.dataTag
  | debugReg => Soc.debugTag
  | uart0Tx => Soc.txTag
  | uart0Rx => Soc.rxTag

/-- A read or a write in the range of a slave. -/
def Requests (k : Slave) (tla : TilelinkA) : Prop :=
  tla.selects k.mask k.tag = true ∧ (tla.aOpcode = TL.get ∨ tla.isPut = true)

/-- A slave services the request: the RAMs and the debug register all of them, the UARTs
the registers that they have. -/
def Serves (k : Slave) (tla : TilelinkA) : Prop :=
  match k with
  | codeRam | dataRam | debugReg => True
  | uart0Tx =>
    (tla.aOpcode = TL.get ∧ tla.offset = 0x0000#32) ∨
      (tla.aOpcode = TL.putFullData ∧ tla.offset = 0x0004#32)
  | uart0Rx =>
    tla.aOpcode = TL.get ∧
      (tla.offset = 0x0000#32 ∨ tla.offset = 0x0004#32 ∨ tla.offset = 0x0008#32)

/-- The opcode of the answer. -/
def ack (tla : TilelinkA) : BitVec 3 :=
  if tla.aOpcode = TL.get then TL.accessAckData else TL.accessAck

/-- The answer to a request. -/
structure Answered (k : Slave) (tla : TilelinkA) (tld : TilelinkD) : Prop where
  valid : tld.dValid = true
  opcode : tld.dOpcode = ack tla
  error : tld.dError = true ↔ ¬k.Serves tla

instance (k : Slave) (tla : TilelinkA) : Decidable (k.Requests tla) :=
  inferInstanceAs (Decidable (_ ∧ _))

variable {cb db : ℕ} (dc : DontCare) (reset : Bool) (s : Soc cb db) (k : Slave) (tla : TilelinkA)

/-- What a slave says on its D channel after a tock in which it sees a message. -/
def answer : TilelinkD :=
  match k with
  | codeRam => (s.codeRam.tockB Soc.codeMask Soc.codeTag tla).getTld
  | dataRam => (s.dataRam.tockB Soc.dataMask Soc.dataTag tla).getTld
  | debugReg => (s.debugReg.tock Soc.debugMask Soc.debugTag tla).getTld
  | uart0Tx => (s.uart0Tx.tock dc Soc.txMask Soc.txTag reset s.uart0Hello.getData
      s.uart0Hello.getRequest tla).getTld
  | uart0Rx => (s.uart0Rx.tock dc Soc.rxMask Soc.rxTag reset s.uart0Tx.getSerial tla).getTld

/-- The message that a slave sees. -/
def message : TilelinkA :=
  match k with
  | codeRam => s.core.codeTla
  | dataRam | debugReg | uart0Tx | uart0Rx => s.core.dataTla

/-- What it says on its D channel. -/
def tld : TilelinkD :=
  match k with
  | codeRam => s.codeRam.getTld
  | dataRam => s.dataRam.getTld
  | debugReg => s.debugReg.getTld
  | uart0Tx => s.uart0Tx.getTld
  | uart0Rx => s.uart0Rx.getTld

/-- A request is answered, anything else is not. -/
def Answers : Prop :=
  (k.Requests tla → k.Answered tla (k.answer dc reset s tla)) ∧
    (¬k.Requests tla → (k.answer dc reset s tla).dValid = false)

/-- No error is left over in a RAM, the debug register is asked for what its opcode says
and has no error left over either, and the UARTs are asked for what they have. -/
def Fits : Prop :=
  match k with
  | codeRam => codeRam.Requests tla → s.codeRam.tld.dError = false
  | dataRam => dataRam.Requests tla → s.dataRam.tld.dError = false
  | debugReg => tla.selects Soc.debugMask Soc.debugTag = true →
      debugReg.Requests tla ∧ s.debugReg.tld.dOpcode = ack tla ∧ s.debugReg.tld.dError = false
  | uart0Tx => uart0Tx.Requests tla → uart0Tx.Serves tla
  | uart0Rx => uart0Rx.Requests tla → uart0Rx.Serves tla

variable {dc reset s k tla} {tld : TilelinkD}

theorem isPut_iff :
    tla.isPut = true ↔ tla.aOpcode = TL.putFullData ∨ tla.aOpcode = TL.putPartialData := by
  rw [TilelinkA.isPut, Bool.or_eq_true, beq_iff_eq, beq_iff_eq]

/-! ## The RAMs -/

/-- A RAM answers requests and nothing else, with the error bit it has. -/
theorem ram_answers_iff {bits : ℕ} (r : BusRam bits) (hk : k.Serves tla)
    (htld : tld = (r.tockB k.mask k.tag tla).getTld) :
    ((k.Requests tla → k.Answered tla tld) ∧ (¬k.Requests tla → tld.dValid = false)) ↔
      (k.Requests tla → r.tld.dError = false) := by
  have hvalid : tld.dValid = (tla.selects k.mask k.tag &&
      (tla.isPut || tla.aOpcode == TL.get)) := by rw [htld]; rfl
  have herror : tld.dError = r.tld.dError := by rw [htld]; rfl
  have hopcode : tld.dOpcode =
      if tla.selects k.mask k.tag ∧ tla.aOpcode = TL.get then TL.accessAckData
      else if tla.selects k.mask k.tag ∧ tla.isPut then TL.accessAck
      else TL.invalid := by rw [htld]; rfl
  have hreq : tld.dValid = true ↔ k.Requests tla := by
    rw [hvalid, Bool.and_eq_true, Bool.or_eq_true, beq_iff_eq, Requests, or_comm]
  constructor
  · rintro ⟨hanswered, -⟩ hr
    rw [← herror, ← Bool.not_eq_true, (hanswered hr).error, not_not]
    exact hk
  · refine fun h ↦ ⟨fun hr ↦ ⟨hreq.mpr hr, ?_, ?_⟩, fun hr ↦ ?_⟩
    · obtain ⟨hsel, hop⟩ := hr
      rw [hopcode, ack, hsel]
      by_cases hget : tla.aOpcode = TL.get
      · rw [if_pos ⟨rfl, hget⟩, if_pos hget]
      · rw [if_neg fun hg ↦ hget hg.2, if_neg hget, if_pos ⟨rfl, hop.resolve_left hget⟩]
    · rw [herror, h hr]
      exact iff_of_false Bool.false_ne_true fun hn ↦ hn hk
    · rw [← Bool.not_eq_true, hreq]
      exact hr

/-! ## The debug register -/

/-- The debug register answers everything in its range, with the opcode and the error bit
that it has. -/
theorem debug_answers_iff : debugReg.Answers dc reset s tla ↔ debugReg.Fits s tla := by
  have hvalid : (debugReg.answer dc reset s tla).dValid =
      tla.selects Soc.debugMask Soc.debugTag := rfl
  constructor
  · rintro ⟨hanswered, hquiet⟩ hsel
    have hr : debugReg.Requests tla := by
      by_contra hr
      exact Bool.false_ne_true ((hquiet hr).symm.trans (hvalid.trans hsel))
    have h := hanswered hr
    refine ⟨hr, h.opcode, ?_⟩
    rw [← Bool.not_eq_true]
    exact fun he ↦ h.error.mp he trivial
  · refine fun h ↦ ⟨fun hr ↦ ?_, fun hr ↦ ?_⟩
    · obtain ⟨-, hop, herror⟩ := h hr.1
      refine ⟨hvalid.trans hr.1, hop, ?_⟩
      have hlatch : (debugReg.answer dc reset s tla).dError = s.debugReg.tld.dError := rfl
      rw [hlatch, herror]
      exact iff_of_false Bool.false_ne_true fun hn ↦ hn trivial
    · rw [hvalid, ← Bool.not_eq_true]
      exact fun hsel ↦ hr (h hsel).1

/-! ## The UARTs -/

/-- A slave that is silent when it does not service a request. -/
theorem uart_answers_iff (hop : k.Serves tla → tla.aOpcode = TL.get ∨ tla.isPut = true)
    (hvalid : tld.dValid = true ↔ tla.selects k.mask k.tag = true ∧ k.Serves tla)
    (hack : tla.selects k.mask k.tag = true → k.Serves tla →
      tld.dOpcode = ack tla ∧ tld.dError = false) :
    ((k.Requests tla → k.Answered tla tld) ∧ (¬k.Requests tla → tld.dValid = false)) ↔
      (k.Requests tla → k.Serves tla) := by
  constructor
  · exact fun h hr ↦ (hvalid.mp (h.1 hr).valid).2
  · refine fun h ↦ ⟨fun hr ↦ ?_, fun hr ↦ ?_⟩
    · obtain ⟨hopcode, herror⟩ := hack hr.1 (h hr)
      refine ⟨hvalid.mpr ⟨hr.1, h hr⟩, hopcode, ?_⟩
      rw [herror]
      exact iff_of_false Bool.false_ne_true fun hn ↦ hn (h hr)
    · rw [← Bool.not_eq_true, hvalid]
      exact fun hv ↦ hr ⟨hv.1, hop hv.2⟩

theorem tx_answers_iff : uart0Tx.Answers dc reset s tla ↔ uart0Tx.Fits s tla := by
  have htld : uart0Tx.answer dc reset s tla =
      s.uart0Tx.tick dc Soc.txMask Soc.txTag tla := rfl
  refine uart_answers_iff ?_ ?_ ?_
  · rintro (⟨hget, -⟩ | ⟨hput, -⟩)
    · exact .inl hget
    · exact .inr (isPut_iff.mpr (.inl hput))
  · show _ ↔ tla.selects Soc.txMask Soc.txTag = true ∧ _
    rw [htld, UartTxTilelink.tick, Serves]
    split_ifs <;> simp_all [idleTld, TL.get, TL.putFullData]
  · rintro (hsel : tla.selects Soc.txMask Soc.txTag = true) (⟨hget, hoff⟩ | ⟨hput, hoff⟩)
    · rw [htld, UartTxTilelink.tick, if_pos hsel, if_pos hget, if_pos hoff, ack, if_pos hget]
      exact ⟨rfl, rfl⟩
    · have hget : tla.aOpcode ≠ TL.get := by rw [hput]; decide
      rw [htld, UartTxTilelink.tick, if_pos hsel, if_neg hget, if_pos hput, if_pos hoff, ack,
        if_neg hget]
      exact ⟨rfl, rfl⟩

theorem rx_answers_iff : uart0Rx.Answers dc reset s tla ↔ uart0Rx.Fits s tla := by
  have htld : uart0Rx.answer dc reset s tla =
      s.uart0Rx.tick dc Soc.rxMask Soc.rxTag tla := rfl
  refine uart_answers_iff (fun h ↦ .inl h.1) ?_ ?_
  · show _ ↔ tla.selects Soc.rxMask Soc.rxTag = true ∧ _
    rw [htld, UartRxTilelink.tick, Serves]
    split_ifs <;> simp_all [idleTld]
  · rintro (hsel : tla.selects Soc.rxMask Soc.rxTag = true) ⟨hget, hoff⟩
    rw [htld, UartRxTilelink.tick, if_pos ⟨hsel, hget⟩, ack, if_pos hget]
    rcases hoff with hoff | hoff | hoff <;> rw [hoff] <;> exact ⟨rfl, rfl⟩

/-! ## One of them -/

/-- The top nibble tells the ranges apart, but for the two UARTs. -/
theorem page_of_selects (h : tla.selects k.mask k.tag = true) :
    Core.page tla.aAddress = Core.page k.tag :=
  Core.page_of_selects (by cases k <;> rfl) h

/-- An address is in the range of one slave. -/
theorem selects_unique {k' : Slave} (h : tla.selects k.mask k.tag = true)
    (h' : tla.selects k'.mask k'.tag = true) : k = k' := by
  have hpage := (page_of_selects h).symm.trans (page_of_selects h')
  have huart : tla.selects uart0Tx.mask uart0Tx.tag = true →
      tla.selects uart0Rx.mask uart0Rx.tag = true → False := by
    intro htx hrx
    rw [TilelinkA.selects, Bool.and_eq_true, beq_iff_eq] at htx hrx
    exact absurd (htx.2.symm.trans hrx.2) (by decide)
  cases k <;> cases k' <;> first
    | rfl
    | exact absurd hpage (by decide)
    | exact (huart h h').elim
    | exact (huart h' h).elim

/-- Whoever answers is addressed. -/
theorem selects_of_dValid (h : (k.answer dc reset s tla).dValid = true) :
    tla.selects k.mask k.tag = true := by
  cases k with
  | codeRam => exact ((Bool.and_eq_true _ _).mp h).1
  | dataRam => exact ((Bool.and_eq_true _ _).mp h).1
  | debugReg => exact h
  | uart0Tx => exact UartTxTilelink.selects_of_dValid h
  | uart0Rx => exact UartRxTilelink.selects_of_dValid h

theorem answers_iff : k.Answers dc reset s tla ↔ k.Fits s tla := by
  cases k with
  | codeRam => exact ram_answers_iff s.codeRam trivial rfl
  | dataRam => exact ram_answers_iff s.dataRam trivial rfl
  | debugReg => exact debug_answers_iff
  | uart0Tx => exact tx_answers_iff
  | uart0Rx => exact rx_answers_iff

/-- In a tock of the SoC the slaves answer the messages of the core. -/
theorem tld_tock (k : Slave) :
    k.tld (s.tock dc reset) = k.answer dc reset s (k.message (s.tock dc reset)) := by
  cases k <;> rfl

/-- **A slave answers as it should** exactly if the message fits it, and at most one slave
answers a message in any case.  In a tock of the SoC the messages are those of the core. -/
theorem slaves_answer_iff (dc : DontCare) (reset : Bool) (s : Soc cb db) (tla : TilelinkA) :
    (∀ k : Slave, k.Answers dc reset s tla ↔ k.Fits s tla) ∧
      (∀ k k' : Slave, (k.answer dc reset s tla).dValid = true →
        (k'.answer dc reset s tla).dValid = true → k = k') ∧
      ∀ k : Slave, k.tld (s.tock dc reset) = k.answer dc reset s (k.message (s.tock dc reset)) :=
  ⟨fun _ ↦ answers_iff, fun _ _ h h' ↦ selects_unique (selects_of_dValid h) (selects_of_dValid h'),
    tld_tock⟩

/-- A read of the transmitter at offset 8 is an error that nobody hears of. -/
theorem error_not_answered :
    let s : Soc 1 1 := Soc.blank fun _ ↦ 0#32
    let tla : TilelinkA := ⟨TL.get, 0#3, 2#3, false, 0xB0000008#32, 0xF#4, 0#32, true, true⟩
    uart0Tx.Requests tla ∧ (uart0Tx.answer (DontCare.const 0#32) false s tla).dError = true ∧
      (uart0Tx.answer (DontCare.const 0#32) false s tla).dValid = false ∧
      ¬uart0Tx.Answers (DontCare.const 0#32) false s tla := by
  intro s tla
  have hr : uart0Tx.Requests tla := by decide
  have hvalid : (uart0Tx.answer (DontCare.const 0#32) false s tla).dValid = false := by decide
  exact ⟨hr, by decide, hvalid, fun h ↦ Bool.false_ne_true (hvalid.symm.trans (h.1 hr).valid)⟩

end Slave

end Pinwheel
