import Pinwheel.Lib.Run
import Pinwheel.Uart.Branches
import Pinwheel.Uart.Tilelink

/-!
# The receive register as a mailbox

A completed byte goes to the data buffer and raises the flag; a read of the data
register takes the flag down.  The answer to a read is formed before the receiver
ticks, so a read in the tock of a completion is one of the byte before.  A reset
leaves the flag as it is.
-/

namespace Pinwheel

open Clocked

/-- What the adapter of the receiver sees in one tock. -/
structure RxTock where
  dc : DontCare
  reset : Bool
  serial : Bool
  tla : TilelinkA

namespace UartRxTilelink

variable (mask tag : BitVec 32) (u : UartRxTilelink) (ins : ℕ → RxTock)

/-- The adapter after `n` tocks. -/
def states (n : ℕ) : UartRxTilelink :=
  run (fun i u ↦ u.tock i.dc mask tag i.reset i.serial i.tla) ins u n

/-- The byte that is completed in tock `n`. -/
def completed (n : ℕ) : Option (BitVec 8) :=
  if (ins n).reset then none else (u.states mask tag ins n).rx.stored (ins n).serial

/-- The data register is read in tock `n`. -/
def reads (n : ℕ) : Bool := byteConsumed mask tag (ins n).tla

/-- The answer to a read of the data register in tock `n`, if the flag is up before it. -/
def taken (n : ℕ) : Option (BitVec 32) :=
  if reads mask tag ins n ∧ (u.states mask tag ins n).getDataFlag then
    some (u.states mask tag ins (n + 1)).getTld.dData
  else none

/-- The byte in the mailbox, as a read would return it. -/
def pending : List (BitVec 32) := if u.getDataFlag then [u.getDataBuf.setWidth 32] else []

/-- Every byte is read after it is completed, and no later than in the tock of the next one. -/
def Served : Prop :=
  ∀ c c', c < c' → (u.completed mask tag ins c).isSome → (u.completed mask tag ins c').isSome →
    ∃ g, c < g ∧ g ≤ c' ∧ reads mask tag ins g = true

/-- A byte was completed in the first `n + 1` tocks, and there was neither a reset nor a
read since the latest one. -/
def Announced (n : ℕ) : Prop :=
  ∃ c ≤ n, (u.completed mask tag ins c).isSome ∧ ∀ m, c < m → m ≤ n →
    (ins m).reset = false ∧ u.completed mask tag ins m = none ∧ reads mask tag ins m = false

variable {mask tag u ins} {n : ℕ} {b : BitVec 8}

theorem states_succ (n : ℕ) :
    u.states mask tag ins (n + 1) = (u.states mask tag ins n).tock (ins n).dc mask tag
      (ins n).reset (ins n).serial (ins n).tla := rfl

/-! ## One tock -/

/-- A read is answered with what is in the buffer before the receiver ticks. -/
theorem dData_of_reads (h : reads mask tag ins n = true) :
    (u.states mask tag ins (n + 1)).getTld.dData =
      (u.states mask tag ins n).getDataBuf.setWidth 32 := by
  rw [reads, byteConsumed, Bool.and_eq_true, Bool.and_eq_true, beq_iff_eq, beq_iff_eq] at h
  obtain ⟨⟨hsel, hop⟩, hoff⟩ := h
  have htld : (u.states mask tag ins (n + 1)).getTld =
      (u.states mask tag ins n).tick (ins n).dc mask tag (ins n).tla := rfl
  rw [htld, tick, if_pos ⟨hsel, hop⟩, hoff]
  rfl

theorem completed_eq (hr : (ins n).reset = false) :
    u.completed mask tag ins n = (u.states mask tag ins n).rx.stored (ins n).serial :=
  if_neg (by rw [hr]; exact Bool.false_ne_true)

theorem rx_succ (hr : (ins n).reset = false) :
    (u.states mask tag ins (n + 1)).rx = (u.states mask tag ins n).rx.tick false (ins n).serial
      (reads mask tag ins n) := by
  rw [states_succ, hr]
  rfl

/-- A completed byte is in the mailbox, whether or not there is a read in the same tock. -/
theorem mailbox_of_completed (h : u.completed mask tag ins n = some b) :
    (u.states mask tag ins (n + 1)).getDataBuf = b ∧
      (u.states mask tag ins (n + 1)).getDataFlag = true := by
  cases hr : (ins n).reset with
  | true =>
    rw [completed, hr, if_pos rfl] at h
    cases h
  | false =>
    rw [completed_eq hr] at h
    obtain ⟨hbuf, hflag, -⟩ := UartRx.tick_of_stored _ (reads mask tag ins n) h
    rw [getDataBuf, getDataFlag, rx_succ hr]
    exact ⟨hbuf, hflag⟩

/-- Otherwise only a read changes it, and that takes the flag down. -/
theorem mailbox_of_completed_none (hr : (ins n).reset = false)
    (h : u.completed mask tag ins n = none) :
    (u.states mask tag ins (n + 1)).getDataBuf = (u.states mask tag ins n).getDataBuf ∧
      (u.states mask tag ins (n + 1)).getDataFlag =
        ((u.states mask tag ins n).getDataFlag && !reads mask tag ins n) := by
  rw [completed_eq hr] at h
  obtain ⟨hbuf, hflag, -⟩ := UartRx.tick_of_stored_none _ h
  rw [getDataBuf, getDataFlag, rx_succ hr]
  exact ⟨hbuf, hflag⟩

/-- A reset leaves the flag as it is. -/
theorem getDataFlag_of_reset (hr : (ins n).reset = true) :
    (u.states mask tag ins (n + 1)).getDataFlag = (u.states mask tag ins n).getDataFlag := by
  rw [states_succ, hr]
  rfl

theorem taken_of_reads (hg : reads mask tag ins n = true)
    (hf : (u.states mask tag ins n).getDataFlag = true) :
    u.taken mask tag ins n = some ((u.states mask tag ins n).getDataBuf.setWidth 32) := by
  rw [taken, if_pos ⟨hg, hf⟩, dData_of_reads hg]

theorem taken_of_not_flag (hf : (u.states mask tag ins n).getDataFlag = false) :
    u.taken mask tag ins n = none :=
  if_neg fun h ↦ Bool.false_ne_true (hf.symm.trans h.2)

theorem taken_of_not_reads (hg : reads mask tag ins n = false) : u.taken mask tag ins n = none :=
  if_neg fun h ↦ Bool.false_ne_true (hg.symm.trans h.1)

/-! ## The mailbox -/

/-- After `n` tocks all bytes have been taken, but for the one in the mailbox, which no
tock since its completion has read. -/
structure Kept (mask tag : BitVec 32) (u : UartRxTilelink) (ins : ℕ → RxTock) (n : ℕ) : Prop where
  bytes : emitted (u.taken mask tag ins) n ++ (u.states mask tag ins n).pending =
    (emitted (u.completed mask tag ins) n).map (BitVec.setWidth 32)
  buf : (u.states mask tag ins n).getDataBuf =
    (emitted (u.completed mask tag ins) n).getLast?.getD u.getDataBuf
  unread : (u.states mask tag ins n).getDataFlag = true →
    ∃ c < n, (u.completed mask tag ins c).isSome ∧
      ∀ m, c < m → m < n → reads mask tag ins m = false

/-- A byte is completed: the one before has been read by now. -/
theorem Kept.completed (h : Kept mask tag u ins n) (hs : u.Served mask tag ins)
    (hb : u.completed mask tag ins n = some b) : Kept mask tag u ins (n + 1) := by
  obtain ⟨hbuf, hflag⟩ := mailbox_of_completed hb
  have hsome : (u.completed mask tag ins n).isSome := by
    rw [hb]
    rfl
  have htaken : emitted (u.taken mask tag ins) (n + 1) =
      (emitted (u.completed mask tag ins) n).map (BitVec.setWidth 32) := by
    rw [← h.bytes, emitted_succ]
    congr 1
    cases hf : (u.states mask tag ins n).getDataFlag with
    | false =>
      rw [taken_of_not_flag hf, pending, hf, if_neg Bool.false_ne_true]
      rfl
    | true =>
      obtain ⟨c, hc, hcs, hquiet⟩ := h.unread hf
      obtain ⟨g, hcg, hgn, hg⟩ := hs c n hc hcs hsome
      obtain rfl : g = n := by
        by_contra hne
        have hlt : g < n := Nat.lt_of_le_of_ne hgn hne
        exact Bool.false_ne_true ((hquiet g hcg hlt).symm.trans hg)
      rw [taken_of_reads hg hf, pending, hf, if_pos rfl]
      rfl
  refine ⟨?_, ?_, fun _ ↦ ⟨n, Nat.lt_succ_self n, hsome, fun m hm hlt ↦ ?_⟩⟩
  · rw [htaken, pending, hflag, if_pos rfl, hbuf, emitted_succ_some hb, List.map_append]
    rfl
  · rw [hbuf, emitted_succ_some hb, List.getLast?_concat]
    rfl
  · omega

/-- No byte is completed: a read of the flagged byte takes it. -/
theorem Kept.quiet (h : Kept mask tag u ins n) (hr : (ins n).reset = false)
    (hn : u.completed mask tag ins n = none) : Kept mask tag u ins (n + 1) := by
  obtain ⟨hbuf, hflag⟩ := mailbox_of_completed_none hr hn
  refine ⟨?_, ?_, fun hf ↦ ?_⟩
  · rw [emitted_succ_none hn, ← h.bytes, emitted_succ, List.append_assoc]
    congr 1
    rw [pending, pending, hflag, hbuf]
    cases hf : (u.states mask tag ins n).getDataFlag with
    | false =>
      rw [taken_of_not_flag hf]
      rfl
    | true =>
      cases hg : reads mask tag ins n with
      | false =>
        rw [taken_of_not_reads hg]
        rfl
      | true =>
        rw [taken_of_reads hg hf]
        rfl
  · rw [hbuf, emitted_succ_none hn, h.buf]
  · rw [hflag, Bool.and_eq_true, Bool.not_eq_true'] at hf
    obtain ⟨c, hc, hcs, hquiet⟩ := h.unread hf.1
    refine ⟨c, Nat.lt_succ_of_lt hc, hcs, fun m hcm hm ↦ ?_⟩
    rcases Nat.lt_succ_iff_lt_or_eq.mp hm with hlt | rfl
    · exact hquiet m hcm hlt
    · exact hf.2

theorem kept_states (hr : ∀ n, (ins n).reset = false) (hf : u.getDataFlag = false)
    (hs : u.Served mask tag ins) (n : ℕ) : Kept mask tag u ins n := by
  induction n with
  | zero =>
    refine ⟨?_, rfl, fun h ↦ absurd (hf.symm.trans h) Bool.false_ne_true⟩
    have hpending : u.pending = [] := by
      rw [pending, hf]
      rfl
    exact hpending
  | succ n ih =>
    cases hn : u.completed mask tag ins n with
    | none => exact ih.quiet (hr n) hn
    | some b => exact ih.completed hs hn

/-- **The receive register is a one-deep mailbox**: the bytes that reads have taken are the
completed ones, each once and in order, but for the last one while it is pending; and a
read in the tock of a completion gets the byte before and leaves the new one flagged. -/
theorem mailbox (hr : ∀ n, (ins n).reset = false) (hf : u.getDataFlag = false)
    (hs : u.Served mask tag ins) (n : ℕ) :
    emitted (u.taken mask tag ins) n ++ (u.states mask tag ins n).pending =
        (emitted (u.completed mask tag ins) n).map (BitVec.setWidth 32) ∧
      ∀ b, u.completed mask tag ins n = some b → reads mask tag ins n = true →
        (u.states mask tag ins (n + 1)).getTld.dData =
            ((emitted (u.completed mask tag ins) n).getLast?.getD u.getDataBuf).setWidth 32 ∧
          (u.states mask tag ins (n + 1)).pending = [b.setWidth 32] := by
  have hkept := kept_states hr hf hs n
  refine ⟨hkept.bytes, fun b hb hg ↦ ⟨?_, ?_⟩⟩
  · rw [dData_of_reads hg, hkept.buf]
  · obtain ⟨hbuf, hflag⟩ := mailbox_of_completed hb
    rw [pending, hflag, if_pos rfl, hbuf]

/-- A receiver at one clock per bit, between bytes. -/
def listener : UartRxTilelink :=
  ⟨⟨0#16, 0#16, 9#4, 0#8, 0#8, false, 0#32⟩, idleTld (DontCare.const 0#32)⟩

/-- The data register is read all the time, and the letter A is on the line. -/
def listening (n : ℕ) : RxTock where
  dc := DontCare.const 0#32
  reset := false
  serial := (0x282#10).getLsbD n
  tla := ⟨TL.get, 0#3, 2#3, false, 0xB0010004#32, 0xF#4, 0#32, true, true⟩

theorem mailbox_listening :
    emitted (listener.taken 0xFFFF0000#32 0xB0010000#32 listening) 10 ++
        (listener.states 0xFFFF0000#32 0xB0010000#32 listening 10).pending = [0x41#32] := by
  have hread : byteConsumed 0xFFFF0000#32 0xB0010000#32 (listening 0).tla = true := by decide
  have hs : listener.Served 0xFFFF0000#32 0xB0010000#32 listening :=
    fun c c' hlt _ _ ↦ ⟨c + 1, Nat.lt_succ_self c, hlt, hread⟩
  exact (mailbox (fun _ ↦ rfl) rfl hs 10).1.trans (by decide)

/-! ## Resets -/

theorem not_announced_of_reset (hr : (ins n).reset = true) : ¬u.Announced mask tag ins n := by
  rintro ⟨c, hc, hsome, hquiet⟩
  rcases Nat.lt_or_eq_of_le hc with hlt | rfl
  · exact absurd ((hquiet n hlt (Nat.le_refl n)).1.symm.trans hr) Bool.false_ne_true
  · rw [completed, hr, if_pos rfl] at hsome
    exact Bool.false_ne_true hsome

theorem announced_of_completed (hb : (u.completed mask tag ins n).isSome) :
    u.Announced mask tag ins n :=
  ⟨n, Nat.le_refl n, hb, fun _ hm hle ↦ absurd hle (Nat.not_le_of_lt hm)⟩

/-- In a tock without completion, what was announced before still is if it is not read. -/
theorem announced_succ_iff (hr : (ins (n + 1)).reset = false)
    (hn : u.completed mask tag ins (n + 1) = none) :
    u.Announced mask tag ins (n + 1) ↔
      u.Announced mask tag ins n ∧ reads mask tag ins (n + 1) = false := by
  constructor
  · rintro ⟨c, hc, hsome, hquiet⟩
    rcases Nat.lt_or_eq_of_le hc with hlt | rfl
    · refine ⟨⟨c, Nat.le_of_lt_succ hlt, hsome, fun m hm hle ↦ ?_⟩, ?_⟩
      · exact hquiet m hm (Nat.le_succ_of_le hle)
      · exact (hquiet (n + 1) hlt (Nat.le_refl _)).2.2
    · rw [hn] at hsome
      exact absurd hsome Bool.false_ne_true
  · rintro ⟨⟨c, hc, hsome, hquiet⟩, hg⟩
    refine ⟨c, Nat.le_succ_of_le hc, hsome, fun m hm hle ↦ ?_⟩
    rcases Nat.lt_or_eq_of_le hle with hlt | rfl
    · exact hquiet m hm (Nat.le_of_lt_succ hlt)
    · exact ⟨hr, hn, hg⟩

/-- A tock in which the flag is down before a reset keeps flag and announcement together. -/
theorem flag_iff_announced_succ
    (hreset : (ins (n + 1)).reset = true → (u.states mask tag ins (n + 1)).getDataFlag = false)
    (h : (u.states mask tag ins (n + 1)).getDataFlag = true ↔ u.Announced mask tag ins n) :
    (u.states mask tag ins (n + 2)).getDataFlag = true ↔ u.Announced mask tag ins (n + 1) := by
  cases hr : (ins (n + 1)).reset with
  | true =>
    rw [getDataFlag_of_reset hr, hreset hr]
    exact iff_of_false Bool.false_ne_true (not_announced_of_reset hr)
  | false =>
    cases hn : u.completed mask tag ins (n + 1) with
    | some b =>
      have hsome : (u.completed mask tag ins (n + 1)).isSome := by
        rw [hn]
        rfl
      exact iff_of_true (mailbox_of_completed hn).2 (announced_of_completed hsome)
    | none =>
      rw [announced_succ_iff hr hn, (mailbox_of_completed_none hr hn).2, Bool.and_eq_true,
        Bool.not_eq_true', h]

/-- **The flag announces a byte since the last reset**, in every tock of a run that starts
with a reset, exactly as long as the flag is down before every reset. -/
theorem flag_announces_iff (h0 : (ins 0).reset = true) (n : ℕ) :
    (∀ m ≤ n, ((u.states mask tag ins (m + 1)).getDataFlag = true ↔ u.Announced mask tag ins m)) ↔
      ∀ m ≤ n, (ins m).reset = true → (u.states mask tag ins m).getDataFlag = false := by
  constructor
  · intro h m hm hr
    rw [← getDataFlag_of_reset hr, ← Bool.not_eq_true, h m hm]
    exact not_announced_of_reset hr
  · intro h m
    induction m with
    | zero =>
      intro hm
      rw [getDataFlag_of_reset h0, h 0 hm h0]
      exact iff_of_false Bool.false_ne_true (not_announced_of_reset h0)
    | succ m ih =>
      intro hm
      exact flag_iff_announced_succ (h (m + 1) hm) (ih (Nat.le_of_succ_le hm))

/-- A reset with the flag down, and then silence. -/
def silent (n : ℕ) : RxTock where
  dc := DontCare.const 0#32
  reset := n == 0
  serial := true
  tla := ⟨TL.invalid, 0#3, 0#3, false, 0#32, 0#4, 0#32, false, true⟩

theorem flag_announces_silent :
    (listener.states 0xFFFF0000#32 0xB0010000#32 silent 4).getDataFlag = true ↔
      listener.Announced 0xFFFF0000#32 0xB0010000#32 silent 3 := by
  refine (flag_announces_iff rfl 3).mpr (fun m hm hr ↦ ?_) 3 (Nat.le_refl 3)
  obtain rfl : m = 0 := beq_iff_eq.mp hr
  rfl

/-- A byte is completed, and not read before the reset: the flag is still up after it. -/
theorem stale_flag_announces :
    let u : UartRxTilelink := { listener with rx := { listener.rx with dataFlag := true } }
    (silent 0).reset = true ∧
      (u.states 0xFFFF0000#32 0xB0010000#32 silent 1).getDataFlag = true ∧
      ¬u.Announced 0xFFFF0000#32 0xB0010000#32 silent 0 := by
  intro u
  refine ⟨rfl, rfl, ?_⟩
  rintro ⟨c, hc, hsome, -⟩
  obtain rfl := Nat.le_zero.mp hc
  exact Bool.false_ne_true hsome

end UartRxTilelink

end Pinwheel
