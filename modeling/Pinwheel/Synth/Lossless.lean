import Mathlib.Data.BitVec
import Pinwheel.Lib.Transit
import Pinwheel.Synth.SimpleUart
import Pinwheel.Uart.Loopback

/-!
# The simple UART loses nothing

In every clock the counters that the receiver is about to store are the ones that the
transmitter has.  So the receiver takes its samples where the transmitter is in the
middle of a bit, and the two ends together are a delay line.
-/

namespace Pinwheel

open Clocked SimpleUart

variable {clocksPerBit : BitVec 8} {i : SimpleIn} {b : BitVec 8} {c d m : ℕ}

namespace SimpleUart

theorem toNat_delayMid : (delayMid clocksPerBit).toNat = clocksPerBit.toNat / 2 :=
  BitVec.toNat_udiv

theorem toNat_pos (h : clocksPerBit ≠ 0#8) : 0 < clocksPerBit.toNat :=
  Nat.pos_of_ne_zero fun h0 ↦ h (BitVec.eq_of_toNat_eq h0)

theorem toNat_delayMax (h : clocksPerBit ≠ 0#8) :
    (delayMax clocksPerBit).toNat = clocksPerBit.toNat - 1 :=
  BitVec.toNat_sub_of_le (BitVec.le_def.mpr (toNat_pos h))

end SimpleUart

/-! ## The transmitter -/

namespace SimpleTx

/-- The transmitter is in clock `d` of bit `c` of the frame of `b`. -/
structure At (t : SimpleTx) (c d : ℕ) (b : BitVec 8) : Prop where
  count : t.count.toNat = c
  delay : t.delay.toNat = d
  shift : ∀ k ≤ 9, t.shift.getLsbD k = frameBit b (c + k)

variable {t : SimpleTx} {data : BitVec 8} {valid : Bool}

theorem next_wait (h : t.delay ≠ delayMax clocksPerBit) :
    t.next clocksPerBit false data valid = { t with delay := t.delay + 1#8 } := if_pos h

theorem next_shift (hd : t.delay = delayMax clocksPerBit) (hc : t.count < countMax) :
    t.next clocksPerBit false data valid =
      ⟨0#8, t.count + 1#8, 1#1 ++ t.shift.extractLsb' 1 9⟩ :=
  (if_neg (not_not.mpr hd)).trans (if_pos hc)

theorem ready_iff : t.ready clocksPerBit = true ↔
    t.delay = delayMax clocksPerBit ∧ ¬t.count < countMax := by
  rw [ready, Bool.and_eq_true, beq_iff_eq, Bool.not_eq_true', decide_eq_false_iff_not]

theorem next_ready (h : t.ready clocksPerBit = true) :
    t.next clocksPerBit false data valid =
      if valid then ⟨0#8, 0#8, 1#1 ++ data ++ 0#1⟩ else t := by
  obtain ⟨hd, hc⟩ := ready_iff.mp h
  exact (if_neg (not_not.mpr hd)).trans (if_neg hc)

theorem At.out (h : t.At c d b) : t.out = frameBit b c := h.shift 0 (Nat.zero_le 9)

theorem At.ready_iff (h : t.At c d b) :
    t.ready clocksPerBit = true ↔ d = (delayMax clocksPerBit).toNat ∧ 9 ≤ c := by
  have hcount : countMax.toNat = 9 := rfl
  rw [SimpleTx.ready_iff, ← BitVec.toNat_inj, BitVec.lt_def, h.delay, h.count, hcount, Nat.not_lt]

/-- Within a bit the transmitter only counts. -/
theorem At.wait (h : t.At c d b) (hd : d < (delayMax clocksPerBit).toNat) :
    (t.next clocksPerBit false data valid).At c (d + 1) b := by
  have hne : t.delay ≠ delayMax clocksPerBit := by
    intro heq
    rw [← h.delay, heq] at hd
    exact Nat.lt_irrefl _ hd
  have hlt := (delayMax clocksPerBit).isLt
  rw [next_wait hne]
  refine ⟨h.count, ?_, h.shift⟩
  simp only [BitVec.toNat_add, BitVec.toNat_ofNat, h.delay]
  omega

/-- At the end of a bit the next one is shifted out. -/
theorem At.next (h : t.At c d b) (hd : d = (delayMax clocksPerBit).toNat) (hc : c < 9) :
    (t.next clocksPerBit false data valid).At (c + 1) 0 b := by
  have heq : t.delay = delayMax clocksPerBit := BitVec.eq_of_toNat_eq (h.delay.trans hd)
  have hlt : t.count < countMax := by
    rw [BitVec.lt_def, h.count]
    exact hc
  rw [next_shift heq hlt]
  refine ⟨?_, rfl, fun k hk ↦ ?_⟩
  · simp only [BitVec.toNat_add, BitVec.toNat_ofNat, h.count]
    omega
  · rw [BitVec.getLsbD_append]
    rcases Nat.lt_or_ge k 9 with h9 | h9
    · rw [if_pos h9, BitVec.getLsbD_extractLsb', decide_eq_true h9, Bool.true_and,
        h.shift (1 + k) (by omega), Nat.add_assoc]
    · obtain rfl : k = 9 := Nat.le_antisymm hk h9
      have hstop : frameBit b (c + 1 + 9) = true := by simp [frameBit]
      rw [hstop]
      rfl

/-- A byte that is taken starts a frame. -/
theorem At.load (h : t.ready clocksPerBit = true) :
    (t.next clocksPerBit false b true).At 0 0 b := by
  rw [next_ready h, if_pos rfl]
  refine ⟨rfl, rfl, fun k hk ↦ ?_⟩
  rw [BitVec.getLsbD_append, BitVec.getLsbD_append, Nat.zero_add]
  rcases Nat.eq_zero_or_pos k with rfl | hpos
  · rfl
  · rw [if_neg (Nat.not_lt.mpr hpos), frameBit, if_neg (Nat.pos_iff_ne_zero.mp hpos)]
    rcases Nat.lt_or_ge k 9 with h9 | h9
    · rw [if_pos (by omega), if_pos (by omega)]
    · obtain rfl : k = 9 := Nat.le_antisymm hk h9
      rfl

end SimpleTx

/-! ## The receiver -/

namespace SimpleRx

/-- After `m` data bits the first of them are at the top of the shift register. -/
def Sampled (r : SimpleRx) (m : ℕ) (b : BitVec 8) : Prop :=
  m ≤ 8 → ∀ k < m, r.shift.getLsbD (8 - m + k) = b.getLsbD k

variable {r : SimpleRx} {input : Bool}

/-- Within a bit the receiver only counts. -/
theorem counters_wait (hd : r.delay ≠ delayMax clocksPerBit) (input : Bool) :
    r.delayNext clocksPerBit input = r.delay + 1#8 ∧ r.countNext clocksPerBit input = r.count :=
  ⟨if_pos hd, if_pos hd⟩

/-- At the end of a bit it goes on to the next one. -/
theorem counters_bit (hd : r.delay = delayMax clocksPerBit) (hc : r.count < countMax)
    (input : Bool) :
    r.delayNext clocksPerBit input = 0#8 ∧ r.countNext clocksPerBit input = r.count + 1#8 :=
  ⟨(if_neg (not_not.mpr hd)).trans (if_pos hc), (if_neg (not_not.mpr hd)).trans (if_pos hc)⟩

/-- Between bytes a low line starts a frame. -/
theorem counters_between (hd : r.delay = delayMax clocksPerBit) (hc : ¬r.count < countMax)
    (input : Bool) :
    r.delayNext clocksPerBit input = (if input = false then 0#8 else r.delay) ∧
      r.countNext clocksPerBit input = if input = false then 0#8 else r.count :=
  ⟨(if_neg (not_not.mpr hd)).trans (if_neg hc), (if_neg (not_not.mpr hd)).trans (if_neg hc)⟩

theorem Sampled.zero : r.Sampled 0 b := fun _ k hk ↦ absurd hk (Nat.not_lt_zero k)

/-- A sample of a data bit. -/
theorem Sampled.sample (h : r.Sampled m b) {r' : SimpleRx}
    (hr : r'.shift = BitVec.ofBool (frameBit b (m + 1)) ++ r.shift.extractLsb' 1 7) :
    r'.Sampled (m + 1) b := by
  intro hm k hk
  rw [hr, BitVec.getLsbD_append]
  rcases Nat.lt_or_eq_of_le (Nat.le_of_lt_succ hk) with hlt | rfl
  · have hbit := h (Nat.le_of_succ_le hm) k hlt
    have h7 : 8 - (m + 1) + k < 7 := by omega
    rw [if_pos h7, BitVec.getLsbD_extractLsb', decide_eq_true h7, Bool.true_and, ← hbit]
    congr 1
    omega
  · have h7 : 8 - (k + 1) + k = 7 := by omega
    rw [h7, if_neg (Nat.lt_irrefl 7), Nat.sub_self, frameBit, if_neg (Nat.succ_ne_zero k),
      if_pos hm, Nat.add_sub_cancel, BitVec.getLsbD_ofBool, decide_eq_true rfl, Bool.true_and]

theorem Sampled.all (h : r.Sampled 8 b) : r.shift = b :=
  BitVec.eq_of_getLsbD_eq fun k hk ↦ by
    have hbit := h (Nat.le_refl 8) k hk
    rwa [Nat.sub_self, Nat.zero_add] at hbit

end SimpleRx

/-! ## The link -/

/-- How many data bits the receiver has sampled before clock `d` of bit `c`. -/
def SimpleUart.samples (clocksPerBit : BitVec 8) (c d : ℕ) : ℕ :=
  if (delayMid clocksPerBit).toNat < d then c else c - 1

namespace SimpleLink

variable {l : SimpleLink}

/-- The receiver is about to store the counters of the transmitter. -/
structure Follows (clocksPerBit : BitVec 8) (l : SimpleLink) : Prop where
  delay : l.rx.delayNext clocksPerBit l.tx.out = l.tx.delay
  count : l.rx.countNext clocksPerBit l.tx.out = l.tx.count

/-- The line is high, and a byte may be taken. -/
structure Free (clocksPerBit : BitVec 8) (l : SimpleLink) : Prop where
  ready : l.tx.ready clocksPerBit = true
  high : l.tx.out = true
  follows : l.Follows clocksPerBit

/-- Clock `d` of bit `c` of the frame of `b` is on the line. -/
structure InFrame (clocksPerBit : BitVec 8) (l : SimpleLink) (c d : ℕ) (b : BitVec 8) : Prop where
  tx : l.tx.At c d b
  rx : l.rx.Sampled (samples clocksPerBit c d) b
  follows : l.Follows clocksPerBit

/-- **The receiver goes on following**, as long as the line is high between frames. -/
theorem Follows.tick (h : l.Follows clocksPerBit)
    (hhigh : l.tx.ready clocksPerBit = true → l.tx.out = true) :
    (l.tick clocksPerBit false i).Follows clocksPerBit := by
  have hdelay : (l.tick clocksPerBit false i).rx.delay = l.tx.delay := h.delay
  have hcount : (l.tick clocksPerBit false i).rx.count = l.tx.count := h.count
  have htx : (l.tick clocksPerBit false i).tx = l.tx.next clocksPerBit false i.data i.valid := rfl
  by_cases hd : l.tx.delay = delayMax clocksPerBit
  · by_cases hc : l.tx.count < countMax
    · have hrx := SimpleRx.counters_bit (hdelay.trans hd) (hcount.symm ▸ hc)
      rw [hcount] at hrx
      rw [SimpleTx.next_shift hd hc] at htx
      refine ⟨(hrx _).1.trans ?_, (hrx _).2.trans ?_⟩ <;> rw [htx]
    · have hrx := SimpleRx.counters_between (hdelay.trans hd) (hcount.symm ▸ hc)
      rw [hdelay, hcount] at hrx
      have hready := SimpleTx.ready_iff.mpr ⟨hd, hc⟩
      rw [SimpleTx.next_ready hready] at htx
      -- The line is low in the next clock if a byte was taken.
      cases hvalid : i.valid with
      | true =>
        rw [hvalid, if_pos rfl] at htx
        have hlow : (l.tick clocksPerBit false i).tx.out = false := by
          rw [htx, SimpleTx.out, BitVec.getLsbD_append]
          rfl
        refine ⟨(hrx _).1.trans ?_, (hrx _).2.trans ?_⟩ <;> rw [if_pos hlow, htx]
      | false =>
        rw [hvalid, if_neg Bool.false_ne_true] at htx
        have hlow : ¬(l.tick clocksPerBit false i).tx.out = false := by
          rw [htx, hhigh hready]
          exact Bool.true_eq_false.mp
        refine ⟨(hrx _).1.trans ?_, (hrx _).2.trans ?_⟩ <;> rw [if_neg hlow, htx]
  · have hrx := SimpleRx.counters_wait (hdelay ▸ hd)
    rw [hdelay, hcount] at hrx
    rw [SimpleTx.next_wait hd] at htx
    refine ⟨(hrx _).1.trans ?_, (hrx _).2.trans ?_⟩ <;> rw [htx]

theorem Follows.shift_tick (h : l.Follows clocksPerBit) :
    (l.tick clocksPerBit false i).rx.shift =
      if l.tx.delay = delayMid clocksPerBit then
        BitVec.ofBool l.tx.out ++ l.rx.shift.extractLsb' 1 7
      else l.rx.shift := by
  have htick : (l.tick clocksPerBit false i).rx.shift =
      l.rx.shiftNext clocksPerBit l.tx.out := rfl
  rw [htick, SimpleRx.shiftNext, h.delay]

/-- The sample of bit `c` is taken in the middle of the bit. -/
theorem InFrame.sampled (h : l.InFrame clocksPerBit c d b) :
    (l.tick clocksPerBit false i).rx.Sampled
      (if (delayMid clocksPerBit).toNat ≤ d then c else c - 1) b := by
  have hshift := h.follows.shift_tick (i := i)
  have hrx := h.rx
  rw [h.tx.out] at hshift
  rw [samples] at hrx
  by_cases hmid : d = (delayMid clocksPerBit).toNat
  · subst hmid
    have hdelay : l.tx.delay = delayMid clocksPerBit := BitVec.eq_of_toNat_eq h.tx.delay
    rw [if_pos hdelay] at hshift
    rw [if_neg (Nat.lt_irrefl _)] at hrx
    rw [if_pos (Nat.le_refl _)]
    cases c with
    | zero => exact SimpleRx.Sampled.zero
    | succ c => exact hrx.sample hshift
  · have hdelay : l.tx.delay ≠ delayMid clocksPerBit := by
      intro heq
      rw [← heq, h.tx.delay] at hmid
      exact hmid rfl
    rw [if_neg hdelay] at hshift
    have hcond : (delayMid clocksPerBit).toNat < d ↔ (delayMid clocksPerBit).toNat ≤ d :=
      ⟨Nat.le_of_lt, fun hle ↦ Nat.lt_of_le_of_ne hle (Ne.symm hmid)⟩
    rw [if_congr hcond rfl rfl] at hrx
    intro hm k hk
    rw [hshift]
    exact hrx hm k hk

/-- Within a bit. -/
theorem InFrame.wait (h : l.InFrame clocksPerBit c d b)
    (hd : d < (delayMax clocksPerBit).toNat) :
    (l.tick clocksPerBit false i).InFrame clocksPerBit c (d + 1) b where
  tx := h.tx.wait hd
  rx := by
    rw [samples, if_congr Nat.lt_succ_iff rfl rfl]
    exact h.sampled
  follows := h.follows.tick fun hready ↦
    absurd (h.tx.ready_iff.mp hready).1 (Nat.ne_of_lt hd)

/-- From one bit to the next. -/
theorem InFrame.next (h : l.InFrame clocksPerBit c d b) (hcpb : clocksPerBit ≠ 0#8)
    (hd : d = (delayMax clocksPerBit).toNat) (hc : c < 9) :
    (l.tick clocksPerBit false i).InFrame clocksPerBit (c + 1) 0 b where
  tx := h.tx.next hd hc
  rx := by
    have hpos := toNat_pos hcpb
    have hmid : (delayMid clocksPerBit).toNat ≤ d := by
      rw [hd, toNat_delayMid, toNat_delayMax hcpb]
      omega
    have hsampled := h.sampled (i := i)
    rw [if_pos hmid] at hsampled
    rwa [samples, if_neg (Nat.not_lt_zero _), Nat.add_sub_cancel]
  follows := h.follows.tick fun hready ↦
    absurd (h.tx.ready_iff.mp hready).2 (Nat.not_le.mpr hc)

/-- In the last clock of the stop bit the next byte may be taken. -/
theorem InFrame.free (h : l.InFrame clocksPerBit 9 d b)
    (hd : d = (delayMax clocksPerBit).toNat) : l.Free clocksPerBit where
  ready := h.tx.ready_iff.mpr ⟨hd, Nat.le_refl 9⟩
  high := h.tx.out
  follows := h.follows

theorem Follows.presented (h : l.Follows clocksPerBit) (i : SimpleIn) :
    l.presented clocksPerBit false =
      if l.tx.count = 8#8 ∧ l.tx.delay = delayMid clocksPerBit then
        some (l.tick clocksPerBit false i).rx.shift
      else none := by
  have hvalid : l.rx.outValid clocksPerBit false l.tx.out = true ↔
      l.tx.count = 8#8 ∧ l.tx.delay = delayMid clocksPerBit := by
    rw [SimpleRx.outValid, h.delay, h.count, Bool.not_false, Bool.true_and, Bool.and_eq_true,
      beq_iff_eq, beq_iff_eq, and_comm]
    rfl
  rw [SimpleLink.presented, SimpleRx.out]
  by_cases hv : l.rx.outValid clocksPerBit false l.tx.out = true
  · rw [if_pos hv, if_pos hv, if_pos (hvalid.mp hv)]
    rfl
  · rw [if_neg hv, if_neg fun hc ↦ hv (hvalid.mpr hc)]

/-- The byte of a frame is presented with its last data bit. -/
theorem InFrame.presented (h : l.InFrame clocksPerBit c d b) :
    l.presented clocksPerBit false =
      if c = 8 ∧ d = (delayMid clocksPerBit).toNat then some b else none := by
  have hcount : l.tx.count = 8#8 ↔ c = 8 := by
    rw [← BitVec.toNat_inj, h.tx.count]
    rfl
  have hdelay : l.tx.delay = delayMid clocksPerBit ↔ d = (delayMid clocksPerBit).toNat := by
    rw [← BitVec.toNat_inj, h.tx.delay]
  have hsampled := h.sampled (i := ⟨0#8, false⟩)
  rw [h.follows.presented ⟨0#8, false⟩]
  refine if_ctx_congr (and_congr hcount hdelay) (fun hcd ↦ ?_) fun _ ↦ rfl
  obtain ⟨rfl, rfl⟩ := hcd
  rw [if_pos (Nat.le_refl _)] at hsampled
  rw [hsampled.all]

theorem Free.presented (h : l.Free clocksPerBit) : l.presented clocksPerBit false = none := by
  have hcount : l.tx.count ≠ 8#8 := by
    intro h8
    have hlast := (SimpleTx.ready_iff.mp h.ready).2
    rw [h8] at hlast
    exact hlast (by decide)
  rw [h.follows.presented ⟨0#8, false⟩, if_neg fun hc ↦ hcount hc.1]

theorem accepted_of_ready (h : l.tx.ready clocksPerBit = true) :
    l.accepted clocksPerBit false i = if i.valid then some i.data else none := by
  rw [accepted, SimpleTx.inReady, h]
  exact if_congr (and_iff_left rfl) rfl rfl

theorem accepted_of_not_ready (h : ¬l.tx.ready clocksPerBit = true) :
    l.accepted clocksPerBit false i = none := by
  refine if_neg fun hready ↦ h ?_
  exact ((Bool.and_eq_true _ _).mp hready.2).2

/-- The line stays high until a byte is taken. -/
theorem Free.stay (h : l.Free clocksPerBit) (hi : l.accepted clocksPerBit false i = none) :
    (l.tick clocksPerBit false i).Free clocksPerBit := by
  have hvalid : ¬i.valid = true := by
    intro hv
    rw [accepted_of_ready h.ready, if_pos hv] at hi
    contradiction
  have htx : (l.tick clocksPerBit false i).tx = l.tx :=
    (SimpleTx.next_ready h.ready).trans (if_neg hvalid)
  refine ⟨?_, ?_, h.follows.tick fun _ ↦ h.high⟩
  · rw [htx, h.ready]
  · rw [htx, h.high]

/-- The byte that is taken is on the line from the next clock on. -/
theorem Free.take (h : l.Free clocksPerBit) (hi : l.accepted clocksPerBit false i = some b) :
    (l.tick clocksPerBit false i).InFrame clocksPerBit 0 0 b := by
  rw [accepted_of_ready h.ready] at hi
  obtain ⟨hvalid, hdata⟩ := Option.ite_none_right_eq_some.mp hi
  obtain rfl := Option.some.inj hdata
  have htx : (l.tick clocksPerBit false i).tx.At 0 0 i.data := by
    have hload := SimpleTx.At.load (b := i.data) h.ready
    rwa [← hvalid] at hload
  refine ⟨htx, ?_, h.follows.tick fun _ ↦ h.high⟩
  rw [samples, if_neg (Nat.not_lt_zero _)]
  exact SimpleRx.Sampled.zero

/-- A reset leaves the line high. -/
theorem free_reset (clocksPerBit : BitVec 8) (l : SimpleLink) (i : SimpleIn) :
    (l.tick clocksPerBit true i).Free clocksPerBit := by
  have htx : (l.tick clocksPerBit true i).tx =
      ⟨delayMax clocksPerBit, countMax, 0b1111111111#10⟩ := rfl
  have hhigh : (l.tick clocksPerBit true i).tx.out = true := by
    rw [htx]
    exact (by decide : (0b1111111111#10).getLsbD 0 = true)
  have hdelay : (l.tick clocksPerBit true i).rx.delay = delayMax clocksPerBit := rfl
  have hcount : ¬(l.tick clocksPerBit true i).rx.count < countMax := by
    exact BitVec.lt_irrefl _
  have hrx := SimpleRx.counters_between hdelay hcount
  refine ⟨SimpleTx.ready_iff.mpr ⟨rfl, hcount⟩, hhigh, (hrx _).1.trans ?_, (hrx _).2.trans ?_⟩
  · rw [hhigh, if_neg nofun, hdelay, htx]
  · rw [hhigh, if_neg nofun, htx]
    rfl

end SimpleLink

/-! ## Runs -/

namespace SimpleLink

variable (clocksPerBit : BitVec 8) (l : SimpleLink) (i₀ : SimpleIn) (inputs : ℕ → SimpleIn)

/-- The link after a reset and `n` clocks of what a producer offers. -/
def states (n : ℕ) : SimpleLink :=
  run (tick clocksPerBit false) inputs (l.tick clocksPerBit true i₀) n

/-- The byte that is taken in clock `n`. -/
def accepts (n : ℕ) : Option (BitVec 8) :=
  (states clocksPerBit l i₀ inputs n).accepted clocksPerBit false (inputs n)

/-- The byte that is presented in clock `n`. -/
def presents (n : ℕ) : Option (BitVec 8) :=
  (states clocksPerBit l i₀ inputs n).presented clocksPerBit false

/-- The clock of a frame in which its byte is presented. -/
def middle : ℕ := 8 * clocksPerBit.toNat + clocksPerBit.toNat / 2

/-- Clocks from the acceptance of a byte to its presentation. -/
def latency : ℕ := middle clocksPerBit + 1

variable {clocksPerBit l i₀ inputs}

/-- Every clock but the last of a frame is followed by one of the same frame, and in the
last one the link is free. -/
theorem InFrame.done (h : l.InFrame clocksPerBit c d b) (hcpb : clocksPerBit ≠ 0#8) (hc : c < 10)
    (hd : d < clocksPerBit.toNat)
    (he : c * clocksPerBit.toNat + d + 1 = 10 * clocksPerBit.toNat - 1) :
    (l.tick clocksPerBit false i).Free clocksPerBit := by
  have hpos := toNat_pos hcpb
  have hmax := toNat_delayMax hcpb
  have hlast : clocksPerBit.toNat - 1 < clocksPerBit.toNat := Nat.sub_lt hpos Nat.one_pos
  rcases Nat.lt_or_ge (d + 1) clocksPerBit.toNat with hlt | hge
  · have heq : c * clocksPerBit.toNat + (d + 1) =
        9 * clocksPerBit.toNat + (clocksPerBit.toNat - 1) := by omega
    obtain ⟨rfl, hd'⟩ := (Frames.clock_eq_iff hlt hlast).mp heq
    exact (h.wait (by omega)).free (hd'.trans hmax.symm)
  · have heq : (c + 1) * clocksPerBit.toNat + 0 =
        9 * clocksPerBit.toNat + (clocksPerBit.toNat - 1) := by
      rw [Nat.succ_mul]
      omega
    obtain ⟨hc', hd'⟩ := (Frames.clock_eq_iff hpos hlast).mp heq
    obtain rfl := Nat.succ.inj hc'
    exact (h.next hcpb (by omega) (Nat.lt_succ_self 8)).free (hd'.trans hmax.symm)

theorem InFrame.closed (h : l.InFrame clocksPerBit c d b) (hcpb : clocksPerBit ≠ 0#8) (hc : c < 10)
    (he : c * clocksPerBit.toNat + d < 10 * clocksPerBit.toNat - 1) :
    l.accepted clocksPerBit false i = none := by
  refine accepted_of_not_ready fun hready ↦ ?_
  obtain ⟨hd', hc'⟩ := h.tx.ready_iff.mp hready
  obtain rfl := Nat.le_antisymm (Nat.le_of_lt_succ hc) hc'
  rw [toNat_delayMax hcpb] at hd'
  omega

/-- **The link sends frames.**  In the last clock of a frame it is free again. -/
theorem frames (h : clocksPerBit ≠ 0#8) :
    Frames clocksPerBit.toNat 10 (10 * clocksPerBit.toNat - 1) 8 (clocksPerBit.toNat / 2)
      (accepts clocksPerBit l i₀ inputs) (presents clocksPerBit l i₀ inputs)
      (fun n ↦ (states clocksPerBit l i₀ inputs n).Free clocksPerBit)
      (fun n c d ↦ (states clocksPerBit l i₀ inputs n).InFrame clocksPerBit c d) where
  period_pos := toNat_pos h
  len_le := Nat.sub_le _ _
  outClock_lt := Nat.div_lt_self (toNat_pos h) Nat.one_lt_two
  out_lt := by
    have := toNat_pos h
    omega
  start := free_reset clocksPerBit l i₀
  stay hfree htake := hfree.stay htake
  take hfree htake := hfree.take htake
  wait hin _ hd := hin.wait (by rw [toNat_delayMax h]; omega)
  next hin hc hd := hin.next h (by rw [toNat_delayMax h]; omega) (Nat.lt_of_succ_lt_succ hc)
  done hin hc hd he := hin.done h hc hd he
  silent hfree := hfree.presented
  give hin _ _ := by rw [presents, hin.presented, toNat_delayMid]
  closed hin hc _ he := hin.closed h hc he

/-- **The simple UART is lossless.**  What was presented up to any time is what was
accepted up to `latency` clocks before, in the same order, and each byte is presented in
one clock. -/
theorem lossless (h : clocksPerBit ≠ 0#8) (l : SimpleLink) (i₀ : SimpleIn) (inputs : ℕ → SimpleIn)
    (n : ℕ) :
    emitted (presents clocksPerBit l i₀ inputs) n =
        emitted (accepts clocksPerBit l i₀ inputs) (n - latency clocksPerBit) ∧
      presents clocksPerBit l i₀ inputs (n + latency clocksPerBit) =
        accepts clocksPerBit l i₀ inputs n ∧
      (n < latency clocksPerBit → presents clocksPerBit l i₀ inputs n = none) :=
  have htransit := (@frames clocksPerBit l i₀ inputs h).transit
  ⟨htransit.emitted_eq n, htransit.gives_add n, htransit.gives_eq_none⟩

/-- A link whose registers hold anything, before the reset. -/
def unreset : SimpleLink := ⟨⟨7#8, 3#8, 0x155#10⟩, ⟨9#8, 5#8, 0xFF#8⟩⟩

/-- A producer that always offers the letter A. -/
def offerA (_ : ℕ) : SimpleIn := ⟨0x41#8, true⟩

theorem lossless_unreset :
    emitted (presents 1#8 unreset (offerA 0) offerA) 10 = [0x41#8] :=
  (lossless (by decide) unreset (offerA 0) offerA 10).1.trans rfl

end SimpleLink

end Pinwheel
