import Pinwheel.Lib.Run

/-!
# Values in transit

A machine that takes a value, is busy with it for a fixed number of clocks and gives it
away in one of them.  While it is busy it takes nothing, so there is at most one value in
transit.  `Transit` collects what one clock has to keep; over a run the machine is then a
delay line.  `Frames` is the case of a machine that sends its value as a frame of bits.
-/

namespace Clocked

universe u

variable {α : Type u}

/-- The machine takes the values `takes` and gives the values `gives`.  It is free in the
clocks where `Free` holds, and in clock `e` of its work on `a` where `Busy` says so; the
work takes `len` clocks and the value is given away in clock `out` of them. -/
structure Transit (len out : ℕ) (takes gives : ℕ → Option α) (Free : ℕ → Prop)
    (Busy : ℕ → ℕ → α → Prop) : Prop where
  out_lt : out < len
  start : Free 0
  stay {n : ℕ} : Free n → takes n = none → Free (n + 1)
  take {n : ℕ} {a : α} : Free n → takes n = some a → Busy (n + 1) 0 a
  work {n e : ℕ} {a : α} : Busy n e a → e + 1 < len → Busy (n + 1) (e + 1) a
  done {n e : ℕ} {a : α} : Busy n e a → e + 1 = len → Free (n + 1)
  silent {n : ℕ} : Free n → gives n = none
  give {n e : ℕ} {a : α} : Busy n e a → e < len → gives n = if e = out then some a else none
  closed {n e : ℕ} {a : α} : Busy n e a → e < len → takes n = none

namespace Transit

variable {len out : ℕ} {takes gives : ℕ → Option α} {Free : ℕ → Prop} {Busy : ℕ → ℕ → α → Prop}
  {n k e : ℕ} {a : α}

/-- At any time the machine is free or busy with a value that it took. -/
theorem free_or_busy (h : Transit len out takes gives Free Busy) (n : ℕ) :
    Free n ∨ ∃ k e a, n = k + 1 + e ∧ e < len ∧ takes k = some a ∧ Busy n e a := by
  induction n with
  | zero => exact .inl h.start
  | succ n ih =>
    rcases ih with hfree | ⟨k, e, a, rfl, he, hk, hbusy⟩
    · cases htake : takes n with
      | none => exact .inl (h.stay hfree htake)
      | some a =>
        exact .inr ⟨n, 0, a, rfl, Nat.zero_lt_of_lt h.out_lt, htake, h.take hfree htake⟩
    · rcases Nat.lt_or_eq_of_le (Nat.succ_le_of_lt he) with hlt | heq
      · exact .inr ⟨k, e + 1, a, rfl, hlt, hk, h.work hbusy hlt⟩
      · exact .inl (h.done hbusy heq)

theorem free_of_takes (h : Transit len out takes gives Free Busy) (hn : takes n = some a) :
    Free n := by
  rcases h.free_or_busy n with hfree | ⟨k, e, b, -, he, -, hbusy⟩
  · exact hfree
  · rw [h.closed hbusy he] at hn
    contradiction

/-- A value is worked on from the clock after it was taken. -/
theorem busy_of_takes (h : Transit len out takes gives Free Busy) (hk : takes k = some a)
    (he : e < len) : Busy (k + 1 + e) e a := by
  induction e with
  | zero => exact h.take (h.free_of_takes hk) hk
  | succ e ih => exact h.work (ih (Nat.lt_of_succ_lt he)) he

/-- What is taken is given away `out + 1` clocks later. -/
theorem gives_of_takes (h : Transit len out takes gives Free Busy) (hk : takes k = some a) :
    gives (k + (out + 1)) = some a := by
  have hgive := h.give (h.busy_of_takes hk h.out_lt) h.out_lt
  rwa [if_pos rfl, Nat.add_right_comm, Nat.add_assoc] at hgive

/-- What is given away was taken `out + 1` clocks before. -/
theorem takes_of_gives (h : Transit len out takes gives Free Busy) (hn : gives n = some a) :
    ∃ k, n = k + (out + 1) ∧ takes k = some a := by
  rcases h.free_or_busy n with hfree | ⟨k, e, b, rfl, he, hk, hbusy⟩
  · rw [h.silent hfree] at hn
    contradiction
  · rw [h.give hbusy he] at hn
    by_cases hout : e = out
    · subst hout
      rw [if_pos rfl] at hn
      exact ⟨k, by rw [Nat.add_right_comm, Nat.add_assoc], hk.trans hn⟩
    · rw [if_neg hout] at hn
      contradiction

/-- Over a run the machine is a delay line. -/
theorem gives_add (h : Transit len out takes gives Free Busy) (n : ℕ) :
    gives (n + (out + 1)) = takes n := by
  cases ht : takes n with
  | some a => exact h.gives_of_takes ht
  | none =>
    cases hg : gives (n + (out + 1)) with
    | none => rfl
    | some a =>
      obtain ⟨k, hk, hka⟩ := h.takes_of_gives hg
      obtain rfl := Nat.add_right_cancel hk
      exact hka.symm.trans ht

theorem gives_eq_none (h : Transit len out takes gives Free Busy) (hn : n < out + 1) :
    gives n = none := by
  cases hg : gives n with
  | none => rfl
  | some a =>
    obtain ⟨k, rfl, -⟩ := h.takes_of_gives hg
    exact absurd hn (Nat.not_lt.mpr (Nat.le_add_left _ _))

/-- Everything is given away, once and in order. -/
theorem emitted_eq (h : Transit len out takes gives Free Busy) (n : ℕ) :
    emitted gives n = emitted takes (n - (out + 1)) :=
  emitted_delay (fun _ hn ↦ h.gives_eq_none hn) h.gives_add n

end Transit

/-! ## Frames of bits -/

/-- The work on a value is a frame of `bits` bits of `period` clocks each, of which the
first `len` clocks are needed.  The machine is in clock `d` of bit `c` of the frame of `a`
where `In` says so, and gives the value away in one clock of one bit. -/
structure Frames (period bits len outBit outClock : ℕ) (takes gives : ℕ → Option α)
    (Free : ℕ → Prop) (In : ℕ → ℕ → ℕ → α → Prop) : Prop where
  period_pos : 0 < period
  len_le : len ≤ bits * period
  outClock_lt : outClock < period
  out_lt : outBit * period + outClock < len
  start : Free 0
  stay {n : ℕ} : Free n → takes n = none → Free (n + 1)
  take {n : ℕ} {a : α} : Free n → takes n = some a → In (n + 1) 0 0 a
  wait {n c d : ℕ} {a : α} : In n c d a → c < bits → d + 1 < period → In (n + 1) c (d + 1) a
  next {n c d : ℕ} {a : α} : In n c d a → c + 1 < bits → d + 1 = period → In (n + 1) (c + 1) 0 a
  done {n c d : ℕ} {a : α} : In n c d a → c < bits → d < period → c * period + d + 1 = len →
    Free (n + 1)
  silent {n : ℕ} : Free n → gives n = none
  give {n c d : ℕ} {a : α} : In n c d a → c < bits → d < period →
    gives n = if c = outBit ∧ d = outClock then some a else none
  closed {n c d : ℕ} {a : α} : In n c d a → c < bits → d < period → c * period + d < len →
    takes n = none

namespace Frames

variable {period bits len outBit outClock : ℕ} {takes gives : ℕ → Option α} {Free : ℕ → Prop}
  {In : ℕ → ℕ → ℕ → α → Prop} {n c c' d d' e : ℕ} {a : α}

/-- A clock of a frame is a bit and a clock of this bit. -/
theorem clock_eq_iff (hd : d < period) (hd' : d' < period) :
    c * period + d = c' * period + d' ↔ c = c' ∧ d = d' := by
  constructor
  · intro h
    have hdd : d = d' := by
      rw [← Nat.mul_add_mod_of_lt hd, h, Nat.mul_add_mod_of_lt hd']
    subst hdd
    exact ⟨Nat.eq_of_mul_eq_mul_right (Nat.zero_lt_of_lt hd) (Nat.add_right_cancel h), rfl⟩
  · rintro ⟨rfl, rfl⟩
    rfl

/-- The machine is in clock `e` of the frame of `a`. -/
def Busy (period bits : ℕ) (In : ℕ → ℕ → ℕ → α → Prop) (n e : ℕ) (a : α) : Prop :=
  ∃ c d, e = c * period + d ∧ c < bits ∧ d < period ∧ In n c d a

/-- A clock of a frame is followed by one of the same bit or by the first of the next. -/
theorem work (h : Frames period bits len outBit outClock takes gives Free In)
    (hbusy : Busy period bits In n e a) (he : e + 1 < len) :
    Busy period bits In (n + 1) (e + 1) a := by
  obtain ⟨c, d, rfl, hc, hd, hin⟩ := hbusy
  rcases Nat.lt_or_eq_of_le (Nat.succ_le_of_lt hd) with hlt | heq
  · exact ⟨c, d + 1, rfl, hc, hlt, h.wait hin hc hlt⟩
  · have hnext : c * period + d + 1 = (c + 1) * period := by
      rw [Nat.succ_mul, Nat.add_assoc]
      exact congrArg (c * period + ·) heq
    have hc' : c + 1 < bits := by
      rw [hnext] at he
      exact Nat.lt_of_mul_lt_mul_right (Nat.lt_of_lt_of_le he h.len_le)
    exact ⟨c + 1, 0, hnext, hc', h.period_pos, h.next hin hc' heq⟩

/-- A machine that sends frames is a delay line. -/
theorem transit (h : Frames period bits len outBit outClock takes gives Free In) :
    Transit len (outBit * period + outClock) takes gives Free (Busy period bits In) where
  out_lt := h.out_lt
  start := h.start
  stay := h.stay
  take hfree htake := by
    have hbits : 0 < bits * period :=
      Nat.lt_of_lt_of_le (Nat.zero_lt_of_lt h.out_lt) h.len_le
    exact ⟨0, 0, (Nat.zero_mul _).symm, Nat.pos_of_mul_pos_right hbits, h.period_pos,
      h.take hfree htake⟩
  work := h.work
  done hbusy he := by
    obtain ⟨c, d, rfl, hc, hd, hin⟩ := hbusy
    exact h.done hin hc hd he
  silent := h.silent
  give hbusy _ := by
    obtain ⟨c, d, rfl, hc, hd, hin⟩ := hbusy
    rw [h.give hin hc hd]
    exact if_congr (clock_eq_iff hd h.outClock_lt).symm rfl rfl
  closed hbusy he := by
    obtain ⟨c, d, rfl, hc, hd, hin⟩ := hbusy
    exact h.closed hin hc hd he

end Frames

end Clocked
