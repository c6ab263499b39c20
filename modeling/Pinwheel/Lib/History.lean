import Mathlib.Logic.Function.Basic
import Pinwheel.Lib.Run

/-!
# Histories of writes

A cell that is given a value in some clocks is determined by its first contents and
by what it was given last.  A memory that is written at most once in a clock is
determined by the history of its writes, a sequence `ℕ → Option (κ × α)`; `latest` is
the value that a key was given last.
-/

namespace Clocked

universe u v

variable {κ : Type u} {α : Type v}

/-! ## One cell -/

/-- The last of the values of the first `n` clocks. -/
def last (e : ℕ → Option α) : ℕ → Option α
  | 0 => none
  | n + 1 => (e n).or (last e n)

/-- A cell has the value that it was given last, or the one it had in the beginning. -/
theorem eq_last {e : ℕ → Option α} {x : ℕ → α} (h : ∀ n, x (n + 1) = (e n).getD (x n)) (n : ℕ) :
    x n = (last e n).getD (x 0) := by
  induction n with
  | zero => rfl
  | succ n ih =>
    rw [h, ih, last]
    cases e n <;> rfl

theorem last_congr {e e' : ℕ → Option α} {n : ℕ} (h : ∀ i < n, e i = e' i) :
    last e n = last e' n := by
  induction n with
  | zero => rfl
  | succ n ih =>
    rw [last, last, h n (Nat.lt_succ_self n), ih fun i hi ↦ h i (Nat.lt_succ_of_lt hi)]

/-! ## A memory -/

variable [DecidableEq κ]

/-- The contents after the write of one clock, if there is one. -/
def put (w : Option (κ × α)) (f : κ → α) : κ → α :=
  match w with
  | none => f
  | some (k, a) => Function.update f k a

/-- The value that a write gives to a key. -/
def given (w : Option (κ × α)) (k : κ) : Option α :=
  match w with
  | none => none
  | some (j, a) => if j = k then some a else none

/-- The value that the key was given last, in the first `n` clocks. -/
def latest (w : ℕ → Option (κ × α)) (k : κ) : ℕ → Option α
  | 0 => none
  | n + 1 => (given (w n) k).or (latest w k n)

section History

variable {w : ℕ → Option (κ × α)} {k : κ} {a : α} {n : ℕ}

theorem given_self : given (some (k, a)) k = some a := if_pos rfl

theorem given_eq_none_iff {w : Option (κ × α)} : given w k = none ↔ ∀ a, w ≠ some (k, a) := by
  rcases w with - | ⟨j, b⟩
  · exact iff_of_true rfl fun _ ↦ nofun
  · by_cases hj : j = k
    · subst hj
      rw [given_self]
      exact iff_of_false nofun fun h ↦ h b rfl
    · refine iff_of_true (if_neg hj) fun a h ↦ hj ?_
      cases h
      rfl

theorem put_apply (w : Option (κ × α)) (f : κ → α) (k : κ) :
    put w f k = (given w k).getD (f k) := by
  rcases w with - | ⟨j, b⟩
  · rfl
  · by_cases hj : j = k
    · subst hj
      rw [given_self]
      exact Function.update_self j b f
    · rw [given, if_neg hj]
      exact Function.update_of_ne (Ne.symm hj) b f

theorem latest_succ_of_write (h : w n = some (k, a)) : latest w k (n + 1) = some a := by
  rw [latest, h, given_self, Option.some_or]

theorem latest_succ_of_quiet (h : ∀ a, w n ≠ some (k, a)) :
    latest w k (n + 1) = latest w k n := by
  rw [latest, given_eq_none_iff.mpr h, Option.none_or]

theorem latest_eq_last (n : ℕ) : latest w k n = last (fun i ↦ given (w i) k) n := by
  induction n with
  | zero => rfl
  | succ n ih => rw [latest, ih, last]

/-- Two histories that give a key the same values have the same latest one. -/
theorem latest_congr {w' : ℕ → Option (κ × α)} (h : ∀ i < n, given (w i) k = given (w' i) k) :
    latest w k n = latest w' k n := by
  rw [latest_eq_last, latest_eq_last]
  exact last_congr h

/-- **A memory is its history**: every key has the value it was given last, or the
one it had in the beginning. -/
theorem eq_latest {M : ℕ → κ → α} (h : ∀ n, M (n + 1) = put (w n) (M n)) (n : ℕ) (k : κ) :
    M n k = (latest w k n).getD (M 0 k) := by
  have hk : ∀ n, M (n + 1) k = (given (w n) k).getD (M n k) := fun n ↦ by rw [h, put_apply]
  rw [latest_eq_last]
  exact eq_last (x := fun n ↦ M n k) hk n

end History

end Clocked
