import Mathlib.Data.Fin.Basic
import Mathlib.Data.Nat.Notation
import Mathlib.Tactic.SplitIfs

/-!
# Terminals

A screen of `h` rows and `w` columns with a cursor.  The cursor is a place on the screen
by its type, so that no operation can move it off.  A glyph is written at the cursor, a
new line goes on in the next row, and a screen without a next row scrolls.
-/

namespace Terminals

universe u

/-- What is sent to a terminal. -/
inductive Symbol (α : Type u) where
  | glyph (a : α)
  | newline
  | carriageReturn

structure Terminal (h w : ℕ) (α : Type u) where
  cell : Fin h → Fin w → α
  row : Fin h
  col : Fin w

namespace Terminal

variable {h w : ℕ} {α : Type u} (blank : α) (t : Terminal h w α)

/-- Write at the cursor, and leave the cursor there. -/
def write (a : α) : Terminal h w α :=
  { t with cell := fun r c ↦ if r = t.row ∧ c = t.col then a else t.cell r c }

/-- Every row moves up. -/
def scroll : Terminal h w α :=
  { t with cell := fun r c ↦ if hr : r + 1 < h then t.cell ⟨r + 1, hr⟩ c else blank }

def nextRow : Terminal h w α :=
  if hr : t.row + 1 < h then { t with row := ⟨t.row + 1, hr⟩ } else t.scroll blank

/-- What a cell shows after `nextRow` was shown by this cell before, if any. -/
def source (last : Prop) [Decidable last] (r : Fin h) : Option (Fin h) :=
  if last then if hr : r + 1 < h then some ⟨r + 1, hr⟩ else none else some r

def home : Terminal h w α := { t with col := ⟨0, t.col.pos⟩ }

def advance : Terminal h w α :=
  if hc : t.col + 1 < w then { t with col := ⟨t.col + 1, hc⟩ } else (t.nextRow blank).home

def put : Symbol α → Terminal h w α
  | .glyph a => (t.write a).advance blank
  | .newline => (t.nextRow blank).home
  | .carriageReturn => t.home

variable {blank t}

/-! ## What the operations leave -/

theorem cell_write_of_ne (a : α) {r : Fin h} {c : Fin w} (hne : ¬(r = t.row ∧ c = t.col)) :
    (t.write a).cell r c = t.cell r c := if_neg hne

/-- The cells of the next row and of the rows above it. -/
theorem cell_nextRow (r : Fin h) (c : Fin w) :
    (t.nextRow blank).cell r c =
      (source (¬t.row + 1 < h) r).elim blank fun r' ↦ t.cell r' c := by
  unfold nextRow source
  by_cases hr : t.row + 1 < h
  · rw [dif_pos hr, if_neg (not_not.mpr hr)]
    rfl
  · rw [dif_neg hr, if_pos hr, scroll]
    by_cases hr' : r + 1 < h
    · dsimp only
      rw [dif_pos hr', dif_pos hr']
      rfl
    · dsimp only
      rw [dif_neg hr', dif_neg hr']
      rfl

theorem row_nextRow (blank : α) (t : Terminal h w α) :
    ((t.nextRow blank).row : ℕ) = if (t.row : ℕ) + 1 < h then (t.row : ℕ) + 1 else t.row := by
  unfold nextRow
  split_ifs <;> rfl

/-- Some cell shows what the cursor was on. -/
theorem exists_source (blank : α) (t : Terminal h w α) (hh : 1 < h) :
    ∃ r : Fin h, source (¬t.row + 1 < h) r = some t.row ∧ (r : ℕ) ≠ (t.nextRow blank).row := by
  have hlt := t.row.isLt
  have hrow := row_nextRow blank t
  unfold source
  by_cases hr : t.row + 1 < h
  · refine ⟨t.row, if_neg (not_not.mpr hr), ?_⟩
    rw [hrow, if_pos hr]
    exact Nat.ne_of_lt (Nat.lt_succ_self _)
  · have hr' : (t.row : ℕ) - 1 + 1 < h := by omega
    refine ⟨⟨t.row - 1, Nat.lt_of_succ_lt hr'⟩, ?_, ?_⟩
    · rw [if_pos hr, dif_pos hr']
      exact congrArg some (Fin.ext (Nat.sub_add_cancel (by omega)))
    · rw [hrow, if_neg hr]
      exact Nat.ne_of_lt (Nat.sub_lt (by omega) Nat.one_pos)

/-! ## Text that only goes forward -/

/-- From the cursor on the screen is blank. -/
def BlankAhead (blank : α) (t : Terminal h w α) : Prop :=
  ∀ r c, t.row < r ∨ t.row = r ∧ t.col ≤ c → t.cell r c = blank

/-- The next row is blank, however it comes about. -/
theorem BlankAhead.newline (ht : ∀ r c, t.row < r → t.cell r c = blank) :
    BlankAhead blank (t.nextRow blank).home := by
  intro r c hrc
  have hle : (t.nextRow blank).row ≤ r := by
    rcases hrc with hlt | ⟨heq, -⟩
    · exact Fin.le_of_lt hlt
    · exact Fin.le_of_eq heq
  have hrow := row_nextRow blank t
  have hcell : (t.nextRow blank).home.cell r c = (t.nextRow blank).cell r c := rfl
  rw [hcell, cell_nextRow, source]
  by_cases hr : t.row + 1 < h
  · rw [if_pos hr] at hrow
    rw [if_neg (not_not.mpr hr)]
    refine ht r c (Fin.lt_def.mpr ?_)
    rw [Fin.le_def, hrow] at hle
    exact hle
  · -- The cursor is in the last row, and so is the cell.
    have hlast : ¬r + 1 < h := by
      rw [if_neg hr] at hrow
      rw [Fin.le_def, hrow] at hle
      omega
    rw [if_pos hr, dif_neg hlast]
    rfl

theorem BlankAhead.glyph (ht : BlankAhead blank t) (a : α) :
    BlankAhead blank (t.put blank (.glyph a)) := by
  have hrow : ∀ r c, t.row < r → (t.write a).cell r c = blank := by
    intro r c hlt
    rw [cell_write_of_ne a fun h ↦ (Fin.ne_of_gt hlt) h.1]
    exact ht r c (.inl hlt)
  rw [put, advance]
  split_ifs with hc
  · rintro r c (hlt | ⟨heq, hle⟩)
    · exact hrow r c hlt
    · have hne : ¬(r = t.row ∧ c = t.col) := by
        rintro ⟨-, rfl⟩
        exact absurd (Fin.le_def.mp hle) (Nat.not_succ_le_self _)
      have hcell := cell_write_of_ne a hne
      rw [hcell]
      exact ht r c (.inr ⟨heq, Fin.le_def.mpr (Nat.le_of_succ_le (Fin.le_def.mp hle))⟩)
  · exact BlankAhead.newline hrow

end Terminal

end Terminals
