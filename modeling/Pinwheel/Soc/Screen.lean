import Pinwheel.Lib.Run
import Pinwheel.Lib.Terminal
import Pinwheel.Soc.Console

/-!
# What the console shows

The console is compared with a terminal of the same size.  The cursor glyph of the
console takes the place of a character, which is lost when the glyph is erased.
-/

namespace Pinwheel

open Clocked Terminals

namespace Console

/-- The reference: a terminal of the size of the console, whose blank is the character 0. -/
abbrev Reference := Terminal height width (BitVec 8)

/-- What a character asks of a terminal. -/
def symbol (c : BitVec 8) : Symbol (BitVec 8) :=
  if c = lineFeed then .newline
  else if c = carriageReturn then .carriageReturn
  else .glyph c

/-- The character in a row and a column. -/
def cell (k : Console) (r c : ℕ) : BitVec 8 := k.buf (r * width + c)

/-- The cursor is where it should be. -/
structure At (k : Console) (t : Reference) : Prop where
  x : k.x = t.col
  y : k.y = t.row

/-- Every cell but the one of the cursor is as it should be. -/
def Shows (k : Console) (t : Reference) : Prop :=
  ∀ (r : Fin height) (c : Fin width), ¬((r : ℕ) = k.y ∧ (c : ℕ) = k.x) → k.cell r c = t.cell r c

/-- The character is written over what is under the cursor, or there is nothing under it,
or the cursor stays. -/
def Fits (t : Reference) (c : BitVec 8) : Prop :=
  t.cell t.row t.col = 0#8 ∨ (c ≠ lineFeed ∧ c ≠ carriageReturn) ∨
    (c = carriageReturn ∧ (t.col : ℕ) = 0)

variable {k : Console} {t : Reference} {c : BitVec 8} {buf : ℕ → BitVec 8}

/-! ## The screen as a whole -/

/-- The loop reads a character before it overwrites it. -/
theorem moveUp_apply (n i : ℕ) : moveUp buf n i = if i < n then buf (i + width) else buf i := by
  induction n generalizing i with
  | zero => rfl
  | succ n ih =>
    have hstep : moveUp buf (n + 1) =
        Function.update (moveUp buf n) n (moveUp buf n (n + width)) := by
      rw [moveUp, List.range_succ, List.foldl_append]
      rfl
    have hread : moveUp buf n (n + width) = buf (n + width) := by
      rw [ih, if_neg (Nat.not_lt.mpr (Nat.le_add_right _ _))]
    rw [hstep, hread]
    rcases Nat.lt_trichotomy i n with hlt | rfl | hlt
    · rw [Function.update_of_ne (Nat.ne_of_lt hlt), ih, if_pos hlt, if_pos (Nat.lt_succ_of_lt hlt)]
    · rw [Function.update_self, if_pos (Nat.lt_succ_self i)]
    · rw [Function.update_of_ne (Nat.ne_of_gt hlt), ih, if_neg (Nat.not_lt.mpr (Nat.le_of_lt hlt)),
        if_neg (Nat.not_lt.mpr hlt)]

theorem index_inj {r r' c c' : ℕ} (hc : c < width) (hc' : c' < width) :
    r * width + c = r' * width + c' ↔ r = r' ∧ c = c' := by
  unfold width at *
  omega

/-- Only the cell of the cursor is set. -/
theorem cell_set (hk : k.x < width) (v : BitVec 8) {r c : ℕ} (hc : c < width) :
    (k.set v).cell r c = if r = k.y ∧ c = k.x then v else k.cell r c := by
  unfold set cell
  dsimp only
  by_cases h : r = k.y ∧ c = k.x
  · rw [if_pos h, h.1, h.2, Function.update_self]
  · rw [if_neg h, Function.update_of_ne fun heq ↦ h ((index_inj hc hk).mp heq)]

/-- Below the last row the rows move up, and an empty one follows them. -/
theorem cell_settle_of_last (hlast : k.y = height) {last : Prop} [Decidable last]
    (hs : last) (r : Fin height) (c : Fin width) :
    k.settle.cell r c = (Terminal.source last r).elim 0#8 fun r' ↦ k.cell r' c := by
  have hc := c.isLt
  have hr := r.isLt
  unfold settle
  rw [if_pos hlast]
  show memset _ _ 0#8 width (r * width + c) = _
  rw [Terminal.source, if_pos hs, memset, moveUp_apply]
  unfold width height at *
  by_cases hnext : (r : ℕ) + 1 < 16
  · rw [if_neg (by omega), if_pos (by omega), dif_pos hnext, Option.elim, cell, width]
    congr 1
    show _ = ((r : ℕ) + 1) * 64 + _
    omega
  · rw [if_pos (by omega), dif_neg hnext]
    rfl

/-- A cursor that moves down is settled in the next row, and each cell then shows what it
should. -/
theorem settle_nextRow (hy : k.y = t.row + 1) :
    k.settle.x = k.x ∧ k.settle.y = (t.nextRow 0#8).row ∧
      ∀ (r : Fin height) (c : Fin width), k.settle.cell r c =
        (Terminal.source (¬(t.row : ℕ) + 1 < height) r).elim 0#8 fun r' ↦ k.cell r' c := by
  have hrow := Terminal.row_nextRow 0#8 t
  have hlt := t.row.isLt
  by_cases hlast : k.y = height
  · have hr : ¬(t.row : ℕ) + 1 < height := by omega
    rw [if_neg hr] at hrow
    refine ⟨?_, ?_, cell_settle_of_last hlast hr⟩
    · rw [settle, if_pos hlast]
    · rw [settle, if_pos hlast, hrow]
      show height - 1 = _
      omega
  · have hr : (t.row : ℕ) + 1 < height := by omega
    rw [if_pos hr] at hrow
    rw [settle, if_neg hlast, hrow]
    refine ⟨rfl, hy, fun r c ↦ ?_⟩
    rw [Terminal.source, if_neg (not_not.mpr hr)]
    rfl

/-! ## One character -/

/-- What is left when the cursor is erased. -/
theorem cell_erased (hk : k.At t) (hs : k.Shows t) (r : Fin height) (c : Fin width) :
    (k.set 0#8).cell r c = if r = t.row ∧ c = t.col then 0#8 else t.cell r c := by
  have hx : k.x < width := hk.x ▸ t.col.isLt
  have hiff : (r : ℕ) = k.y ∧ (c : ℕ) = k.x ↔ r = t.row ∧ c = t.col := by
    rw [hk.x, hk.y, Fin.val_inj, Fin.val_inj]
  rw [cell_set hx 0#8 c.isLt]
  by_cases h : (r : ℕ) = k.y ∧ (c : ℕ) = k.x
  · rw [if_pos h, if_pos (hiff.mp h)]
  · rw [if_neg h, if_neg fun h' ↦ h (hiff.mpr h'), hs r c h]

/-- Whatever the cursor glyph hides, the rest is shown. -/
theorem shows_set_cursor (hk : k.x < width) (v : BitVec 8) : (k.set v).Shows t ↔ k.Shows t := by
  have hcell : ∀ (r : Fin height) (c : Fin width), ¬((r : ℕ) = k.y ∧ (c : ℕ) = k.x) →
      (k.set v).cell r c = k.cell r c := by
    intro r c hne
    rw [cell_set hk v c.isLt, if_neg hne]
  constructor
  · intro h r c hne
    rw [← hcell r c hne]
    exact h r c hne
  · intro h r c hne
    rw [hcell r c hne]
    exact h r c hne

/-- Where the cursor glyph is drawn. -/
theorem At.set (hk : k.At t) (v : BitVec 8) : (k.set v).At t := ⟨hk.x, hk.y⟩

theorem At.x_lt (hk : k.At t) : k.x < width := hk.x ▸ t.col.isLt

theorem At.y_lt (hk : k.At t) : k.y < height := hk.y ▸ t.row.isLt

/-- The beginning of the next row. -/
theorem At.settle (hx : k.x = 0) (hy : k.y = t.row + 1) :
    k.settle.At (t.nextRow 0#8).home := by
  obtain ⟨hx', hy', -⟩ := settle_nextRow hy
  exact ⟨hx'.trans hx, hy'⟩

theorem settle_of_lt (hy : k.y < height) : k.settle = k := if_neg (Nat.ne_of_lt hy)

theorem putchar_lineFeed : k.putchar lineFeed =
    ({ k.set 0#8 with x := 0, y := k.y + 1 } : Console).settle.set cursor := rfl

theorem at_lineFeed (hk : k.At t) : (k.putchar lineFeed).At (t.nextRow 0#8).home := by
  rw [putchar_lineFeed]
  exact (At.settle rfl (congrArg (· + 1) hk.y)).set cursor

/-- A new line shows all but the character that the cursor glyph hid. -/
theorem shows_lineFeed (hk : k.At t) (hs : k.Shows t) :
    (k.putchar lineFeed).Shows (t.nextRow 0#8).home ↔ t.cell t.row t.col = 0#8 := by
  have hy : ({ k.set 0#8 with x := 0, y := k.y + 1 } : Console).y = t.row + 1 :=
    congrArg (· + 1) hk.y
  have hat := At.settle rfl hy
  obtain ⟨-, -, hcell⟩ := settle_nextRow hy
  have herased : ∀ (r : Fin height) (c : Fin width),
      ({ k.set 0#8 with x := 0, y := k.y + 1 } : Console).cell r c =
        if r = t.row ∧ c = t.col then 0#8 else t.cell r c := cell_erased hk hs
  rw [putchar_lineFeed, shows_set_cursor hat.x_lt]
  constructor
  · intro h
    obtain ⟨r, hr, hne⟩ := Terminal.exists_source 0#8 t (by decide : 1 < height)
    have hshows := h r t.col fun hrc ↦ hne (hrc.1.trans hat.y)
    have href : (t.nextRow 0#8).home.cell r t.col = (t.nextRow 0#8).cell r t.col := rfl
    rw [hcell, href, Terminal.cell_nextRow, hr, Option.elim_some, Option.elim_some, herased,
      if_pos ⟨rfl, rfl⟩] at hshows
    exact hshows.symm
  · intro hblank r c _
    have href : (t.nextRow 0#8).home.cell r c = (t.nextRow 0#8).cell r c := rfl
    rw [hcell, href, Terminal.cell_nextRow]
    cases Terminal.source (¬(t.row : ℕ) + 1 < height) r with
    | none => rfl
    | some r' =>
      rw [Option.elim_some, Option.elim_some, herased]
      by_cases hrc : r' = t.row ∧ c = t.col
      · rw [if_pos hrc, hrc.1, hrc.2, hblank]
      · rw [if_neg hrc]

theorem putchar_carriageReturn (hk : k.At t) : k.putchar carriageReturn =
    ({ k.set 0#8 with x := 0 } : Console).set cursor := by
  have hwrap : ((k.set 0#8).type carriageReturn).wrap = { k.set 0#8 with x := 0 } := rfl
  have hy : ({ k.set 0#8 with x := 0 } : Console).y < height := hk.y_lt
  rw [putchar, hwrap, settle_of_lt hy]

theorem at_carriageReturn (hk : k.At t) : (k.putchar carriageReturn).At t.home := by
  rw [putchar_carriageReturn hk]
  exact ⟨rfl, hk.y⟩

theorem shows_carriageReturn (hk : k.At t) (hs : k.Shows t) :
    (k.putchar carriageReturn).Shows t.home ↔ t.cell t.row t.col = 0#8 ∨ (t.col : ℕ) = 0 := by
  have herased : ∀ (r : Fin height) (c : Fin width),
      ({ k.set 0#8 with x := 0 } : Console).cell r c =
        if r = t.row ∧ c = t.col then 0#8 else t.cell r c := cell_erased hk hs
  have hx : ({ k.set 0#8 with x := 0 } : Console).x < width := (by decide : 0 < width)
  rw [putchar_carriageReturn hk, shows_set_cursor hx]
  constructor
  · intro h
    by_cases hcol : (t.col : ℕ) = 0
    · exact .inr hcol
    · have hshows := h t.row t.col fun hrc ↦ hcol hrc.2
      rw [herased, if_pos ⟨rfl, rfl⟩] at hshows
      exact .inl hshows.symm
  · intro h r c hne
    rw [herased]
    by_cases hrc : r = t.row ∧ c = t.col
    · rcases h with hblank | hcol
      · rw [if_pos hrc, hrc.1, hrc.2]
        exact hblank.symm
      · -- The cursor stays where it is.
        refine absurd ⟨?_, ?_⟩ hne
        · rw [hrc.1]
          exact hk.y.symm
        · rw [hrc.2]
          exact hcol
    · rw [if_neg hrc]
      rfl

theorem putchar_glyph (h0 : c ≠ 0#8) (hl : c ≠ lineFeed) (hr : c ≠ carriageReturn) :
    k.putchar c = ({ (k.set 0#8).set c with x := k.x + 1 } : Console).wrap.settle.set cursor := by
  have htype : (k.set 0#8).type c = { (k.set 0#8).set c with x := k.x + 1 } := by
    unfold type
    dsimp only
    rw [if_neg h0, if_neg hl, if_neg hr]
    rfl
  rw [putchar, htype]

/-- A written character takes the place of whatever the cursor glyph hid. -/
theorem cell_written (hk : k.At t) (hs : k.Shows t) (r : Fin height) (c' : Fin width) :
    ((k.set 0#8).set c).cell r c' = (t.write c).cell r c' := by
  have hiff : (r : ℕ) = k.y ∧ (c' : ℕ) = k.x ↔ r = t.row ∧ c' = t.col := by
    rw [hk.x, hk.y, Fin.val_inj, Fin.val_inj]
  have hset := cell_set (k := k.set 0#8) hk.x_lt c (r := r) c'.isLt
  rw [hset, cell_erased hk hs]
  by_cases h : r = t.row ∧ c' = t.col
  · exact (if_pos (hiff.mpr h)).trans (if_pos h).symm
  · rw [if_neg h, t.cell_write_of_ne c h]
    exact if_neg fun h' ↦ h (hiff.mp h')

theorem glyph (hk : k.At t) (h0 : c ≠ 0#8) (hl : c ≠ lineFeed) (hr : c ≠ carriageReturn) :
    (k.putchar c).At ((t.write c).advance 0#8) ∧
      (k.Shows t → (k.putchar c).Shows ((t.write c).advance 0#8)) := by
  rw [putchar_glyph h0 hl hr, Terminal.advance]
  by_cases hcol : (t.col : ℕ) + 1 < width
  · -- The cursor moves on in its row.
    have hx : k.x + 1 ≠ width := by
      rw [hk.x]
      exact Nat.ne_of_lt hcol
    have hsettle : ({ (k.set 0#8).set c with x := k.x + 1 } : Console).wrap.settle =
        { (k.set 0#8).set c with x := k.x + 1 } :=
      (congrArg settle (if_neg hx)).trans (settle_of_lt hk.y_lt)
    have hat : ({ (k.set 0#8).set c with x := k.x + 1 } : Console).At
        { t.write c with col := ⟨t.col + 1, hcol⟩ } := ⟨congrArg (· + 1) hk.x, hk.y⟩
    rw [hsettle, dif_pos (show ((t.write c).col : ℕ) + 1 < width from hcol)]
    refine ⟨hat.set cursor, fun hs ↦ (shows_set_cursor hat.x_lt cursor).mpr fun r c' _ ↦ ?_⟩
    exact cell_written hk hs r c'
  · -- The cursor was in the last column.
    have hx : k.x + 1 = width := by
      have := t.col.isLt
      rw [hk.x]
      omega
    have hy : ({ (k.set 0#8).set c with x := 0, y := k.y + 1 } : Console).y =
        (t.write c).row + 1 := congrArg (· + 1) hk.y
    have hwrap : ({ (k.set 0#8).set c with x := k.x + 1 } : Console).wrap =
        { (k.set 0#8).set c with x := 0, y := k.y + 1 } := if_pos hx
    have hat := At.settle rfl hy
    obtain ⟨-, -, hcell⟩ := settle_nextRow hy
    rw [hwrap, dif_neg (show ¬((t.write c).col : ℕ) + 1 < width from hcol)]
    refine ⟨hat.set cursor, fun hs ↦ (shows_set_cursor hat.x_lt cursor).mpr fun r c' _ ↦ ?_⟩
    have href : ((t.write c).nextRow 0#8).home.cell r c' =
        ((t.write c).nextRow 0#8).cell r c' := rfl
    rw [hcell, href, Terminal.cell_nextRow]
    cases Terminal.source (¬((t.write c).row : ℕ) + 1 < height) r with
    | none => rfl
    | some r' => exact cell_written hk hs r' c'

/-- **One character**: the cursor goes where it should, and what was shown is shown
exactly if the character fits. -/
theorem putchar_spec (hk : k.At t) (h0 : c ≠ 0#8) :
    (k.putchar c).At (t.put 0#8 (symbol c)) ∧
      (k.Shows t → ((k.putchar c).Shows (t.put 0#8 (symbol c)) ↔ Fits t c)) := by
  unfold symbol Fits
  by_cases hl : c = lineFeed
  · rw [if_pos hl, hl]
    refine ⟨at_lineFeed hk, fun hs ↦ (shows_lineFeed hk hs).trans ⟨.inl, ?_⟩⟩
    rintro (hblank | ⟨hne, -⟩ | ⟨heq, -⟩)
    · exact hblank
    · exact absurd rfl hne
    · exact absurd heq (by decide)
  · by_cases hr : c = carriageReturn
    · rw [if_neg hl, if_pos hr, hr]
      refine ⟨at_carriageReturn hk, fun hs ↦ (shows_carriageReturn hk hs).trans ⟨?_, ?_⟩⟩
      · exact Or.imp id fun hcol ↦ .inr ⟨rfl, hcol⟩
      · rintro (hblank | ⟨-, hne⟩ | ⟨-, hcol⟩)
        · exact .inl hblank
        · exact absurd rfl hne
        · exact .inr hcol
    · rw [if_neg hl, if_neg hr]
      obtain ⟨hat, hshows⟩ := glyph hk h0 hl hr
      exact ⟨hat, fun hs ↦ iff_of_true (hshows hs) (.inr (.inl ⟨hl, hr⟩))⟩

/-! ## Texts -/

/-- An initialised console. -/
def start (buf : ℕ → BitVec 8) (addrMask addrTag : BitVec 32) : Console :=
  (construct buf).init addrMask addrTag

/-- The console after the first `n` characters. -/
def printed (chars : ℕ → BitVec 8) (k : Console) (n : ℕ) : Console :=
  run (fun c k ↦ k.putchar c) chars k n

/-- The empty reference. -/
def blankScreen : Reference := ⟨fun _ _ ↦ 0#8, ⟨0, by decide⟩, ⟨0, by decide⟩⟩

/-- The reference after the first `n` characters. -/
def reference (chars : ℕ → BitVec 8) (n : ℕ) : Reference :=
  run (fun c t ↦ t.put 0#8 (symbol c)) chars blankScreen n

variable {chars : ℕ → BitVec 8} {addrMask addrTag : BitVec 32}

theorem shows_start : (start buf addrMask addrTag).Shows blankScreen := by
  intro r c _
  have hr : (r : ℕ) < 16 := r.isLt
  have hc : (c : ℕ) < 64 := c.isLt
  refine if_pos ⟨Nat.zero_le _, ?_⟩
  unfold width height
  omega

theorem at_printed (h0 : ∀ n, chars n ≠ 0#8) (n : ℕ) :
    (printed chars (start buf addrMask addrTag) n).At (reference chars n) := by
  induction n with
  | zero => exact ⟨rfl, rfl⟩
  | succ n ih => exact (putchar_spec ih (h0 n)).1

/-- **The console shows what was printed**, up to any time, exactly if no character moves
the cursor away from a character of the text; and the cursor stays on the screen. -/
theorem shows_iff (h0 : ∀ n, chars n ≠ 0#8) (buf : ℕ → BitVec 8) (addrMask addrTag : BitVec 32)
    (n : ℕ) :
    (∀ m ≤ n, (printed chars (start buf addrMask addrTag) m).x < width ∧
      (printed chars (start buf addrMask addrTag) m).y < height) ∧
    ((∀ m ≤ n, (printed chars (start buf addrMask addrTag) m).Shows (reference chars m)) ↔
      ∀ m < n, Fits (reference chars m) (chars m)) := by
  refine ⟨fun m _ ↦ ⟨(at_printed h0 m).x_lt, (at_printed h0 m).y_lt⟩, ?_⟩
  induction n with
  | zero =>
    refine iff_of_true (fun m hm ↦ ?_) fun m hm ↦ absurd hm (Nat.not_lt_zero m)
    obtain rfl := Nat.le_zero.mp hm
    exact shows_start
  | succ n ih =>
    have hstep := (putchar_spec (@at_printed buf chars addrMask addrTag h0 n) (h0 n)).2
    constructor
    · intro h m hm
      rcases Nat.lt_or_eq_of_le (Nat.le_of_lt_succ hm) with hlt | rfl
      · exact ih.mp (fun m hm ↦ h m (Nat.le_succ_of_le hm)) m hlt
      · exact (hstep (h m (Nat.le_succ m))).mp (h (m + 1) (Nat.le_refl _))
    · intro h m hm
      have hn := ih.mpr fun m hm ↦ h m (Nat.lt_succ_of_lt hm)
      rcases Nat.lt_or_eq_of_le hm with hlt | rfl
      · exact hn m (Nat.le_of_lt_succ hlt)
      · exact (hstep (hn n (Nat.le_refl n))).mpr (h n (Nat.lt_succ_self n))

/-- Nothing but a carriage return moves the cursor back. -/
theorem blankAhead_put (ht : t.BlankAhead 0#8) (hc : c ≠ carriageReturn) :
    (t.put 0#8 (symbol c)).BlankAhead 0#8 := by
  rw [symbol, if_neg hc]
  split_ifs
  · exact Terminal.BlankAhead.newline fun r c hlt ↦ ht r c (.inl hlt)
  · exact ht.glyph c

/-- A text without carriage returns is shown as it was printed. -/
theorem fits_of_no_carriageReturn (h : ∀ n, chars n ≠ carriageReturn) (n : ℕ) :
    Fits (reference chars n) (chars n) := by
  have hahead : (reference chars n).BlankAhead 0#8 := by
    induction n with
    | zero => exact fun _ _ _ ↦ rfl
    | succ n ih => exact blankAhead_put ih (h n)
  exact .inl (hahead _ _ (.inr ⟨rfl, Fin.le_refl _⟩))

/-- The reference after a text. -/
def screen (text : List (BitVec 8)) : Reference :=
  text.foldl (fun t c ↦ t.put 0#8 (symbol c)) blankScreen

/-- A console of the simulator shows a text as a whole. -/
theorem shows_screen {text : List (BitVec 8)} (h : ∀ c ∈ text, c ≠ 0#8 ∧ c ≠ carriageReturn) :
    (text.foldl putchar (start buf addrMask addrTag)).At (screen text) ∧
      (text.foldl putchar (start buf addrMask addrTag)).Shows (screen text) := by
  have hrun : ∀ {k : Console} {t : Reference}, k.At t → k.Shows t → t.BlankAhead 0#8 →
      (text.foldl putchar k).At (text.foldl (fun t c ↦ t.put 0#8 (symbol c)) t) ∧
        (text.foldl putchar k).Shows (text.foldl (fun t c ↦ t.put 0#8 (symbol c)) t) := by
    induction text with
    | nil => exact fun hat hshows _ ↦ ⟨hat, hshows⟩
    | cons c text ih =>
      intro k t hat hshows hahead
      obtain ⟨h0, hr⟩ := h c List.mem_cons_self
      obtain ⟨hput, hiff⟩ := putchar_spec hat h0
      have hfits : Fits t c := .inl (hahead _ _ (.inr ⟨rfl, Fin.le_refl _⟩))
      exact ih (fun c' hc' ↦ h c' (List.mem_cons_of_mem c hc')) hput ((hiff hshows).mpr hfits)
        (blankAhead_put hahead hr)
  exact hrun ⟨rfl, rfl⟩ shows_start fun _ _ _ ↦ rfl

/-- A byte that is written to the console is printed. -/
theorem tick_put {tla : TilelinkA} (hsel : tla.aAddress &&& k.addrMask = k.addrTag)
    (hput : tla.isPut = true) : k.tick false tla = k.putchar (tla.aData.setWidth 8) := by
  have hop : tla.aOpcode = TL.putPartialData ∨ tla.aOpcode = TL.putFullData := by
    rw [TilelinkA.isPut, Bool.or_eq_true, beq_iff_eq, beq_iff_eq] at hput
    exact hput.symm
  have htick : k.tick false tla = (k.set 0#8).putchar (tla.aData.setWidth 8) :=
    (if_pos hsel).trans (if_pos hop)
  have hset : (k.set 0#8).set 0#8 = k.set 0#8 := by
    unfold set
    dsimp only
    rw [Function.update_idem]
  rw [htick, putchar, hset, putchar]

/-- The letter A on every line, in the convention of a terminal. -/
def crlf (n : ℕ) : BitVec 8 :=
  if n % 3 = 0 then 0x41#8 else if n % 3 = 1 then carriageReturn else lineFeed

/-- The letter A on every line. -/
def lines (n : ℕ) : BitVec 8 := if n % 2 = 0 then 0x41#8 else lineFeed

theorem shows_lines :
    (printed lines (start (fun _ ↦ 0#8) 0#32 0#32) 100).Shows (reference lines 100) := by
  have hne : ∀ n, lines n ≠ 0#8 ∧ lines n ≠ carriageReturn := by
    intro n
    unfold lines
    split_ifs <;> decide
  have hfits : ∀ m < 100, Fits (reference lines m) (lines m) := fun m _ ↦
    fits_of_no_carriageReturn (fun n ↦ (hne n).2) m
  exact (shows_iff (fun n ↦ (hne n).1) (fun _ ↦ 0#8) 0#32 0#32 100).2.mpr hfits 100 (Nat.le_refl _)

/-- After `A\r\n` the letter is gone. -/
theorem crlf_erases :
    (printed crlf (start (fun _ ↦ 0#8) 0#32 0#32) 3).cell 0 0 = 0#8 ∧
      (reference crlf 3).cell ⟨0, by decide⟩ ⟨0, by decide⟩ = 0x41#8 ∧
      ¬(printed crlf (start (fun _ ↦ 0#8) 0#32 0#32) 3).Shows (reference crlf 3) := by
  have hcell : (printed crlf (start (fun _ ↦ 0#8) 0#32 0#32) 3).cell 0 0 = 0#8 := by decide
  have href : (reference crlf 3).cell ⟨0, by decide⟩ ⟨0, by decide⟩ = 0x41#8 := by decide
  refine ⟨hcell, href, fun h ↦ ?_⟩
  have heq := h ⟨0, by decide⟩ ⟨0, by decide⟩ (by decide)
  rw [href] at heq
  exact absurd (hcell.symm.trans heq) (by decide)

end Console

end Pinwheel
