import Mathlib.Data.Set.Function

/-!
# Readable texts

Texts from which what was written can be read back, although nothing tells where one piece
of them ends and the next begins.  A way to write is readable if what is written can be
told from whatever follows it; then so can a list of pieces that are written one after the
other.
-/

/-- What is written can be told from what follows it. -/
def Readable {α χ : Type*} (S : Set α) (write : α → List χ) : Prop :=
  ∀ ⦃a⦄, a ∈ S → ∀ ⦃b⦄, b ∈ S → ∀ r s, write a ++ r = write b ++ s → a = b ∧ r = s

namespace Readable

variable {α χ : Type*} {S : Set α} {write : α → List χ} {k : ℕ}

/-- Texts of one length. -/
theorem of_length (hinj : S.InjOn write) (hlen : ∀ a ∈ S, (write a).length = k) :
    Readable S write := by
  intro a ha b hb r s h
  obtain ⟨hab, hrs⟩ := List.append_inj h ((hlen a ha).trans (hlen b hb).symm)
  exact ⟨hinj ha hb hab, hrs⟩

/-- Texts that end where a character follows that is in none of them. -/
theorem append_stop {p : χ → Bool} {ds ds' r s : List χ} {c d : χ} (hds : ∀ x ∈ ds, p x = true)
    (hds' : ∀ x ∈ ds', p x = true) (hc : p c = false) (hd : p d = false)
    (h : ds ++ c :: r = ds' ++ d :: s) : ds = ds' ∧ c :: r = d :: s := by
  have hstop : ∀ {c : χ} (r : List χ), p c = false → (c :: r).takeWhile p = [] := by
    intro c r hc
    rw [List.takeWhile_cons, hc]
    rfl
  have htake := congrArg (List.takeWhile p) h
  rw [List.takeWhile_append_of_pos hds, List.takeWhile_append_of_pos hds', hstop r hc, hstop s hd,
    List.append_nil, List.append_nil] at htake
  subst htake
  exact ⟨rfl, List.append_cancel_left h⟩

/-- A list of pieces can be read back piece by piece. -/
theorem flatMap (h : Readable S write) (hne : ∀ a ∈ S, write a ≠ []) :
    Set.InjOn (List.flatMap write) {l | ∀ a ∈ l, a ∈ S} := by
  intro l hl
  induction l with
  | nil =>
    intro l' hl' heq
    cases l' with
    | nil => rfl
    | cons b l' =>
      rw [List.flatMap_cons] at heq
      exact absurd (List.append_eq_nil_iff.mp heq.symm).1 (hne b (hl' b List.mem_cons_self))
  | cons a l ih =>
    intro l' hl' heq
    cases l' with
    | nil =>
      rw [List.flatMap_cons] at heq
      exact absurd (List.append_eq_nil_iff.mp heq).1 (hne a (hl a List.mem_cons_self))
    | cons b l' =>
      rw [List.flatMap_cons, List.flatMap_cons] at heq
      obtain ⟨rfl, hrest⟩ :=
        h (hl a List.mem_cons_self) (hl' b List.mem_cons_self) _ _ heq
      rw [ih (fun c hc ↦ hl c (List.mem_cons_of_mem a hc))
        (fun c hc ↦ hl' c (List.mem_cons_of_mem a hc)) hrest]

end Readable
