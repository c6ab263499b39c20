import Mathlib.Data.List.Basic

/-!
# Runs of clocked machines

A clocked machine is a step function `ι → σ → σ`; `ι` is what it receives from
outside in one clock.  `run` is the sequence of its states under an infinite
schedule of inputs.  The rules below reduce a statement about every run to one
about a single clock.

Many machines do something only in some clocks.  What such a machine does is a
sequence `ℕ → Option α`, and `emitted` lists the values of its first `n` clocks.

A machine that can refuse a clock has a step function into `Option (σ × Option α)`, and
`tryRun` is its state after some clocks, with all that it has put out, if it has refused
none of them.
-/

namespace Clocked

universe u v w x

variable {σ : Type u} {τ : Type u} {ι : Type v} {α : Type w} {β : Type x}

/-- The state after `n` clocks. -/
def run (step : ι → σ → σ) (inputs : ℕ → ι) (s : σ) : ℕ → σ
  | 0 => s
  | n + 1 => step (inputs n) (run step inputs s n)

section Run

variable {step : ι → σ → σ} {inputs : ℕ → ι} {s : σ}

theorem run_succ (n : ℕ) :
    run step inputs s (n + 1) = step (inputs n) (run step inputs s n) := rfl

/-- A run goes on from where it was. -/
theorem run_add (m n : ℕ) :
    run step inputs s (m + n) = run step (fun i ↦ inputs (m + i)) (run step inputs s m) n := by
  induction n with
  | zero => rfl
  | succ n ih => rw [← Nat.add_assoc, run_succ, run_succ, ih]

/-- A property that holds at the start and is kept by every clock holds throughout
the run. -/
theorem run_invariant {P : σ → Prop} (h0 : P s) (hstep : ∀ i s, P s → P (step i s)) (n : ℕ) :
    P (run step inputs s n) := by
  induction n with
  | zero => exact h0
  | succ n ih => exact hstep (inputs n) _ ih

end Run

/-! ## Runs that can be refused -/

/-- The state after `n` clocks, with all that they put out. -/
def tryRun (step : ℕ → σ → Option (σ × Option α)) : ℕ → σ → Option (σ × List α)
  | 0, s => some (s, [])
  | n + 1, s => (tryRun step n s).bind fun r ↦ (step n r.1).map fun q ↦ (q.1, r.2 ++ q.2.toList)

section TryRun

variable {step : ℕ → σ → Option (σ × Option α)} {s t : σ} {n : ℕ} {out : List α}

theorem tryRun_succ_of_step {u : σ} {o : Option α} (hrun : tryRun step n s = some (t, out))
    (hstep : step n t = some (u, o)) : tryRun step (n + 1) s = some (u, out ++ o.toList) := by
  rw [tryRun, hrun, Option.bind_some, hstep]
  rfl

/-- The last clock of a run. -/
theorem step_of_tryRun_succ (hrun : tryRun step (n + 1) s = some (t, out)) :
    ∃ u out' o, tryRun step n s = some (u, out') ∧ step n u = some (t, o) ∧
      out = out' ++ o.toList := by
  obtain ⟨⟨u, out'⟩, hbefore, hlast⟩ := Option.bind_eq_some_iff.mp hrun
  obtain ⟨⟨t', o⟩, hstep, heq⟩ := Option.map_eq_some_iff.mp hlast
  cases heq
  exact ⟨u, out', o, hbefore, hstep, rfl⟩

theorem exists_tryRun_of_le {m : ℕ} (h : m ≤ n) {r : σ × List α}
    (hrun : tryRun step n s = some r) : ∃ r', tryRun step m s = some r' := by
  induction n generalizing r with
  | zero => exact ⟨r, by rw [Nat.le_zero.mp h, hrun]⟩
  | succ n ih =>
    obtain ⟨u, out', -, hbefore, -, -⟩ := step_of_tryRun_succ hrun
    rcases Nat.lt_or_ge n m with hn | hn
    · exact ⟨r, by rw [Nat.le_antisymm h hn, hrun]⟩
    · exact ih hn hbefore

end TryRun

/-! ## Emitted values -/

/-- The values of the first `n` clocks. -/
def emitted (e : ℕ → Option α) : ℕ → List α
  | 0 => []
  | n + 1 => emitted e n ++ (e n).toList

section Emitted

variable {e f : ℕ → Option α}

theorem emitted_succ (n : ℕ) : emitted e (n + 1) = emitted e n ++ (e n).toList := rfl

theorem emitted_succ_none {n : ℕ} (h : e n = none) : emitted e (n + 1) = emitted e n := by
  rw [emitted_succ, h, Option.toList_none, List.append_nil]

theorem emitted_succ_some {n : ℕ} {a : α} (h : e n = some a) :
    emitted e (n + 1) = emitted e n ++ [a] := by
  rw [emitted_succ, h, Option.toList_some]

theorem emitted_add (m n : ℕ) :
    emitted e (m + n) = emitted e m ++ emitted (fun i ↦ e (m + i)) n := by
  induction n with
  | zero => exact (List.append_nil _).symm
  | succ n ih => rw [← Nat.add_assoc, emitted_succ, emitted_succ, ih, List.append_assoc]

theorem emitted_cons (n : ℕ) :
    emitted e (n + 1) = (e 0).toList ++ emitted (fun i ↦ e (i + 1)) n := by
  rw [Nat.add_comm, emitted_add]
  congr 2
  funext i
  rw [Nat.add_comm]

theorem mem_emitted {n : ℕ} {a : α} : a ∈ emitted e n ↔ ∃ m < n, e m = some a := by
  induction n with
  | zero => exact ⟨fun h ↦ (nomatch h), fun ⟨_, h, _⟩ ↦ absurd h (Nat.not_lt_zero _)⟩
  | succ n ih =>
    rw [emitted_succ, List.mem_append, ih, Option.mem_toList]
    constructor
    · rintro (⟨m, hm, he⟩ | he)
      · exact ⟨m, Nat.lt_succ_of_lt hm, he⟩
      · exact ⟨n, Nat.lt_succ_self n, he⟩
    · rintro ⟨m, hm, he⟩
      rcases Nat.lt_succ_iff_lt_or_eq.mp hm with hlt | rfl
      · exact .inl ⟨m, hlt, he⟩
      · exact .inr he

/-- A sequence that takes the steps of a run, as long as something holds of it, is the run. -/
theorem eq_of_tryRun {step : ℕ → σ → Option (σ × Option α)} {P : ℕ → Prop} {f : ℕ → σ} {n : ℕ}
    {t : σ} {out : List α} (h0 : P 0)
    (hstep : ∀ m < n, P m → ∀ u o, step m (f m) = some (u, o) →
      P (m + 1) ∧ f (m + 1) = u ∧ e m = o)
    (hrun : tryRun step n (f 0) = some (t, out)) : P n ∧ f n = t ∧ emitted e n = out := by
  induction n generalizing t out with
  | zero =>
    cases hrun
    exact ⟨h0, rfl, rfl⟩
  | succ n ih =>
    obtain ⟨u, out', o, hbefore, hlast, rfl⟩ := step_of_tryRun_succ hrun
    obtain ⟨hn, rfl, rfl⟩ := ih (fun m hm ↦ hstep m (Nat.lt_succ_of_lt hm)) hbefore
    obtain ⟨hnext, hf, ho⟩ := hstep n (Nat.lt_succ_self n) hn t o hlast
    exact ⟨hnext, hf, by rw [emitted_succ, ho]⟩

theorem emitted_congr {n : ℕ} (h : ∀ m < n, e m = f m) : emitted e n = emitted f n := by
  induction n with
  | zero => rfl
  | succ n ih =>
    rw [emitted_succ, emitted_succ, ih fun m hm ↦ h m (Nat.lt_succ_of_lt hm),
      h n (Nat.lt_succ_self n)]

theorem emitted_bind (g : α → Option β) (n : ℕ) :
    emitted (fun m ↦ (e m).bind g) n = (emitted e n).filterMap g := by
  induction n with
  | zero => rfl
  | succ n ih =>
    rw [emitted_succ, emitted_succ, List.filterMap_append, ih]
    cases e n with
    | none => rfl
    | some a => cases h : g a <;> simp [h]

/-- Values of some clocks, if the others have nothing to select. -/
theorem filterMap_emitted {g : α → Option β} {p : ℕ → Prop} [DecidablePred p] {n : ℕ}
    (h : ∀ m < n, ¬p m → ∀ a ∈ e m, g a = none) :
    (emitted e n).filterMap g = (emitted (fun m ↦ if p m then e m else none) n).filterMap g := by
  rw [← emitted_bind, ← emitted_bind]
  refine emitted_congr fun m hm ↦ ?_
  by_cases hp : p m
  · rw [if_pos hp]
  · rw [if_neg hp]
    exact Option.bind_eq_none_iff.mpr (h m hm hp)

/-- A machine that changes with the emitted values only. -/
theorem foldl_emitted {f : σ → α → σ} {s : ℕ → σ}
    (h : ∀ n, s (n + 1) = (e n).toList.foldl f (s n)) (n : ℕ) :
    s n = (emitted e n).foldl f (s 0) := by
  induction n with
  | zero => rfl
  | succ n ih => rw [h, emitted_succ, List.foldl_append, ← ih]

/-- A sequence that repeats another one `d` clocks later, and is silent before,
has emitted at any time what the other had emitted `d` clocks before. -/
theorem emitted_delay {d : ℕ} (hlt : ∀ n < d, f n = none) (h : ∀ n, f (n + d) = e n) (n : ℕ) :
    emitted f n = emitted e (n - d) := by
  induction n with
  | zero => rw [Nat.zero_sub]; rfl
  | succ n ih =>
    rcases Nat.lt_or_ge n d with hn | hn
    · rw [emitted_succ_none (hlt n hn), ih, Nat.sub_eq_zero_of_le (Nat.le_of_lt hn),
        Nat.sub_eq_zero_of_le hn]
    · obtain ⟨m, rfl⟩ := Nat.exists_eq_add_of_le' hn
      rw [emitted_succ, h, ih, Nat.add_sub_cancel, Nat.succ_sub hn, Nat.add_sub_cancel,
        emitted_succ]

/-- A sequence that comes closer to its next value in every silent clock has a
next value. -/
theorem exists_emit (μ : ℕ → ℕ) {n : ℕ}
    (h : ∀ m ≥ n, emitted e m = emitted e n → e m = none → μ (m + 1) < μ m) :
    ∃ m ≥ n, emitted e m = emitted e n ∧ (e m).isSome := by
  induction hμ : μ n using Nat.strongRecOn generalizing n with
  | _ k ih =>
    cases he : e n with
    | some a => exact ⟨n, Nat.le_refl n, rfl, by rw [he]; rfl⟩
    | none =>
      have hsame : emitted e (n + 1) = emitted e n := emitted_succ_none he
      have hlt := h n (Nat.le_refl n) rfl he
      obtain ⟨m, hm, heq, hs⟩ := ih (μ (n + 1)) (hμ ▸ hlt)
        (fun m hm heq ↦ h m (Nat.le_of_succ_le hm) (heq.trans hsame)) rfl
      exact ⟨m, Nat.le_of_succ_le hm, heq.trans hsame, hs⟩

/-- A sequence that comes closer to its next value in every silent clock, and is never
more than `b` clocks away from it, takes at most `b + 1` clocks for each of its first `k`
values. -/
theorem le_length_emitted (μ : ℕ → ℕ) {b k : ℕ} (hμ : ∀ m, μ m ≤ b)
    (h : ∀ m, (emitted e m).length < k → e m = none → μ (m + 1) < μ m) :
    k ≤ (emitted e (k * (b + 1))).length := by
  -- The clocks so far: `b + 1` for each value, and those since the last one.
  have hclocks : ∀ n, (emitted e n).length < k →
      n ≤ (emitted e n).length * (b + 1) + (b - μ n) := by
    intro n
    induction n with
    | zero => exact fun _ ↦ Nat.zero_le _
    | succ n ih =>
      intro hlt
      cases he : e n with
      | none =>
        rw [emitted_succ_none he] at hlt ⊢
        have hcloser := h n hlt he
        have hbound := hμ n
        have hn := ih hlt
        omega
      | some a =>
        rw [emitted_succ_some he, List.length_append, List.length_singleton] at hlt ⊢
        have hn := ih (Nat.lt_of_succ_lt hlt)
        rw [Nat.succ_mul]
        omega
  by_contra hlt
  rw [Nat.not_le] at hlt
  have hn := hclocks _ hlt
  have hle : ((emitted e (k * (b + 1))).length + 1) * (b + 1) ≤ k * (b + 1) :=
    Nat.mul_le_mul_right _ hlt
  rw [Nat.succ_mul] at hle
  omega

/-- A sequence that is silent whenever another one is emits no more values. -/
theorem emitted_length_le {n : ℕ} (h : ∀ m < n, (e m).isSome → (f m).isSome) :
    (emitted e n).length ≤ (emitted f n).length := by
  induction n with
  | zero => exact Nat.le_refl _
  | succ n ih =>
    have hn := h n (Nat.lt_succ_self n)
    rw [emitted_succ, emitted_succ, List.length_append, List.length_append]
    refine Nat.add_le_add (ih fun m hm ↦ h m (Nat.lt_succ_of_lt hm)) ?_
    cases he : e n with
    | none => exact Nat.zero_le _
    | some a =>
      obtain ⟨b, hb⟩ := Option.isSome_iff_exists.mp (hn (by rw [he]; rfl))
      rw [hb]
      exact Nat.le_refl _

end Emitted

end Clocked
