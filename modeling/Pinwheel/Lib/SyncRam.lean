import Mathlib.Logic.Function.Basic
import Mathlib.Tactic.SplitIfs

/-!
# Synchronous memories

A memory with a read port behind a latch and a write port, both served in every clock.
Such memories agree on what is in their cells, and on what they read of a cell that is not
written in that clock.  On what they read of the cell that is written they do not: a
`ReadPort` says what it is.
-/

universe u v w

variable {κ : Type u} {α : Type v} {β : Type w}

/-- What is read of the cell that a write names, from what the cell has, what the write
carries, and whether it is enabled. -/
abbrev ReadPort (α : Type v) := α → α → Bool → α

namespace ReadPort

/-- What the cell has. -/
def old : ReadPort α := fun stored _ _ ↦ stored

/-- What the cell will have. -/
def new : ReadPort α := fun stored written en ↦ if en then written else stored

/-- What the write carries, enabled or not. -/
def bypass : ReadPort α := fun _ written _ ↦ written

/-- The port does not confuse the parts of a word. -/
def Parts (f : α → β) (p : ReadPort α) (q : ReadPort β) : Prop :=
  ∀ stored written en, f (p stored written en) = q (f stored) (f written) en

theorem parts_old (f : α → β) : Parts f old old := fun _ _ _ ↦ rfl

end ReadPort

/-- The cells, and the latch of the read port. -/
structure SyncRam (κ : Type u) (α : Type v) where
  cells : κ → α
  out : α

namespace SyncRam

variable [DecidableEq κ] (p : ReadPort α) (r : SyncRam κ α) (raddr waddr : κ) (data : α)
  (en : Bool)

/-- One clock. -/
def tick : SyncRam κ α where
  cells := if en then Function.update r.cells waddr data else r.cells
  out := if raddr = waddr then p (r.cells raddr) data en else r.cells raddr

/-- A memory whose words are seen through a function. -/
def map (f : α → β) : SyncRam κ β := ⟨f ∘ r.cells, f r.out⟩

/-- Two memories side by side. -/
def beside (l : SyncRam κ β) : SyncRam κ (α × β) :=
  ⟨fun k ↦ (r.cells k, l.cells k), (r.out, l.out)⟩

variable {p r raddr waddr data en}

theorem tick_map {f : α → β} {q : ReadPort β} (h : ReadPort.Parts f p q) :
    (r.tick p raddr waddr data en).map f = (r.map f).tick q raddr waddr (f data) en := by
  have hcells : f ∘ (r.tick p raddr waddr data en).cells =
      if en then Function.update (f ∘ r.cells) waddr (f data) else f ∘ r.cells := by
    unfold tick
    cases en
    · rfl
    · exact Function.comp_update f r.cells waddr data
  have hout : f (r.tick p raddr waddr data en).out =
      if raddr = waddr then q (f (r.cells raddr)) (f data) en else f (r.cells raddr) := by
    unfold tick
    dsimp only
    split_ifs
    · exact h _ _ _
    · rfl
  rw [map, hcells, hout]
  rfl

/-- Memories with the same ports, side by side, are one memory. -/
theorem tick_beside {l : SyncRam κ β} {q : ReadPort β} {data' : β} :
    (r.tick p raddr waddr data en).beside (l.tick q raddr waddr data' en) =
      (r.beside l).tick (fun s w e ↦ (p s.1 w.1 e, q s.2 w.2 e)) raddr waddr (data, data') en := by
  unfold beside tick
  dsimp only
  congr 1
  · cases en
    · rfl
    · funext k
      by_cases hk : k = waddr
      · subst hk
        simp
      · simp [hk]
  · split_ifs <;> rfl

end SyncRam
