import Pinwheel.Pipeline.Switch
import Pinwheel.Soc.Reachable

/-!
# Inactive slots

Stage B sends its instruction to the data bus without a look at the active bit.  It
is harmless because an inactive slot holds the empty instruction, which is neither a
load nor a store.
-/

namespace Pinwheel

open RV32I

namespace Soc

variable {cb db : ℕ} {dc : DontCare} {s : Soc cb db}

/-- An inactive slot holds the empty instruction in the stages that have one. -/
structure Hollow (s : Soc cb db) : Prop where
  bInsn : s.core.bHpc.active = false → s.core.bInsn = ⟨0#32⟩
  cInsn : s.core.cHpc.active = false → s.core.cInsn = ⟨0#32⟩

theorem Constructed.hollow (h : s.Constructed) : s.Hollow :=
  ⟨fun _ ↦ h.bInsn, fun _ ↦ h.cInsn⟩

theorem hollow_reset (dc : DontCare) (s : Soc cb db) : (s.tock dc true).Hollow :=
  ⟨fun _ ↦ rfl, fun _ ↦ rfl⟩

/-- Every way into a slot empties its instruction if the slot is inactive. -/
theorem Hollow.tock (h : s.Hollow) (dc : DontCare) : (s.tock dc false).Hollow where
  bInsn := Core.abInsn_of_idle
  cInsn := h.bInsn

theorem Reachable.hollow (h : s.Reachable) : s.Hollow := by
  induction h with
  | construct hs => exact hs.hollow
  | reset dc s => exact hollow_reset dc s
  | tock dc _ ih => exact ih.tock dc

/-- What an inactive stage B does to the rest in a tock. -/
structure IdleB (dc : DontCare) (reset : Bool) (s : Soc cb db) : Prop where
  insn : s.core.bInsn = ⟨0#32⟩
  request : (s.tock dc reset).core.dataTla.aValid = false
  dataRam : (s.tock dc reset).dataRam.ram.ram = s.dataRam.ram.ram
  noYield : s.core.bcYield = false
  /-- Only a swap of the other thread puts an active thread into the slot. -/
  successor : (s.core.baHpc dc s.coreIn).active = true →
    s.core.cHpc.active = true ∧ s.core.cInsn.isCsrrw csrSwap = true

/-- What an inactive stage C does to the rest in a tock. -/
structure IdleC (dc : DontCare) (reset : Bool) (s : Soc cb db) : Prop where
  insn : s.core.cInsn = ⟨0#32⟩
  noSwap : s.core.cdSwap = false
  noYield : s.core.cdYield = false
  noWrite : s.core.cdWren = false
  /-- The write enable stays low when stage D puts it on the register file's port. -/
  port : ∀ dc' reset', ((s.tock dc reset).tock dc' reset').core.regIf.wren = false
  noWriteCode : s.core.cdWriteCode = false
  codeRam : (s.tock dc reset).codeRam.ram.ram = s.codeRam.ram.ram

/-- The empty instruction is no request. -/
theorem Hollow.idleB (h : s.Hollow) (hb : s.core.bHpc.active = false) (dc : DontCare)
    (reset : Bool) : s.IdleB dc reset := by
  have hinsn := h.bInsn hb
  have hvalid : (s.core.nextDataTla dc s.coreIn).aValid = false := by
    rw [Core.nextDataTla, hinsn]
    rfl
  constructor
  · exact hinsn
  · exact hvalid
  · rw [dataRam_tock, TilelinkA.store, if_neg]
    rintro ⟨hsel, -⟩
    rw [TilelinkA.selects, hvalid, Bool.false_and] at hsel
    exact Bool.false_ne_true hsel
  · exact Core.bcYield_of_idle hb
  · intro hact
    rw [← cdSwap_iff, ← Bool.not_eq_false]
    intro hs
    exact absurd (hb.symm.trans (Core.active_of_baHpc hs hact)) Bool.false_ne_true

theorem Hollow.idleC (h : s.Hollow) (hc : s.core.cHpc.active = false) (dc : DontCare)
    (reset : Bool) : s.IdleC dc reset := by
  have hwren : s.core.cdWren = false := @en_cdWrite _ _ dc _ hc
  have hwrite : s.core.cdWriteCode = false := Core.access_of_idle hc
  constructor
  · exact h.cInsn hc
  · exact Core.cdSwap_of_idle hc
  · rw [Core.cdYield, hc, Bool.false_and]
  · exact hwren
  · intro dc' reset'
    have hport : ((s.tock dc reset).tock dc' reset').core.regIf.wren =
        if reset then false else s.core.cdWren := rfl
    rw [hport, hwren, ite_self]
  · exact hwrite
  · exact codeRam_tock reset fun _ ↦ hwrite

/-- **An inactive slot is inert**, in every reachable state and for every tock. -/
theorem idle_inert (h : s.Reachable) (dc : DontCare) (reset : Bool) :
    (s.core.bHpc.active = false → s.IdleB dc reset) ∧
      (s.core.cHpc.active = false → s.IdleC dc reset) :=
  ⟨fun hb ↦ h.hollow.idleB hb dc reset, fun hc ↦ h.hollow.idleC hc dc reset⟩

/-- The two empty slots of a core that is as it was built, or has just been reset. -/
theorem idle_inert_blank :
    let dc := DontCare.const 0#32
    let s : Soc 1 1 := blank fun _ ↦ 0x0000006F#32
    (s.IdleB dc false ∧ s.IdleC dc false) ∧
      (s.tock dc true).IdleB dc false ∧ (s.tock dc true).IdleC dc false := by
  intro dc s
  obtain ⟨hb, hc⟩ := idle_inert (.construct (constructed_blank _)) dc false
  obtain ⟨hb', hc'⟩ := idle_inert (.reset dc s) dc false
  exact ⟨⟨hb rfl, hc rfl⟩, hb' rfl, hc' rfl⟩

end Soc

end Pinwheel
