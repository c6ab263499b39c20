import Pinwheel.Pipeline.Rv32i

/-!
# The requests of the core

What `tools/tilelink.h` asks of a request, for an access of some width, and which
of the loads and stores `gen_bus` turns into such a request.
-/

namespace Pinwheel

open RV32I

/-- The width of the access that a load or store makes. -/
def accessOf (op : BitVec 7) (f3 : BitVec 3) : Option Rv32i.Width :=
  if op = opLoad then (Rv32i.loadOf f3).map Prod.fst
  else if op = opStore then Rv32i.storeOf f3
  else none

/-- The address is a multiple of the width. -/
def Aligned (w : Rv32i.Width) (a : BitVec 32) : Prop := a.toNat % w.bytes = 0

instance (w : Rv32i.Width) (a : BitVec 32) : Decidable (Aligned w a) :=
  inferInstanceAs (Decidable (_ = _))

/-- A request for an access of a given width, as `tools/tilelink.h` has it. -/
structure TilelinkA.Asks (tla : TilelinkA) (op : BitVec 7) (w : Rv32i.Width)
    (a v : BitVec 32) : Prop where
  valid : tla.aValid = true
  address : tla.aAddress = a
  size : 2 ^ tla.aSize.toNat = w.bytes
  mask : ∀ l < 4, tla.aMask.getLsbD l = decide (lane a ≤ l ∧ l < lane a + w.bytes)
  get : op = opLoad → tla.aOpcode = TL.get
  put : op = opStore → tla.aOpcode = TL.putFullData ∨ tla.aOpcode = TL.putPartialData
  /-- Each selected lane carries the byte that is stored there. -/
  data : op = opStore → ∀ l < 4, tla.aMask.getLsbD l = true →
    tla.aData.extractLsb' (8 * l) 8 = v.extractLsb' (8 * (l - lane a)) 8

/-- The request is the one that an opcode, `funct3`, address and value ask for. -/
def TilelinkA.Conforms (tla : TilelinkA) (op : BitVec 7) (f3 : BitVec 3) (a v : BitVec 32) :
    Prop :=
  (∀ w, accessOf op f3 = some w → Aligned w a → tla.Asks op w a v) ∧
    (op ≠ opLoad → op ≠ opStore → tla.aValid = false)

/-- An aligned `LBU` or `LHU`. -/
def UnsignedLoad (op : BitVec 7) (f3 : BitVec 3) (a : BitVec 32) : Prop :=
  op = opLoad ∧ (f3 = f3Lbu ∨ f3 = f3Lhu ∧ Aligned .half a)

namespace Requests

variable {dc : DontCare} {op : BitVec 7} {f3 : BitVec 3} {a v : BitVec 32} {w : Rv32i.Width}

/-! ## Sizes that `gen_bus` knows -/

theorem aSize_genBus (hw : Rv32i.storeOf f3 = some w) :
    2 ^ (genBus dc op f3 a v).aSize.toNat = w.bytes := by
  obtain ⟨rfl, rfl⟩ | ⟨rfl, rfl⟩ | ⟨rfl, rfl⟩ := Rv32i.eq_of_storeOf hw <;> rfl

theorem aOpcode_genBus_store :
    (genBus dc opStore f3 a v).aOpcode = TL.putFullData ∨
      (genBus dc opStore f3 a v).aOpcode = TL.putPartialData := by
  have hop : (genBus dc opStore f3 a v).aOpcode =
      if (genBus dc opStore f3 a v).aSize = 2#3 then TL.putFullData else TL.putPartialData := rfl
  rw [hop]
  split_ifs
  · exact .inl rfl
  · exact .inr rfl

/-- An access of a size that `gen_bus` knows is asked for as it should be. -/
theorem asks_genBus (hop : op = opLoad ∨ op = opStore) (hw : Rv32i.storeOf f3 = some w) :
    (genBus dc op f3 a v).Asks op w a v where
  valid := by
    rcases hop with rfl | rfl <;> rfl
  address := rfl
  size := aSize_genBus hw
  mask l hl := by rw [aMask_genBus hw, getLsbD_busMask w hl]
  get h := by
    subst h
    rfl
  put h := by
    subst h
    exact aOpcode_genBus_store
  data _ l hl hm := by
    rw [aMask_genBus hw, getLsbD_busMask w hl] at hm
    rw [aData_genBus]
    exact extract_shiftLeft v (of_decide_eq_true hm).1 hl

/-! ## Sizes that it does not -/

theorem aMask_genBus_eq_zero (h : Rv32i.storeOf f3 = none) :
    (genBus dc op f3 a v).aMask = 0#4 := by
  unfold Rv32i.storeOf at h
  split_ifs at h with h0 h1 h2
  unfold genBus
  dsimp only
  rw [if_neg h0, if_neg h1, if_neg h2]
  cases a.getLsbD 0 <;> cases a.getLsbD 1 <;> rfl

/-- No access is asked for without a lane. -/
theorem not_asks_genBus (h : Rv32i.storeOf f3 = none) : ¬(genBus dc op f3 a v).Asks op w a v := by
  intro hasks
  have hmask := hasks.mask (lane a) (lane_lt a)
  rw [aMask_genBus_eq_zero h, BitVec.getLsbD_zero] at hmask
  have hbytes : 0 < w.bytes := by cases w <;> decide
  exact of_decide_eq_false hmask.symm ⟨Nat.le_refl _, Nat.lt_add_of_pos_right hbytes⟩

theorem loadOf_cases {signed : Bool} (h : Rv32i.loadOf f3 = some (w, signed)) :
    Rv32i.storeOf f3 = some w ∨
      Rv32i.storeOf f3 = none ∧ (f3 = f3Lbu ∧ w = .byte ∨ f3 = f3Lhu ∧ w = .half) := by
  obtain ⟨hs, -⟩ | ⟨rfl, rfl, -⟩ | ⟨rfl, rfl, -⟩ := Rv32i.eq_of_loadOf h
  · exact .inl hs
  · exact .inr ⟨rfl, .inl ⟨rfl, rfl⟩⟩
  · exact .inr ⟨rfl, .inr ⟨rfl, rfl⟩⟩

theorem accessOf_cases (h : accessOf op f3 = some w) :
    (op = opLoad ∨ op = opStore) ∧ (Rv32i.storeOf f3 = some w ∨
      Rv32i.storeOf f3 = none ∧ op = opLoad ∧
        (f3 = f3Lbu ∧ w = .byte ∨ f3 = f3Lhu ∧ w = .half)) := by
  unfold accessOf at h
  split_ifs at h with hl hs
  · obtain ⟨⟨w', signed⟩, hload, rfl⟩ := Option.map_eq_some_iff.mp h
    exact ⟨.inl hl, (loadOf_cases hload).imp id fun hu ↦ ⟨hu.1, hl, hu.2⟩⟩
  · exact ⟨.inr hs, .inl h⟩

/-- `gen_bus` makes a well-formed request of everything but an unsigned load. -/
theorem conforms_genBus_iff (dc : DontCare) (op : BitVec 7) (f3 : BitVec 3) (a v : BitVec 32) :
    (genBus dc op f3 a v).Conforms op f3 a v ↔ ¬UnsignedLoad op f3 a := by
  constructor
  · rintro ⟨hasks, -⟩ ⟨rfl, rfl | ⟨rfl, ha⟩⟩
    · exact not_asks_genBus rfl (hasks .byte rfl (Nat.mod_one _))
    · exact not_asks_genBus rfl (hasks .half rfl ha)
  · refine fun h ↦ ⟨fun w hw ha ↦ ?_, fun hl hs ↦ ?_⟩
    · obtain ⟨hop, hs | ⟨-, hl, ⟨hf, rfl⟩ | ⟨hf, rfl⟩⟩⟩ := accessOf_cases hw
      · exact asks_genBus hop hs
      · exact absurd ⟨hl, .inl hf⟩ h
      · exact absurd ⟨hl, .inr ⟨hf, ha⟩⟩ h
    · have hvalid : (genBus dc op f3 a v).aValid = (op == opLoad || op == opStore) := rfl
      rw [hvalid, beq_eq_false_iff_ne.mpr hl, beq_eq_false_iff_ne.mpr hs, Bool.or_self]

/-- An `LBU` of the first byte of the data RAM selects no lane. -/
theorem lbu_not_conforms :
    ¬(genBus (.const 0#32) opLoad f3Lbu 0x80000000#32 0#32).Conforms opLoad f3Lbu 0x80000000#32
      0#32 := by
  intro h
  have hmask := (h.1 .byte (by decide) (by decide)).mask 0 (by decide)
  exact absurd hmask (by decide)

end Requests

end Pinwheel
