import Mathlib.Tactic.IntervalCases
import Mathlib.Tactic.SplitIfs
import Pinwheel.Core.Signals
import Pinwheel.Soc.Run

/-!
# The buses of the SoC

Every slave decodes the address for itself, so a request is answered by at most
one of them because their address ranges are disjoint.  Here is what one request
does to the two RAMs, and whose answer the core reads in the next tock.
-/

namespace Pinwheel

/-! ## Address decoding -/

namespace Core

theorem page_and (a b : BitVec 32) : page (a &&& b) = page a &&& page b :=
  BitVec.extractLsb'_and

/-- A mask that covers the top nibble leaves the page of an address. -/
theorem page_of_selects {tla : TilelinkA} {mask tag : BitVec 32} (hm : page mask = 0xF#4)
    (h : tla.selects mask tag = true) : page tla.aAddress = page tag := by
  rw [TilelinkA.selects, Bool.and_eq_true, beq_iff_eq] at h
  have hpage := congrArg page h.2
  rwa [page_and, hm, show (0xF#4) = BitVec.allOnes 4 from rfl, BitVec.and_allOnes] at hpage

/-- The mask of the two RAMs and of the debug register keeps the page only. -/
theorem and_pageMask (a : BitVec 32) : a &&& 0xF0000000#32 = page a ++ 0#28 := by
  refine BitVec.eq_of_getLsbD_eq fun i hi ↦ ?_
  rw [BitVec.getLsbD_and, BitVec.getLsbD_append]
  interval_cases i <;> simp [page]

theorem selects_pageMask {tla : TilelinkA} {tag : BitVec 32} (hv : tla.aValid = true)
    (ht : page tla.aAddress ++ 0#28 = tag) : tla.selects 0xF0000000#32 tag = true := by
  rw [TilelinkA.selects, hv, and_pageMask, ht, Bool.true_and, beq_self_eq_true]

end Core

/-! ## RAM -/

@[simp] theorem mergeLanes_zero (old wdata : BitVec 32) : mergeLanes old wdata 0#4 = old := by
  rw [mergeLanes, show laneMask 0#4 = 0#32 from rfl, BitVec.and_zero, BitVec.not_zero,
    BitVec.and_allOnes, BitVec.zero_or]

namespace BlockRam

variable {bits : Nat} (r : BlockRam bits)

@[simp] theorem rdata_tock (addr : BitVec bits) (wdata : BitVec 32) (wmask : BitVec 4) :
    (r.tock addr wdata wmask).rdata = r.ram addr := by
  unfold tock
  split_ifs <;> rfl

theorem ram_tock (addr : BitVec bits) (wdata : BitVec 32) (wmask : BitVec 4) :
    (r.tock addr wdata wmask).ram =
      Function.update r.ram addr (mergeLanes (r.ram addr) wdata wmask) := by
  unfold tock
  split_ifs with h
  · rw [h, mergeLanes_zero, Function.update_eq_self]
  · rfl

end BlockRam

/-- The words of a RAM after a request. -/
def TilelinkA.store {bits : Nat} (tla : TilelinkA) (mask tag : BitVec 32)
    (ram : BitVec bits → BitVec 32) : BitVec bits → BitVec 32 :=
  if tla.selects mask tag ∧ tla.isPut then
    Function.update ram (wordIndex bits tla.aAddress)
      (mergeLanes (ram (wordIndex bits tla.aAddress)) tla.aData tla.aMask)
  else ram

namespace BusRam

variable {bits : Nat} (r : BusRam bits) (mask tag : BitVec 32) (tla : TilelinkA)

/-- A RAM reads whatever it is asked for. -/
@[simp] theorem rdata_tockB :
    (r.tockB mask tag tla).ram.rdata = r.ram.ram (wordIndex bits tla.aAddress) :=
  BlockRam.rdata_tock _ _ _ _

theorem ram_tockB : (r.tockB mask tag tla).ram.ram = tla.store mask tag r.ram.ram := by
  have htock : (r.tockB mask tag tla).ram.ram =
      (r.ram.tock (wordIndex bits tla.aAddress) tla.aData
        (if tla.selects mask tag ∧ tla.isPut then tla.aMask else 0#4)).ram := rfl
  rw [htock, BlockRam.ram_tock, TilelinkA.store]
  split_ifs
  · rfl
  · rw [mergeLanes_zero, Function.update_eq_self]

end BusRam

/-! ## Who answers -/

namespace UartTxTilelink

theorem selects_of_dValid {dc : DontCare} {mask tag : BitVec 32} {u : UartTxTilelink}
    {tla : TilelinkA} (h : (u.tick dc mask tag tla).dValid = true) :
    tla.selects mask tag = true := by
  unfold tick at h
  split_ifs at h <;> first | assumption | exact absurd h Bool.false_ne_true

end UartTxTilelink

namespace UartRxTilelink

theorem selects_of_dValid {dc : DontCare} {mask tag : BitVec 32} {u : UartRxTilelink}
    {tla : TilelinkA} (h : (u.tick dc mask tag tla).dValid = true) :
    tla.selects mask tag = true := by
  unfold tick at h
  split at h
  · exact ‹_ ∧ _›.1
  · exact absurd h Bool.false_ne_true

end UartRxTilelink

namespace Soc

variable {cb db : Nat} {dc : DontCare} {s : Soc cb db} (reset : Bool)

theorem debug_dValid :
    (s.tock dc reset).debugReg.getTld.dValid =
      (s.core.nextDataTla dc s.coreIn).selects debugMask debugTag := rfl

theorem tx_dValid (h : (s.tock dc reset).uart0Tx.getTld.dValid = true) :
    (s.core.nextDataTla dc s.coreIn).selects txMask txTag = true :=
  UartTxTilelink.selects_of_dValid h

theorem rx_dValid (h : (s.tock dc reset).uart0Rx.getTld.dValid = true) :
    (s.core.nextDataTla dc s.coreIn).selects rxMask rxTag = true :=
  UartRxTilelink.selects_of_dValid h

/-- A request to the data RAM is answered by the data RAM. -/
theorem getDataTld_tock (h : Core.page (s.core.bcAddr dc s.coreIn) = 0x8#4) :
    (s.tock dc reset).getDataTld.dData =
      s.dataRam.ram.ram (wordIndex db (s.core.bcAddr dc s.coreIn)) := by
  have hmiss : ∀ {mask tag}, Core.page mask = 0xF#4 → Core.page tag ≠ 0x8#4 →
      (s.core.nextDataTla dc s.coreIn).selects mask tag = false := by
    intro mask tag hm ht
    rw [← Bool.not_eq_true]
    intro hs
    exact ht ((Core.page_of_selects hm hs).symm.trans h)
  have hdebug : (s.tock dc reset).debugReg.getTld.dValid = false := by
    rw [debug_dValid]
    exact hmiss rfl (by decide)
  have htx : (s.tock dc reset).uart0Tx.getTld.dValid = false := by
    rw [← Bool.not_eq_true]
    intro hv
    exact absurd ((hmiss rfl (by decide)).symm.trans (tx_dValid reset hv)) Bool.false_ne_true
  have hrx : (s.tock dc reset).uart0Rx.getTld.dValid = false := by
    rw [← Bool.not_eq_true]
    intro hv
    exact absurd ((hmiss rfl (by decide)).symm.trans (rx_dValid reset hv)) Bool.false_ne_true
  rw [getDataTld, hdebug, htx, hrx, if_neg Bool.false_ne_true, if_neg Bool.false_ne_true,
    if_neg Bool.false_ne_true]
  exact BusRam.rdata_tockB s.dataRam dataMask dataTag (s.core.nextDataTla dc s.coreIn)

/-- The data RAM after a tock. -/
theorem dataRam_tock :
    (s.tock dc reset).dataRam.ram.ram =
      (s.core.nextDataTla dc s.coreIn).store dataMask dataTag s.dataRam.ram.ram :=
  BusRam.ram_tockB _ _ _ _

/-! ## The code RAM -/

/-- Stage C does not take the code bus from an active thread. -/
theorem stealsCode_of_active (h : (s.core.baHpc dc s.coreIn).active = true) :
    s.core.stealsCode dc s.coreIn = false := by
  rw [Core.stealsCode, h, Bool.not_true, Bool.and_false]

theorem codeRam_rdata_tock : (s.tock dc reset).codeRam.ram.rdata =
    s.codeRam.ram.ram (wordIndex cb (s.core.nextCodeTla dc s.coreIn).aAddress) :=
  BusRam.rdata_tockB _ _ _ _

theorem codeRam_store_tock : (s.tock dc reset).codeRam.ram.ram =
    (s.core.nextCodeTla dc s.coreIn).store codeMask codeTag s.codeRam.ram.ram :=
  BusRam.ram_tockB _ _ _ _

/-- The next instruction is fetched in the tock that decides on it. -/
theorem fetch_tock (h : s.core.stealsCode dc s.coreIn = false) :
    (s.tock dc reset).codeRam.ram.rdata =
      s.codeRam.ram.ram (wordIndex cb ((s.core.baHpc dc s.coreIn).pc.setWidth 32)) := by
  rw [codeRam_rdata_tock, Core.nextCodeTla, h, if_neg Bool.false_ne_true]
  rfl

/-- Only a store of stage C that takes the code bus changes the code. -/
theorem codeRam_tock
    (h : s.core.stealsCode dc s.coreIn = true → s.core.cdWriteCode = false) :
    (s.tock dc reset).codeRam.ram.ram = s.codeRam.ram.ram := by
  have hget : (s.core.nextCodeTla dc s.coreIn).isPut = false := by
    unfold Core.nextCodeTla
    split_ifs with hs
    · have hload : s.core.cInsn.op = RV32I.opLoad := by
        have hread : s.core.cdReadCode = true := by
          have := hs
          rw [Core.stealsCode, h hs, Bool.or_false, Bool.and_eq_true] at this
          exact this.1
        rw [Core.cdReadCode, Bool.and_eq_true, Bool.and_eq_true, beq_iff_eq] at hread
        exact hread.1.2
      rw [hload]
      rfl
    · rfl
  rw [codeRam_store_tock, TilelinkA.store, hget, if_neg fun h ↦ Bool.false_ne_true h.2]

/-- An active thread that comes to stage A keeps the code as it is. -/
theorem codeRam_tock_of_active (h : (s.core.baHpc dc s.coreIn).active = true) :
    (s.tock dc reset).codeRam.ram.ram = s.codeRam.ram.ram :=
  codeRam_tock reset fun hs ↦ absurd ((stealsCode_of_active h).symm.trans hs) Bool.false_ne_true

/-! ## Programs of one kind -/

/-- Every instruction in the program and in the pipeline is of one kind. -/
structure Only (P : Insn → Prop) (s : Soc cb db) : Prop where
  code : ∀ a, P ⟨s.codeRam.ram.ram a⟩
  rdata : P ⟨s.codeRam.ram.rdata⟩
  bInsn : P s.core.bInsn
  cInsn : P s.core.cInsn

variable {P : Insn → Prop}

/-- A program without stores stays as it is. -/
theorem Only.tock (h : s.Only P) (hzero : P ⟨0#32⟩) (hstore : ∀ i, P i → i.op ≠ RV32I.opStore)
    (dc : DontCare) : (s.tock dc reset).Only P := by
  have hwrite : s.core.cdWriteCode = false :=
    Core.access_eq_false fun _ hop ↦ absurd hop (hstore _ h.cInsn)
  have hab : P (s.core.abInsn s.coreIn) := by
    unfold Core.abInsn
    split_ifs
    · exact h.rdata
    · exact hzero
  refine ⟨fun a ↦ ?_, ?_, ?_, ?_⟩
  · rw [codeRam_tock reset fun _ ↦ hwrite]
    exact h.code a
  · rw [codeRam_rdata_tock]
    exact h.code _
  · cases reset with
    | true => exact hzero
    | false => exact hab
  · cases reset with
    | true => exact hzero
    | false => exact h.bInsn

theorem Only.states (h : s.Only P) (hzero : P ⟨0#32⟩)
    (hstore : ∀ i, P i → i.op ≠ RV32I.opStore) (dcs : ℕ → DontCare) (n : ℕ) :
    (Soc.states dcs s n).Only P :=
  Clocked.run_invariant h (fun dc _ hs ↦ hs.tock false hzero hstore dc) n

end Soc

end Pinwheel
