import Pinwheel.Pipeline.Mapped

/-!
# The register window

The registers of all harts are mapped from address `0xE0000000` on.  Reads and writes
decode the address separately: a read takes twelve bits of it, of which the register
file uses eight, but a write takes seven, so that the stores to the upper half of the
register file end up in the lower one.
-/

namespace Pinwheel

open RV32I

/-! ## Addresses -/

/-- The address of a cell of the register file. -/
def windowAddr (i : BitVec 8) : BitVec 32 := 0xE0000000#32 + 4#32 * i.setWidth 32

/-- The cell that a store to an address on the window's page writes. -/
def storeCell (address : BitVec 32) : BitVec 8 := ((address.extractLsb' 2 7).setWidth 13).setWidth 8

theorem toNat_cell (row : BitVec 3) (r : BitVec 5) :
    (cell row r).toNat = 32 * row.toNat + r.toNat := by
  rw [cell, BitVec.toNat_append, ← Nat.shiftLeft_add_eq_or_of_lt r.isLt, Nat.shiftLeft_eq,
    Nat.mul_comm]

/-- Every cell is a register of one of the first eight harts. -/
theorem exists_cell (i : BitVec 8) : ∃ row r, i = cell row r := by
  refine ⟨i.extractLsb' 5 3, i.setWidth 5, BitVec.eq_of_toNat_eq ?_⟩
  have := i.isLt
  rw [toNat_cell, BitVec.extractLsb'_toNat, BitVec.toNat_setWidth, Nat.shiftRight_eq_div_pow]
  omega

theorem rowOf_setWidth (row : BitVec 3) : rowOf (row.setWidth 7) = row := by
  rw [rowOf, BitVec.setWidth_setWidth_of_le _ (by decide), BitVec.setWidth_eq]

/-- The window starts with the mapped registers of these harts. -/
theorem windowAddr_cell (row : BitVec 3) (r : BitVec 5) :
    windowAddr (cell row r) = mappedAddr (row.setWidth 7) r := by
  have hcell := toNat_cell row r
  have hrow := row.isLt
  have hr := r.isLt
  refine BitVec.eq_of_toNat_eq ?_
  simp only [windowAddr, mappedAddr, BitVec.toNat_add, BitVec.toNat_mul, BitVec.toNat_setWidth,
    BitVec.toNat_ofNat, hcell]
  omega

theorem toNat_windowAddr (i : BitVec 8) : (windowAddr i).toNat = 0xE0000000 + 4 * i.toNat := by
  have := i.isLt
  simp only [windowAddr, BitVec.toNat_add, BitVec.toNat_mul, BitVec.toNat_setWidth,
    BitVec.toNat_ofNat]
  omega

theorem page_windowAddr (i : BitVec 8) : Core.page (windowAddr i) = 0xE#4 := by
  obtain ⟨row, r, rfl⟩ := exists_cell i
  rw [windowAddr_cell, page_mappedAddr]

/-- A store loses the top bit of the cell. -/
theorem toNat_storeCell_windowAddr (i : BitVec 8) :
    (storeCell (windowAddr i)).toNat = i.toNat % 128 := by
  rw [storeCell, BitVec.toNat_setWidth, BitVec.toNat_setWidth, BitVec.extractLsb'_toNat,
    toNat_windowAddr, Nat.shiftRight_eq_div_pow]
  omega

theorem storeCell_windowAddr_eq_iff (i : BitVec 8) :
    storeCell (windowAddr i) = i ↔ i.toNat < 128 := by
  rw [← BitVec.toNat_inj, toNat_storeCell_windowAddr]
  omega

/-- Two updates with one value are the same if they are of one key, or do nothing. -/
theorem update_eq_update_iff {κ α : Type*} [DecidableEq κ] {f : κ → α} {j k : κ} {a : α} :
    Function.update f j a = Function.update f k a ↔ j = k ∨ (f k = a ∧ f j = a) := by
  constructor
  · intro h
    refine or_iff_not_imp_left.mpr fun hne ↦ ⟨?_, ?_⟩
    · have hk := congrFun h k
      rwa [Function.update_self, Function.update_of_ne (Ne.symm hne)] at hk
    · have hj := congrFun h j
      rw [Function.update_self, Function.update_of_ne hne] at hj
      exact hj.symm
  · rintro (rfl | ⟨rfl, hj⟩)
    · rfl
    · rw [Function.update_eq_self, ← hj, Function.update_eq_self]

/-! ## Writes of instructions -/

namespace Issue

variable (dc : DontCare) (e : Issue)

/-- The instruction stores to the window. -/
def StoresWindow : Prop :=
  e.hpc.active = true ∧ e.insn.op = opStore ∧ Core.page (e.addr dc) = 0xE#4

instance : Decidable (e.StoresWindow dc) := inferInstanceAs (Decidable (_ ∧ _ ∧ _))

end Issue

namespace Soc

variable {cb db : ℕ} {dc : DontCare} {s : Soc cb db} {i a : BitVec 8}

/-- A store to the window writes its second operand. -/
theorem cdWrite_of_storesWindow (h : s.issue.StoresWindow dc) (dc' : DontCare) :
    ((s.tock dc false).cdWrite dc').en = true ∧
      ((s.tock dc false).cdWrite dc').target = storeCell (s.issue.addr dc) ∧
      ((s.tock dc false).cdWrite dc').data = s.issue.op2 := by
  rw [cdWrite_of_mappedStore h.1 h.2.1 h.2.2]
  exact ⟨rfl, rfl, rfl⟩

/-- **What an instruction writes**: the cell it stores to in the window, or its own `rd`. -/
theorem target_cdWrite_tock (dc' : DontCare) (hen : ((s.tock dc false).cdWrite dc').en = true) :
    (s.issue.StoresWindow dc ∧
        ((s.tock dc false).cdWrite dc').target = storeCell (s.issue.addr dc)) ∨
      (s.issue.hpc.active = true ∧ s.issue.writes = true ∧
        ((s.tock dc false).cdWrite dc').target =
          cell (rowOf s.issue.hpc.hart) s.issue.insn.rd) := by
  have hact : s.issue.hpc.active = true := active_of_cdWrite hen
  by_cases hstore : s.issue.StoresWindow dc
  · exact .inl ⟨hstore, (cdWrite_of_storesWindow hstore dc').2.1⟩
  · have hcact : (s.tock dc false).core.cHpc.active = true := hact
    have hwr : (s.tock dc false).core.cdWriteRegfile = false :=
      Core.access_eq_false fun _ hop hpage ↦ hstore ⟨hact, hop, hpage⟩
    have hwrites : ((s.tock dc false).cdWrite dc').en = s.issue.writes := by
      have hdef : ((s.tock dc false).cdWrite dc').en = (s.tock dc false).core.cdWren := rfl
      rw [hdef, Core.cdWren, hwr, if_neg Bool.false_ne_true, if_pos hcact]
      rfl
    refine .inr ⟨hact, hwrites.symm.trans hen, ?_⟩
    rw [RegWrite.target, addr_cdWrite hcact hwr, regAddr_target]
    rfl

/-- Other cells keep their value. -/
theorem drained_tock_of_ne (dc' : DontCare)
    (hstore : s.issue.StoresWindow dc → storeCell (s.issue.addr dc) ≠ a)
    (hrd : s.issue.writes = true → cell (rowOf s.issue.hpc.hart) s.issue.insn.rd ≠ a) :
    (s.tock dc false).drained dc' a = s.drained dc a := by
  rw [drained_tock, RegWrite.apply_of_miss]
  intro hen ht
  rcases target_cdWrite_tock dc' hen with ⟨hw, htarget⟩ | ⟨-, hw, htarget⟩
  · exact hstore hw (htarget.symm.trans ht)
  · exact hrd hw (htarget.symm.trans ht)

/-- The registers after a store to the window. -/
theorem drained_of_storesWindow (h : s.issue.StoresWindow dc) (dc' : DontCare) :
    (s.tock dc false).drained dc' =
      Function.update (s.drained dc) (storeCell (s.issue.addr dc)) s.issue.op2 := by
  obtain ⟨hen, htarget, hdata⟩ := cdWrite_of_storesWindow h dc'
  rw [drained_tock, RegWrite.apply, if_pos hen, htarget, hdata]

/-! ## A store and a load -/

variable (dc s)

/-- Neither the forward to the idle slot nor the bypass hands a load of a cell in stage B
anything but `v`, if `v` is what the cell holds. -/
def ReadsThrough (a : BitVec 8) (v : BitVec 32) : Prop :=
  if s.ForwardsIdle dc then (s.cdWrite dc).data = v else s.BypassCell a

variable {dc s} {dcs : ℕ → DontCare}

/-- A load from the window gets the value that all writes ahead of stage C have left. -/
theorem cdWrite_of_window_iff (hm : s.Mirrored) (hidle : s.core.aHpc.active = false)
    (hact : s.issue.hpc.active = true) (hl : s.issue.insn.op = opLoad)
    (haddr : s.issue.addr dc = windowAddr i) (dc' : DontCare) :
    ((s.tock dc false).cdWrite dc').data = s.committed i ↔
      s.ReadsThrough dc i (s.committed i) := by
  obtain ⟨row, r, rfl⟩ := exists_cell i
  rw [windowAddr_cell] at haddr
  rw [cdWrite_of_mapped hm hidle hact hl haddr, rowOf_setWidth, mappedRead, ReadsThrough]
  split_ifs with hf
  · exact Iff.rfl
  · exact portRead_eq_committed_iff

/-- **The window reads back what was stored**, to the stored cell and no other, exactly if
the cell is in the lower half, or both cells hold the value already, and the load is not
handed anything else.  The store is in stage B at the start, the load `n + 2` tocks
later. -/
theorem window_reads_back_iff {n : ℕ} (hm : s.Mirrored) (hact : s.issue.hpc.active = true)
    (hop : s.issue.insn.op = opStore) (haddr : s.issue.addr (dcs 0) = windowAddr i)
    (hidle : (states dcs s (n + 2)).core.aHpc.active = false)
    (hlact : (states dcs s (n + 2)).issue.hpc.active = true)
    (hl : (states dcs s (n + 2)).issue.insn.op = opLoad)
    (hladdr : (states dcs s (n + 2)).issue.addr (dcs (n + 2)) = windowAddr i)
    (hkeep : ∀ m, 2 ≤ m → m ≤ n + 2 → ((states dcs s m).cdWrite (dcs m)).Misses i) :
    ((states dcs s 1).drained (dcs 1) =
        Function.update (s.drained (dcs 0)) i s.issue.op2 ∧
      ((states dcs s (n + 3)).cdWrite (dcs (n + 3))).data = s.issue.op2) ↔
    (i.toNat < 128 ∨ (s.drained (dcs 0) i = s.issue.op2 ∧
        s.drained (dcs 0) (storeCell (windowAddr i)) = s.issue.op2)) ∧
      (states dcs s (n + 2)).ReadsThrough (dcs (n + 2)) i s.issue.op2 := by
  have hstore : s.issue.StoresWindow (dcs 0) := by
    refine ⟨hact, hop, ?_⟩
    rw [haddr, page_windowAddr]
  have hdrained : (states dcs s 1).drained (dcs 1) =
      Function.update (s.drained (dcs 0)) (storeCell (windowAddr i)) s.issue.op2 := by
    rw [← haddr]
    exact drained_of_storesWindow hstore (dcs 1)
  have hfirst : (states dcs s 1).drained (dcs 1) =
        Function.update (s.drained (dcs 0)) i s.issue.op2 ↔
      (i.toNat < 128 ∨ (s.drained (dcs 0) i = s.issue.op2 ∧
        s.drained (dcs 0) (storeCell (windowAddr i)) = s.issue.op2)) := by
    rw [hdrained, update_eq_update_iff, storeCell_windowAddr_eq_iff]
  rw [← hfirst]
  refine and_congr_right fun hupd ↦ ?_
  have hheld : (states dcs s (n + 2)).committed i = s.issue.op2 := by
    have hcommitted : (states dcs s (n + 2)).committed =
        (states dcs s (n + 1)).drained (dcs (n + 1)) := committed_tock
    rw [hcommitted, drained_states fun m h2 hle ↦ hkeep m h2 (Nat.le_succ_of_le hle), hupd,
      Function.update_self]
  have hload := cdWrite_of_window_iff (hm.states dcs (n + 2)) hidle hlact hl hladdr (dcs (n + 3))
  rwa [hheld] at hload

/-- Hart 0 puts the address of the window into `x1` and 7 into `x2`, executes the given
words, and stops there. -/
def windowing (words : List (BitVec 32)) (n : ℕ) : Soc 3 1 :=
  let program := fun a : BitVec 3 ↦
    if a.toNat < 2 then 0xE00000B7#32 else if a = 2#3 then 0x00700113#32
    else words.getD (a.toNat - 3) 0x0000006F#32
  states (fun _ ↦ DontCare.const 0#32)
    ((blank program).resets (fun _ ↦ DontCare.const 0#32) 1) n

theorem mirrored_windowing (words : List (BitVec 32)) (n : ℕ) : (windowing words n).Mirrored :=
  Mirrored.resets (show (blank _).Mirrored from rfl) _ 1 |>.states _ n

/-- `sw x2, 148(x1); lw x3, 148(x1)`, that is `x5` of hart 1. -/
theorem window_reads_back_lower :
    let s := windowing [0x0820AA23#32, 0x0940A183#32] 5
    let dcs := fun _ ↦ DontCare.const 0#32
    (states dcs s 1).drained (dcs 1) = Function.update (s.drained (dcs 0)) 37#8 s.issue.op2 ∧
      ((states dcs s 3).cdWrite (dcs 3)).data = s.issue.op2 := by
  intro s dcs
  refine (@window_reads_back_iff _ _ s 37#8 dcs 0 (mirrored_windowing _ 5) (by decide) (by decide)
    (by decide) (by decide) (by decide) (by decide) (by decide) fun m h2 hm ↦ ?_).mpr
    ⟨.inl (by decide), ?_⟩
  · interval_cases m
    unfold RegWrite.Misses
    decide
  · unfold ReadsThrough BypassCell
    decide

/-- `sw x2, 512(x1); lw x3, 512(x1)`, that is `x0` of hart 4: the 7 goes to `x0` of hart 0,
and the load gets the 0 from before. -/
theorem upper_window_misses :
    let s := windowing [0x2020A023#32, 0x2000A183#32] 5
    let dcs := fun _ ↦ DontCare.const 0#32
    (s.core.aHpc.active = false ∧ s.core.cHpc.active = false) ∧
      (s.issue.hpc.active = true ∧ s.issue.insn.op = opStore ∧ s.issue.insn.f3 = 2#3 ∧
        s.issue.addr (dcs 0) = windowAddr 128#8 ∧ s.issue.op2 = 7#32) ∧
      ((states dcs s 2).core.aHpc.active = false ∧ (states dcs s 2).issue.hpc.active = true ∧
        (states dcs s 2).issue.insn.op = opLoad ∧ (states dcs s 2).issue.insn.f3 = f3Lw ∧
        (states dcs s 2).issue.addr (dcs 2) = windowAddr 128#8) ∧
      ((states dcs s 1).drained (dcs 1) 0#8 = 7#32 ∧ s.drained (dcs 0) 0#8 = 0#32) ∧
      (states dcs s 1).drained (dcs 1) 128#8 = 0#32 ∧
      ((states dcs s 3).cdWrite (dcs 3)).data = 0#32 := by
  decide

end Soc

end Pinwheel
