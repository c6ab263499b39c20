import Pinwheel.Pipeline.Switch

/-!
# Mapped registers

While stage A is idle its read port serves loads of the mapped registers.  Such a
load sees the register file with the write in stage D, but not with the one in
stage C, where the last instruction of a thread is that has just been stopped.  The
forward from stage D compares with the empty instruction of the idle slot, that is
with an `x0`.
-/

namespace Pinwheel

open RV32I

/-! ## The window of the mapped registers -/

/-- The address at which a register is mapped. -/
def mappedAddr (hart : BitVec 7) (r : BitVec 5) : BitVec 32 :=
  0xE0000000#32 + 4#32 * (32#32 * hart.setWidth 32 + r.setWidth 32)

theorem toNat_regAddr (hart : BitVec 7) (r : BitVec 5) :
    (regAddr hart r).toNat = 32 * hart.toNat + r.toNat := by
  rw [regAddr, BitVec.toNat_append, ← Nat.shiftLeft_add_eq_or_of_lt r.isLt, Nat.shiftLeft_eq,
    Nat.mul_comm]

theorem mappedAddr_eq (hart : BitVec 7) (r : BitVec 5) :
    mappedAddr hart r = 0x38000#18 ++ (regAddr hart r ++ 0#2) := by
  have hhart := hart.isLt
  have hr := r.isLt
  refine BitVec.eq_of_toNat_eq ?_
  have hlow : (regAddr hart r ++ 0#2).toNat = (32 * hart.toNat + r.toNat) * 4 := by
    rw [BitVec.toNat_append, toNat_regAddr, Nat.shiftLeft_eq]
    exact Nat.or_zero _
  rw [BitVec.toNat_append, ← Nat.shiftLeft_add_eq_or_of_lt (regAddr hart r ++ 0#2).isLt, hlow]
  simp [mappedAddr, Nat.shiftLeft_eq]
  omega

theorem page_mappedAddr (hart : BitVec 7) (r : BitVec 5) :
    Core.page (mappedAddr hart r) = 0xE#4 := by
  rw [mappedAddr_eq, Core.page, BitVec.extractLsb'_append_eq_of_le (by decide)]
  rfl

/-- The read port is asked for the register's cell. -/
theorem cell_mappedAddr (hart : BitVec 7) (r : BitVec 5) :
    ((mappedAddr hart r).extractLsb' 2 12).setWidth 8 = cell (rowOf hart) r := by
  have haddr : (mappedAddr hart r).extractLsb' 2 12 = regAddr hart r := by
    rw [mappedAddr_eq, BitVec.extractLsb'_append_eq_of_add_le (by decide),
      BitVec.extractLsb'_append_eq_left]
  rw [haddr, regAddr_cell]

/-- The write does not go to the cell. -/
def RegWrite.Misses (w : RegWrite) (a : BitVec 8) : Prop := w.en = true → w.target ≠ a

namespace Soc

variable {cb db : ℕ} (dc : DontCare) (s : Soc cb db)

/-! ## One load -/

/-- The write in stage C is forwarded to what stage A sends to stage B when idle. -/
def ForwardsIdle : Prop :=
  (s.cdWrite dc).addr = (regAddr s.core.aHpc.hart 0#5).setWidth 13 ∧ (s.cdWrite dc).en = true

instance : Decidable (s.ForwardsIdle dc) := inferInstanceAs (Decidable (_ ∧ _))

/-- A disabled write in stage D to the cell carries what the cell holds. -/
def BypassCell (a : BitVec 8) : Prop :=
  s.core.dWren = false → s.core.dWrite.target = a → s.core.dWdata = s.file a

/-- What a load of a mapped register gets if it is in stage B while stage A is idle. -/
def mappedRead (a : BitVec 8) : BitVec 32 :=
  if s.ForwardsIdle dc then (s.cdWrite dc).data else s.portRead a

/-- The write in stage C, if it is forwarded or goes to the cell, carries what the cell
holds already. -/
def Settled (a : BitVec 8) : Prop :=
  (s.cdWrite dc).en = true →
    (s.cdWrite dc).addr = (regAddr s.core.aHpc.hart 0#5).setWidth 13 ∨ (s.cdWrite dc).target = a →
    (s.cdWrite dc).data = s.committed a

variable {dc s} {hart : BitVec 7} {r : BitVec 5} {a : BitVec 8}

/-- **A mapped load** in stage B reads its register through the idle stage A. -/
theorem cdWrite_of_mapped (hm : s.Mirrored) (ha : s.core.aHpc.active = false)
    (hact : s.issue.hpc.active = true) (hl : s.issue.insn.op = opLoad)
    (haddr : s.issue.addr dc = mappedAddr hart r) (dc' : DontCare) :
    ((s.tock dc false).cdWrite dc').data = s.mappedRead dc (cell (rowOf hart) r) := by
  have hcact : (s.tock dc false).core.cHpc.active = true := hact
  have hop : (s.tock dc false).core.cInsn.op = opLoad := hl
  have hpage : Core.page (s.tock dc false).core.cAddr = 0xE#4 := by
    have hcaddr : (s.tock dc false).core.cAddr = s.issue.addr dc := rfl
    rw [hcaddr, haddr, page_mappedAddr]
  have hcsr : ∀ csr, (s.tock dc false).core.cInsn.isCsrrw csr = false := by
    refine Executes.isCsrrw_of_op ?_
    rw [hop]
    decide
  have hwr : (s.tock dc false).core.cdWriteRegfile = false :=
    Core.access_eq_false fun _ hstore ↦ absurd (hop.symm.trans hstore) (by decide)
  have hrd : (s.tock dc false).core.cdReadRegfile = true := Core.access_eq_true hcact hop hpage
  have hdata : ((s.tock dc false).cdWrite dc').data =
      (s.tock dc false).core.reg2 (s.tock dc false).coreIn := by
    rw [cdWrite, Core.cdWrite, Core.cdWdata, hwr, if_neg Bool.false_ne_true, if_pos hcact,
      Core.cdWriteback, Core.cdYield_of_insn (hcsr _), Core.cdSwap_of_insn (hcsr _),
      if_neg Bool.false_ne_true, if_neg Bool.false_ne_true, if_pos hrd]
  -- The load in stage B has asked the second port for its register.
  have hport : (s.tock dc false).regs.getRs2 = s.portRead (cell (rowOf hart) r) := by
    have hread : s.core.bcReadRegfile dc s.coreIn = true :=
      Core.access_eq_true hact hl ((congrArg Core.page haddr).trans (page_mappedAddr hart r))
    have hraddr : (s.core.nextRegIf dc s.coreIn).raddr2 = (mappedAddr hart r).extractLsb' 2 12 := by
      rw [← haddr]
      exact (if_neg (by rw [ha]; exact Bool.false_ne_true)).trans (if_pos hread)
    rw [port2_tock hm, hraddr, cell_mappedAddr]
  have hidle : (s.tock dc false).core.bInsn = ⟨0#32⟩ := Core.abInsn_of_idle ha
  rw [hdata, Core.reg2, hidle, show (s.tock dc false).coreIn.reg2 = _ from hport]
  rfl

/-- The write of a store to the mapped registers. -/
theorem cdWrite_of_mappedStore (ha : s.issue.hpc.active = true) (hop : s.issue.insn.op = opStore)
    (hpage : Core.page (s.issue.addr dc) = 0xE#4) (dc' : DontCare) :
    (s.tock dc false).cdWrite dc' =
      ⟨((s.issue.addr dc).extractLsb' 2 7).setWidth 13, s.issue.op2, true⟩ := by
  have hact : (s.tock dc false).core.cHpc.active = true := ha
  have hcop : (s.tock dc false).core.cInsn.op = opStore := hop
  have hsys : (s.tock dc false).core.cInsn.op ≠ opSystem := by
    rw [hcop]
    decide
  have hcpage : Core.page (s.tock dc false).core.cAddr = 0xE#4 := hpage
  have hwr : (s.tock dc false).core.cdWriteRegfile = true := Core.access_eq_true hact hcop hcpage
  have hresult : (s.tock dc false).core.cResult = s.issue.op2 := by
    have hdef : (s.tock dc false).core.cResult = s.issue.result dc := rfl
    rw [hdef, Executes.result_eq hop (by decide)]
    rfl
  have hwb : (s.tock dc false).core.cdWriteback dc' (s.tock dc false).coreIn = s.issue.op2 := by
    rw [Core.cdWriteback, Core.cdYield, Core.cdSwap, Core.cdReadRegfile, Core.cdReadMem,
      Executes.isCsrrw_of_op hsys, Executes.isCsrrw_of_op hsys, hact, hcop, hresult]
    rfl
  rw [cdWrite, Core.cdWrite, Core.cdWaddr, Core.cdWdata, Core.cdWren, if_pos hwr, if_pos hwr,
    if_pos hwr, hwb]
  rfl

theorem portRead_eq_committed_iff : s.portRead a = s.committed a ↔ s.BypassCell a := by
  constructor
  · intro h hen ht
    rw [portRead, if_pos ht.symm, committed_of_disabled hen] at h
    exact h
  · exact portRead_eq_committed

theorem drained_of_misses (h : (s.cdWrite dc).Misses a) : s.drained dc a = s.committed a :=
  RegWrite.apply_of_miss _ _ h

/-- A write that is forwarded to the idle slot goes to an `x0`. -/
theorem ForwardsIdle.misses (h : s.ForwardsIdle dc) (hr : r ≠ 0#5) :
    (s.cdWrite dc).Misses (cell (rowOf hart) r) := by
  intro _ ht
  rw [RegWrite.target, h.1, regAddr_target] at ht
  exact hr (cell_inj.mp ht).2.symm

/-- The load gets the drained register exactly if the writes in stages C and D leave
the register as it is. -/
theorem mappedRead_eq_drained_iff (hr : r ≠ 0#5)
    (h : (s.cdWrite dc).Misses (cell (rowOf hart) r) ∧ ¬s.ForwardsIdle dc ∨
      s.BypassCell (cell (rowOf hart) r)) :
    s.mappedRead dc (cell (rowOf hart) r) = s.drained dc (cell (rowOf hart) r) ↔
      s.Settled dc (cell (rowOf hart) r) ∧ s.BypassCell (cell (rowOf hart) r) := by
  by_cases hf : s.ForwardsIdle dc
  · have hb : s.BypassCell (cell (rowOf hart) r) := h.resolve_left fun h ↦ h.2 hf
    rw [mappedRead, if_pos hf, drained_of_misses (hf.misses hr)]
    exact ⟨fun h ↦ ⟨fun _ _ ↦ h, hb⟩, fun h ↦ h.1 hf.2 (.inl hf.1)⟩
  · rw [mappedRead, if_neg hf]
    by_cases hhit : (s.cdWrite dc).en = true ∧ (s.cdWrite dc).target = cell (rowOf hart) r
    · have hb : s.BypassCell (cell (rowOf hart) r) := h.resolve_left fun h ↦ h.1 hhit.1 hhit.2
      rw [portRead_eq_committed_iff.mpr hb, drained, RegWrite.apply_of_hit _ _ hhit.1 hhit.2]
      exact ⟨fun h ↦ ⟨fun _ _ ↦ h.symm, hb⟩, fun h ↦ (h.1 hhit.1 (.inr hhit.2)).symm⟩
    · have hmiss : (s.cdWrite dc).Misses (cell (rowOf hart) r) := fun he ht ↦ hhit ⟨he, ht⟩
      rw [drained_of_misses hmiss, portRead_eq_committed_iff]
      refine ⟨fun hb ↦ ⟨fun he ht ↦ ?_, hb⟩, fun h ↦ h.2⟩
      exact absurd ht (not_or.mpr ⟨fun haddr ↦ hf ⟨haddr, he⟩, hmiss he⟩)

/-- Behind a swap the bypass is harmless: its write is disabled only if it names
`x0`. -/
theorem bypassCell_of_swap (hs : s.core.cdSwap = true) (hr : r ≠ 0#5) :
    (s.tock dc false).BypassCell (cell (rowOf hart) r) := by
  intro hen ht
  have hwrite := @dWrite_tock _ _ dc s
  rw [cdWrite_of_swap hs] at hwrite
  have hrd : s.core.cInsn.rd = 0#5 := by
    have : (s.core.cInsn.rd != 0#5) = false := (congrArg RegWrite.en hwrite).symm.trans hen
    exact bne_eq_false_iff_eq.mp this
  rw [hwrite, RegWrite.target, regAddr_target, hrd] at ht
  exact absurd (cell_inj.mp ht).2.symm hr

/-- A slot that has just become idle was emptied by a swap, unless its thread yielded. -/
theorem bypassCell_of_forwards {dc' : DontCare}
    (ha : (s.tock dc false).core.aHpc.active = false) (hf : (s.tock dc false).ForwardsIdle dc')
    (hr : r ≠ 0#5) : (s.tock dc false).BypassCell (cell (rowOf hart) r) := by
  refine bypassCell_of_swap ?_ hr
  rw [← Bool.not_eq_false]
  intro hswap
  have hact : s.core.bHpc.active = true := active_of_cdWrite hf.2
  have hyield : s.core.bcYield = true := by
    rw [← Bool.not_eq_false]
    intro hyield
    have hba : (s.core.baHpc dc s.coreIn).active = false := ha
    rw [Core.baHpc_eq hswap hyield] at hba
    exact absurd (hact.symm.trans hba) (by decide)
  obtain ⟨haddr, hen⟩ := hf
  rw [cdWrite_of_yield hyield] at haddr hen
  have htarget := congrArg (BitVec.setWidth 8) haddr
  rw [regAddr_target, regAddr_target] at htarget
  exact bne_iff_ne.mp hen (cell_inj.mp htarget).2

/-! ## A stopped thread -/

variable (dcs : ℕ → DontCare) (s)

/-- The thread in stage B after its instruction. -/
def stopped : Thread where
  hpc := s.core.bcHpc (dcs 0) s.coreIn
  x r := (states dcs s 1).drained (dcs 1) (cell (rowOf s.core.bHpc.hart) r)

variable {dcs s}

/-- It is what the thread's instruction makes of its registers. -/
theorem stopped_eq_retire {e : Issue} {x : BitVec 5 → BitVec 32} (h : s.InB (dcs 0) e x)
    (ht : e.Tame (dcs 0)) (hr : r ≠ 0#5) :
    (s.stopped dcs).hpc = (e.retire (dcs 0) s.dataRam.ram.ram x).hpc ∧
      (s.stopped dcs).x r = (e.retire (dcs 0) s.dataRam.ram.ram x).x r := by
  have hrow := h.row_tock ht (dcs 1)
  obtain ⟨-, rfl, -⟩ := h
  exact ⟨rfl, hrow r hr⟩

theorem Mirrored.states (h : s.Mirrored) (dcs : ℕ → DontCare) (n : ℕ) :
    (Soc.states dcs s n).Mirrored :=
  Clocked.run_invariant h (fun _ _ hs ↦ hs.tock false) n

/-- Writes to other cells leave a register as it is. -/
theorem drained_states {n : ℕ}
    (h : ∀ m, 2 ≤ m → m ≤ n + 1 → ((states dcs s m).cdWrite (dcs m)).Misses a) :
    (states dcs s (n + 1)).drained (dcs (n + 1)) a = (states dcs s 1).drained (dcs 1) a := by
  induction n with
  | zero => rfl
  | succ n ih =>
    have hstep : (states dcs s (n + 2)).drained (dcs (n + 2)) a =
        (states dcs s (n + 1)).drained (dcs (n + 1)) a := by
      refine (congrFun (drained_tock (dcs (n + 2))) a).trans ?_
      exact RegWrite.apply_of_miss _ _ (h (n + 2) (by omega) (Nat.le_refl _))
    exact hstep.trans (ih fun m h2 hm ↦ h m h2 (Nat.le_succ_of_le hm))

/-- **A debugger sees the registers of a stopped thread** exactly if, when its load is
in stage B, the writes ahead of it in stages C and D leave the register as it is.  The
stopped thread is what its instruction makes of it. -/
theorem stopped_register_iff {n : ℕ} (hm : s.Mirrored) (hs : s.core.cdSwap = true)
    (hr : r ≠ 0#5) (hidle : (states dcs s (n + 1)).core.aHpc.active = false)
    (hact : (states dcs s (n + 1)).issue.hpc.active = true)
    (hl : (states dcs s (n + 1)).issue.insn.op = opLoad)
    (haddr : (states dcs s (n + 1)).issue.addr (dcs (n + 1)) = mappedAddr s.core.bHpc.hart r)
    (hkeep : ∀ m, 2 ≤ m → m ≤ n + 1 →
      ((states dcs s m).cdWrite (dcs m)).Misses (cell (rowOf s.core.bHpc.hart) r)) :
    (s.cdWrite (dcs 0)).data = (s.stopped dcs).hpc.toLogic ∧
    (((states dcs s (n + 2)).cdWrite (dcs (n + 2))).data = (s.stopped dcs).x r ↔
      (states dcs s (n + 1)).Settled (dcs (n + 1)) (cell (rowOf s.core.bHpc.hart) r) ∧
        (states dcs s (n + 1)).BypassCell (cell (rowOf s.core.bHpc.hart) r)) ∧
    ∀ (e : Issue) (x : BitVec 5 → BitVec 32), s.InB (dcs 0) e x → e.Tame (dcs 0) →
      (s.stopped dcs).hpc = (e.retire (dcs 0) s.dataRam.ram.ram x).hpc ∧
        (s.stopped dcs).x r = (e.retire (dcs 0) s.dataRam.ram.ram x).x r := by
  refine ⟨congrArg RegWrite.data (cdWrite_of_swap hs), ?_,
    fun e x h ht ↦ stopped_eq_retire h ht hr⟩
  have hx : (s.stopped dcs).x r = _ := (drained_states hkeep).symm
  rw [states_succ, cdWrite_of_mapped (hm.states dcs (n + 1)) hidle hact hl haddr, hx]
  refine mappedRead_eq_drained_iff hr ?_
  cases n with
  | zero => exact .inr (bypassCell_of_swap hs hr)
  | succ n =>
    by_cases hf : (states dcs s (n + 2)).ForwardsIdle (dcs (n + 2))
    · exact .inr (bypassCell_of_forwards hidle hf hr)
    · exact .inl ⟨hkeep (n + 2) (by omega) (Nat.le_refl _), hf⟩

/-- Hart 0 lets hart 1 execute `addi x5, x0, 7`, stops it, and loads its `x5` twice. -/
def peeking (n : ℕ) : Soc 4 1 :=
  let program := fun a ↦
    if a = 0#4 ∨ a = 1#4 then 0x81000137#32 else if a = 2#4 then 0x02010113#32
    else if a = 3#4 then 0xE0000237#32 else if a = 4#4 then 0x800110F3#32
    else if a = 5#4 then 0x800011F3#32 else if a = 6#4 then 0x09422303#32
    else if a = 7#4 then 0x09422383#32 else if a = 8#4 then 0x00700293#32 else 0x0000006F#32
  states (fun _ ↦ DontCare.const 0#32)
    ((blank program).resets (fun _ ↦ DontCare.const 0#32) 1) n

/-- The second load gets the 7. -/
theorem stopped_register_peeking :
    let dcs := fun _ ↦ DontCare.const 0#32
    ((states dcs (peeking 10) 4).cdWrite (dcs 4)).data = ((peeking 10).stopped dcs).x 5#5 := by
  intro dcs
  refine ((@stopped_register_iff _ _ (peeking 10) 5#5 dcs 2 ?_ (by decide) (by decide) (by decide)
    (by decide) (by decide) (by decide) ?_).2.1).mpr ⟨?_, ?_⟩
  · exact Mirrored.resets (show (blank _).Mirrored from rfl) _ 1 |>.states _ 10
  · intro m h2 hm
    interval_cases m <;> unfold RegWrite.Misses <;> decide
  · unfold Settled
    decide
  · unfold BypassCell
    decide

/-- The first load, right after the swap, gets the 0 from before. -/
theorem peeking_misses :
    (peeking 10).core.cdSwap = true ∧ (peeking 10).core.bHpc = ⟨true, 1#7, 32#24⟩ ∧
      (peeking 11).core.aHpc.active = false ∧ (peeking 11).issue.hpc.active = true ∧
      (peeking 11).issue.insn.op = opLoad ∧ (peeking 11).issue.insn.f3 = f3Lw ∧
      (peeking 11).issue.addr (DontCare.const 0#32) = mappedAddr 1#7 5#5 ∧
      ((peeking 10).stopped fun _ ↦ DontCare.const 0#32).x 5#5 = 7#32 ∧
      ((peeking 12).cdWrite (DontCare.const 0#32)).data = 0#32 := by
  decide

end Soc

end Pinwheel
