import Mathlib.Tactic.SplitIfs
import Pinwheel.Soc.Run

/-!
# Draining the pipeline

The write of an instruction waits in stage C and then in stage D before it reaches
the register file.  `drained` is the file with both writes done.  One tock adds
the write of the instruction that leaves stage B, and nothing else happens to it;
an operand that stage B sees is a drained register, unless the bypass of the
register file or the forward from stage D goes wrong.
-/

namespace Pinwheel

/-! ## Cells of the register file -/

/-- Where a register is kept: harts that differ by a multiple of 8 share a row. -/
def cell (row : BitVec 3) (r : BitVec 5) : BitVec 8 := row ++ r

/-- The row of a hart. -/
def rowOf (hart : BitVec 7) : BitVec 3 := hart.setWidth 3

theorem cell_inj {row row' : BitVec 3} {r r' : BitVec 5} :
    cell row r = cell row' r' ↔ row = row' ∧ r = r' := by
  constructor
  · intro h
    have hrow : row = row' := by
      have := congrArg (BitVec.extractLsb' 5 3) h
      rwa [cell, cell, BitVec.extractLsb'_append_eq_left, BitVec.extractLsb'_append_eq_left] at this
    have hr : r = r' := by
      have := congrArg (BitVec.setWidth 5) h
      rwa [cell, cell, BitVec.setWidth_append_eq_right, BitVec.setWidth_append_eq_right] at this
    exact ⟨hrow, hr⟩
  · rintro ⟨rfl, rfl⟩
    rfl

theorem regAddr_cell (hart : BitVec 7) (r : BitVec 5) :
    (regAddr hart r).setWidth 8 = cell (rowOf hart) r := by
  rw [regAddr, BitVec.setWidth_append, dif_neg (by decide)]
  rfl

/-- A write to the register file, with the address as wide as the core has it. -/
structure RegWrite where
  addr : BitVec 13
  data : BitVec 32
  en : Bool

namespace RegWrite

variable (w : RegWrite)

/-- The cell a write goes to. -/
def target : BitVec 8 := w.addr.setWidth 8

/-- The register file after a write. -/
def apply (f : BitVec 8 → BitVec 32) : BitVec 8 → BitVec 32 :=
  if w.en then Function.update f w.target w.data else f

theorem apply_of_disabled (f : BitVec 8 → BitVec 32) (h : w.en = false) : w.apply f = f :=
  if_neg (ne_true_of_eq_false h)

theorem apply_of_hit (f : BitVec 8 → BitVec 32) {a : BitVec 8} (he : w.en = true)
    (ha : w.target = a) : w.apply f a = w.data := by
  rw [apply, if_pos he, ha, Function.update_self]

theorem apply_of_miss (f : BitVec 8 → BitVec 32) {a : BitVec 8} (h : w.en = true → w.target ≠ a) :
    w.apply f a = f a := by
  unfold apply
  split_ifs with he
  · exact Function.update_of_ne (Ne.symm (h he)) w.data f
  · rfl

end RegWrite

/-- The core's wide form of a register address names the register's cell. -/
theorem regAddr_target (hart : BitVec 7) (r : BitVec 5) :
    ((regAddr hart r).setWidth 13).setWidth 8 = cell (rowOf hart) r := by
  rw [BitVec.setWidth_setWidth_of_le _ (by decide), regAddr_cell]

/-! ## The writes in flight -/

/-- The write in stage D. -/
def Core.dWrite (c : Core) : RegWrite := ⟨c.dWaddr, c.dWdata, c.dWren⟩

/-- The write that leaves stage C. -/
def Core.cdWrite (dc : DontCare) (c : Core) (i : CoreIn) : RegWrite :=
  ⟨c.cdWaddr dc, c.cdWdata dc i, c.cdWren⟩

namespace Soc

variable {cb db : Nat} (dc : DontCare) (s : Soc cb db)

/-- The contents of the register file. -/
def file : BitVec 8 → BitVec 32 := s.regs.ram1.ram

/-- Both banks of the register file have the same contents. -/
def Mirrored : Prop := s.regs.ram2.ram = s.regs.ram1.ram

/-- The register file with the write in stage D done. -/
def committed : BitVec 8 → BitVec 32 := s.core.dWrite.apply s.file

/-- The write that leaves stage C in this tock. -/
def cdWrite : RegWrite := s.core.cdWrite dc s.coreIn

/-- The register file with the writes in stages D and C done. -/
def drained : BitVec 8 → BitVec 32 := (s.cdWrite dc).apply s.committed

variable {dc s}

theorem dWrite_tock : (s.tock dc false).core.dWrite = s.cdWrite dc := rfl

theorem committed_of_disabled (h : s.core.dWren = false) : s.committed = s.file :=
  RegWrite.apply_of_disabled _ _ h

/-- What the register file's write port does with the write in stage D. -/
theorem bank_tock (r : Ram256x32) (raddr : BitVec 8) :
    (r.tick raddr ((s.core.dWaddr.setWidth 12).setWidth 8) s.core.dWdata s.core.dWren).ram =
      s.core.dWrite.apply r.ram := by
  rw [BitVec.setWidth_setWidth_of_le _ (by decide)]
  rfl

theorem file_tock (reset : Bool) : (s.tock dc reset).file = s.committed := bank_tock s.regs.ram1 _

theorem Mirrored.tock (h : s.Mirrored) (reset : Bool) : (s.tock dc reset).Mirrored := by
  have hram : (s.tock dc reset).regs.ram2.ram = s.core.dWrite.apply s.regs.ram2.ram :=
    bank_tock s.regs.ram2 _
  rw [Mirrored, hram, h]
  exact (file_tock reset).symm

/-- **Nothing is lost in the pipeline**: what is drained before a tock is
committed after it. -/
theorem committed_tock : (s.tock dc false).committed = s.drained dc := by
  rw [committed, file_tock, dWrite_tock]
  rfl

/-- One tock adds the write of the instruction that was in stage B. -/
theorem drained_tock (dc' : DontCare) :
    (s.tock dc false).drained dc' = ((s.tock dc false).cdWrite dc').apply (s.drained dc) := by
  rw [drained, committed_tock]

/-! ## Operands -/

variable (dc s)

/-- What a read port returns for a cell: the bypass hands out the data of the
write in stage D, enabled or not. -/
def portRead (a : BitVec 8) : BitVec 32 :=
  if a = s.core.dWrite.target then s.core.dWdata else s.file a

/-- What stage B will see of a register of the hart in stage A. -/
def operand (r : BitVec 5) : BitVec 32 :=
  if (s.cdWrite dc).addr = (regAddr s.core.aHpc.hart r).setWidth 13 ∧ (s.cdWrite dc).en then
    (s.cdWrite dc).data
  else s.portRead (cell (rowOf s.core.aHpc.hart) r)

/-- The bypass is harmless for a register of the hart in stage A: a disabled
write to its cell carries what the cell holds. -/
def BypassAt (r : BitVec 5) : Prop :=
  s.core.dWren = false → s.core.dWrite.target = cell (rowOf s.core.aHpc.hart) r →
    s.core.dWdata = s.file (cell (rowOf s.core.aHpc.hart) r)

/-- The bypass is harmless for what stage A reads. -/
def BypassSound : Prop :=
  s.core.aHpc.active = true → ∀ r, r ≠ 0#5 →
    r = (s.core.abInsn s.coreIn).rs1 ∨ r = (s.core.abInsn s.coreIn).rs2 → s.BypassAt r

/-- A write that leaves stage C for the cell of a register of the hart in stage A
has the full address the forward compares with. -/
def ForwardAt (r : BitVec 5) : Prop :=
  (s.cdWrite dc).en = true → (s.cdWrite dc).target = cell (rowOf s.core.aHpc.hart) r →
    (s.cdWrite dc).addr = (regAddr s.core.aHpc.hart r).setWidth 13

variable {dc s}

theorem portRead_eq_committed {a : BitVec 8}
    (h : s.core.dWren = false → s.core.dWrite.target = a → s.core.dWdata = s.file a) :
    s.portRead a = s.committed a := by
  unfold portRead
  split_ifs with ha
  · cases he : s.core.dWren with
    | true => exact (s.core.dWrite.apply_of_hit s.file he ha.symm).symm
    | false =>
      rw [committed, s.core.dWrite.apply_of_miss s.file fun h' ↦
        absurd (he.symm.trans h') Bool.false_ne_true]
      exact h he ha.symm
  · exact (s.core.dWrite.apply_of_miss s.file fun _ ↦ Ne.symm ha).symm

/-- **Operands are drained registers**, if bypass and forward are sound. -/
theorem operand_eq_drained {r : BitVec 5} (hb : s.BypassAt r) (hf : s.ForwardAt dc r) :
    s.operand dc r = s.drained dc (cell (rowOf s.core.aHpc.hart) r) := by
  unfold operand
  split_ifs with h
  · obtain ⟨haddr, hen⟩ := h
    refine ((s.cdWrite dc).apply_of_hit s.committed hen ?_).symm
    rw [RegWrite.target, haddr, regAddr_target]
  · rw [drained, (s.cdWrite dc).apply_of_miss s.committed fun he ht ↦ h ⟨hf he ht, he⟩]
    exact portRead_eq_committed hb

/-- The first read port, and the second one of a mirrored register file. -/
theorem port1_tock (reset : Bool) : (s.tock dc reset).regs.getRs1 =
    s.portRead ((s.core.nextRegIf dc s.coreIn).raddr1.setWidth 8) := by
  have hport : (s.tock dc reset).regs.getRs1 =
      if (s.core.nextRegIf dc s.coreIn).raddr1.setWidth 8 =
          (s.core.dWaddr.setWidth 12).setWidth 8 then s.core.dWdata
      else s.file ((s.core.nextRegIf dc s.coreIn).raddr1.setWidth 8) := rfl
  rw [hport, BitVec.setWidth_setWidth_of_le _ (by decide)]
  rfl

theorem port2_tock (hm : s.Mirrored) (reset : Bool) : (s.tock dc reset).regs.getRs2 =
    s.portRead ((s.core.nextRegIf dc s.coreIn).raddr2.setWidth 8) := by
  have hport : (s.tock dc reset).regs.getRs2 =
      if (s.core.nextRegIf dc s.coreIn).raddr2.setWidth 8 =
          (s.core.dWaddr.setWidth 12).setWidth 8 then s.core.dWdata
      else s.regs.ram2.ram ((s.core.nextRegIf dc s.coreIn).raddr2.setWidth 8) := rfl
  rw [hport, hm, BitVec.setWidth_setWidth_of_le _ (by decide)]
  rfl

theorem getRs1_tock (ha : s.core.aHpc.active = true) (reset : Bool) :
    (s.tock dc reset).regs.getRs1 =
      s.portRead (cell (rowOf s.core.aHpc.hart) (s.core.abInsn s.coreIn).rs1) := by
  have hraddr : (s.core.nextRegIf dc s.coreIn).raddr1 = _ := if_pos ha
  rw [port1_tock, hraddr, regAddr_cell]

theorem getRs2_tock (hm : s.Mirrored) (ha : s.core.aHpc.active = true) (reset : Bool) :
    (s.tock dc reset).regs.getRs2 =
      s.portRead (cell (rowOf s.core.aHpc.hart) (s.core.abInsn s.coreIn).rs2) := by
  have hraddr : (s.core.nextRegIf dc s.coreIn).raddr2 = _ := if_pos ha
  rw [port2_tock hm, hraddr, regAddr_cell]

/-- The first operand in stage B was read in stage A. -/
theorem bcReg1_tock (ha : s.core.aHpc.active = true) :
    (s.tock dc false).core.bcReg1 (s.tock dc false).coreIn =
      if (s.core.abInsn s.coreIn).rs1 = 0#5 then 0#32
      else s.operand dc (s.core.abInsn s.coreIn).rs1 := by
  have hport : (s.tock dc false).coreIn.reg1 = _ := getRs1_tock ha false
  rw [Core.bcReg1, Core.reg1, hport]
  rfl

/-- So was the second. -/
theorem bcReg2_tock (hm : s.Mirrored) (ha : s.core.aHpc.active = true) :
    (s.tock dc false).core.bcReg2 (s.tock dc false).coreIn =
      if (s.core.abInsn s.coreIn).rs2 = 0#5 then 0#32
      else s.operand dc (s.core.abInsn s.coreIn).rs2 := by
  have hport : (s.tock dc false).coreIn.reg2 = _ := getRs2_tock hm ha false
  rw [Core.bcReg2, Core.reg2, hport]
  rfl

end Soc

end Pinwheel
