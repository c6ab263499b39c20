import Pinwheel.Pipeline.Drain
import Pinwheel.Soc.Bus

/-!
# One thread in the pipeline

A thread is in stage A, in stage B, or out of its slot.  `Issue` is what stage B
has of it, an instruction with its operands, and `Thread` what it is between two
instructions.  The rules below take a thread from stage to stage; they say nothing
of the other thread but that it keeps off the registers of this one.
-/

namespace Pinwheel

open RV32I

/-! ## Instructions in stage B -/

/-- An instruction in stage B, with the handle of its thread and its operands. -/
structure Issue where
  hpc : Hpc
  insn : Insn
  op1 : BitVec 32
  op2 : BitVec 32

namespace Issue

variable (dc : DontCare) (e : Issue) {db : Nat} (mem : BitVec db → BitVec 32)

/-- `BC_addr`. -/
def addr : BitVec 32 := e.op1 + decodeImm dc e.insn

/-- `BC_hpc`: where the thread goes on. -/
def next : Hpc := nextHpc dc e.hpc e.insn e.op1 e.op2

/-- `BC_result`. -/
def result : BitVec 32 := execute dc e.hpc e.insn e.op1 e.op2 (e.next dc)

/-- `data_tla`. -/
def request : TilelinkA := genBus dc e.insn.op e.insn.f3 (e.addr dc) e.op2

/-- What stage C writes back, over the given data RAM. -/
def value : BitVec 32 :=
  if e.insn.op = opLoad ∧ Core.page (e.addr dc) = 0x8#4 then
    unpackMem e.insn.f3 (e.addr dc) (mem (wordIndex db (e.addr dc)))
  else e.result dc

/-- The instruction writes a register. -/
def writes : Bool := e.insn.rd != 0#5 && e.insn.op != opStore && e.insn.op != opBranch

/-- The write of the instruction. -/
def write : RegWrite := ⟨(regAddr e.hpc.hart e.insn.rd).setWidth 13, e.value dc mem, e.writes⟩

@[simp] theorem active_next : (e.next dc).active = e.hpc.active := rfl

@[simp] theorem hart_next : (e.next dc).hart = e.hpc.hart := rfl

theorem target_write : (e.write dc mem).target = cell (rowOf e.hpc.hart) e.insn.rd :=
  regAddr_target e.hpc.hart e.insn.rd

/-- The instruction neither switches threads nor accesses the mapped registers. -/
structure Tame : Prop where
  swap : e.insn.isCsrrw csrSwap = false
  yield : e.insn.isCsrrw csrYield = false
  load : e.insn.op = opLoad → Core.page (e.addr dc) ≠ 0xE#4
  store : e.insn.op = opStore → Core.page (e.addr dc) ≠ 0xE#4

end Issue

namespace Soc

variable {cb db : Nat} {dc : DontCare} {s : Soc cb db}

/-- What is in stage B. -/
def issue (s : Soc cb db) : Issue :=
  ⟨s.core.bHpc, s.core.bInsn, s.core.bcReg1 s.coreIn, s.core.bcReg2 s.coreIn⟩

theorem nextDataTla_eq : s.core.nextDataTla dc s.coreIn = s.issue.request dc := rfl

theorem bcHpc_eq : s.core.bcHpc dc s.coreIn = s.issue.next dc := rfl

/-- Without a swap in stage C and a yield in stage B, the thread in stage B goes on. -/
theorem baHpc_eq (hs : s.core.cdSwap = false) (hy : s.issue.insn.isCsrrw csrYield = false) :
    s.core.baHpc dc s.coreIn = s.issue.next dc :=
  Core.baHpc_eq hs (Core.bcYield_of_insn hy)

/-- The instruction that leaves stage B is no swap. -/
theorem noSwap_tock (h : s.issue.hpc.active = true → s.issue.insn.isCsrrw csrSwap = false) :
    (s.tock dc false).core.cdSwap = false := by
  cases ha : s.issue.hpc.active with
  | false => exact Core.cdSwap_of_idle ha
  | true => exact Core.cdSwap_of_insn (h ha)

/-- The write of an active stage C that does not store to the mapped registers. -/
theorem addr_cdWrite (ha : s.core.cHpc.active = true) (hw : s.core.cdWriteRegfile = false) :
    (s.cdWrite dc).addr = (regAddr s.core.cHpc.hart s.core.cInsn.rd).setWidth 13 := by
  have haddr : (s.cdWrite dc).addr = s.core.cdWaddr dc := rfl
  rw [haddr, Core.cdWaddr, hw, if_neg Bool.false_ne_true, if_pos ha]

/-- An idle stage C writes nothing. -/
theorem en_cdWrite (ha : s.core.cHpc.active = false) : (s.cdWrite dc).en = false := by
  have hen : (s.cdWrite dc).en = s.core.cdWren := rfl
  rw [hen, Core.cdWren, Core.cdWriteRegfile, ha]
  rfl

theorem active_of_cdWrite (h : (s.cdWrite dc).en = true) : s.core.cHpc.active = true := by
  rw [← Bool.not_eq_false]
  intro hidle
  exact absurd ((en_cdWrite hidle).symm.trans h) Bool.false_ne_true

/-- With an idle stage C only stage D has something to drain. -/
theorem drained_of_idle (h : s.core.cHpc.active = false) : s.drained dc = s.committed :=
  RegWrite.apply_of_disabled _ _ (en_cdWrite h)

/-- A disabled write is none of a store to the mapped registers. -/
theorem cdWriteRegfile_of_disabled (h : (s.cdWrite dc).en = false) :
    s.core.cdWriteRegfile = false := by
  rw [← Bool.not_eq_true]
  intro hw
  have hen : (s.cdWrite dc).en = true := if_pos hw
  exact absurd (h.symm.trans hen) Bool.false_ne_true

/-- The bypass is harmless to the thread that comes to stage A if the instruction in
stage C is of a hart on another row. -/
theorem bypassSound_tock_of_active (ha : s.core.cHpc.active = true)
    (hrow : (s.core.baHpc dc s.coreIn).active = true →
      rowOf s.core.cHpc.hart ≠ rowOf (s.core.baHpc dc s.coreIn).hart) :
    (s.tock dc false).BypassSound := by
  intro hact r _ _ hen ht
  have hdis : (s.cdWrite dc).en = false := hen
  have htgt : (s.cdWrite dc).target = cell (rowOf (s.core.baHpc dc s.coreIn).hart) r := ht
  rw [RegWrite.target, addr_cdWrite ha (cdWriteRegfile_of_disabled hdis), regAddr_target] at htgt
  exact absurd (cell_inj.mp htgt).1 (hrow hact)

/-- If stage C is empty, it is enough that `DONTCARE` names an `x0`. -/
theorem bypassSound_tock (hdc : dc.cdWaddr.setWidth 5 = 0#5)
    (hrow : s.core.cHpc.active = true → (s.core.baHpc dc s.coreIn).active = true →
      rowOf s.core.cHpc.hart ≠ rowOf (s.core.baHpc dc s.coreIn).hart) :
    (s.tock dc false).BypassSound := by
  cases ha : s.core.cHpc.active with
  | true => exact bypassSound_tock_of_active ha (hrow ha)
  | false =>
    intro hact r hr _ hen ht
    have hdis : (s.cdWrite dc).en = false := hen
    have htgt : (s.cdWrite dc).target = cell (rowOf (s.core.baHpc dc s.coreIn).hart) r := ht
    have haddr : (s.cdWrite dc).addr = dc.cdWaddr.setWidth 13 := by
      have haddr : (s.cdWrite dc).addr = s.core.cdWaddr dc := rfl
      rw [haddr, Core.cdWaddr, cdWriteRegfile_of_disabled hdis, if_neg Bool.false_ne_true,
        if_neg (by rw [ha]; exact Bool.false_ne_true)]
    have hlow := congrArg (BitVec.setWidth 5) htgt
    rw [RegWrite.target, haddr, BitVec.setWidth_setWidth_of_le _ (by decide),
      BitVec.setWidth_setWidth_of_le _ (by decide), hdc, cell,
      BitVec.setWidth_append_eq_right] at hlow
    exact absurd hlow.symm hr

/-- **The write of an instruction** that was in stage B is the one its operands
and the data RAM determine. -/
theorem cdWrite_tock (dc' : DontCare) (ha : s.issue.hpc.active = true)
    (ht : s.issue.Tame dc) :
    (s.tock dc false).cdWrite dc' = s.issue.write dc s.dataRam.ram.ram := by
  have hact : (s.tock dc false).core.cHpc.active = true := ha
  have hwr : (s.tock dc false).core.cdWriteRegfile = false :=
    Core.access_eq_false fun _ ↦ ht.store
  have hrr : (s.tock dc false).core.cdReadRegfile = false :=
    Core.access_eq_false fun _ ↦ ht.load
  have hyield : (s.tock dc false).core.cdYield = false := Core.cdYield_of_insn ht.yield
  have hswap : (s.tock dc false).core.cdSwap = false := Core.cdSwap_of_insn ht.swap
  have hwb : (s.tock dc false).core.cdWriteback dc' (s.tock dc false).coreIn =
      s.issue.value dc s.dataRam.ram.ram := by
    rw [Core.cdWriteback, hyield, hswap, hrr, if_neg Bool.false_ne_true,
      if_neg Bool.false_ne_true, if_neg Bool.false_ne_true, Issue.value]
    by_cases hmem : s.issue.insn.op = opLoad ∧ Core.page (s.issue.addr dc) = 0x8#4
    · have hread : (s.tock dc false).core.cdReadMem = true :=
        Core.access_eq_true hact hmem.1 hmem.2
      rw [if_pos hread, if_pos hmem]
      exact congrArg (unpackMem _ _) (getDataTld_tock false hmem.2)
    · have hread : (s.tock dc false).core.cdReadMem = false :=
        Core.access_eq_false fun _ hop hpage ↦ hmem ⟨hop, hpage⟩
      rw [hread, if_neg Bool.false_ne_true, if_pos hact, if_neg hmem]
      rfl
  rw [cdWrite, Core.cdWrite, Core.cdWdata, Core.cdWren, Core.cdWaddr, hwr, hwb,
    if_neg Bool.false_ne_true, if_neg Bool.false_ne_true, if_neg Bool.false_ne_true, if_pos hact,
    if_pos hact, if_pos hact]
  rfl

end Soc

/-! ## Threads between instructions -/

/-- A thread between two instructions: its handle and its registers, of which
`x0` is not one. -/
structure Thread where
  hpc : Hpc
  x : BitVec 5 → BitVec 32

namespace Thread

variable {cb db : Nat}

/-- What a register reads as. -/
def read (t : Thread) (r : BitVec 5) : BitVec 32 := if r = 0#5 then 0#32 else t.x r

/-- The instruction word at the thread's pc. -/
def fetch (code : BitVec cb → BitVec 32) (t : Thread) : Insn :=
  ⟨code (wordIndex cb (t.hpc.pc.setWidth 32))⟩

/-- An instruction of a thread with its operands. -/
def issue (i : Insn) (t : Thread) : Issue := ⟨t.hpc, i, t.read i.rs1, t.read i.rs2⟩

end Thread

/-- The thread after an instruction. -/
def Issue.retire {db : Nat} (dc : DontCare) (mem : BitVec db → BitVec 32)
    (x : BitVec 5 → BitVec 32) (e : Issue) : Thread where
  hpc := e.next dc
  x r := if e.writes ∧ e.insn.rd = r then e.value dc mem else x r

theorem Issue.retire_zero {db : Nat} {dc : DontCare} {mem : BitVec db → BitVec 32}
    {x : BitVec 5 → BitVec 32} {e : Issue} : (e.retire dc mem x).x 0#5 = x 0#5 := by
  refine if_neg ?_
  rintro ⟨hw, hrd⟩
  rw [Issue.writes, hrd, bne_self_eq_false, Bool.false_and, Bool.false_and] at hw
  exact Bool.false_ne_true hw

/-- The write stays off the registers of a row. -/
def RegWrite.Off (w : RegWrite) (row : BitVec 3) : Prop :=
  w.en = true → ∀ r, r ≠ 0#5 → w.target ≠ cell row r

/-- An instruction keeps off the rows of other harts. -/
theorem Issue.off_write {db : Nat} {dc : DontCare} {e : Issue} {mem : BitVec db → BitVec 32}
    {row : BitVec 3} (h : rowOf e.hpc.hart ≠ row) : (e.write dc mem).Off row := by
  intro _ r _ ht
  rw [e.target_write] at ht
  exact h (cell_inj.mp ht).1

namespace Soc

variable {cb db : Nat} (dc : DontCare) (s : Soc cb db)

/-- The drained registers of a hart are the given ones. -/
def HoldsRow (hart : BitVec 7) (x : BitVec 5 → BitVec 32) : Prop :=
  ∀ r, r ≠ 0#5 → s.drained dc (cell (rowOf hart) r) = x r

/-- A thread is in stage A, and the code RAM has an instruction for it. -/
structure InA (i : Insn) (t : Thread) : Prop where
  active : t.hpc.active = true
  hpc : s.core.aHpc = t.hpc
  insn : Insn.mk s.codeRam.ram.rdata = i
  row : s.HoldsRow dc t.hpc.hart t.x
  forward : ∀ r, r ≠ 0#5 → s.ForwardAt dc r

/-- An instruction is in stage B, its thread has the given registers. -/
structure InB (e : Issue) (x : BitVec 5 → BitVec 32) : Prop where
  active : e.hpc.active = true
  issue : s.issue = e
  row : s.HoldsRow dc e.hpc.hart x

variable {dc s} {code : BitVec cb → BitVec 32} {i : Insn} {t : Thread} {e : Issue}
  {x : BitVec 5 → BitVec 32}

/-- The forward is exact for a write of the hart in stage A itself. -/
theorem forwardAt_of_addr {rd : BitVec 5}
    (h : (s.cdWrite dc).addr = (regAddr s.core.aHpc.hart rd).setWidth 13) (r : BitVec 5) :
    s.ForwardAt dc r := by
  intro _ ht
  rw [RegWrite.target, h, regAddr_target] at ht
  rw [h, (cell_inj.mp ht).2]

/-- It is exact as well if the write is to another row. -/
theorem forwardAt_of_off (h : (s.cdWrite dc).Off (rowOf s.core.aHpc.hart)) {r : BitVec 5}
    (hr : r ≠ 0#5) : s.ForwardAt dc r :=
  fun he ht ↦ absurd ht (h he r hr)

/-- Writes to other rows leave the registers of a thread alone. -/
theorem HoldsRow.tock {hart : BitVec 7} {dc' : DontCare} (h : s.HoldsRow dc hart x)
    (hoff : ((s.tock dc false).cdWrite dc').Off (rowOf hart)) :
    (s.tock dc false).HoldsRow dc' hart x := by
  intro r hr
  rw [drained_tock, RegWrite.apply_of_miss _ _ fun he ↦ hoff he r hr]
  exact h r hr

theorem InA.abInsn (h : s.InA dc i t) : s.core.abInsn s.coreIn = i := by
  rw [Core.abInsn, if_pos (by rw [h.hpc]; exact h.active)]
  exact h.insn

/-- What a thread in stage A reads is what stage B will see. -/
theorem InA.operand (h : s.InA dc i t) (hb : s.BypassSound) {r : BitVec 5}
    (hr : r = i.rs1 ∨ r = i.rs2) :
    (if r = 0#5 then 0#32 else s.operand dc r) = t.read r := by
  unfold Thread.read
  split_ifs with h0
  · rfl
  · have ha : s.core.aHpc.active = true := by
      rw [h.hpc]
      exact h.active
    rw [operand_eq_drained (hb ha r h0 (by rw [h.abInsn]; exact hr)) (h.forward r h0), h.hpc]
    exact h.row r h0

/-- **From stage A to stage B.** -/
theorem InA.tock (h : s.InA dc i t) (hm : s.Mirrored) (hb : s.BypassSound) {dc' : DontCare}
    (hoff : ((s.tock dc false).cdWrite dc').Off (rowOf t.hpc.hart)) :
    (s.tock dc false).InB dc' (t.issue i) t.x := by
  have ha : s.core.aHpc.active = true := by
    rw [h.hpc]
    exact h.active
  refine ⟨h.active, ?_, h.row.tock hoff⟩
  have hop1 := h.operand hb (.inl rfl)
  have hop2 := h.operand hb (.inr rfl)
  rw [issue, bcReg1_tock ha, bcReg2_tock hm ha, h.abInsn, hop1, hop2]
  have hhpc : (s.tock dc false).core.bHpc = t.hpc := h.hpc
  have hinsn : (s.tock dc false).core.bInsn = i := h.abInsn
  rw [hhpc, hinsn]
  rfl

/-- The registers of a thread after its instruction has left stage B. -/
theorem InB.row_tock (h : s.InB dc e x) (ht : e.Tame dc) (dc' : DontCare) :
    (s.tock dc false).HoldsRow dc' e.hpc.hart (e.retire dc s.dataRam.ram.ram x).x := by
  obtain ⟨hact, rfl, hrow⟩ := h
  intro r hr
  rw [drained_tock, cdWrite_tock dc' hact ht]
  by_cases hw : s.issue.writes = true ∧ s.issue.insn.rd = r
  · rw [RegWrite.apply_of_hit _ _ hw.1 (by rw [Issue.target_write, hw.2])]
    exact (if_pos hw).symm
  · rw [RegWrite.apply_of_miss, hrow r hr]
    · exact (if_neg hw).symm
    · intro hen htgt
      rw [Issue.target_write] at htgt
      exact hw ⟨hen, (cell_inj.mp htgt).2⟩

/-- The write of an instruction that neither is on the row nor stores to the mapped
registers keeps off the row, whatever else it does. -/
theorem off_cdWrite_tock {row : BitVec 3} (dc' : DontCare)
    (h : s.issue.hpc.active = true → rowOf s.issue.hpc.hart ≠ row ∧
      (s.issue.insn.op = opStore → Core.page (s.issue.addr dc) ≠ 0xE#4)) :
    ((s.tock dc false).cdWrite dc').Off row := by
  intro hen r _ ht
  have ha : (s.tock dc false).core.cHpc.active = true := active_of_cdWrite hen
  obtain ⟨hrow, hstore⟩ := h ha
  have hwr : (s.tock dc false).core.cdWriteRegfile = false :=
    Core.access_eq_false fun _ ↦ hstore
  rw [RegWrite.target, addr_cdWrite ha hwr, regAddr_target] at ht
  exact hrow (cell_inj.mp ht).1

/-- **From stage B to stage A**, without a switch. -/
theorem InB.tock (h : s.InB dc e x) (ht : e.Tame dc) (hs : s.core.cdSwap = false)
    (hc : s.codeRam.ram.ram = code) (dc' : DontCare) :
    (s.tock dc false).InA dc' ((e.retire dc s.dataRam.ram.ram x).fetch code)
      (e.retire dc s.dataRam.ram.ram x) := by
  have hba : s.core.baHpc dc s.coreIn = e.next dc := by
    rw [baHpc_eq hs (by rw [h.issue]; exact ht.yield), h.issue]
  refine ⟨h.active, hba, ?_, h.row_tock ht dc', ?_⟩
  · have hact : (s.core.baHpc dc s.coreIn).active = true := by
      rw [hba]
      exact h.active
    rw [fetch_tock false (stealsCode_of_active hact), hc, hba]
    rfl
  · have hhart : (s.core.baHpc dc s.coreIn).hart = (e.next dc).hart := by rw [hba]
    rw [Issue.hart_next] at hhart
    obtain ⟨hactive, rfl, -⟩ := h
    intro r _
    refine @forwardAt_of_addr _ _ _ _ s.issue.insn.rd ?_ r
    have hnew : (s.tock dc false).core.aHpc.hart = s.issue.hpc.hart := hhart
    rw [cdWrite_tock dc' hactive ht, hnew]
    rfl

/-! ## Two threads that copy a register -/

/-- Without switches the slots keep their threads. -/
theorem baHpc_keeps (hs : s.core.cInsn.isCsrrw csrSwap = false)
    (hy : s.core.bInsn.isCsrrw csrYield = false) :
    (s.core.baHpc dc s.coreIn).active = s.core.bHpc.active ∧
      (s.core.baHpc dc s.coreIn).hart = s.core.bHpc.hart := by
  rw [baHpc_eq (Core.cdSwap_of_insn hs) hy]
  exact ⟨rfl, rfl⟩

/-- The thread of hart 0 is in stage A and `y` in stage B.  Every instruction of the
program is `addi x2, x1, 0`, and the disabled write in stage D would put `d` into
`x1` of hart 0. -/
def copying (y : Hpc) (d : BitVec 32) : Soc 1 1 :=
  let s := blank fun _ ↦ 0x00008113#32
  { s with
    core :=
      { s.core with
        aHpc := ⟨true, 0#7, 4#24⟩
        bHpc := y
        bInsn := ⟨0x00008113#32⟩
        dWaddr := 1#13
        dWdata := d }
    codeRam := { s.codeRam with ram := { s.codeRam.ram with rdata := 0x00008113#32 } } }

/-- An instruction of `copying`, or the empty one that the reset latches. -/
def IsCopy (i : Insn) : Prop := i = ⟨0x00008113#32⟩ ∨ i = ⟨0#32⟩

theorem IsCopy.plain {i : Insn} (h : IsCopy i) :
    i.op ≠ opLoad ∧ i.op ≠ opStore ∧ i.isCsrrw csrSwap = false ∧ i.isCsrrw csrYield = false := by
  rcases h with rfl | rfl <;> decide

theorem copying_only (dcs : ℕ → DontCare) (y : Hpc) (d : BitVec 32) (n : ℕ) :
    (states dcs (copying y d) n).Only IsCopy :=
  Only.states ⟨fun _ ↦ .inl rfl, .inl rfl, .inl rfl, .inr rfl⟩ (.inr rfl) (fun _ h ↦ h.plain.2.1)
    dcs n

end Soc

end Pinwheel
