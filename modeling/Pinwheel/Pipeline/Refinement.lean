import Pinwheel.Pipeline.Rv32i

/-!
# The pipeline refines sequential RV32I

The sequential machine has two slots, a register file of eight rows and a memory
of bytes.  In each step it executes one whole instruction of the thread in slot B,
and the slots change places.  The pipeline, with its writes drained, is in step
with it.
-/

namespace Pinwheel

open RV32I

/-! ## The sequential machine -/

/-- A thread of the sequential machine. -/
structure SeqThread where
  hart : BitVec 7
  pc : BitVec 24
deriving DecidableEq, Repr

/-- The sequential machine, with `4 * 2 ^ db` bytes of data. -/
structure Sequential (db : ℕ) where
  a : Option SeqThread
  b : Option SeqThread
  regs : BitVec 3 → BitVec 5 → BitVec 32
  mem : Rv32i.Memory (db + 2)

namespace Sequential

variable {cb db : ℕ} (code : BitVec cb → BitVec 32)

/-- The hart that executes a thread's instruction. -/
def hart (σ : Sequential db) (t : SeqThread) : Rv32i.Hart :=
  ⟨t.pc.setWidth 32, σ.regs (rowOf t.hart)⟩

/-- The machine after a thread's instruction has had its outcome. -/
def retire (σ : Sequential db) (t : SeqThread)
    (outcome : Rv32i.Hart × Rv32i.Memory (db + 2)) : Sequential db where
  a := some ⟨t.hart, outcome.1.pc.setWidth 24⟩
  b := σ.a
  regs := Function.update σ.regs (rowOf t.hart) outcome.1.x
  mem := outcome.2

/-- One instruction of the thread in slot B, if it is legal. -/
def step (σ : Sequential db) : Option (Sequential db) :=
  match σ.b with
  | none => some { σ with a := none, b := σ.a }
  | some t =>
    (Rv32i.decode (code (wordIndex cb (t.pc.setWidth 32)))).bind fun i ↦
      if Inside (σ.hart t) i then some (σ.retire t (i.exec (σ.hart t) σ.mem)) else none

/-- `n` steps. -/
def run : ℕ → Sequential db → Option (Sequential db)
  | 0, σ => some σ
  | n + 1, σ => (run n σ).bind (step code)

end Sequential

namespace Soc

variable {cb db : ℕ} (dc : DontCare) (s : Soc cb db)

/-! ## What a state of the pipeline stands for -/

/-- The thread of a handle, if it is active. -/
def slot (h : Hpc) : Option SeqThread := if h.active then some ⟨h.hart, h.pc⟩ else none

/-- The drained registers of a row. -/
def rows (row : BitVec 3) (r : BitVec 5) : BitVec 32 :=
  if r = 0#5 then 0#32 else s.drained dc (cell row r)

/-- The sequential state. -/
def abs : Sequential db where
  a := slot s.core.aHpc
  b := slot s.core.bHpc
  regs := s.rows dc
  mem := ramBytes s.dataRam.ram.ram

def threadA : Thread := ⟨s.core.aHpc, s.rows dc (rowOf s.core.aHpc.hart)⟩

def threadB : Thread := ⟨s.core.bHpc, s.rows dc (rowOf s.core.bHpc.hart)⟩

theorem rows_zero (row : BitVec 3) : s.rows dc row 0#5 = 0#32 := if_pos rfl

variable {dc s}

theorem HoldsRow.rows_eq {hart : BitVec 7} {x : BitVec 5 → BitVec 32} (h : s.HoldsRow dc hart x)
    (h0 : x 0#5 = 0#32) : s.rows dc (rowOf hart) = x := by
  funext r
  unfold rows
  split_ifs with hr
  · rw [hr, h0]
  · exact h r hr

theorem holdsRow_rows (hart : BitVec 7) : s.HoldsRow dc hart (s.rows dc (rowOf hart)) :=
  fun _ hr ↦ (if_neg hr).symm

/-- A write off a row leaves it alone. -/
theorem rows_of_off {dc' : DontCare} {row : BitVec 3}
    (h : ((s.tock dc false).cdWrite dc').Off row) :
    (s.tock dc false).rows dc' row = s.rows dc row := by
  funext r
  unfold rows
  split_ifs with hr
  · rfl
  · rw [drained_tock, RegWrite.apply_of_miss _ _ fun he ↦ h he r hr]

/-! ## The simulation relation -/

/-- Every stage holds what the sequential state says. -/
structure Synced (code : BitVec cb → BitVec 32) (dc : DontCare) (s : Soc cb db) : Prop where
  mirrored : s.Mirrored
  program : s.codeRam.ram.ram = code
  a : s.core.aHpc.active = true → s.InA dc ((s.threadA dc).fetch code) (s.threadA dc)
  b : s.core.bHpc.active = true →
    s.InB dc ((s.threadB dc).issue ((s.threadB dc).fetch code)) (s.threadB dc).x
  idle : s.core.bHpc.active = false → s.core.bInsn.op ≠ opStore
  harts : s.core.aHpc.active = true → s.core.bHpc.active = true →
    rowOf s.core.aHpc.hart ≠ rowOf s.core.bHpc.hart
  behind : s.core.cHpc.active = true → s.core.bHpc.active = true →
    rowOf s.core.cHpc.hart ≠ rowOf s.core.bHpc.hart
  swap : s.core.cdSwap = false
  writeCode : s.core.cdWriteCode = false

variable {code : BitVec cb → BitVec 32} {dc' : DontCare}

/-- The thread in stage A comes to stage B. -/
theorem Synced.stageB (h : Synced code dc s) (hb : s.BypassSound)
    (hoff : s.core.aHpc.active = true →
      ((s.tock dc false).cdWrite dc').Off (rowOf s.core.aHpc.hart))
    (ha : s.core.aHpc.active = true) :
    (s.tock dc false).InB dc'
      (((s.tock dc false).threadB dc').issue (((s.tock dc false).threadB dc').fetch code))
      ((s.tock dc false).threadB dc').x := by
  have hthread : (s.tock dc false).threadB dc' = s.threadA dc := by
    have hdef : (s.tock dc false).threadB dc' =
        ⟨s.core.aHpc, (s.tock dc false).rows dc' (rowOf s.core.aHpc.hart)⟩ := rfl
    rw [hdef, rows_of_off (hoff ha)]
    rfl
  rw [hthread]
  exact (h.a ha).tock h.mirrored hb (hoff ha)

theorem Synced.code_tock (h : Synced code dc s) : (s.tock dc false).codeRam.ram.ram = code :=
  (codeRam_tock false fun _ ↦ h.writeCode).trans h.program

theorem idle_tock (h : (s.tock dc false).core.bHpc.active = false) :
    (s.tock dc false).core.bInsn.op ≠ opStore := by
  have hinsn : (s.tock dc false).core.bInsn = ⟨0#32⟩ := Core.abInsn_of_idle h
  rw [hinsn]
  decide

/-- **A step with an empty slot B.** -/
theorem Synced.tock_idle (h : Synced code dc s) (hb : s.BypassSound)
    (hi : s.core.bHpc.active = false) (dc' : DontCare) :
    Synced code dc' (s.tock dc false) ∧
      (s.tock dc false).abs dc' = { s.abs dc with a := none, b := (s.abs dc).a } := by
  have hen : ((s.tock dc false).cdWrite dc').en = false := en_cdWrite hi
  have hoff : ∀ row, ((s.tock dc false).cdWrite dc').Off row :=
    fun row he ↦ absurd (hen.symm.trans he) Bool.false_ne_true
  have hact : (s.tock dc false).core.aHpc.active = false := Core.baHpc_of_idle h.swap hi
  have hcact : (s.tock dc false).core.cHpc.active = false := hi
  constructor
  · refine ⟨h.mirrored.tock false, h.code_tock, fun ha ↦ absurd (hact.symm.trans ha) (by decide),
      h.stageB hb fun _ ↦ hoff _, idle_tock, fun ha ↦ absurd (hact.symm.trans ha) (by decide),
      fun ha ↦ absurd (hcact.symm.trans ha) (by decide), Core.cdSwap_of_idle hcact,
      Core.access_of_idle hcact⟩
  · have ha : slot (s.tock dc false).core.aHpc = none := if_neg (by rw [hact]; decide)
    have hregs : (s.tock dc false).rows dc' = s.rows dc := funext fun row ↦ rows_of_off (hoff row)
    have hmem : (s.tock dc false).dataRam.ram.ram = s.dataRam.ram.ram := by
      rw [dataRam_tock, nextDataTla_eq]
      exact Executes.store_request (h.idle hi)
    rw [abs, ha, hregs, hmem]
    rfl

section Exec

variable {outcome : Rv32i.Hart × Rv32i.Memory (db + 2)}

theorem Synced.issue_eq (h : Synced code dc s) (ha : s.core.bHpc.active = true) :
    s.issue = (s.threadB dc).issue ((s.threadB dc).fetch code) := (h.b ha).issue

/-- The other rows are left alone. -/
theorem Synced.off_tock (h : Synced code dc s) (ha : s.core.bHpc.active = true)
    (hex : Executes dc s.dataRam.ram.ram (s.threadB dc) ((s.threadB dc).fetch code) outcome)
    (dc' : DontCare) {row : BitVec 3} (hrow : row ≠ rowOf s.core.bHpc.hart) :
    ((s.tock dc false).cdWrite dc').Off row := by
  have hwrite : (s.tock dc false).cdWrite dc' = s.issue.write dc s.dataRam.ram.ram :=
    cdWrite_tock dc' ha (by rw [h.issue_eq ha]; exact hex.tame)
  rw [hwrite]
  exact Issue.off_write (Ne.symm hrow)

/-- The thread's row holds what its instruction leaves there. -/
theorem Synced.rows_tock (h : Synced code dc s) (ha : s.core.bHpc.active = true)
    (hex : Executes dc s.dataRam.ram.ram (s.threadB dc) ((s.threadB dc).fetch code) outcome)
    (dc' : DontCare) :
    (s.tock dc false).rows dc' (rowOf s.core.bHpc.hart) =
      (s.issue.retire dc s.dataRam.ram.ram (s.threadB dc).x).x := by
  have hholds := (h.b ha).row_tock hex.tame dc'
  rw [← h.issue_eq ha] at hholds
  exact hholds.rows_eq (Issue.retire_zero.trans (rows_zero dc s (rowOf s.core.bHpc.hart)))

theorem Synced.next_eq (h : Synced code dc s) (ha : s.core.bHpc.active = true)
    (hex : Executes dc s.dataRam.ram.ram (s.threadB dc) ((s.threadB dc).fetch code) outcome) :
    s.core.baHpc dc s.coreIn = s.issue.next dc :=
  baHpc_eq h.swap (by rw [h.issue_eq ha]; exact hex.tame.yield)

/-- Slot A gets the thread after its instruction. -/
theorem Synced.threadA_tock (h : Synced code dc s) (ha : s.core.bHpc.active = true)
    (hex : Executes dc s.dataRam.ram.ram (s.threadB dc) ((s.threadB dc).fetch code) outcome)
    (dc' : DontCare) :
    (s.tock dc false).threadA dc' = s.issue.retire dc s.dataRam.ram.ram (s.threadB dc).x := by
  have hthread : (s.tock dc false).threadA dc' = ⟨s.core.baHpc dc s.coreIn,
      (s.tock dc false).rows dc' (rowOf (s.core.baHpc dc s.coreIn).hart)⟩ := rfl
  rw [hthread, h.next_eq ha hex, Issue.hart_next]
  exact congrArg (Thread.mk _) (h.rows_tock ha hex dc')

/-- The relation is kept. -/
theorem Synced.synced_tock (h : Synced code dc s) (hb : s.BypassSound)
    (ha : s.core.bHpc.active = true)
    (hex : Executes dc s.dataRam.ram.ram (s.threadB dc) ((s.threadB dc).fetch code) outcome)
    (dc' : DontCare) : Synced code dc' (s.tock dc false) := by
  have hissue := h.issue_eq ha
  refine ⟨h.mirrored.tock false, h.code_tock, fun _ ↦ ?_,
    h.stageB hb fun hact ↦ h.off_tock ha hex dc' (h.harts hact ha), idle_tock,
    fun _ hact ↦ ?_, fun _ hact ↦ Ne.symm (h.harts hact ha), ?_, ?_⟩
  · rw [h.threadA_tock ha hex, hissue]
    exact (h.b ha).tock hex.tame h.swap h.program dc'
  · have hhart : (s.tock dc false).core.aHpc.hart = (s.issue.next dc).hart :=
      congrArg Hpc.hart (h.next_eq ha hex)
    rw [hhart]
    exact Ne.symm (h.harts hact ha)
  · refine noSwap_tock fun _ ↦ ?_
    rw [hissue]
    exact hex.tame.swap
  · refine Core.access_eq_false fun _ hop hpage ↦ ?_
    have hinsn : (s.threadB dc).fetch code = s.core.bInsn := congrArg Issue.insn hissue.symm
    refine hex.noCode (hinsn ▸ hop) ?_
    rw [← hissue]
    exact hpage

/-- The sequential state has the outcome of the instruction. -/
theorem Synced.abs_tock (h : Synced code dc s) (ha : s.core.bHpc.active = true)
    (hex : Executes dc s.dataRam.ram.ram (s.threadB dc) ((s.threadB dc).fetch code) outcome)
    (dc' : DontCare) :
    (s.tock dc false).abs dc' =
      (s.abs dc).retire ⟨s.core.bHpc.hart, s.core.bHpc.pc⟩ outcome := by
  have hissue := h.issue_eq ha
  have hslot : slot (s.tock dc false).core.aHpc =
      some ⟨s.core.bHpc.hart, (s.issue.next dc).pc⟩ := by
    have hnext : (s.tock dc false).core.aHpc = s.issue.next dc := h.next_eq ha hex
    rw [hnext]
    exact if_pos ha
  have hregs : (s.tock dc false).rows dc' =
      Function.update (s.rows dc) (rowOf s.core.bHpc.hart) outcome.1.x := by
    funext row
    by_cases hr : row = rowOf s.core.bHpc.hart
    · rw [hr, Function.update_self, h.rows_tock ha hex, hissue, hex.x]
    · rw [Function.update_of_ne hr, rows_of_off (h.off_tock ha hex dc' hr)]
  have hmem : ramBytes (s.tock dc false).dataRam.ram.ram = outcome.2 := by
    rw [dataRam_tock, nextDataTla_eq, hissue, hex.mem]
  rw [abs, hslot, hregs, hmem, hissue, hex.pc]
  rfl

end Exec

/-- **A step with an instruction in slot B.** -/
theorem Synced.tock_exec (h : Synced code dc s) (hb : s.BypassSound)
    (ha : s.core.bHpc.active = true) {i : Rv32i.Instr}
    (hd : Rv32i.decode ((s.threadB dc).fetch code).raw = some i)
    (hin : Inside (s.threadB dc).toHart i = true) (dc' : DontCare) :
    Synced code dc' (s.tock dc false) ∧
      (s.tock dc false).abs dc' = (s.abs dc).retire ⟨s.core.bHpc.hart, s.core.bHpc.pc⟩
        (i.exec (s.threadB dc).toHart (s.abs dc).mem) := by
  have hex := @Executes.of_decode _ dc s.dataRam.ram.ram _ _ _ hd hin
  exact ⟨h.synced_tock hb ha hex dc', h.abs_tock ha hex dc'⟩

/-! ## Whole runs -/

/-- Nothing is in flight in stages C and D, the threads in the slots do not share
registers, and what the RAMs have latched belongs to them. -/
structure Ready (s : Soc cb db) : Prop where
  mirrored : s.Mirrored
  cIdle : s.core.cHpc.active = false
  dIdle : s.core.dWren = false
  harts : s.core.aHpc.active = true → s.core.bHpc.active = true →
    rowOf s.core.aHpc.hart ≠ rowOf s.core.bHpc.hart
  fetched : s.core.aHpc.active = true →
    s.codeRam.ram.rdata = s.codeRam.ram.ram (wordIndex cb (s.core.aHpc.pc.setWidth 32))
  latched : s.core.bHpc.active = true →
    s.core.bInsn.raw = s.codeRam.ram.ram (wordIndex cb (s.core.bHpc.pc.setWidth 32))
  read1 : s.core.bHpc.active = true →
    s.regs.getRs1 = s.file (cell (rowOf s.core.bHpc.hart) s.core.bInsn.rs1)
  read2 : s.core.bHpc.active = true →
    s.regs.getRs2 = s.file (cell (rowOf s.core.bHpc.hart) s.core.bInsn.rs2)

/-- The sequential state to start from, with the registers as they are in the
register file. -/
def still (s : Soc cb db) : Sequential db where
  a := slot s.core.aHpc
  b := slot s.core.bHpc
  regs row r := if r = 0#5 then 0#32 else s.file (cell row r)
  mem := ramBytes s.dataRam.ram.ram

theorem Ready.drained (h : s.Ready) (a : BitVec 8) : s.drained dc a = s.file a := by
  rw [drained_of_idle h.cIdle, committed_of_disabled h.dIdle]

theorem Ready.rows (h : s.Ready) (row : BitVec 3) (r : BitVec 5) :
    s.rows dc row r = if r = 0#5 then 0#32 else s.file (cell row r) := by
  rw [Soc.rows, h.drained]

theorem Ready.abs (h : s.Ready) : s.abs dc = s.still := by
  rw [Soc.abs, still, show s.rows dc = _ from funext fun row ↦ funext (h.rows row)]

theorem Ready.synced (h : s.Ready)
    (hidle : s.core.bHpc.active = false → s.core.bInsn.op ≠ opStore) (dc : DontCare) :
    Synced s.codeRam.ram.ram dc s := by
  have hread : ∀ (port : BitVec 32) (r : BitVec 5),
      port = s.file (cell (rowOf s.core.bHpc.hart) r) →
      (if r = 0#5 then 0#32 else
        if s.core.dWaddr = (regAddr s.core.bHpc.hart r).setWidth 13 ∧ s.core.dWren then
          s.core.dWdata
        else port) = (s.threadB dc).read r := by
    intro port r hport
    have hoff : ¬(s.core.dWaddr = (regAddr s.core.bHpc.hart r).setWidth 13 ∧ s.core.dWren = true) :=
      fun hd ↦ absurd (h.dIdle.symm.trans hd.2) Bool.false_ne_true
    rw [if_neg hoff, hport, Thread.read]
    by_cases hr : r = 0#5
    · rw [if_pos hr, if_pos hr]
    · have hx : (s.threadB dc).x r = _ := h.rows (rowOf s.core.bHpc.hart) r
      rw [if_neg hr, if_neg hr, hx, if_neg hr]
  refine ⟨h.mirrored, rfl, fun ha ↦ ?_, fun ha ↦ ?_, hidle, h.harts,
    fun ha ↦ absurd (h.cIdle.symm.trans ha) Bool.false_ne_true, Core.cdSwap_of_idle h.cIdle,
    Core.access_of_idle h.cIdle⟩
  · exact ⟨ha, rfl, congrArg Insn.mk (h.fetched ha), holdsRow_rows _,
      fun r _ he ↦ absurd ((en_cdWrite h.cIdle).symm.trans he) Bool.false_ne_true⟩
  · have hinsn : s.core.bInsn = (s.threadB dc).fetch s.codeRam.ram.ram :=
      congrArg Insn.mk (h.latched ha)
    refine ⟨ha, ?_, holdsRow_rows _⟩
    rw [← hinsn]
    have hop1 : s.core.bcReg1 s.coreIn = (s.threadB dc).read s.core.bInsn.rs1 :=
      hread _ _ (h.read1 ha)
    have hop2 : s.core.bcReg2 s.coreIn = (s.threadB dc).read s.core.bInsn.rs2 :=
      hread _ _ (h.read2 ha)
    rw [issue, hop1, hop2]
    rfl

/-- **A step of the sequential machine is a tock.** -/
theorem Synced.tock (h : Synced code dc s) (hb : s.BypassSound) {σ : Sequential db}
    (hstep : (s.abs dc).step code = some σ) (dc' : DontCare) :
    Synced code dc' (s.tock dc false) ∧ (s.tock dc false).abs dc' = σ := by
  cases ha : s.core.bHpc.active with
  | false =>
    have hslot : (s.abs dc).b = none := if_neg (by rw [ha]; exact Bool.false_ne_true)
    rw [Sequential.step, hslot] at hstep
    cases hstep
    exact h.tock_idle hb ha dc'
  | true =>
    have hslot : (s.abs dc).b = some ⟨s.core.bHpc.hart, s.core.bHpc.pc⟩ := if_pos ha
    rw [Sequential.step, hslot] at hstep
    obtain ⟨i, hd, hi⟩ := Option.bind_eq_some_iff.mp hstep
    split_ifs at hi with hin
    cases hi
    exact h.tock_exec hb ha hd hin dc'

variable {dcs : ℕ → DontCare} {n : ℕ} {σ : Sequential db}

theorem synced_states (h : Synced code (dcs 0) s) (hb : ∀ m < n, (states dcs s m).BypassSound)
    (hrun : Sequential.run code n (s.abs (dcs 0)) = some σ) :
    Synced code (dcs n) (states dcs s n) ∧ (states dcs s n).abs (dcs n) = σ := by
  induction n generalizing σ with
  | zero =>
    cases hrun
    exact ⟨h, rfl⟩
  | succ n ih =>
    obtain ⟨σ', hrun', hstep⟩ := Option.bind_eq_some_iff.mp hrun
    obtain ⟨hsync, rfl⟩ := ih (fun m hm ↦ hb m (Nat.lt_succ_of_lt hm)) hrun'
    exact hsync.tock (hb n (Nat.lt_succ_self n)) hstep _

/-- If `DONTCARE` names an `x0` for an idle stage C, a legal instruction is followed
by a harmless bypass. -/
theorem Synced.bypassSound_tock (h : Synced code dc s) (hb : s.BypassSound) {σ : Sequential db}
    (hstep : (s.abs dc).step code = some σ) (hdc : dc.cdWaddr.setWidth 5 = 0#5) :
    (s.tock dc false).BypassSound := by
  refine Soc.bypassSound_tock hdc fun hc ha ↦ ?_
  have hslot : slot (s.core.baHpc dc s.coreIn) = σ.a :=
    congrArg Sequential.a (h.tock hb hstep dc).2
  rw [slot, if_pos ha] at hslot
  cases hact : s.core.bHpc.active with
  | false =>
    have hnone : (s.abs dc).b = none := if_neg (by rw [hact]; exact Bool.false_ne_true)
    rw [Sequential.step, hnone] at hstep
    cases hstep
    exact absurd hslot (by simp)
  | true =>
    have hsome : (s.abs dc).b = some ⟨s.core.bHpc.hart, s.core.bHpc.pc⟩ := if_pos hact
    rw [Sequential.step, hsome] at hstep
    obtain ⟨i, -, hi⟩ := Option.bind_eq_some_iff.mp hstep
    split_ifs at hi
    cases hi
    have hhart : (s.core.baHpc dc s.coreIn).hart = s.core.bHpc.hart :=
      congrArg SeqThread.hart (Option.some.inj hslot)
    rw [hhart]
    exact h.behind hc hact

/-- So the bypass can only do harm in the first tock. -/
theorem bypassSound_states (h : Synced code (dcs 0) s) (hb : s.BypassSound)
    (hdc : ∀ n, (dcs n).cdWaddr.setWidth 5 = 0#5)
    (hrun : Sequential.run code n (s.abs (dcs 0)) = some σ) :
    ∀ m ≤ n, (states dcs s m).BypassSound := by
  induction n generalizing σ with
  | zero =>
    intro m hm
    rw [Nat.le_zero.mp hm]
    exact hb
  | succ n ih =>
    obtain ⟨σ', hrun', hstep⟩ := Option.bind_eq_some_iff.mp hrun
    have hsound := ih hrun'
    intro m hm
    rcases Nat.lt_or_ge n m with hn | hn
    · obtain rfl : m = n + 1 := Nat.le_antisymm hm hn
      obtain ⟨hsync, rfl⟩ := synced_states h (fun m hm ↦ hsound m (Nat.le_of_lt hm)) hrun'
      exact hsync.bypassSound_tock (hsound n (Nat.le_refl n)) hstep (hdc n)
    · exact hsound m hn

/-- **The pipeline refines sequential RV32I**, as long as the register file's bypass
does not hand out the data of a disabled write, and an empty stage B has no store
latched. -/
theorem pipeline_refines (h : s.Ready)
    (hidle : s.core.bHpc.active = false → s.core.bInsn.op ≠ opStore)
    (hb : ∀ m < n, (states dcs s m).BypassSound)
    (hrun : Sequential.run s.codeRam.ram.ram n s.still = some σ) :
    (states dcs s n).abs (dcs n) = σ := by
  rw [← @Ready.abs _ _ (dcs 0) _ h] at hrun
  exact (synced_states (h.synced hidle _) hb hrun).2

/-- Two threads that copy a register, next to each other. -/
theorem pipeline_refines_copying :
    let s := copying ⟨true, 1#7, 4#24⟩ 0#32
    ∃ σ, Sequential.run s.codeRam.ram.ram 3 s.still = some σ ∧
      (states (fun _ ↦ DontCare.const 0#32) s 3).abs (DontCare.const 0#32) = σ := by
  intro s
  have hready : s.Ready :=
    ⟨rfl, rfl, rfl, fun _ _ ↦ by decide, fun _ ↦ rfl, fun _ ↦ rfl, fun _ ↦ rfl, fun _ ↦ rfl⟩
  have hidle : s.core.bHpc.active = false → s.core.bInsn.op ≠ opStore :=
    fun h ↦ absurd h (by decide)
  obtain ⟨σ, hrun⟩ : ∃ σ, Sequential.run s.codeRam.ram.ram 3 s.still = some σ :=
    Option.isSome_iff_exists.mp (by decide)
  have hrun' := hrun
  rw [← @Ready.abs _ _ (DontCare.const 0#32) _ hready] at hrun'
  have hsound := @bypassSound_states _ _ _ _ (fun _ ↦ DontCare.const 0#32) 3 _
    (hready.synced hidle _) (fun _ _ _ _ _ _ ↦ rfl) (fun _ ↦ rfl) hrun'
  exact ⟨σ, hrun, pipeline_refines hready hidle (fun m hm ↦ hsound m (Nat.le_of_lt hm)) hrun⟩

/-- The bypass hands hart 0 the data of a write that is not done: after `addi x2, x1, 0`
its `x2` is 7, and 0 in the sequential machine. -/
theorem copying_stale :
    let s := copying ⟨false, 1#7, 0#24⟩ 7#32
    s.Ready ∧ ∃ σ, Sequential.run s.codeRam.ram.ram 2 s.still = some σ ∧
      (states (fun _ ↦ DontCare.const 0#32) s 2).abs (DontCare.const 0#32) ≠ σ := by
  refine ⟨⟨rfl, rfl, rfl, fun _ h ↦ absurd h (by decide), fun _ ↦ rfl, fun h ↦ absurd h (by decide),
    fun h ↦ absurd h (by decide), fun h ↦ absurd h (by decide)⟩, _,
    (Option.some_get (by decide)).symm, fun h ↦ ?_⟩
  have hx2 := congrFun (congrFun (congrArg Sequential.regs h) 0#3) 2#5
  exact absurd hx2 (by decide)

end Soc

end Pinwheel
