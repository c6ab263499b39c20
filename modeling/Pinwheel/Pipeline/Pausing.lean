import Pinwheel.Pipeline.Isolation
import Pinwheel.Pipeline.Mapped

/-!
# Pausing threads

A thread whose slot is now and then given to others executes the same instructions
as one that keeps it.  Between two instructions all there is of a paused thread is
its handle, which the swap returned, and its row of the register file, where its
last write arrives while it is away.

`DONTCARE` has one value here, in every tock and in both runs, as in the C++
simulation.
-/

namespace Pinwheel

open Clocked RV32I

/-! ## A thread on its own -/

/-- What there is to see of an instruction: its pc and its operands, its result, its
register write and its data-bus request. -/
structure Event where
  issue : Issue
  result : BitVec 32
  write : RegWrite
  request : TilelinkA

/-- A thread that is about to execute an instruction, with its registers and the
data RAM. -/
structure Solo (db : ℕ) where
  issue : Issue
  x : BitVec 5 → BitVec 32
  mem : BitVec db → BitVec 32

namespace Solo

variable {cb db : ℕ} (dc : DontCare) (code : BitVec cb → BitVec 32) (σ : Solo db)

def thread : Thread := ⟨σ.issue.hpc, σ.x⟩

def event : Event := ⟨σ.issue, σ.issue.result dc, σ.issue.write dc σ.mem, σ.issue.request dc⟩

/-- One instruction. -/
def step : Solo db :=
  let t := σ.issue.retire dc σ.mem σ.x
  ⟨t.issue (t.fetch code), t.x, (σ.issue.request dc).store Soc.dataMask Soc.dataTag σ.mem⟩

/-- The events of the first `k` instructions. -/
def trace : ℕ → List Event
  | 0 => []
  | k + 1 => trace k ++ [((step dc code)^[k] σ).event dc]

/-- The next instruction is the one at the thread's pc, with the thread's operands. -/
def Fetched : Prop := σ.issue = σ.thread.issue (σ.thread.fetch code)

variable {dc code σ}

theorem length_trace (k : ℕ) : (trace dc code σ k).length = k := by
  induction k with
  | zero => rfl
  | succ k ih => rw [trace, List.length_append, ih]; rfl

theorem trace_le {j k : ℕ} (h : j ≤ k) : trace dc code σ j <+: trace dc code σ k := by
  induction h with
  | refl => exact List.prefix_rfl
  | step _ ih => exact ih.trans (List.prefix_append _ _)

theorem fetched_step : (σ.step dc code).Fetched code := rfl

end Solo

namespace Soc

variable {cb db : ℕ}

/-! ## The schedule -/

/-- The conduct of the threads beside the one at hand: they do not write its
registers, the code, nor the words `W` of the data RAM, and do not yield. -/
structure Considerate (dc : DontCare) (W : Set (BitVec db)) (hart : BitVec 7) (e : Issue) :
    Prop where
  yield : e.insn.isCsrrw csrYield = false
  code : e.insn.op = opStore → Core.page (e.addr dc) ≠ 0x0#4
  mapped : e.insn.op = opStore → Core.page (e.addr dc) = 0xE#4 →
    ∀ r, r ≠ 0#5 → ((e.addr dc).extractLsb' 2 7).setWidth 8 ≠ cell (rowOf hart) r
  words : e.insn.op = opStore → Core.page (e.addr dc) = 0x8#4 → wordIndex db (e.addr dc) ∉ W

variable (dc : DontCare) (s : Soc cb db)

/-- The thread at hand is paused by a swap, which returns its handle, and resumed by a
swap to that word. -/
def nextPaused (p : Option (BitVec 32)) : Option (BitVec 32) :=
  if s.core.cdSwap then
    match p with
    | none => some (s.cdWrite dc).data
    | some w => if s.core.cResult = w then none else some w
  else p

/-- In one tock the threads keep to their conducts: the thread at hand, if its slot is
in stage B and it is not paused; the one in the other slot, which is the only one to
swap; and the ones it puts into the slot of the first. -/
structure Keeps (W : Set (BitVec db)) (hart : BitVec 7) (b : Bool) (p : Option (BitVec 32)) :
    Prop where
  thread : b = true → p = none → Conduct dc W s.issue
  primary : b = false → Considerate dc W hart s.issue
  guest : b = true → p ≠ none → s.issue.hpc.active = true →
    Considerate dc W hart s.issue ∧ s.issue.insn.isCsrrw csrSwap = false
  target : b = true → s.core.cdSwap = true → p = some s.core.cResult ∨
    ((Hpc.fromLogic2 s.core.cResult).active = true →
      rowOf (Hpc.fromLogic2 s.core.cResult).hart ≠ rowOf hart)

/-- What there is to see of stage B. -/
def event : Event :=
  ⟨s.issue, s.core.bcResult dc s.coreIn, (s.tock dc false).cdWrite dc,
    s.core.nextDataTla dc s.coreIn⟩

/-- The instruction of a hart that is executed in this tock. -/
def executing (hart : BitVec 7) : Option Event :=
  if s.core.bHpc.active = true ∧ s.core.bHpc.hart = hart then some (s.event dc) else none

/-! ## Runs of the schedule -/

/-- The state after `n` tocks, with one value of `DONTCARE`. -/
abbrev after (n : ℕ) : Soc cb db := states (fun _ ↦ dc) s n

/-- The handle of the thread that is in stage B at first, while it is paused. -/
def paused : ℕ → Option (BitVec 32)
  | 0 => none
  | n + 1 => (s.after dc n).nextPaused dc (paused n)

/-- The threads keep to their conducts in the first `n` tocks. -/
def Schedule (W : Set (BitVec db)) (hart : BitVec 7) (n : ℕ) : Prop :=
  ∀ m < n, (s.after dc m).Keeps dc W hart (inB true m) (s.paused dc m)

/-- The instructions of a hart that are executed in the first `n` tocks. -/
def executed (hart : BitVec 7) (n : ℕ) : List Event :=
  emitted (fun m ↦ (s.after dc m).executing dc hart) n

/-! ## Where the thread is -/

/-- The other thread is in stages A and C. -/
structure PrimaryA (hart : BitVec 7) (s : Soc cb db) : Prop where
  aActive : s.core.aHpc.active = true
  aRow : rowOf s.core.aHpc.hart ≠ rowOf hart
  cActive : s.core.cHpc.active = true
  cRow : rowOf s.core.cHpc.hart ≠ rowOf hart

/-- The other thread is in stage B, and what is in stage C neither swaps nor stores to
code space. -/
structure PrimaryB (hart : BitVec 7) (s : Soc cb db) : Prop where
  active : s.core.bHpc.active = true
  row : rowOf s.core.bHpc.hart ≠ rowOf hart
  swap : s.core.cdSwap = false
  writeCode : s.core.cdWriteCode = false

/-- The state has the program and the words that the thread on its own has. -/
structure Follows (code : BitVec cb → BitVec 32) (W : Set (BitVec db)) (hart : BitVec 7)
    (σ : Solo db) (s : Soc cb db) : Prop where
  mirrored : s.Mirrored
  program : s.codeRam.ram.ram = code
  mem : ∀ w ∈ W, s.dataRam.ram.ram w = σ.mem w
  ofHart : σ.issue.hpc.hart = hart
  live : σ.issue.hpc.active = true

/-- The thread is in stage B. -/
structure RunningB (dc : DontCare) (code : BitVec cb → BitVec 32) (W : Set (BitVec db))
    (hart : BitVec 7) (σ : Solo db) (s : Soc cb db) : Prop extends Follows code W hart σ s where
  primary : PrimaryA hart s
  inB : s.InB dc σ.issue σ.x

/-- The thread is in stage A. -/
structure RunningA (dc : DontCare) (code : BitVec cb → BitVec 32) (W : Set (BitVec db))
    (hart : BitVec 7) (σ : Solo db) (s : Soc cb db) : Prop extends Follows code W hart σ s where
  primary : PrimaryB hart s
  fetched : σ.Fetched code
  inA : s.InA dc (σ.thread.fetch code) σ.thread
  bypass : s.BypassSound

/-- The thread is paused, and its slot is in stage B. -/
structure PausedB (dc : DontCare) (code : BitVec cb → BitVec 32) (W : Set (BitVec db))
    (hart : BitVec 7) (σ : Solo db) (s : Soc cb db) : Prop extends Follows code W hart σ s where
  primary : PrimaryA hart s
  fetched : σ.Fetched code
  row : s.HoldsRow dc hart σ.x
  guest : s.core.bHpc.active = true → rowOf s.core.bHpc.hart ≠ rowOf hart
  idle : s.core.bHpc.active = false → s.core.bInsn.op ≠ opStore
  writeCode : s.core.cdWriteCode = false

/-- The thread is paused, and its slot is in stage A. -/
structure PausedA (dc : DontCare) (code : BitVec cb → BitVec 32) (W : Set (BitVec db))
    (hart : BitVec 7) (σ : Solo db) (s : Soc cb db) : Prop extends Follows code W hart σ s where
  primary : PrimaryB hart s
  fetched : σ.Fetched code
  row : s.HoldsRow dc hart σ.x
  guest : s.core.aHpc.active = true → rowOf s.core.aHpc.hart ≠ rowOf hart

variable {dc s} {code : BitVec cb → BitVec 32} {W : Set (BitVec db)} {hart : BitVec 7} {σ : Solo db}

/-! ## What the other threads do in one tock -/

/-- A considerate instruction does not write the registers of the thread. -/
theorem Considerate.off (h : s.issue.hpc.active = true →
      Considerate dc W hart s.issue ∧ rowOf s.issue.hpc.hart ≠ rowOf hart) (dc' : DontCare) :
    ((s.tock dc false).cdWrite dc').Off (rowOf hart) := by
  by_cases hmap : s.issue.hpc.active = true ∧ s.issue.insn.op = opStore ∧
      Core.page (s.issue.addr dc) = 0xE#4
  · obtain ⟨ha, hop, hpage⟩ := hmap
    rw [cdWrite_of_mappedStore ha hop hpage]
    intro _ r hr ht
    rw [RegWrite.target, BitVec.setWidth_setWidth_of_le _ (by decide)] at ht
    exact (h ha).1.mapped hop hpage r hr ht
  · exact off_cdWrite_tock dc' fun ha ↦ ⟨(h ha).2, fun hop hp ↦ hmap ⟨ha, hop, hp⟩⟩

/-- It does not write the words of the data RAM that the thread reads. -/
theorem Considerate.mem (h : s.issue.hpc.active = true → Considerate dc W hart s.issue)
    (hidle : s.issue.hpc.active = false → s.issue.insn.op ≠ opStore) {w : BitVec db}
    (hw : w ∈ W) : (s.tock dc false).dataRam.ram.ram w = s.dataRam.ram.ram w := by
  rw [dataRam_tock, nextDataTla_eq]
  refine TilelinkA.store_of_miss fun hs hp he ↦ ?_
  have hop : s.issue.insn.op = opStore := by
    rw [Executes.isPut_request, beq_iff_eq] at hp
    exact hp
  have hmask : Core.page dataMask = 0xF#4 := rfl
  have htag : Core.page (s.issue.request dc).aAddress = Core.page dataTag :=
    Core.page_of_selects hmask hs
  have hpage : Core.page (s.issue.addr dc) = 0x8#4 := htag
  have hword : wordIndex db (s.issue.addr dc) = w := he
  cases ha : s.issue.hpc.active with
  | false => exact hidle ha hop
  | true => exact (h ha).words hop hpage (hword ▸ hw)

/-- The other thread goes on in its slot. -/
theorem PrimaryB.tock (h : PrimaryB hart s) (c : Considerate dc W hart s.issue) :
    PrimaryA hart (s.tock dc false) := by
  have hba : (s.tock dc false).core.aHpc = s.issue.next dc := baHpc_eq h.swap c.yield
  refine ⟨?_, ?_, h.active, h.row⟩
  · rw [hba]
    exact h.active
  · rw [hba]
    exact h.row

/-- While the other thread is in stage B, program and words stay as they are. -/
theorem Follows.tock (h : Follows code W hart σ s)
    (hcode : s.core.stealsCode dc s.coreIn = true → s.core.cdWriteCode = false)
    (hmem : ∀ w ∈ W, (s.tock dc false).dataRam.ram.ram w = s.dataRam.ram.ram w) :
    Follows code W hart σ (s.tock dc false) where
  mirrored := h.mirrored.tock false
  program := (codeRam_tock false hcode).trans h.program
  mem w hw := (hmem w hw).trans (h.mem w hw)
  ofHart := h.ofHart
  live := h.live

/-! ## What the thread does in one tock -/

theorem RunningA.tock (h : RunningA dc code W hart σ s) (c : Considerate dc W hart s.issue) :
    RunningB dc code W hart σ (s.tock dc false) where
  toFollows := h.toFollows.tock (fun _ ↦ h.primary.writeCode) fun _ hw ↦
    Considerate.mem (fun _ ↦ c) (fun ha ↦ absurd (ha.symm.trans h.primary.active) (by decide)) hw
  primary := h.primary.tock c
  inB := by
    have hoff := Considerate.off (fun _ ↦ ⟨c, h.primary.row⟩) dc
    rw [← h.ofHart] at hoff
    have hB := h.inA.tock h.mirrored h.bypass hoff
    rw [← show σ.issue = _ from h.fetched] at hB
    exact hB

theorem PausedA.tock (h : PausedA dc code W hart σ s) (c : Considerate dc W hart s.issue) :
    PausedB dc code W hart σ (s.tock dc false) where
  toFollows := h.toFollows.tock (fun _ ↦ h.primary.writeCode) fun _ hw ↦
    Considerate.mem (fun _ ↦ c) (fun ha ↦ absurd (ha.symm.trans h.primary.active) (by decide)) hw
  primary := h.primary.tock c
  fetched := h.fetched
  row := h.row.tock (Considerate.off (fun _ ↦ ⟨c, h.primary.row⟩) dc)
  guest := h.guest
  idle := idle_tock
  writeCode := Core.access_eq_false fun _ ↦ c.code

namespace RunningB

variable (h : RunningB dc code W hart σ s) (c : Conduct dc W s.issue)

include h in
theorem conduct (c : Conduct dc W s.issue) : Conduct dc W σ.issue := h.inB.issue ▸ c

include h c

theorem value_eq : σ.issue.value dc s.dataRam.ram.ram = σ.issue.value dc σ.mem :=
  Issue.value_congr fun ho ↦ h.mem _ ((h.conduct c).load ho).2

theorem retire_eq : σ.issue.retire dc s.dataRam.ram.ram σ.x = σ.issue.retire dc σ.mem σ.x := by
  rw [Issue.retire, Issue.retire, h.value_eq c]

/-- It executes what it would execute on its own. -/
theorem event_eq : s.event dc = σ.event dc := by
  have hwrite : (s.tock dc false).cdWrite dc = σ.issue.write dc σ.mem := by
    rw [cdWrite_tock dc (by rw [h.inB.issue]; exact h.live) c.tame, h.inB.issue, Issue.write,
      h.value_eq c]
    rfl
  have hresult : s.core.bcResult dc s.coreIn = s.issue.result dc := rfl
  rw [Soc.event, hresult, hwrite, nextDataTla_eq, h.inB.issue]
  rfl

/-- A swap does not store to code space. -/
theorem follows : Follows code W hart (σ.step dc code) (s.tock dc false) where
  mirrored := h.mirrored.tock false
  program := by
    cases hswap : s.core.cdSwap with
    | true =>
      obtain ⟨-, hcsr⟩ := cdSwap_iff.mp hswap
      refine (codeRam_tock false fun _ ↦ Core.access_eq_false fun _ hop ↦ ?_).trans h.program
      exact absurd ((op_of_isCsrrw hcsr).1.symm.trans hop) (by decide)
    | false =>
      refine (codeRam_tock_of_active false ?_).trans h.program
      rw [baHpc_eq hswap c.yield, Issue.active_next, h.inB.issue]
      exact h.live
  mem w hw := by
    rw [dataRam_tock, nextDataTla_eq, h.inB.issue]
    exact TilelinkA.store_congr (h.mem w hw)
  ofHart := h.ofHart
  live := h.live

theorem primary_tock : PrimaryB hart (s.tock dc false) where
  active := h.primary.aActive
  row := h.primary.aRow
  swap := noSwap_tock fun _ ↦ c.swap
  writeCode := Core.access_eq_false fun _ ho ↦ (c.store ho).2

/-- Without a swap it goes on in its slot. -/
theorem tock (hs : s.core.cdSwap = false) :
    RunningA dc code W hart (σ.step dc code) (s.tock dc false) where
  toFollows := h.follows c
  primary := h.primary_tock c
  fetched := Solo.fetched_step
  inA := by
    have hA := h.inB.tock (h.conduct c).tame hs h.program dc
    rw [h.retire_eq c] at hA
    exact hA
  bypass := by
    refine bypassSound_tock_of_active h.primary.cActive fun _ ↦ ?_
    rw [baHpc_eq hs c.yield, Issue.hart_next, h.inB.issue, h.ofHart]
    exact h.primary.cRow

/-- A swap to another thread pauses it, and returns its handle. -/
theorem tock_swap (hs : s.core.cdSwap = true)
    (ht : (Hpc.fromLogic2 s.core.cResult).active = true →
      rowOf (Hpc.fromLogic2 s.core.cResult).hart ≠ rowOf hart) :
    PausedA dc code W hart (σ.step dc code) (s.tock dc false) ∧
      (s.cdWrite dc).data = (σ.step dc code).issue.hpc.toLogic := by
  have hba : (s.tock dc false).core.aHpc = Hpc.fromLogic2 s.core.cResult := Core.baHpc_of_swap hs
  refine ⟨⟨h.follows c, h.primary_tock c, Solo.fetched_step, ?_, ?_⟩, ?_⟩
  · have hrow := h.inB.row_tock (h.conduct c).tame dc
    rw [h.retire_eq c, h.ofHart] at hrow
    exact hrow
  · rw [hba]
    exact ht
  · rw [cdWrite_of_swap hs, bcHpc_eq, h.inB.issue]
    rfl

end RunningB

namespace PausedB

variable (h : PausedB dc code W hart σ s)
  (c : s.issue.hpc.active = true →
    Considerate dc W hart s.issue ∧ s.issue.insn.isCsrrw csrSwap = false)

include h c

theorem follows : Follows code W hart σ (s.tock dc false) :=
  h.toFollows.tock (fun _ ↦ h.writeCode) fun _ hw ↦ Considerate.mem (fun ha ↦ (c ha).1) h.idle hw

theorem primary_tock : PrimaryB hart (s.tock dc false) where
  active := h.primary.aActive
  row := h.primary.aRow
  swap := noSwap_tock fun ha ↦ (c ha).2
  writeCode := Core.access_eq_false fun ha ↦ (c ha).1.code

theorem off : ((s.tock dc false).cdWrite dc).Off (rowOf hart) :=
  Considerate.off (fun ha ↦ ⟨(c ha).1, h.guest ha⟩) dc

/-- It stays paused if whatever comes to its slot is another thread. -/
theorem tock_of_other
    (ht : (s.core.baHpc dc s.coreIn).active = true →
      rowOf (s.core.baHpc dc s.coreIn).hart ≠ rowOf hart) :
    PausedA dc code W hart σ (s.tock dc false) where
  toFollows := h.follows c
  primary := h.primary_tock c
  fetched := h.fetched
  row := h.row.tock (h.off c)
  guest := ht

theorem tock (hs : s.core.cdSwap = false) : PausedA dc code W hart σ (s.tock dc false) := by
  refine h.tock_of_other c fun hact ↦ ?_
  have ha : s.core.bHpc.active = true := Core.active_of_baHpc hs hact
  rw [baHpc_eq hs (c ha).1.yield]
  exact h.guest ha

/-- A swap to its handle resumes it, with the registers it had. -/
theorem tock_resume (hs : s.core.cdSwap = true) (hw : s.core.cResult = σ.issue.hpc.toLogic) :
    RunningA dc code W hart σ (s.tock dc false) := by
  have hba : s.core.baHpc dc s.coreIn = σ.issue.hpc := by
    rw [Core.baHpc_of_swap hs, hw, Hpc.fromLogic2_toLogic]
  have hact : (s.core.baHpc dc s.coreIn).active = true := by
    rw [hba]
    exact h.live
  have hrow : (s.tock dc false).HoldsRow dc hart σ.x := h.row.tock (h.off c)
  have hoff := h.off c
  refine ⟨h.follows c, h.primary_tock c, h.fetched, ⟨h.live, hba, ?_, ?_, fun r hr ↦ ?_⟩, ?_⟩
  · rw [fetch_tock false (stealsCode_of_active hact), hba, h.program]
    rfl
  · rw [← h.ofHart] at hrow
    exact hrow
  · refine forwardAt_of_off ?_ hr
    have hhart : (s.tock dc false).core.aHpc.hart = hart := (congrArg Hpc.hart hba).trans h.ofHart
    rw [hhart]
    exact hoff
  · refine bypassSound_tock_of_active h.primary.cActive fun _ ↦ ?_
    rw [hba, h.ofHart]
    exact h.primary.cRow

end PausedB

/-! ## Whole runs -/

/-- Where the thread is, its slot in stage B or in stage A, running or paused with
the given handle. -/
inductive Paced (dc : DontCare) (code : BitVec cb → BitVec 32) (W : Set (BitVec db))
    (hart : BitVec 7) (σ : Solo db) (s : Soc cb db) : Bool → Option (BitVec 32) → Prop where
  | runningB (h : RunningB dc code W hart σ s) : Paced dc code W hart σ s true none
  | runningA (h : RunningA dc code W hart σ s) : Paced dc code W hart σ s false none
  | pausedB (h : PausedB dc code W hart σ s) :
      Paced dc code W hart σ s true (some σ.issue.hpc.toLogic)
  | pausedA (h : PausedA dc code W hart σ s) :
      Paced dc code W hart σ s false (some σ.issue.hpc.toLogic)

theorem executing_of_other (h : s.core.bHpc.active = true →
    rowOf s.core.bHpc.hart ≠ rowOf hart) : s.executing dc hart = none :=
  if_neg fun hx ↦ h hx.1 (congrArg rowOf hx.2)

theorem RunningB.executing (h : RunningB dc code W hart σ s) (c : Conduct dc W s.issue) :
    s.executing dc hart = some (σ.event dc) := by
  have hhpc : s.core.bHpc = σ.issue.hpc := congrArg Issue.hpc h.inB.issue
  rw [Soc.executing, hhpc, if_pos ⟨h.live, h.ofHart⟩, h.event_eq c]

theorem nextPaused_of_noSwap {p : Option (BitVec 32)} (hs : s.core.cdSwap = false) :
    s.nextPaused dc p = p :=
  if_neg (by rw [hs]; exact Bool.false_ne_true)

/-- **One tock** of the thread on its own, if it is in stage B, and none otherwise. -/
theorem Paced.tock {b : Bool} {p : Option (BitVec 32)} (h : Paced dc code W hart σ s b p)
    (c : s.Keeps dc W hart b p) :
    (s.executing dc hart = some (σ.event dc) ∧
        Paced dc code W hart (σ.step dc code) (s.tock dc false) (!b) (s.nextPaused dc p)) ∨
      (s.executing dc hart = none ∧
        Paced dc code W hart σ (s.tock dc false) (!b) (s.nextPaused dc p)) := by
  cases h with
  | runningB h =>
    have hc := c.thread rfl rfl
    refine .inl ⟨h.executing hc, ?_⟩
    cases hs : s.core.cdSwap with
    | false =>
      rw [nextPaused_of_noSwap hs]
      exact .runningA (h.tock hc hs)
    | true =>
      obtain ⟨hp, hdata⟩ := h.tock_swap hc hs ((c.target rfl hs).resolve_left (by simp))
      rw [nextPaused, if_pos hs, hdata]
      exact .pausedA hp
  | runningA h =>
    rw [nextPaused_of_noSwap h.primary.swap]
    exact .inr ⟨executing_of_other fun _ ↦ h.primary.row, .runningB (h.tock (c.primary rfl))⟩
  | pausedA h =>
    rw [nextPaused_of_noSwap h.primary.swap]
    exact .inr ⟨executing_of_other fun _ ↦ h.primary.row, .pausedB (h.tock (c.primary rfl))⟩
  | pausedB h =>
    have hc := c.guest rfl (by simp)
    refine .inr ⟨executing_of_other h.guest, ?_⟩
    cases hs : s.core.cdSwap with
    | false =>
      rw [nextPaused_of_noSwap hs]
      exact .pausedA (h.tock hc hs)
    | true =>
      by_cases hw : s.core.cResult = σ.issue.hpc.toLogic
      · have hnext : s.nextPaused dc (some σ.issue.hpc.toLogic) = none := by
          simp only [nextPaused, hs, hw, if_true]
        rw [hnext]
        exact .runningA (h.tock_resume hc hs hw)
      · have hnext : s.nextPaused dc (some σ.issue.hpc.toLogic) = some σ.issue.hpc.toLogic := by
          simp only [nextPaused, hs, hw, if_true, if_false]
        rw [hnext]
        refine .pausedA (h.tock_of_other hc ?_)
        rw [Core.baHpc_of_swap hs]
        exact (c.target rfl hs).resolve_left fun he ↦ hw (Option.some.inj he).symm

/-- The thread is where the schedule says, and has executed the first instructions of
the thread on its own. -/
theorem Schedule.paced {n : ℕ} (h : RunningB dc code W hart σ s) (c : Schedule dc s W hart n) :
    ∃ k, s.executed dc hart n = Solo.trace dc code σ k ∧
      Paced dc code W hart ((Solo.step dc code)^[k] σ) (s.after dc n) (inB true n)
        (s.paused dc n) := by
  induction n with
  | zero => exact ⟨0, rfl, .runningB h⟩
  | succ n ih =>
    obtain ⟨k, hx, hp⟩ := ih fun m hm ↦ c m (Nat.lt_succ_of_lt hm)
    rcases hp.tock (c n (Nat.lt_succ_self n)) with ⟨he, hp⟩ | ⟨he, hp⟩
    · refine ⟨k + 1, ?_, ?_⟩
      · rw [executed, emitted_succ_some he, Solo.trace, ← hx]
        rfl
      · rw [Function.iterate_succ_apply']
        exact hp
    · refine ⟨k, ?_, hp⟩
      rw [executed, emitted_succ_none he, ← hx]
      rfl

/-- The thread executes an instruction whenever its slot is in stage B and it is not
paused. -/
theorem Paced.executing_isSome_iff {b : Bool} {p : Option (BitVec 32)}
    (h : Paced dc code W hart σ s b p) (c : s.Keeps dc W hart b p) :
    (s.executing dc hart).isSome = true ↔ b = true ∧ p = none := by
  cases h with
  | runningB h =>
    rw [h.executing (c.thread rfl rfl)]
    simp
  | runningA h =>
    rw [executing_of_other fun _ ↦ h.primary.row]
    simp
  | pausedB h =>
    rw [executing_of_other h.guest]
    simp
  | pausedA h =>
    rw [executing_of_other fun _ ↦ h.primary.row]
    simp

/-- The thread of `hart` is in stage B, and the other one in stages A and C. -/
structure Beside (hart : BitVec 7) (s : Soc cb db) : Prop where
  mirrored : s.Mirrored
  ofHart : s.core.bHpc.hart = hart
  live : s.core.bHpc.active = true
  primary : PrimaryA hart s

/-- What the thread in stage B is on its own. -/
def solo (dc : DontCare) (s : Soc cb db) : Solo db :=
  ⟨s.issue, s.rows dc (rowOf s.core.bHpc.hart), s.dataRam.ram.ram⟩

/-- The states are alike for the thread in stage B: the same instruction with the same
operands, the same registers, the same program, and the same data in the words `W`. -/
structure AlikeSolo (dc : DontCare) (W : Set (BitVec db)) (s₁ s₂ : Soc cb db) : Prop where
  issue : s₁.issue = s₂.issue
  row : s₁.rows dc (rowOf s₁.core.bHpc.hart) = s₂.rows dc (rowOf s₂.core.bHpc.hart)
  code : s₁.codeRam.ram.ram = s₂.codeRam.ram.ram
  mem : ∀ w ∈ W, s₁.dataRam.ram.ram w = s₂.dataRam.ram.ram w

variable {s₁ s₂ : Soc cb db} {n : ℕ}

theorem Beside.running (h : Beside hart s₁) (ha : AlikeSolo dc W s₁ s₂) :
    RunningB dc s₂.codeRam.ram.ram W hart (s₂.solo dc) s₁ := by
  have hhpc : s₂.core.bHpc = s₁.core.bHpc := (congrArg Issue.hpc ha.issue).symm
  have hlive : s₂.core.bHpc.active = true := by
    rw [hhpc]
    exact h.live
  refine ⟨⟨h.mirrored, ha.code, ha.mem, ?_, hlive⟩, h.primary, hlive, ha.issue, ?_⟩
  · exact (congrArg Hpc.hart hhpc).trans h.ofHart
  · have hrow : s₁.HoldsRow dc s₁.core.bHpc.hart (s₁.rows dc (rowOf s₁.core.bHpc.hart)) :=
      holdsRow_rows _
    rw [ha.row] at hrow
    have hhart : (s₂.solo dc).issue.hpc.hart = s₁.core.bHpc.hart := congrArg Hpc.hart hhpc
    rw [hhart]
    exact hrow

/-- **Single-stepping**: between two consecutive swaps, the first one to the handle of the
paused thread, it executes one instruction, and the second one returns where it goes on. -/
theorem Schedule.steps {m : ℕ} (h : RunningB dc code W hart σ s) (c : Schedule dc s W hart n)
    (hm : m + 2 < n) (hB : inB true m = true) (hs : (s.after dc m).core.cdSwap = true)
    (hp : s.paused dc m = some (s.after dc m).core.cResult)
    (hs' : (s.after dc (m + 2)).core.cdSwap = true) :
    ∃ e, s.executed dc hart (m + 3) = s.executed dc hart m ++ [e] ∧
      e.issue.hpc.toLogic = (s.after dc m).core.cResult ∧
      ((s.after dc (m + 2)).cdWrite dc).data = (e.issue.next dc).toLogic := by
  have hm₀ : m < n := Nat.lt_of_le_of_lt (Nat.le_add_right m 2) hm
  obtain ⟨k, -, hpaced⟩ := Schedule.paced (n := m) h fun j hj ↦ c j (Nat.lt_trans hj hm₀)
  have hkeep := c m hm₀
  rw [hB, hp] at hpaced hkeep
  generalize (Solo.step dc code)^[k] σ = σ' at hpaced
  generalize hw : (s.after dc m).core.cResult = w at hpaced hkeep
  cases hpaced with
  | pausedB h₀ =>
    have hA : inB true (m + 1) = false := by rw [inB, hB]; rfl
    have hB' : inB true (m + 2) = true := by rw [inB, hA]; rfl
    have h₁ : RunningA dc code W hart σ' (s.after dc (m + 1)) :=
      h₀.tock_resume (hkeep.guest rfl (by simp)) hs hw
    have h₂ : RunningB dc code W hart σ' (s.after dc (m + 2)) :=
      h₁.tock ((c (m + 1) (Nat.lt_of_succ_lt hm)).primary hA)
    have hnone : s.paused dc (m + 2) = none := by
      have hnext : s.paused dc (m + 1) = none := by
        rw [paused, hp, nextPaused, if_pos hs]
        exact if_pos rfl
      rw [paused, nextPaused_of_noSwap h₁.primary.swap, hnext]
    have he₂ := h₂.executing ((c (m + 2) hm).thread hB' hnone)
    refine ⟨σ'.event dc, ?_, rfl, ?_⟩
    · have he₀ := @executing_of_other _ _ dc _ _ h₀.guest
      have he₁ := @executing_of_other _ _ dc (s.after dc (m + 1)) hart fun _ ↦ h₁.primary.row
      rw [executed, emitted_succ_some he₂, emitted_succ_none he₁, emitted_succ_none he₀]
      rfl
    · rw [cdWrite_of_swap hs', bcHpc_eq, h₂.inB.issue]
      rfl

/-- **Pausing a thread is transparent**: it executes what it executes if it is never
paused, as far as it comes, and has an instruction executed whenever its slot is in stage B
and it is not paused. -/
theorem pausing_transparent (h₁ : Beside hart s₁) (h₂ : Beside hart s₂)
    (ha : AlikeSolo dc W s₁ s₂) (c₁ : Schedule dc s₁ W hart n) (c₂ : Schedule dc s₂ W hart n)
    (hnever : ∀ m < n, s₂.paused dc m = none) :
    s₁.executed dc hart n <+: s₂.executed dc hart n ∧
      (∀ m < n, (((s₁.after dc m).executing dc hart).isSome = true ↔
          inB true m = true ∧ s₁.paused dc m = none) ∧
        (((s₂.after dc m).executing dc hart).isSome = true ↔ inB true m = true)) ∧
      ∀ m, m + 2 < n → inB true m = true → (s₁.after dc m).core.cdSwap = true →
        s₁.paused dc m = some (s₁.after dc m).core.cResult →
        (s₁.after dc (m + 2)).core.cdSwap = true →
        ∃ e, s₁.executed dc hart (m + 3) = s₁.executed dc hart m ++ [e] ∧
          e.issue.hpc.toLogic = (s₁.after dc m).core.cResult ∧
          ((s₁.after dc (m + 2)).cdWrite dc).data = (e.issue.next dc).toLogic := by
  have hr₁ := h₁.running ha
  have hr₂ := h₂.running (⟨rfl, rfl, rfl, fun _ _ ↦ rfl⟩ : AlikeSolo dc W s₂ s₂)
  have hexec₁ : ∀ m < n, ((s₁.after dc m).executing dc hart).isSome = true ↔
      inB true m = true ∧ s₁.paused dc m = none := fun m hm ↦ by
    obtain ⟨_, -, hp⟩ := Schedule.paced (n := m) hr₁ fun j hj ↦ c₁ j (Nat.lt_trans hj hm)
    exact hp.executing_isSome_iff (c₁ m hm)
  have hexec₂ : ∀ m < n, ((s₂.after dc m).executing dc hart).isSome = true ↔
      inB true m = true := fun m hm ↦ by
    obtain ⟨_, -, hp⟩ := Schedule.paced (n := m) hr₂ fun j hj ↦ c₂ j (Nat.lt_trans hj hm)
    rw [hp.executing_isSome_iff (c₂ m hm), and_iff_left (hnever m hm)]
  refine ⟨?_, fun m hm ↦ ⟨hexec₁ m hm, hexec₂ m hm⟩,
    fun m hm hB hs hp hs' ↦ Schedule.steps hr₁ c₁ hm hB hs hp hs'⟩
  obtain ⟨k₁, hx₁, -⟩ := Schedule.paced hr₁ c₁
  obtain ⟨k₂, hx₂, -⟩ := Schedule.paced hr₂ c₂
  have hlen : (s₁.executed dc hart n).length ≤ (s₂.executed dc hart n).length :=
    emitted_length_le fun m hm hsome ↦ (hexec₂ m hm).mpr ((hexec₁ m hm).mp hsome).1
  rw [hx₁, hx₂, Solo.length_trace, Solo.length_trace] at hlen
  rw [hx₁, hx₂]
  exact Solo.trace_le hlen

/-! ## A thread that is stepped -/

/-- The other thread has the jump at address 32 for its next instruction. -/
def waiting (s : Soc 4 1) : Soc 4 1 :=
  { s with
    core := { s.core with aHpc := ⟨true, 0#7, 32#24⟩ }
    codeRam := { s.codeRam with ram := { s.codeRam.ram with rdata := 0x0000006F#32 } } }

theorem alike_waiting (s : Soc 4 1) : AlikeSolo dc ∅ s s.waiting :=
  ⟨rfl, rfl, rfl, fun _ h ↦ absurd h (Set.notMem_empty _)⟩

/-- Hart 0 starts hart 1, at address 40, stops it and lets it make a step; or it waits.
Hart 1 counts in `x5`. -/
def stepping (waits : Bool) : Soc 4 1 :=
  let program := fun a ↦
    if a = 0#4 ∨ a = 1#4 then 0x81000137#32 else if a = 2#4 then 0x02810113#32
    else if a = 3#4 then 0x800110F3#32 else if a = 4#4 then 0x00000013#32
    else if a = 5#4 then 0x800011F3#32 else if a = 6#4 ∨ a = 7#4 then 0x800191F3#32
    else if a = 10#4 then 0x00128293#32 else if a = 11#4 then 0xFFDFF06F#32 else 0x0000006F#32
  let s := states (fun _ ↦ DontCare.const 0#32)
    ((blank program).resets (fun _ ↦ DontCare.const 0#32) 1) 8
  if waits then s.waiting else s

theorem stepping_beside (waits : Bool) : Beside 1#7 (stepping waits) := by
  have hm : (stepping false).Mirrored :=
    (Mirrored.resets (show (blank _).Mirrored from rfl) _ 1).states _ 8
  cases waits with
  | false => exact ⟨hm, by decide, by decide, by decide, by decide, by decide, by decide⟩
  | true => exact ⟨hm, by decide, by decide, by decide, by decide, by decide, by decide⟩

theorem stepping_schedule (waits : Bool) :
    Schedule (DontCare.const 0#32) (stepping waits) ∅ 1#7 7 := by
  have hplain : ∀ waits, ∀ m < 7,
      ((stepping waits).after (DontCare.const 0#32) m).issue.insn.op ≠ opLoad ∧
      ((stepping waits).after (DontCare.const 0#32) m).issue.insn.op ≠ opStore ∧
      ((stepping waits).after (DontCare.const 0#32) m).issue.insn.isCsrrw csrYield = false ∧
      (inB true m = true →
        ((stepping waits).after (DontCare.const 0#32) m).issue.insn.isCsrrw csrSwap = false) := by
    decide
  have htarget : ∀ waits, ∀ m < 7, inB true m = true →
      ((stepping waits).after (DontCare.const 0#32) m).core.cdSwap = true →
      (stepping waits).paused (DontCare.const 0#32) m =
          some ((stepping waits).after (DontCare.const 0#32) m).core.cResult ∨
        (Hpc.fromLogic2
          ((stepping waits).after (DontCare.const 0#32) m).core.cResult).active = false := by
    decide
  intro m hm
  obtain ⟨hload, hstore, hyield, hswap⟩ := hplain waits m hm
  have hcons : @Considerate 1 (DontCare.const 0#32) ∅ 1#7
      ((stepping waits).after (DontCare.const 0#32) m).issue :=
    ⟨hyield, fun h ↦ absurd h hstore, fun h ↦ absurd h hstore, fun h ↦ absurd h hstore⟩
  refine ⟨fun hB _ ↦ ?_, fun _ ↦ hcons, fun hB _ _ ↦ ⟨hcons, hswap hB⟩, fun hB hs ↦ ?_⟩
  · exact ⟨hswap hB, hyield, fun h ↦ absurd h hload, fun h ↦ absurd h hstore⟩
  · exact (htarget waits m hm hB hs).imp id fun hi ha ↦ absurd (hi.symm.trans ha) (by decide)

/-- Hart 1 makes its third instruction between two swaps. -/
theorem pausing_transparent_stepping :
    (stepping false).executed (DontCare.const 0#32) 1#7 7 <+:
        (stepping true).executed (DontCare.const 0#32) 1#7 7 ∧
      ∃ e, (stepping false).executed (DontCare.const 0#32) 1#7 7 =
        (stepping false).executed (DontCare.const 0#32) 1#7 4 ++ [e] := by
  have halike : AlikeSolo (DontCare.const 0#32) ∅ (stepping false) (stepping true) :=
    alike_waiting (stepping false)
  obtain ⟨hle, -, hstep⟩ := pausing_transparent (stepping_beside false) (stepping_beside true)
    halike (stepping_schedule false) (stepping_schedule true) (by decide)
  obtain ⟨e, he, -⟩ := hstep 4 (by decide) (by decide) (by decide) (by decide) (by decide)
  exact ⟨hle, e, he⟩

end Soc

end Pinwheel
