import Mathlib.Data.Set.Defs
import Pinwheel.Pipeline.Thread

/-!
# Isolation of the two threads

Two runs of the same code that start alike for one thread are alike for it in
every tock, whatever the other thread does in either of them.  The thread is in
stage A or in stage B with the same `Thread` or `Issue` in both runs; the other
thread cannot reach the registers, the words of memory and the latches this
depends on, except through the bypass of the register file.
-/

namespace Pinwheel

open RV32I

namespace TilelinkA

variable {bits : Nat} {tla : TilelinkA} {mask tag : BitVec 32} {m₁ m₂ : BitVec bits → BitVec 32}

/-- A request has the same effect on a word that is the same. -/
theorem store_congr {w : BitVec bits} (h : m₁ w = m₂ w) :
    tla.store mask tag m₁ w = tla.store mask tag m₂ w := by
  unfold store
  split_ifs
  · by_cases hw : w = wordIndex bits tla.aAddress
    · subst hw
      rw [Function.update_self, Function.update_self, h]
    · rw [Function.update_of_ne hw, Function.update_of_ne hw, h]
  · exact h

/-- A request leaves the words alone that it does not write. -/
theorem store_of_miss {w : BitVec bits}
    (h : tla.selects mask tag = true → tla.isPut = true → wordIndex bits tla.aAddress ≠ w) :
    tla.store mask tag m₁ w = m₁ w := by
  unfold store
  split_ifs with hs
  · exact Function.update_of_ne (Ne.symm (h hs.1 hs.2)) _ _
  · rfl

end TilelinkA

/-- An instruction that is not a load of the data RAM writes back what it computed. -/
theorem Issue.value_congr {db : Nat} {dc : DontCare} {e : Issue} {m₁ m₂ : BitVec db → BitVec 32}
    (h : e.insn.op = opLoad →
      m₁ (wordIndex db (e.addr dc)) = m₂ (wordIndex db (e.addr dc))) :
    e.value dc m₁ = e.value dc m₂ := by
  unfold Issue.value
  split_ifs with hl
  · rw [h hl.1]
  · rfl

/-- Whether a thread that is in stage B at first, or else in stage A, is in stage B
after `n` tocks. -/
def inB (start : Bool) : ℕ → Bool
  | 0 => start
  | n + 1 => !inB start n

namespace Soc

variable {cb db : Nat}

/-! ## The conduct of the two threads -/

/-- The thread at hand executes this instruction: no switch, loads from the words
`W` of the data RAM only, and no access to code space or to the mapped registers. -/
structure Conduct (dc : DontCare) (W : Set (BitVec db)) (e : Issue) : Prop where
  swap : e.insn.isCsrrw csrSwap = false
  yield : e.insn.isCsrrw csrYield = false
  load : e.insn.op = opLoad → Core.page (e.addr dc) = 0x8#4 ∧ wordIndex db (e.addr dc) ∈ W
  store : e.insn.op = opStore → Core.page (e.addr dc) ≠ 0xE#4 ∧ Core.page (e.addr dc) ≠ 0x0#4

/-- The other thread executes this instruction: its hart is on another row, and it
neither switches threads nor stores to the mapped registers nor to the words `W`. -/
structure OtherConduct (dc : DontCare) (W : Set (BitVec db)) (hart : BitVec 7) (e : Issue) :
    Prop where
  row : e.hpc.active = true → rowOf e.hpc.hart ≠ rowOf hart
  swap : e.hpc.active = true → e.insn.isCsrrw csrSwap = false
  yield : e.hpc.active = true → e.insn.isCsrrw csrYield = false
  mapped : e.hpc.active = true → e.insn.op = opStore → Core.page (e.addr dc) ≠ 0xE#4
  words : (e.request dc).selects dataMask dataTag = true → (e.request dc).isPut = true →
    wordIndex db (e.request dc).aAddress ∉ W

/-- In a run from `s` the thread of `hart`, first in stage B or in stage A, and the
other one keep to their conducts. -/
structure Conducts (dcs : ℕ → DontCare) (W : Set (BitVec db)) (hart : BitVec 7) (start : Bool)
    (s : Soc cb db) : Prop where
  thread : ∀ n, inB start n = true → Conduct (dcs n) W (states dcs s n).issue
  other : ∀ n, inB start n = false → OtherConduct (dcs n) W hart (states dcs s n).issue

theorem Conduct.tame {dc : DontCare} {W : Set (BitVec db)} {e : Issue} (h : Conduct dc W e) :
    e.Tame dc where
  swap := h.swap
  yield := h.yield
  load ho := by
    rw [(h.load ho).1]
    decide
  store ho := (h.store ho).1

/-! ## States that are alike for a thread -/

/-- The states are alike for the thread in stage B, and stage C is empty. -/
structure AlikeB (s₁ s₂ : Soc cb db) : Prop where
  bHpc : s₁.core.bHpc = s₂.core.bHpc
  bInsn : s₁.core.bInsn = s₂.core.bInsn
  rs1 : s₁.regs.getRs1 = s₂.regs.getRs1
  rs2 : s₁.regs.getRs2 = s₂.regs.getRs2
  dWrite : s₁.core.dWrite = s₂.core.dWrite
  row : ∀ r, r ≠ 0#5 →
    s₁.file (cell (rowOf s₁.core.bHpc.hart) r) = s₂.file (cell (rowOf s₁.core.bHpc.hart) r)
  idle₁ : s₁.core.cHpc.active = false
  idle₂ : s₂.core.cHpc.active = false

/-- The states are alike for the thread in stage A, which may have an instruction
in stage C; stage D is empty. -/
structure AlikeA (s₁ s₂ : Soc cb db) : Prop where
  aHpc : s₁.core.aHpc = s₂.core.aHpc
  rdata : s₁.codeRam.ram.rdata = s₂.codeRam.ram.rdata
  cHpc : s₁.core.cHpc = s₂.core.cHpc
  cInsn : s₁.core.cInsn = s₂.core.cInsn
  cAddr : s₁.core.cAddr = s₂.core.cAddr
  cResult : s₁.core.cResult = s₂.core.cResult
  bus : s₁.getDataTld.dData = s₂.getDataTld.dData
  row : ∀ r, r ≠ 0#5 →
    s₁.file (cell (rowOf s₁.core.aHpc.hart) r) = s₂.file (cell (rowOf s₁.core.aHpc.hart) r)
  idle₁ : s₁.core.dWren = false
  idle₂ : s₂.core.dWren = false
  hart : s₁.core.cHpc.active = true → s₁.core.cHpc.hart = s₁.core.aHpc.hart
  swap : s₁.core.cdSwap = false
  readRegfile : s₁.core.cdReadRegfile = false
  writeRegfile : s₁.core.cdWriteRegfile = false
  writeCode : s₁.core.cdWriteCode = false

/-- The states are alike for the thread of `hart`, in stage B or in stage A. -/
structure Alike (W : Set (BitVec db)) (hart : BitVec 7) (start : Bool) (s₁ s₂ : Soc cb db) :
    Prop where
  code : s₁.codeRam.ram.ram = s₂.codeRam.ram.ram
  mem : ∀ w ∈ W, s₁.dataRam.ram.ram w = s₂.dataRam.ram.ram w
  inB : start = true → AlikeB s₁ s₂ ∧ s₁.core.bHpc.active = true ∧ s₁.core.bHpc.hart = hart
  inA : start = false → AlikeA s₁ s₂ ∧ s₁.core.aHpc.active = true ∧ s₁.core.aHpc.hart = hart

/-- What there is to see of the thread in stages A and C. -/
structure SameA (dc : DontCare) (s₁ s₂ : Soc cb db) : Prop where
  aHpc : s₁.core.aHpc = s₂.core.aHpc
  insn : s₁.core.abInsn s₁.coreIn = s₂.core.abInsn s₂.coreIn
  write : s₁.cdWrite dc = s₂.cdWrite dc

/-- What there is to see of the thread in stage B. -/
structure SameB (dc : DontCare) (s₁ s₂ : Soc cb db) : Prop where
  issue : s₁.issue = s₂.issue
  request : s₁.core.nextDataTla dc s₁.coreIn = s₂.core.nextDataTla dc s₂.coreIn

/-- The states are the same to see for the thread. -/
def Same (dc : DontCare) (b : Bool) (s₁ s₂ : Soc cb db) : Prop :=
  if b then SameB dc s₁ s₂ else SameA dc s₁ s₂

/-! ## The relation between the runs -/

variable {dc : DontCare} {W : Set (BitVec db)} {hart : BitVec 7} {s₁ s₂ : Soc cb db}

/-- What the runs share beside the thread itself. -/
structure Common (W : Set (BitVec db)) (s₁ s₂ : Soc cb db) : Prop where
  code : s₁.codeRam.ram.ram = s₂.codeRam.ram.ram
  mem : ∀ w ∈ W, s₁.dataRam.ram.ram w = s₂.dataRam.ram.ram w
  mirrored₁ : s₁.Mirrored
  mirrored₂ : s₂.Mirrored

/-- The same thread is in stage A in both runs. -/
structure LockedA (dc : DontCare) (W : Set (BitVec db)) (hart : BitVec 7) (s₁ s₂ : Soc cb db) :
    Prop extends Common W s₁ s₂ where
  thread : ∃ i t, t.hpc.hart = hart ∧ s₁.InA dc i t ∧ s₂.InA dc i t
  write : s₁.cdWrite dc = s₂.cdWrite dc
  noCode₁ : s₁.core.cdWriteCode = false
  noCode₂ : s₂.core.cdWriteCode = false

/-- The same instruction is in stage B in both runs. -/
structure LockedB (dc : DontCare) (W : Set (BitVec db)) (hart : BitVec 7) (s₁ s₂ : Soc cb db) :
    Prop extends Common W s₁ s₂ where
  thread : ∃ e x, e.hpc.hart = hart ∧ s₁.InB dc e x ∧ s₂.InB dc e x
  noSwap₁ : s₁.core.cdSwap = false
  noSwap₂ : s₂.core.cdSwap = false

theorem LockedA.same (h : LockedA dc W hart s₁ s₂) : SameA dc s₁ s₂ := by
  obtain ⟨i, t, -, h₁, h₂⟩ := h.thread
  exact ⟨h₁.hpc.trans h₂.hpc.symm, h₁.abInsn.trans h₂.abInsn.symm, h.write⟩

theorem LockedB.same (h : LockedB dc W hart s₁ s₂) : SameB dc s₁ s₂ := by
  obtain ⟨e, x, -, h₁, h₂⟩ := h.thread
  have hissue : s₁.issue = s₂.issue := h₁.issue.trans h₂.issue.symm
  exact ⟨hissue, congrArg (Issue.request dc) hissue⟩

theorem OtherConduct.off {s : Soc cb db} (h : OtherConduct dc W hart s.issue) (dc' : DontCare) :
    ((s.tock dc false).cdWrite dc').Off (rowOf hart) :=
  off_cdWrite_tock dc' fun ha ↦ ⟨h.row ha, h.mapped ha⟩

/-- While the other thread is in stage B, the thread comes to stage B itself. -/
theorem LockedA.tock (h : LockedA dc W hart s₁ s₂) (o₁ : OtherConduct dc W hart s₁.issue)
    (o₂ : OtherConduct dc W hart s₂.issue) (b₁ : s₁.BypassSound) (b₂ : s₂.BypassSound)
    (dc' : DontCare) : LockedB dc' W hart (s₁.tock dc false) (s₂.tock dc false) := by
  obtain ⟨i, t, rfl, h₁, h₂⟩ := h.thread
  have hmem : ∀ {s : Soc cb db}, OtherConduct dc W t.hpc.hart s.issue → ∀ w ∈ W,
      (s.tock dc false).dataRam.ram.ram w = s.dataRam.ram.ram w := by
    intro s o w hw
    rw [dataRam_tock, nextDataTla_eq]
    exact TilelinkA.store_of_miss fun hs hp he ↦ o.words hs hp (he ▸ hw)
  refine ⟨⟨?_, fun w hw ↦ ?_, h.mirrored₁.tock false, h.mirrored₂.tock false⟩, ?_,
    noSwap_tock o₁.swap, noSwap_tock o₂.swap⟩
  · rw [codeRam_tock false fun _ ↦ h.noCode₁, codeRam_tock false fun _ ↦ h.noCode₂, h.code]
  · rw [hmem o₁ w hw, hmem o₂ w hw, h.mem w hw]
  · exact ⟨_, t.x, rfl, h₁.tock h.mirrored₁ b₁ (o₁.off dc'), h₂.tock h.mirrored₂ b₂ (o₂.off dc')⟩

/-- While the thread is in stage B, it goes back to stage A. -/
theorem LockedB.tock (h : LockedB dc W hart s₁ s₂) (c : Conduct dc W s₁.issue) (dc' : DontCare) :
    LockedA dc' W hart (s₁.tock dc false) (s₂.tock dc false) := by
  obtain ⟨e, x, rfl, h₁, h₂⟩ := h.thread
  rw [h₁.issue] at c
  have hvalue : e.value dc s₁.dataRam.ram.ram = e.value dc s₂.dataRam.ram.ram :=
    Issue.value_congr fun ho ↦ h.mem _ (c.load ho).2
  -- The other thread, in stage C, does not get at the code while this one is active.
  have hcode : ∀ {s : Soc cb db}, s.InB dc e x → s.core.cdSwap = false →
      (s.tock dc false).codeRam.ram.ram = s.codeRam.ram.ram := by
    intro s hs hsw
    have hba : s.core.baHpc dc s.coreIn = e.next dc := by
      rw [baHpc_eq hsw (by rw [hs.issue]; exact c.yield), hs.issue]
    refine codeRam_tock_of_active false ?_
    rw [hba]
    exact hs.active
  have hnoCode : ∀ {s : Soc cb db}, s.InB dc e x → (s.tock dc false).core.cdWriteCode = false := by
    intro s hs
    have hissue := hs.issue
    subst hissue
    exact Core.access_eq_false fun _ hop ↦ (c.store hop).2
  have hwrite : ∀ {s : Soc cb db}, s.InB dc e x →
      (s.tock dc false).cdWrite dc' = e.write dc s.dataRam.ram.ram := by
    intro s hs
    have hissue := hs.issue
    subst hissue
    exact cdWrite_tock dc' hs.active c.tame
  refine ⟨⟨?_, fun w hw ↦ ?_, h.mirrored₁.tock false, h.mirrored₂.tock false⟩, ?_, ?_,
    hnoCode h₁, hnoCode h₂⟩
  · rw [hcode h₁ h.noSwap₁, hcode h₂ h.noSwap₂, h.code]
  · rw [dataRam_tock, dataRam_tock, nextDataTla_eq, nextDataTla_eq, h₁.issue, h₂.issue]
    exact TilelinkA.store_congr (h.mem w hw)
  · refine ⟨_, _, rfl, h₁.tock c.tame h.noSwap₁ rfl dc', ?_⟩
    have hretire : e.retire dc s₁.dataRam.ram.ram x = e.retire dc s₂.dataRam.ram.ram x := by
      rw [Issue.retire, Issue.retire, hvalue]
    rw [hretire]
    exact h₂.tock c.tame h.noSwap₂ h.code.symm dc'
  · rw [hwrite h₁, hwrite h₂, Issue.write, Issue.write, hvalue]

/-! ## Whole runs -/

theorem AlikeB.issue (h : AlikeB s₁ s₂) : s₁.issue = s₂.issue := by
  have haddr : s₁.core.dWaddr = s₂.core.dWaddr := congrArg RegWrite.addr h.dWrite
  have hdata : s₁.core.dWdata = s₂.core.dWdata := congrArg RegWrite.data h.dWrite
  have hen : s₁.core.dWren = s₂.core.dWren := congrArg RegWrite.en h.dWrite
  have hop1 : s₁.core.bcReg1 s₁.coreIn = s₂.core.bcReg1 s₂.coreIn := by
    simp only [Core.bcReg1, Core.reg1, coreIn, h.bHpc, h.bInsn, h.rs1, haddr, hdata, hen]
  have hop2 : s₁.core.bcReg2 s₁.coreIn = s₂.core.bcReg2 s₂.coreIn := by
    simp only [Core.bcReg2, Core.reg2, coreIn, h.bHpc, h.bInsn, h.rs2, haddr, hdata, hen]
  rw [Soc.issue, Soc.issue, h.bHpc, h.bInsn, hop1, hop2]

theorem RegWrite.apply_congr (w : RegWrite) {f g : BitVec 8 → BitVec 32} {a : BitVec 8}
    (h : f a = g a) : w.apply f a = w.apply g a := by
  by_cases hw : w.en = true ∧ w.target = a
  · rw [w.apply_of_hit f hw.1 hw.2, w.apply_of_hit g hw.1 hw.2]
  · rw [w.apply_of_miss f fun he ht ↦ hw ⟨he, ht⟩, w.apply_of_miss g fun he ht ↦ hw ⟨he, ht⟩, h]

theorem AlikeB.locked (h : AlikeB s₁ s₂) (hc : Common W s₁ s₂)
    (ha : s₁.core.bHpc.active = true) : LockedB dc W s₁.core.bHpc.hart s₁ s₂ := by
  refine ⟨hc, ⟨s₁.issue, fun r ↦ s₁.drained dc (cell (rowOf s₁.core.bHpc.hart) r), rfl,
    ⟨ha, rfl, fun _ _ ↦ rfl⟩, ha, h.issue.symm, fun r hr ↦ ?_⟩, Core.cdSwap_of_idle h.idle₁,
    Core.cdSwap_of_idle h.idle₂⟩
  have hrow := h.row r hr
  rw [drained_of_idle h.idle₁, drained_of_idle h.idle₂, committed, committed, ← h.dWrite]
  exact (RegWrite.apply_congr _ hrow).symm

theorem AlikeA.cdWrite (h : AlikeA s₁ s₂) : s₁.cdWrite dc = s₂.cdWrite dc := by
  have hyield : s₂.core.cdYield = s₁.core.cdYield := by
    rw [Core.cdYield, Core.cdYield, h.cHpc, h.cInsn]
  have hswap : s₂.core.cdSwap = false := by
    rw [← h.swap, Core.cdSwap, Core.cdSwap, h.cHpc, h.cInsn]
  have hread : s₂.core.cdReadRegfile = false := by
    rw [← h.readRegfile, Core.cdReadRegfile, Core.cdReadRegfile, h.cHpc, h.cInsn, h.cAddr]
  have hwrite : s₂.core.cdWriteRegfile = false := by
    rw [← h.writeRegfile, Core.cdWriteRegfile, Core.cdWriteRegfile, h.cHpc, h.cInsn, h.cAddr]
  have hmem : s₂.core.cdReadMem = s₁.core.cdReadMem := by
    rw [Core.cdReadMem, Core.cdReadMem, h.cHpc, h.cInsn, h.cAddr]
  have hwb : s₁.core.cdWriteback dc s₁.coreIn = s₂.core.cdWriteback dc s₂.coreIn := by
    have hbus : s₁.coreIn.dataTld.dData = s₂.coreIn.dataTld.dData := h.bus
    simp only [Core.cdWriteback, hyield, hswap, h.swap, hread, h.readRegfile, hmem, hbus, h.cHpc,
      h.cInsn, h.cAddr, h.cResult, Bool.false_eq_true, if_false]
  rw [Soc.cdWrite, Soc.cdWrite, Core.cdWrite, Core.cdWrite, Core.cdWaddr, Core.cdWaddr,
    Core.cdWdata, Core.cdWdata, Core.cdWren, Core.cdWren, hwrite, h.writeRegfile, hwb, h.cHpc,
    h.cInsn, h.cAddr]

theorem AlikeA.locked (h : AlikeA s₁ s₂) (hc : Common W s₁ s₂)
    (ha : s₁.core.aHpc.active = true) : LockedA dc W s₁.core.aHpc.hart s₁ s₂ := by
  have hforward : ∀ r, r ≠ 0#5 → s₁.ForwardAt dc r := by
    intro r _ hen
    have hact := active_of_cdWrite hen
    refine @forwardAt_of_addr _ _ _ _ s₁.core.cInsn.rd ?_ r hen
    rw [addr_cdWrite hact h.writeRegfile, h.hart hact]
  have hrow : ∀ r, r ≠ 0#5 → s₂.drained dc (cell (rowOf s₁.core.aHpc.hart) r) =
      s₁.drained dc (cell (rowOf s₁.core.aHpc.hart) r) := by
    intro r hr
    rw [drained, drained, ← h.cdWrite]
    refine RegWrite.apply_congr _ ?_
    rw [committed_of_disabled h.idle₁, committed_of_disabled h.idle₂, h.row r hr]
  let t : Thread := ⟨s₁.core.aHpc, fun r ↦ s₁.drained dc (cell (rowOf s₁.core.aHpc.hart) r)⟩
  have h₁ : s₁.InA dc ⟨s₁.codeRam.ram.rdata⟩ t := ⟨ha, rfl, rfl, fun _ _ ↦ rfl, hforward⟩
  have h₂ : s₂.InA dc ⟨s₁.codeRam.ram.rdata⟩ t := by
    refine ⟨ha, h.aHpc.symm, congrArg Insn.mk h.rdata.symm, hrow, fun r hr ↦ ?_⟩
    have := hforward r hr
    rwa [ForwardAt, h.cdWrite, h.aHpc] at this
  have hcode : s₂.core.cdWriteCode = false := by
    rw [← h.writeCode, Core.cdWriteCode, Core.cdWriteCode, h.cHpc, h.cInsn, h.cAddr]
  exact ⟨hc, ⟨_, t, rfl, h₁, h₂⟩, h.cdWrite, h.writeCode, hcode⟩

variable {dcs : ℕ → DontCare} {start : Bool}

/-- The relation holds throughout the runs. -/
theorem locked_states (h : Alike W hart start s₁ s₂) (hm₁ : s₁.Mirrored) (hm₂ : s₂.Mirrored)
    (c₁ : Conducts dcs W hart start s₁) (c₂ : Conducts dcs W hart start s₂)
    (b₁ : ∀ n, inB start n = false → (states dcs s₁ n).BypassSound)
    (b₂ : ∀ n, inB start n = false → (states dcs s₂ n).BypassSound) (n : ℕ) :
    (inB start n = true → LockedB (dcs n) W hart (states dcs s₁ n) (states dcs s₂ n)) ∧
      (inB start n = false → LockedA (dcs n) W hart (states dcs s₁ n) (states dcs s₂ n)) := by
  induction n with
  | zero =>
    have hc : Common W s₁ s₂ := ⟨h.code, h.mem, hm₁, hm₂⟩
    refine ⟨fun hs ↦ ?_, fun hs ↦ ?_⟩
    · obtain ⟨hb, ha, rfl⟩ := h.inB hs
      exact hb.locked hc ha
    · obtain ⟨hb, ha, rfl⟩ := h.inA hs
      exact hb.locked hc ha
  | succ n ih =>
    refine ⟨fun hs ↦ ?_, fun hs ↦ ?_⟩
    · have hn : inB start n = false := by simpa [inB] using hs
      exact (ih.2 hn).tock (c₁.other n hn) (c₂.other n hn) (b₁ n hn) (b₂ n hn) _
    · have hn : inB start n = true := by simpa [inB] using hs
      exact (ih.1 hn).tock (c₁.thread n hn) _

/-- **A thread does not notice the other one**, as long as the register file's
bypass does not hand it the data of a disabled write. -/
theorem thread_isolated (h : Alike W hart start s₁ s₂) (hm₁ : s₁.Mirrored) (hm₂ : s₂.Mirrored)
    (c₁ : Conducts dcs W hart start s₁) (c₂ : Conducts dcs W hart start s₂)
    (b₁ : ∀ n, inB start n = false → (states dcs s₁ n).BypassSound)
    (b₂ : ∀ n, inB start n = false → (states dcs s₂ n).BypassSound) (n : ℕ) :
    Same (dcs n) (inB start n) (states dcs s₁ n) (states dcs s₂ n) := by
  obtain ⟨hB, hA⟩ := locked_states h hm₁ hm₂ c₁ c₂ b₁ b₂ n
  unfold Same
  split_ifs with hs
  · exact (hB hs).same
  · exact (hA (by simpa using hs)).same

/-! ## When the bypass is harmless -/

variable {s : Soc cb db}

/-- Where the thread of `hart` is, and that the other one, in stage C, is elsewhere. -/
structure Placed (hart : BitVec 7) (b : Bool) (s : Soc cb db) : Prop where
  inA : b = false → s.core.aHpc.hart = hart
  inB : b = true → s.core.bHpc.hart = hart
  row : b = true → s.core.cHpc.active = true → rowOf s.core.cHpc.hart ≠ rowOf hart
  swap : b = true → s.core.cdSwap = false

theorem Alike.placed (h : Alike W hart start s₁ s₂) :
    Placed hart start s₁ ∧ Placed hart start s₂ := by
  constructor
  · exact ⟨fun hs ↦ (h.inA hs).2.2, fun hs ↦ (h.inB hs).2.2,
      fun hs ha ↦ absurd ((h.inB hs).1.idle₁.symm.trans ha) Bool.false_ne_true,
      fun hs ↦ Core.cdSwap_of_idle (h.inB hs).1.idle₁⟩
  · exact ⟨fun hs ↦ (h.inA hs).1.aHpc ▸ (h.inA hs).2.2, fun hs ↦ (h.inB hs).1.bHpc ▸ (h.inB hs).2.2,
      fun hs ha ↦ absurd ((h.inB hs).1.idle₂.symm.trans ha) Bool.false_ne_true,
      fun hs ↦ Core.cdSwap_of_idle (h.inB hs).1.idle₂⟩

/-- The thread in stage B goes on in its slot. -/
theorem Placed.hart_baHpc (h : Placed hart true s) (c : Conduct dc W s.issue) :
    (s.core.baHpc dc s.coreIn).hart = hart := by
  rw [baHpc_eq (h.swap rfl) c.yield]
  exact h.inB rfl

theorem Placed.states (h : Placed hart start s) (c : Conducts dcs W hart start s) (n : ℕ) :
    Placed hart (Pinwheel.inB start n) (Soc.states dcs s n) := by
  induction n with
  | zero => exact h
  | succ n ih =>
    cases hn : Pinwheel.inB start n with
    | true =>
      have hn' : Pinwheel.inB start (n + 1) = false := by rw [Pinwheel.inB, hn]; rfl
      rw [hn'] at *
      rw [hn] at ih
      exact ⟨fun _ ↦ ih.hart_baHpc (c.thread n hn), fun h ↦ absurd h Bool.false_ne_true,
        fun h ↦ absurd h Bool.false_ne_true, fun h ↦ absurd h Bool.false_ne_true⟩
    | false =>
      have hn' : Pinwheel.inB start (n + 1) = true := by rw [Pinwheel.inB, hn]; rfl
      rw [hn']
      exact ⟨fun h ↦ absurd h.symm Bool.false_ne_true, fun _ ↦ ih.inA hn,
        fun _ ha ↦ (c.other n hn).row ha, fun _ ↦ noSwap_tock (c.other n hn).swap⟩

/-- If `DONTCARE` names an `x0` for an idle stage C, the bypass can only do harm in
the first tock. -/
theorem Conducts.bypassSound (c : Conducts dcs W hart start s) (h : Placed hart start s)
    (hdc : ∀ n, (dcs n).cdWaddr.setWidth 5 = 0#5) (h0 : start = false → s.BypassSound) (n : ℕ)
    (hn : inB start n = false) : (Soc.states dcs s n).BypassSound := by
  cases n with
  | zero => exact h0 hn
  | succ n =>
    have hn' : inB start n = true := by simpa [inB] using hn
    have hplaced := h.states c n
    rw [hn'] at hplaced
    rw [states_succ]
    refine bypassSound_tock (hdc n) fun ha _ ↦ ?_
    rw [hplaced.hart_baHpc (c.thread n hn')]
    exact hplaced.row rfl ha

/-! ## Two threads that copy a register -/

variable {y : Hpc} {d : BitVec 32}

/-- The other thread stays `y`. -/
theorem copying_other (n : ℕ) :
    (inB false n = false → (states dcs (copying y d) n).core.bHpc.active = y.active ∧
      (states dcs (copying y d) n).core.bHpc.hart = y.hart) ∧
    (inB false n = true → (states dcs (copying y d) n).core.aHpc.active = y.active ∧
      (states dcs (copying y d) n).core.aHpc.hart = y.hart) := by
  induction n with
  | zero => exact ⟨fun _ ↦ ⟨rfl, rfl⟩, fun h ↦ absurd h Bool.false_ne_true⟩
  | succ n ih =>
    have honly := copying_only dcs y d n
    have hkeep := @baHpc_keeps _ _ (dcs n) _ honly.cInsn.plain.2.2.1 honly.bInsn.plain.2.2.2
    refine ⟨fun hn ↦ ih.2 (by simpa [inB] using hn), fun hn ↦ ?_⟩
    obtain ⟨hact, hhart⟩ := ih.1 (by simpa [inB] using hn)
    exact ⟨hkeep.1.trans hact, hkeep.2.trans hhart⟩

theorem copying_conducts (hy : y.active = true → rowOf y.hart ≠ 0#3) :
    Conducts dcs ∅ 0#7 false (copying y d) := by
  have hplain := fun n ↦ (copying_only dcs y d n).bInsn.plain
  refine ⟨fun n _ ↦ ?_, fun n hn ↦ ?_⟩
  · obtain ⟨hload, hstore, hswap, hyield⟩ := hplain n
    exact ⟨hswap, hyield, fun h ↦ absurd h hload, fun h ↦ absurd h hstore⟩
  · obtain ⟨hload, hstore, hswap, hyield⟩ := hplain n
    obtain ⟨hact, hhart⟩ := (copying_other n).1 hn
    refine ⟨fun ha ↦ ?_, fun _ ↦ hswap, fun _ ↦ hyield, fun _ h ↦ absurd h hstore, fun _ _ ↦ ?_⟩
    · rw [issue, hhart]
      exact hy (hact.symm.trans ha)
    · exact Set.notMem_empty _

theorem copying_alike {y' : Hpc} {d' : BitVec 32} :
    Alike ∅ 0#7 false (copying y d) (copying y' d') :=
  ⟨rfl, fun _ h ↦ absurd h (Set.notMem_empty _), fun h ↦ absurd h Bool.false_ne_true,
    fun _ ↦ ⟨⟨rfl, rfl, rfl, rfl, rfl, rfl, rfl, fun _ _ ↦ rfl, rfl, rfl, fun _ ↦ rfl, rfl, rfl,
      rfl, rfl⟩, rfl, rfl⟩⟩

/-- Beside another thread and alone, hart 0 does the same. -/
theorem thread_isolated_copying :
    Same (DontCare.const 0#32) (inB false 100)
      (states (fun _ ↦ DontCare.const 0#32) (copying ⟨true, 1#7, 4#24⟩ 0#32) 100)
      (states (fun _ ↦ DontCare.const 0#32) (copying ⟨false, 1#7, 0#24⟩ 0#32) 100) := by
  have hplaced := @copying_alike ⟨true, 1#7, 4#24⟩ 0#32 ⟨false, 1#7, 0#24⟩ 0#32 |>.placed
  have c₁ := @copying_conducts (fun _ ↦ DontCare.const 0#32) ⟨true, 1#7, 4#24⟩ 0#32 (by decide)
  have c₂ := @copying_conducts (fun _ ↦ DontCare.const 0#32) ⟨false, 1#7, 0#24⟩ 0#32 (by decide)
  exact thread_isolated copying_alike rfl rfl c₁ c₂
    (c₁.bypassSound hplaced.1 (fun _ ↦ rfl) fun _ _ _ _ _ _ _ ↦ rfl)
    (c₂.bypassSound hplaced.2 (fun _ ↦ rfl) fun _ _ _ _ _ _ _ ↦ rfl) 100

/-- The same program with the same registers, but for the data of a write that is
not done: hart 0 reads 7 in one run and 0 in the other. -/
theorem copying_disagree :
    let dcs := fun _ ↦ DontCare.const 0#32
    let s₁ := copying ⟨false, 1#7, 0#24⟩ 7#32
    let s₂ := copying ⟨false, 1#7, 0#24⟩ 0#32
    Alike ∅ 0#7 false s₁ s₂ ∧ s₁.Mirrored ∧ s₂.Mirrored ∧ Conducts dcs ∅ 0#7 false s₁ ∧
      Conducts dcs ∅ 0#7 false s₂ ∧
      ¬Same (dcs 1) (inB false 1) (states dcs s₁ 1) (states dcs s₂ 1) := by
  refine ⟨copying_alike, rfl, rfl, copying_conducts (by decide), copying_conducts (by decide), ?_⟩
  intro h
  have hop : 7#32 = 0#32 := congrArg Issue.op1 (SameB.issue h)
  exact absurd hop (by decide)

end Soc

end Pinwheel
