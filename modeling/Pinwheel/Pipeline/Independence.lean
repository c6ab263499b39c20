import Pinwheel.Pipeline.Isolation
import Pinwheel.Pipeline.Mapped

/-!
# Independence of `DONTCARE`

Two runs from one state, in which `DONTCARE` takes different values, with one thread
alone in the pipeline.  They agree in every tock on everything that is not a
`DONTCARE`, unless the bypass of the register file hands one out, or the thread
executes a `FENCE`, whose next pc is one.
-/

namespace Pinwheel

open RV32I

/-! ## Instructions -/

/-- An integer instruction of RV32I that is not a CSR instruction: one of the
instructions `decode` knows, `ECALL`, `EBREAK` or `FENCE`. -/
def Insn.Integer (i : Insn) : Prop :=
  (Rv32i.decode i.raw).isSome = true ∨ i.raw = 0x00000073#32 ∨ i.raw = 0x00100073#32 ∨
    i.op = opMiscmem

instance (i : Insn) : Decidable i.Integer := inferInstanceAs (Decidable (_ ∨ _))

/-- What is left without `FENCE`, by opcode. -/
inductive Insn.Plain (i : Insn) : Prop where
  | computes (h : i.op = opLui ∨ i.op = opAuipc ∨ i.op = opJal ∨ i.op = opJalr ∨ i.op = opOpimm ∨
      i.op = opOp)
  | branch (h : i.op = opBranch)
  | load (h : i.op = opLoad)
  | store (h : i.op = opStore)
  | system (h : i.op = opSystem) (hrd : i.rd = 0#5) (hcsr : ∀ csr, i.isCsrrw csr = false)

theorem Insn.Integer.plain {i : Insn} (h : i.Integer) (hf : i.op ≠ opMiscmem) : i.Plain := by
  rcases h with h | h | h | h
  · obtain ⟨instr, hd⟩ := Option.isSome_iff_exists.mp h
    cases Rv32i.encodes_of_decode hd with
    | lui h => exact .computes (.inl h)
    | auipc h => exact .computes (.inr (.inl h))
    | jal h => exact .computes (.inr (.inr (.inl h)))
    | jalr h => exact .computes (.inr (.inr (.inr (.inl h))))
    | branch h => exact .branch h
    | load h => exact .load h
    | store h => exact .store h
    | opImm h => exact .computes (.inr (.inr (.inr (.inr (.inl h)))))
    | op h => exact .computes (.inr (.inr (.inr (.inr (.inr h)))))
  · obtain ⟨raw⟩ := i
    cases h
    exact .system rfl rfl fun _ ↦ rfl
  · obtain ⟨raw⟩ := i
    cases h
    exact .system rfl rfl fun _ ↦ rfl
  · exact absurd h hf

theorem Insn.Plain.op_cases {i : Insn} (h : i.Plain) (hsys : i.op ≠ opSystem) :
    i.op = opLoad ∨ i.op = opOpimm ∨ i.op = opAuipc ∨ i.op = opStore ∨ i.op = opOp ∨
      i.op = opLui ∨ i.op = opBranch ∨ i.op = opJalr ∨ i.op = opJal := by
  cases h with
  | computes h => tauto
  | branch h => tauto
  | load h => tauto
  | store h => tauto
  | system h => exact absurd h hsys

/-- None of them switches threads. -/
theorem Insn.Plain.isCsrrw {i : Insn} (h : i.Plain) (csr : BitVec 12) : i.isCsrrw csr = false := by
  cases h with
  | computes h =>
    refine Executes.isCsrrw_of_op ?_ csr
    rcases h with h | h | h | h | h | h <;> rw [h] <;> decide
  | branch h => exact Executes.isCsrrw_of_op (by rw [h]; decide) csr
  | load h => exact Executes.isCsrrw_of_op (by rw [h]; decide) csr
  | store h => exact Executes.isCsrrw_of_op (by rw [h]; decide) csr
  | system _ _ hcsr => exact hcsr csr

/-- The immediate of every opcode but `SYSTEM` is decoded. -/
theorem decodeImm_congr {i : Insn} (h : i.Plain) (hsys : i.op ≠ opSystem) (dc₁ dc₂ : DontCare) :
    decodeImm dc₁ i = decodeImm dc₂ i := by
  unfold decodeImm
  dsimp only
  rcases h.op_cases hsys with h | h | h | h | h | h | h | h | h <;> rw [h] <;> rfl

/-- The request of a store does not depend on `DONTCARE` where it matters, and no other
request changes a RAM. -/
theorem genBus_store_congr {op : BitVec 7} {f3 : BitVec 3} {a₁ a₂ v₁ v₂ : BitVec 32}
    (h : op = opStore → a₁ = a₂ ∧ v₁ = v₂) (dc₁ dc₂ : DontCare) {bits : ℕ} (mask tag : BitVec 32)
    (mem : BitVec bits → BitVec 32) :
    (genBus dc₁ op f3 a₁ v₁).store mask tag mem = (genBus dc₂ op f3 a₂ v₂).store mask tag mem := by
  by_cases hop : op = opStore
  · obtain ⟨rfl, rfl⟩ := h hop
    rw [TilelinkA.store, TilelinkA.store, Executes.isPut_genBus, Executes.isPut_genBus]
    rfl
  · rw [TilelinkA.store, TilelinkA.store, Executes.isPut_genBus, Executes.isPut_genBus,
      beq_eq_false_iff_ne.mpr hop, if_neg fun hp ↦ Bool.false_ne_true hp.2,
      if_neg fun hp ↦ Bool.false_ne_true hp.2]

namespace Issue

variable {e : Issue} (dc₁ dc₂ : DontCare) {db : ℕ} {mem : BitVec db → BitVec 32}

theorem addr_congr (h : e.insn.Plain) (hsys : e.insn.op ≠ opSystem) :
    e.addr dc₁ = e.addr dc₂ := by
  rw [addr, addr, decodeImm_congr h hsys dc₁ dc₂]

/-- Where the thread goes on is no `DONTCARE`. -/
theorem next_congr (h : e.insn.Plain) : e.next dc₁ = e.next dc₂ := by
  unfold next nextHpc
  dsimp only
  by_cases hsys : e.insn.op = opSystem
  · rw [hsys]
    rfl
  · rw [decodeImm_congr h hsys dc₁ dc₂]
    rcases h.op_cases hsys with h | h | h | h | h | h | h | h | h <;> rw [h] <;> rfl

/-- What the computing instructions write is no `DONTCARE`. -/
theorem result_congr (h : e.insn.op = opLui ∨ e.insn.op = opAuipc ∨ e.insn.op = opJal ∨
    e.insn.op = opJalr ∨ e.insn.op = opOpimm ∨ e.insn.op = opOp) :
    e.result dc₁ = e.result dc₂ := by
  have hsys : e.insn.op ≠ opSystem := by
    rcases h with h | h | h | h | h | h <;> rw [h] <;> decide
  rw [Executes.result_eq rfl hsys, Executes.result_eq rfl hsys,
    decodeImm_congr (.computes h) hsys dc₁ dc₂]
  rcases h with h | h | h | h | h | h <;> rw [h] <;> rfl

end Issue

/-! ## Writes -/

/-- The same write, or none. -/
def RegWrite.Agree (w₁ w₂ : RegWrite) : Prop := w₁ = w₂ ∨ w₁.en = false ∧ w₂.en = false

theorem RegWrite.Agree.apply {w₁ w₂ : RegWrite} (h : w₁.Agree w₂) (f : BitVec 8 → BitVec 32) :
    w₁.apply f = w₂.apply f := by
  rcases h with rfl | ⟨h₁, h₂⟩
  · rfl
  · rw [RegWrite.apply, RegWrite.apply, h₁, h₂, if_neg Bool.false_ne_true,
      if_neg Bool.false_ne_true]

namespace Soc

variable {cb db : ℕ} {dc dc₁ dc₂ dc₁' dc₂' : DontCare} {s s₁ s₂ : Soc cb db}

/-- The thread executes an integer instruction, and loads from the data RAM only. -/
structure Modest (dc : DontCare) (e : Issue) : Prop where
  plain : e.insn.Plain
  load : e.insn.op = opLoad → Core.page (e.addr dc) = 0x8#4

theorem Modest.tame {e : Issue} (h : Modest dc e)
    (hmap : ¬(e.insn.op = opStore ∧ Core.page (e.addr dc) = 0xE#4)) : e.Tame dc where
  swap := h.plain.isCsrrw _
  yield := h.plain.isCsrrw _
  load hl := by
    rw [h.load hl]
    decide
  store hs hp := hmap ⟨hs, hp⟩

theorem Modest.congr {e : Issue} (h : Modest dc₁ e) (dc₂ : DontCare) : Modest dc₂ e where
  plain := h.plain
  load hl := by
    rw [← e.addr_congr dc₁ dc₂ h.plain (by rw [hl]; decide)]
    exact h.load hl

/-- What an instruction writes does not depend on `DONTCARE`. -/
theorem Modest.agree_write {e : Issue} (h : Modest dc₁ e) (dc₂ : DontCare)
    (mem : BitVec db → BitVec 32) : (e.write dc₁ mem).Agree (e.write dc₂ mem) := by
  have hen : ∀ dc, (e.write dc mem).en = e.writes := fun _ ↦ rfl
  have hsame : e.value dc₁ mem = e.value dc₂ mem → (e.write dc₁ mem).Agree (e.write dc₂ mem) := by
    intro hv
    rw [Issue.write, Issue.write, hv]
    exact .inl rfl
  have hnone : e.writes = false → (e.write dc₁ mem).Agree (e.write dc₂ mem) :=
    fun hw ↦ .inr ⟨(hen dc₁).trans hw, (hen dc₂).trans hw⟩
  cases h.plain with
  | computes hop =>
    have hload : e.insn.op ≠ opLoad := by
      rcases hop with h | h | h | h | h | h <;> rw [h] <;> decide
    refine hsame ?_
    rw [Executes.value_of_op hload, Executes.value_of_op hload, Issue.result_congr dc₁ dc₂ hop]
  | branch hop =>
    refine hnone ?_
    rw [Issue.writes, hop]
    exact Bool.and_false _
  | load hop =>
    have haddr := e.addr_congr dc₁ dc₂ h.plain (by rw [hop]; decide)
    refine hsame ?_
    rw [Issue.value, Issue.value, ← haddr, if_pos ⟨hop, h.load hop⟩, if_pos ⟨hop, h.load hop⟩]
  | store hop =>
    refine hnone ?_
    rw [Issue.writes, hop, bne_self_eq_false, Bool.and_false, Bool.false_and]
  | system _ hrd _ =>
    refine hnone ?_
    rw [Issue.writes, hrd, bne_self_eq_false, Bool.false_and, Bool.false_and]

/-- The same instruction over the same data RAM has the same write. -/
theorem agree_cdWrite_tock (h : s₁.issue = s₂.issue) (ha : s₁.issue.hpc.active = true)
    (hmem : s₁.dataRam.ram.ram = s₂.dataRam.ram.ram) (hm : Modest dc₁ s₁.issue) :
    ((s₁.tock dc₁ false).cdWrite dc₁').Agree ((s₂.tock dc₂ false).cdWrite dc₂') := by
  by_cases hmap : s₁.issue.insn.op = opStore ∧ Core.page (s₁.issue.addr dc₁) = 0xE#4
  · have haddr := s₁.issue.addr_congr dc₁ dc₂ hm.plain (by rw [hmap.1]; decide)
    have h₂ := @cdWrite_of_mappedStore _ _ dc₂ s₂ (h ▸ ha) (h ▸ hmap.1) (h ▸ haddr ▸ hmap.2) dc₂'
    rw [cdWrite_of_mappedStore ha hmap.1 hmap.2, h₂, ← h, haddr]
    exact .inl rfl
  · have hmap₂ : ¬(s₁.issue.insn.op = opStore ∧ Core.page (s₁.issue.addr dc₂) = 0xE#4) := by
      rintro ⟨hop, hp⟩
      rw [← s₁.issue.addr_congr dc₁ dc₂ hm.plain (by rw [hop]; decide)] at hp
      exact hmap ⟨hop, hp⟩
    have h₂ := @cdWrite_tock _ _ dc₂ s₂ dc₂' (h ▸ ha) (h ▸ (hm.congr dc₂).tame hmap₂)
    rw [cdWrite_tock dc₁' ha (hm.tame hmap), h₂, ← h, ← hmem]
    exact hm.agree_write dc₂ _

/-! ## The relation between the runs -/

/-- The register files and the RAMs are the same. -/
structure Level (s₁ s₂ : Soc cb db) : Prop where
  mirrored₁ : s₁.Mirrored
  mirrored₂ : s₂.Mirrored
  file : s₁.file = s₂.file
  code : s₁.codeRam.ram.ram = s₂.codeRam.ram.ram
  mem : s₁.dataRam.ram.ram = s₂.dataRam.ram.ram

/-- The thread is alone in stage B, with the same instruction in both states. -/
structure TwinB (s₁ s₂ : Soc cb db) : Prop extends Level s₁ s₂ where
  issue : s₁.issue = s₂.issue
  active : s₁.issue.hpc.active = true
  dWrite : s₁.core.dWrite.Agree s₂.core.dWrite
  idleA₁ : s₁.core.aHpc.active = false
  idleA₂ : s₂.core.aHpc.active = false
  idleC₁ : s₁.core.cHpc.active = false
  idleC₂ : s₂.core.cHpc.active = false

/-- The thread is alone in stages A and C, with the same instructions in both states. -/
structure TwinA (dc₁ dc₂ : DontCare) (s₁ s₂ : Soc cb db) : Prop extends Level s₁ s₂ where
  aHpc : s₁.core.aHpc = s₂.core.aHpc
  active : s₁.core.aHpc.active = true
  rdata : s₁.codeRam.ram.rdata = s₂.codeRam.ram.rdata
  write : (s₁.cdWrite dc₁).Agree (s₂.cdWrite dc₂)
  idleB₁ : s₁.core.bHpc.active = false
  idleB₂ : s₂.core.bHpc.active = false
  idleD₁ : s₁.core.dWren = false
  idleD₂ : s₂.core.dWren = false
  swap₁ : s₁.core.cdSwap = false
  swap₂ : s₂.core.cdSwap = false
  request : ∀ mem : BitVec db → BitVec 32,
    (s₁.issue.request dc₁).store dataMask dataTag mem =
      (s₂.issue.request dc₂).store dataMask dataTag mem
  codeRequest : ∀ mem : BitVec cb → BitVec 32,
    (s₁.core.nextCodeTla dc₁ s₁.coreIn).store codeMask codeTag mem =
      (s₂.core.nextCodeTla dc₂ s₂.coreIn).store codeMask codeTag mem

/-- The registers that the thread in stage A reads are the same to read. -/
def SameReads (s₁ s₂ : Soc cb db) : Prop :=
  ∀ r, r ≠ 0#5 → r = (s₁.core.abInsn s₁.coreIn).rs1 ∨ r = (s₁.core.abInsn s₁.coreIn).rs2 →
    s₁.portRead (cell (rowOf s₁.core.aHpc.hart) r) = s₂.portRead (cell (rowOf s₁.core.aHpc.hart) r)

theorem TwinA.abInsn (h : TwinA dc₁ dc₂ s₁ s₂) :
    s₁.core.abInsn s₁.coreIn = s₂.core.abInsn s₂.coreIn := by
  have h₂ : s₂.core.aHpc.active = true := h.aHpc ▸ h.active
  rw [Core.abInsn, Core.abInsn, if_pos h.active, if_pos h₂]
  exact congrArg Insn.mk h.rdata

/-- With a disabled write in stage D a sound bypass reads the register file. -/
theorem TwinA.sameReads (h : TwinA dc₁ dc₂ s₁ s₂) (hb₁ : s₁.BypassSound) (hb₂ : s₂.BypassSound) :
    SameReads s₁ s₂ := by
  have hfile : ∀ {s : Soc cb db} {r}, s.core.dWren = false → s.BypassAt r →
      s.portRead (cell (rowOf s.core.aHpc.hart) r) = s.file (cell (rowOf s.core.aHpc.hart) r) := by
    intro s r hd hb
    rw [portRead_eq_committed hb, committed_of_disabled hd]
  intro r hr hrs
  have hrs₂ := hrs
  rw [h.abInsn] at hrs₂
  rw [hfile h.idleD₁ (hb₁ h.active r hr hrs), h.aHpc,
    hfile h.idleD₂ (hb₂ (h.aHpc ▸ h.active) r hr hrs₂), h.file]

/-- An operand is the same if the write in stage C agrees and the port reads the same. -/
theorem TwinA.operand (h : TwinA dc₁ dc₂ s₁ s₂) {r : BitVec 5}
    (hr : s₁.portRead (cell (rowOf s₁.core.aHpc.hart) r) =
      s₂.portRead (cell (rowOf s₁.core.aHpc.hart) r)) :
    s₁.operand dc₁ r = s₂.operand dc₂ r := by
  rw [Soc.operand, Soc.operand, hr, h.aHpc]
  rcases h.write with hw | ⟨h₁, h₂⟩
  · rw [hw]
  · rw [h₁, h₂, if_neg fun h ↦ Bool.false_ne_true h.2, if_neg fun h ↦ Bool.false_ne_true h.2]

theorem Level.tock (h : Level s₁ s₂) (hd : s₁.core.dWrite.Agree s₂.core.dWrite)
    (hcode : (s₁.tock dc₁ false).codeRam.ram.ram = (s₂.tock dc₂ false).codeRam.ram.ram)
    (hmem : (s₁.tock dc₁ false).dataRam.ram.ram = (s₂.tock dc₂ false).dataRam.ram.ram) :
    Level (s₁.tock dc₁ false) (s₂.tock dc₂ false) where
  mirrored₁ := h.mirrored₁.tock false
  mirrored₂ := h.mirrored₂.tock false
  file := by rw [file_tock, file_tock, committed, committed, h.file, hd.apply]
  code := hcode
  mem := hmem

/-- **From stage A to stage B.** -/
theorem TwinA.tock (h : TwinA dc₁ dc₂ s₁ s₂) (hreads : SameReads s₁ s₂) :
    TwinB (s₁.tock dc₁ false) (s₂.tock dc₂ false) := by
  have hop : ∀ r, r = (s₁.core.abInsn s₁.coreIn).rs1 ∨ r = (s₁.core.abInsn s₁.coreIn).rs2 →
      (if r = 0#5 then 0#32 else s₁.operand dc₁ r) =
        if r = 0#5 then 0#32 else s₂.operand dc₂ r := by
    intro r hrs
    by_cases hr : r = 0#5
    · rw [if_pos hr, if_pos hr]
    · rw [if_neg hr, if_neg hr, h.operand (hreads r hr hrs)]
  refine ⟨h.toLevel.tock (.inr ⟨h.idleD₁, h.idleD₂⟩) ?_ ?_, ?_, h.active, h.write,
    @Core.baHpc_of_idle dc₁ _ _ h.swap₁ h.idleB₁, @Core.baHpc_of_idle dc₂ _ _ h.swap₂ h.idleB₂,
    h.idleB₁, h.idleB₂⟩
  · have hram : ∀ {dc} {s : Soc cb db}, (s.tock dc false).codeRam.ram.ram =
        (s.core.nextCodeTla dc s.coreIn).store codeMask codeTag s.codeRam.ram.ram :=
      BusRam.ram_tockB _ _ _ _
    rw [hram, hram, h.code, h.codeRequest]
  · rw [dataRam_tock, dataRam_tock, nextDataTla_eq, nextDataTla_eq, h.mem, h.request]
  · have ha₂ : s₂.core.aHpc.active = true := h.aHpc ▸ h.active
    have hhpc : (s₁.tock dc₁ false).core.bHpc = (s₂.tock dc₂ false).core.bHpc := h.aHpc
    have hinsn : (s₁.tock dc₁ false).core.bInsn = (s₂.tock dc₂ false).core.bInsn := h.abInsn
    rw [Soc.issue, Soc.issue, bcReg1_tock h.active, bcReg2_tock h.mirrored₁ h.active,
      bcReg1_tock ha₂, bcReg2_tock h.mirrored₂ ha₂, hop _ (.inl rfl), hop _ (.inr rfl), hhpc,
      hinsn, h.abInsn]

/-- The thread in stage B goes on in stage A. -/
theorem TwinB.baHpc {e : Issue} (he : s.issue = e) (hp : e.insn.Plain)
    (hc : s.core.cHpc.active = false) : s.core.baHpc dc s.coreIn = e.next dc := by
  subst he
  exact baHpc_eq (Core.cdSwap_of_idle hc) (hp.isCsrrw _)

/-- While stage B is empty, stage C takes the code bus with a store to code space, and
with nothing else of a modest thread. -/
theorem stealsCode_tock {dc dc' : DontCare} {s : Soc cb db} (hm : Modest dc s.issue)
    (ha : s.core.aHpc.active = false) :
    (s.tock dc false).core.stealsCode dc' (s.tock dc false).coreIn =
      (s.tock dc false).core.cdWriteCode := by
  have hread : (s.tock dc false).core.cdReadCode = false :=
    Core.access_eq_false fun _ hop hpage ↦ absurd ((hm.load hop).symm.trans hpage) (by decide)
  have hba : ((s.tock dc false).core.baHpc dc' (s.tock dc false).coreIn).active = false :=
    Core.baHpc_of_idle (noSwap_tock fun _ ↦ hm.plain.isCsrrw _) ha
  rw [Core.stealsCode, hread, hba, Bool.false_or, Bool.not_false, Bool.and_true]

/-- A store has the same address and the same data for both. -/
theorem store_tock (h : s₁.issue = s₂.issue) (hm : Modest dc₁ s₁.issue)
    (hop : s₁.issue.insn.op = opStore) :
    s₁.issue.addr dc₁ = s₂.issue.addr dc₂ ∧ s₁.issue.result dc₁ = s₂.issue.result dc₂ := by
  rw [← h]
  constructor
  · exact s₁.issue.addr_congr dc₁ dc₂ hm.plain (by rw [hop]; decide)
  · rw [Executes.result_eq hop (by decide), Executes.result_eq hop (by decide)]
    rfl

/-- The request for code writes the same for both. -/
theorem codeRequest_tock (h : s₁.issue = s₂.issue) (hm : Modest dc₁ s₁.issue)
    (ha₁ : s₁.core.aHpc.active = false) (ha₂ : s₂.core.aHpc.active = false)
    (mem : BitVec cb → BitVec 32) :
    ((s₁.tock dc₁ false).core.nextCodeTla dc₁' (s₁.tock dc₁ false).coreIn).store codeMask codeTag
        mem =
      ((s₂.tock dc₂ false).core.nextCodeTla dc₂' (s₂.tock dc₂ false).coreIn).store codeMask codeTag
        mem := by
  have hm₂ : Modest dc₂ s₂.issue := h ▸ hm.congr dc₂
  have hhpc : (s₁.tock dc₁ false).core.cHpc = (s₂.tock dc₂ false).core.cHpc :=
    congrArg Issue.hpc h
  have hinsn : (s₁.tock dc₁ false).core.cInsn = (s₂.tock dc₂ false).core.cInsn :=
    congrArg Issue.insn h
  have hstore : (s₂.tock dc₂ false).core.cInsn.op = opStore →
      (s₁.tock dc₁ false).core.cAddr = (s₂.tock dc₂ false).core.cAddr ∧
        (s₁.tock dc₁ false).core.cResult = (s₂.tock dc₂ false).core.cResult :=
    fun hop ↦ store_tock h hm ((congrArg Insn.op hinsn).trans hop)
  have hwrite : (s₁.tock dc₁ false).core.cdWriteCode = (s₂.tock dc₂ false).core.cdWriteCode := by
    rw [Core.cdWriteCode, Core.cdWriteCode, hhpc, hinsn]
    by_cases hop : (s₂.tock dc₂ false).core.cInsn.op = opStore
    · rw [(hstore hop).1]
    · rw [beq_eq_false_iff_ne.mpr hop, Bool.and_false, Bool.false_and, Bool.false_and]
  rw [Core.nextCodeTla, Core.nextCodeTla, stealsCode_tock hm ha₁, stealsCode_tock hm₂ ha₂, hwrite,
    hinsn]
  split_ifs
  · exact genBus_store_congr hstore dc₁' dc₂' codeMask codeTag mem
  · exact genBus_store_congr (fun h ↦ absurd h (by decide)) dc₁' dc₂' codeMask codeTag mem

/-- **From stage B to stage A.** -/
theorem TwinB.tock (h : TwinB s₁ s₂) (hm : Modest dc₁ s₁.issue) :
    TwinA dc₁' dc₂' (s₁.tock dc₁ false) (s₂.tock dc₂ false) := by
  have hp₂ : s₂.issue.insn.Plain := h.issue ▸ hm.plain
  have hba₁ : s₁.core.baHpc dc₁ s₁.coreIn = s₁.issue.next dc₁ := TwinB.baHpc rfl hm.plain h.idleC₁
  have hba₂ : s₂.core.baHpc dc₂ s₂.coreIn = s₁.issue.next dc₁ := by
    rw [TwinB.baHpc rfl hp₂ h.idleC₂, ← h.issue, s₁.issue.next_congr dc₁ dc₂ hm.plain]
  have hact : (s₁.issue.next dc₁).active = true := h.active
  have hact₁ : (s₁.core.baHpc dc₁ s₁.coreIn).active = true := hba₁ ▸ hact
  have hact₂ : (s₂.core.baHpc dc₂ s₂.coreIn).active = true := hba₂ ▸ hact
  refine ⟨h.toLevel.tock h.dWrite ?_ ?_, hba₁.trans hba₂.symm, ?_, ?_,
    agree_cdWrite_tock h.issue h.active h.mem hm, h.idleA₁, h.idleA₂,
    @en_cdWrite _ _ dc₁ _ h.idleC₁, @en_cdWrite _ _ dc₂ _ h.idleC₂,
    noSwap_tock fun _ ↦ hm.plain.isCsrrw _, noSwap_tock fun _ ↦ hp₂.isCsrrw _, fun mem ↦ ?_,
    codeRequest_tock h.issue hm h.idleA₁ h.idleA₂⟩
  · rw [codeRam_tock_of_active false hact₁, codeRam_tock_of_active false hact₂, h.code]
  · rw [dataRam_tock, dataRam_tock, nextDataTla_eq, nextDataTla_eq, ← h.mem, ← h.issue]
    exact genBus_store_congr (fun hop ↦ ⟨s₁.issue.addr_congr dc₁ dc₂ hm.plain
      (by rw [hop]; decide), rfl⟩) dc₁ dc₂ dataMask dataTag _
  · exact hact₁
  · rw [fetch_tock false (stealsCode_of_active hact₁),
      fetch_tock false (stealsCode_of_active hact₂), hba₁, hba₂, h.code]
  · have hinsn₁ : (s₁.tock dc₁ false).issue.insn = ⟨0#32⟩ := Core.abInsn_of_idle h.idleA₁
    have hinsn₂ : (s₂.tock dc₂ false).issue.insn = ⟨0#32⟩ := Core.abInsn_of_idle h.idleA₂
    rw [Issue.request, Issue.request, hinsn₁, hinsn₂]
    exact genBus_store_congr (fun h ↦ absurd h (by decide)) dc₁' dc₂' dataMask dataTag mem

/-! ## Whole runs -/

/-- The architectural state of the thread in stage B or in stage A: its pc, its
registers and the data RAM. -/
def arch (dc : DontCare) (b : Bool) (s : Soc cb db) :
    BitVec 24 × (BitVec 5 → BitVec 32) × (BitVec db → BitVec 32) :=
  let hpc := if b then s.core.bHpc else s.core.aHpc
  (hpc.pc, s.rows dc (rowOf hpc.hart), s.dataRam.ram.ram)

/-- One thread is in the pipeline, in stage B or in stage A, and nothing is in flight. -/
structure Lone (b : Bool) (s : Soc cb db) : Prop where
  mirrored : s.Mirrored
  inB : b = true → s.core.bHpc.active = true ∧ s.core.aHpc.active = false
  inA : b = false → s.core.aHpc.active = true ∧ s.core.bHpc.active = false
  idleC : s.core.cHpc.active = false
  idleD : s.core.dWren = false

/-- The states are twins for the thread. -/
def Twin (dc₁ dc₂ : DontCare) (b : Bool) (s₁ s₂ : Soc cb db) : Prop :=
  if b then TwinB s₁ s₂ else TwinA dc₁ dc₂ s₁ s₂

theorem rows_congr (h : Level s₁ s₂) (hc : (s₁.cdWrite dc₁).Agree (s₂.cdWrite dc₂))
    (hd : s₁.core.dWrite.Agree s₂.core.dWrite) : s₁.rows dc₁ = s₂.rows dc₂ := by
  have hdrained : s₁.drained dc₁ = s₂.drained dc₂ := by
    rw [drained, drained, committed, committed, hc.apply, hd.apply, h.file]
  funext row r
  rw [rows, rows, hdrained]

/-- Twins have the same architectural state. -/
theorem Twin.arch {b : Bool} (h : Twin dc₁ dc₂ b s₁ s₂) : s₁.arch dc₁ b = s₂.arch dc₂ b := by
  cases b with
  | true =>
    have h : TwinB s₁ s₂ := h
    have hrows := @rows_congr _ _ dc₁ dc₂ _ _ h.toLevel
      (.inr ⟨en_cdWrite h.idleC₁, en_cdWrite h.idleC₂⟩) h.dWrite
    have hhpc : s₁.core.bHpc = s₂.core.bHpc := congrArg Issue.hpc h.issue
    rw [Soc.arch, Soc.arch, if_pos rfl, if_pos rfl, hhpc, hrows, h.mem]
  | false =>
    have h : TwinA dc₁ dc₂ s₁ s₂ := h
    have hrows := rows_congr h.toLevel h.write (.inr ⟨h.idleD₁, h.idleD₂⟩)
    rw [Soc.arch, Soc.arch, if_neg Bool.false_ne_true, if_neg Bool.false_ne_true, h.aHpc, hrows,
      h.mem]

/-- A state is its own twin. -/
theorem Lone.twin {b : Bool} (h : Lone b s) (dc₁ dc₂ : DontCare) : Twin dc₁ dc₂ b s s := by
  have hlevel : Level s s := ⟨h.mirrored, h.mirrored, rfl, rfl, rfl⟩
  have hswap : s.core.cdSwap = false := Core.cdSwap_of_idle h.idleC
  have hfetch : ∀ dc, s.core.nextCodeTla dc s.coreIn =
      genBus dc opLoad 2#3 ((s.core.baHpc dc s.coreIn).pc.setWidth 32) s.core.cResult := by
    intro dc
    refine if_neg ?_
    rw [Core.stealsCode, Core.cdReadCode, Core.cdWriteCode, h.idleC]
    exact Bool.false_ne_true
  cases b with
  | true =>
    obtain ⟨hb, ha⟩ := h.inB rfl
    exact ⟨hlevel, rfl, hb, .inl rfl, ha, ha, h.idleC, h.idleC⟩
  | false =>
    obtain ⟨ha, hb⟩ := h.inA rfl
    refine ⟨hlevel, rfl, ha, rfl, .inr ⟨en_cdWrite h.idleC, en_cdWrite h.idleC⟩, hb, hb, h.idleD,
      h.idleD, hswap, hswap, fun mem ↦ ?_, fun mem ↦ ?_⟩
    · exact genBus_store_congr (fun hop ↦ ⟨s.issue.addr_congr dc₁ dc₂ (.store hop)
        (by rw [hop]; decide), rfl⟩) dc₁ dc₂ dataMask dataTag mem
    · rw [hfetch, hfetch]
      exact genBus_store_congr (fun h ↦ absurd h (by decide)) dc₁ dc₂ codeMask codeTag mem

variable {dcs dcs₁ dcs₂ : ℕ → DontCare} {start : Bool} {n : ℕ}

/-- **The values of `DONTCARE` do not matter** to a thread that is alone, as long as
it executes no `FENCE` and the register file's bypass does not hand out the data of a
disabled write. -/
theorem dontcare_independent (h : Lone start s)
    (hinteger : ∀ m < n, inB start m = true → (states dcs₁ s m).issue.insn.Integer ∧
      ((states dcs₁ s m).issue.insn.op = opLoad →
        Core.page ((states dcs₁ s m).issue.addr (dcs₁ m)) = 0x8#4))
    (hfence : ∀ m < n, inB start m = true → (states dcs₁ s m).issue.insn.op ≠ opMiscmem)
    (hb₁ : ∀ m < n, 0 < m → inB start m = false → (states dcs₁ s m).BypassSound)
    (hb₂ : ∀ m < n, 0 < m → inB start m = false → (states dcs₂ s m).BypassSound) :
    (states dcs₁ s n).arch (dcs₁ n) (inB start n) =
      (states dcs₂ s n).arch (dcs₂ n) (inB start n) := by
  refine Twin.arch ?_
  induction n with
  | zero => exact h.twin _ _
  | succ n ih =>
    have ih := ih (fun m hm ↦ hinteger m (Nat.lt_succ_of_lt hm))
      (fun m hm ↦ hfence m (Nat.lt_succ_of_lt hm)) (fun m hm ↦ hb₁ m (Nat.lt_succ_of_lt hm))
      fun m hm ↦ hb₂ m (Nat.lt_succ_of_lt hm)
    have hn := Nat.lt_succ_self n
    rw [states_succ, states_succ, inB]
    cases hstage : inB start n with
    | true =>
      rw [hstage] at ih
      have htwin : TwinB (states dcs₁ s n) (states dcs₂ s n) := ih
      obtain ⟨hint, hload⟩ := hinteger n hn hstage
      exact htwin.tock ⟨hint.plain (hfence n hn hstage), hload⟩
    | false =>
      rw [hstage] at ih
      have htwin : TwinA (dcs₁ n) (dcs₂ n) (states dcs₁ s n) (states dcs₂ s n) := ih
      refine htwin.tock ?_
      rcases Nat.eq_zero_or_pos n with rfl | hpos
      · exact fun _ _ _ ↦ rfl
      · exact htwin.sameReads (hb₁ n hn hpos hstage) (hb₂ n hn hpos hstage)

/-- Hart 0 alone in stage A, with `addi x2, x1, 0` everywhere. -/
def loneCopying : Soc 1 1 := copying ⟨false, 1#7, 0#24⟩ 0#32

theorem loneCopying_lone : Lone false loneCopying :=
  ⟨rfl, fun h ↦ absurd h (by decide), fun _ ↦ ⟨rfl, rfl⟩, rfl, rfl⟩

theorem loneCopying_integer : ∀ m < 5, inB false m = true →
    (states (fun _ ↦ DontCare.const 0#32) loneCopying m).issue.insn.Integer ∧
      (states (fun _ ↦ DontCare.const 0#32) loneCopying m).issue.insn.op ≠ opLoad ∧
      (states (fun _ ↦ DontCare.const 0#32) loneCopying m).issue.insn.op ≠ opMiscmem := by
  decide

/-- From stage B on, the thread comes to stage A once in three tocks. -/
theorem eq_two_of_stageA {m : ℕ} (hm : m < 3) (hpos : 0 < m) (hA : inB false m = false) :
    m = 2 := by
  interval_cases m
  · exact absurd hA (by decide)
  · rfl

/-- All zeros or all ones, hart 0 does the same. -/
theorem dontcare_independent_loneCopying :
    (states (fun _ ↦ DontCare.const 0#32) loneCopying 3).arch (DontCare.const 0#32) true =
      (states (fun _ ↦ DontCare.const 0xFFFFFFFF#32) loneCopying 3).arch
        (DontCare.const 0xFFFFFFFF#32) true := by
  refine @dontcare_independent _ _ loneCopying (fun _ ↦ DontCare.const 0#32)
    (fun _ ↦ DontCare.const 0xFFFFFFFF#32) false 3 loneCopying_lone ?_ ?_ ?_ ?_
  · intro m hm hB
    obtain ⟨hint, hload, -⟩ := loneCopying_integer m (by omega) hB
    exact ⟨hint, fun h ↦ absurd h hload⟩
  · intro m hm hB
    exact (loneCopying_integer m (by omega) hB).2.2
  · intro m hm hpos hA
    obtain rfl := eq_two_of_stageA hm hpos hA
    unfold BypassSound BypassAt
    decide
  · intro m hm hpos hA
    obtain rfl := eq_two_of_stageA hm hpos hA
    unfold BypassSound BypassAt
    decide

/-- An idle stage C that names `x1` of hart 0 puts 7 into `x2`. -/
theorem loneCopying_differs :
    let dcs₁ := fun _ : ℕ ↦ DontCare.const 0#32
    let dcs₂ := fun _ : ℕ ↦ { DontCare.const 7#32 with cdWaddr := 1#12 }
    Lone false loneCopying ∧ (∀ m < 5, inB false m = true →
        (states dcs₁ loneCopying m).issue.insn.Integer ∧
        (states dcs₁ loneCopying m).issue.insn.op ≠ opLoad) ∧
      (states dcs₁ loneCopying 5).arch (dcs₁ 5) true ≠
        (states dcs₂ loneCopying 5).arch (dcs₂ 5) true := by
  intro dcs₁ dcs₂
  refine ⟨loneCopying_lone, fun m hm hB ↦ ?_, fun h ↦ ?_⟩
  · obtain ⟨hint, hload, -⟩ := loneCopying_integer m hm hB
    exact ⟨hint, hload⟩
  · have hx2 := congrFun (congrArg (fun a ↦ a.2.1) h) 2#5
    exact absurd hx2 (by decide)

end Soc

end Pinwheel
