import Pinwheel.Pipeline.Reset

/-!
# Loads

A load asks from stage B, the addressed device answers into its latch, and stage C
writes back in the next tock.  Stage C looks at the data bus for addresses of the
data RAM only.
-/

namespace Pinwheel

open RV32I

/-- The devices on the data bus. -/
inductive Device where
  | dataRam
  | debugReg
  | uart0Tx
  | uart0Rx
deriving DecidableEq, Repr

/-- The device that can be read at an address. -/
def Device.at (address : BitVec 32) : Option Device :=
  if Core.page address = 0x8#4 then some dataRam
  else if Core.page address = 0xF#4 then some debugReg
  else if address = 0xB0000000#32 then some uart0Tx
  else if address = 0xB0010000#32 ∨ address = 0xB0010004#32 ∨ address = 0xB0010008#32 then
    some uart0Rx
  else none

theorem Device.page_of_at {address : BitVec 32} {d : Device} (h : Device.at address = some d) :
    Core.page address = 0x8#4 ↔ d = .dataRam := by
  unfold Device.at at h
  split_ifs at h with h8 <;> cases h <;> simp [h8]

namespace Soc

variable {cb db : ℕ} (dc : DontCare) (s : Soc cb db)

/-- What a device answers to the request of this tock. -/
def answer : Device → BitVec 32
  | .dataRam => (s.tock dc false).dataRam.getTld.dData
  | .debugReg => (s.tock dc false).debugReg.getTld.dData
  | .uart0Tx => (s.tock dc false).uart0Tx.getTld.dData
  | .uart0Rx => (s.tock dc false).uart0Rx.getTld.dData

variable {dc s}

/-- The data RAM answers with a word that only its contents and the address
determine. -/
theorem answer_dataRam :
    s.answer dc .dataRam = s.dataRam.ram.ram (wordIndex db (s.issue.addr dc)) :=
  BusRam.rdata_tockB s.dataRam dataMask dataTag (s.core.nextDataTla dc s.coreIn)

/-- A load is tame unless it is of the mapped registers. -/
theorem tame_of_load (hl : s.issue.insn.op = opLoad)
    (hp : Core.page (s.issue.addr dc) ≠ 0xE#4) : s.issue.Tame dc := by
  have hsys : s.issue.insn.op ≠ opSystem := by
    rw [hl]
    decide
  exact ⟨Executes.isCsrrw_of_op hsys _, Executes.isCsrrw_of_op hsys _, fun _ ↦ hp,
    fun hs ↦ absurd (hl.symm.trans hs) (by decide)⟩

/-- A readable address is not one of the mapped registers. -/
theorem Device.not_mapped {address : BitVec 32} {d : Device} (h : Device.at address = some d) :
    Core.page address ≠ 0xE#4 := by
  unfold Device.at at h
  split_ifs at h with h8 hF hB hR
  · rw [h8]
    decide
  · rw [hF]
    decide
  · rw [hB]
    decide
  · rcases hR with rfl | rfl | rfl <;> decide

/-- **What a load writes**: the word of the data RAM, as `unpack_mem` sees it, or
`DONTCARE` for every other device. -/
theorem load_writes (ha : s.issue.hpc.active = true) (hl : s.issue.insn.op = opLoad) {d : Device}
    (hd : Device.at (s.issue.addr dc) = some d) (dc' : DontCare) :
    ((s.tock dc false).cdWrite dc').data =
      if d = .dataRam then
        unpackMem s.issue.insn.f3 (s.issue.addr dc) (s.answer dc .dataRam)
      else dc.loadResult := by
  rw [cdWrite_tock dc' ha (tame_of_load hl (Device.not_mapped hd)), Issue.write, Issue.value,
    answer_dataRam]
  refine if_congr ?_ rfl ?_
  · exact ⟨fun h ↦ (Device.page_of_at hd).mp h.2, fun h ↦ ⟨hl, (Device.page_of_at hd).mpr h⟩⟩
  · rw [Executes.result_eq hl (by decide)]
    rfl

/-- **A word load returns what the device answered** exactly if it reads the data
RAM, where the word is not shifted, or a device that happens to answer `DONTCARE`. -/
theorem load_returns_answer_iff (ha : s.issue.hpc.active = true)
    (hl : s.issue.insn.op = opLoad) (hf : s.issue.insn.f3 = f3Lw) (hrd : s.issue.insn.rd ≠ 0#5)
    {d : Device} (hd : Device.at (s.issue.addr dc) = some d) (dc' : DontCare) :
    ((s.tock dc false).cdWrite dc').en = true ∧
    (((s.tock dc false).cdWrite dc').data = s.answer dc d ↔
      (d = .dataRam ∧
        s.answer dc .dataRam >>> (8 * lane (s.issue.addr dc)) = s.answer dc .dataRam) ∨
      (d ≠ .dataRam ∧ s.answer dc d = dc.loadResult)) := by
  have hen : ((s.tock dc false).cdWrite dc').en = true := by
    rw [cdWrite_tock dc' ha (tame_of_load hl (Device.not_mapped hd))]
    have hdef : (s.issue.write dc s.dataRam.ram.ram).en =
      (s.issue.insn.rd != 0#5 && s.issue.insn.op != opStore && s.issue.insn.op != opBranch) := rfl
    rw [hdef, bne_iff_ne.mpr hrd, hl]
    rfl
  refine ⟨hen, ?_⟩
  rw [load_writes ha hl hd]
  by_cases hdev : d = .dataRam
  · subst hdev
    have hword : ∀ w, unpackMem f3Lw (s.issue.addr dc) w = w >>> (8 * lane (s.issue.addr dc)) := by
      intro w
      rw [← unpackMem_shift]
      rfl
    rw [if_pos rfl, hf, hword]
    simp
  · rw [if_neg hdev, eq_comm]
    simp [hdev]

/-- A program that writes the debug register and reads it back:
`lui x1, 0xF0000; sw x1, 0(x1); lw x2, 0(x1)`. -/
def readback : Soc 2 1 :=
  blank fun a ↦
    if a = 2#2 then 0x0010A023#32 else if a = 3#2 then 0x0000A103#32 else 0xF00000B7#32

/-- The state in which the load of `readback` is in stage B. -/
def readbackLoad : Soc 2 1 :=
  states (fun _ ↦ DontCare.const 0#32) (readback.resets (fun _ ↦ DontCare.const 0#32) 1) 5

theorem load_returns_answer_readback :
    ((readbackLoad.tock (DontCare.const 0#32) false).cdWrite (DontCare.const 0#32)).data =
        readbackLoad.answer (DontCare.const 0#32) .debugReg ↔
      readbackLoad.answer (DontCare.const 0#32) .debugReg = 0#32 := by
  have h := (@load_returns_answer_iff _ _ (DontCare.const 0#32) readbackLoad (by decide)
    (by decide) (by decide) (by decide) .debugReg (by decide) (DontCare.const 0#32)).2
  rw [h]
  simp [DontCare.const]

/-- The debug register answers with what was written, and `x2` becomes 0. -/
theorem readback_misses :
    readbackLoad.issue.hpc.active = true ∧ readbackLoad.issue.insn.op = opLoad ∧
      readbackLoad.issue.insn.f3 = f3Lw ∧ readbackLoad.issue.insn.rd ≠ 0#5 ∧
      Device.at (readbackLoad.issue.addr (DontCare.const 0#32)) = some .debugReg ∧
      readbackLoad.answer (DontCare.const 0#32) .debugReg = 0xF0000000#32 ∧
      ((readbackLoad.tock (DontCare.const 0#32) false).cdWrite (DontCare.const 0#32)).data =
        0#32 := by
  decide

end Soc

end Pinwheel
