import Pinwheel.Pipeline.Multitasking

/-!
# Booting behind a guard

A reset puts hart 0 at address 4, but has it execute what the code RAM read last.  A
second reset tock makes that the word at address 0, and programs have `j .` there: it
jumps to where the thread is, which is address 4, and so that word is read two tocks
late.
-/

namespace Pinwheel

open Clocked RV32I

/-- `j .`, which is `jal x0, 0`. -/
def guardWord : BitVec 32 := 0x0000006F#32

/-- The guard jumps to where its thread is. -/
theorem turn_guard {k : ℕ} (hpc : Hpc) (h : Rv32i.Hart) (m : Rv32i.Memory k) :
    Command.turn hpc h m (.instr (.jal 0#5 0#32)) = some { pc := h.pc, x := h.x, mem := m } := by
  have hexec : (Rv32i.Instr.jal 0#5 0#32).exec h m = (h, m) := by
    rw [Rv32i.Instr.exec, Rv32i.Hart.write_zero, BitVec.add_zero]
  rw [Command.turn_of_inside rfl, hexec]
  rfl

namespace Soc

variable {cb db : ℕ} {s : Soc cb db} {rcs dcs : ℕ → DontCare} {k : ℕ}

/-- A thread in stage A, and nothing else in the pipeline, but the code RAM has read the
guard. -/
structure Guarded (s : Soc cb db) : Prop where
  mirrored : s.Mirrored
  active : s.core.aHpc.active = true
  small : s.core.aHpc.hart.toNat < 8
  bIdle : s.core.bHpc.active = false
  empty : s.core.bInsn = ⟨0#32⟩
  cIdle : s.core.cHpc.active = false
  fetched : s.codeRam.ram.rdata = guardWord
  sound : s.BypassSound

/-- The state of the machine when the guard is in stage B. -/
def guarded (s : Soc cb db) (dc : DontCare) : Machine db where
  a := ⟨s.core.bHpc.active, s.core.bHpc.hart, dc.nextPc⟩
  b := s.core.aHpc
  swap := none
  regs := rowsOf (s.drained dc)
  mem := ramBytes s.dataRam.ram.ram

/-- The state of the machine when the thread has its own instruction. -/
def behindGuard (s : Soc cb db) (dc : DontCare) : Machine db where
  a := s.core.aHpc
  b := (s.guarded dc).a
  swap := none
  regs := (s.guarded dc).regs
  mem := (s.guarded dc).mem

namespace Guarded

theorem noSwap (h : s.Guarded) (dc : DontCare) : (s.machine dc).swap = none :=
  if_neg (by rw [Core.cdSwap_of_idle h.cIdle]; exact Bool.false_ne_true)

theorem machine_tock (h : s.Guarded) (dc dc' : DontCare) :
    (s.tock dc false).machine dc' = s.guarded dc := by
  rw [(machine_tock_of_idle h.bIdle h.empty dc').1]
  have hswap := h.noSwap dc
  refine Machine.ext (Machine.entering_of_none _ hswap) rfl rfl ?_ rfl
  have hregs : s.settled dc = s.drained dc :=
    if_neg (by rw [Core.cdSwap_of_idle h.cIdle]; exact Bool.false_ne_true)
  exact (Machine.swapped_of_none _ hswap).trans (congrArg rowsOf hregs)

/-- The guard is in stage B. -/
theorem issue_tock (h : s.Guarded) (dc dc' : DontCare) :
    (s.tock dc false).issue = ((s.tock dc false).current dc').issue ⟨guardWord⟩ := by
  let t : Thread := ⟨s.core.aHpc, rowsOf (s.drained dc) (rowOf s.core.aHpc.hart)⟩
  have hinA : s.InA dc ⟨guardWord⟩ t :=
    ⟨h.active, rfl, congrArg Insn.mk h.fetched, holdsRow_rows _, fun r _ ↦
      forwardAt_of_lt h.small (fun hc ↦ absurd (h.cIdle.symm.trans hc) Bool.false_ne_true) r⟩
  have hcurrent : (s.tock dc false).current dc' = t :=
    congrArg (Thread.mk s.core.aHpc)
      (congrFun (congrArg Machine.regs (h.machine_tock dc dc')) (rowOf s.core.aHpc.hart))
  rw [hcurrent]
  exact (hinA.tock h.mirrored h.sound (off_of_idle h.bIdle dc' _)).issue

theorem staged_tock (h : s.Guarded) (dc : DontCare) :
    Staged s.codeRam.ram.ram (s.tock dc false) := by
  have hcode : s.core.cdWriteCode = false := Core.access_of_idle h.cIdle
  have hidle : (s.tock dc false).core.cHpc.active = false := h.bIdle
  have hentering : (s.tock dc false).core.aHpc.active = false := by
    have hmachine := congrArg Machine.a (h.machine_tock dc dc)
    exact (congrArg Hpc.active hmachine).trans h.bIdle
  have hactive : (s.tock dc false).core.bHpc.active = true := h.active
  have hno : ∀ {b : Bool}, b = false → b = true → False :=
    fun hf ht ↦ Bool.false_ne_true (hf.symm.trans ht)
  exact ⟨⟨h.mirrored.tock false, fun hb ↦ (hno hb hactive).elim,
    fun hc ↦ (hno hidle hc).elim, fun hc ↦ (hno hidle hc).elim⟩,
    codeRam_tock false fun _ ↦ hcode, fun ha ↦ (hno hentering ha).elim,
    Core.access_of_idle hidle⟩

/-- **The guard puts the thread back** into stage A, with its own instruction read. -/
theorem tock_tock (h : s.Guarded) (dc dc' dc'' : DontCare) :
    Tracked s.codeRam.ram.ram dc'' ((s.tock dc false).tock dc' false) ∧
      ((s.tock dc false).tock dc' false).machine dc'' =
        s.behindGuard dc ∧
      ((s.tock dc false).tock dc' false).core.dataTla.output = none := by
  have hactive : (s.tock dc false).core.bHpc.active = true := h.active
  have hmachine := h.machine_tock dc dc'
  have hidle : ¬(s.guarded dc).a.active = true := ne_true_of_eq_false h.bIdle
  have hfit : ((s.tock dc false).machine dc').Fit := by
    rw [hmachine]
    exact ⟨fun ha ↦ absurd ha hidle, fun _ ↦ h.small, fun ha ↦ absurd ha hidle⟩
  have hsound : (s.tock dc false).BypassSound := by
    intro ha
    have hentering := congrArg Machine.a hmachine
    exact absurd ((congrArg Hpc.active hentering).symm.trans ha) hidle
  let e : Turn (db + 2) :=
    { pc := ((s.tock dc false).current dc').toHart.pc
      x := ((s.tock dc false).current dc').x
      mem := ramBytes (s.tock dc false).dataRam.ram.ram }
  have htakes : (s.tock dc false).issue.Takes dc' (s.tock dc false).dataRam.ram.ram
      ((s.tock dc false).current dc').x e := by
    rw [h.issue_tock dc dc']
    exact Issue.Takes.of_decode (show Command.decode guardWord = _ by decide) hactive
      (turn_guard _ _ _)
  obtain ⟨htracked, hnext, hout⟩ := (h.staged_tock dc).tock_exec hfit hsound hactive htakes
    (Turn.spares_of_none rfl _) dc''
  refine ⟨htracked, hnext.trans ?_, hout⟩
  rw [hmachine]
  refine Machine.ext ?_ rfl rfl ?_ ?_
  · refine (@Machine.entering_of_none _ (s.guarded dc) _ rfl).trans ?_
    have hpc : (s.core.aHpc.pc.setWidth 32).setWidth 24 = s.core.aHpc.pc := by
      rw [BitVec.setWidth_setWidth_of_le _ (by decide), BitVec.setWidth_eq]
    exact congrArg (Hpc.mk s.core.aHpc.active s.core.aHpc.hart) hpc
  · have hx : ((s.tock dc false).current dc').x = (s.guarded dc).regs (rowOf s.core.aHpc.hart) :=
      congrFun (congrArg Machine.regs hmachine) _
    show Function.update ((s.guarded dc).swapped _) (rowOf s.core.aHpc.hart)
      ((s.tock dc false).current dc').x = (s.guarded dc).regs
    rw [hx, @Machine.swapped_of_none _ (s.guarded dc) _ rfl, Function.update_eq_self]
  · have hmem := congrArg Machine.mem hmachine
    exact hmem

/-- Nothing is put out in the two tocks of the guard. -/
theorem emitted_output (h : s.Guarded) (n : ℕ) :
    emitted (fun m ↦ (states dcs s (m + 1)).core.dataTla.output) (2 + n) =
      emitted (fun m ↦ (states dcs s (2 + m + 1)).core.dataTla.output) n := by
  have hfirst := (@machine_tock_of_idle _ _ (dcs 0) _ h.bIdle h.empty (dcs 1)).2
  have hsecond := (h.tock_tock (dcs 0) (dcs 1) (dcs 2)).2.2
  have hquiet : emitted (fun m ↦ (states dcs s (m + 1)).core.dataTla.output) 2 = [] := by
    rw [emitted_succ_none hsecond, emitted_succ_none hfirst]
    rfl
  rw [emitted_add, hquiet, List.nil_append]

/-- **Behind the guard the machine runs**, two tocks late. -/
theorem refines {n : ℕ} {σ : Machine db} {out : List Output} (h : s.Guarded)
    (hb : ∀ m < n, (states dcs s (2 + m)).BypassSound)
    (hrun : Machine.run s.codeRam.ram.ram (fun m ↦ (dcs (2 + m)).nextPc) n
      (s.behindGuard (dcs 0)) = some (σ, out)) :
    (states dcs s (2 + n)).machine (dcs (2 + n)) = σ ∧
      emitted (fun m ↦ (states dcs s (m + 1)).core.dataTla.output) (2 + n) = out := by
  obtain ⟨htracked, hmachine, -⟩ :
      Tracked _ (dcs 2) (states dcs s 2) ∧ (states dcs s 2).machine (dcs 2) = _ ∧ _ :=
    h.tock_tock (dcs 0) (dcs 1) (dcs 2)
  rw [← hmachine] at hrun
  have hsound : ∀ m < n, (states (fun i ↦ dcs (2 + i)) (states dcs s 2) m).BypassSound := by
    intro m hm
    rw [← states_add]
    exact hb m hm
  obtain ⟨-, hend, hout⟩ :=
    @tracked_states _ _ _ _ (fun i ↦ dcs (2 + i)) _ _ _ htracked hsound hrun
  rw [← states_add] at hend
  refine ⟨hend, ?_⟩
  rw [h.emitted_output, ← hout]
  congr 1
  funext m
  rw [Nat.add_assoc, states_add]

/-- If `DONTCARE` names an `x0` for an idle stage C, the bypass does no harm in the two tocks
behind the guard. -/
theorem sound_behindGuard (h : s.Guarded) (hdc : ∀ n, (dcs n).cdWaddr.setWidth 5 = 0#5) :
    (states dcs s 2).BypassSound ∧ (states dcs s 3).BypassSound := by
  obtain ⟨htracked, hmachine, -⟩ :
      Tracked _ (dcs 2) (states dcs s 2) ∧ (states dcs s 2).machine (dcs 2) = _ ∧ _ :=
    h.tock_tock (dcs 0) (dcs 1) (dcs 2)
  have hidle : (states dcs s 2).core.bHpc.active = false :=
    (congrArg Hpc.active (congrArg Machine.b hmachine)).trans h.bIdle
  constructor
  · exact Soc.bypassSound_tock (hdc 1) fun hc ↦ absurd (h.bIdle.symm.trans hc) Bool.false_ne_true
  · refine Soc.bypassSound_tock (s := states dcs s 2) (hdc 2) fun _ ha ↦ ?_
    have hrest₂ := (@machine_tock_of_idle _ _ (dcs 2) _ hidle (htracked.idle hidle) (dcs 3)).1
    have hbehind : ((states dcs s 2).machine (dcs 2)).swap = none :=
      congrArg Machine.swap hmachine
    have hentering := congrArg Machine.a hrest₂
    have hnext : ((states dcs s 2).core.baHpc (dcs 2) (states dcs s 2).coreIn) =
        ⟨(states dcs s 2).core.bHpc.active, (states dcs s 2).core.bHpc.hart, (dcs 2).nextPc⟩ :=
      hentering.trans (Machine.entering_of_none _ hbehind)
    rw [hnext] at ha
    exact absurd (hidle.symm.trans ha) Bool.false_ne_true

/-- So it is for rested threads from the boot on. -/
theorem bypassSound {n : ℕ} {σ : Machine db} {out : List Output} (h : s.Guarded)
    (hdc : ∀ n, (dcs n).cdWaddr.setWidth 5 = 0#5)
    (hrun : Machine.run s.codeRam.ram.ram (fun m ↦ (dcs (2 + m)).nextPc) n
      (s.behindGuard (dcs 0)) = some (σ, out))
    (hrest : (s.behindGuard (dcs 0)).Rested s.codeRam.ram.ram (fun m ↦ (dcs (2 + m)).nextPc) n) :
    ∀ m ≤ n, (states dcs s (2 + m)).BypassSound := by
  obtain ⟨htracked, hmachine, -⟩ :
      Tracked _ (dcs 2) (states dcs s 2) ∧ (states dcs s 2).machine (dcs 2) = _ ∧ _ :=
    h.tock_tock (dcs 0) (dcs 1) (dcs 2)
  obtain ⟨hsecond, hthird⟩ := h.sound_behindGuard hdc
  intro m hm
  rw [states_add]
  rw [← hmachine] at hrun hrest
  exact @tracked_sound _ _ _ _ (fun i ↦ dcs (2 + i)) _ _ _ htracked hsecond hthird
    (fun i ↦ hdc (2 + i)) hrun hrest m hm

end Guarded

/-! ## Reset -/

/-- A reset tock that reads the guard. -/
theorem guarded_tock {rc : DontCare} (hm : s.Mirrored)
    (hguard : s.codeRam.ram.ram (s.fetchAddr rc) = guardWord) : (s.tock rc true).Guarded where
  mirrored := hm.tock true
  active := rfl
  small := show (0#7).toNat < 8 by decide
  bIdle := rfl
  empty := rfl
  cIdle := rfl
  fetched := (rdata_tock true).trans hguard
  sound := @bypassSound_resets _ _ (fun _ ↦ rc) s 0

/-- The second reset tock reads the word at the pc that an empty slot goes on at. -/
theorem fetchAddr_resets : (s.resets rcs (k + 1)).fetchAddr (rcs (k + 1)) =
    wordIndex cb ((rcs (k + 1)).nextPc.setWidth 32) := by
  have hcode : (s.resets rcs (k + 1)).core.cdWriteCode = false := Core.access_of_idle rfl
  have hread : (s.resets rcs (k + 1)).core.cdReadCode = false := Core.access_of_idle rfl
  have hsteals : (s.resets rcs (k + 1)).core.stealsCode (rcs (k + 1))
      (s.resets rcs (k + 1)).coreIn = false := by
    rw [Core.stealsCode, hcode, hread]
    rfl
  rw [fetchAddr, Core.nextCodeTla, hsteals, if_neg Bool.false_ne_true]
  rfl

/-- Hart 0 is at address 4, with the registers as they are in the register file. -/
def boot (s : Soc cb db) (pc : BitVec 24) : Machine db where
  a := ⟨true, 0#7, 4#24⟩
  b := ⟨false, 0#7, pc⟩
  swap := none
  regs := rowsOf s.file
  mem := ramBytes s.dataRam.ram.ram

/-- After a reset tock the machine boots. -/
theorem behindGuard_tock {rc dc : DontCare} :
    (s.tock rc true).behindGuard dc = (s.tock rc true).boot dc.nextPc := by
  have hfile : (s.tock rc true).drained dc = (s.tock rc true).file :=
    (drained_of_idle rfl).trans (committed_of_disabled rfl)
  exact Machine.ext rfl rfl rfl (congrArg rowsOf hfile) rfl

/-- **Two reset tocks boot a guarded program**, from equal banks: if an empty slot would go on
at the guard, hart 0 is at address 4, with its own instruction read, two tocks after the
reset, and goes on as the machine does for as long as that runs with a sound bypass. -/
theorem boots_guarded {n : ℕ} {σ : Machine db} {out : List Output} (hm : s.Mirrored)
    (hguard : (s.resets rcs (k + 1)).codeRam.ram.ram
      (wordIndex cb ((rcs (k + 1)).nextPc.setWidth 32)) = guardWord)
    (hb : ∀ m < n, (states dcs (s.resets rcs (k + 2)) (2 + m)).BypassSound)
    (hrun : Machine.run (s.resets rcs (k + 2)).codeRam.ram.ram (fun m ↦ (dcs (2 + m)).nextPc) n
      ((s.resets rcs (k + 2)).boot (dcs 0).nextPc) = some (σ, out)) :
    (states dcs (s.resets rcs (k + 2)) (2 + n)).machine (dcs (2 + n)) = σ ∧
      emitted (fun m ↦ (states dcs (s.resets rcs (k + 2)) (m + 1)).core.dataTla.output) (2 + n) =
        out := by
  have hlast : s.resets rcs (k + 2) = (s.resets rcs (k + 1)).tock (rcs (k + 1)) true := run_succ _
  have hguarded : ((s.resets rcs (k + 1)).tock (rcs (k + 1)) true).Guarded :=
    guarded_tock (hm.resets rcs (k + 1)) (by rw [fetchAddr_resets]; exact hguard)
  rw [hlast] at hb hrun ⊢
  rw [← behindGuard_tock] at hrun
  exact hguarded.refines hb hrun

/-- Behind the guard is a store of `x0` to the debug register. -/
theorem boots_guarded_storing :
    let dcs := fun _ : ℕ ↦ DontCare.const 0#32
    let s : Soc 1 1 := blank fun a ↦ if a = 0#1 then guardWord else 0xFE002823#32
    ∃ σ, Machine.run (s.resets dcs 2).codeRam.ram.ram (fun m ↦ (dcs (2 + m)).nextPc) 2
        ((s.resets dcs 2).boot 0#24) =
          some (σ, [⟨TL.putFullData, 0xFFFFFFF0#32, 0#32, 0xF#4⟩]) ∧
      (states dcs (s.resets dcs 2) 4).machine (dcs 4) = σ ∧
      emitted (fun m ↦ (states dcs (s.resets dcs 2) (m + 1)).core.dataTla.output) 4 =
        [⟨TL.putFullData, 0xFFFFFFF0#32, 0#32, 0xF#4⟩] := by
  intro dcs s
  have hout : (Machine.run (s.resets dcs 2).codeRam.ram.ram (fun m ↦ (dcs (2 + m)).nextPc) 2
      ((s.resets dcs 2).boot 0#24)).map Prod.snd =
        some [⟨TL.putFullData, 0xFFFFFFF0#32, 0#32, 0xF#4⟩] := by
    decide
  obtain ⟨⟨σ, out⟩, hrun, rfl⟩ := Option.map_eq_some_iff.mp hout
  refine ⟨σ, hrun,
    boots_guarded (show (blank _).Mirrored from rfl) (by decide) (fun m hm ↦ ?_) hrun⟩
  unfold BypassSound BypassAt
  interval_cases m <;> decide

end Soc

end Pinwheel
