import Pinwheel.Pipeline.Ports

/-!
# The SoC with a register file in hardware

The SoC is fitted with any register file that has banks and latches.  For as long as the
machine runs, with the array of `bram.sv` the SoC is the machine without further ado.  With
`regfile` itself, with the cells of `regfile.h`, whose read enable has to be on, or with
`pinwheel_regfile.sv`, it is the machine if the threads are rested and spared.
-/

namespace Pinwheel

open Clocked

/-- The SoC with another register file in the place of its own. -/
structure Fitted (F : RegisterFile) (cb db : ℕ) where
  soc : Soc cb db
  file : F.State
  fits : soc.regs = F.words file

namespace Fitted

variable {F : RegisterFile} {cb db : ℕ}

/-- One tock: the core asks the register file that is there. -/
def tock (dc : DontCare) (reset : Bool) (f : Fitted F cb db) : Fitted F cb db where
  soc :=
    { f.soc.tock dc reset with
      regs := F.words (F.tick f.file (f.soc.tock dc reset).core.regIf) }
  file := F.tick f.file (f.soc.tock dc reset).core.regIf
  fits := rfl

/-- The state after `n` tocks without reset. -/
def states (dcs : ℕ → DontCare) (f : Fitted F cb db) (n : ℕ) : Fitted F cb db :=
  run (fun dc f ↦ f.tock dc false) dcs f n

/-- What leaves for the devices. -/
def outputs (dcs : ℕ → DontCare) (f : Fitted F cb db) (n : ℕ) : Option Output :=
  (f.states dcs (n + 1)).soc.core.dataTla.output

variable {f : Fitted F cb db} {p : WordPort} {dcs : ℕ → DontCare} {n : ℕ} {σ : Machine db}
  {out : List Output}

theorem soc_tock (hF : F.ReadsBy p) (dc : DontCare) (reset : Bool) :
    (f.tock dc reset).soc = f.soc.tockBy p dc reset := by
  have hregs : F.words (F.tick f.file (f.soc.tock dc reset).core.regIf) =
      f.soc.regs.tickBy p (f.soc.tock dc reset).core.regIf := by
    rw [hF, ← f.fits]
  exact congrArg (fun regs ↦ { f.soc.tock dc reset with regs := regs }) hregs

theorem soc_states (hF : F.ReadsBy p) (dcs : ℕ → DontCare) (n : ℕ) :
    (f.states dcs n).soc = Soc.statesBy p dcs f.soc n := by
  induction n with
  | zero => rfl
  | succ n ih =>
    have hlast : f.states dcs (n + 1) = (f.states dcs n).tock (dcs n) false := run_succ n
    rw [hlast, soc_tock hF, ih, Soc.statesBy_succ]

/-- The fitted SoC is the machine, as long as its ports are sound. -/
theorem eq_machine (hF : F.ReadsBy p) (h : f.soc.Ready)
    (hidle : f.soc.core.bHpc.active = false → f.soc.core.bInsn = ⟨0#32⟩)
    (hp : ∀ m < n, (Soc.statesBy p dcs f.soc m).PortSound p)
    (hrun : Machine.run f.soc.codeRam.ram.ram (fun m ↦ (dcs m).nextPc) n f.soc.initial =
      some (σ, out)) :
    (f.states dcs n).soc.machine (dcs n) = σ ∧ emitted (f.outputs dcs) n = out := by
  rw [← @Soc.Ready.machine _ _ (dcs 0) _ h] at hrun
  obtain ⟨-, hmachine, hout⟩ := Soc.tracked_statesBy (h.tracked hidle _) hp hrun
  have houtputs : f.outputs dcs = fun m ↦ (Soc.statesBy p dcs f.soc (m + 1)).core.dataTla.output :=
    funext fun m ↦ by rw [outputs, soc_states hF]
  rw [soc_states hF, houtputs]
  exact ⟨hmachine, hout⟩

/-- **With a register file that reads what a register will have, the SoC is the machine** for
as long as the machine runs: nothing is asked of the bypass. -/
theorem machine_refines_new (hF : F.ReadsBy .new) (h : f.soc.Ready)
    (hidle : f.soc.core.bHpc.active = false → f.soc.core.bInsn = ⟨0#32⟩)
    (hrun : Machine.run f.soc.codeRam.ram.ram (fun m ↦ (dcs m).nextPc) n f.soc.initial =
      some (σ, out)) :
    (f.states dcs n).soc.machine (dcs n) = σ ∧ emitted (f.outputs dcs) n = out :=
  eq_machine hF h hidle (fun _ _ ↦ Soc.portSound_new) hrun

/-- The array with the words that both banks of a register file have. -/
def onArray (s : Soc cb db) (h : s.Mirrored) : Fitted regsFile cb db where
  soc := s
  file := ⟨s.file, s.regs.getRs1, s.regs.getRs2⟩
  fits := congrArg (fun ram ↦ Regfile.mk s.regs.ram1 ⟨ram, s.regs.getRs2⟩) h

theorem machine_refines_new_stepper :
    let f := onArray Soc.stepper Soc.stepper_ready.mirrored
    emitted (f.outputs fun _ ↦ DontCare.const 0#32) 9 =
      [⟨TL.putFullData, 0xFFFFFFF0#32, 0#32, 0xF#4⟩] := by
  intro f
  have hsoc : f.soc = Soc.stepper := rfl
  obtain ⟨σ, hrun⟩ := Soc.run_stepper
  rw [← hsoc] at hrun
  exact (@machine_refines_new _ _ _ f (fun _ ↦ DontCare.const 0#32) 9 σ _ regsFile_readsBy
    Soc.stepper_ready (fun _ ↦ rfl) hrun).2

/-- **With any register file the SoC is the machine** for as long as the machine runs, if the
start is ready and its ports sound, the threads are rested and spared, and `DONTCARE` names an
`x0` for an idle stage C: what a register file reads of the register that it writes does not
matter. -/
theorem machine_refines_any (hF : F.ReadsBy p) (h : f.soc.Ready)
    (hidle : f.soc.core.bHpc.active = false → f.soc.core.bInsn = ⟨0#32⟩)
    (hp : f.soc.PortSound p) (hdc : ∀ n, (dcs n).cdWaddr.setWidth 5 = 0#5)
    (hrun : Machine.run f.soc.codeRam.ram.ram (fun m ↦ (dcs m).nextPc) n f.soc.initial =
      some (σ, out))
    (hrest : f.soc.initial.Rested f.soc.codeRam.ram.ram (fun m ↦ (dcs m).nextPc) n)
    (hspared : f.soc.initial.Spared f.soc.codeRam.ram.ram (fun m ↦ (dcs m).nextPc) n) :
    (f.states dcs n).soc.machine (dcs n) = σ ∧ emitted (f.outputs dcs) n = out := by
  refine eq_machine hF h hidle (fun m hm ↦ ?_) hrun
  rw [← @Soc.Ready.machine _ _ (dcs 0) _ h] at hrun hrest hspared
  exact Soc.portSound_statesBy (h.tracked hidle _) hp
    (Soc.portSound_tockBy_of_idle h.cIdle (hdc 0)) hdc hrun hrest hspared m (Nat.le_of_lt hm)

/-- The register file that is there. -/
def onBanks (s : Soc cb db) : Fitted regfile cb db where
  soc := s
  file := s.regs
  fits := rfl

/-- With it the SoC is what it was. -/
theorem outputs_onBanks (s : Soc cb db) :
    (onBanks s).outputs dcs = fun m ↦ (Soc.states dcs s (m + 1)).core.dataTla.output := by
  funext m
  rw [outputs, soc_states regfile_readsBy, Soc.statesBy_bypass]
  rfl

/-- The cells with the words that a register file has. -/
def onCells (re : Bool) (s : Soc cb db) : Fitted (cellFile re) cb db where
  soc := s
  file := (.ofWords s.regs.ram1, .ofWords s.regs.ram2)
  fits := (congrArg₂ Regfile.mk (CellRam.words_ofWords _) (CellRam.words_ofWords _)).symm

/-- The blocks with the words that a register file has. -/
def onBlocks (s : Soc cb db) : Fitted blockFile cb db where
  soc := s
  file := ⟨⟨s.regs.ram1.ram, s.regs.ram1.rdata⟩, ⟨s.regs.ram2.ram, s.regs.ram2.rdata⟩⟩
  fits := rfl

theorem machine_refines_any_stepper :
    let dcs := fun _ : ℕ ↦ DontCare.const 0#32
    let out := [⟨TL.putFullData, 0xFFFFFFF0#32, 0#32, 0xF#4⟩]
    emitted (fun m ↦ (Soc.states dcs Soc.stepper (m + 1)).core.dataTla.output) 9 = out ∧
      emitted ((onCells true Soc.stepper).outputs dcs) 9 = out ∧
      emitted ((onBlocks Soc.stepper).outputs dcs) 9 = out := by
  intro dcs out
  have hfile : ∀ {F : RegisterFile} {p : WordPort} (f : Fitted F 3 1), F.ReadsBy p →
      f.soc = Soc.stepper → emitted (f.outputs dcs) 9 = out := by
    intro F p f hF hsoc
    obtain ⟨σ, hrun⟩ := Soc.run_stepper
    have hready : f.soc.Ready := hsoc ▸ Soc.stepper_ready
    have hports : f.soc.PortSound p := hsoc ▸ Soc.portSound_resets
    have hidle : f.soc.core.bHpc.active = false → f.soc.core.bInsn = ⟨0#32⟩ := by
      rw [hsoc]
      exact fun _ ↦ rfl
    refine (machine_refines_any hF hready hidle hports (fun _ ↦ rfl) (hsoc ▸ hrun) ?_ ?_).2
    · rw [hsoc]
      decide
    · rw [hsoc]
      decide
  refine ⟨?_, hfile _ cellFile_readsBy rfl, hfile _ blockFile_readsBy rfl⟩
  rw [← outputs_onBanks]
  exact hfile _ regfile_readsBy rfl

end Fitted

end Pinwheel
