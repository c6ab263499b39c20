import Mathlib.Data.List.Induction
import Pinwheel.Pipeline.Interleaving
import Pinwheel.Pipeline.Stepping

/-!
# How the firmware starts

`tests/firmware/start.s` is linked to address 0 by `pinwheel.ld`.  `_start` sets up the
global pointer and a stack for the hart, and goes on at `main`.
-/

namespace Pinwheel

open Clocked

/-! ## Straight lines -/

/-- The program has commands from an address on. -/
def Laid {cb : ℕ} (code : BitVec cb → BitVec 32) (pc : BitVec 24) (cs : List Command) : Prop :=
  ∀ i (h : i < cs.length),
    Command.decode (code (wordIndex cb ((pc + BitVec.ofNat 24 (4 * i)).setWidth 32))) = some cs[i]

instance {cb : ℕ} (code : BitVec cb → BitVec 32) (pc : BitVec 24) (cs : List Command) :
    Decidable (Laid code pc cs) :=
  inferInstanceAs (Decidable (∀ i (_ : i < cs.length), _))

theorem Laid.left {cb : ℕ} {code : BitVec cb → BitVec 32} {pc : BitVec 24} {cs ds : List Command}
    (h : Laid code pc (cs ++ ds)) : Laid code pc cs := by
  intro i hi
  rw [h i (List.length_append ▸ Nat.lt_add_right _ hi), List.getElem_append_left hi]

/-- The commands that compute a register, and go on with the next one. -/
def Command.Computes : Command → Bool
  | .instr (.lui _ _) | .instr (.auipc _ _) | .instr (.opImm _ _ _ _) | .instr (.op _ _ _ _) => true
  | .hartid _ => true
  | _ => false

namespace Process

variable {cb k : ℕ} {code : BitVec cb → BitVec 32} {u : Process k} {c : Command}

/-- The thread after such a command. -/
def after (u : Process k) (c : Command) : Process k where
  hpc := u.hpc.skip
  x := match c with
    | .instr i => (i.exec u.toHart u.mem).1.x
    | .hartid rd => (u.toHart.write rd (u.hpc.hart.setWidth 32) (u.toHart.pc + 4#32)).x
    | _ => u.x
  mem := u.mem

theorem step_of_computes (hc : u.command code = some c) (h : c.Computes = true) :
    u.step code = some (u.after c, none) := by
  have hturn : c.turn u.hpc u.toHart u.mem =
      some { pc := u.toHart.pc + 4#32, x := (u.after c).x, mem := u.mem } := by
    cases c with
    | instr i =>
      cases i with
      | lui | auipc | opImm | op => exact Command.turn_of_inside rfl
      | _ => exact absurd h Bool.false_ne_true
    | hartid rd => rfl
    | _ => exact absurd h Bool.false_ne_true
  rw [step, hc, Option.bind_some, hturn, Option.bind_some, if_pos ⟨rfl, rfl, rfl⟩]
  have hpc : (u.toHart.pc + 4#32).setWidth 24 = u.hpc.skip.pc := pc_skip u.hpc
  rw [retire, hpc]
  rfl

theorem hpc_foldl_after (cs : List Command) :
    (cs.foldl after u).hpc =
      ⟨u.hpc.active, u.hpc.hart, u.hpc.pc + BitVec.ofNat 24 (4 * cs.length)⟩ := by
  induction cs generalizing u with
  | nil => exact congrArg (Hpc.mk _ _) (BitVec.add_zero _).symm
  | cons c cs ih =>
    rw [List.foldl_cons, ih]
    refine congrArg (Hpc.mk _ _) ?_
    show u.hpc.pc + 4#24 + _ = _
    rw [BitVec.add_assoc, List.length_cons, Nat.mul_succ, Nat.add_comm, BitVec.ofNat_add]

theorem command_foldl_after {cs ds : List Command} (hlaid : Laid code u.hpc.pc (cs ++ c :: ds)) :
    (cs.foldl after u).command code = some c := by
  have hlt : cs.length < (cs ++ c :: ds).length := by
    rw [List.length_append]
    exact Nat.lt_add_of_pos_right (Nat.succ_pos _)
  have hget : (cs ++ c :: ds)[cs.length] = c := by simp
  rw [command, Thread.fetch, hpc_foldl_after, ← hget]
  exact hlaid cs.length hlt

/-- **A thread goes along a straight line**, one command after the other. -/
theorem run_straight {cs : List Command} (hlaid : Laid code u.hpc.pc cs)
    (hcs : ∀ c ∈ cs, c.Computes = true) :
    u.run code cs.length = some (cs.foldl after u, []) := by
  induction cs using List.reverseRecOn with
  | nil => rfl
  | append_singleton cs c ih =>
    have hbefore : u.run code cs.length = some (cs.foldl after u, []) :=
      ih hlaid.left fun c hc ↦ hcs c (List.mem_append_left _ hc)
    have hstep := step_of_computes (command_foldl_after hlaid)
      (hcs c (List.mem_append_right _ List.mem_cons_self))
    rw [List.length_append, List.foldl_append]
    exact tryRun_succ_of_step hbefore hstep

/-- The command that the thread comes to on a straight line. -/
theorem command_straight {cs : List Command} (hlaid : Laid code u.hpc.pc cs) {n : ℕ}
    (hn : n < cs.length) (hcs : ∀ c ∈ cs.take n, c.Computes = true) :
    ∃ v, u.run code n = some (v, []) ∧ v.command code = some cs[n] := by
  rw [← List.take_append_drop n cs, List.drop_eq_getElem_cons hn] at hlaid
  have hrun := run_straight hlaid.left hcs
  rw [List.length_take_of_le (Nat.le_of_lt hn)] at hrun
  exact ⟨_, hrun, command_foldl_after hlaid⟩

end Process

/-! ## The program -/

namespace Firmware

def sp : BitVec 5 := 2#5

def gp : BitVec 5 := 3#5

def t0 : BitVec 5 := 5#5

/-- `_stack_top = ORIGIN(RAM) + LENGTH(RAM)`. -/
def stackTop : BitVec 32 := 0x80000000#32 + 0x1000#32

/-- `la rd, symbol`, which the assembler makes an `auipc` and an `addi` of. -/
def la (rd : BitVec 5) (symbol pc : BitVec 32) : List Command :=
  let hi := (symbol - pc + 0x800#32) &&& 0xFFFFF000#32
  [.instr (.auipc rd hi), .instr (.opImm .add rd rd (symbol - pc - hi))]

/-- `_start`, but for the jump at its end. -/
def prologue (globalPointer : BitVec 32) : List Command :=
  la gp globalPointer 4#32 ++ la sp stackTop 12#32 ++
    [.hartid t0, .instr (.opImm .sll t0 t0 9#32), .instr (.op .sub sp sp t0)]

/-- `_start`, which ends with `j main`. -/
def start (globalPointer : BitVec 32) (main : BitVec 24) : List Command :=
  prologue globalPointer ++ [.instr (.jal 0#5 (main.setWidth 32 - 32#32))]

/-- The stack of a hart: 512 bytes for each one. -/
def stackOf (hart : BitVec 7) : BitVec 32 := stackTop - hart.setWidth 32 <<< 9

/-- The registers that a hart comes to `main` with. -/
def started (globalPointer : BitVec 32) (hart : BitVec 7) (x : BitVec 5 → BitVec 32) :
    BitVec 5 → BitVec 32 :=
  Function.update (Function.update (Function.update x gp globalPointer) t0
    (hart.setWidth 32 <<< 9)) sp (stackOf hart)

/-! The first eight harts fill the RAM with their stacks. -/

/-- The bytes below the initial stack pointer. -/
def InStack (hart : BitVec 7) (a : BitVec 32) : Prop :=
  (stackOf hart).toNat ≤ a.toNat + 512 ∧ a.toNat < (stackOf hart).toNat

theorem toNat_stackOf : ∀ hart : BitVec 7, hart.toNat < 8 →
    (stackOf hart).toNat = 0x80001000 - 512 * hart.toNat := by
  decide

theorem page_of_inStack {hart : BitVec 7} {a : BitVec 32} (hsmall : hart.toNat < 8)
    (ha : InStack hart a) : Core.page a = 0x8#4 := by
  unfold InStack at ha
  rw [toNat_stackOf hart hsmall] at ha
  refine BitVec.eq_of_toNat_eq ?_
  rw [Core.page, BitVec.extractLsb'_toNat, Nat.shiftRight_eq_div_pow, BitVec.toNat_ofNat]
  omega

theorem stacks_apart {hart hart' : BitVec 7} {a : BitVec 32} (hsmall : hart.toNat < 8)
    (hsmall' : hart'.toNat < 8) (ha : InStack hart a) (ha' : InStack hart' a) : hart = hart' := by
  unfold InStack at ha ha'
  rw [toNat_stackOf hart hsmall] at ha
  rw [toNat_stackOf hart' hsmall'] at ha'
  exact BitVec.eq_of_toNat_eq (by omega)

section Start

variable {cb k : ℕ} {code : BitVec cb → BitVec 32} {globalPointer : BitVec 32} {main : BitVec 24}
  {hart : BitVec 7} {x : BitVec 5 → BitVec 32} {mem : Rv32i.Memory k}

theorem write_x {h : Rv32i.Hart} {rd : BitVec 5} (hrd : rd ≠ 0#5) (v pc : BitVec 32) :
    (h.write rd v pc).x = Function.update h.x rd v := by
  funext r
  by_cases hr : rd = r
  · subst hr
    exact (if_pos ⟨hrd, rfl⟩).trans (Function.update_self rd v h.x).symm
  · exact (if_neg fun h ↦ hr h.2).trans (Function.update_of_ne (Ne.symm hr) v h.x).symm

/-- An instruction that leaves a value in a register. -/
theorem after_instr {u : Process k} {i : Rv32i.Instr} {rd : BitVec 5} {v : BitVec 32}
    (hrd : rd ≠ 0#5) (h : (i.exec u.toHart u.mem).1 = u.toHart.write rd v (u.toHart.pc + 4#32)) :
    u.after (.instr i) = ⟨⟨u.hpc.skip, Function.update u.x rd v⟩, u.mem⟩ := by
  have hx : (i.exec u.toHart u.mem).1.x = Function.update u.x rd v := by
    rw [h]
    exact write_x hrd v _
  exact congrArg (fun x ↦ (⟨⟨u.hpc.skip, x⟩, u.mem⟩ : Process k)) hx

/-- The symbol is in the register. -/
theorem foldl_la {u : Process k} {rd : BitVec 5} (hrd : rd ≠ 0#5) (symbol : BitVec 32) :
    (la rd symbol (u.hpc.pc.setWidth 32)).foldl Process.after u =
      ⟨⟨u.hpc.skip.skip, Function.update u.x rd symbol⟩, u.mem⟩ := by
  let pc := u.hpc.pc.setWidth 32
  let hi := (symbol - pc + 0x800#32) &&& 0xFFFFF000#32
  let v : Process k := ⟨⟨u.hpc.skip, Function.update u.x rd (pc + hi)⟩, u.mem⟩
  have hupper : u.after (.instr (.auipc rd hi)) = v := after_instr hrd rfl
  have hlower : v.after (.instr (.opImm .add rd rd (symbol - pc - hi))) =
      ⟨⟨u.hpc.skip.skip, Function.update v.x rd symbol⟩, u.mem⟩ := by
    have hread : v.toHart.read rd = pc + hi := (if_neg hrd).trans (Function.update_self ..)
    refine after_instr hrd ?_
    rw [Rv32i.Instr.exec, Rv32i.Alu.eval, hread, BitVec.sub_sub, BitVec.add_comm,
      BitVec.sub_add_cancel]
  have hfold : (la rd symbol pc).foldl Process.after u =
      (u.after (.instr (.auipc rd hi))).after (.instr (.opImm .add rd rd (symbol - pc - hi))) := rfl
  rw [hfold, hupper, hlower, Function.update_idem]

theorem foldl_prologue :
    (prologue globalPointer).foldl Process.after ⟨⟨⟨true, hart, 4#24⟩, x⟩, mem⟩ =
      ⟨⟨⟨true, hart, 32#24⟩, started globalPointer hart x⟩, mem⟩ := by
  let x₁ := Function.update x gp globalPointer
  let x₂ := Function.update x₁ sp stackTop
  let x₃ := Function.update x₂ t0 (hart.setWidth 32)
  let x₄ := Function.update x₃ t0 (hart.setWidth 32 <<< 9)
  have hgp : (la gp globalPointer 4#32).foldl Process.after ⟨⟨⟨true, hart, 4#24⟩, x⟩, mem⟩ =
      ⟨⟨⟨true, hart, 12#24⟩, x₁⟩, mem⟩ :=
    foldl_la (u := ⟨⟨⟨true, hart, 4#24⟩, x⟩, mem⟩) (by decide) globalPointer
  have hsp : (la sp stackTop 12#32).foldl Process.after ⟨⟨⟨true, hart, 12#24⟩, x₁⟩, mem⟩ =
      ⟨⟨⟨true, hart, 20#24⟩, x₂⟩, mem⟩ :=
    foldl_la (u := ⟨⟨⟨true, hart, 12#24⟩, x₁⟩, mem⟩) (by decide) stackTop
  have hhartid : Process.after ⟨⟨⟨true, hart, 20#24⟩, x₂⟩, mem⟩ (.hartid t0) =
      ⟨⟨⟨true, hart, 24#24⟩, x₃⟩, mem⟩ :=
    congrArg (fun x ↦ (⟨⟨⟨true, hart, 24#24⟩, x⟩, mem⟩ : Process k)) (write_x (by decide) _ _)
  have hshift : Process.after ⟨⟨⟨true, hart, 24#24⟩, x₃⟩, mem⟩ (.instr (.opImm .sll t0 t0 9#32)) =
      ⟨⟨⟨true, hart, 28#24⟩, x₄⟩, mem⟩ := after_instr (by decide) rfl
  have hsub : Process.after ⟨⟨⟨true, hart, 28#24⟩, x₄⟩, mem⟩ (.instr (.op .sub sp sp t0)) =
      ⟨⟨⟨true, hart, 32#24⟩, Function.update x₄ sp (stackOf hart)⟩, mem⟩ :=
    after_instr (by decide) rfl
  have hx : Function.update x₄ sp (stackOf hart) = started globalPointer hart x := by
    have hx₄ : x₄ = Function.update x₂ t0 (hart.setWidth 32 <<< 9) := Function.update_idem ..
    rw [hx₄, Function.update_comm (show sp ≠ t0 by decide), Function.update_idem]
    rfl
  rw [prologue, List.foldl_append, List.foldl_append, hgp, hsp, ← hx, ← hsub, ← hshift, ← hhartid]
  rfl

/-- **`_start` gives the hart its stack** and leaves for `main`. -/
theorem run_start (hlaid : Laid code 4#24 (start globalPointer main)) :
    Process.run code ⟨⟨⟨true, hart, 4#24⟩, x⟩, mem⟩ 8 =
      some (⟨⟨⟨true, hart, main⟩, started globalPointer hart x⟩, mem⟩, []) := by
  let u : Process k := ⟨⟨⟨true, hart, 32#24⟩, started globalPointer hart x⟩, mem⟩
  have hstraight : Process.run code ⟨⟨⟨true, hart, 4#24⟩, x⟩, mem⟩ 7 = some (u, []) := by
    have hcomputes : ∀ c ∈ prologue globalPointer, c.Computes = true := List.all_eq_true.mp rfl
    have hrun := Process.run_straight (u := ⟨⟨⟨true, hart, 4#24⟩, x⟩, mem⟩) hlaid.left hcomputes
    rw [foldl_prologue] at hrun
    exact hrun
  have hjump : u.step code =
      some (⟨⟨⟨true, hart, main⟩, started globalPointer hart x⟩, mem⟩, none) := by
    have hc := Process.command_foldl_after (u := ⟨⟨⟨true, hart, 4#24⟩, x⟩, mem⟩) hlaid
    rw [foldl_prologue] at hc
    have hexec : (Rv32i.Instr.jal 0#5 (main.setWidth 32 - 32#32)).exec u.toHart mem =
        (⟨main.setWidth 32, u.x⟩, mem) := by
      rw [Rv32i.Instr.exec, Rv32i.Hart.write_zero]
      refine congrArg (fun pc ↦ (Rv32i.Hart.mk pc u.x, mem)) ?_
      exact (BitVec.add_comm _ _).trans (BitVec.sub_add_cancel _ _)
    have hmain : (main.setWidth 32).setWidth 24 = main := by
      rw [BitVec.setWidth_setWidth_of_le _ (by decide), BitVec.setWidth_eq]
    rw [Process.step, hc, Option.bind_some, Command.turn_of_inside rfl, hexec, Option.bind_some,
      if_pos ⟨rfl, rfl, rfl⟩, Process.retire, Turn.ofExec, hmain]
  exact tryRun_succ_of_step hstraight hjump

/-- It loads nothing. -/
theorem loadsIn_start (hlaid : Laid code 4#24 (start globalPointer main)) (W : Set (BitVec k)) :
    Process.LoadsIn code ⟨⟨⟨true, hart, 4#24⟩, x⟩, mem⟩ W 8 := by
  intro m hm r hr c hc b hb
  have hcomputes : ∀ c ∈ (start globalPointer main).take m, c.Computes = true := by
    intro c hc
    rw [start, List.take_append_of_le_length (Nat.le_of_lt_succ hm)] at hc
    exact List.all_eq_true.mp rfl c (List.mem_of_mem_take hc)
  have hloads : ∀ c ∈ start globalPointer main, ∀ h, c.loads k h = [] := by
    simp [start, prologue, la, Command.loads, Rv32i.Instr.loads]
  obtain ⟨v, hrun, hcommand⟩ :=
    Process.command_straight (u := ⟨⟨⟨true, hart, 4#24⟩, x⟩, mem⟩) hlaid hm hcomputes
  cases hr.symm.trans hrun
  have hmem : c ∈ start globalPointer main := by
    rw [← Option.some.inj (hcommand.symm.trans hc)]
    exact List.getElem_mem hm
  rw [hloads c hmem] at hb
  exact absurd hb List.not_mem_nil

end Start

end Firmware

/-! ## On the pipeline -/

namespace Soc

open Firmware

variable {cb db : ℕ} {s : Soc cb db} {rcs dcs : ℕ → DontCare} {k n : ℕ}
  {globalPointer : BitVec 32} {main : BitVec 24}

/-- **A reset takes hart 0 to `main`**, behind the guard and from equal banks, if `DONTCARE`
names an `x0` for an idle stage C: two reset tocks and 18 tocks later it is there with its
stack, having changed only what `start.s` writes, and nothing has left for the devices. -/
theorem boots_to_main (hm : s.Mirrored)
    (hguard : (s.resets rcs (k + 1)).codeRam.ram.ram
      (wordIndex cb ((rcs (k + 1)).nextPc.setWidth 32)) = guardWord)
    (hstart : Laid (s.resets rcs (k + 2)).codeRam.ram.ram 4#24 (start globalPointer main))
    (hdc : ∀ n, (dcs n).cdWaddr.setWidth 5 = 0#5) :
    let s' := s.resets rcs (k + 2)
    ∃ pc, machines dcs s' 18 = ⟨⟨true, 0#7, main⟩, ⟨false, 0#7, pc⟩, none,
        Function.update (rowsOf s'.file) 0#3 (started globalPointer 0#7 (rowsOf s'.file 0#3)),
        ramBytes s'.dataRam.ram.ram⟩ ∧
      emitted (outputs dcs s') 18 = [] := by
  intro s'
  have hlast : s' = (s.resets rcs (k + 1)).tock (rcs (k + 1)) true := run_succ _
  have hguarded : s'.Guarded := by
    rw [hlast]
    exact guarded_tock (hm.resets rcs (k + 1)) (by rw [fetchAddr_resets]; exact hguard)
  let u : Process (db + 2) := ⟨⟨⟨true, 0#7, 4#24⟩, rowsOf s'.file 0#3⟩, ramBytes s'.dataRam.ram.ram⟩
  have hlone : s'.behindGuard (dcs 0) =
      Machine.lone u 0#7 (dcs 0).nextPc (rowsOf s'.file) := by
    rw [hlast, behindGuard_tock]
    exact Machine.ext rfl rfl rfl (Function.update_eq_self ..).symm rfl
  let free := fun m ↦ (dcs (2 + m)).nextPc
  have hsmall : u.hpc.hart.toNat < 8 := show (0#7).toNat < 8 by decide
  have hrun : u.run s'.codeRam.ram.ram 8 = _ := run_start hstart
  obtain ⟨pc, hmachine⟩ := @Machine.run_lone _ _ _ free _ _ _ _ 0#7 (rowsOf s'.file) rfl hsmall
    hrun (dcs 0).nextPc
  have hrested := @Machine.rested_lone _ _ _ free _ _ _ _ 0#7 (rowsOf s'.file) rfl hsmall
    hrun (dcs 0).nextPc
  rw [← hlone] at hmachine hrested
  obtain ⟨hstate, hout⟩ := hguarded.refines
    (fun m hm ↦ hguarded.bypassSound hdc hmachine hrested m (Nat.le_of_lt hm)) hmachine
  exact ⟨pc, hstate, hout⟩

/-- `start.s` with the global pointer in the middle of the RAM, and `j .` for `main`. -/
def startCode : BitVec 4 → BitVec 32 := fun a ↦
  [guardWord, 0x80000197#32, 0x7FC18193#32, 0x80001117#32, 0xFF410113#32, 0xF14022F3#32,
    0x00929293#32, 0x40510133#32, 0x0040006F#32].getD a.toNat guardWord

theorem laid_startCode : Laid startCode 4#24 (start 0x80000800#32 36#24) := by
  decide

theorem boots_to_main_startCode :
    let dcs := fun _ : ℕ ↦ DontCare.const 0#32
    let s : Soc 4 1 := (blank startCode).resets dcs 2
    ∃ pc, machines dcs s 18 = ⟨⟨true, 0#7, 36#24⟩, ⟨false, 0#7, pc⟩, none,
        Function.update (rowsOf s.file) 0#3 (started 0x80000800#32 0#7 (rowsOf s.file 0#3)),
        ramBytes s.dataRam.ram.ram⟩ ∧
      emitted (outputs dcs s) 18 = [] :=
  boots_to_main (show (blank _).Mirrored from rfl) (by decide) laid_startCode fun _ ↦ rfl

/-- **Whoever starts a hart, it comes to `main` with its own stack**, after eight turns of
its own, with its memory as it was, and with nothing sent to the devices, if the others leave
its registers and its memory alone and give it back as they took it.  The stacks of the first
eight harts are in the data RAM, and apart. -/
theorem comes_to_main {code : BitVec cb → BitVec 32} {hart : BitVec 7}
    {x : BitVec 5 → BitVec 32} {mem : Rv32i.Memory (db + 2)} {W : Set (BitVec (db + 2))}
    (h : Tracked code (dcs 0) s) (hb : ∀ m < n, (states dcs s m).BypassSound)
    (hlegal : (Machine.run code (fun m ↦ (dcs m).nextPc) n (s.machine (dcs 0))).isSome)
    (hstart : Laid code 4#24 (start globalPointer main))
    (h0 : (machines dcs s 0).Has W ⟨⟨⟨true, hart, 4#24⟩, x⟩, mem⟩)
    (hleaves : ∀ m < n, ∀ r ∈ Process.run code ⟨⟨⟨true, hart, 4#24⟩, x⟩, mem⟩
        (Machine.turnsOf (machines dcs s) (rowOf hart) (m + 1)),
      (machines dcs s m).Leaves code W r.1 (machines dcs s (m + 1)))
    (hturns : Machine.turnsOf (machines dcs s) (rowOf hart) n = 8) :
    (machines dcs s n).Has W ⟨⟨⟨true, hart, main⟩, started globalPointer hart x⟩, mem⟩ ∧
      emitted (fun m ↦ if (machines dcs s m).HasTurn (rowOf hart) then outputs dcs s m else none)
        n = [] ∧
      (hart.toNat < 8 → ∀ a, InStack hart a → Core.page a = 0x8#4 ∧
        ∀ hart' : BitVec 7, hart'.toNat < 8 → InStack hart' a → hart = hart') := by
  obtain ⟨r, hr⟩ := Option.isSome_iff_exists.mp hlegal
  obtain ⟨hhas, hquiet⟩ := (trace_machines h hb hr).has h0 hleaves
    (hturns ▸ loadsIn_start hstart W) (hturns ▸ run_start hstart)
  exact ⟨hhas, hquiet, fun hsmall a ha ↦
    ⟨page_of_inStack hsmall ha, fun hart' hsmall' ha' ↦ stacks_apart hsmall hsmall' ha ha'⟩⟩

/-- Hart 1 is at `_start` in stage A, and hart 0 waits at address 0 in stage B. -/
def starting : Soc 4 1 :=
  let s := blank startCode
  { s with
    core :=
      { s.core with
        aHpc := ⟨true, 1#7, 4#24⟩
        bHpc := ⟨true, 0#7, 0#24⟩
        bInsn := ⟨guardWord⟩ }
    codeRam := { s.codeRam with ram := { s.codeRam.ram with rdata := 0x80000197#32 } } }

theorem starting_ready : starting.Ready where
  mirrored := show starting.Mirrored from rfl
  cIdle := rfl
  dIdle := rfl
  harts := fun _ _ ↦ by decide
  fetched := fun _ ↦ by decide
  latched := fun _ ↦ by decide
  read1 := fun _ ↦ by decide
  read2 := fun _ ↦ by decide

theorem comes_to_main_starting :
    let dcs := fun _ : ℕ ↦ DontCare.const 0#32
    let τ := machines dcs starting
    (τ 16).Has ∅ ⟨⟨⟨true, 1#7, 36#24⟩, started 0x80000800#32 1#7 ((τ 0).regs 1#3)⟩, (τ 0).mem⟩ ∧
      emitted (fun m ↦ if (τ m).HasTurn 1#3 then outputs dcs starting m else none) 16 = [] ∧
      ((1#7).toNat < 8 → ∀ a, InStack 1#7 a → Core.page a = 0x8#4 ∧
        ∀ hart : BitVec 7, hart.toNat < 8 → InStack hart a → 1#7 = hart) := by
  intro dcs τ
  have hleaves : ∀ m < 16, ∀ r ∈ Process.run startCode
      ⟨⟨⟨true, 1#7, 4#24⟩, (τ 0).regs 1#3⟩, (τ 0).mem⟩ (Machine.turnsOf τ 1#3 (m + 1)),
      ((τ (m + 1)).Waits r.1.row → ((τ m).HasTurn r.1.row → (τ m).swap ≠ none) →
        (τ (m + 1)).a = r.1.hpc) ∧
      ((τ m).b.active = true → ∀ e ∈ (τ m).turn startCode, ∀ p ∈ e.poke, p.row ≠ r.1.row) := by
    decide
  refine comes_to_main (starting_ready.tracked (fun h ↦ absurd h (by decide)) _) (fun m hm ↦ ?_)
    (by decide) laid_startCode ⟨rfl, fun _ hb ↦ hb.elim, by decide, by decide, by decide⟩
    (fun m hm r hr ↦ ⟨(hleaves m hm r hr).1, (hleaves m hm r hr).2, fun _ _ hb ↦ hb.elim⟩)
    (by decide)
  unfold BypassSound BypassAt
  interval_cases m <;> decide

end Soc

end Pinwheel
