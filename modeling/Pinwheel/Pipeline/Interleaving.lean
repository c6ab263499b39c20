import Pinwheel.Pipeline.Boot

/-!
# One thread among others

A thread that makes no switches and does not write to the register window does the same
in a legal run with a sound bypass as it does on its own.  The others may have turns in
between, take it out of its slot and bring it back, as long as they bring it back where it
left, and leave its registers and the memory that it loads from to it.
-/

namespace Pinwheel

open Clocked RV32I

/-! ## A thread on its own -/

/-- A thread with a memory. -/
structure Process (k : ℕ) extends Thread where
  mem : Rv32i.Memory k

/-- The bytes that a command loads. -/
def Command.loads (k : ℕ) (h : Rv32i.Hart) : Command → List (BitVec k)
  | .instr i => i.loads k h
  | _ => []

/-- The turn switches no threads, and writes no registers but its own. -/
def Turn.Private {k : ℕ} (t : Turn k) : Prop := t.swap = none ∧ t.goto = none ∧ t.poke = none

instance {k : ℕ} (t : Turn k) : Decidable t.Private := inferInstanceAs (Decidable (_ ∧ _))

namespace Process

variable {cb k : ℕ} (code : BitVec cb → BitVec 32) (u : Process k)

/-- The registers that the thread has to itself. -/
def row : BitVec 3 := rowOf u.hpc.hart

def command : Option Command := Command.decode (u.fetch code).raw

/-- The thread after a turn. -/
def retire (t : Turn k) : Process k := ⟨⟨⟨u.hpc.active, u.hpc.hart, t.pc.setWidth 24⟩, t.x⟩, t.mem⟩

/-- One turn, with what it puts out. -/
def step : Option (Process k × Option Output) :=
  (u.command code).bind fun c ↦ (c.turn u.hpc u.toHart u.mem).bind fun t ↦
    if t.Private then some (u.retire t, t.out) else none

/-- `n` turns, with all that they put out. -/
def run (n : ℕ) : Option (Process k × List Output) := tryRun (fun _ v ↦ step code v) n u

/-- The thread loads from a part of the memory only, in its first `n` turns. -/
def LoadsIn (W : Set (BitVec k)) (n : ℕ) : Prop :=
  ∀ m < n, ∀ r ∈ u.run code m, ∀ c ∈ r.1.command code, ∀ b ∈ c.loads k r.1.toHart, b ∈ W

variable {code u} {u' : Process k} {o : Option Output}

theorem turn_of_step (h : u.step code = some (u', o)) : ∃ c t, u.command code = some c ∧
    c.turn u.hpc u.toHart u.mem = some t ∧ t.Private ∧ u' = u.retire t ∧ o = t.out := by
  obtain ⟨c, hc, hturn⟩ := Option.bind_eq_some_iff.mp h
  obtain ⟨t, ht, hprivate⟩ := Option.bind_eq_some_iff.mp hturn
  split_ifs at hprivate with hp
  obtain ⟨rfl, rfl⟩ := Prod.mk.inj (Option.some.inj hprivate)
  exact ⟨c, t, hc, ht, hp, rfl, rfl⟩

/-- The thread stays who it is. -/
theorem hpc_of_run {n : ℕ} {out : List Output} (h : u.run code n = some (u', out)) :
    u'.hpc.active = u.hpc.active ∧ u'.hpc.hart = u.hpc.hart := by
  induction n generalizing u' out with
  | zero =>
    cases h
    exact ⟨rfl, rfl⟩
  | succ n ih =>
    obtain ⟨v, _, _, hrun, hstep, -⟩ := step_of_tryRun_succ h
    obtain ⟨-, t, -, -, -, rfl, -⟩ := turn_of_step hstep
    have hv : v.hpc.active = u.hpc.active ∧ v.hpc.hart = u.hpc.hart := ih hrun
    exact hv

theorem row_of_run {n : ℕ} {out : List Output} (h : u.run code n = some (u', out)) :
    u'.row = u.row := congrArg rowOf (hpc_of_run h).2

end Process

/-! ## Turns in a run -/

theorem Command.swap_of_turn {k : ℕ} {hpc : Hpc} {h : Rv32i.Hart} {m : Rv32i.Memory k}
    {c : Command} {t : Turn k} (ht : c.turn hpc h m = some t) {w : Swap} (hw : t.swap = some w) :
    w.hart = hpc.hart := by
  cases c with
  | instr i =>
    unfold turn at ht
    dsimp only at ht
    split_ifs at ht with hin
    · cases ht
      exact absurd hw (Option.some_ne_none _).symm
    · split at ht
      · unfold store at ht
        dsimp only at ht
        split_ifs at ht <;> cases ht <;> exact absurd hw (Option.some_ne_none _).symm
      · exact absurd ht (Option.some_ne_none _).symm
  | swap rd rs1 =>
    cases ht
    cases hw
    rfl
  | hartid rd | yield rd rs1 =>
    cases ht
    exact absurd hw (Option.some_ne_none _).symm

/-- A turn depends on the bytes that it loads. -/
theorem Command.turn_congr {k : ℕ} {hpc : Hpc} {h : Rv32i.Hart} {m m' : Rv32i.Memory k}
    {c : Command} {t : Turn k} {W : Set (BitVec k)} (hm : ∀ b ∈ W, m b = m' b)
    (hloads : ∀ b ∈ c.loads k h, b ∈ W) (ht : c.turn hpc h m = some t) :
    ∃ mem, c.turn hpc h m' = some { t with mem := mem } ∧ ∀ b ∈ W, t.mem b = mem b := by
  cases c with
  | instr i =>
    obtain ⟨hhart, hmem⟩ := Rv32i.Instr.exec_congr hm hloads
    unfold turn at ht ⊢
    dsimp only at ht ⊢
    split_ifs at ht ⊢ with hin
    · cases ht
      refine ⟨(i.exec h m').2, ?_, hmem⟩
      rw [Turn.ofExec, Turn.ofExec, hhart]
    · split at ht
      · unfold store at ht ⊢
        dsimp only at ht ⊢
        split_ifs at ht ⊢ <;> cases ht <;> exact ⟨m', rfl, hm⟩
      · exact absurd ht (Option.some_ne_none _).symm
  | hartid rd | swap rd rs1 | yield rd rs1 =>
    cases ht
    exact ⟨m', rfl, hm⟩

/-- A turn does not change a row that it does not write to. -/
theorem Turn.poked_apply {k : ℕ} {t : Turn k} {row : BitVec 3} (h : ∀ p ∈ t.poke, p.row ≠ row)
    (regs : Rows) : t.poked regs row = regs row := by
  cases hp : t.poke with
  | none => rw [poked_of_none hp]
  | some p => rw [poked_of_some hp, Rows.set_of_ne (Ne.symm (h p hp))]

namespace Machine

variable {cb db : ℕ} {code : BitVec cb → BitVec 32} {free : ℕ → BitVec 24}

/-- The thread of a row has its turn. -/
def HasTurn (σ : Machine db) (row : BitVec 3) : Prop := σ.b.active = true ∧ rowOf σ.b.hart = row

/-- The thread of a row has its turn next. -/
def Waits (σ : Machine db) (row : BitVec 3) : Prop := σ.a.active = true ∧ rowOf σ.a.hart = row

instance (σ : Machine db) (row : BitVec 3) : Decidable (σ.HasTurn row) :=
  inferInstanceAs (Decidable (_ ∧ _))

instance (σ : Machine db) (row : BitVec 3) : Decidable (σ.Waits row) :=
  inferInstanceAs (Decidable (_ ∧ _))

/-- A machine that takes a turn after the other. -/
def Trace (code : BitVec cb → BitVec 32) (free : ℕ → BitVec 24) (τ : ℕ → Machine db)
    (o : ℕ → Option Output) (n : ℕ) : Prop :=
  ∀ m < n, (τ m).step code (free m) = some (τ (m + 1), o m)

/-- The turns that the thread of a row has had. -/
def turnsOf (τ : ℕ → Machine db) (row : BitVec 3) : ℕ → ℕ
  | 0 => 0
  | n + 1 => turnsOf τ row n + if (τ n).HasTurn row then 1 else 0

/-- The machine has a thread: in a slot, or out of them. -/
structure Has (σ : Machine db) (W : Set (BitVec (db + 2))) (u : Process (db + 2)) : Prop where
  regs : σ.regs u.row = u.x
  mem : ∀ b ∈ W, σ.mem b = u.mem b
  b : σ.HasTurn u.row → σ.b = u.hpc
  a : σ.Waits u.row → σ.a = u.hpc
  swap : ∀ w ∈ σ.swap, rowOf w.hart ≠ u.row

/-- The others leave a thread alone in a turn after which it is `u`: they bring it back
where it left, do not write to its registers through the window, and not to its memory. -/
structure Leaves (code : BitVec cb → BitVec 32) (W : Set (BitVec (db + 2))) (u : Process (db + 2))
    (σ σ' : Machine db) : Prop where
  back : σ'.Waits u.row → (σ.HasTurn u.row → σ.swap ≠ none) → σ'.a = u.hpc
  spared : σ.b.active = true → ∀ t, σ.turn code = some t → ∀ p ∈ t.poke, p.row ≠ u.row
  mem : ¬σ.HasTurn u.row → ∀ b ∈ W, σ'.mem b = σ.mem b

section Turn

variable {σ σ' : Machine db} {W : Set (BitVec (db + 2))} {u u' : Process (db + 2)}
  {o o' : Option Output} {pc : BitVec 24}

theorem swapped_apply {row : BitVec 3} (h : ∀ w ∈ σ.swap, rowOf w.hart ≠ row) (next : Hpc) :
    σ.swapped next row = σ.regs row := by
  cases hw : σ.swap with
  | none => rw [swapped_of_none _ hw]
  | some w => rw [swapped_of_swap _ hw, Rows.set_of_ne (Ne.symm (h w hw))]

/-- The thread has its turn, and does what it does on its own. -/
theorem Has.turn (h : σ.Has W u) (hb : σ.HasTurn u.row) (hstep : σ.step code pc = some (σ', o))
    (hprocess : u.step code = some (u', o'))
    (hloads : ∀ c ∈ u.command code, ∀ b ∈ c.loads (db + 2) u.toHart, b ∈ W)
    (hleaves : σ.Leaves code W u' σ') : σ'.Has W u' ∧ o = o' := by
  obtain ⟨c, t, hc, ht, ⟨hswap, hgoto, hpoke⟩, rfl, rfl⟩ := Process.turn_of_step hprocess
  have hhpc := h.b hb
  obtain ⟨mem, hturn, hmem⟩ := Command.turn_congr (fun b hw ↦ (h.mem b hw).symm) (hloads c hc) ht
  have hmachine : σ.turn code = some { t with mem := mem } := by
    have hhart : σ.hart = u.toHart := by
      rw [hart, hhpc]
      exact congrArg _ h.regs
    have hdecode : Command.decode (code (wordIndex cb (u.hpc.pc.setWidth 32))) = some c := hc
    rw [Machine.turn, hhart, hhpc, hdecode, Option.bind_some]
    exact hturn
  obtain ⟨hfit, ⟨hact, t', ht', -, rfl, rfl⟩ | ⟨hidle, -, -⟩⟩ := step_cases hstep
  · cases ht'.symm.trans hmachine
    refine ⟨⟨?_, fun b hw ↦ (hmem b hw).symm, fun hnext ↦ ?_, fun hnext ↦ ?_, ?_⟩, rfl⟩
    · refine (congrFun (Turn.poked_of_none (t := { t with mem := mem }) hpoke) u.row).trans ?_
      rw [hb.2, Function.update_self]
      rfl
    · -- The slots have different rows.
      have ha : σ.a.active = true := hnext.1
      exact absurd (hnext.2.trans hb.2.symm) (hfit.apart ha hact)
    · cases hw : σ.swap with
      | none =>
        have hentering : σ.entering ⟨σ.b.active, σ.b.hart, t.pc.setWidth 24⟩ t.goto =
            ⟨u.hpc.active, u.hpc.hart, t.pc.setWidth 24⟩ := by
          rw [hgoto, entering_of_none _ hw, hhpc]
        exact hentering
      | some w => exact hleaves.back hnext fun _ ↦ hw ▸ Option.some_ne_none w
    · intro w hw
      exact absurd (hswap.symm.trans hw) (Option.some_ne_none w).symm
  · exact absurd (hidle.symm.trans hb.1) Bool.false_ne_true

/-- Another thread has a turn, or none has. -/
theorem Has.other (h : σ.Has W u) (hb : ¬σ.HasTurn u.row)
    (hstep : σ.step code pc = some (σ', o)) (hleaves : σ.Leaves code W u σ') : σ'.Has W u := by
  have hmem : ∀ b ∈ W, σ'.mem b = u.mem b := fun b hw ↦
    (hleaves.mem hb b hw).trans (h.mem b hw)
  have ha : σ'.Waits u.row → σ'.a = u.hpc := fun hnext ↦
    hleaves.back hnext fun hturn ↦ absurd hturn hb
  obtain ⟨-, ⟨hact, t, ht, -, rfl, rfl⟩ | ⟨-, rfl, rfl⟩⟩ := step_cases hstep
  · have hrow : u.row ≠ rowOf σ.b.hart := fun hr ↦ hb ⟨hact, hr.symm⟩
    refine ⟨?_, hmem, h.a, ha, fun w hw ↦ ?_⟩
    · show t.poked (Function.update (σ.swapped _) (rowOf σ.b.hart) t.x) u.row = u.x
      rw [Turn.poked_apply (hleaves.spared hact t ht), Function.update_of_ne hrow,
        swapped_apply h.swap, h.regs]
    · obtain ⟨c, -, hc⟩ := Option.bind_eq_some_iff.mp ht
      rw [Command.swap_of_turn hc hw]
      exact Ne.symm hrow
  · refine ⟨(swapped_apply h.swap _).trans h.regs, hmem, h.a, ha, fun w hw ↦ ?_⟩
    exact absurd hw (Option.some_ne_none w).symm

end Turn

/-! ## Whole runs -/

variable {τ : ℕ → Machine db} {o : ℕ → Option Output} {W : Set (BitVec (db + 2))}
  {t u : Process (db + 2)} {n : ℕ} {out : List Output}

/-- **A thread does in a run what it does on its own**, as long as the others leave it
alone. -/
theorem Trace.has (h : Trace code free τ o n) (h0 : (τ 0).Has W t)
    (hleaves : ∀ m < n, ∀ r ∈ t.run code (turnsOf τ t.row (m + 1)),
      (τ m).Leaves code W r.1 (τ (m + 1)))
    (hloads : t.LoadsIn code W (turnsOf τ t.row n))
    (hrun : t.run code (turnsOf τ t.row n) = some (u, out)) :
    (τ n).Has W u ∧ emitted (fun m ↦ if (τ m).HasTurn t.row then o m else none) n = out := by
  induction n generalizing u out with
  | zero =>
    cases hrun
    exact ⟨h0, rfl⟩
  | succ n ih =>
    have htrace : Trace code free τ o n := fun m hm ↦ h m (Nat.lt_succ_of_lt hm)
    have hbefore : ∀ m < n, ∀ r ∈ t.run code (turnsOf τ t.row (m + 1)),
        (τ m).Leaves code W r.1 (τ (m + 1)) := fun m hm ↦ hleaves m (Nat.lt_succ_of_lt hm)
    have hnow : (τ n).Leaves code W u (τ (n + 1)) :=
      hleaves n (Nat.lt_succ_self n) (u, out) hrun
    by_cases hturn : (τ n).HasTurn t.row
    · have hcount : turnsOf τ t.row (n + 1) = turnsOf τ t.row n + 1 :=
        congrArg (turnsOf τ t.row n + ·) (if_pos hturn)
      rw [hcount] at hloads hrun
      obtain ⟨v, out', o', hrun', hstep, rfl⟩ := step_of_tryRun_succ hrun
      obtain ⟨hhas, hout⟩ :=
        ih htrace hbefore (fun m hm ↦ hloads m (Nat.lt_succ_of_lt hm)) hrun'
      have hrow : v.row = t.row := Process.row_of_run hrun'
      have hv : ∀ c ∈ v.command code, ∀ b ∈ c.loads (db + 2) v.toHart, b ∈ W :=
        hloads _ (Nat.lt_succ_self _) (v, out') hrun'
      obtain ⟨hnext, ho⟩ :=
        hhas.turn (hrow ▸ hturn) (h n (Nat.lt_succ_self n)) hstep hv hnow
      refine ⟨hnext, ?_⟩
      rw [emitted_succ, hout, if_pos hturn, ho]
    · have hcount : turnsOf τ t.row (n + 1) = turnsOf τ t.row n :=
        congrArg (turnsOf τ t.row n + ·) (if_neg hturn)
      rw [hcount] at hloads hrun
      obtain ⟨hhas, hout⟩ := ih htrace hbefore hloads hrun
      have hrow : u.row = t.row := Process.row_of_run hrun
      refine ⟨hhas.other (by rw [hrow]; exact hturn) (h n (Nat.lt_succ_self n)) hnow, ?_⟩
      rw [emitted_succ_none (if_neg hturn), hout]

/-! ## A thread by itself -/

section Lone

variable (u) {u' : Process (db + 2)} {hart : BitVec 7} {pc : BitVec 24} {regs : Rows}

/-- The thread is in slot A, and slot B is empty. -/
def lone (hart : BitVec 7) (pc : BitVec 24) (regs : Rows) : Machine db where
  a := u.hpc
  b := ⟨false, hart, pc⟩
  swap := none
  regs := Function.update regs u.row u.x
  mem := u.mem

/-- The thread is in slot B, and slot A is empty. -/
def loneTurn (hart : BitVec 7) (pc : BitVec 24) (regs : Rows) : Machine db where
  a := ⟨false, hart, pc⟩
  b := u.hpc
  swap := none
  regs := Function.update regs u.row u.x
  mem := u.mem

variable {u}

theorem step_lone (hsmall : u.hpc.hart.toNat < 8) (pc' : BitVec 24) :
    (lone u hart pc regs).step code pc' = some (loneTurn u hart pc' regs, none) := by
  have hno : ¬(lone u hart pc regs).b.active = true := Bool.false_ne_true
  exact step_of_idle ⟨fun _ ↦ hsmall, fun hb ↦ absurd hb hno, fun _ hb ↦ absurd hb hno⟩ rfl pc'

theorem hart_loneTurn : (loneTurn u hart pc regs).hart = u.toHart := by
  have hx : Function.update regs u.row u.x u.row = u.x := Function.update_self _ _ _
  exact congrArg (Rv32i.Hart.mk (u.hpc.pc.setWidth 32)) hx

/-- A private turn leaves the rest of the machine alone. -/
theorem retire_loneTurn {t : Turn (db + 2)} (ht : t.Private) :
    (loneTurn u hart pc regs).retire t = lone (u.retire t) hart pc regs := by
  obtain ⟨hswap, hgoto, hpoke⟩ := ht
  refine Machine.ext ?_ rfl hswap ?_ rfl
  · show (loneTurn u hart pc regs).entering _ t.goto = _
    rw [hgoto]
    rfl
  · show t.poked (Function.update (Function.update regs u.row u.x) u.row t.x) = _
    rw [Turn.poked_of_none hpoke, Function.update_idem]
    rfl

theorem step_loneTurn {o : Option Output} (hactive : u.hpc.active = true)
    (hsmall : u.hpc.hart.toNat < 8) (hprocess : u.step code = some (u', o)) (pc' : BitVec 24) :
    (loneTurn u hart pc regs).step code pc' = some (lone u' hart pc regs, o) := by
  obtain ⟨c, t, hc, ht, hprivate, rfl, rfl⟩ := Process.turn_of_step hprocess
  have hno : ¬(loneTurn u hart pc regs).a.active = true := Bool.false_ne_true
  have hturn : (loneTurn u hart pc regs).turn code = some t := by
    have hdecode : Command.decode (code (wordIndex cb (u.hpc.pc.setWidth 32))) = some c := hc
    rw [turn, hart_loneTurn]
    exact Option.bind_eq_some_iff.mpr ⟨c, hdecode, ht⟩
  rw [step_of_turn ⟨fun ha ↦ absurd ha hno, fun _ ↦ hsmall, fun ha ↦ absurd ha hno⟩ hactive hturn
    (Turn.spares_of_none hprivate.2.2 _), retire_loneTurn hprivate]

/-- A thread by itself has every second turn. -/
theorem run_lone (hactive : u.hpc.active = true) (hsmall : u.hpc.hart.toNat < 8)
    (hrun : u.run code n = some (u', out)) (pc : BitVec 24) :
    ∃ pc', run code free (2 * n) (lone u hart pc regs) = some (lone u' hart pc' regs, out) := by
  induction n generalizing u' out with
  | zero =>
    cases hrun
    exact ⟨pc, rfl⟩
  | succ n ih =>
    obtain ⟨v, out', o, hbefore, hstep, rfl⟩ := step_of_tryRun_succ hrun
    obtain ⟨pc', hmachine⟩ := ih hbefore
    obtain ⟨ha, hh⟩ := Process.hpc_of_run hbefore
    have hidle := run_succ_of_step hmachine (step_lone (hh ▸ hsmall) (free (2 * n)))
    have hturn := run_succ_of_step hidle
      (step_loneTurn (ha.trans hactive) (hh ▸ hsmall) hstep (free (2 * n + 1)))
    rw [Option.toList_none, List.append_nil] at hturn
    exact ⟨free (2 * n), hturn⟩

/-- It rests: in every turn one of the slots is empty. -/
theorem rested_lone (hactive : u.hpc.active = true) (hsmall : u.hpc.hart.toNat < 8)
    (hrun : u.run code n = some (u', out)) (pc : BitVec 24) :
    (lone u hart pc regs).Rested code free (2 * n) := by
  have hstate : ∀ i ≤ n, ∃ v pc' out', run code free (2 * i) (lone u hart pc regs) =
      some (lone v hart pc' regs, out') ∧ v.hpc.hart = u.hpc.hart := by
    intro i hi
    obtain ⟨⟨v, out'⟩, hv⟩ := exists_tryRun_of_le hi hrun
    obtain ⟨pc', hmachine⟩ := run_lone hactive hsmall hv pc
    exact ⟨v, pc', out', hmachine, (Process.hpc_of_run hv).2⟩
  intro m hm r r' hr hr' hb ha
  obtain ⟨i, rfl | rfl⟩ := m.even_or_odd'
  · obtain ⟨v, pc', out', hmachine, -⟩ := hstate i (by omega)
    cases hr.symm.trans hmachine
    exact absurd hb Bool.false_ne_true
  · obtain ⟨v, pc', out', hmachine, hh⟩ := hstate (i + 1) (by omega)
    have hidle := run_succ_of_step hmachine (step_lone (hh ▸ hsmall) (free (2 * (i + 1))))
    cases hr'.symm.trans hidle
    exact absurd ha Bool.false_ne_true

end Lone

end Machine

namespace Soc

variable {cb db : ℕ} {s : Soc cb db} {code : BitVec cb → BitVec 32} {dcs : ℕ → DontCare}
  {W : Set (BitVec (db + 2))} {t u : Process (db + 2)} {n : ℕ} {out : List Output}

/-- The machine in every tock. -/
def machines (dcs : ℕ → DontCare) (s : Soc cb db) (n : ℕ) : Machine db :=
  (states dcs s n).machine (dcs n)

/-- What the bus carries to the devices in every tock. -/
def outputs (dcs : ℕ → DontCare) (s : Soc cb db) (n : ℕ) : Option Output :=
  (states dcs s (n + 1)).core.dataTla.output

theorem trace_machines (h : Tracked code (dcs 0) s) (hb : ∀ m < n, (states dcs s m).BypassSound)
    {r : Machine db × List Output}
    (hrun : Machine.run code (fun m ↦ (dcs m).nextPc) n (s.machine (dcs 0)) = some r) :
    Machine.Trace code (fun m ↦ (dcs m).nextPc) (machines dcs s) (outputs dcs s) n := by
  intro m hm
  obtain ⟨⟨σ, out⟩, hnext⟩ := exists_tryRun_of_le (Nat.succ_le_of_lt hm) hrun
  obtain ⟨σ', out', o, hbefore, hstep, -⟩ := step_of_tryRun_succ hnext
  obtain ⟨htracked, rfl, -⟩ := tracked_states h (fun k hk ↦ hb k (Nat.lt_trans hk hm)) hbefore
  obtain ⟨-, hmachine, hout⟩ := htracked.tock (hb m hm) hstep (dcs (m + 1))
  exact hstep.trans (congrArg some (Prod.ext hmachine.symm hout.symm))

/-- The trace of a program behind its guard. -/
theorem Guarded.trace {r : Machine db × List Output} (h : s.Guarded)
    (hb : ∀ m < n, (states dcs s (2 + m)).BypassSound)
    (hrun : Machine.run s.codeRam.ram.ram (fun m ↦ (dcs (2 + m)).nextPc) n
      (s.behindGuard (dcs 0)) = some r) :
    machines dcs s 2 = s.behindGuard (dcs 0) ∧
      Machine.Trace s.codeRam.ram.ram (fun m ↦ (dcs (2 + m)).nextPc)
        (fun m ↦ machines dcs s (2 + m)) (fun m ↦ outputs dcs s (2 + m)) n := by
  obtain ⟨htracked, hmachine, -⟩ :
      Tracked _ (dcs 2) (states dcs s 2) ∧ (states dcs s 2).machine (dcs 2) = _ ∧ _ :=
    h.tock_tock (dcs 0) (dcs 1) (dcs 2)
  refine ⟨hmachine, ?_⟩
  rw [← hmachine] at hrun
  have hstates : ∀ m, states dcs s (2 + m) = states (fun i ↦ dcs (2 + i)) (states dcs s 2) m :=
    states_add dcs s 2
  have hmachines : (fun m ↦ machines dcs s (2 + m)) =
      machines (fun i ↦ dcs (2 + i)) (states dcs s 2) :=
    funext fun m ↦ congrArg (machine (dcs (2 + m))) (hstates m)
  have houtputs : (fun m ↦ outputs dcs s (2 + m)) =
      outputs (fun i ↦ dcs (2 + i)) (states dcs s 2) :=
    funext fun m ↦ congrArg (fun s ↦ s.core.dataTla.output) (hstates (m + 1))
  rw [hmachines, houtputs]
  exact @trace_machines _ _ _ _ (fun i ↦ dcs (2 + i)) _ htracked
    (fun m hm ↦ hstates m ▸ hb m hm) _ hrun

/-- **A thread on the pipeline does what it does on its own**, with its own registers and
its own memory, however often the others take it out of its slot and bring it back, if the
run is legal, the bypass is sound, and the others leave its registers, its memory and its
handle alone. -/
theorem runs_alone (h : Tracked code (dcs 0) s) (hb : ∀ m < n, (states dcs s m).BypassSound)
    (hlegal : (Machine.run code (fun m ↦ (dcs m).nextPc) n (s.machine (dcs 0))).isSome)
    (h0 : (machines dcs s 0).Has W t)
    (hleaves : ∀ m < n, ∀ r ∈ t.run code (Machine.turnsOf (machines dcs s) t.row (m + 1)),
      (machines dcs s m).Leaves code W r.1 (machines dcs s (m + 1)))
    (hloads : t.LoadsIn code W (Machine.turnsOf (machines dcs s) t.row n))
    (hrun : t.run code (Machine.turnsOf (machines dcs s) t.row n) = some (u, out)) :
    (machines dcs s n).Has W u ∧
      emitted (fun m ↦ if (machines dcs s m).HasTurn t.row then outputs dcs s m else none) n =
        out := by
  obtain ⟨r, hr⟩ := Option.isSome_iff_exists.mp hlegal
  exact (trace_machines h hb hr).has h0 hleaves hloads hrun

/-- Hart 1 is brought in, has one turn, which is a store to the debug register, and is
taken out. -/
theorem runs_alone_stepper :
    let τ := machines (fun _ ↦ DontCare.const 0#32) stepper
    let t : Process 3 := ⟨⟨⟨true, 1#7, 24#24⟩, (τ 0).regs 1#3⟩, (τ 0).mem⟩
    ∃ u, u.hpc = ⟨true, 1#7, 28#24⟩ ∧ (τ 9).Has ∅ u ∧
      emitted (fun m ↦ if (τ m).HasTurn t.row then
          outputs (fun _ ↦ DontCare.const 0#32) stepper m else none) 9 =
        [⟨TL.putFullData, 0xFFFFFFF0#32, 0#32, 0xF#4⟩] := by
  intro τ t
  let code := stepper.codeRam.ram.ram
  have hturns : Machine.turnsOf τ t.row 9 = 1 := by decide
  have hone : (t.run code 1).map (fun r ↦ (r.1.hpc, r.2)) =
      some (⟨true, 1#7, 28#24⟩, [⟨TL.putFullData, 0xFFFFFFF0#32, 0#32, 0xF#4⟩]) := by
    decide
  obtain ⟨⟨u, out⟩, hrun, heq⟩ := Option.map_eq_some_iff.mp hone
  obtain ⟨hpc, rfl⟩ := Prod.mk.inj heq
  rw [← hturns] at hrun
  have hleaves : ∀ m < 9, ∀ r ∈ t.run code (Machine.turnsOf τ t.row (m + 1)),
      ((τ (m + 1)).Waits r.1.row → ((τ m).HasTurn r.1.row → (τ m).swap ≠ none) →
        (τ (m + 1)).a = r.1.hpc) ∧
      ((τ m).b.active = true → ∀ e ∈ (τ m).turn code, ∀ p ∈ e.poke, p.row ≠ r.1.row) := by
    decide
  have hloads : ∀ m < 1, ∀ r ∈ t.run code m, ∀ c ∈ r.1.command code,
      c.loads 3 r.1.toHart = [] := by
    decide
  refine ⟨u, hpc, runs_alone (stepper_ready.tracked (fun _ ↦ rfl) _) (fun m hm ↦ ?_) (by decide)
    ⟨rfl, fun _ hb ↦ hb.elim, by decide, by decide, by decide⟩
    (fun m hm r hr ↦ ⟨(hleaves m hm r hr).1, (hleaves m hm r hr).2, fun _ _ hb ↦ hb.elim⟩)
    (fun m hm r hr c hc b hb ↦ ?_) hrun⟩
  · unfold BypassSound BypassAt
    interval_cases m <;> decide
  · rw [hloads m (hturns ▸ hm) r hr c hc] at hb
    exact absurd hb List.not_mem_nil

end Soc

end Pinwheel
