import Pinwheel.Pipeline.Interleaving

/-!
# Programs that write themselves

The machine with its program in memory.  A thread is given the word it has its turn with
when it comes to slot A, two turns before.  A store to the program is under way for one
turn more, and what it stores is lost if a thread comes to slot A in that turn: the code
RAM has one port.  With a program that never writes itself this is the machine as it was.
-/

namespace Pinwheel

open Clocked RV32I

/-- A store to the program that is under way. -/
structure Patch where
  width : Rv32i.Width
  addr : BitVec 32
  value : BitVec 32
deriving DecidableEq, Repr

namespace Patch

variable {cb : ℕ} (p : Patch) (code : BitVec cb → BitVec 32)

/-- The program after the store, lane by lane. -/
def apply : BitVec cb → BitVec 32 :=
  Function.update code (wordIndex cb p.addr)
    (mergeLanes (code (wordIndex cb p.addr)) (p.value <<< (8 * lane p.addr))
      (busMask p.width p.addr))

end Patch

/-! ## Turns -/

/-- The store to the program that a command makes. -/
def Command.patch (h : Rv32i.Hart) : Command → Option Patch
  | .instr (.store w rs1 rs2 imm) =>
    if Core.page (h.read rs1 + imm) = 0x0#4 then some ⟨w, h.read rs1 + imm, h.read rs2⟩ else none
  | _ => none

/-- What a thread does in its turn, stores to the program included. -/
def Command.act {k : ℕ} (hpc : Hpc) (h : Rv32i.Hart) (m : Rv32i.Memory k) (c : Command) :
    Option (Turn k × Option Patch) :=
  match c.patch h with
  | some p => some (⟨h.pc + 4#32, h.x, m, none, none, none, none⟩, some p)
  | none => (c.turn hpc h m).map (·, none)

/-! ## The machine -/

/-- The machine with its program, the words that the threads in its slots have been given,
and a store to the program under way. -/
@[ext]
structure Programmed (cb db : ℕ) where
  slots : Machine db
  code : BitVec cb → BitVec 32
  wordA : BitVec 32
  wordB : BitVec 32
  patch : Option Patch

namespace Programmed

variable {cb db : ℕ} (π : Programmed cb db)

/-- The word for the thread in slot A. -/
def fetch (code : BitVec cb → BitVec 32) (a : Hpc) : BitVec 32 :=
  if a.active then code (wordIndex cb (a.pc.setWidth 32)) else 0#32

/-- The program, after the store under way if that gets the port. -/
def patched (a : Hpc) : BitVec cb → BitVec 32 :=
  match π.patch with
  | some p => if a.active then π.code else p.apply π.code
  | none => π.code

/-- The state around the slots after a turn. -/
def after (σ : Machine db) (patch : Option Patch) : Programmed cb db where
  slots := σ
  code := π.patched σ.a
  wordA := fetch π.code σ.a
  wordB := π.wordA
  patch := patch

/-- The turn of the thread in slot B. -/
def turn : Option (Turn (db + 2) × Option Patch) :=
  (Command.decode π.wordB).bind fun c ↦ c.act π.slots.b π.slots.hart π.slots.mem

/-- One turn, with what it puts out. -/
def step (free : BitVec 24) : Option (Programmed cb db × Option Output) :=
  if π.slots.Fit then
    if π.slots.b.active then
      π.turn.bind fun t ↦
        if t.1.Spares π.slots.a then some (π.after (π.slots.retire t.1) t.2, t.1.out) else none
    else some (π.after (π.slots.rest free) none, none)
  else none

section Step

variable {π}

theorem step_of_turn (hfit : π.slots.Fit) (hb : π.slots.b.active = true) {t : Turn (db + 2)}
    {p : Option Patch} (ht : π.turn = some (t, p)) (hspares : t.Spares π.slots.a)
    (pc : BitVec 24) : π.step pc = some (π.after (π.slots.retire t) p, t.out) := by
  rw [step, if_pos hfit, if_pos hb, ht, Option.bind_some, if_pos hspares]

theorem step_of_idle (hfit : π.slots.Fit) (hb : π.slots.b.active = false) (pc : BitVec 24) :
    π.step pc = some (π.after (π.slots.rest pc) none, none) := by
  rw [step, if_pos hfit, if_neg (ne_true_of_eq_false hb)]

end Step

/-- `n` turns, with all that they put out. -/
def run (free : ℕ → BitVec 24) :
    ℕ → Programmed cb db → Option (Programmed cb db × List Output) :=
  tryRun fun n π ↦ π.step (free n)

/-- The start of a program. -/
def start (code : BitVec cb → BitVec 32) (σ : Machine db) : Programmed cb db where
  slots := σ
  code := code
  wordA := fetch code σ.a
  wordB := fetch code σ.b
  patch := none

end Programmed

/-! ## Programs that do not write themselves -/

/-- A turn of the machine as it was is no store to the program. -/
theorem Command.patch_of_turn {k : ℕ} {hpc : Hpc} {h : Rv32i.Hart} {m : Rv32i.Memory k}
    {c : Command} {t : Turn k} (ht : c.turn hpc h m = some t) : c.patch h = none := by
  unfold Command.patch
  split
  next w rs1 rs2 imm =>
    refine if_neg fun hpage ↦ ?_
    have hin : Inside h (.store w rs1 rs2 imm) = false := by
      have hdata : (Core.page (h.read rs1 + imm) == 0x8#4) = false := by
        rw [hpage]
        rfl
      exact (congrArg (· && _) hdata).trans (Bool.false_and _)
    have hstore : Command.store h m w (h.read rs1 + imm) (h.read rs2) = none := by
      unfold Command.store
      dsimp only
      rw [if_neg (by rw [hpage]; decide), if_neg fun hd ↦ hd.1 hpage]
    unfold Command.turn at ht
    dsimp only at ht
    rw [if_neg (ne_true_of_eq_false hin), hstore] at ht
    cases ht
  next => rfl

namespace Programmed

variable {cb db n : ℕ} {code : BitVec cb → BitVec 32} {free : ℕ → BitVec 24} {σ σ' : Machine db}
  {out : List Output}

theorem step_start {pc : BitVec 24} {o : Option Output} (h : σ.step code pc = some (σ', o)) :
    (start code σ).step pc = some (start code σ', o) := by
  obtain ⟨hfit, ⟨hb, t, ht, hs, rfl, rfl⟩ | ⟨hb, rfl, rfl⟩⟩ := Machine.step_cases h
  · obtain ⟨c, hd, hc⟩ := Option.bind_eq_some_iff.mp ht
    have hturn : (start code σ).turn = some (t, none) := by
      have hword : (start code σ).wordB = code (wordIndex cb (σ.b.pc.setWidth 32)) := if_pos hb
      have hact : c.act σ.b σ.hart σ.mem = some (t, none) := by
        rw [Command.act, Command.patch_of_turn hc, hc]
        rfl
      rw [turn, hword]
      exact Option.bind_eq_some_iff.mpr ⟨c, hd, hact⟩
    exact step_of_turn (π := start code σ) hfit hb hturn hs pc
  · exact step_of_idle (π := start code σ) hfit hb pc

/-- **With a program that does not write itself this is the machine as it was.** -/
theorem run_start (h : Machine.run code free n σ = some (σ', out)) :
    run free n (start code σ) = some (start code σ', out) := by
  induction n generalizing σ' out with
  | zero =>
    cases h
    rfl
  | succ n ih =>
    obtain ⟨τ, out', o, hbefore, hstep, rfl⟩ := step_of_tryRun_succ h
    exact tryRun_succ_of_step (ih hbefore) (step_start hstep)

end Programmed

/-! ## A thread by itself -/

/-- A thread with a memory, and with its program in another. -/
structure Writer (cb k : ℕ) extends Process k where
  code : BitVec cb → BitVec 32

namespace Writer

variable {cb k : ℕ} (ω : Writer cb k)

/-- The thread after a turn. -/
def retire (t : Turn k) (p : Option Patch) : Writer cb k where
  toProcess := ω.toProcess.retire t
  code := match p with
    | some p => p.apply ω.code
    | none => ω.code

/-- One turn, with what it puts out.  A thread must not write the instruction that it
executes next, which it has been given already. -/
def step : Option (Writer cb k × Option Output) :=
  (ω.command ω.code).bind fun c ↦ (c.act ω.hpc ω.toHart ω.mem).bind fun r ↦
    let next := ω.retire r.1 r.2
    if r.1.Private ∧ next.fetch next.code = next.fetch ω.code then some (next, r.1.out) else none

/-- `n` turns, with all that they put out. -/
def run (n : ℕ) : Option (Writer cb k × List Output) := tryRun (fun _ ω ↦ step ω) n ω

variable {ω} {ω' : Writer cb k} {o : Option Output}

theorem turn_of_step (h : ω.step = some (ω', o)) : ∃ c t p, ω.command ω.code = some c ∧
    c.act ω.hpc ω.toHart ω.mem = some (t, p) ∧ t.Private ∧ ω' = ω.retire t p ∧
      ω'.fetch ω'.code = ω'.fetch ω.code ∧ o = t.out := by
  obtain ⟨c, hc, hact⟩ := Option.bind_eq_some_iff.mp h
  obtain ⟨⟨t, p⟩, ht, hnext⟩ := Option.bind_eq_some_iff.mp hact
  dsimp only at hnext
  split_ifs at hnext with hs
  cases hnext
  exact ⟨c, t, p, hc, ht, hs.1, rfl, hs.2, rfl⟩

/-- The thread stays who it is. -/
theorem hpc_of_run {n : ℕ} {out : List Output} (h : ω.run n = some (ω', out)) :
    ω'.hpc.active = ω.hpc.active ∧ ω'.hpc.hart = ω.hpc.hart := by
  induction n generalizing ω' out with
  | zero =>
    cases h
    exact ⟨rfl, rfl⟩
  | succ n ih =>
    obtain ⟨v, _, _, hrun, hstep, -⟩ := step_of_tryRun_succ h
    obtain ⟨-, t, p, -, -, -, rfl, -⟩ := turn_of_step hstep
    have hv : v.hpc.active = ω.hpc.active ∧ v.hpc.hart = ω.hpc.hart := ih hrun
    exact hv

end Writer

namespace Programmed

/-- The thread is in slot A, and slot B is empty.  What it has stored to its program in its
last turn may be under way. -/
structure Lone {cb db : ℕ} (hart : BitVec 7) (regs : Rows) (ω : Writer cb (db + 2))
    (π : Programmed cb db) : Prop where
  slots : ∃ pc, π.slots = Machine.lone ω.toProcess hart pc regs
  word : π.wordA = (ω.fetch ω.code).raw
  code : ∀ a, a.active = false → π.patched a = ω.code

variable {cb db n : ℕ} {hart : BitVec 7} {regs : Rows} {ω ω' : Writer cb (db + 2)}
  {π : Programmed cb db} {free : ℕ → BitVec 24} {out : List Output} {o : Option Output}

/-- The turn of the empty slot: the store under way gets the port. -/
theorem Lone.rest (h : Lone hart regs ω π) (hsmall : ω.hpc.hart.toNat < 8) (pc : BitVec 24) :
    π.step pc = some (⟨Machine.loneTurn ω.toProcess hart pc regs, ω.code, 0#32,
      (ω.fetch ω.code).raw, none⟩, none) := by
  obtain ⟨pc', hslots⟩ := h.slots
  have hno : ¬π.slots.b.active = true := by
    rw [hslots]
    exact Bool.false_ne_true
  have hfit : π.slots.Fit :=
    ⟨fun _ ↦ by rw [hslots]; exact hsmall, fun hb ↦ absurd hb hno, fun _ hb ↦ absurd hb hno⟩
  have hrest : π.slots.rest pc = Machine.loneTurn ω.toProcess hart pc regs := by
    rw [hslots]
    rfl
  rw [step_of_idle hfit (Bool.eq_false_iff.mpr hno), hrest]
  refine congrArg some (Prod.ext (Programmed.ext rfl ?_ rfl h.word rfl) rfl)
  exact h.code _ rfl

/-- The turn of the thread, which is given its next word before its store is done. -/
theorem step_loneTurn (hactive : ω.hpc.active = true) (hsmall : ω.hpc.hart.toNat < 8)
    (hstep : ω.step = some (ω', o)) (pc pc' : BitVec 24) :
    ∃ π', step ⟨Machine.loneTurn ω.toProcess hart pc regs, ω.code, 0#32,
        (ω.fetch ω.code).raw, none⟩ pc' = some (π', o) ∧ Lone hart regs ω' π' := by
  obtain ⟨c, t, p, hc, hact, hprivate, rfl, hword, rfl⟩ := Writer.turn_of_step hstep
  let π : Programmed cb db :=
    ⟨Machine.loneTurn ω.toProcess hart pc regs, ω.code, 0#32, (ω.fetch ω.code).raw, none⟩
  have hno : ¬π.slots.a.active = true := Bool.false_ne_true
  have hturn : π.turn = some (t, p) := by
    have hdecode : Command.decode π.wordB = some c := hc
    rw [turn, hdecode, Option.bind_some, Machine.hart_loneTurn]
    exact hact
  have hretire : π.slots.retire t = Machine.lone (ω.toProcess.retire t) hart pc regs :=
    Machine.retire_loneTurn hprivate
  have hnext : π.step pc' = some (π.after (π.slots.retire t) p, t.out) :=
    step_of_turn ⟨fun ha ↦ absurd ha hno, fun _ ↦ hsmall, fun ha ↦ absurd ha hno⟩ hactive hturn
      (Turn.spares_of_none hprivate.2.2 _) pc'
  refine ⟨_, hnext, ⟨pc, hretire⟩, ?_, fun a ha ↦ ?_⟩
  · rw [hretire]
    exact (if_pos hactive).trans (congrArg Insn.raw hword).symm
  · have hcode : (π.after (π.slots.retire t) p).code = ω.code := rfl
    have hpatch : (π.after (π.slots.retire t) p).patch = p := rfl
    rw [patched, hcode, hpatch, ha]
    cases p <;> rfl

/-- A thread by itself has every second turn, and what it stores to its program is done in
the turn that follows. -/
theorem run_lone (hactive : ω.hpc.active = true) (hsmall : ω.hpc.hart.toNat < 8)
    (hrun : ω.run n = some (ω', out)) (h : Lone hart regs ω π) :
    ∃ π', run free (2 * n) π = some (π', out) ∧ Lone hart regs ω' π' := by
  induction n generalizing ω' out with
  | zero =>
    cases hrun
    exact ⟨π, rfl, h⟩
  | succ n ih =>
    obtain ⟨v, out', o, hbefore, hstep, rfl⟩ := step_of_tryRun_succ hrun
    obtain ⟨π', hmachine, hlone⟩ := ih hbefore
    obtain ⟨ha, hh⟩ := Writer.hpc_of_run hbefore
    have hidle := tryRun_succ_of_step hmachine (hlone.rest (hh ▸ hsmall) (free (2 * n)))
    obtain ⟨π'', hturn, hlone'⟩ := step_loneTurn (ha.trans hactive) (hh ▸ hsmall) hstep
      (free (2 * n)) (free (2 * n + 1))
    have hboth := tryRun_succ_of_step hidle hturn
    rw [Option.toList_none, List.append_nil] at hboth
    exact ⟨π'', hboth, hlone'⟩

/-- The slots are empty in turn. -/
theorem idle_of_run_lone (hactive : ω.hpc.active = true) (hsmall : ω.hpc.hart.toNat < 8)
    (hrun : ω.run n = some (ω', out)) (h : Lone hart regs ω π) {m : ℕ} (hm : m ≤ 2 * n) :
    ∃ r, run free m π = some r ∧ (m % 2 = 0 → r.1.slots.b.active = false) ∧
      (m % 2 = 1 → r.1.slots.a.active = false) := by
  obtain ⟨i, rfl | rfl⟩ := m.even_or_odd'
  · obtain ⟨⟨v, _⟩, hv⟩ := exists_tryRun_of_le (show i ≤ n by omega) hrun
    obtain ⟨π', hmachine, ⟨pc, hslots⟩, -, -⟩ := run_lone hactive hsmall hv h
    exact ⟨_, hmachine, fun _ ↦ congrArg (fun σ ↦ σ.b.active) hslots, fun hodd ↦ by omega⟩
  · obtain ⟨⟨v, _⟩, hv⟩ := exists_tryRun_of_le (show i ≤ n by omega) hrun
    obtain ⟨π', hmachine, hlone⟩ := run_lone hactive hsmall hv h
    have hh := (Writer.hpc_of_run hv).2
    exact ⟨_, tryRun_succ_of_step hmachine (hlone.rest (hh ▸ hsmall) (free (2 * i))),
      fun heven ↦ by omega, fun _ ↦ rfl⟩

end Programmed

/-! ## What the core does in a turn -/

theorem Command.eq_of_decode_instr {w : BitVec 32} {i : Rv32i.Instr}
    (h : Command.decode w = some (.instr i)) : Rv32i.decode w = some i := by
  unfold Command.decode at h
  dsimp only at h
  split_ifs at h
  · cases h
  · cases h
  · cases h
  · obtain ⟨i', hi, heq⟩ := Option.map_eq_some_iff.mp h
    cases heq
    exact hi

theorem Command.isSome_storeOf {i : Insn} {c : Command} (hd : Command.decode i.raw = some c)
    (hop : i.op = opStore) : (Rv32i.storeOf i.f3).isSome = true := by
  have hsys : i.op ≠ opSystem := by
    rw [hop]
    decide
  unfold Command.decode at hd
  dsimp only at hd
  split_ifs at hd with hswap hyield hhartid
  · exact absurd (Soc.op_of_isCsrrw hswap).1 hsys
  · exact absurd (Soc.op_of_isCsrrw hyield).1 hsys
  · exact absurd hhartid.1 hsys
  · obtain ⟨instr, hi, -⟩ := Option.map_eq_some_iff.mp hd
    cases Rv32i.encodes_of_decode hi with
    | store h hs => exact Option.isSome_of_mem hs
    | lui h | auipc h | jal h | jalr h => exact absurd (h.symm.trans hop) (by decide)
    | branch h _ | load h _ | opImm h _ | op h _ => exact absurd (h.symm.trans hop) (by decide)

/-- What an instruction in stage B stores to the program. -/
def Issue.patch (dc : DontCare) (e : Issue) : Option Patch :=
  if e.insn.op = opStore ∧ Core.page (e.addr dc) = 0x0#4 then
    (Rv32i.storeOf e.insn.f3).map fun w ↦ ⟨w, e.addr dc, e.op2⟩
  else none

section Act

variable {db : ℕ} {dc : DontCare} {mem : BitVec db → BitVec 32} {t : Thread} {i : Insn}
  {c : Command} {p : Patch}

/-- A store to the program changes nothing else. -/
theorem Issue.acts_of_patch (hd : Command.decode i.raw = some c) (hp : c.patch t.toHart = some p) :
    (t.issue i).Acts dc mem t.x ⟨t.toHart.pc + 4#32, t.x, ramBytes mem, none, none, none, none⟩ ∧
      (t.issue i).patch dc = some p := by
  unfold Command.patch at hp
  split at hp
  · split_ifs at hp with hpage
    cases hp
    cases Rv32i.encodes_of_decode (Command.eq_of_decode_instr hd) with
    | store h hs =>
      have hop : i.op = opStore := h
      have himm : decodeImm dc i = Rv32i.immS i.raw := by
        rw [decodeImm, hop]
        rfl
      have haddr : (t.issue i).addr dc = t.read i.rs1 + Rv32i.immS i.raw := congrArg _ himm
      have hzero : Core.page ((t.issue i).addr dc) = 0x0#4 := haddr ▸ hpage
      refine ⟨Takes.acts_of_store hop (by rw [hzero]; decide)
        (if_neg (by rw [hzero]; decide)).symm (Takes.output_of_page (.inr (.inl hzero))), ?_⟩
      have hf3 : Rv32i.storeOf (t.issue i).insn.f3 = some _ := hs
      rw [Issue.patch, if_pos ⟨hop, hzero⟩, hf3, haddr]
      rfl
  · cases hp

/-- **The core acts as the machine's thread does.** -/
theorem Issue.acts_of_act {turn : Turn (db + 2)} {patch : Option Patch}
    (hd : Command.decode i.raw = some c) (ha : t.hpc.active = true)
    (hact : c.act t.hpc t.toHart (ramBytes mem) = some (turn, patch)) :
    (t.issue i).Acts dc mem t.x turn ∧ (t.issue i).patch dc = patch := by
  unfold Command.act at hact
  split at hact
  · cases hact
    exact Issue.acts_of_patch hd ‹_›
  · obtain ⟨turn', ht, heq⟩ := Option.map_eq_some_iff.mp hact
    cases heq
    have htakes := @Takes.of_decode _ dc mem _ _ _ _ hd ha ht
    exact ⟨htakes.toActs, if_neg fun hs ↦ htakes.noCode hs.1 hs.2⟩

end Act

/-! ## The pipeline -/

namespace Soc

variable {cb db : ℕ} {dc : DontCare} {s : Soc cb db}

/-- The state of the machine with its program. -/
def programmed (dc : DontCare) (s : Soc cb db) : Programmed cb db where
  slots := s.machine dc
  code := s.codeRam.ram.ram
  wordA := (s.core.abInsn s.coreIn).raw
  wordB := s.core.bInsn.raw
  patch :=
    if s.core.cdWriteCode then
      (Rv32i.storeOf s.core.cInsn.f3).map fun w ↦ ⟨w, s.core.cAddr, s.core.cResult⟩
    else none

/-- The pipeline is in step with the machine. -/
structure Followed (dc : DontCare) (s : Soc cb db) : Prop extends Held s where
  issued : s.core.bHpc.active = true → s.issue = (s.current dc).issue s.core.bInsn
  width : s.core.cdWriteCode = true → (Rv32i.storeOf s.core.cInsn.f3).isSome = true

/-- The program after a tock. -/
theorem Followed.code_tock (h : Followed dc s) :
    (s.tock dc false).codeRam.ram.ram =
      (s.programmed dc).patched (s.core.baHpc dc s.coreIn) := by
  cases hwrite : s.core.cdWriteCode with
  | false =>
    have hpatch : (s.programmed dc).patch = none := if_neg (ne_true_of_eq_false hwrite)
    rw [codeRam_tock false fun _ ↦ hwrite, Programmed.patched, hpatch]
    rfl
  | true =>
    obtain ⟨w, hw⟩ := Option.isSome_iff_exists.mp (h.width hwrite)
    have hpatch : (s.programmed dc).patch = some ⟨w, s.core.cAddr, s.core.cResult⟩ := by
      refine (if_pos hwrite).trans ?_
      rw [hw]
      rfl
    rw [Programmed.patched, hpatch]
    cases hact : (s.core.baHpc dc s.coreIn).active with
    | true => exact codeRam_tock_of_active false hact
    | false =>
      have hsteal : s.core.stealsCode dc s.coreIn = true := by
        rw [Core.stealsCode, hwrite, hact, Bool.or_true]
        rfl
      have hstore : s.core.cInsn.op = opStore ∧ Core.page s.core.cAddr = 0x0#4 := by
        rw [Core.cdWriteCode, Bool.and_eq_true, Bool.and_eq_true] at hwrite
        exact ⟨beq_iff_eq.mp hwrite.1.2, beq_iff_eq.mp hwrite.2⟩
      rw [codeRam_store_tock, Core.nextCodeTla, if_pos hsteal, hstore.1]
      exact Executes.store_genBus hw (by rw [hstore.2]; rfl)

/-- The word for the thread that enters stage A. -/
theorem abInsn_tock :
    ((s.tock dc false).core.abInsn (s.tock dc false).coreIn).raw =
      Programmed.fetch s.codeRam.ram.ram (s.core.baHpc dc s.coreIn) := by
  cases hact : (s.core.baHpc dc s.coreIn).active with
  | false =>
    rw [Core.abInsn_of_idle (show (s.tock dc false).core.aHpc.active = false from hact),
      Programmed.fetch, hact]
    rfl
  | true =>
    have hfetch := fetch_tock false (stealsCode_of_active hact)
    have hab : (s.tock dc false).core.abInsn (s.tock dc false).coreIn =
        ⟨(s.tock dc false).codeRam.ram.rdata⟩ := if_pos hact
    rw [hab, hfetch, Programmed.fetch, if_pos hact]

/-- What stage C has of the instruction in stage B. -/
theorem patch_tock (ha : s.core.bHpc.active = true) (dc' : DontCare) :
    ((s.tock dc false).programmed dc').patch = s.issue.patch dc := by
  have hdef : ((s.tock dc false).programmed dc').patch =
      if (s.core.bHpc.active && s.issue.insn.op == opStore &&
          Core.page (s.issue.addr dc) == 0x0#4) = true then
        (Rv32i.storeOf s.issue.insn.f3).map fun w ↦ ⟨w, s.issue.addr dc, s.issue.result dc⟩
      else none := rfl
  have hiff : (s.core.bHpc.active && s.issue.insn.op == opStore &&
      Core.page (s.issue.addr dc) == 0x0#4) = true ↔
      s.issue.insn.op = opStore ∧ Core.page (s.issue.addr dc) = 0x0#4 := by
    rw [ha, Bool.true_and, Bool.and_eq_true, beq_iff_eq, beq_iff_eq]
  rw [hdef, Issue.patch, if_congr hiff rfl rfl]
  split_ifs with hstore
  · have hresult : s.issue.result dc = s.issue.op2 := by
      rw [Executes.result_eq hstore.1 (by decide)]
      rfl
    rw [hresult]
  · rfl

theorem patch_tock_of_idle (hi : s.core.bHpc.active = false) (dc' : DontCare) :
    ((s.tock dc false).programmed dc').patch = none :=
  if_neg (ne_true_of_eq_false (Core.access_of_idle hi))

/-- The state around the slots after a tock. -/
theorem Followed.programmed_tock (h : Followed dc s) {σ : Machine db} {patch : Option Patch}
    {dc' : DontCare} (hσ : (s.tock dc false).machine dc' = σ)
    (hpatch : ((s.tock dc false).programmed dc').patch = patch) :
    (s.tock dc false).programmed dc' = (s.programmed dc).after σ patch := by
  have ha : s.core.baHpc dc s.coreIn = σ.a := congrArg Machine.a hσ
  refine Programmed.ext hσ ?_ ?_ rfl hpatch
  · exact h.code_tock.trans (congrArg (s.programmed dc).patched ha)
  · exact abInsn_tock.trans (congrArg (Programmed.fetch _) ha)

/-- **A turn of the machine is a tock**, also if it writes the program. -/
theorem Followed.tock (h : Followed dc s) (hb : s.BypassSound) {π : Programmed cb db}
    {out : Option Output} (hstep : (s.programmed dc).step dc.nextPc = some (π, out))
    (dc' : DontCare) :
    Followed dc' (s.tock dc false) ∧ (s.tock dc false).programmed dc' = π ∧
      (s.tock dc false).core.dataTla.output = out := by
  unfold Programmed.step at hstep
  split_ifs at hstep with hfit ha
  · obtain ⟨⟨t, patch⟩, ht, hspares⟩ := Option.bind_eq_some_iff.mp hstep
    split_ifs at hspares with hs
    cases hspares
    obtain ⟨c, hd, hc⟩ := Option.bind_eq_some_iff.mp ht
    have hact : s.core.bHpc.active = true := ha
    obtain ⟨hacts, hpatch⟩ :=
      @Issue.acts_of_act _ dc s.dataRam.ram.ram (s.current dc) s.core.bInsn c t patch hd hact hc
    rw [← h.issued hact] at hacts hpatch
    obtain ⟨hmachine, hout⟩ := h.tock_acts hact hacts dc'
    refine ⟨⟨h.toHeld.tock hfit, h.issue_tock hfit hb
        fun hact' ↦ off_of_acts hfit hact hacts hs hact' dc', fun hw ↦ ?_⟩,
      h.programmed_tock hmachine ((patch_tock hact dc').trans hpatch), hout⟩
    have hop : s.issue.insn.op = opStore := by
      have haccess := hw
      rw [Core.cdWriteCode, Bool.and_eq_true, Bool.and_eq_true] at haccess
      exact beq_iff_eq.mp haccess.1.2
    exact Command.isSome_storeOf hd hop
  · cases hstep
    have hi : s.core.bHpc.active = false := Bool.eq_false_iff.mpr ha
    obtain ⟨hmachine, hout⟩ := machine_tock_of_idle hi (h.idle hi) dc'
    refine ⟨⟨h.toHeld.tock hfit, h.issue_tock hfit hb fun _ ↦ off_of_idle hi dc' _, fun hw ↦ ?_⟩,
      h.programmed_tock hmachine (patch_tock_of_idle hi dc'), hout⟩
    exact absurd ((Core.access_of_idle hi).symm.trans hw) Bool.false_ne_true

/-! ## Whole runs -/

section Run

variable {dcs : ℕ → DontCare} {n : ℕ} {π : Programmed cb db} {out : List Output}

theorem followed_states (h : Followed (dcs 0) s) (hb : ∀ m < n, (states dcs s m).BypassSound)
    (hrun : Programmed.run (fun m ↦ (dcs m).nextPc) n (s.programmed (dcs 0)) = some (π, out)) :
    Followed (dcs n) (states dcs s n) ∧ (states dcs s n).programmed (dcs n) = π ∧
      emitted (outputs dcs s) n = out := by
  refine eq_of_tryRun (P := fun m ↦ Followed (dcs m) (states dcs s m))
    (f := fun m ↦ (states dcs s m).programmed (dcs m)) h (fun m hm hm' π o hstep ↦ ?_) hrun
  rw [outputs, states_succ]
  exact hm'.tock (hb m hm) hstep (dcs (m + 1))

/-- A pipeline that runs a program runs it as the program that it has in memory. -/
theorem Tracked.followed {code : BitVec cb → BitVec 32} (h : Tracked code dc s) :
    Followed dc s ∧ s.programmed dc = .start code (s.machine dc) := by
  have hword : s.core.bInsn = ⟨Programmed.fetch code s.core.bHpc⟩ := by
    cases hact : s.core.bHpc.active with
    | false =>
      rw [h.idle hact, Programmed.fetch, hact]
      rfl
    | true =>
      rw [Programmed.fetch, if_pos hact]
      exact congrArg Issue.insn (h.issued hact)
  constructor
  · refine ⟨h.toHeld, fun ha ↦ ?_, fun hw ↦ absurd (h.writeCode.symm.trans hw) Bool.false_ne_true⟩
    rw [hword, Programmed.fetch, if_pos ha]
    exact h.issued ha
  · refine Programmed.ext rfl h.program ?_ (congrArg Insn.raw hword)
      (if_neg (ne_true_of_eq_false h.writeCode))
    cases hact : s.core.aHpc.active with
    | false =>
      have hidle : Programmed.fetch code s.core.aHpc = 0#32 := if_neg (ne_true_of_eq_false hact)
      exact (congrArg Insn.raw (Core.abInsn_of_idle hact)).trans hidle.symm
    | true =>
      have hfetch : Programmed.fetch code s.core.aHpc = _ := if_pos hact
      have hab : s.core.abInsn s.coreIn = ⟨s.codeRam.ram.rdata⟩ := if_pos hact
      exact (congrArg Insn.raw hab).trans ((h.fetched hact).trans hfetch.symm)

/-- **The pipeline refines the machine with its program in memory** from a ready start, for
as long as the machine runs and the register file's bypass does not hand out the data of a
disabled write: every thread executes the word that it has been given, the program is what
the stores that got the port have made of it, and the bus carries what the machine puts out
and nothing else.  For a program that does not write itself the machine is the one that it
was. -/
theorem program_refines (h : s.Ready)
    (hidle : s.core.bHpc.active = false → s.core.bInsn = ⟨0#32⟩)
    (hb : ∀ m < n, (states dcs s m).BypassSound)
    (hrun : Programmed.run (fun m ↦ (dcs m).nextPc) n (.start s.codeRam.ram.ram s.initial) =
      some (π, out)) :
    ((states dcs s n).programmed (dcs n) = π ∧ emitted (outputs dcs s) n = out) ∧
      ∀ r ∈ Machine.run s.codeRam.ram.ram (fun m ↦ (dcs m).nextPc) n s.initial,
        π = .start s.codeRam.ram.ram r.1 ∧ out = r.2 := by
  constructor
  · obtain ⟨hfollowed, hstart⟩ := (h.tracked hidle (dcs 0)).followed
    rw [← @Ready.machine _ _ (dcs 0) _ h, ← hstart] at hrun
    exact (followed_states hfollowed hb hrun).2
  · rintro ⟨σ, o⟩ hr
    rw [Programmed.run_start hr] at hrun
    cases hrun
    exact ⟨rfl, rfl⟩

/-- A lone thread has a sound bypass behind the guard, whatever it writes. -/
theorem Guarded.lone_sound (h : s.Guarded) (hdc : ∀ n, (dcs n).cdWaddr.setWidth 5 = 0#5)
    {hart : BitVec 7} {regs : Rows} {ω ω' : Writer cb (db + 2)}
    (hactive : ω.hpc.active = true) (hsmall : ω.hpc.hart.toNat < 8)
    (hlone : Programmed.Lone hart regs ω ((states dcs s 2).programmed (dcs 2)))
    (hrun : ω.run n = some (ω', out)) : ∀ m ≤ 2 * n, (states dcs s (2 + m)).BypassSound := by
  obtain ⟨htracked, -, -⟩ :
      Tracked _ (dcs 2) (states dcs s 2) ∧ (states dcs s 2).machine (dcs 2) = _ ∧ _ :=
    h.tock_tock (dcs 0) (dcs 1) (dcs 2)
  obtain ⟨hsecond, hthird⟩ := h.sound_behindGuard hdc
  let dcs' := fun m ↦ dcs (2 + m)
  have hslots : ∀ {m}, m ≤ 2 * n → (∀ k < m, (states dcs' (states dcs s 2) k).BypassSound) →
      (m % 2 = 0 → (states dcs' (states dcs s 2) m).core.bHpc.active = false) ∧
        (m % 2 = 1 → (states dcs' (states dcs s 2) m).core.aHpc.active = false) := by
    intro m hm hsound
    obtain ⟨r, hr, hb, ha⟩ := @Programmed.idle_of_run_lone _ _ _ _ _ _ _ _
      (fun m ↦ (dcs' m).nextPc) _ hactive hsmall hrun hlone m hm
    have hstate := (@followed_states _ _ _ dcs' _ _ _ htracked.followed.1 hsound hr).2.1
    have hmachine := congrArg Programmed.slots hstate
    exact ⟨fun heven ↦ (congrArg (fun σ ↦ σ.b.active) hmachine).trans (hb heven),
      fun hodd ↦ (congrArg (fun σ ↦ σ.a.active) hmachine).trans (ha hodd)⟩
  intro m hm
  rw [states_add]
  refine @sound_of_rested _ _ _ dcs' _ hsecond hthird (fun i ↦ hdc (2 + i))
    (fun m hm hsound hb ha ↦ ?_) m hm
  rcases Nat.mod_two_eq_zero_or_one m with heven | hodd
  · have hidle := (hslots (by omega) fun k hk ↦ hsound k (by omega)).1 heven
    exact absurd (hidle.symm.trans hb) Bool.false_ne_true
  · have hidle := (hslots hm hsound).2 (by omega)
    exact absurd (hidle.symm.trans ha) Bool.false_ne_true

/-- Out of power-on hart 0 stores the byte 16 to the next instruction, which stores `x0` to the
debug register, executes that and jumps back to it. -/
def rewriter : Soc 3 1 :=
  let program := fun a ↦
    if a = 0#3 ∨ a = 1#3 then 0x01000093#32 else if a = 2#3 then 0x00100723#32
    else if a = 3#3 then 0xFE002823#32 else 0xFFDFF06F#32
  (blank program).resets (fun _ ↦ DontCare.const 0#32) 1

theorem rewriter_ready : rewriter.Ready := by
  refine ready_resets (show (blank _).Mirrored from rfl) ?_
  unfold FetchesBoot
  decide

/-- The next instruction still stores `x0`, and `x1` the second time. -/
theorem program_refines_rewriter :
    let dcs := fun _ : ℕ ↦ DontCare.const 0#32
    ∃ π, Programmed.run (fun m ↦ (dcs m).nextPc) 10 (.start rewriter.codeRam.ram.ram
        rewriter.initial) = some (π, [⟨TL.putFullData, 0xFFFFFFF0#32, 0#32, 0xF#4⟩,
          ⟨TL.putFullData, 0xFFFFFFF0#32, 16#32, 0xF#4⟩]) ∧
      (states dcs rewriter 10).programmed (dcs 10) = π ∧
        emitted (outputs dcs rewriter) 10 = [⟨TL.putFullData, 0xFFFFFFF0#32, 0#32, 0xF#4⟩,
          ⟨TL.putFullData, 0xFFFFFFF0#32, 16#32, 0xF#4⟩] := by
  intro dcs
  have hout : (Programmed.run (fun m ↦ (dcs m).nextPc) 10 (.start rewriter.codeRam.ram.ram
      rewriter.initial)).map Prod.snd = some [⟨TL.putFullData, 0xFFFFFFF0#32, 0#32, 0xF#4⟩,
        ⟨TL.putFullData, 0xFFFFFFF0#32, 16#32, 0xF#4⟩] := by
    decide +kernel
  obtain ⟨⟨π, out⟩, hrun, rfl⟩ := Option.map_eq_some_iff.mp hout
  refine ⟨π, hrun, (program_refines rewriter_ready (fun _ ↦ rfl) (fun m hm ↦ ?_) hrun).1⟩
  unfold BypassSound BypassAt
  interval_cases m <;> decide +kernel

variable {rcs : ℕ → DontCare} {k : ℕ}

/-- Hart 0 at address 4, with its registers, its memory and its program. -/
def writer (s : Soc cb db) : Writer cb (db + 2) :=
  ⟨⟨⟨⟨true, 0#7, 4#24⟩, rowsOf s.file 0#3⟩, ramBytes s.dataRam.ram.ram⟩, s.codeRam.ram.ram⟩

/-- **A guarded program that writes itself runs as it is written**, alone and from two reset
tocks on, for as long as its thread goes on as the interpreter has it, which does not write
the instruction that it executes next: the thread, the memory and what is put out are its
own, and one tock later the code RAM is what it has made of it.  The banks start equal, and
`DONTCARE` names an `x0` for an idle stage C. -/
theorem writes_itself (hm : s.Mirrored)
    (hguard : (s.resets rcs (k + 1)).codeRam.ram.ram
      (wordIndex cb ((rcs (k + 1)).nextPc.setWidth 32)) = guardWord)
    (hdc : ∀ n, (dcs n).cdWaddr.setWidth 5 = 0#5) {ω : Writer cb (db + 2)}
    (hrun : (s.resets rcs (k + 2)).writer.run n = some (ω, out)) :
    let s' := s.resets rcs (k + 2)
    (∃ pc, machines dcs s' (2 + 2 * n) = .lone ω.toProcess 0#7 pc (rowsOf s'.file)) ∧
      (states dcs s' (2 + 2 * n + 1)).codeRam.ram.ram = ω.code ∧
      emitted (outputs dcs s') (2 + 2 * n) = out := by
  intro s'
  have hlast : s' = (s.resets rcs (k + 1)).tock (rcs (k + 1)) true := run_succ _
  have hguarded : s'.Guarded := by
    rw [hlast]
    exact guarded_tock (hm.resets rcs (k + 1)) (by rw [fetchAddr_resets]; exact hguard)
  obtain ⟨htracked, hmachine, -⟩ :
      Tracked _ (dcs 2) (states dcs s' 2) ∧ (states dcs s' 2).machine (dcs 2) = _ ∧ _ :=
    hguarded.tock_tock (dcs 0) (dcs 1) (dcs 2)
  obtain ⟨hfollowed, hprogrammed⟩ := htracked.followed
  have hboot : (states dcs s' 2).machine (dcs 2) =
      .lone s'.writer.toProcess 0#7 (dcs 0).nextPc (rowsOf s'.file) := by
    rw [hmachine, hlast, behindGuard_tock]
    exact Machine.ext rfl rfl rfl (Function.update_eq_self ..).symm rfl
  have hlone : Programmed.Lone 0#7 (rowsOf s'.file) s'.writer
      ((states dcs s' 2).programmed (dcs 2)) := by
    rw [hprogrammed, hboot]
    exact ⟨⟨_, rfl⟩, rfl, fun _ _ ↦ rfl⟩
  have hsmall : ∀ {v : Writer cb (db + 2)}, v.hpc.hart = s'.writer.hpc.hart →
      v.hpc.hart.toNat < 8 := fun hh ↦ hh ▸ (show (0#7).toNat < 8 by decide)
  let dcs' := fun m ↦ dcs (2 + m)
  have hsound := hguarded.lone_sound hdc rfl (hsmall rfl) hlone hrun
  have hsound' : ∀ m ≤ 2 * n, (states dcs' (states dcs s' 2) m).BypassSound := fun m hm ↦ by
    rw [← states_add]
    exact hsound m hm
  obtain ⟨π, hπ, hlast'⟩ := @Programmed.run_lone _ _ _ _ _ _ _ _ (fun m ↦ (dcs' m).nextPc) _
    rfl (hsmall rfl) hrun hlone
  obtain ⟨hend, hstate, hout⟩ := @followed_states _ _ _ dcs' _ _ _ hfollowed
    (fun m hm ↦ hsound' m (Nat.le_of_lt hm)) hπ
  rw [← hstate] at hlast'
  have hrest := hlast'.rest (hsmall (Writer.hpc_of_run hrun).2) (dcs' (2 * n)).nextPc
  have hnext := (hend.tock (hsound' _ (Nat.le_refl _)) hrest (dcs' (2 * n + 1))).2.1
  refine ⟨?_, ?_, ?_⟩
  · obtain ⟨pc, hslots⟩ := hlast'.slots
    refine ⟨pc, ?_⟩
    rw [machines, states_add]
    exact hslots
  · rw [states_succ, states_add]
    exact congrArg Programmed.code hnext
  · refine (hguarded.emitted_output (2 * n)).trans (Eq.trans ?_ hout)
    congr 1
    funext m
    rw [outputs, Nat.add_assoc, states_add]

/-- Hart 0 stores the byte 16 at address 18, which is in an instruction that stores `x0` to
the debug register, and comes to it two instructions later. -/
def rewriting : BitVec 3 → BitVec 32 := fun a ↦
  [guardWord, 0x01000093#32, 0x00100923#32, 0x00000013#32, 0xFE002823#32].getD a.toNat guardWord

/-- It stores `x1` instead. -/
theorem writes_itself_rewriting :
    let dcs := fun _ : ℕ ↦ DontCare.const 0#32
    let s : Soc 3 1 := (blank rewriting).resets dcs 2
    (states dcs s 11).codeRam.ram.ram 4#3 = 0xFE102823#32 ∧
      emitted (outputs dcs s) 10 = [⟨TL.putFullData, 0xFFFFFFF0#32, 16#32, 0xF#4⟩] := by
  intro dcs s
  have hout : (s.writer.run 4).map (fun r ↦ (r.1.code 4#3, r.2)) =
      some (0xFE102823#32, [⟨TL.putFullData, 0xFFFFFFF0#32, 16#32, 0xF#4⟩]) := by
    decide
  obtain ⟨⟨ω, out⟩, hrun, heq⟩ := Option.map_eq_some_iff.mp hout
  obtain ⟨hword, rfl⟩ := Prod.mk.inj heq
  obtain ⟨-, hcode, hemitted⟩ := @writes_itself _ _ (blank rewriting) dcs 4 _ dcs 0 rfl
    (by decide) (fun _ ↦ rfl) ω hrun
  exact ⟨(congrFun hcode 4#3).trans hword, hemitted⟩

end Run

end Soc

end Pinwheel
