import Pinwheel.Pipeline.Rv32i

/-!
# The machine that programs see

Two slots for threads, eight rows of registers, the data RAM, and the stores that go
out to the devices.  The thread in slot B has its turn, and the slots change places.
Besides RV32I there are `csrr rd, mhartid` and the two thread switches.  A yield takes
effect in its own turn.  A swap is under way for one turn more: it exchanges the thread
that has the next turn, after that turn, for its target.
-/

namespace Pinwheel

open RV32I

/-! ## Commands -/

/-- What a thread can be told to do. -/
inductive Command where
  | instr (i : Rv32i.Instr)
  | hartid (rd : BitVec 5)
  | swap (rd rs1 : BitVec 5)
  | yield (rd rs1 : BitVec 5)
deriving DecidableEq, Repr

def Command.decode (w : BitVec 32) : Option Command :=
  let i : Insn := ⟨w⟩
  if i.isCsrrw csrSwap then some (.swap i.rd i.rs1)
  else if i.isCsrrw csrYield then some (.yield i.rd i.rs1)
  else if i.op = opSystem ∧ (i.f3 = f3Csrrw ∨ i.f3 = f3Csrrs) ∧ i.csr = mhartid then
    some (.hartid i.rd)
  else (Rv32i.decode w).map .instr

/-! ## Turns -/

/-- A swap under way: the handle it brings in, and the register of the one it takes out. -/
structure Swap where
  hart : BitVec 7
  rd : BitVec 5
  target : BitVec 32
deriving DecidableEq, Repr

/-- A store to the register window, which has room for the registers of four harts. -/
structure Poke where
  hart : BitVec 2
  r : BitVec 5
  value : BitVec 32
deriving DecidableEq, Repr

/-- A store that leaves for the devices, lane by lane as the bus has it. -/
structure Output where
  op : BitVec 3
  addr : BitVec 32
  data : BitVec 32
  mask : BitVec 4
deriving DecidableEq, Repr

/-- A store of one word is a full put. -/
def Output.ofStore (w : Rv32i.Width) (a v : BitVec 32) : Output where
  op := if w = .word then TL.putFullData else TL.putPartialData
  addr := a
  data := v <<< (8 * lane a)
  mask := busMask w a

/-- The registers of all rows. -/
abbrev Rows := BitVec 3 → BitVec 5 → BitVec 32

/-- `x0` keeps what it has. -/
def Rows.set (regs : Rows) (row : BitVec 3) (r : BitVec 5) (v : BitVec 32) : Rows :=
  if r = 0#5 then regs else Function.update regs row (Function.update (regs row) r v)

namespace Rows

variable {regs : Rows} {row row' : BitVec 3} {r : BitVec 5} {v : BitVec 32}

theorem set_self (hr : r ≠ 0#5) : regs.set row r v row r = v := by
  rw [set, if_neg hr, Function.update_self, Function.update_self]

theorem set_of_ne (h : row' ≠ row) : regs.set row r v row' = regs row' := by
  unfold set
  split_ifs
  · rfl
  · exact Function.update_of_ne h _ _

theorem set_set (v' : BitVec 32) : (regs.set row r v).set row r v' = regs.set row r v' := by
  unfold set
  split_ifs
  · rfl
  · rw [Function.update_self, Function.update_idem, Function.update_idem]

end Rows

/-- The row of a hart that the window has room for. -/
def Poke.row (p : Poke) : BitVec 3 := p.hart.setWidth 3

/-- What a thread does in its turn: where it goes on, its registers, the memory, and
whatever reaches beyond. -/
structure Turn (k : ℕ) where
  pc : BitVec 32
  x : BitVec 5 → BitVec 32
  mem : Rv32i.Memory k
  swap : Option Swap := none
  goto : Option (BitVec 32) := none
  poke : Option Poke := none
  out : Option Output := none

namespace Turn

variable {k : ℕ}

/-- The turn of an instruction that stays inside. -/
def ofExec (outcome : Rv32i.Hart × Rv32i.Memory k) : Turn k where
  pc := outcome.1.pc
  x := outcome.1.x
  mem := outcome.2

/-- The registers of all rows, if a store has gone to the window. -/
def poked (t : Turn k) (regs : Rows) : Rows :=
  match t.poke with
  | some p => regs.set p.row p.r p.value
  | none => regs

theorem poked_of_some {t : Turn k} {p : Poke} (h : t.poke = some p) {regs : Rows} :
    t.poked regs = regs.set p.row p.r p.value := by
  rw [poked, h]

theorem poked_of_none {t : Turn k} (h : t.poke = none) {regs : Rows} : t.poked regs = regs := by
  rw [poked, h]

/-- The turn writes no registers of an active thread in the other slot. -/
def Spares (t : Turn k) (a : Hpc) : Prop :=
  ∀ p ∈ t.poke, a.active = true → p.row ≠ rowOf a.hart

instance (t : Turn k) (a : Hpc) : Decidable (t.Spares a) :=
  inferInstanceAs (Decidable (∀ _ ∈ _, _))

theorem spares_of_none {t : Turn k} (h : t.poke = none) (a : Hpc) : t.Spares a := by
  intro p hp
  rw [h] at hp
  exact nomatch hp

end Turn

/-- A store that does not go to the data RAM: to the register window, or to the devices,
where it stays within one word.  The program cannot be written. -/
def Command.store {k : ℕ} (h : Rv32i.Hart) (m : Rv32i.Memory k) (w : Rv32i.Width)
    (a v : BitVec 32) : Option (Turn k) :=
  let t : Turn k := ⟨h.pc + 4#32, h.x, m, none, none, none, none⟩
  if Core.page a = 0xE#4 then
    some { t with poke := some ⟨a.extractLsb' 7 2, a.extractLsb' 2 5, v⟩ }
  else if Core.page a ≠ 0x0#4 ∧ Core.page a ≠ 0x8#4 ∧ lane a + w.bytes ≤ 4 then
    some { t with out := some (.ofStore w a v) }
  else none

/-- The turn of a thread, if its command is legal. -/
def Command.turn {k : ℕ} (hpc : Hpc) (h : Rv32i.Hart) (m : Rv32i.Memory k) :
    Command → Option (Turn k)
  | .instr i =>
    if Inside h i then some (.ofExec (i.exec h m))
    else match i with
      | .store w rs1 rs2 imm => store h m w (h.read rs1 + imm) (h.read rs2)
      | _ => none
  | .hartid rd => some (.ofExec (h.write rd (hpc.hart.setWidth 32) (h.pc + 4#32), m))
  | .swap rd rs1 =>
    some { pc := h.pc + 4#32, x := h.x, mem := m, swap := some ⟨hpc.hart, rd, h.read rs1⟩ }
  | .yield rd rs1 =>
    let self : Hpc := ⟨hpc.active, hpc.hart, (h.pc + 4#32).setWidth 24⟩
    some
      { pc := h.pc + 4#32
        x := (h.write rd self.toLogic (h.pc + 4#32)).x
        mem := m
        goto := some (h.read rs1) }

theorem Command.turn_of_inside {k : ℕ} {hpc : Hpc} {h : Rv32i.Hart} {m : Rv32i.Memory k}
    {i : Rv32i.Instr} (hin : Inside h i = true) :
    Command.turn hpc h m (.instr i) = some (.ofExec (i.exec h m)) := by
  unfold turn
  dsimp only
  rw [if_pos hin]

/-- The store of a value that stays within one word. -/
def Output.IsStore (o : Output) : Prop :=
  ∃ w a v, lane a + Rv32i.Width.bytes w ≤ 4 ∧ o = .ofStore w a v

/-- Turns put out nothing else. -/
theorem Command.isStore_of_turn {k : ℕ} {hpc : Hpc} {h : Rv32i.Hart} {m : Rv32i.Memory k}
    {c : Command} {t : Turn k} {o : Output} (ht : c.turn hpc h m = some t) (ho : t.out = some o) :
    o.IsStore := by
  have hstore : ∀ w a v, Command.store h m w a v = some t → o.IsStore := by
    intro w a v hs
    unfold Command.store at hs
    dsimp only at hs
    split_ifs at hs with hwindow hdevice
    · cases hs
      exact nomatch ho
    · cases hs
      exact ⟨w, a, v, hdevice.2.2, (Option.some.inj ho).symm⟩
  cases c with
  | instr i =>
    unfold turn at ht
    dsimp only at ht
    split_ifs at ht with hin
    · cases ht
      exact nomatch ho
    · split at ht
      · exact hstore _ _ _ ht
      · cases ht
  | hartid rd | swap rd rs1 | yield rd rs1 =>
    cases ht
    exact nomatch ho

/-! ## The machine -/

/-- The state, with `4 * 2 ^ db` bytes of data. -/
@[ext]
structure Machine (db : ℕ) where
  a : Hpc
  b : Hpc
  swap : Option Swap
  regs : Rows
  mem : Rv32i.Memory (db + 2)

namespace Machine

variable {cb db : ℕ} (code : BitVec cb → BitVec 32) (σ : Machine db)

/-- The hart in slot B. -/
def hart : Rv32i.Hart := ⟨σ.b.pc.setWidth 32, σ.regs (rowOf σ.b.hart)⟩

/-- The thread that comes to slot A.  A swap under way goes first, before a yield. -/
def entering (next : Hpc) (goto : Option (BitVec 32)) : Hpc :=
  match σ.swap, goto with
  | some w, _ => .fromLogic2 w.target
  | none, some target => .fromLogic2 target
  | none, none => next

/-- The registers when a swap under way has taken out a handle. -/
def swapped (next : Hpc) : Rows :=
  match σ.swap with
  | some w => σ.regs.set (rowOf w.hart) w.rd next.toLogic
  | none => σ.regs

section Swap

variable {σ} {w : Swap} (next : Hpc)

theorem entering_of_swap (h : σ.swap = some w) (goto : Option (BitVec 32)) :
    σ.entering next goto = .fromLogic2 w.target := by
  unfold entering
  rw [h]

theorem entering_of_goto (h : σ.swap = none) (target : BitVec 32) :
    σ.entering next (some target) = .fromLogic2 target := by
  unfold entering
  rw [h]

theorem entering_of_none (h : σ.swap = none) : σ.entering next none = next := by
  unfold entering
  rw [h]

theorem swapped_of_swap (h : σ.swap = some w) :
    σ.swapped next = σ.regs.set (rowOf w.hart) w.rd next.toLogic := by
  rw [swapped, h]

theorem swapped_of_none (h : σ.swap = none) : σ.swapped next = σ.regs := by
  rw [swapped, h]

end Swap

/-- The state after a turn of the thread in slot B. -/
def retire (t : Turn (db + 2)) : Machine db :=
  let next : Hpc := ⟨σ.b.active, σ.b.hart, t.pc.setWidth 24⟩
  { a := σ.entering next t.goto
    b := σ.a
    swap := t.swap
    regs := t.poked (Function.update (σ.swapped next) (rowOf σ.b.hart) t.x)
    mem := t.mem }

/-- The state after the turn of an empty slot, which has no say in its pc. -/
def rest (free : BitVec 24) : Machine db :=
  let next : Hpc := ⟨σ.b.active, σ.b.hart, free⟩
  { a := σ.entering next none
    b := σ.a
    swap := none
    regs := σ.swapped next
    mem := σ.mem }

/-- The active threads are among the first eight, and do not share registers. -/
structure Fit : Prop where
  a : σ.a.active = true → σ.a.hart.toNat < 8
  b : σ.b.active = true → σ.b.hart.toNat < 8
  apart : σ.a.active = true → σ.b.active = true → rowOf σ.a.hart ≠ rowOf σ.b.hart

instance : Decidable σ.Fit :=
  decidable_of_iff ((σ.a.active = true → σ.a.hart.toNat < 8) ∧
    (σ.b.active = true → σ.b.hart.toNat < 8) ∧
    (σ.a.active = true → σ.b.active = true → rowOf σ.a.hart ≠ rowOf σ.b.hart))
    ⟨fun h ↦ ⟨h.1, h.2.1, h.2.2⟩, fun h ↦ ⟨h.a, h.b, h.apart⟩⟩

/-- The turn of the thread in slot B. -/
def turn : Option (Turn (db + 2)) :=
  (Command.decode (code (wordIndex cb (σ.b.pc.setWidth 32)))).bind fun c ↦
    c.turn σ.b σ.hart σ.mem

/-- A thread is put into slot B. -/
def seat (k : Hpc) : Machine db := { σ with b := k }

/-- One turn, with what it puts out. -/
def step (free : BitVec 24) : Option (Machine db × Option Output) :=
  if σ.Fit then
    if σ.b.active then
      (σ.turn code).bind fun t ↦ if t.Spares σ.a then some (σ.retire t, t.out) else none
    else some (σ.rest free, none)
  else none

/-- `n` turns, with all that they put out. -/
def run (free : ℕ → BitVec 24) : ℕ → Machine db → Option (Machine db × List Output) :=
  Clocked.tryRun fun n σ ↦ σ.step code (free n)

section Run

variable {code σ} {free : ℕ → BitVec 24}

theorem step_of_turn (hfit : σ.Fit) (hb : σ.b.active = true) {t : Turn (db + 2)}
    (ht : σ.turn code = some t) (hspares : t.Spares σ.a) (pc : BitVec 24) :
    σ.step code pc = some (σ.retire t, t.out) := by
  rw [step, if_pos hfit, if_pos hb, ht, Option.bind_some, if_pos hspares]

theorem step_of_idle (hfit : σ.Fit) (hb : σ.b.active = false) (pc : BitVec 24) :
    σ.step code pc = some (σ.rest pc, none) := by
  rw [step, if_pos hfit, if_neg (ne_true_of_eq_false hb)]

/-- All that a step can be: the turn of the thread in slot B, or that of an empty slot. -/
theorem step_cases {σ' : Machine db} {pc : BitVec 24} {o : Option Output}
    (hstep : σ.step code pc = some (σ', o)) :
    σ.Fit ∧ ((σ.b.active = true ∧ ∃ t, σ.turn code = some t ∧ t.Spares σ.a ∧ σ' = σ.retire t ∧
        o = t.out) ∨
      (σ.b.active = false ∧ σ' = σ.rest pc ∧ o = none)) := by
  unfold step at hstep
  split_ifs at hstep with hfit hb
  · obtain ⟨t, ht, hnext⟩ := Option.bind_eq_some_iff.mp hstep
    split_ifs at hnext with hspares
    cases hnext
    exact ⟨hfit, .inl ⟨hb, t, ht, hspares, rfl, rfl⟩⟩
  · cases hstep
    exact ⟨hfit, .inr ⟨Bool.eq_false_iff.mpr hb, rfl, rfl⟩⟩

theorem run_succ_of_step {n : ℕ} {σ₁ σ₂ : Machine db} {out : List Output} {o : Option Output}
    (hrun : run code free n σ = some (σ₁, out)) (hstep : σ₁.step code (free n) = some (σ₂, o)) :
    run code free (n + 1) σ = some (σ₂, out ++ o.toList) := Clocked.tryRun_succ_of_step hrun hstep

theorem isStore_of_step {σ' : Machine db} {pc : BitVec 24} {o : Output}
    (hstep : σ.step code pc = some (σ', some o)) : o.IsStore := by
  obtain ⟨-, ⟨-, t, ht, -, -, ho⟩ | ⟨-, -, ho⟩⟩ := step_cases hstep
  · obtain ⟨c, -, hc⟩ := Option.bind_eq_some_iff.mp ht
    exact Command.isStore_of_turn hc ho.symm
  · exact nomatch ho

/-- All that a run puts out are stores. -/
theorem isStore_of_run {n : ℕ} {σ' : Machine db} {out : List Output}
    (hrun : run code free n σ = some (σ', out)) : ∀ o ∈ out, o.IsStore := by
  induction n generalizing σ' out with
  | zero =>
    cases hrun
    exact fun o ho ↦ nomatch ho
  | succ n ih =>
    obtain ⟨σ₁, out₁, o₂, hrun₁, hstep, rfl⟩ := Clocked.step_of_tryRun_succ hrun
    intro o ho
    rcases List.mem_append.mp ho with ho | ho
    · exact ih hrun₁ o ho
    · obtain rfl : o₂ = some o := Option.mem_toList.mp ho
      exact isStore_of_step hstep

end Run

/-- No thread enters slot A right after its turn: a thread that is taken out by a swap
in its turn is not brought back with the next one. -/
def Rested (free : ℕ → BitVec 24) (n : ℕ) : Prop :=
  ∀ m, m + 2 ≤ n → ∀ r r', run code free m σ = some r → run code free (m + 2) σ = some r' →
    r.1.b.active = true → r'.1.a.active = true → rowOf r.1.b.hart ≠ rowOf r'.1.a.hart

instance (free : ℕ → BitVec 24) (n : ℕ) : Decidable (σ.Rested code free n) :=
  decidable_of_iff (∀ m < n - 1, ∀ r ∈ run code free m σ, ∀ r' ∈ run code free (m + 2) σ,
      r.1.b.active = true → r'.1.a.active = true → rowOf r.1.b.hart ≠ rowOf r'.1.a.hart)
    ⟨fun h m hm r r' hr hr' ↦ h m (by omega) r hr r' hr',
      fun h m hm r hr r' hr' ↦ h m (by omega) r r' hr hr'⟩

end Machine

end Pinwheel
