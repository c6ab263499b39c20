import Mathlib.Tactic.SplitIfs
import Pinwheel.Lib.History
import Pinwheel.Soc.Run

/-!
# Banks of the register file

`synth/bram.sv` describes the banks as write-before-read memories: a read in the
clock of a write to the same cell sees the new value.  `ram_256x32` gets there by a
bypass, which compares the addresses and leaves the write enable out.
-/

namespace Pinwheel

open Clocked

namespace Ram256x32

/-- The arguments of one `ram_256x32::tick`. -/
structure Call where
  raddr : BitVec 8
  waddr : BitVec 8
  wdata : BitVec 32
  wren : Bool

/-- The write of a call, if it is enabled. -/
def Call.write (c : Call) : Option (BitVec 8 × BitVec 32) :=
  if c.wren then some (c.waddr, c.wdata) else none

variable (r : Ram256x32) (calls : ℕ → Call)

/-- The bank after `n` calls. -/
def states (n : ℕ) : Ram256x32 :=
  run (fun c r ↦ r.tick c.raddr c.waddr c.wdata c.wren) calls r n

/-- What a cell should hold after `n` calls: the value of the most recent enabled
write to it, or its initial contents. -/
def stored (n : ℕ) (a : BitVec 8) : BitVec 32 :=
  (latest (fun m ↦ (calls m).write) a n).getD (r.ram a)

/-- Call `n` is no disabled write that names the cell it reads, unless it carries what
the cell should hold. -/
def Harmless (n : ℕ) : Prop :=
  (calls n).wren = false → (calls n).waddr = (calls n).raddr →
    (calls n).wdata = r.stored calls n (calls n).raddr

/-- The same reads and the same enabled writes. -/
def SameEnabled (calls calls' : ℕ → Call) : Prop :=
  ∀ n, (calls n).raddr = (calls' n).raddr ∧ (calls n).write = (calls' n).write

variable {r calls}

theorem states_succ (n : ℕ) :
    r.states calls (n + 1) = (r.states calls n).tick (calls n).raddr (calls n).waddr
      (calls n).wdata (calls n).wren := rfl

theorem Call.write_of_enabled {c : Call} (h : c.wren = true) :
    c.write = some (c.waddr, c.wdata) := if_pos h

theorem Call.write_of_disabled {c : Call} (h : c.wren = false) : c.write = none :=
  if_neg (by rw [h]; exact Bool.false_ne_true)

/-- A call does its enabled write to the cells. -/
theorem ram_tick (r : Ram256x32) (c : Call) :
    (r.tick c.raddr c.waddr c.wdata c.wren).ram = put c.write r.ram := by
  cases h : c.wren with
  | true =>
    rw [Call.write_of_enabled h]
    rfl
  | false =>
    rw [Call.write_of_disabled h]
    rfl

/-- **The cells are right**, whatever the calls are. -/
theorem ram_states (n : ℕ) (a : BitVec 8) : (r.states calls n).ram a = r.stored calls n a :=
  eq_latest (M := fun n ↦ (r.states calls n).ram) (fun n ↦ ram_tick _ (calls n)) n a

theorem rdata_states (n : ℕ) :
    (r.states calls (n + 1)).rdata =
      if (calls n).raddr = (calls n).waddr then (calls n).wdata
      else r.stored calls n (calls n).raddr := by
  rw [← ram_states]
  rfl

theorem stored_succ_of_enabled {n : ℕ} {a : BitVec 8} (h : (calls n).wren = true)
    (ha : (calls n).waddr = a) : r.stored calls (n + 1) a = (calls n).wdata := by
  rw [stored, latest_succ_of_write (a := (calls n).wdata), Option.getD_some]
  rw [Call.write_of_enabled h, ha]

theorem stored_succ_of_miss {n : ℕ} {a : BitVec 8}
    (h : (calls n).wren = true → (calls n).waddr ≠ a) :
    r.stored calls (n + 1) a = r.stored calls n a := by
  rw [stored, latest_succ_of_quiet fun b hb ↦ ?_, ← stored]
  cases hen : (calls n).wren with
  | true =>
    rw [Call.write_of_enabled hen] at hb
    cases hb
    exact h hen rfl
  | false =>
    rw [Call.write_of_disabled hen] at hb
    cases hb

/-- One call reads the right value exactly if it is harmless. -/
theorem rdata_eq_stored_iff (n : ℕ) :
    (r.states calls (n + 1)).rdata = r.stored calls (n + 1) (calls n).raddr ↔
      r.Harmless calls n := by
  rw [rdata_states]
  by_cases ha : (calls n).raddr = (calls n).waddr
  · rw [if_pos ha]
    cases hen : (calls n).wren with
    | true =>
      rw [stored_succ_of_enabled hen ha.symm]
      exact iff_of_true rfl fun h ↦ absurd (hen.symm.trans h) (by decide)
    | false =>
      rw [stored_succ_of_miss fun h ↦ absurd (hen.symm.trans h) Bool.false_ne_true]
      exact ⟨fun h _ _ ↦ h, fun h ↦ h hen ha.symm⟩
  · rw [if_neg ha, stored_succ_of_miss fun _ h ↦ ha h.symm]
    exact iff_of_true rfl fun _ h ↦ absurd h.symm ha

theorem SameEnabled.stored {calls' : ℕ → Call} (h : SameEnabled calls calls') (n : ℕ)
    (a : BitVec 8) : r.stored calls n a = r.stored calls' n a := by
  have hw : (fun m ↦ (calls m).write) = fun m ↦ (calls' m).write := funext fun m ↦ (h m).2
  rw [Ram256x32.stored, Ram256x32.stored, hw]

/-- **A bank is a write-before-read memory** exactly if all its calls are harmless.
Then disabled writes can be exchanged for any others that are harmless too. -/
theorem reads_latest_iff (r : Ram256x32) (calls : ℕ → Call) :
    ((∀ n, (∀ a, (r.states calls n).ram a = r.stored calls n a) ∧
        (r.states calls (n + 1)).rdata = r.stored calls (n + 1) (calls n).raddr) ↔
      ∀ n, r.Harmless calls n) ∧
    ∀ calls', SameEnabled calls calls' →
      (∀ n, (r.states calls n).ram = (r.states calls' n).ram) ∧
      ∀ n, r.Harmless calls n →
        ((r.states calls (n + 1)).rdata = (r.states calls' (n + 1)).rdata ↔
          r.Harmless calls' n) := by
  refine ⟨?_, fun calls' h ↦ ⟨fun n ↦ ?_, fun n hn ↦ ?_⟩⟩
  · constructor
    · exact fun h n ↦ (rdata_eq_stored_iff n).mp (h n).2
    · exact fun h n ↦ ⟨ram_states n, (rdata_eq_stored_iff n).mpr (h n)⟩
  · funext a
    rw [ram_states, ram_states, h.stored]
  · rw [← rdata_eq_stored_iff, (rdata_eq_stored_iff n).mpr hn, h.stored, (h n).1]
    exact eq_comm

/-- Cell 1 holds 0, and a call that reads it presents a 7 to it without the enable. -/
theorem disabled_write_shows :
    let r : Ram256x32 := ⟨fun _ ↦ 0#32, 0#32⟩
    let calls : ℕ → Call := fun _ ↦ ⟨1#8, 1#8, 7#32, false⟩
    (∀ n, (calls n).wren = false) ∧ r.ram (calls 0).raddr = 0#32 ∧
      (r.states calls 1).rdata = 7#32 ∧
      (r.states calls 1).rdata ≠ r.stored calls 1 (calls 0).raddr := by
  intro r calls
  exact ⟨fun _ ↦ rfl, rfl, rfl, by decide⟩

end Ram256x32

/-! ## Both banks of a register file -/

namespace Regfile

variable (op : BitIndex) (r : Regfile) (ins : ℕ → RegfileIf)

/-- The register file after `n` ticks. -/
def states (n : ℕ) : Regfile := run (fun i r ↦ r.tick i) ins r n

/-- How tick `n` calls the first bank. -/
def call1 (n : ℕ) : Ram256x32.Call :=
  ⟨(ins n).raddr1.setWidth 8, (ins n).waddr.setWidth 8, (ins n).wdata, (ins n).wren⟩

/-- What a cell holds after `n` ticks: the value of the most recent enabled write to it,
or its initial contents. -/
def stored (n : ℕ) (a : BitVec 8) : BitVec 32 := r.ram1.stored (call1 ins) n a

/-- The word that the first port has got by tick `n`. -/
def latched : ℕ → BitVec 32
  | 0 => r.ram1.rdata
  | n + 1 =>
    if (call1 ins n).raddr = (call1 ins n).waddr then (call1 ins n).wdata
    else r.stored ins n (call1 ins n).raddr

/-- The word `i` is nothing but bit `i` of the word that the first port has got. -/
def Shown (n i : ℕ) : Prop :=
  r.stored ins n (BitVec.ofNat 8 i) = if op.bit (r.latched ins n) i then 1#32 else 0#32

variable {op r ins} {n i : ℕ}

/-- The first bank of a run is a run of the first bank. -/
theorem ram1_states (n : ℕ) : (r.states ins n).ram1 = r.ram1.states (call1 ins) n := by
  induction n with
  | zero => rfl
  | succ n ih =>
    rw [Ram256x32.states_succ, ← ih]
    rfl

theorem rdata_ram1 (n : ℕ) : (r.states ins n).ram1.rdata = r.latched ins n := by
  rw [ram1_states]
  cases n with
  | zero => rfl
  | succ n => exact Ram256x32.rdata_states n

/-- Every tick makes the same write to both banks. -/
theorem banks_tick (h : r.ram1.ram = r.ram2.ram) (i : RegfileIf) :
    (r.tick i).ram1.ram = (r.tick i).ram2.ram := by
  show (if i.wren then Function.update r.ram1.ram _ i.wdata else r.ram1.ram) =
    if i.wren then Function.update r.ram2.ram _ i.wdata else r.ram2.ram
  rw [h]

/-- A bit, as `get` returns it. -/
theorem setWidth_ofBool (b : Bool) :
    (BitVec.ofBool b).setWidth 32 = if b then 1#32 else 0#32 := by
  cases b <;> rfl

theorem get_eq_iff (n i : ℕ) :
    (r.states ins n).get op i = (r.states ins n).ram1.ram (BitVec.ofNat 8 i) ↔
      r.Shown op ins n i := by
  rw [get, rdata_ram1, setWidth_ofBool, ram1_states, Ram256x32.ram_states]
  exact eq_comm

/-- No register is displayed as it is that holds more than a bit. -/
theorem Shown.le_one (h : r.Shown op ins n i) :
    r.stored ins n (BitVec.ofNat 8 i) = 0#32 ∨ r.stored ins n (BitVec.ofNat 8 i) = 1#32 := by
  rw [Shown] at h
  rw [h]
  split_ifs
  · exact .inr rfl
  · exact .inl rfl

/-- After a harmless call the first port has got what the cell holds. -/
theorem latched_of_harmless (h : r.ram1.Harmless (call1 ins) n) :
    r.latched ins (n + 1) = r.stored ins (n + 1) (call1 ins n).raddr := by
  have hread := (Ram256x32.rdata_eq_stored_iff n).mpr h
  rw [Ram256x32.rdata_states] at hread
  exact hread

/-- A bit of a word that is no more than a bit. -/
theorem bit_of_le_one {w : BitVec 32} (hw : w = 0#32 ∨ w = 1#32) (hi : i < 32) :
    (if op.bit w i then 1#32 else 0#32) = if i = 0 then w else 0#32 := by
  rw [op.bit_of_lt w i hi]
  rcases hw with rfl | rfl
  · rw [BitVec.getLsbD_zero, if_neg Bool.false_ne_true, ite_self]
  · have hbit : (1#32).getLsbD i = decide (i = 0) := by
      rw [BitVec.getLsbD_one]
      exact Bool.true_and _
    rw [hbit]
    exact if_congr decide_eq_true_iff rfl rfl

/-- After a harmless call, the display is right if the first 32 registers are empty but for
one bit in the first, which is also what the register holds that was read. -/
theorem shown_iff_of_harmless (h : r.ram1.Harmless (call1 ins) n) :
    (∀ i < 256, r.Shown op ins (n + 1) i) ↔
      (r.stored ins (n + 1) 0#8 = 0#32 ∨ r.stored ins (n + 1) 0#8 = 1#32) ∧
      r.stored ins (n + 1) (call1 ins n).raddr = r.stored ins (n + 1) 0#8 ∧
      ∀ i < 256, i ≠ 0 → r.stored ins (n + 1) (BitVec.ofNat 8 i) =
        if i < 32 then 0#32 else if op.bit (r.stored ins (n + 1) 0#8) i then 1#32 else 0#32 := by
  have hlatch := latched_of_harmless h
  constructor
  · intro hall
    have hread := (hall _ (call1 ins n).raddr.isLt).le_one
    rw [BitVec.ofNat_toNat, BitVec.setWidth_eq, ← hlatch] at hread
    have hlow : ∀ i < 32, r.stored ins (n + 1) (BitVec.ofNat 8 i) =
        if i = 0 then r.latched ins (n + 1) else 0#32 := fun i hi ↦
      (hall i (Nat.lt_of_lt_of_le hi (by decide))).trans (bit_of_le_one hread hi)
    have hzero : r.stored ins (n + 1) 0#8 = r.latched ins (n + 1) := hlow 0 (by decide)
    refine ⟨hzero.symm ▸ hread, (hzero.trans hlatch).symm, fun i hi hne ↦ ?_⟩
    by_cases h32 : i < 32
    · rw [if_pos h32, hlow i h32, if_neg hne]
    · rw [if_neg h32, hzero]
      exact hall i hi
  · rintro ⟨hbit, hread, hrest⟩ i hi
    rw [Shown, hlatch, hread]
    by_cases h32 : i < 32
    · rw [bit_of_le_one hbit h32]
      by_cases hne : i = 0
      · subst hne
        rfl
      · rw [if_neg hne, hrest i hi hne, if_pos h32]
    · have hne : i ≠ 0 := fun h0 ↦ h32 (h0 ▸ by decide)
      rw [hrest i hi hne, if_neg h32]

/-- **The banks stay equal**, and a register is displayed as it is exactly if it holds no
more than a bit, the one with its number of the word that the first port read last.  After a
harmless call all of them are exactly if the first 32 are empty but for one bit in the
first, which is also what was read. -/
theorem banks_equal_shown_iff (op : BitIndex) (h : r.ram1.ram = r.ram2.ram)
    (ins : ℕ → RegfileIf) (n : ℕ) :
    (r.states ins n).ram1.ram = (r.states ins n).ram2.ram ∧
      (∀ i < 256, ((r.states ins n).get op i = (r.states ins n).ram1.ram (BitVec.ofNat 8 i) ↔
        r.Shown op ins n i)) ∧
      (r.ram1.Harmless (call1 ins) n → ((∀ i < 256, r.Shown op ins (n + 1) i) ↔
        (r.stored ins (n + 1) 0#8 = 0#32 ∨ r.stored ins (n + 1) 0#8 = 1#32) ∧
        r.stored ins (n + 1) (call1 ins n).raddr = r.stored ins (n + 1) 0#8 ∧
        ∀ i < 256, i ≠ 0 → r.stored ins (n + 1) (BitVec.ofNat 8 i) =
          if i < 32 then 0#32
          else if op.bit (r.stored ins (n + 1) 0#8) i then 1#32 else 0#32)) := by
  refine ⟨?_, fun i _ ↦ get_eq_iff n i, shown_iff_of_harmless⟩
  exact run_invariant (P := fun r : Regfile ↦ r.ram1.ram = r.ram2.ram) h
    (fun i _ h ↦ banks_tick h i) n

/-- Two banks whose cells all hold 5. -/
def fives : Regfile := ⟨⟨fun _ ↦ 5#32, 0#32⟩, ⟨fun _ ↦ 5#32, 0#32⟩⟩

/-- Nothing is written, and cell 7 is read. -/
def reading (_ : ℕ) : RegfileIf := ⟨7#12, 7#12, 0#12, 0#32, false⟩

theorem banks_equal_fives : (fives.states reading 3).ram1.ram = (fives.states reading 3).ram2.ram :=
  (banks_equal_shown_iff .bounded rfl reading 3).1

/-- A cell that holds 5, and was just read, is displayed as a bit of the 5. -/
theorem get_fives :
    fives.ram1.ram = fives.ram2.ram ∧ (fives.states reading 1).ram1.ram 0#8 = 5#32 ∧
      (fives.states reading 1).get .bounded 0 = 1#32 ∧
      (fives.states reading 1).get .bounded 0 ≠ (fives.states reading 1).ram1.ram 0#8 :=
  ⟨rfl, rfl, by decide, by decide⟩

end Regfile

end Pinwheel
