import Pinwheel.Lib.History
import Pinwheel.Pipeline.Window

/-!
# The R0s as storage

An `x0` reads as 0 because stage B looks at the register number.  The cell behind it
is an ordinary one, which no instruction names as its destination: it can be used as
storage, through the window.  But a store takes seven bits of its address for a cell, so
that stores to other addresses on the window's page reach it too.
-/

namespace Pinwheel

open Clocked RV32I

/-- A write as an entry of a history. -/
def RegWrite.entry (w : RegWrite) : Option (BitVec 8 × BitVec 32) :=
  if w.en then some (w.target, w.data) else none

theorem RegWrite.apply_eq_put (w : RegWrite) (f : BitVec 8 → BitVec 32) :
    w.apply f = put w.entry f := by
  rw [RegWrite.apply, RegWrite.entry]
  split_ifs <;> rfl

/-! ## Stores -/

namespace Issue

variable (dc : DontCare) (e : Issue) (a : BitVec 8)

/-- The instruction stores to the address of the cell. -/
def StoresAt : Prop := e.StoresWindow dc ∧ e.addr dc = windowAddr a

/-- The instruction stores to another address, but in the cell. -/
def Aliases : Prop := e.StoresWindow dc ∧ e.addr dc ≠ windowAddr a ∧ storeCell (e.addr dc) = a

instance : Decidable (e.StoresAt dc a) := inferInstanceAs (Decidable (_ ∧ _))

instance : Decidable (e.Aliases dc a) := inferInstanceAs (Decidable (_ ∧ _ ∧ _))

end Issue

namespace Soc

variable {cb db : ℕ} (dcs : ℕ → DontCare) (s : Soc cb db)

/-- The write of the instruction that is in stage B in the `n`-th state. -/
def regWrites (n : ℕ) : Option (BitVec 8 × BitVec 32) :=
  ((states dcs s (n + 1)).cdWrite (dcs (n + 1))).entry

/-- What the store to the window that is in stage B in the `n`-th state does. -/
def windowWrites (n : ℕ) : Option (BitVec 8 × BitVec 32) :=
  if (states dcs s n).issue.StoresWindow (dcs n) then
    some (storeCell ((states dcs s n).issue.addr (dcs n)), (states dcs s n).issue.op2)
  else none

/-- What the first `n` tocks have left in a cell of which the instructions write nothing, by
whatever address it was stored to. -/
def lastReached (n : ℕ) (a : BitVec 8) : BitVec 32 :=
  (latest (windowWrites dcs s) a n).getD (s.drained (dcs 0) a)

/-- What the instruction that is in stage B in the `n`-th state stores to the address of a
cell. -/
def storesAt (a : BitVec 8) (n : ℕ) : Option (BitVec 32) :=
  if (states dcs s n).issue.StoresAt (dcs n) a then some (states dcs s n).issue.op2 else none

/-- What was stored to the address of a cell last, in the first `n` tocks. -/
def lastStored (n : ℕ) (a : BitVec 8) : BitVec 32 :=
  (last (storesAt dcs s a) n).getD (s.drained (dcs 0) a)

/-- A disabled write in stage D names the cell. -/
def Bypassed (a : BitVec 8) : Prop := s.core.dWren = false ∧ s.core.dWrite.target = a

instance (a : BitVec 8) : Decidable (s.Bypassed a) := inferInstanceAs (Decidable (_ ∧ _))

variable {dcs s} {a : BitVec 8} {hart : BitVec 7} {row : BitVec 3} {n : ℕ}

/-- **The registers are the history of their writes.** -/
theorem drained_eq_latest (n : ℕ) (a : BitVec 8) :
    (states dcs s n).drained (dcs n) a =
      (latest (regWrites dcs s) a n).getD (s.drained (dcs 0) a) :=
  eq_latest (M := fun n ↦ (states dcs s n).drained (dcs n))
    (fun n ↦ (drained_tock (dcs (n + 1))).trans (RegWrite.apply_eq_put _ _)) n a

/-- An `x0` is no destination. -/
theorem rd_ne_zero_of_writes {e : Issue} (h : e.writes = true) : e.insn.rd ≠ 0#5 := by
  rw [Issue.writes, Bool.and_eq_true, Bool.and_eq_true] at h
  exact bne_iff_ne.mp h.1.1

/-- What writes an R0 is a store to the window. -/
theorem given_regWrites (n : ℕ) (row : BitVec 3) :
    given (regWrites dcs s n) (cell row 0#5) = given (windowWrites dcs s n) (cell row 0#5) := by
  by_cases hstore : (states dcs s n).issue.StoresWindow (dcs n)
  · obtain ⟨hen, htarget, hdata⟩ := cdWrite_of_storesWindow hstore (dcs (n + 1))
    rw [windowWrites, if_pos hstore, regWrites, states_succ, RegWrite.entry, if_pos hen, htarget,
      hdata]
  · rw [windowWrites, if_neg hstore, given_eq_none_iff.mpr]
    · rfl
    · intro b hb
      rw [regWrites, RegWrite.entry] at hb
      split_ifs at hb with hen
      obtain ⟨htarget, -⟩ := Prod.mk.inj (Option.some.inj hb)
      rcases target_cdWrite_tock (dcs (n + 1)) hen with ⟨hw, -⟩ | ⟨-, hw, ht⟩
      · exact hstore hw
      · exact rd_ne_zero_of_writes hw (cell_inj.mp (ht.symm.trans htarget)).2

/-- So its contents are what has reached it last. -/
theorem drained_eq_lastReached (n : ℕ) (row : BitVec 3) :
    (states dcs s n).drained (dcs n) (cell row 0#5) = lastReached dcs s n (cell row 0#5) := by
  rw [drained_eq_latest, lastReached, latest_congr fun m _ ↦ given_regWrites m row]

/-- In the lower half a store to the address of a cell reaches it. -/
theorem given_windowWrites (ha : a.toNat < 128)
    (halias : ¬(states dcs s n).issue.Aliases (dcs n) a) :
    given (windowWrites dcs s n) a = storesAt dcs s a n := by
  unfold windowWrites storesAt
  by_cases hstore : (states dcs s n).issue.StoresWindow (dcs n)
  · rw [if_pos hstore]
    refine if_congr ⟨fun hcell ↦ ⟨hstore, ?_⟩, fun h ↦ ?_⟩ rfl rfl
    · by_contra haddr
      exact halias ⟨hstore, haddr, hcell⟩
    · rw [h.2, (storeCell_windowAddr_eq_iff a).mpr ha]
  · rw [if_neg hstore, if_neg fun h ↦ hstore h.1]
    rfl

/-- What was stored last has reached the cell last, if no store has come by another address. -/
theorem lastReached_eq_lastStored (ha : a.toNat < 128)
    (halias : ∀ m < n, ¬(states dcs s m).issue.Aliases (dcs m) a) :
    lastReached dcs s n a = lastStored dcs s n a := by
  rw [lastReached, lastStored, latest_eq_last,
    last_congr fun m hm ↦ given_windowWrites ha (halias m hm)]

/-- An R0 keeps what it has in a tock without a store to it, unless one comes by another
address. -/
theorem drained_tock_iff {dc : DontCare} (dc' : DontCare)
    (hstore : ¬s.issue.StoresAt dc (cell row 0#5)) :
    (s.tock dc false).drained dc' (cell row 0#5) = s.drained dc (cell row 0#5) ↔
      (s.issue.Aliases dc (cell row 0#5) → s.issue.op2 = s.drained dc (cell row 0#5)) := by
  by_cases halias : s.issue.Aliases dc (cell row 0#5)
  · rw [drained_of_storesWindow halias.1, halias.2.2, Function.update_self]
    exact ⟨fun h _ ↦ h, fun h ↦ h halias⟩
  · refine iff_of_true (drained_tock_of_ne dc' (fun hw hcell ↦ ?_) fun hw ht ↦ ?_)
      fun h ↦ absurd h halias
    · by_cases haddr : s.issue.addr dc = windowAddr (cell row 0#5)
      · exact hstore ⟨hw, haddr⟩
      · exact halias ⟨hw, haddr, hcell⟩
    · exact rd_ne_zero_of_writes hw (cell_inj.mp ht).2

/-! ## Loads -/

/-- A load of an R0 of one of the first four harts is in stage B, and the other slot is
empty. -/
structure LoadsR0 (dc : DontCare) (s : Soc cb db) (hart : BitVec 7) : Prop where
  active : s.issue.hpc.active = true
  op : s.issue.insn.op = opLoad
  addr : s.issue.addr dc = mappedAddr hart 0#5
  hart : hart.toNat < 4
  aIdle : s.core.aHpc.active = false
  cIdle : s.core.cHpc.active = false

/-- A port reads the cell with the write in stage D done, but for a disabled one. -/
theorem portRead_eq (a : BitVec 8) :
    s.portRead a = if s.Bypassed a then s.core.dWdata else s.committed a := by
  split_ifs with h
  · exact if_pos h.2.symm
  · exact portRead_eq_committed fun hen ht ↦ absurd ⟨hen, ht⟩ h

/-- The load sees the writes of all instructions before it. -/
theorem LoadsR0.data {dc : DontCare} (h : s.LoadsR0 dc hart) (hm : s.Mirrored) (dc' : DontCare) :
    ((s.tock dc false).cdWrite dc').data =
      if s.Bypassed (cell (rowOf hart) 0#5) then s.core.dWdata
      else s.drained dc (cell (rowOf hart) 0#5) := by
  have hforward : ¬s.ForwardsIdle dc := fun hf ↦
    absurd (h.cIdle.symm.trans (active_of_cdWrite hf.2)) Bool.false_ne_true
  rw [cdWrite_of_mapped hm h.aIdle h.active h.op h.addr, mappedRead, if_neg hforward,
    drained_of_idle h.cIdle, portRead_eq]

/-- **`x0` is hardwired and the R0s are storage**: in every run the operands that name an
`x0` are 0.  In a tock without a store to its address an R0 keeps what it has, exactly if no
store comes by another address, or it carries the same value.  A load gets what was stored to
the address last, exactly if that is what a disabled write in stage D that names the R0
carries, or without one what has reached the R0 last: the same, if no store has come by
another address. -/
theorem r0_storage_iff (hm : s.Mirrored) (dcs : ℕ → DontCare) :
    (∀ n, ((states dcs s n).issue.insn.rs1 = 0#5 → (states dcs s n).issue.op1 = 0#32) ∧
      ((states dcs s n).issue.insn.rs2 = 0#5 → (states dcs s n).issue.op2 = 0#32)) ∧
    (∀ n row, ¬(states dcs s n).issue.StoresAt (dcs n) (cell row 0#5) →
      ((states dcs s (n + 1)).drained (dcs (n + 1)) (cell row 0#5) =
          (states dcs s n).drained (dcs n) (cell row 0#5) ↔
        ((states dcs s n).issue.Aliases (dcs n) (cell row 0#5) →
          (states dcs s n).issue.op2 = (states dcs s n).drained (dcs n) (cell row 0#5)))) ∧
    (∀ n hart, (states dcs s n).LoadsR0 (dcs n) hart →
      (((states dcs s (n + 1)).cdWrite (dcs (n + 1))).data =
          lastStored dcs s n (cell (rowOf hart) 0#5) ↔
        (if (states dcs s n).Bypassed (cell (rowOf hart) 0#5) then (states dcs s n).core.dWdata
          else lastReached dcs s n (cell (rowOf hart) 0#5)) =
          lastStored dcs s n (cell (rowOf hart) 0#5))) ∧
    ∀ n (row : BitVec 3), row.toNat < 4 →
      (∀ m < n, ¬(states dcs s m).issue.Aliases (dcs m) (cell row 0#5)) →
        lastReached dcs s n (cell row 0#5) = lastStored dcs s n (cell row 0#5) := by
  refine ⟨fun n ↦ ⟨fun h ↦ if_pos h, fun h ↦ if_pos h⟩, fun n row hstore ↦ ?_,
    fun n hart h ↦ ?_, fun n row hrow halias ↦ ?_⟩
  · exact drained_tock_iff (dcs (n + 1)) hstore
  · rw [states_succ, h.data (hm.states dcs n) (dcs (n + 1)), drained_eq_lastReached]
  · refine lastReached_eq_lastStored ?_ halias
    rw [toNat_cell, BitVec.toNat_ofNat]
    omega

/-- `sw x2, 0(x1); addi x5, x0, 1; lw x3, 0(x1)`: the load gets the 7. -/
theorem r0_storage_windowing :
    let s := windowing [0x0020A023#32, 0x00100293#32, 0x0000A183#32] 5
    let dcs := fun _ ↦ DontCare.const 0#32
    ((states dcs s 5).cdWrite (dcs 5)).data = lastStored dcs s 4 0#8 ∧
      lastStored dcs s 4 0#8 = 7#32 := by
  intro s dcs
  have hload : (states dcs s 4).LoadsR0 (dcs 4) 0#7 := by
    constructor <;> decide
  exact ⟨((r0_storage_iff (mirrored_windowing _ 5) dcs).2.2.1 4 0#7 hload).mpr (by decide),
    by decide⟩

/-- `sw x2, 0(x1); addi x0, x0, 5; lw x3, 0(x1)`: the load gets the 5 that `addi` does not
write.  `sw x2, 0(x1); sw x1, 512(x1); lw x3, 0(x1)`: the second store is one to `x0` of
hart 4, but the load gets what it carries. -/
theorem r0_storage_fails :
    let dcs := fun _ ↦ DontCare.const 0#32
    let s := windowing [0x0020A023#32, 0x00500013#32, 0x0000A183#32] 5
    let s' := windowing [0x0020A023#32, 0x2010A023#32, 0x0000A183#32] 5
    ((∀ n ≤ 4, (states dcs s n).core.aHpc.active = false ∨
        (states dcs s n).core.bHpc.active = false) ∧
      (states dcs s 4).LoadsR0 (dcs 4) 0#7 ∧ (states dcs s 4).issue.insn.f3 = f3Lw ∧
      (s.issue.StoresAt (dcs 0) 0#8 ∧ s.issue.op2 = 7#32) ∧
      lastStored dcs s 4 0#8 = 7#32 ∧ ((states dcs s 5).cdWrite (dcs 5)).data = 5#32) ∧
    (∀ n ≤ 4, (states dcs s' n).core.aHpc.active = false ∨
        (states dcs s' n).core.bHpc.active = false) ∧
      (states dcs s' 4).LoadsR0 (dcs 4) 0#7 ∧ (states dcs s' 4).issue.insn.f3 = f3Lw ∧
      (s'.issue.StoresAt (dcs 0) 0#8 ∧ s'.issue.op2 = 7#32) ∧
      (states dcs s' 2).issue.StoresAt (dcs 2) 128#8 ∧
      ((states dcs s' 2).drained (dcs 2) 0#8 = 7#32 ∧
        (states dcs s' 3).drained (dcs 3) 0#8 = 0xE0000000#32) ∧
      lastStored dcs s' 4 0#8 = 7#32 ∧
      ((states dcs s' 5).cdWrite (dcs 5)).data = 0xE0000000#32 := by
  intro dcs s s'
  refine ⟨⟨by decide, ?_, by decide⟩, by decide, ?_, by decide⟩
  all_goals constructor <;> decide

end Soc

end Pinwheel
