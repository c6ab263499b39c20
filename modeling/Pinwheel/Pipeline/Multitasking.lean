import Pinwheel.Pipeline.Commands
import Pinwheel.Pipeline.Reset
import Pinwheel.Pipeline.Window

/-!
# The pipeline is the machine

With its writes drained, the pipeline is in step with the machine for as long as the
machine runs, across the switches of the threads, and the data bus carries what the machine
puts out.  The machine does not run on a load from a device, a store to the program or a
`FENCE`, nor with two threads on one row of registers.  A swap in stage C has not written its
register yet: the handle it takes out is still in stage B.
-/

namespace Pinwheel

open Clocked RV32I

/-! ## Rows -/

/-- The registers in a register file. -/
def rowsOf (f : BitVec 8 → BitVec 32) : Rows :=
  fun row r ↦ if r = 0#5 then 0#32 else f (cell row r)

theorem rowsOf_update (f : BitVec 8 → BitVec 32) (row : BitVec 3) (r : BitVec 5) (v : BitVec 32) :
    rowsOf (Function.update f (cell row r) v) = (rowsOf f).set row r v := by
  funext row' r'
  by_cases hr : r = 0#5
  · rw [Rows.set, if_pos hr, rowsOf, rowsOf]
    split_ifs with hr'
    · rfl
    · rw [Function.update_of_ne fun h ↦ hr' ((cell_inj.mp h).2.trans hr)]
  · rw [Rows.set, if_neg hr]
    by_cases hrow : row' = row
    · subst hrow
      rw [Function.update_self, rowsOf]
      by_cases hrr : r' = r
      · rw [hrr, if_neg hr, Function.update_self, Function.update_self]
      · rw [Function.update_of_ne hrr, rowsOf, Function.update_of_ne fun h ↦ hrr (cell_inj.mp h).2]
    · rw [Function.update_of_ne hrow, rowsOf, rowsOf,
        Function.update_of_ne fun h ↦ hrow (cell_inj.mp h).1]

/-- A write to a register. -/
theorem rowsOf_apply {w : RegWrite} {row : BitVec 3} {r : BitVec 5} (h : w.target = cell row r)
    (f : BitVec 8 → BitVec 32) :
    rowsOf (w.apply f) = if w.en = true then (rowsOf f).set row r w.data else rowsOf f := by
  unfold RegWrite.apply
  split_ifs
  · rw [h, rowsOf_update]
  · rfl

theorem rowsOf_apply_of_off {w : RegWrite} {row : BitVec 3} (h : w.Off row)
    (f : BitVec 8 → BitVec 32) : rowsOf (w.apply f) row = rowsOf f row := by
  funext r
  unfold rowsOf
  split_ifs with hr
  · rfl
  · exact w.apply_of_miss f fun he ↦ h he r hr

/-- The cell that a store to the window writes. -/
theorem storeCell_eq (a : BitVec 32) :
    storeCell a = cell ((a.extractLsb' 7 2).setWidth 3) (a.extractLsb' 2 5) := by
  refine BitVec.eq_of_getLsbD_eq fun i hi ↦ ?_
  rw [storeCell, cell, BitVec.getLsbD_append]
  interval_cases i <;> simp

namespace Issue

variable {db : ℕ} {dc : DontCare} {e : Issue} {mem : BitVec db → BitVec 32}

theorem retire_of_not_writes {x : BitVec 5 → BitVec 32} (h : e.writes = false) :
    (e.retire dc mem x).x = x :=
  funext fun _ ↦ if_neg fun hw ↦ ne_true_of_eq_false h hw.1

/-- What an instruction writes is what it retires with. -/
theorem rowsOf_write (f : BitVec 8 → BitVec 32) :
    rowsOf ((e.write dc mem).apply f) = Function.update (rowsOf f) (rowOf e.hpc.hart)
      (e.retire dc mem (rowsOf f (rowOf e.hpc.hart))).x := by
  rw [rowsOf_apply (e.target_write dc mem)]
  have hen : (e.write dc mem).en = e.writes := rfl
  rw [hen]
  split_ifs with hw
  · have hrd : e.insn.rd ≠ 0#5 := by
      rintro h0
      rw [writes, h0, bne_self_eq_false, Bool.false_and, Bool.false_and] at hw
      exact Bool.false_ne_true hw
    rw [Rows.set, if_neg hrd]
    congr 1
    funext r
    have hx : (e.retire dc mem (rowsOf f (rowOf e.hpc.hart))).x r =
        if e.writes = true ∧ e.insn.rd = r then e.value dc mem
        else rowsOf f (rowOf e.hpc.hart) r := rfl
    rw [hx]
    by_cases hr : e.insn.rd = r
    · rw [if_pos ⟨hw, hr⟩, ← hr, Function.update_self]
      rfl
    · rw [if_neg fun h ↦ hr h.2, Function.update_of_ne (Ne.symm hr)]
  · rw [retire_of_not_writes (Bool.eq_false_iff.mpr hw), Function.update_eq_self]

end Issue

namespace Soc

variable {cb db : ℕ} (dc : DontCare) (s : Soc cb db)

/-! ## What a state of the pipeline stands for -/

/-- The register file without the write of a swap in stage C. -/
def settled : BitVec 8 → BitVec 32 := if s.core.cdSwap then s.committed else s.drained dc

/-- The state of the machine. -/
def machine : Machine db where
  a := s.core.aHpc
  b := s.core.bHpc
  swap :=
    if s.core.cdSwap then some ⟨s.core.cHpc.hart, s.core.cInsn.rd, s.core.cResult⟩ else none
  regs := rowsOf (s.settled dc)
  mem := ramBytes s.dataRam.ram.ram

/-- The thread in slot B. -/
def current : Thread := ⟨s.core.bHpc, rowsOf (s.settled dc) (rowOf s.core.bHpc.hart)⟩

variable {dc s} {dc' : DontCare}

/-- With a swap in stage C, what is drained is the settled file and the handle that the
swap takes out. -/
theorem swapped_machine :
    (s.machine dc).swapped (s.core.bcHpc dc s.coreIn) = rowsOf (s.drained dc) := by
  cases hs : s.core.cdSwap with
  | false =>
    have hswap : (s.machine dc).swap = none := if_neg (ne_true_of_eq_false hs)
    have hregs : s.settled dc = s.drained dc := if_neg (ne_true_of_eq_false hs)
    rw [Machine.swapped_of_none _ hswap]
    exact congrArg rowsOf hregs
  | true =>
    have hswap : (s.machine dc).swap = some ⟨s.core.cHpc.hart, s.core.cInsn.rd, s.core.cResult⟩ :=
      if_pos hs
    have hregs : (s.machine dc).regs = rowsOf s.committed := congrArg rowsOf (if_pos hs)
    have htarget : (s.cdWrite dc).target = cell (rowOf s.core.cHpc.hart) s.core.cInsn.rd := by
      rw [cdWrite_of_swap hs]
      exact regAddr_target _ _
    rw [Machine.swapped_of_swap _ hswap, drained, rowsOf_apply htarget, cdWrite_of_swap hs, hregs]
    by_cases hrd : s.core.cInsn.rd = 0#5
    · have hen : ¬(s.core.cInsn.rd != 0#5) = true := fun h ↦ bne_iff_ne.mp h hrd
      rw [if_neg hen]
      exact if_pos hrd
    · exact (if_pos (bne_iff_ne.mpr hrd)).symm

/-- A swap in stage C has its register in another row than the thread in stage B. -/
theorem rowsOf_drained {row : BitVec 3}
    (h : s.core.cHpc.active = true → rowOf s.core.cHpc.hart ≠ row) :
    rowsOf (s.drained dc) row = rowsOf (s.settled dc) row := by
  cases hs : s.core.cdSwap with
  | false =>
    have hregs : s.settled dc = s.drained dc := if_neg (ne_true_of_eq_false hs)
    rw [hregs]
  | true =>
    have hregs : s.settled dc = s.committed := if_pos hs
    rw [hregs, drained, rowsOf_apply_of_off]
    intro _ r _ ht
    rw [cdWrite_of_swap hs, RegWrite.target, regAddr_target] at ht
    exact h (cdSwap_iff.mp hs).1 (cell_inj.mp ht).1

/-- A row that the instruction in stage B does not write is settled after the tock. -/
theorem rowsOf_settled_tock {row : BitVec 3} (h : ((s.tock dc false).cdWrite dc').Off row) :
    rowsOf ((s.tock dc false).settled dc') row = rowsOf (s.drained dc) row := by
  unfold settled
  split_ifs
  · rw [committed_tock]
  · rw [drained_tock, rowsOf_apply_of_off h]

/-- An empty slot B writes nothing. -/
theorem off_of_idle (hi : s.core.bHpc.active = false) (dc' : DontCare) (row : BitVec 3) :
    ((s.tock dc false).cdWrite dc').Off row := by
  have hen : ((s.tock dc false).cdWrite dc').en = false := en_cdWrite hi
  exact fun he ↦ absurd (hen.symm.trans he) Bool.false_ne_true

/-- The forward from stage D is exact among the first eight harts. -/
theorem forwardAt_of_lt (ha : s.core.aHpc.hart.toNat < 8)
    (hc : s.core.cHpc.active = true → s.core.cHpc.hart.toNat < 8) (r : BitVec 5) :
    s.ForwardAt dc r := by
  intro hen ht
  have hlt : (s.cdWrite dc).addr.toNat < 256 := by
    have haddr : (s.cdWrite dc).addr = s.core.cdWaddr dc := rfl
    have hact := active_of_cdWrite hen
    rw [haddr, Core.cdWaddr, if_pos hact]
    split_ifs
    · have := (s.core.cAddr.extractLsb' 2 7).isLt
      rw [BitVec.toNat_setWidth]
      omega
    · have := hc hact
      have := s.core.cInsn.rd.isLt
      rw [BitVec.toNat_setWidth, toNat_regAddr]
      omega
  have hrow : (rowOf s.core.aHpc.hart).toNat = s.core.aHpc.hart.toNat := by
    rw [rowOf, BitVec.toNat_setWidth]
    exact Nat.mod_eq_of_lt ha
  have hr := r.isLt
  have hnat := congrArg BitVec.toNat ht
  rw [RegWrite.target, BitVec.toNat_setWidth, toNat_cell, hrow] at hnat
  refine BitVec.eq_of_toNat_eq ?_
  rw [BitVec.toNat_setWidth, toNat_regAddr]
  omega

/-! ## The simulation relation -/

/-- What holds of the stages, whatever the program is. -/
structure Held (s : Soc cb db) : Prop where
  mirrored : s.Mirrored
  idle : s.core.bHpc.active = false → s.core.bInsn = ⟨0#32⟩
  behind : s.core.cHpc.active = true → s.core.bHpc.active = true →
    rowOf s.core.cHpc.hart ≠ rowOf s.core.bHpc.hart
  hart : s.core.cHpc.active = true → s.core.cHpc.hart.toNat < 8

/-- The stages but B hold what the machine says. -/
structure Staged (code : BitVec cb → BitVec 32) (s : Soc cb db) : Prop extends Held s where
  program : s.codeRam.ram.ram = code
  fetched : s.core.aHpc.active = true →
    s.codeRam.ram.rdata = code (wordIndex cb (s.core.aHpc.pc.setWidth 32))
  writeCode : s.core.cdWriteCode = false

/-- So does stage B. -/
structure Tracked (code : BitVec cb → BitVec 32) (dc : DontCare) (s : Soc cb db) : Prop
    extends Staged code s where
  issued : s.core.bHpc.active = true → s.issue = (s.current dc).issue ((s.current dc).fetch code)

variable {code : BitVec cb → BitVec 32}

/-- The thread in stage A, with its registers drained. -/
theorem Held.inA (h : Held s) (hfit : (s.machine dc).Fit) (ha : s.core.aHpc.active = true) :
    s.InA dc ⟨s.codeRam.ram.rdata⟩
      ⟨s.core.aHpc, rowsOf (s.drained dc) (rowOf s.core.aHpc.hart)⟩ :=
  ⟨ha, rfl, rfl, holdsRow_rows _, fun r _ ↦ forwardAt_of_lt (hfit.a ha) h.hart r⟩

/-- The stages are kept. -/
theorem Held.tock (h : Held s) (hfit : (s.machine dc).Fit) : Held (s.tock dc false) :=
  ⟨h.mirrored.tock false, Core.abInsn_of_idle, fun hc ha ↦ Ne.symm (hfit.apart ha hc), hfit.b⟩

/-- The thread in stage A comes to stage B with the word that has been fetched for it, if the
turn in stage B does not write its registers. -/
theorem Held.issue_tock (h : Held s) (hfit : (s.machine dc).Fit) (hb : s.BypassSound)
    (hoff : s.core.aHpc.active = true →
      ((s.tock dc false).cdWrite dc').Off (rowOf s.core.aHpc.hart))
    (ha : s.core.aHpc.active = true) :
    (s.tock dc false).issue =
      ((s.tock dc false).current dc').issue (s.tock dc false).core.bInsn := by
  have hinsn : (s.tock dc false).core.bInsn = ⟨s.codeRam.ram.rdata⟩ := if_pos ha
  have hissue := ((h.inA hfit ha).tock h.mirrored hb (hoff ha)).issue
  have hcurrent : (s.tock dc false).current dc' =
      ⟨s.core.aHpc, rowsOf (s.drained dc) (rowOf s.core.aHpc.hart)⟩ :=
    congrArg (Thread.mk s.core.aHpc) (rowsOf_settled_tock (hoff ha))
  rw [hissue, hcurrent, hinsn]

/-- What holds of the stages but B is kept, if the turn in stage B does not write the program. -/
theorem Staged.tock (h : Staged code s) (hfit : (s.machine dc).Fit)
    (hcode : (s.tock dc false).core.cdWriteCode = false) : Staged code (s.tock dc false) := by
  have hprogram : (s.tock dc false).codeRam.ram.ram = code :=
    (codeRam_tock false fun _ ↦ h.writeCode).trans h.program
  refine ⟨h.toHeld.tock hfit, hprogram, fun ha ↦ ?_, hcode⟩
  have hact : (s.core.baHpc dc s.coreIn).active = true := ha
  rw [fetch_tock false (stealsCode_of_active hact), h.program]
  rfl

/-- **The relation is kept**, if the turn in stage B writes neither the registers of the
thread in stage A nor the program. -/
theorem Staged.tock_of_off (h : Staged code s) (hfit : (s.machine dc).Fit)
    (hb : s.BypassSound)
    (hoff : s.core.aHpc.active = true →
      ((s.tock dc false).cdWrite dc').Off (rowOf s.core.aHpc.hart))
    (hcode : (s.tock dc false).core.cdWriteCode = false) :
    Tracked code dc' (s.tock dc false) := by
  refine ⟨h.tock hfit hcode, fun ha ↦ ?_⟩
  have hact : s.core.aHpc.active = true := ha
  have hinsn : (s.tock dc false).core.bInsn = ⟨s.codeRam.ram.rdata⟩ := if_pos hact
  rw [h.issue_tock hfit hb hoff hact, hinsn, h.fetched hact]
  rfl

/-! ## Turns -/

section Turn

variable {t : Turn (db + 2)}

/-- The instruction in stage B takes the turn of the machine. -/
theorem Tracked.takes (h : Tracked code dc s) (ha : s.core.bHpc.active = true)
    (ht : (s.machine dc).turn code = some t) :
    s.issue.Takes dc s.dataRam.ram.ram (s.current dc).x t := by
  obtain ⟨c, hd, hc⟩ := Option.bind_eq_some_iff.mp ht
  rw [h.issued ha]
  exact Issue.Takes.of_decode hd ha hc

theorem cdSwap_tock (ha : s.core.bHpc.active = true) :
    (s.tock dc false).core.cdSwap = s.issue.insn.isCsrrw csrSwap := by
  have hdef : (s.tock dc false).core.cdSwap =
      (s.core.bHpc.active && s.issue.insn.isCsrrw csrSwap) := rfl
  rw [hdef, ha, Bool.true_and]

/-- A swap takes its target along to stage C. -/
theorem cResult_of_swap (ha : s.core.bHpc.active = true)
    (hs : s.issue.insn.isCsrrw csrSwap = true) :
    (s.tock dc false).core.cResult = s.issue.op1 := by
  have hyield : s.issue.insn.isCsrrw csrYield = false := Issue.Takes.isCsrrw_ne hs (by decide)
  have hdef : (s.tock dc false).core.cResult = s.issue.result dc := rfl
  have hact : s.issue.hpc.active = true := ha
  rw [hdef, Issue.result, execute, hyield, hs, hact, Bool.and_false, Bool.and_true]
  rfl

/-- Where the thread in stage B goes on. -/
theorem bcHpc_of_acts {x : BitVec 5 → BitVec 32}
    (h : s.issue.Acts dc s.dataRam.ram.ram x t) :
    s.core.bcHpc dc s.coreIn = ⟨s.core.bHpc.active, s.core.bHpc.hart, t.pc.setWidth 24⟩ :=
  congrArg (Hpc.mk s.core.bHpc.active s.core.bHpc.hart) h.pc

/-- The thread that enters stage A. -/
theorem entering_machine (next : Hpc) (hnext : s.core.bcHpc dc s.coreIn = next)
    {goto : Option (BitVec 32)}
    (hgoto : goto = if s.core.bcYield = true then some (s.core.bcReg1 s.coreIn) else none) :
    s.core.baHpc dc s.coreIn = (s.machine dc).entering next goto := by
  cases hs : s.core.cdSwap with
  | false =>
    have hswap : (s.machine dc).swap = none := if_neg (ne_true_of_eq_false hs)
    rw [Core.baHpc, hs, if_neg Bool.false_ne_true, hnext, hgoto]
    split_ifs
    · rw [Machine.entering_of_goto next hswap]
    · rw [Machine.entering_of_none next hswap]
  | true =>
    have hswap : (s.machine dc).swap = some ⟨s.core.cHpc.hart, s.core.cInsn.rd, s.core.cResult⟩ :=
      if_pos hs
    rw [Machine.entering_of_swap next hswap, Core.baHpc_of_swap hs]

/-- A yield in stage B, and a store that is not to the window, leave their write to
stage C like any instruction. -/
theorem cdWrite_of_acts {x : BitVec 5 → BitVec 32} (ha : s.core.bHpc.active = true)
    (h : s.issue.Acts dc s.dataRam.ram.ram x t) (hswap : s.issue.insn.isCsrrw csrSwap = false)
    (hpoke : ¬s.issue.StoresWindow dc) :
    (s.tock dc false).cdWrite dc' = s.issue.write dc s.dataRam.ram.ram := by
  cases hy : s.issue.insn.isCsrrw csrYield with
  | false =>
    exact cdWrite_tock dc' ha ⟨hswap, hy, h.noLoad, fun hop hpage ↦ hpoke ⟨ha, hop, hpage⟩⟩
  | true =>
    have hop : s.issue.insn.op = opSystem := (op_of_isCsrrw hy).1
    have hvalue : s.issue.value dc s.dataRam.ram.ram = (s.core.bcHpc dc s.coreIn).toLogic := by
      have hresult : s.issue.result dc = (s.core.bcHpc dc s.coreIn).toLogic :=
        if_pos ((Bool.and_eq_true _ _).mpr ⟨ha, hy⟩)
      rw [Executes.value_of_op fun hl ↦ absurd (hop.symm.trans hl) (by decide), hresult]
    have hwrites : s.issue.writes = (s.issue.insn.rd != 0#5) := by
      rw [Issue.writes, hop]
      simp [opSystem, opStore, opBranch]
    rw [cdWrite_of_yield (bcYield_iff.mpr ⟨ha, hy⟩), Issue.write, hvalue, hwrites]
    rfl

/-- A turn keeps off the other rows, but for what it stores to the window. -/
theorem off_of_acts {x : BitVec 5 → BitVec 32} (hfit : (s.machine dc).Fit)
    (hb : s.core.bHpc.active = true) (hacts : s.issue.Acts dc s.dataRam.ram.ram x t)
    (hspares : t.Spares s.core.aHpc) (ha : s.core.aHpc.active = true) (dc' : DontCare) :
    ((s.tock dc false).cdWrite dc').Off (rowOf s.core.aHpc.hart) := by
  by_cases hwindow : s.issue.StoresWindow dc
  · intro _ r _ htarget
    rw [(cdWrite_of_storesWindow hwindow dc').2.1, storeCell_eq] at htarget
    refine hspares ⟨(s.issue.addr dc).extractLsb' 7 2, (s.issue.addr dc).extractLsb' 2 5,
      s.issue.op2⟩ ?_ ha (cell_inj.mp htarget).1
    rw [hacts.poke, if_pos hwindow.2]
    rfl
  · exact off_cdWrite_tock dc' fun _ ↦
      ⟨Ne.symm (hfit.apart ha hb), fun hop hpage ↦ hwindow ⟨hb, hop, hpage⟩⟩

/-- The registers after a turn: a swap only leaves behind what was drained before, a
store to the window writes there, and anything else writes its own row. -/
theorem Held.regs_tock (h : Held s) (ha : s.core.bHpc.active = true)
    (hacts : s.issue.Acts dc s.dataRam.ram.ram (s.current dc).x t) (dc' : DontCare) :
    rowsOf ((s.tock dc false).settled dc') = ((s.machine dc).retire t).regs := by
  have hx : rowsOf (s.drained dc) (rowOf s.core.bHpc.hart) = (s.current dc).x :=
    rowsOf_drained fun hc ↦ h.behind hc ha
  have hregs : ((s.machine dc).retire t).regs =
      t.poked (Function.update (rowsOf (s.drained dc)) (rowOf s.core.bHpc.hart) t.x) := by
    rw [← swapped_machine, bcHpc_of_acts hacts]
    rfl
  have hcd := @cdSwap_tock _ _ dc s ha
  rw [hregs]
  cases hswap : s.issue.insn.isCsrrw csrSwap with
  | true =>
    have hop : s.issue.insn.op = opSystem := (op_of_isCsrrw hswap).1
    have hpoke : t.poke = none := by
      rw [hacts.poke, if_neg fun hs ↦ absurd (hop.symm.trans hs.1) (by decide)]
    have hsettled : (s.tock dc false).settled dc' = s.drained dc :=
      (if_pos (hcd.trans hswap)).trans committed_tock
    rw [Turn.poked_of_none hpoke, ← hacts.stay hswap, ← hx, Function.update_eq_self, hsettled]
  | false =>
    have hsettled : (s.tock dc false).settled dc' = (s.tock dc false).drained dc' :=
      if_neg (by rw [hcd, hswap]; exact Bool.false_ne_true)
    rw [hsettled, ← hacts.row hswap]
    by_cases hwindow : s.issue.StoresWindow dc
    · have hpoke : t.poke = some ⟨(s.issue.addr dc).extractLsb' 7 2,
          (s.issue.addr dc).extractLsb' 2 5, s.issue.op2⟩ := by
        rw [hacts.poke, if_pos hwindow.2]
      have hwrites : s.issue.writes = false := by
        rw [Issue.writes, hwindow.2.1, bne_self_eq_false, Bool.and_false, Bool.false_and]
      rw [Turn.poked_of_some hpoke, Issue.retire_of_not_writes hwrites, ← hx,
        Function.update_eq_self, drained_of_storesWindow hwindow, storeCell_eq, rowsOf_update]
      rfl
    · have hpoke : t.poke = none := by
        rw [hacts.poke, if_neg fun hs ↦ hwindow ⟨ha, hs⟩]
      rw [Turn.poked_of_none hpoke, drained_tock, cdWrite_of_acts ha hacts hswap hwindow,
        Issue.rowsOf_write, ← hx]
      rfl

/-- **What a thread in slot B does is its turn.** -/
theorem Held.tock_acts (h : Held s) (ha : s.core.bHpc.active = true)
    (hacts : s.issue.Acts dc s.dataRam.ram.ram (s.current dc).x t) (dc' : DontCare) :
    (s.tock dc false).machine dc' = (s.machine dc).retire t ∧
      (s.tock dc false).core.dataTla.output = t.out := by
  have hgoto : t.goto =
      if s.core.bcYield = true then some (s.core.bcReg1 s.coreIn) else none := by
    have hyield : s.core.bcYield = s.issue.insn.isCsrrw csrYield := by
      have hdef : s.core.bcYield = (s.core.bHpc.active && s.issue.insn.isCsrrw csrYield) := rfl
      rw [hdef, ha, Bool.true_and]
    rw [hyield]
    exact hacts.goto
  have hswap : ((s.tock dc false).machine dc').swap = t.swap := by
    have hdef : ((s.tock dc false).machine dc').swap =
        if (s.tock dc false).core.cdSwap = true then
          some ⟨s.core.bHpc.hart, s.core.bInsn.rd, (s.tock dc false).core.cResult⟩
        else none := rfl
    rw [hdef, cdSwap_tock ha, hacts.swap]
    split_ifs with hs
    · rw [cResult_of_swap ha hs]
      rfl
    · rfl
  have hmem : ramBytes (s.tock dc false).dataRam.ram.ram = t.mem := by
    rw [dataRam_tock, nextDataTla_eq]
    exact hacts.mem
  have hreq : (s.tock dc false).core.dataTla = s.issue.request dc := rfl
  refine ⟨Machine.ext (entering_machine _ (bcHpc_of_acts hacts) hgoto) rfl hswap
    (h.regs_tock ha hacts dc') hmem, ?_⟩
  rw [hreq]
  exact hacts.out

/-- **A tock with a thread in slot B** is its turn. -/
theorem Staged.tock_exec (h : Staged code s) (hfit : (s.machine dc).Fit)
    (hb : s.BypassSound) (ha : s.core.bHpc.active = true)
    (htakes : s.issue.Takes dc s.dataRam.ram.ram (s.current dc).x t)
    (hspares : t.Spares s.core.aHpc) (dc' : DontCare) :
    Tracked code dc' (s.tock dc false) ∧
      (s.tock dc false).machine dc' = (s.machine dc).retire t ∧
      (s.tock dc false).core.dataTla.output = t.out :=
  ⟨h.tock_of_off hfit hb
    (fun hact ↦ off_of_acts hfit ha htakes.toActs hspares hact dc')
    (Core.access_eq_false fun _ ↦ htakes.noCode), h.tock_acts ha htakes.toActs dc'⟩

end Turn

/-- The state after a tock with an empty slot B, which goes on wherever it is sent. -/
theorem machine_tock_of_idle (hi : s.core.bHpc.active = false) (h0 : s.core.bInsn = ⟨0#32⟩)
    (dc' : DontCare) :
    (s.tock dc false).machine dc' = (s.machine dc).rest dc.nextPc ∧
      (s.tock dc false).core.dataTla.output = none := by
  have hcact : (s.tock dc false).core.cHpc.active = false := hi
  have hop : s.issue.insn.op ≠ opStore := by
    have hinsn : s.issue.insn = ⟨0#32⟩ := h0
    rw [hinsn]
    decide
  have hnext : s.core.bcHpc dc s.coreIn = ⟨s.core.bHpc.active, s.core.bHpc.hart, dc.nextPc⟩ := by
    rw [Core.bcHpc, h0]
    rfl
  refine ⟨?_, Issue.Takes.output_of_op (e := s.issue) hop⟩
  have hentering : s.core.baHpc dc s.coreIn = ((s.machine dc).rest dc.nextPc).a := by
    refine entering_machine _ hnext (if_neg ?_).symm
    rw [Core.bcYield_of_idle hi]
    exact Bool.false_ne_true
  have hswap : ((s.tock dc false).machine dc').swap = none :=
    if_neg (by rw [Core.cdSwap_of_idle hcact]; exact Bool.false_ne_true)
  have hregs : ((s.tock dc false).machine dc').regs = ((s.machine dc).rest dc.nextPc).regs := by
    have hdef : ((s.machine dc).rest dc.nextPc).regs = (s.machine dc).swapped
        ⟨s.core.bHpc.active, s.core.bHpc.hart, dc.nextPc⟩ := rfl
    rw [hdef, ← hnext, swapped_machine]
    exact funext fun row ↦ rowsOf_settled_tock (off_of_idle hi dc' row)
  have hmem : ramBytes (s.tock dc false).dataRam.ram.ram = ramBytes s.dataRam.ram.ram := by
    rw [dataRam_tock, nextDataTla_eq, Executes.store_request hop]
  exact Machine.ext hentering rfl hswap hregs hmem

/-- **A tock with an empty slot B.** -/
theorem Staged.tock_idle (h : Staged code s) (hfit : (s.machine dc).Fit)
    (hb : s.BypassSound) (hi : s.core.bHpc.active = false) (dc' : DontCare) :
    Tracked code dc' (s.tock dc false) ∧
      (s.tock dc false).machine dc' = (s.machine dc).rest dc.nextPc ∧
      (s.tock dc false).core.dataTla.output = none := by
  have hcact : (s.tock dc false).core.cHpc.active = false := hi
  exact ⟨h.tock_of_off hfit hb (fun _ ↦ off_of_idle hi dc' _) (Core.access_of_idle hcact),
    machine_tock_of_idle hi (h.idle hi) dc'⟩

/-- **A turn of the machine is a tock.** -/
theorem Tracked.tock (h : Tracked code dc s) (hb : s.BypassSound) {σ : Machine db}
    {out : Option Output} (hstep : (s.machine dc).step code dc.nextPc = some (σ, out))
    (dc' : DontCare) :
    Tracked code dc' (s.tock dc false) ∧ (s.tock dc false).machine dc' = σ ∧
      (s.tock dc false).core.dataTla.output = out := by
  obtain ⟨hfit, ⟨ha, t, ht, hs, rfl, rfl⟩ | ⟨hi, rfl, rfl⟩⟩ := Machine.step_cases hstep
  · exact h.tock_exec hfit hb ha (h.takes ha ht) hs dc'
  · exact h.tock_idle hfit hb hi dc'

/-! ## Whole runs -/

section Run

variable {dcs : ℕ → DontCare} {n : ℕ} {σ : Machine db} {out : List Output}

theorem tracked_states (h : Tracked code (dcs 0) s)
    (hb : ∀ m < n, (states dcs s m).BypassSound)
    (hrun : Machine.run code (fun m ↦ (dcs m).nextPc) n (s.machine (dcs 0)) = some (σ, out)) :
    Tracked code (dcs n) (states dcs s n) ∧ (states dcs s n).machine (dcs n) = σ ∧
      emitted (fun m ↦ (states dcs s (m + 1)).core.dataTla.output) n = out := by
  refine eq_of_tryRun (P := fun m ↦ Tracked code (dcs m) (states dcs s m))
    (f := fun m ↦ (states dcs s m).machine (dcs m)) h (fun m hm hm' σ o hstep ↦ ?_) hrun
  rw [states_succ]
  exact hm'.tock (hb m hm) hstep (dcs (m + 1))

variable (s) in
/-- The state that the machine starts from, with the registers as they are in the
register file. -/
def initial : Machine db where
  a := s.core.aHpc
  b := s.core.bHpc
  swap := none
  regs := rowsOf s.file
  mem := ramBytes s.dataRam.ram.ram

theorem Ready.machine (h : s.Ready) : s.machine dc = s.initial := by
  have hswap : ¬s.core.cdSwap = true := by
    rw [Core.cdSwap_of_idle h.cIdle]
    exact Bool.false_ne_true
  have hsettled : s.settled dc = s.file :=
    (if_neg hswap).trans (funext fun a ↦ h.drained a)
  exact Machine.ext rfl rfl (if_neg hswap) (congrArg rowsOf hsettled) rfl

/-- A pipeline that is ready is in step with the machine. -/
theorem Ready.tracked (h : s.Ready) (hidle : s.core.bHpc.active = false → s.core.bInsn = ⟨0#32⟩)
    (dc : DontCare) : Tracked s.codeRam.ram.ram dc s := by
  have hsynced := h.synced (fun hi ↦ by rw [hidle hi]; decide) dc
  have hrows : rowsOf (s.settled dc) = s.rows dc := congrArg rowsOf (if_neg (by
    rw [hsynced.swap]
    exact Bool.false_ne_true))
  refine ⟨⟨⟨h.mirrored, hidle, hsynced.behind,
    fun hc ↦ absurd (h.cIdle.symm.trans hc) Bool.false_ne_true⟩, rfl, h.fetched,
    hsynced.writeCode⟩, fun ha ↦ ?_⟩
  have hcurrent : s.current dc = s.threadB dc := by rw [current, hrows, threadB]
  rw [hcurrent]
  exact hsynced.issue_eq ha

/-- **The pipeline refines the machine** from a ready start, for as long as the machine runs
and the register file's bypass does not hand out the data of a disabled write: state by
state, and the bus carries what the machine puts out and nothing else. -/
theorem machine_refines (h : s.Ready)
    (hidle : s.core.bHpc.active = false → s.core.bInsn = ⟨0#32⟩)
    (hb : ∀ m < n, (states dcs s m).BypassSound)
    (hrun : Machine.run s.codeRam.ram.ram (fun m ↦ (dcs m).nextPc) n s.initial =
      some (σ, out)) :
    (states dcs s n).machine (dcs n) = σ ∧
      emitted (fun m ↦ (states dcs s (m + 1)).core.dataTla.output) n = out := by
  rw [← @Ready.machine _ _ (dcs 0) _ h] at hrun
  exact (tracked_states (h.tracked hidle _) hb hrun).2

/-- Out of power-on hart 0 makes a handle of hart 1, at address 24, and swaps twice in a
row.  Hart 1 stores its `x0` to the debug register. -/
def stepper : Soc 3 1 :=
  let program := fun a ↦
    if a = 0#3 ∨ a = 1#3 then 0x81000137#32 else if a = 2#3 then 0x01810113#32
    else if a = 3#3 ∨ a = 4#3 then 0x80011173#32 else if a = 6#3 then 0xFE002823#32
    else 0x0000006F#32
  (blank program).resets (fun _ ↦ DontCare.const 0#32) 1

theorem stepper_ready : stepper.Ready := by
  refine ready_resets (show (blank _).Mirrored from rfl) ?_
  unfold FetchesBoot
  decide

theorem run_stepper : ∃ σ, Machine.run stepper.codeRam.ram.ram
    (fun _ ↦ (DontCare.const 0#32).nextPc) 9 stepper.initial =
      some (σ, [⟨TL.putFullData, 0xFFFFFFF0#32, 0#32, 0xF#4⟩]) := by
  have hout : (Machine.run stepper.codeRam.ram.ram (fun _ ↦ (DontCare.const 0#32).nextPc) 9
      stepper.initial).map Prod.snd = some [⟨TL.putFullData, 0xFFFFFFF0#32, 0#32, 0xF#4⟩] := by
    decide
  obtain ⟨⟨σ, out⟩, hrun, rfl⟩ := Option.map_eq_some_iff.mp hout
  exact ⟨σ, hrun⟩

/-- One store is put out. -/
theorem machine_refines_stepper :
    let dcs := fun _ : ℕ ↦ DontCare.const 0#32
    ∃ σ, Machine.run stepper.codeRam.ram.ram (fun m ↦ (dcs m).nextPc) 9 stepper.initial =
        some (σ, [⟨TL.putFullData, 0xFFFFFFF0#32, 0#32, 0xF#4⟩]) ∧
      (states dcs stepper 9).machine (dcs 9) = σ ∧
        emitted (fun m ↦ (states dcs stepper (m + 1)).core.dataTla.output) 9 =
          [⟨TL.putFullData, 0xFFFFFFF0#32, 0#32, 0xF#4⟩] := by
  intro dcs
  obtain ⟨σ, hrun⟩ := run_stepper
  refine ⟨σ, hrun, machine_refines stepper_ready (fun _ ↦ rfl) (fun m hm ↦ ?_) hrun⟩
  unfold BypassSound BypassAt
  interval_cases m <;> decide

/-- If `DONTCARE` names an `x0` for an idle stage C, the bypass does no harm after the first
tock, as long as no thread enters stage A that was in stage B two tocks before. -/
theorem sound_of_rested (hb : s.BypassSound) (hfirst : (states dcs s 1).BypassSound)
    (hdc : ∀ n, (dcs n).cdWaddr.setWidth 5 = 0#5)
    (hrest : ∀ m, m + 2 ≤ n → (∀ k < m + 2, (states dcs s k).BypassSound) →
      (states dcs s m).core.bHpc.active = true → (states dcs s (m + 2)).core.aHpc.active = true →
      rowOf (states dcs s m).core.bHpc.hart ≠ rowOf (states dcs s (m + 2)).core.aHpc.hart) :
    ∀ m ≤ n, (states dcs s m).BypassSound := by
  intro m
  induction m using Nat.strongRecOn with
  | _ m ih =>
    intro hm
    match m with
    | 0 => exact hb
    | 1 => exact hfirst
    | m + 2 =>
      -- Stage C has the thread of two turns before, in slot B.
      rw [states_succ]
      exact Soc.bypassSound_tock (hdc _) (hrest m hm fun k hk ↦ ih k hk (by omega))

/-- So it is in a run of the machine in which the threads are rested. -/
theorem tracked_sound (h : Tracked code (dcs 0) s) (hb : s.BypassSound)
    (hfirst : (states dcs s 1).BypassSound) (hdc : ∀ n, (dcs n).cdWaddr.setWidth 5 = 0#5)
    (hrun : Machine.run code (fun m ↦ (dcs m).nextPc) n (s.machine (dcs 0)) = some (σ, out))
    (hrest : (s.machine (dcs 0)).Rested code (fun m ↦ (dcs m).nextPc) n) :
    ∀ m ≤ n, (states dcs s m).BypassSound := by
  refine sound_of_rested hb hfirst hdc fun m hm hsound hc ha ↦ ?_
  obtain ⟨r, hr⟩ := exists_tryRun_of_le (show m ≤ n by omega) hrun
  obtain ⟨r', hr'⟩ := exists_tryRun_of_le hm hrun
  have hold : (states dcs s m).core.bHpc = r.1.b :=
    congrArg Machine.b (tracked_states h (fun k hk ↦ hsound k (by omega)) hr).2.1
  have hnew : (states dcs s (m + 2)).core.aHpc = r'.1.a :=
    congrArg Machine.a (tracked_states h hsound hr').2.1
  rw [hold] at hc ⊢
  rw [hnew] at ha ⊢
  exact hrest m hm r r' hr hr' hc ha

/-- **The bypass does no harm** in a run of the machine in which the threads are rested, if
it does none in the first tock and `DONTCARE` names an `x0` for an idle stage C. -/
theorem bypassSound_of_rested (h : s.Ready)
    (hidle : s.core.bHpc.active = false → s.core.bInsn = ⟨0#32⟩) (hb : s.BypassSound)
    (hdc : ∀ n, (dcs n).cdWaddr.setWidth 5 = 0#5)
    (hrun : Machine.run s.codeRam.ram.ram (fun m ↦ (dcs m).nextPc) n s.initial = some (σ, out))
    (hrest : s.initial.Rested s.codeRam.ram.ram (fun m ↦ (dcs m).nextPc) n) :
    ∀ m ≤ n, (states dcs s m).BypassSound := by
  have hfirst : (states dcs s 1).BypassSound := Soc.bypassSound_tock (hdc 0) fun hc ↦
    absurd (h.cIdle.symm.trans hc) Bool.false_ne_true
  rw [← @Ready.machine _ _ (dcs 0) _ h] at hrun hrest
  exact tracked_sound (h.tracked hidle _) hb hfirst hdc hrun hrest

theorem bypassSound_of_rested_stepper :
    (states (fun _ ↦ DontCare.const 0#32) stepper 9).BypassSound := by
  obtain ⟨σ, hrun⟩ := run_stepper
  exact bypassSound_of_rested stepper_ready (fun _ ↦ rfl) bypassSound_resets (fun _ ↦ rfl) hrun
    (by decide) 9 le_rfl

end Run

end Soc

end Pinwheel
