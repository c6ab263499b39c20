import Pinwheel.Pipeline.Multitasking
import Pinwheel.Synth.RegisterFile

/-!
# The pipeline with other register files

The register file of the SoC can be exchanged for one with other read ports.  The pipeline
still is the machine if the ports do not mistake the write in stage D, of which the core
knows nothing any more.  A port that hands out what the register will have never does.  Any
other port needs threads that keep out of each other's registers: stage A and stage D belong
to different threads.
-/

namespace Pinwheel

open Clocked RV32I

namespace Machine

variable {cb db : ℕ} (code : BitVec cb → BitVec 32) (σ : Machine db)

/-- Nobody stores to the registers of a thread that comes to slot A right after. -/
def Spared (free : ℕ → BitVec 24) (n : ℕ) : Prop :=
  ∀ m, m + 2 ≤ n → ∀ r r', run code free m σ = some r → run code free (m + 2) σ = some r' →
    r.1.b.active = true → ∀ t ∈ r.1.turn code, t.Spares r'.1.a

theorem spared_iff {free : ℕ → BitVec 24} {n : ℕ} :
    (∀ m < n - 1, ∀ r ∈ run code free m σ, ∀ r' ∈ run code free (m + 2) σ,
      r.1.b.active = true → ∀ t ∈ r.1.turn code, t.Spares r'.1.a) ↔ σ.Spared code free n := by
  constructor
  · intro h m hm r r' hr hr'
    exact h m (by omega) r hr r' hr'
  · intro h m hm r hr r' hr'
    exact h m (by omega) r r' hr hr'

instance (free : ℕ → BitVec 24) (n : ℕ) : Decidable (σ.Spared code free n) :=
  decidable_of_iff _ (spared_iff code σ)

end Machine

namespace Soc

variable {cb db : ℕ} (p : WordPort) (dc : DontCare) (s : Soc cb db)

/-- One tock with a register file that has the given read ports. -/
def tockBy (reset : Bool) : Soc cb db :=
  { s.tock dc reset with regs := s.regs.tickBy p (s.tock dc reset).core.regIf }

theorem tockBy_bypass (reset : Bool) : s.tockBy .bypass dc reset = s.tock dc reset := rfl

/-! ## Operands -/

/-- What a port reads. -/
def portReadBy (a : BitVec 8) : BitVec 32 :=
  if a = s.core.dWrite.target then p (s.file a) s.core.dWdata s.core.dWren else s.file a

/-- What stage B will see of a register of the hart in stage A. -/
def operandBy (r : BitVec 5) : BitVec 32 :=
  if (s.cdWrite dc).addr = (regAddr s.core.aHpc.hart r).setWidth 13 ∧ (s.cdWrite dc).en then
    (s.cdWrite dc).data
  else s.portReadBy p (cell (rowOf s.core.aHpc.hart) r)

/-- The ports do not mistake the write in stage D for what stage A reads. -/
def PortSound : Prop :=
  s.core.aHpc.active = true → ∀ r, r ≠ 0#5 →
    r = (s.core.abInsn s.coreIn).rs1 ∨ r = (s.core.abInsn s.coreIn).rs2 →
      s.core.dWrite.target = cell (rowOf s.core.aHpc.hart) r →
        p (s.file (cell (rowOf s.core.aHpc.hart) r)) s.core.dWdata s.core.dWren =
          ReadPort.new (s.file (cell (rowOf s.core.aHpc.hart) r)) s.core.dWdata s.core.dWren

variable {p dc s} {dc' : DontCare}

/-- What the register will have is no mistake. -/
theorem portSound_new : s.PortSound .new := fun _ _ _ _ _ ↦ rfl

/-- Nor is it any if stage D writes no register that stage A reads. -/
theorem portSound_of_ne (h : s.core.aHpc.active = true → ∀ r, r ≠ 0#5 →
    r = (s.core.abInsn s.coreIn).rs1 ∨ r = (s.core.abInsn s.coreIn).rs2 →
      s.core.dWrite.target ≠ cell (rowOf s.core.aHpc.hart) r) : s.PortSound p :=
  fun ha r hr hrs ht ↦ absurd ht (h ha r hr hrs)

theorem committed_of_target {a : BitVec 8} (h : s.core.dWrite.target = a) :
    s.committed a = ReadPort.new (s.file a) s.core.dWdata s.core.dWren := by
  cases hen : s.core.dWren with
  | true => exact s.core.dWrite.apply_of_hit s.file hen h
  | false => exact congrFun (committed_of_disabled hen) a

theorem portReadBy_eq_committed {a : BitVec 8}
    (h : s.core.dWrite.target = a →
      p (s.file a) s.core.dWdata s.core.dWren =
        ReadPort.new (s.file a) s.core.dWdata s.core.dWren) :
    s.portReadBy p a = s.committed a := by
  unfold portReadBy
  split_ifs with ha
  · rw [h ha.symm, committed_of_target ha.symm]
  · exact (s.core.dWrite.apply_of_miss s.file fun _ ↦ Ne.symm ha).symm

/-- **Operands are drained registers**, if port and forward are sound. -/
theorem operandBy_eq_drained {r : BitVec 5}
    (hp : s.portReadBy p (cell (rowOf s.core.aHpc.hart) r) =
      s.committed (cell (rowOf s.core.aHpc.hart) r)) (hf : s.ForwardAt dc r) :
    s.operandBy p dc r = s.drained dc (cell (rowOf s.core.aHpc.hart) r) := by
  unfold operandBy
  split_ifs with h
  · obtain ⟨haddr, hen⟩ := h
    refine ((s.cdWrite dc).apply_of_hit s.committed hen ?_).symm
    rw [RegWrite.target, haddr, regAddr_target]
  · rw [hp, drained, (s.cdWrite dc).apply_of_miss s.committed fun he ht ↦ h ⟨hf he ht, he⟩]

/-- A bank reads at the cell of the register that its port is given. -/
theorem rdata_tickBy {bank : Ram256x32} (hbank : bank.ram = s.file) {raddr : BitVec 12}
    {row : BitVec 3} {r : BitVec 5} (hraddr : raddr.setWidth 8 = cell row r) :
    (bank.tickBy p (raddr.setWidth 8) ((s.core.dWaddr.setWidth 12).setWidth 8) s.core.dWdata
      s.core.dWren).rdata = s.portReadBy p (cell row r) := by
  rw [hraddr, BitVec.setWidth_setWidth_of_le _ (by decide), portReadBy, ← hbank]
  rfl

theorem bcReg1_tockBy (ha : s.core.aHpc.active = true) :
    (s.tockBy p dc false).core.bcReg1 (s.tockBy p dc false).coreIn =
      if (s.core.abInsn s.coreIn).rs1 = 0#5 then 0#32
      else s.operandBy p dc (s.core.abInsn s.coreIn).rs1 := by
  have hraddr : (s.core.nextRegIf dc s.coreIn).raddr1 = _ := if_pos ha
  have hport : (s.tockBy p dc false).coreIn.reg1 = _ :=
    rdata_tickBy rfl (hraddr ▸ regAddr_cell _ _)
  rw [Core.bcReg1, Core.reg1, hport]
  rfl

theorem bcReg2_tockBy (hm : s.Mirrored) (ha : s.core.aHpc.active = true) :
    (s.tockBy p dc false).core.bcReg2 (s.tockBy p dc false).coreIn =
      if (s.core.abInsn s.coreIn).rs2 = 0#5 then 0#32
      else s.operandBy p dc (s.core.abInsn s.coreIn).rs2 := by
  have hraddr : (s.core.nextRegIf dc s.coreIn).raddr2 = _ := if_pos ha
  have hport : (s.tockBy p dc false).coreIn.reg2 = _ :=
    rdata_tickBy hm (hraddr ▸ regAddr_cell _ _)
  rw [Core.bcReg2, Core.reg2, hport]
  rfl

/-! ## What the ports do not touch -/

/-- But for a load from the register window, stage C does not look at the ports. -/
theorem cdWrite_tockBy (h : (s.tock dc false).core.cdReadRegfile = false) (hswap :
    (s.tock dc false).core.cdSwap = false) (dc' : DontCare) :
    (s.tockBy p dc false).cdWrite dc' = (s.tock dc false).cdWrite dc' := by
  have hback : (s.tockBy p dc false).core.cdWriteback dc' (s.tockBy p dc false).coreIn =
      (s.tock dc false).core.cdWriteback dc' (s.tock dc false).coreIn := by
    have hswap' : (s.tockBy p dc false).core.cdSwap = false := hswap
    have hread : (s.tockBy p dc false).core.cdReadRegfile = false := h
    rw [Core.cdWriteback, Core.cdWriteback, hswap, hswap', h, hread, if_neg Bool.false_ne_true,
      if_neg Bool.false_ne_true, if_neg Bool.false_ne_true, if_neg Bool.false_ne_true]
    rfl
  rw [cdWrite, cdWrite, Core.cdWrite, Core.cdWrite, Core.cdWdata, Core.cdWdata, hback]
  rfl

theorem settled_tockBy (h : (s.tock dc false).core.cdReadRegfile = false) (dc' : DontCare) :
    (s.tockBy p dc false).settled dc' = (s.tock dc false).settled dc' := by
  cases hswap : (s.tock dc false).core.cdSwap with
  | true =>
    have hl : (s.tockBy p dc false).settled dc' = (s.tock dc false).committed := if_pos hswap
    have hr : (s.tock dc false).settled dc' = (s.tock dc false).committed := if_pos hswap
    rw [hl, hr]
  | false =>
    have hl : (s.tockBy p dc false).settled dc' = (s.tockBy p dc false).drained dc' :=
      if_neg (ne_true_of_eq_false hswap)
    have hr : (s.tock dc false).settled dc' = (s.tock dc false).drained dc' :=
      if_neg (ne_true_of_eq_false hswap)
    rw [hl, hr, drained, cdWrite_tockBy h hswap]
    rfl

/-- The state of the machine does not depend on the ports. -/
theorem machine_tockBy (h : (s.tock dc false).core.cdReadRegfile = false) (dc' : DontCare) :
    (s.tockBy p dc false).machine dc' = (s.tock dc false).machine dc' :=
  Machine.ext rfl rfl rfl (congrArg rowsOf (settled_tockBy h dc')) rfl

theorem Held.tockBy (h : Held (s.tock dc false)) : Held (s.tockBy p dc false) :=
  ⟨h.mirrored, h.idle, h.behind, h.hart⟩

variable {code : BitVec cb → BitVec 32}

theorem Staged.tockBy (h : Staged code (s.tock dc false)) : Staged code (s.tockBy p dc false) :=
  ⟨h.toHeld.tockBy, h.program, h.fetched, h.writeCode⟩

/-! ## The simulation -/

/-- The thread in stage A comes to stage B with its registers. -/
theorem Held.issue_tockBy (h : Held s) (hfit : (s.machine dc).Fit) (hp : s.PortSound p)
    (hoff : s.core.aHpc.active = true →
      ((s.tock dc false).cdWrite dc').Off (rowOf s.core.aHpc.hart))
    (ha : s.core.aHpc.active = true) :
    (s.tockBy p dc false).issue =
      ((s.tock dc false).current dc').issue (s.tock dc false).core.bInsn := by
  have hin := h.inA hfit ha
  have hinsn : (s.tock dc false).core.bInsn = s.core.abInsn s.coreIn := rfl
  have hcurrent : (s.tock dc false).current dc' =
      ⟨s.core.aHpc, rowsOf (s.drained dc) (rowOf s.core.aHpc.hart)⟩ :=
    congrArg (Thread.mk s.core.aHpc) (rowsOf_settled_tock (hoff ha))
  have hread : ∀ r, r = (s.core.abInsn s.coreIn).rs1 ∨ r = (s.core.abInsn s.coreIn).rs2 →
      (if r = 0#5 then 0#32 else s.operandBy p dc r) = ((s.tock dc false).current dc').read r := by
    intro r hr
    rw [hcurrent, Thread.read]
    split_ifs with h0
    · rfl
    · rw [operandBy_eq_drained (portReadBy_eq_committed (hp ha r h0 hr)) (hin.forward r h0)]
      exact (if_neg h0).symm
  have h1 := (bcReg1_tockBy (p := p) ha).trans (hread _ (.inl rfl))
  have h2 := (bcReg2_tockBy (p := p) h.mirrored ha).trans (hread _ (.inr rfl))
  rw [issue, h1, h2, hinsn]
  rfl

/-- Stage B holds what the machine says, if the turn in it keeps off the thread in stage A. -/
theorem Staged.tracked_tockBy (h : Staged code s) (hfit : (s.machine dc).Fit) (hp : s.PortSound p)
    (hoff : s.core.aHpc.active = true →
      ((s.tock dc false).cdWrite dc').Off (rowOf s.core.aHpc.hart))
    (hcode : (s.tock dc false).core.cdWriteCode = false)
    (hread : (s.tock dc false).core.cdReadRegfile = false) :
    Tracked code dc' (s.tockBy p dc false) := by
  refine ⟨(h.tock hfit hcode).tockBy, fun ha ↦ ?_⟩
  have hact : s.core.aHpc.active = true := ha
  have hinsn : (s.tock dc false).core.bInsn = ⟨s.codeRam.ram.rdata⟩ := if_pos hact
  have hcurrent : (s.tockBy p dc false).current dc' = (s.tock dc false).current dc' :=
    congrArg (fun f ↦ Thread.mk s.core.aHpc (rowsOf f (rowOf s.core.aHpc.hart)))
      (settled_tockBy hread dc')
  rw [h.issue_tockBy hfit hp hoff hact, hinsn, h.fetched hact, hcurrent]
  rfl

/-- **A turn of the machine is a tock**, with any ports that are sound. -/
theorem Tracked.tockBy (h : Tracked code dc s) (hp : s.PortSound p) {σ : Machine db}
    {out : Option Output} (hstep : (s.machine dc).step code dc.nextPc = some (σ, out))
    (dc' : DontCare) :
    Tracked code dc' (s.tockBy p dc false) ∧ (s.tockBy p dc false).machine dc' = σ ∧
      (s.tockBy p dc false).core.dataTla.output = out := by
  obtain ⟨hfit, ⟨ha, t, ht, hs, rfl, rfl⟩ | ⟨hi, rfl, rfl⟩⟩ := Machine.step_cases hstep
  · have htakes := h.takes ha ht
    have hread : (s.tock dc false).core.cdReadRegfile = false :=
      Core.access_eq_false fun _ ↦ htakes.noLoad
    obtain ⟨hmachine, hout⟩ := h.tock_acts ha htakes.toActs dc'
    exact ⟨h.tracked_tockBy hfit hp
      (fun hact ↦ off_of_acts hfit ha htakes.toActs hs hact dc')
      (Core.access_eq_false fun _ ↦ htakes.noCode) hread, (machine_tockBy hread dc').trans hmachine,
      hout⟩
  · have hcact : (s.tock dc false).core.cHpc.active = false := hi
    obtain ⟨hmachine, hout⟩ := machine_tock_of_idle hi (h.idle hi) dc'
    exact ⟨h.tracked_tockBy hfit hp (fun _ ↦ off_of_idle hi dc' _) (Core.access_of_idle hcact)
      (Core.access_of_idle hcact), (machine_tockBy (Core.access_of_idle hcact) dc').trans hmachine,
      hout⟩

/-! ## Which ports are sound -/

/-- An active stage B leaves no write for the registers of a row that is not its own, unless
it stores there. -/
theorem target_ne_of_acts {t : Turn (db + 2)} {x : BitVec 5 → BitVec 32} {row : BitVec 3}
    (ha : s.core.bHpc.active = true) (hacts : s.issue.Acts dc s.dataRam.ram.ram x t)
    (hrow : rowOf s.core.bHpc.hart ≠ row) (hpoke : ∀ q ∈ t.poke, q.row ≠ row) (dc' : DontCare)
    (r : BitVec 5) : ((s.tock dc false).cdWrite dc').target ≠ cell row r := by
  intro ht
  by_cases hwindow : s.issue.StoresWindow dc
  · rw [(cdWrite_of_storesWindow hwindow dc').2.1, storeCell_eq] at ht
    refine hpoke ⟨(s.issue.addr dc).extractLsb' 7 2, (s.issue.addr dc).extractLsb' 2 5,
      s.issue.op2⟩ ?_ (cell_inj.mp ht).1
    rw [hacts.poke, if_pos hwindow.2]
    rfl
  · have hcact : (s.tock dc false).core.cHpc.active = true := ha
    have hstore : (s.tock dc false).core.cdWriteRegfile = false :=
      Core.access_eq_false fun _ hop hpage ↦ hwindow ⟨ha, hop, hpage⟩
    rw [RegWrite.target, addr_cdWrite hcact hstore, regAddr_target] at ht
    exact hrow (cell_inj.mp ht).1

/-- An idle stage C leaves `DONTCARE`, which names an `x0`. -/
theorem target_ne_of_idle (hi : s.core.cHpc.active = false) (hdc : dc.cdWaddr.setWidth 5 = 0#5)
    {row : BitVec 3} {r : BitVec 5} (hr : r ≠ 0#5) : (s.cdWrite dc).target ≠ cell row r := by
  intro ht
  have haddr : (s.cdWrite dc).addr = dc.cdWaddr.setWidth 13 := by
    have hdef : (s.cdWrite dc).addr = s.core.cdWaddr dc := rfl
    have hstore : s.core.cdWriteRegfile = false := Core.access_of_idle hi
    rw [hdef, Core.cdWaddr, hstore, if_neg Bool.false_ne_true, if_neg (ne_true_of_eq_false hi)]
  have hlow := congrArg (BitVec.setWidth 5) ht
  rw [RegWrite.target, haddr, BitVec.setWidth_setWidth_of_le _ (by decide),
    BitVec.setWidth_setWidth_of_le _ (by decide), hdc, cell,
    BitVec.setWidth_append_eq_right] at hlow
  exact hr hlow.symm

theorem portSound_tockBy_of_idle (hi : s.core.cHpc.active = false)
    (hdc : dc.cdWaddr.setWidth 5 = 0#5) : (s.tockBy p dc false).PortSound p := by
  refine portSound_of_ne fun _ r hr _ ↦ ?_
  have hwrite : (s.tockBy p dc false).core.dWrite = s.cdWrite dc := rfl
  rw [hwrite]
  exact target_ne_of_idle hi hdc hr

/-- What the reset leaves in stage D is for no register. -/
theorem portSound_resets {rcs : ℕ → DontCare} {k : ℕ} : (s.resets rcs (k + 1)).PortSound p := by
  refine portSound_of_ne fun _ r hr _ ht ↦ ?_
  have h0 : (s.resets rcs (k + 1)).core.dWrite.target = cell 0#3 0#5 :=
    (show _ = (0#13).setWidth 8 from rfl).trans (by decide)
  exact hr (cell_inj.mp (h0.symm.trans ht)).2.symm

/-! ## Runs -/

section Run

variable {dcs : ℕ → DontCare} {n : ℕ} {σ : Machine db} {out : List Output}

/-- The state after `n` tocks without reset. -/
def statesBy (p : WordPort) (dcs : ℕ → DontCare) (s : Soc cb db) (n : ℕ) : Soc cb db :=
  run (fun dc s ↦ s.tockBy p dc false) dcs s n

theorem statesBy_succ (n : ℕ) :
    statesBy p dcs s (n + 1) = (statesBy p dcs s n).tockBy p (dcs n) false := run_succ n

/-- The port of `ram_256x32` makes it a run of the SoC. -/
theorem statesBy_bypass (n : ℕ) : statesBy .bypass dcs s n = states dcs s n := by
  induction n with
  | zero => rfl
  | succ n ih => rw [statesBy_succ, ih, tockBy_bypass, states_succ]

theorem tracked_statesBy (h : Tracked code (dcs 0) s)
    (hp : ∀ m < n, (statesBy p dcs s m).PortSound p)
    (hrun : Machine.run code (fun m ↦ (dcs m).nextPc) n (s.machine (dcs 0)) = some (σ, out)) :
    Tracked code (dcs n) (statesBy p dcs s n) ∧ (statesBy p dcs s n).machine (dcs n) = σ ∧
      emitted (fun m ↦ (statesBy p dcs s (m + 1)).core.dataTla.output) n = out := by
  refine eq_of_tryRun (P := fun m ↦ Tracked code (dcs m) (statesBy p dcs s m))
    (f := fun m ↦ (statesBy p dcs s m).machine (dcs m)) h (fun m hm hm' σ o hstep ↦ ?_) hrun
  rw [statesBy_succ]
  exact hm'.tockBy (hp m hm) hstep (dcs (m + 1))

/-- Two tocks after a turn its write is in stage D, and stage A has a thread that neither had
the turn nor is written to. -/
theorem portSound_of_turn (h : Tracked code dc s) (hdc : dc'.cdWaddr.setWidth 5 = 0#5)
    {u : Soc cb db} (hu : u = (s.tockBy p dc false).tockBy p dc' false)
    (hrest : s.core.bHpc.active = true → u.core.aHpc.active = true →
      rowOf s.core.bHpc.hart ≠ rowOf u.core.aHpc.hart)
    (hturn : s.core.bHpc.active = true → ∃ t, (s.machine dc).turn code = some t ∧
      t.Spares u.core.aHpc) : u.PortSound p := by
  refine portSound_of_ne fun ha r hr _ ↦ ?_
  have htarget : u.core.dWrite.target = ((s.tock dc false).cdWrite dc').target := by
    rw [hu]
    rfl
  rw [htarget]
  cases hb : s.core.bHpc.active with
  | false =>
    have hcact : (s.tock dc false).core.cHpc.active = false := hb
    exact target_ne_of_idle hcact hdc hr
  | true =>
    obtain ⟨t, ht, hspares⟩ := hturn hb
    exact target_ne_of_acts hb (h.takes hb ht).toActs (hrest hb ha)
      (fun q hq ↦ hspares q hq ha) dc' r

/-- **Any ports are sound** in a run of the machine in which the threads are rested and
spared, if `DONTCARE` names an `x0` for an idle stage C. -/
theorem portSound_statesBy (h : Tracked code (dcs 0) s) (hp : s.PortSound p)
    (hfirst : (statesBy p dcs s 1).PortSound p) (hdc : ∀ n, (dcs n).cdWaddr.setWidth 5 = 0#5)
    (hrun : Machine.run code (fun m ↦ (dcs m).nextPc) n (s.machine (dcs 0)) = some (σ, out))
    (hrest : (s.machine (dcs 0)).Rested code (fun m ↦ (dcs m).nextPc) n)
    (hspared : (s.machine (dcs 0)).Spared code (fun m ↦ (dcs m).nextPc) n) :
    ∀ m ≤ n, (statesBy p dcs s m).PortSound p := by
  intro m
  induction m using Nat.strongRecOn with
  | _ m ih =>
    intro hm
    match m with
    | 0 => exact hp
    | 1 => exact hfirst
    | m + 2 =>
      have hsound : ∀ k < m + 2, (statesBy p dcs s k).PortSound p := fun k hk ↦
        ih k hk (by omega)
      obtain ⟨⟨τ, o⟩, hr⟩ := exists_tryRun_of_le (show m ≤ n by omega) hrun
      obtain ⟨r₁, hr₁⟩ := exists_tryRun_of_le (show m + 1 ≤ n by omega) hrun
      obtain ⟨⟨τ', o'⟩, hr'⟩ := exists_tryRun_of_le hm hrun
      obtain ⟨htracked, hmachine, -⟩ := tracked_statesBy h (fun k hk ↦ hsound k (by omega)) hr
      have hnew : (statesBy p dcs s (m + 2)).core.aHpc = τ'.a :=
        congrArg Machine.a (tracked_statesBy h hsound hr').2.1
      have hold : (statesBy p dcs s m).core.bHpc = τ.b := congrArg Machine.b hmachine
      refine portSound_of_turn htracked (hdc (m + 1)) rfl ?_ ?_
      · rw [hold, hnew]
        exact hrest m hm _ _ hr hr'
      · rw [hold, hnew, hmachine]
        intro hb
        -- The run goes on after this turn.
        obtain ⟨v, out', o₁, hbefore, hstep, -⟩ := step_of_tryRun_succ hr₁
        cases hr.symm.trans hbefore
        obtain ⟨-, ⟨-, t, ht, -⟩ | ⟨hi, -⟩⟩ := Machine.step_cases hstep
        · exact ⟨t, ht, hspared m hm _ _ hr hr' hb t ht⟩
        · exact absurd (hi.symm.trans hb) Bool.false_ne_true

end Run

end Soc

end Pinwheel
