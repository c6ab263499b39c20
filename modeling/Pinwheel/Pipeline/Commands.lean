import Pinwheel.Pipeline.Machine
import Pinwheel.Pipeline.Switch

/-!
# What the core does in a turn

For each command, the instruction in stage B, and what it leaves to stage C, are the
turn that the machine has for it.
-/

namespace Pinwheel

open RV32I

/-- What a request puts out to the devices. -/
def TilelinkA.output (tla : TilelinkA) : Option Output :=
  if tla.aValid ∧ tla.isPut ∧ Core.page tla.aAddress ≠ 0xE#4 ∧ Core.page tla.aAddress ≠ 0x0#4 ∧
      Core.page tla.aAddress ≠ 0x8#4 then
    some ⟨tla.aOpcode, tla.aAddress, tla.aData, tla.aMask⟩
  else none

namespace Issue

/-- An instruction in stage B, of a thread with the given registers, does what a turn says,
but for what it may store to the program. -/
structure Acts {db : ℕ} (dc : DontCare) (mem : BitVec db → BitVec 32) (e : Issue)
    (x : BitVec 5 → BitVec 32) (t : Turn (db + 2)) : Prop where
  pc : (e.next dc).pc = t.pc.setWidth 24
  row : e.insn.isCsrrw csrSwap = false → (e.retire dc mem x).x = t.x
  stay : e.insn.isCsrrw csrSwap = true → x = t.x
  mem : ramBytes ((e.request dc).store Soc.dataMask Soc.dataTag mem) = t.mem
  swap : t.swap =
    if e.insn.isCsrrw csrSwap = true then some ⟨e.hpc.hart, e.insn.rd, e.op1⟩ else none
  goto : t.goto = if e.insn.isCsrrw csrYield = true then some e.op1 else none
  poke : t.poke =
    if e.insn.op = opStore ∧ Core.page (e.addr dc) = 0xE#4 then
      some ⟨(e.addr dc).extractLsb' 7 2, (e.addr dc).extractLsb' 2 5, e.op2⟩
    else none
  out : (e.request dc).output = t.out
  noLoad : e.insn.op = opLoad → Core.page (e.addr dc) ≠ 0xE#4

/-- It takes the turn, and leaves the program as it is. -/
structure Takes {db : ℕ} (dc : DontCare) (mem : BitVec db → BitVec 32) (e : Issue)
    (x : BitVec 5 → BitVec 32) (t : Turn (db + 2)) : Prop extends e.Acts dc mem x t where
  noCode : e.insn.op = opStore → Core.page (e.addr dc) ≠ 0x0#4

namespace Takes

variable {db : ℕ} {dc : DontCare} {mem : BitVec db → BitVec 32} {t : Thread} {i : Insn}
  {e : Issue}

/-! ## Requests -/

/-- Only stores put something out. -/
theorem output_of_op (h : e.insn.op ≠ opStore) : (e.request dc).output = none := by
  refine if_neg fun hput ↦ h ?_
  have hop : (e.insn.op == opStore) = true := (Executes.isPut_request e).symm.trans hput.2.1
  exact beq_iff_eq.mp hop

theorem output_of_page (h : Core.page (e.addr dc) = 0xE#4 ∨ Core.page (e.addr dc) = 0x0#4 ∨
    Core.page (e.addr dc) = 0x8#4) : (e.request dc).output = none := by
  refine if_neg ?_
  rintro ⟨-, -, hwindow, hcode, hdata⟩
  have haddr : (e.request dc).aAddress = e.addr dc := rfl
  rw [haddr] at hwindow hcode hdata
  rcases h with h | h | h
  · exact hwindow h
  · exact hcode h
  · exact hdata h

/-- What is put is valid, so that a put to another page goes out. -/
theorem output_of_isPut (hput : (e.request dc).isPut = true)
    (hpage : Core.page (e.request dc).aAddress ≠ 0xE#4 ∧ Core.page (e.request dc).aAddress ≠ 0x0#4 ∧
      Core.page (e.request dc).aAddress ≠ 0x8#4) :
    (e.request dc).output = some ⟨(e.request dc).aOpcode, (e.request dc).aAddress,
      (e.request dc).aData, (e.request dc).aMask⟩ := by
  have hstore : e.insn.op = opStore := beq_iff_eq.mp ((Executes.isPut_request e).symm.trans hput)
  have hvalid : (e.request dc).aValid = true := by
    have hdef : (e.request dc).aValid = (e.insn.op == opLoad || e.insn.op == opStore) := rfl
    rw [hdef, hstore]
    rfl
  exact if_pos ⟨hvalid, hput, hpage⟩

/-- A store to another page leaves the data RAM alone. -/
theorem store_request_of_page (h : Core.page (e.addr dc) ≠ 0x8#4) :
    (e.request dc).store Soc.dataMask Soc.dataTag mem = mem := by
  refine if_neg fun hs ↦ h ?_
  have hpage : Core.page (e.request dc).aAddress = Core.page Soc.dataTag :=
    Core.page_of_selects rfl hs.1
  exact hpage.trans (by decide)

/-- A store of one word is a full put. -/
theorem aOpcode_genBus {f3 : BitVec 3} {w : Rv32i.Width} (hw : Rv32i.storeOf f3 = some w)
    {a v : BitVec 32} :
    (genBus dc opStore f3 a v).aOpcode =
      if w = .word then TL.putFullData else TL.putPartialData := by
  obtain ⟨rfl, rfl⟩ | ⟨rfl, rfl⟩ | ⟨rfl, rfl⟩ := Rv32i.eq_of_storeOf hw <;> rfl

/-! ## System instructions -/

theorem isCsrrw_ne {csr csr' : BitVec 12} (h : i.isCsrrw csr = true) (hne : csr ≠ csr') :
    i.isCsrrw csr' = false := by
  rw [← Bool.not_eq_true]
  intro h'
  exact hne ((Soc.op_of_isCsrrw h).2.symm.trans (Soc.op_of_isCsrrw h').2)

/-- A system instruction only switches threads or writes a register. -/
theorem of_system {x : BitVec 5 → BitVec 32} {turn : Turn (db + 2)} (h : e.insn.op = opSystem)
    (hpc : turn.pc = e.hpc.pc.setWidth 32 + 4#32)
    (hrow : e.insn.isCsrrw csrSwap = false → (e.retire dc mem x).x = turn.x)
    (hstay : e.insn.isCsrrw csrSwap = true → x = turn.x)
    (hswap : turn.swap =
      if e.insn.isCsrrw csrSwap = true then some ⟨e.hpc.hart, e.insn.rd, e.op1⟩ else none)
    (hgoto : turn.goto = if e.insn.isCsrrw csrYield = true then some e.op1 else none)
    (hrest : turn.mem = ramBytes mem ∧ turn.poke = none ∧ turn.out = none) :
    e.Takes dc mem x turn := by
  obtain ⟨hmem, hpoke, hout⟩ := hrest
  have hload : e.insn.op ≠ opLoad := by
    rw [h]
    decide
  have hstore : e.insn.op ≠ opStore := by
    rw [h]
    decide
  refine ⟨⟨?_, hrow, hstay, ?_, hswap, hgoto, ?_, (output_of_op hstore).trans hout.symm,
    fun hl ↦ absurd hl hload⟩, fun hs ↦ absurd hs hstore⟩
  · rw [Executes.next_pc_system h, hpc]
  · rw [Executes.store_request hstore, hmem]
  · rw [hpoke, if_neg fun hs ↦ hstore hs.1]

theorem of_swap (h : i.isCsrrw csrSwap = true) :
    (t.issue i).Takes dc mem t.x
      { pc := t.toHart.pc + 4#32
        x := t.x
        mem := ramBytes mem
        swap := some ⟨t.hpc.hart, i.rd, t.toHart.read i.rs1⟩ } := by
  have hyield : i.isCsrrw csrYield = false := isCsrrw_ne h (by decide)
  refine of_system (Soc.op_of_isCsrrw h).1 rfl (fun hno ↦ ?_) (fun _ ↦ rfl) (if_pos h).symm ?_
    ⟨rfl, rfl, rfl⟩
  · exact absurd (h.symm.trans hno) (by decide)
  · exact (if_neg (ne_true_of_eq_false hyield)).symm

/-- A system instruction that is no swap writes its result. -/
theorem row_of_system {v pc : BitVec 32} (h : i.op = opSystem)
    (hv : (t.issue i).result dc = v) :
    ((t.issue i).retire dc mem t.x).x = (t.toHart.write i.rd v pc).x := by
  have hop : ∀ o, o ≠ opSystem → i.op ≠ o := fun o ho he ↦ ho (he.symm.trans h)
  refine Executes.retire_x (hop _ (by decide)) (hop _ (by decide)) ?_
  rw [Executes.value_of_op (hop opLoad (by decide)), hv]

theorem of_yield (h : i.isCsrrw csrYield = true) (ha : t.hpc.active = true) :
    (t.issue i).Takes dc mem t.x
      { pc := t.toHart.pc + 4#32
        x := (t.toHart.write i.rd
          (Hpc.toLogic ⟨t.hpc.active, t.hpc.hart, (t.toHart.pc + 4#32).setWidth 24⟩)
          (t.toHart.pc + 4#32)).x
        mem := ramBytes mem
        goto := some (t.toHart.read i.rs1) } := by
  have hop : i.op = opSystem := (Soc.op_of_isCsrrw h).1
  have hswap : i.isCsrrw csrSwap = false := isCsrrw_ne h (by decide)
  have hnext : (t.issue i).next dc =
      ⟨t.hpc.active, t.hpc.hart, (t.toHart.pc + 4#32).setWidth 24⟩ :=
    congrArg (Hpc.mk t.hpc.active t.hpc.hart) (Executes.next_pc_system (e := t.issue i) hop)
  have hresult : (t.issue i).result dc = ((t.issue i).next dc).toLogic :=
    if_pos ((Bool.and_eq_true _ _).mpr ⟨ha, h⟩)
  have hrow := @row_of_system _ _ mem _ _ _ (t.toHart.pc + 4#32) hop (hresult.trans (by rw [hnext]))
  refine of_system hop rfl (fun _ ↦ hrow) (fun hs ↦ ?_) ?_ (if_pos h).symm ⟨rfl, rfl, rfl⟩
  · exact absurd (hswap.symm.trans hs) (by decide)
  · exact (if_neg (ne_true_of_eq_false hswap)).symm

theorem of_hartid (hop : i.op = opSystem) (hf : i.f3 = f3Csrrw ∨ i.f3 = f3Csrrs)
    (hcsr : i.csr = mhartid) :
    (t.issue i).Takes dc mem t.x
      (.ofExec (t.toHart.write i.rd (t.hpc.hart.setWidth 32) (t.toHart.pc + 4#32),
        ramBytes mem)) := by
  have hno : ∀ csr, csr ≠ mhartid → i.isCsrrw csr = false := by
    intro csr hne
    rw [← Bool.not_eq_true]
    intro h
    exact hne ((Soc.op_of_isCsrrw h).2.symm.trans hcsr)
  have hswap := hno csrSwap (by decide)
  have hyield := hno csrYield (by decide)
  have hresult : (t.issue i).result dc = t.hpc.hart.setWidth 32 := by
    have hsystem : (t.issue i).result dc = executeSystem dc t.hpc.hart i := by
      have hinsn : (t.issue i).insn = i := rfl
      rw [Issue.result, execute, hinsn, hswap, hyield, Bool.and_false, hop]
      rfl
    rw [hsystem, executeSystem, hcsr]
    rcases hf with hf | hf <;> rw [hf] <;> rfl
  have hrow := @row_of_system _ _ mem _ _ _ (t.toHart.pc + 4#32) hop hresult
  refine of_system hop rfl (fun _ ↦ hrow) (fun hs ↦ ?_) ?_ ?_ ⟨rfl, rfl, rfl⟩
  · exact absurd (hswap.symm.trans hs) (by decide)
  · exact (if_neg (ne_true_of_eq_false hswap)).symm
  · exact (if_neg (ne_true_of_eq_false hyield)).symm

/-! ## RV32I -/

section Rv32i

variable {instr : Rv32i.Instr} {turn : Turn (db + 2)}

/-- A store that stays inside goes to the data RAM. -/
theorem page_of_inside (hd : Rv32i.decode i.raw = some instr)
    (hin : Inside t.toHart instr = true) (hop : i.op = opStore) :
    Core.page ((t.issue i).addr dc) = 0x8#4 := by
  cases Rv32i.encodes_of_decode hd with
  | store h hs =>
    have himm : decodeImm dc i = Rv32i.immS i.raw := by
      rw [decodeImm, hop]
      rfl
    have haddr : (t.issue i).addr dc = t.read i.rs1 + Rv32i.immS i.raw := congrArg _ himm
    rw [haddr]
    exact beq_iff_eq.mp ((Bool.and_eq_true _ _).mp hin).1
  | lui h | auipc h | jal h | jalr h => exact absurd (h.symm.trans hop) (by decide)
  | branch h _ | load h _ | opImm h _ | op h _ => exact absurd (h.symm.trans hop) (by decide)

/-- An instruction that stays inside does what RV32I says, and no more. -/
theorem of_inside (hd : Rv32i.decode i.raw = some instr) (hin : Inside t.toHart instr = true) :
    (t.issue i).Takes dc mem t.x (.ofExec (instr.exec t.toHart (ramBytes mem))) := by
  have hex := @Executes.of_decode _ dc mem _ _ _ hd hin
  have hno : ∀ {csr}, (t.issue i).insn.isCsrrw csr = false →
      ¬(t.issue i).insn.isCsrrw csr = true := ne_true_of_eq_false
  refine ⟨⟨hex.pc, fun _ ↦ hex.x, fun hs ↦ absurd hs (hno hex.tame.swap), hex.mem,
    (if_neg (hno hex.tame.swap)).symm, (if_neg (hno hex.tame.yield)).symm,
    (if_neg fun hs ↦ hex.tame.store hs.1 hs.2).symm, ?_, hex.tame.load⟩, hex.noCode⟩
  by_cases hop : i.op = opStore
  · exact output_of_page (.inr (.inr (page_of_inside hd hin hop)))
  · exact output_of_op hop

/-- A store that leaves the data RAM alone goes on at the next word and writes no register
of its own. -/
theorem acts_of_store (hop : i.op = opStore) (hpage : Core.page ((t.issue i).addr dc) ≠ 0x8#4)
    {poke : Option Poke} {out : Option Output}
    (hpoke : poke = if Core.page ((t.issue i).addr dc) = 0xE#4 then
      some ⟨((t.issue i).addr dc).extractLsb' 7 2, ((t.issue i).addr dc).extractLsb' 2 5,
        t.read i.rs2⟩ else none)
    (hout : ((t.issue i).request dc).output = out) :
    (t.issue i).Acts dc mem t.x ⟨t.toHart.pc + 4#32, t.x, ramBytes mem, none, none, poke, out⟩ := by
  have hsys : i.op ≠ opSystem := by
    rw [hop]
    decide
  have hload : i.op ≠ opLoad := by
    rw [hop]
    decide
  have hcsr : ∀ csr, ¬(t.issue i).insn.isCsrrw csr = true :=
    fun csr ↦ ne_true_of_eq_false (Executes.isCsrrw_of_op hsys csr)
  have hwrites : (t.issue i).writes = false := by
    have hdef : (t.issue i).writes = (i.rd != 0#5 && i.op != opStore && i.op != opBranch) := rfl
    rw [hdef, hop, bne_self_eq_false, Bool.and_false, Bool.false_and]
  refine ⟨Executes.next_pc (.inr (.inr (.inr (.inl hop)))),
    fun _ ↦ Executes.retire_x_of_not_writes hwrites, fun hs ↦ absurd hs (hcsr _),
    congrArg ramBytes (store_request_of_page hpage), (if_neg (hcsr _)).symm,
    (if_neg (hcsr _)).symm, hpoke.trans ?_, hout, fun hl ↦ absurd hl hload⟩
  exact if_congr (and_iff_right hop).symm rfl rfl

/-- A store elsewhere goes to the register window or to a device. -/
theorem of_store (hop : i.op = opStore) {w : Rv32i.Width} (hw : Rv32i.storeOf i.f3 = some w)
    (ht : Command.store t.toHart (ramBytes mem) w (t.read i.rs1 + Rv32i.immS i.raw)
      (t.read i.rs2) = some turn) :
    (t.issue i).Takes dc mem t.x turn := by
  have himm : decodeImm dc i = Rv32i.immS i.raw := by
    rw [decodeImm, hop]
    rfl
  have haddr : (t.issue i).addr dc = t.read i.rs1 + Rv32i.immS i.raw := congrArg _ himm
  rw [← haddr] at ht
  unfold Command.store at ht
  dsimp only at ht
  split_ifs at ht with hwindow hdevice
  · cases ht
    have hpage : Core.page ((t.issue i).addr dc) ≠ 0x0#4 ∧
        Core.page ((t.issue i).addr dc) ≠ 0x8#4 := by
      rw [hwindow]
      decide
    exact ⟨acts_of_store hop hpage.2 (if_pos hwindow).symm (output_of_page (.inl hwindow)),
      fun _ ↦ hpage.1⟩
  · cases ht
    have hput : ((t.issue i).request dc).output =
        some (.ofStore w ((t.issue i).addr dc) (t.read i.rs2)) := by
      have hreq : (t.issue i).request dc =
          genBus dc opStore i.f3 ((t.issue i).addr dc) (t.read i.rs2) := by
        rw [← hop]
        rfl
      rw [hreq, TilelinkA.output, if_pos ⟨rfl, Executes.isPut_genBus _ _ _ _, hwindow, hdevice.1,
        hdevice.2.1⟩, aMask_genBus hw, aData_genBus, aOpcode_genBus hw]
      rfl
    exact ⟨acts_of_store hop hdevice.2.1 (if_neg hwindow).symm hput, fun _ ↦ hdevice.1⟩

theorem of_instr (hd : Rv32i.decode i.raw = some instr)
    (ht : (Command.instr instr).turn t.hpc t.toHart (ramBytes mem) = some turn) :
    (t.issue i).Takes dc mem t.x turn := by
  unfold Command.turn at ht
  dsimp only at ht
  split_ifs at ht with hin
  · cases ht
    exact of_inside hd hin
  · cases Rv32i.encodes_of_decode hd with
    | store h hs => exact of_store h hs ht
    | lui _ | auipc _ | jal _ | jalr _ => cases ht
    | branch _ _ | load _ _ | opImm _ _ | op _ _ => cases ht

/-- **The core takes the turns of the machine.** -/
theorem of_decode {c : Command} (hd : Command.decode i.raw = some c) (ha : t.hpc.active = true)
    (ht : c.turn t.hpc t.toHart (ramBytes mem) = some turn) :
    (t.issue i).Takes dc mem t.x turn := by
  unfold Command.decode at hd
  dsimp only at hd
  split_ifs at hd with hswap hyield hhartid
  · cases hd
    cases ht
    exact of_swap hswap
  · cases hd
    cases ht
    exact of_yield hyield ha
  · cases hd
    cases ht
    exact of_hartid hhartid.1 hhartid.2.1 hhartid.2.2
  · obtain ⟨instr, hi, rfl⟩ := Option.map_eq_some_iff.mp hd
    exact of_instr hi ht

end Rv32i

end Takes

end Issue

end Pinwheel
