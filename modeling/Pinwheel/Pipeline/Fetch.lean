import Pinwheel.Pipeline.Switch

/-!
# Fetch and code stores

The code RAM has one port.  It fetches for the thread that enters stage A; if that one
is inactive, stage C may use the port for an access of its own.  A fetch therefore
never misses a store, and never loses its word to one.
-/

namespace Pinwheel

open RV32I

namespace Soc

variable {cb db : ℕ} {dc : DontCare} {dcs : ℕ → DontCare} {s : Soc cb db}

/-- The word of the program that a handle points to. -/
def wordAt (s : Soc cb db) (h : Hpc) : BitVec 32 :=
  s.codeRam.ram.ram (wordIndex cb (h.pc.setWidth 32))

/-- The output latch of the code RAM holds the word for the thread in stage A. -/
def Coherent (s : Soc cb db) : Prop :=
  s.core.aHpc.active = true → s.codeRam.ram.rdata = s.wordAt s.core.aHpc

/-- A store in stage C gets the port of the code RAM. -/
def StoresCode (dc : DontCare) (s : Soc cb db) : Prop :=
  s.core.cdWriteCode = true ∧ (s.core.baHpc dc s.coreIn).active = false

/-! ## Fetches -/

/-- **Every tock leaves the latch coherent**, whoever enters stage A. -/
theorem coherent_tock (dc : DontCare) (s : Soc cb db) : (s.tock dc false).Coherent := by
  intro hact
  have hba : (s.core.baHpc dc s.coreIn).active = true := hact
  rw [fetch_tock false (stealsCode_of_active hba), wordAt, codeRam_tock_of_active false hba]
  rfl

/-- A thread executes the word it is at when it is in stage A. -/
theorem Coherent.bInsn (h : s.Coherent) (ha : s.core.aHpc.active = true) (dc : DontCare) :
    (s.tock dc false).core.bInsn = ⟨s.wordAt s.core.aHpc⟩ := by
  have hinsn : (s.tock dc false).core.bInsn = ⟨s.codeRam.ram.rdata⟩ := if_pos ha
  rw [hinsn, h ha]

/-- Nothing else changes the program. -/
theorem codeRam_of_not_storesCode (h : ¬s.StoresCode dc) (reset : Bool) :
    (s.tock dc reset).codeRam.ram.ram = s.codeRam.ram.ram := by
  refine codeRam_tock reset fun hsteal ↦ ?_
  rw [← Bool.not_eq_true]
  intro hwrite
  rw [Core.stealsCode, Bool.and_eq_true, Bool.not_eq_true'] at hsteal
  exact h ⟨hwrite, hsteal.2⟩

theorem codeRam_states {n k : ℕ}
    (h : ∀ m, n ≤ m → m < n + k → ¬(states dcs s m).StoresCode (dcs m)) :
    (states dcs s (n + k)).codeRam.ram.ram = (states dcs s n).codeRam.ram.ram := by
  induction k with
  | zero => rfl
  | succ k ih =>
    rw [← Nat.add_assoc, states_succ,
      codeRam_of_not_storesCode (h (n + k) (Nat.le_add_right n k) (Nat.lt_succ_self _))]
    exact ih fun m hn hk ↦ h m hn (Nat.lt_succ_of_lt hk)

/-! ## Stores -/

/-- The byte `b` of the code RAM is one of those that an access of some width at `a`
addresses, in the word of `a`. -/
def Addresses (w : Rv32i.Width) (a : BitVec 32) (b : BitVec (cb + 2)) : Prop :=
  b.extractLsb' 2 cb = wordIndex cb a ∧ lane a ≤ (b.setWidth 2).toNat ∧
    (b.setWidth 2).toNat < lane a + w.bytes

instance (w : Rv32i.Width) (a : BitVec 32) (b : BitVec (cb + 2)) : Decidable (Addresses w a b) :=
  inferInstanceAs (Decidable (_ ∧ _ ∧ _))

/-- An active thread has a store to the code in stage B. -/
structure CodeStore (dc : DontCare) (s : Soc cb db) (w : Rv32i.Width) : Prop where
  active : s.issue.hpc.active = true
  op : s.issue.insn.op = opStore
  width : Rv32i.storeOf s.issue.insn.f3 = some w
  page : Core.page (s.issue.addr dc) = 0x0#4

variable {w : Rv32i.Width}

/-- What it has in stage C. -/
theorem CodeStore.inC (h : s.CodeStore dc w) :
    (s.tock dc false).core.cdWriteCode = true ∧
      (s.tock dc false).core.cResult = s.issue.op2 := by
  constructor
  · exact Core.access_eq_true h.active h.op h.page
  · have hresult : (s.tock dc false).core.cResult = s.issue.result dc := rfl
    rw [hresult, Executes.result_eq h.op (by decide)]
    rfl

/-- A store that gets the port writes its lanes. -/
theorem CodeStore.codeRam {dc' : DontCare} (h : s.CodeStore dc w)
    (hidle : ((s.tock dc false).core.baHpc dc' (s.tock dc false).coreIn).active = false) :
    ((s.tock dc false).tock dc' false).codeRam.ram.ram =
      Function.update (s.tock dc false).codeRam.ram.ram (wordIndex cb (s.issue.addr dc))
        (mergeLanes ((s.tock dc false).codeRam.ram.ram (wordIndex cb (s.issue.addr dc)))
          (s.issue.op2 <<< (8 * lane (s.issue.addr dc))) (busMask w (s.issue.addr dc))) := by
  obtain ⟨hwrite, hresult⟩ := h.inC
  have hsteal : (s.tock dc false).core.stealsCode dc' (s.tock dc false).coreIn = true := by
    rw [Core.stealsCode, hwrite, hidle, Bool.or_true]
    rfl
  have htla : (s.tock dc false).core.nextCodeTla dc' (s.tock dc false).coreIn =
      genBus dc' opStore s.issue.insn.f3 (s.issue.addr dc) s.issue.op2 := by
    rw [Core.nextCodeTla, if_pos hsteal, hresult, ← h.op]
    rfl
  rw [codeRam_store_tock, htla]
  exact Executes.store_genBus h.width (by rw [h.page]; rfl)

/-- A store to the code, in stage B at the start, whose slot is followed by an idle one. -/
structure CodeStored (dcs : ℕ → DontCare) (s : Soc cb db) (w : Rv32i.Width) : Prop where
  /-- The addressed bytes of the addressed word change, and no others. -/
  bytes : ∀ b, ramBytes (states dcs s 2).codeRam.ram.ram b =
    if Addresses w (s.issue.addr (dcs 0)) b then
      s.issue.op2.extractLsb' (8 * ((b.setWidth 2).toNat - lane (s.issue.addr (dcs 0)))) 8
    else ramBytes (states dcs s 1).codeRam.ram.ram b
  /-- The immediate successor executes the old word, unless the thread has been swapped out. -/
  successor : s.core.cdSwap = false →
    (states dcs s 2).core.bHpc = s.issue.next (dcs 0) ∧
      (states dcs s 2).core.bInsn = ⟨(states dcs s 1).wordAt (s.issue.next (dcs 0))⟩
  /-- What enters stage A from now on executes the new one, until the next store. -/
  later : ∀ n, (∀ m, 2 ≤ m → m < 2 + n → ¬(states dcs s m).StoresCode (dcs m)) →
    (states dcs s (2 + n)).core.aHpc.active = true →
    (states dcs s (2 + n + 1)).core.bInsn =
      ⟨(states dcs s 2).wordAt (states dcs s (2 + n)).core.aHpc⟩

/-- A store to the code, in stage B at the start, whose slot is followed by an active one. -/
structure CodeKept (dcs : ℕ → DontCare) (s : Soc cb db) : Prop where
  code : (states dcs s 2).codeRam.ram.ram = (states dcs s 1).codeRam.ram.ram
  /-- The thread in stage A goes on with its word. -/
  bInsn : (states dcs s 1).core.aHpc.active = true →
    (states dcs s 2).core.bInsn = ⟨(states dcs s 1).wordAt (states dcs s 1).core.aHpc⟩
  /-- The thread that enters stage A is fetched for as without the store. -/
  rdata : (states dcs s 2).codeRam.ram.rdata = (states dcs s 1).wordAt (states dcs s 2).core.aHpc

theorem coherent_states (n : ℕ) : (states dcs s (n + 1)).Coherent := coherent_tock _ _

theorem CodeStore.stored (h : s.CodeStore (dcs 0) w)
    (hidle : (states dcs s 2).core.aHpc.active = false) : CodeStored dcs s w := by
  have hram : (states dcs s 2).codeRam.ram.ram = _ := h.codeRam hidle
  constructor
  · intro b
    rw [hram]
    exact ramBytes_merge w s.issue.op2 b
  · intro hs
    have hyield : s.issue.insn.isCsrrw csrYield = false :=
      Executes.isCsrrw_of_op (by rw [h.op]; decide) _
    have hnext : (states dcs s 1).core.aHpc = s.issue.next (dcs 0) := baHpc_eq hs hyield
    have hact : (states dcs s 1).core.aHpc.active = true := by
      rw [hnext]
      exact h.active
    refine ⟨hnext, ?_⟩
    rw [← hnext]
    exact (coherent_states 0).bInsn hact (dcs 1)
  · intro n hkeep hact
    have hcoherent : (states dcs s (2 + n)).Coherent := by
      rw [Nat.add_comm]
      exact coherent_states (n + 1)
    rw [states_succ, hcoherent.bInsn hact, wordAt, codeRam_states hkeep, ← wordAt]

theorem codeKept (hact : (states dcs s 2).core.aHpc.active = true) : CodeKept dcs s := by
  have hcode : (states dcs s 2).codeRam.ram.ram = (states dcs s 1).codeRam.ram.ram :=
    codeRam_tock_of_active false hact
  refine ⟨hcode, fun h ↦ (coherent_states 0).bInsn h (dcs 1), ?_⟩
  rw [coherent_states 1 hact, wordAt, hcode, ← wordAt]

/-- **Fetches are coherent**, after any tock without reset, and only a store in stage C
that gets the port changes the program.  A store to the code by an active thread, which is
in stage B now, is done two tocks later if an inactive handle enters stage A then, and not
done otherwise. -/
theorem fetch_coherent (dcs : ℕ → DontCare) (s : Soc cb db) :
    (∀ n, (states dcs s (n + 1)).Coherent) ∧
      (∀ n, ¬(states dcs s n).StoresCode (dcs n) →
        (states dcs s (n + 1)).codeRam.ram.ram = (states dcs s n).codeRam.ram.ram) ∧
      ∀ w, s.CodeStore (dcs 0) w →
        ((states dcs s 2).core.aHpc.active = false → CodeStored dcs s w) ∧
          ((states dcs s 2).core.aHpc.active = true → CodeKept dcs s) :=
  ⟨coherent_states, fun _ h ↦ codeRam_of_not_storesCode h false,
    fun _ h ↦ ⟨h.stored, codeKept⟩⟩

/-- A program out of reset. -/
def running (program : List (BitVec 32)) (n : ℕ) : Soc 4 1 :=
  states (fun _ ↦ DontCare.const 0#32)
    ((blank fun a : BitVec 4 ↦ program.getD a.toNat 0x0000006F#32).tock
      (DontCare.const 0#32) true) n

/-- `addi x1, x0, -1; sh x1, 27(x0)`. -/
def straddling : Soc 4 1 := running [0xFFF00093#32, 0xFFF00093#32, 0x00101DA3#32] 3

theorem codeStore_straddling : straddling.CodeStore (DontCare.const 0#32) .half := by
  constructor <;> decide

theorem fetch_coherent_straddling :
    CodeStored (fun _ ↦ DontCare.const 0#32) straddling .half :=
  ((fetch_coherent (fun _ ↦ DontCare.const 0#32) straddling).2.2 .half codeStore_straddling).1
    (by decide)

/-- Hart 0 starts hart 1 and executes `sw x2, 32(x0)` at address 28, to put a `nop` in place
of the `j .` that follows.  Just then hart 1 swaps it out, for itself, and yields to nobody,
so that the store gets the port; later it swaps hart 0 in again. -/
def swappedOut : Soc 4 1 :=
  running [0x810000B7#32, 0x810000B7#32, 0x02408093#32, 0x80009073#32, 0x01300113#32,
    0x00000013#32, 0x00000013#32, 0x02202023#32, 0x0000006F#32, 0x810001B7#32, 0x03418193#32,
    0x800192F3#32, 0x80101073#32, 0x80029073#32] 13

theorem codeStore_swappedOut : swappedOut.CodeStore (DontCare.const 0#32) .word := by
  constructor <;> decide +kernel

/-- A store of two bytes to address 27 stores the byte 27 and leaves the byte 28; and the
immediate successor of a store is the new word, if the thread has been away in between. -/
theorem code_stores_fall_short :
    let dcs := fun _ ↦ DontCare.const 0#32
    (straddling.CodeStore (dcs 0) .half ∧ straddling.issue.addr (dcs 0) = 27#32 ∧
      straddling.issue.op2 = 0xFFFFFFFF#32 ∧
      (states dcs straddling 2).core.aHpc.active = false ∧
      ramBytes (states dcs straddling 2).codeRam.ram.ram 27#6 = 0xFF#8 ∧
      ramBytes (states dcs straddling 2).codeRam.ram.ram 28#6 = 0x6F#8) ∧
    swappedOut.CodeStore (dcs 0) .word ∧ swappedOut.issue.next (dcs 0) = ⟨true, 0#7, 32#24⟩ ∧
      (states dcs swappedOut 2).core.aHpc.active = false ∧
      (states dcs swappedOut 1).wordAt (swappedOut.issue.next (dcs 0)) = 0x0000006F#32 ∧
      (states dcs swappedOut 5).core.bHpc = swappedOut.issue.next (dcs 0) ∧
      (states dcs swappedOut 5).core.bInsn = ⟨0x00000013#32⟩ :=
  ⟨⟨codeStore_straddling, by decide⟩, codeStore_swappedOut, by decide +kernel⟩

end Soc

end Pinwheel
