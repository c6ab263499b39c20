import Pinwheel.Lib.History
import Pinwheel.Pipeline.Requests

/-!
# A RAM as a byte memory

A RAM behind its bus adapter receives one request of the core after another, loads and
stores of any size at any address.  Each byte of it is what was stored there last, and
an answer that `unpack_mem` takes apart is a load from these bytes.
-/

namespace Pinwheel

open Clocked RV32I

/-- What `gen_bus` makes a request of. -/
structure BusRequest where
  dc : DontCare
  op : BitVec 7
  f3 : BitVec 3
  addr : BitVec 32
  value : BitVec 32

namespace BusRequest

variable (q : BusRequest) {bits : ℕ}

def tla : TilelinkA := genBus q.dc q.op q.f3 q.addr q.value

/-- `LB`, `LH`, `LW`, `LBU` or `LHU`. -/
def Loads (w : Rv32i.Width) (signed : Bool) : Prop :=
  q.op = opLoad ∧ Rv32i.loadOf q.f3 = some (w, signed)

/-- `SB`, `SH` or `SW`. -/
def Stores (w : Rv32i.Width) : Prop := q.op = opStore ∧ Rv32i.storeOf q.f3 = some w

/-- How far a byte of the RAM lies behind the address. -/
def distance (b : BitVec (bits + 2)) : ℕ := (b - q.addr.setWidth (bits + 2)).toNat

/-- What the request stores in a byte of a RAM.  Of a store that crosses a word, the
bytes behind the word are lost. -/
def stored (addrMask addrTag : BitVec 32) (b : BitVec (bits + 2)) : Option (BitVec 8) :=
  if q.op = opStore ∧ q.addr &&& addrMask = addrTag then
    match Rv32i.storeOf q.f3 with
    | none => none
    | some w =>
      if q.distance b < w.bytes ∧ lane q.addr + q.distance b < 4 then
        some (q.value.extractLsb' (8 * q.distance b) 8)
      else none
  else none

variable {q} {addrMask addrTag : BitVec 32}

theorem stored_of_stores {w : Rv32i.Width} (hs : q.Stores w)
    (hr : q.addr &&& addrMask = addrTag) (b : BitVec (bits + 2)) :
    q.stored addrMask addrTag b =
      if q.distance b < w.bytes ∧ lane q.addr + q.distance b < 4 then
        some (q.value.extractLsb' (8 * q.distance b) 8)
      else none := by
  rw [stored, if_pos ⟨hs.1, hr⟩, hs.2]

/-- No store reaches a byte behind its width. -/
theorem stored_of_outside {w : Rv32i.Width} (hs : q.Stores w) {b : BitVec (bits + 2)}
    (hb : w.bytes ≤ q.distance b) : q.stored addrMask addrTag b = none := by
  rw [stored, hs.2]
  split_ifs
  · exact if_neg fun h ↦ Nat.not_lt.mpr hb h.1
  · rfl

/-- The lanes of a store, as distances. -/
theorem lanes_iff (w : Rv32i.Width) (b : BitVec (bits + 2)) :
    (b.extractLsb' 2 bits = wordIndex bits q.addr ∧ lane q.addr ≤ (b.setWidth 2).toNat ∧
        (b.setWidth 2).toNat < lane q.addr + w.bytes) ↔
      q.distance b < w.bytes ∧ lane q.addr + q.distance b < 4 := by
  have hb : (b.setWidth 2).toNat < 4 := (b.setWidth 2).isLt
  have ha := lane_lt q.addr
  have hmin : lane q.addr + min w.bytes (4 - lane q.addr) ≤ 4 := by omega
  have hd := distance_lt_iff hmin b
  rw [← distance] at hd
  constructor
  · rintro ⟨hword, hle, hlt⟩
    have := hd.mpr ⟨hword, hle, by omega⟩
    omega
  · rintro ⟨hw, h4⟩
    obtain ⟨hword, hle, hlt⟩ := hd.mp (by omega)
    exact ⟨hword, hle, by omega⟩

/-- **One request**: each byte of the RAM is kept unless the request stores in it. -/
theorem ramBytes_store (q : BusRequest) (mem : BitVec bits → BitVec 32) (b : BitVec (bits + 2)) :
    ramBytes (q.tla.store addrMask addrTag mem) b =
      (q.stored addrMask addrTag b).getD (ramBytes mem b) := by
  have hput : q.tla.isPut = (q.op == opStore) := Executes.isPut_genBus _ _ _ _
  by_cases hin : q.op = opStore ∧ q.addr &&& addrMask = addrTag
  · obtain ⟨hop, hr⟩ := hin
    have htla : q.tla = genBus q.dc opStore q.f3 q.addr q.value := by rw [tla, hop]
    cases hw : Rv32i.storeOf q.f3 with
    | some w =>
      rw [stored_of_stores ⟨hop, hw⟩ hr, htla, Executes.store_genBus_of_selects hw hr,
        ramBytes_merge]
      by_cases hl : q.distance b < w.bytes ∧ lane q.addr + q.distance b < 4
      · have hlanes := (lanes_iff w b).mpr hl
        rw [if_pos hlanes, if_pos hl, distance, distance_eq hlanes.1 hlanes.2.1]
        rfl
      · rw [if_neg fun h ↦ hl ((lanes_iff w b).mp h), if_neg hl]
        rfl
    | none =>
      -- Without a lane the store changes nothing.
      rw [stored, if_pos ⟨hop, hr⟩, hw, htla, TilelinkA.store, Requests.aMask_genBus_eq_zero hw,
        mergeLanes_zero, Function.update_eq_self, ite_self]
      rfl
  · have hnot : ¬(q.tla.selects addrMask addrTag = true ∧ q.tla.isPut = true) := by
      rintro ⟨hsel, hp⟩
      rw [hput] at hp
      exact hin ⟨beq_iff_eq.mp hp, beq_iff_eq.mp ((Bool.and_eq_true _ _).mp hsel).2⟩
    rw [TilelinkA.store, if_neg hnot, stored, if_neg hin]
    rfl

end BusRequest

namespace BusRam

variable {bits : ℕ} (addrMask addrTag : BitVec 32) (r : BusRam bits) (reqs : ℕ → BusRequest)

/-- The RAM after the first `n` requests. -/
def served : ℕ → BusRam bits := run (fun q r ↦ r.tockB addrMask addrTag q.tla) reqs r

/-- The bytes that were stored last, and the first contents of the others. -/
def remembered (n : ℕ) : Rv32i.Memory (bits + 2) := fun b ↦
  (last (fun i ↦ (reqs i).stored addrMask addrTag b) n).getD (ramBytes r.ram.ram b)

variable {addrMask addrTag r reqs}

theorem ramBytes_served_succ (n : ℕ) (b : BitVec (bits + 2)) :
    ramBytes (served addrMask addrTag r reqs (n + 1)).ram.ram b =
      ((reqs n).stored addrMask addrTag b).getD
        (ramBytes (served addrMask addrTag r reqs n).ram.ram b) := by
  rw [served, run_succ, ram_tockB, BusRequest.ramBytes_store]

/-- The RAM holds what was stored last. -/
theorem ramBytes_served (n : ℕ) :
    ramBytes (served addrMask addrTag r reqs n).ram.ram =
      remembered addrMask addrTag r reqs n := by
  funext b
  exact eq_last (x := fun n ↦ ramBytes (served addrMask addrTag r reqs n).ram.ram b)
    (fun n ↦ ramBytes_served_succ n b) n

/-- The answer to a request is the word it addresses, before the request. -/
theorem dData_served_succ (n : ℕ) :
    (served addrMask addrTag r reqs (n + 1)).getTld.dData =
      (served addrMask addrTag r reqs n).ram.ram (wordIndex bits (reqs n).addr) :=
  rdata_tockB _ _ _ _

/-- **A RAM is a little-endian byte memory.** -/
theorem byte_memory (addrMask addrTag : BitVec 32) (r : BusRam bits) (reqs : ℕ → BusRequest)
    (n : ℕ) :
    (∀ w, (reqs n).Stores w → ∀ b, w.bytes ≤ (reqs n).distance b →
      ramBytes (served addrMask addrTag r reqs (n + 1)).ram.ram b =
        ramBytes (served addrMask addrTag r reqs n).ram.ram b) ∧
    (∀ w signed, (reqs n).Loads w signed → lane (reqs n).addr + w.bytes ≤ 4 →
      unpackMem (reqs n).f3 (reqs n).addr
          (served addrMask addrTag r reqs (n + 1)).getTld.dData =
        (remembered addrMask addrTag r reqs n).load w signed (reqs n).addr) := by
  constructor
  · intro w hs b hb
    rw [ramBytes_served_succ, BusRequest.stored_of_outside hs hb, Option.getD_none]
  · rintro w signed ⟨-, hf⟩ hw
    rw [dData_served_succ, unpackMem_eq_load hf hw, ramBytes_served]

end BusRam

end Pinwheel
