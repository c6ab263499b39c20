import Mathlib.Data.Nat.Digits.Lemmas
import Mathlib.Data.Nat.Log
import Mathlib.Tactic.SplitIfs
import Pinwheel.Firmware.Hello
import Pinwheel.Lib.Numerals

/-!
# Numbers that the firmware prints

Every routine finds out how many digits there are before it prints the first of them.
`putd` keeps the digits in its buffer meanwhile, `putx` counts the digits behind the
first one, and then prints no more than it has counted.
-/

namespace Pinwheel

namespace Firmware

open Numerals

variable {x d : BitVec 32} {buf buf' : Buf} {ds : List ℕ}

/-! ## Characters -/

/-- `-`. -/
def minus : BitVec 32 := 45#32

/-- The digit that a character is. -/
def digitOf (c : BitVec 32) : Option ℕ :=
  if 48 ≤ c.toNat ∧ c.toNat ≤ 57 then some (c.toNat - 48)
  else if 65 ≤ c.toNat ∧ c.toNat ≤ 70 then some (c.toNat - 55)
  else none

/-- The character that `putnx` prints for a digit. -/
def hexChar (d : ℕ) : BitVec 32 := putnx (BitVec.ofNat 8 d)

/-- The character that `putd` prints for a digit. -/
def decChar (d : ℕ) : BitVec 32 := 48#32 + (BitVec.ofNat 8 d).setWidth 32

theorem digitOf_hexChar : ∀ d < 16, digitOf (hexChar d) = some d := by decide

theorem digitOf_decChar : ∀ d < 10, digitOf (decChar d) = some d := by decide

theorem decChar_ne_minus : ∀ d < 10, decChar d ≠ minus := by decide

/-! ## Hexadecimal -/

/-- One digit of a word. -/
theorem nibble_eq (x : BitVec 32) (k : ℕ) :
    (x >>> (4 * k) &&& 0xF#32).setWidth 8 = BitVec.ofNat 8 (x.toNat / 16 ^ k % 16) := by
  have hmask : (0xF#32).toNat = 2 ^ 4 - 1 := rfl
  refine BitVec.eq_of_toNat_eq ?_
  rw [BitVec.toNat_setWidth, BitVec.toNat_and, hmask, Nat.and_two_pow_sub_one_eq_mod,
    BitVec.toNat_ushiftRight, Nat.shiftRight_eq_div_pow, Nat.pow_mul, BitVec.toNat_ofNat]

/-- The loop prints the digits below the bit that it starts with. -/
theorem putNibbles_eq (x : BitVec 32) (k : ℕ) :
    putNibbles x (4 * k - 4) = (fixed 16 k x.toNat).map hexChar := by
  induction k with
  | zero =>
    rw [putNibbles, if_neg (by decide)]
    rfl
  | succ k ih =>
    have hstart : (4 * (k + 1 : ℕ) - 4 : ℤ) = (4 * k : ℕ) := by omega
    have hnext : ((4 * k : ℕ) - 4 : ℤ) = 4 * k - 4 := by omega
    rw [hstart, putNibbles, if_pos (Int.natCast_nonneg _), Int.toNat_natCast, nibble_eq, hnext, ih,
      fixed, List.map_cons]
    rfl

/-- The other loop counts the digits behind the first one. -/
theorem countNibbles_eq (t : BitVec 32) (c : ℤ) :
    countNibbles t c = c + 4 * (Nat.log 16 t.toNat : ℕ) := by
  fun_induction countNibbles t c with
  | case1 t c h ih =>
    have h16 : 16 ≤ t.toNat := Nat.succ_le_of_lt (BitVec.lt_def.mp h)
    have hdiv : (t >>> 4).toNat = t.toNat / 16 := by
      rw [BitVec.toNat_ushiftRight, Nat.shiftRight_eq_div_pow]
    rw [ih, hdiv, Nat.log_of_one_lt_of_le (by decide) h16]
    omega
  | case2 t c h =>
    have h16 : t.toNat < 16 := by
      rw [BitVec.lt_def, Nat.not_lt] at h
      exact Nat.lt_succ_of_le h
    rw [Nat.log_of_lt h16]
    omega

/-- `putx` leaves the first digit out. -/
theorem putx_eq (hx : x ≠ 0#32) :
    putx x = (fixed 16 (Nat.log 16 x.toNat) x.toNat).map hexChar := by
  rw [putx, if_neg hx, countNibbles_eq, Int.zero_add, putNibbles_eq]

theorem putdx_eq (x : BitVec 32) : putdx x = (fixed 16 8 x.toNat).map hexChar := putNibbles_eq x 8

theorem putx_ne_nil_iff (x : BitVec 32) : putx x ≠ [] ↔ x = 0#32 ∨ 16 ≤ x.toNat := by
  by_cases hx : x = 0#32
  · subst hx
    exact iff_of_true (List.cons_ne_nil _ _) (.inl rfl)
  · rw [putx_eq hx, ne_eq, List.map_eq_nil_iff, ← List.length_eq_zero_iff, length_fixed,
      ← ne_eq, ← Nat.pos_iff_ne_zero, Nat.log_pos_iff]
    constructor
    · exact fun h ↦ .inr h.1
    · exact fun h ↦ ⟨h.resolve_left hx, by decide⟩

/-- Without its first digit no number but 0 is read as itself. -/
theorem read_putx_iff (x : BitVec 32) :
    read 16 digitOf (putx x) = some x.toNat ↔ x = 0#32 := by
  constructor
  · intro hread
    by_contra hx
    have hne : x.toNat ≠ 0 := fun h0 ↦ hx (BitVec.eq_of_toNat_eq h0)
    have hlog := Nat.pow_log_le_self 16 hne
    have hlt := Nat.mod_lt x.toNat (Nat.pow_pos (n := Nat.log 16 x.toNat) (by decide : 0 < 16))
    rw [putx_eq hx, read_fixed digitOf_hexChar (by decide)] at hread
    split_ifs at hread
    have := Option.some.inj hread
    omega
  · rintro rfl
    decide

/-- All eight digits are read as the number. -/
theorem read_putdx (x : BitVec 32) : read 16 digitOf (putdx x) = some x.toNat := by
  have hlt : x.toNat < 16 ^ 8 := x.isLt
  rw [putdx_eq, read_fixed digitOf_hexChar (by decide), if_neg (by decide), Nat.mod_eq_of_lt hlt]

theorem length_putdx (x : BitVec 32) : (putdx x).length = 8 := by
  rw [putdx_eq, List.length_map, length_fixed]

/-! ## Decimal -/

/-- The buffer begins with the given digits. -/
def Holds (buf : Buf) (ds : List ℕ) : Prop :=
  ∀ i < ds.length, buf[i]? = ds[i]?.map (BitVec.ofNat 8)

theorem Holds.nil (buf : Buf) : Holds buf [] := fun _ hi ↦ absurd hi (Nat.not_lt_zero _)

/-- One digit more, while there is room for it. -/
theorem Holds.put (h : Holds buf ds) (hroom : ds.length < 16) (n : ℕ) :
    ∃ buf', buf.put ds.length (BitVec.ofNat 8 n) = some buf' ∧ Holds buf' (ds ++ [n]) := by
  refine ⟨_, dif_pos hroom, ?_⟩
  intro i hi
  rw [List.length_append, List.length_singleton] at hi
  rcases Nat.lt_succ_iff_lt_or_eq.mp hi with hlt | rfl
  · rw [Vector.getElem?_set_ne hroom (Nat.ne_of_gt hlt), h i hlt, List.getElem?_append_left hlt]
  · rw [Vector.getElem?_set_self, List.getElem?_concat_length]
    rfl

theorem msb_sdiv (h : (10#32).sle d = true) : (d.sdiv 10#32).msb = false := by
  have hmsb := msb_of_sle h
  rw [BitVec.msb_eq_false_iff_two_mul_lt] at hmsb ⊢
  rw [toNat_sdiv h]
  omega

theorem lt_of_not_sle (hmsb : d.msb = false) (h : ¬(10#32).sle d = true) : d.toNat < 10 := by
  rw [BitVec.sle_iff_toInt_le, BitVec.toInt_eq_toNat_of_msb hmsb] at h
  exact Int.ofNat_lt.mp (Int.not_le.mp h)

/-- The digits of a positive number fit if there is room for them. -/
theorem Holds.splitDigits_eq {count : ℕ} (h : Holds buf ds) (hcount : ds.length = count)
    (hmsb : d.msb = false) (hne : d.toNat ≠ 0)
    (hroom : count + (Nat.digits 10 d.toNat).length ≤ 16) :
    ∃ buf', splitDigits d count buf = some (count + (Nat.digits 10 d.toNat).length, buf') ∧
      Holds buf' (ds ++ Nat.digits 10 d.toNat) := by
  fun_induction splitDigits d count buf generalizing ds with
  | case1 d count buf hten ih =>
    have hge := toNat_of_sle hten
    have hdigits := Nat.digits_def' (by decide : 1 < 10) (Nat.pos_of_ne_zero hne)
    have hlow : (d.srem 10#32).setWidth 8 = BitVec.ofNat 8 (d.toNat % 10) := by
      rw [← BitVec.ofNat_toNat, toNat_srem hten]
    rw [hdigits, List.length_cons] at hroom ⊢
    obtain ⟨buf', hput, h'⟩ := h.put (by omega) (d.toNat % 10)
    have hcount' : (ds ++ [d.toNat % 10]).length = count + 1 := by
      rw [List.length_append, hcount, List.length_singleton]
    specialize ih buf' h' hcount' (msb_sdiv hten)
    rw [toNat_sdiv hten] at ih
    obtain ⟨buf'', hsplit, h''⟩ := ih (by omega) (by omega)
    refine ⟨buf'', ?_, ?_⟩
    · rw [hlow, ← hcount, hput, Option.bind_some, hcount, hsplit]
      congr 2
      omega
    · rwa [List.append_assoc, List.singleton_append] at h''
  | case2 d count buf hten =>
    rw [Nat.digits_of_lt 10 _ hne (lt_of_not_sle hmsb hten)] at hroom ⊢
    obtain ⟨buf', hput, h'⟩ := h.put (hcount ▸ hroom) d.toNat
    refine ⟨buf', ?_, h'⟩
    rw [← BitVec.ofNat_toNat, ← hcount, hput]
    rfl

/-- What the buffer holds is printed from its end. -/
theorem Holds.putDigits_eq (h : Holds buf ds) :
    putDigits buf ds.length = some (ds.reverse.map decChar) := by
  induction ds using List.reverseRecOn with
  | nil => rfl
  | append_singleton ds n ih =>
    have hds : Holds buf ds := by
      intro i hi
      rw [h i (hi.trans (by rw [List.length_append]; exact Nat.lt_succ_self _)),
        List.getElem?_append_left hi]
    have hn : buf[ds.length]? = some (BitVec.ofNat 8 n) := by
      rw [h ds.length (by rw [List.length_append]; exact Nat.lt_succ_self _),
        List.getElem?_concat_length]
      rfl
    rw [List.length_append, List.length_singleton, putDigits, hn, ih hds,
      List.reverse_append, List.reverse_singleton, List.singleton_append, List.map_cons]
    rfl

/-- A word of 32 bits has at most ten decimal digits. -/
theorem length_digits_le (x : BitVec 32) : (Nat.digits 10 x.toNat).length ≤ 10 := by
  rw [Nat.digits_length_le_iff (by decide)]
  exact x.isLt.trans (by decide)

/-- Only the most negative number has no absolute value. -/
theorem msb_abs_of_ne (h : d ≠ BitVec.intMin 32) : d.abs.msb = false := by
  rw [BitVec.msb_eq_toInt, BitVec.toInt_abs_eq_natAbs_of_ne_intMin h, decide_eq_false_iff_not,
    Int.not_lt]
  exact Int.natCast_nonneg _

theorem toNat_abs_of_ne (h : d ≠ BitVec.intMin 32) : d.abs.toNat = d.toInt.natAbs := by
  have habs := BitVec.toInt_abs_eq_natAbs_of_ne_intMin h
  rw [BitVec.toInt_eq_toNat_of_msb (msb_abs_of_ne h)] at habs
  exact Int.ofNat.inj habs

/-- After the sign the digits are printed, as they have been split off. -/
theorem putd_of_split (h0 : d ≠ 0#32) (hsplit : splitDigits d.abs 0 buf = some (ds.length, buf'))
    (h : Holds buf' ds) :
    putd buf d = some ((if d.msb then [minus] else []) ++ ds.reverse.map decChar) := by
  rw [putd, if_neg h0]
  simp only [BitVec.slt_zero_eq_msb]
  rw [← BitVec.abs_eq, hsplit]
  simp only [Option.bind_eq_bind, Option.bind_some, h.putDigits_eq]
  rfl

theorem natAbs_ne_zero (h0 : d ≠ 0#32) : d.toInt.natAbs ≠ 0 := by
  rw [ne_eq, Int.natAbs_eq_zero, ← BitVec.toInt_zero (w := 32), BitVec.toInt_inj]
  exact h0

/-- All digits of a number, after its sign. -/
theorem putd_eq (h0 : d ≠ 0#32) (hmin : d ≠ BitVec.intMin 32) (buf : Buf) :
    putd buf d = some ((if d.msb then [minus] else []) ++
      (Nat.digits 10 d.toInt.natAbs).reverse.map decChar) := by
  have hne : d.abs.toNat ≠ 0 := by
    rw [toNat_abs_of_ne hmin]
    exact natAbs_ne_zero h0
  have hroom : 0 + (Nat.digits 10 d.abs.toNat).length ≤ 16 := by
    have := length_digits_le d.abs
    omega
  obtain ⟨buf', hsplit, h⟩ := (Holds.nil buf).splitDigits_eq List.length_nil (msb_abs_of_ne hmin)
    hne hroom
  rw [Nat.zero_add] at hsplit
  rw [putd_of_split h0 hsplit h, toNat_abs_of_ne hmin]

/-- The negation of the most negative number is itself, and less than 10. -/
theorem putd_intMin (buf : Buf) : putd buf (BitVec.intMin 32) = some [minus, decChar 0] := by
  obtain ⟨buf', hput, h⟩ := (Holds.nil buf).put (by decide) 0
  have hsplit : splitDigits (BitVec.intMin 32).abs 0 buf = some ([0].length, buf') := by
    rw [splitDigits, if_neg (by decide)]
    exact congrArg (Option.map _) hput
  exact putd_of_split (by decide) hsplit h

/-- The sign and all digits are read as the number. -/
theorem readInt_digits (h0 : d ≠ 0#32) :
    readInt minus 10 digitOf ((if d.msb then [minus] else []) ++
      (Nat.digits 10 d.toInt.natAbs).reverse.map decChar) = some d.toInt := by
  have hne : d.toInt.natAbs ≠ 0 := natAbs_ne_zero h0
  have hread := read_digits digitOf_decChar (by decide) hne
  cases hsign : d.msb with
  | true =>
    rw [BitVec.msb_eq_toInt, decide_eq_true_iff] at hsign
    rw [if_pos rfl, List.singleton_append, readInt_minus, hread, Option.map_some,
      Int.ofNat_natAbs_of_nonpos hsign.le, Int.neg_neg]
  | false =>
    rw [BitVec.msb_eq_toInt, decide_eq_false_iff_not, Int.not_lt] at hsign
    rw [if_neg Bool.false_ne_true, List.nil_append, readInt_of_ne, hread, Option.map_some,
      Int.natAbs_of_nonneg hsign]
    intro c hc
    rw [List.mem_map] at hc
    obtain ⟨n, hn, rfl⟩ := hc
    exact decChar_ne_minus n (Nat.digits_lt_base (by decide) (List.mem_reverse.mp hn))

/-- The buffer is always large enough, and a digit is always printed. -/
theorem readInt_putd (buf : Buf) (x : BitVec 32) :
    ∃ out i, putd buf x = some out ∧ readInt minus 10 digitOf out = some i ∧
      (i = x.toInt ↔ x ≠ BitVec.intMin 32) := by
  by_cases h0 : x = 0#32
  · subst h0
    exact ⟨[48#32], 0, rfl, by decide, by decide⟩
  · by_cases hmin : x = BitVec.intMin 32
    · subst hmin
      exact ⟨_, 0, putd_intMin buf, by decide, by decide⟩
    · exact ⟨_, x.toInt, putd_eq h0 hmin buf, readInt_digits h0, iff_of_true rfl hmin⟩

/-! ## All three -/

/-- `putdx` prints every number such that it is read back, `putd` every one but the most
negative, and `putx` no number but 0. -/
theorem prints_iff (buf : Buf) (x : BitVec 32) :
    (∃ out, putd buf x = some out ∧ (readInt minus 10 digitOf out).isSome ∧
      (readInt minus 10 digitOf out = some x.toInt ↔ x ≠ BitVec.intMin 32)) ∧
    ((putx x ≠ [] ↔ x = 0#32 ∨ 16 ≤ x.toNat) ∧
      (read 16 digitOf (putx x) = some x.toNat ↔ x = 0#32)) ∧
    (putdx x).length = 8 ∧ read 16 digitOf (putdx x) = some x.toNat := by
  refine ⟨?_, ⟨putx_ne_nil_iff x, read_putx_iff x⟩, length_putdx x, read_putdx x⟩
  obtain ⟨out, i, hput, hread, hi⟩ := readInt_putd buf x
  refine ⟨out, hput, ?_, ?_⟩
  · rw [hread]
    rfl
  · rw [hread, Option.some_inj]
    exact hi

/-- 5 is printed as nothing, `0x12345678` as `2345678`, and the most negative number as
`-0`. -/
theorem prints_less :
    putx 5#32 = [] ∧
    putx 0x12345678#32 = [50#32, 51#32, 52#32, 53#32, 54#32, 55#32, 56#32] ∧
    read 16 digitOf (putx 0x12345678#32) = some 0x2345678 ∧
    putd (Vector.replicate 16 0#8) (BitVec.intMin 32) = some [45#32, 48#32] ∧
    (putd (Vector.replicate 16 0#8) (BitVec.intMin 32)).bind (readInt minus 10 digitOf) ≠
      some (BitVec.intMin 32).toInt := by
  have hlog5 : Nat.log 16 5 = 0 := Nat.log_of_lt (by decide)
  have hlog : Nat.log 16 0x12345678 = 7 :=
    (Nat.log_eq_iff (.inl (by decide))).mpr ⟨by decide, by decide⟩
  have hx5 : putx 5#32 = [] := by
    rw [putx_eq (by decide), BitVec.toNat_ofNat, Nat.mod_eq_of_lt (by decide), hlog5]
    rfl
  have hx : putx 0x12345678#32 = [50#32, 51#32, 52#32, 53#32, 54#32, 55#32, 56#32] := by
    rw [putx_eq (by decide), BitVec.toNat_ofNat, Nat.mod_eq_of_lt (by decide), hlog]
    decide
  refine ⟨hx5, hx, ?_, putd_intMin _, ?_⟩
  · rw [hx]
    decide
  · rw [putd_intMin]
    decide

end Firmware

end Pinwheel
