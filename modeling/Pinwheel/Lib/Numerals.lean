import Mathlib.Data.Nat.Digits.Defs

/-!
# Numerals

Numbers as they are written, the most significant digit first.  A numeral is read back by
Horner's rule from characters that each stand for a digit.  There are two ways to write a
number: all of its digits, as `Nat.digits` has them in the opposite order, and a fixed
count of its lowest digits, with zeros in front of it or with its upper digits lost.
-/

namespace Numerals

universe u

variable {χ : Type u}

/-- The number with the given digits. -/
def value (b : ℕ) (ds : List ℕ) : ℕ := ds.foldl (fun n d ↦ n * b + d) 0

/-- The lowest `k` digits of a number. -/
def fixed (b : ℕ) : ℕ → ℕ → List ℕ
  | 0, _ => []
  | k + 1, n => n / b ^ k % b :: fixed b k n

/-- The digit below the base that a character stands for. -/
def digit (b : ℕ) (val : χ → Option ℕ) (c : χ) : Option ℕ := (val c).filter fun d ↦ d < b

/-- Read a number, which has at least one digit. -/
def read (b : ℕ) (val : χ → Option ℕ) : List χ → Option ℕ
  | [] => none
  | c :: cs => ((c :: cs).mapM (digit b val)).map (value b)

/-- Read a number with or without a minus sign. -/
def readInt [DecidableEq χ] (minus : χ) (b : ℕ) (val : χ → Option ℕ) : List χ → Option ℤ
  | [] => none
  | c :: cs =>
    if c = minus then (read b val cs).map fun n : ℕ ↦ -(n : ℤ)
    else (read b val (c :: cs)).map fun n : ℕ ↦ (n : ℤ)

variable {b n k : ℕ} {val : χ → Option ℕ} {write : ℕ → χ} {ds : List ℕ}

/-! ## Values -/

theorem value_reverse (b : ℕ) (ds : List ℕ) : value b ds.reverse = Nat.ofDigits b ds := by
  rw [value, List.foldl_reverse, Nat.ofDigits_eq_foldr]
  congr 1
  funext d n
  rw [Nat.mul_comm, Nat.add_comm]
  rfl

/-- All digits of a number. -/
theorem value_digits (b n : ℕ) : value b (Nat.digits b n).reverse = n := by
  rw [value_reverse, Nat.ofDigits_digits]

theorem foldl_fixed (b k n m : ℕ) :
    (fixed b k n).foldl (fun n d ↦ n * b + d) m = m * b ^ k + n % b ^ k := by
  induction k generalizing m with
  | zero => rw [fixed, List.foldl_nil, Nat.pow_zero, Nat.mul_one, Nat.mod_one, Nat.add_zero]
  | succ k ih =>
    rw [fixed, List.foldl_cons, ih, Nat.mod_pow_succ, Nat.add_mul, Nat.pow_succ, Nat.mul_assoc,
      Nat.mul_comm b, Nat.mul_comm (n / b ^ k % b), Nat.add_assoc, Nat.add_comm (b ^ k * _)]

/-- The lowest digits of a number are its remainder. -/
theorem value_fixed (b k n : ℕ) : value b (fixed b k n) = n % b ^ k := by
  rw [value, foldl_fixed, Nat.zero_mul, Nat.zero_add]

theorem length_fixed (b k n : ℕ) : (fixed b k n).length = k := by
  induction k with
  | zero => rfl
  | succ k ih => rw [fixed, List.length_cons, ih]

theorem lt_of_mem_fixed (hb : 0 < b) {d : ℕ} (hd : d ∈ fixed b k n) : d < b := by
  induction k with
  | zero => contradiction
  | succ k ih =>
    rw [fixed, List.mem_cons] at hd
    rcases hd with rfl | hd
    · exact Nat.mod_lt _ hb
    · exact ih hd

/-! ## What is written can be read -/

/-- Characters that stand for digits are read as these digits. -/
theorem mapM_write (h : ∀ d ∈ ds, digit b val (write d) = some d) :
    (ds.map write).mapM (digit b val) = some ds := by
  induction ds with
  | nil => rfl
  | cons d ds ih =>
    have htail := ih fun e he ↦ h e (List.mem_cons_of_mem d he)
    rw [List.map_cons, List.mapM_cons, h d List.mem_cons_self, htail]
    rfl

/-- A written numeral is read as its value. -/
theorem read_write (h : ∀ d < b, val (write d) = some d) (hds : ∀ d ∈ ds, d < b) (hne : ds ≠ []) :
    read b val (ds.map write) = some (value b ds) := by
  have hdigit : ∀ d ∈ ds, digit b val (write d) = some d := by
    intro d hd
    rw [digit, h d (hds d hd)]
    exact if_pos (decide_eq_true (hds d hd))
  cases ds with
  | nil => contradiction
  | cons d ds =>
    have hread : read b val ((d :: ds).map write) =
        (((d :: ds).map write).mapM (digit b val)).map (value b) := rfl
    rw [hread, mapM_write hdigit]
    rfl

/-- All digits of a positive number are read as the number. -/
theorem read_digits (h : ∀ d < b, val (write d) = some d) (hb : 1 < b) (hn : n ≠ 0) :
    read b val ((Nat.digits b n).reverse.map write) = some n := by
  rw [read_write h (fun d hd ↦ Nat.digits_lt_base hb (List.mem_reverse.mp hd)), value_digits]
  rw [ne_eq, List.reverse_eq_nil_iff]
  exact Nat.digits_ne_nil_iff_ne_zero.mpr hn

/-- A fixed count of digits is read as a remainder, if there is a digit at all. -/
theorem read_fixed (h : ∀ d < b, val (write d) = some d) (hb : 0 < b) :
    read b val ((fixed b k n).map write) = if k = 0 then none else some (n % b ^ k) := by
  cases k with
  | zero => rfl
  | succ k =>
    have hne : fixed b (k + 1) n ≠ [] := List.cons_ne_nil _ _
    rw [read_write h (fun d hd ↦ lt_of_mem_fixed hb hd) hne, value_fixed,
      if_neg (Nat.succ_ne_zero k)]

/-- Without a minus sign in front an integer is read as a number. -/
theorem readInt_of_ne [DecidableEq χ] {minus : χ} {cs : List χ} (h : ∀ c ∈ cs, c ≠ minus) :
    readInt minus b val cs = (read b val cs).map fun n : ℕ ↦ (n : ℤ) := by
  cases cs with
  | nil => rfl
  | cons c cs => exact if_neg (h c List.mem_cons_self)

theorem readInt_minus [DecidableEq χ] (minus : χ) (cs : List χ) :
    readInt minus b val (minus :: cs) = (read b val cs).map fun n : ℕ ↦ -(n : ℤ) := if_pos rfl

/-! ## The digits of `Nat.toDigits` -/

theorem value_toDigits {val : Char → ℕ} (h : ∀ d < b, val (Nat.digitChar d) = d) (hb : 1 < b)
    (n : ℕ) : value b ((Nat.toDigits b n).map val) = n := by
  induction n using Nat.strongRecOn with
  | _ n ih =>
    rw [Nat.toDigits_eq_if hb]
    split_ifs with hn
    · simp [value, h n hn]
    · have hlt : n / b < n := Nat.div_lt_self (by omega) hb
      have hdigit : n % b < b := Nat.mod_lt n (by omega)
      rw [List.map_append, List.map_singleton, h _ hdigit, value, List.foldl_append]
      calc value b ((Nat.toDigits b (n / b)).map val) * b + n % b
        _ = n / b * b + n % b := by rw [ih _ hlt]
        _ = n := Nat.div_add_mod' n b

theorem value_replicate_zero (b k : ℕ) (ds : List ℕ) :
    value b (List.replicate k 0 ++ ds) = value b ds := by
  induction k with
  | zero => rfl
  | succ k ih =>
    rw [List.replicate_succ, List.cons_append, value, List.foldl_cons, Nat.zero_mul, Nat.zero_add]
    exact ih

end Numerals
