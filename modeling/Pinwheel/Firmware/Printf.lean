import Pinwheel.Firmware.Numbers

/-!
# Formats that the firmware prints

`Console::printf` of `tests/firmware/hello.cpp` goes through its format once, and stores
one character after another.  A pointer to text is what memory has from there on.  A read
past the end of the memory, or of an argument that is not there, has no result.

A format is a list of pieces: characters, characters behind a backslash, and conversions.
It can also end right behind a backslash or a percent sign.  Then `printf` steps over the
terminator and goes on with whatever is behind it.
-/

namespace Pinwheel

namespace Firmware

/-! ## The printer -/

/-- `\`. -/
def backslash : BitVec 8 := 92#8

/-- `%`. -/
def percent : BitVec 8 := 37#8

/-- `while(*s) { *out = *s; s++; }`. -/
def puts : List (BitVec 8) → Option (List (BitVec 32))
  | [] => none
  | c :: s => if c = 0#8 then some [] else (puts s).map (c.setWidth 32 :: ·)

/-- The cases of `switch(*format++)`. -/
inductive Conversion where
  | c
  | d
  | x
  | p
  | s
deriving DecidableEq, Repr

def Conversion.ofChar (c : BitVec 8) : Option Conversion :=
  if c = 99#8 then some .c else if c = 100#8 then some .d else if c = 120#8 then some .x
  else if c = 112#8 then some .p else if c = 115#8 then some .s else none

/-- What becomes of an argument. -/
def Conversion.print (mem : List (BitVec 8)) (buf : Buf) (arg : BitVec 32) :
    Conversion → Option (List (BitVec 32))
  | c => some [(arg.setWidth 8).setWidth 32]
  | d => putd buf arg
  | x => some (putx arg)
  | p => some (putdx arg)
  | s => puts (mem.drop arg.toNat)

section Printf

variable (mem : List (BitVec 8)) (bufs : ℕ → Buf)

/-- What `%` and a character store, and the arguments that they leave.  Any other character
than those of the conversions prints nothing. -/
def convert (c : BitVec 8) (args : List (BitVec 32)) :
    Option (List (BitVec 32) × List (BitVec 32)) :=
  match Conversion.ofChar c, args with
  | none, args => some ([], args)
  | some _, [] => none
  | some k, arg :: args => (k.print mem (bufs args.length) arg).map fun shown ↦ (shown, args)

/-- `printf`, with the memory, whatever the buffer of `putd` holds when there are so many
arguments to come, the format and the arguments. -/
def printf : List (BitVec 8) → List (BitVec 32) → Option (List (BitVec 32))
  | [], _ => none
  | c :: format, args =>
    if c = 0#8 then some []
    else if c = backslash then
      match format with
      | [] => none
      | c :: format => (printf format args).map (c.setWidth 32 :: ·)
    else if c = percent then
      match format with
      | [] => none
      | c :: format => (convert mem bufs c args).bind fun r ↦ (printf format r.2).map (r.1 ++ ·)
    else (printf format args).map (c.setWidth 32 :: ·)

end Printf

/-! ## Formats -/

/-- A piece of a format. -/
inductive Piece where
  | plain (c : BitVec 8) (h : c ≠ 0#8 ∧ c ≠ backslash ∧ c ≠ percent)
  | quoted (c : BitVec 8) (h : c ≠ 0#8)
  | conversion (c : BitVec 8) (h : c ≠ 0#8)

def Piece.spell : Piece → List (BitVec 8)
  | plain c _ => [c]
  | quoted c _ => [backslash, c]
  | conversion c _ => [percent, c]

/-- The conversion that a piece asks for.  There is none for `%%`, say. -/
def Piece.kind : Piece → Option Conversion
  | conversion c _ => Conversion.ofChar c
  | _ => none

def spell (ps : List Piece) : List (BitVec 8) := ps.flatMap Piece.spell

/-- How a format ends. -/
inductive Ending where
  | done
  | backslash
  | percent
deriving DecidableEq, Repr

def Ending.spell : Ending → List (BitVec 8)
  | done => []
  | backslash => [Firmware.backslash]
  | percent => [Firmware.percent]

section Format

variable (mem : List (BitVec 8)) (bufs : ℕ → Buf)

/-- What a piece stores, and the arguments that it leaves. -/
def Piece.print (args : List (BitVec 32)) : Piece → Option (List (BitVec 32) × List (BitVec 32))
  | plain c _ | quoted c _ => some ([c.setWidth 32], args)
  | conversion c _ => convert mem bufs c args

/-- What the pieces store, and the arguments that they leave. -/
def printAll : List Piece → List (BitVec 32) → Option (List (BitVec 32) × List (BitVec 32))
  | [], args => some ([], args)
  | p :: ps, args => (p.print mem bufs args).bind fun r ↦
    (printAll ps r.2).map fun r' ↦ (r.1 ++ r'.1, r'.2)

/-- What `printf` stores for the end of a format, and for what is behind it. -/
def Ending.print (rest : List (BitVec 8)) (args : List (BitVec 32)) :
    Ending → Option (List (BitVec 32))
  | done => some []
  | backslash => (printf mem bufs rest args).map (0#32 :: ·)
  | percent => printf mem bufs rest args

variable {mem bufs} {format rest : List (BitVec 8)} {args : List (BitVec 32)}

theorem printf_terminator : printf mem bufs (0#8 :: rest) args = some [] := by
  unfold printf
  exact if_pos rfl

theorem printf_plain {c : BitVec 8} (h : c ≠ 0#8 ∧ c ≠ backslash ∧ c ≠ percent) :
    printf mem bufs (c :: format) args =
      (printf mem bufs format args).map (c.setWidth 32 :: ·) := by
  conv_lhs => unfold printf
  rw [if_neg h.1, if_neg h.2.1, if_neg h.2.2]

theorem printf_spell_append (p : Piece) :
    printf mem bufs (p.spell ++ format) args =
      (p.print mem bufs args).bind fun r ↦ (printf mem bufs format r.2).map (r.1 ++ ·) := by
  cases p with
  | plain c h => exact printf_plain h
  | quoted c h | conversion c h => rfl

/-- Pieces are printed one after the other, each with the arguments that are left. -/
theorem printf_spell (ps : List Piece) :
    printf mem bufs (spell ps ++ format) args =
      (printAll mem bufs ps args).bind fun r ↦ (printf mem bufs format r.2).map (r.1 ++ ·) := by
  induction ps generalizing args with
  | nil => simp [spell, printAll]
  | cons p ps ih =>
    rw [spell, List.flatMap_cons, List.append_assoc, printf_spell_append, printAll,
      Option.bind_assoc]
    congr 1
    funext r
    rw [← spell, ih]
    cases printAll mem bufs ps r.2 with
    | none => rfl
    | some r' => cases h : printf mem bufs format r'.2 <;> simp [h]

theorem printf_ending (e : Ending) :
    printf mem bufs (e.spell ++ 0#8 :: rest) args = e.print mem bufs rest args := by
  cases e with
  | done => exact printf_terminator
  | backslash => rfl
  | percent =>
    -- The terminator is no conversion.
    show (some ([], args)).bind (fun r ↦ (printf mem bufs rest r.2).map (r.1 ++ ·)) = _
    exact Option.map_id'

/-- Every text is spelled by some pieces, up to its end. -/
theorem exists_spell : ∀ cs : List (BitVec 8), (∀ c ∈ cs, c ≠ 0#8) →
    ∃ ps e, cs = spell ps ++ Ending.spell e
  | [], _ => ⟨[], .done, rfl⟩
  | [c], h => by
    by_cases hb : c = backslash
    · exact ⟨[], .backslash, congrArg (· :: []) hb⟩
    by_cases hp : c = percent
    · exact ⟨[], .percent, congrArg (· :: []) hp⟩
    exact ⟨[.plain c ⟨h c List.mem_cons_self, hb, hp⟩], .done, rfl⟩
  | c :: d :: cs, h => by
    have hd : d ≠ 0#8 := h d (List.mem_cons_of_mem c List.mem_cons_self)
    obtain ⟨ps, e, hps⟩ := exists_spell cs fun c hc ↦
      h c (List.mem_cons_of_mem _ (List.mem_cons_of_mem _ hc))
    by_cases hb : c = backslash
    · subst hb hps
      exact ⟨.quoted d hd :: ps, e, rfl⟩
    by_cases hp : c = percent
    · subst hp hps
      exact ⟨.conversion d hd :: ps, e, rfl⟩
    obtain ⟨ps', e', hps'⟩ := exists_spell (d :: cs) fun c hc ↦ h c (List.mem_cons_of_mem _ hc)
    rw [hps']
    exact ⟨.plain c ⟨h c List.mem_cons_self, hb, hp⟩ :: ps', e', rfl⟩

/-! ## When there is something to print -/

theorem isSome_puts (s : List (BitVec 8)) : (puts s).isSome ↔ 0#8 ∈ s := by
  induction s with
  | nil => simp [puts]
  | cons c s ih =>
    by_cases hc : c = 0#8
    · simp [puts, hc]
    · simp [puts, hc, ih, Ne.symm hc]

/-- Only the conversion of a text depends on the memory. -/
theorem isSome_print (k : Conversion) (buf : Buf) (arg : BitVec 32) :
    (k.print mem buf arg).isSome ↔ (k = .s → 0#8 ∈ mem.drop arg.toNat) := by
  cases k with
  | d =>
    obtain ⟨out, -, hput, -⟩ := readInt_putd buf arg
    simp [Conversion.print, hput]
  | s => simp [Conversion.print, isSome_puts]
  | c | x | p => simp [Conversion.print]

/-- The conversions that pieces ask for. -/
def kinds (ps : List Piece) : List Conversion := ps.filterMap Piece.kind

/-- There is an argument for every conversion, and those that are printed as texts point to
some. -/
def Suffice (mem : List (BitVec 8)) (ks : List Conversion) (args : List (BitVec 32)) : Prop :=
  ks.length ≤ args.length ∧ ∀ x ∈ ks.zip args, x.1 = .s → 0#8 ∈ mem.drop x.2.toNat

theorem suffice_cons {k : Conversion} {ks : List Conversion} {arg : BitVec 32} :
    Suffice mem (k :: ks) (arg :: args) ↔
      (k = .s → 0#8 ∈ mem.drop arg.toNat) ∧ Suffice mem ks args := by
  simp [Suffice]
  tauto

theorem isSome_printAll (ps : List Piece) :
    (printAll mem bufs ps args).isSome ↔ Suffice mem (kinds ps) args := by
  induction ps generalizing args with
  | nil => simp [printAll, kinds, Suffice]
  | cons p ps ih =>
    cases p with
    | plain c h | quoted c h =>
      show _ ↔ Suffice mem (kinds ps) args
      rw [← ih]
      simp [printAll, Piece.print]
    | conversion c h =>
      cases hk : Conversion.ofChar c with
      | none =>
        have hkinds : kinds (.conversion c h :: ps) = kinds ps := List.filterMap_cons_none hk
        rw [hkinds, ← ih]
        simp [printAll, Piece.print, convert, hk]
      | some k =>
        have hkinds : kinds (.conversion c h :: ps) = k :: kinds ps := List.filterMap_cons_some hk
        rw [hkinds]
        cases args with
        | nil => simp [printAll, Piece.print, convert, hk, Suffice]
        | cons arg args =>
          rw [suffice_cons, ← ih, ← isSome_print k (bufs args.length)]
          cases hprint : k.print mem (bufs args.length) arg <;>
            simp [printAll, Piece.print, convert, hk, hprint]

/-- **`printf` prints the pieces of its format**, whatever the format is, if the arguments
suffice, and goes on behind the format if it is left open. -/
theorem printf_format {cs : List (BitVec 8)} (h : ∀ c ∈ cs, c ≠ 0#8) :
    ∃ ps e, cs = spell ps ++ Ending.spell e ∧ ∀ rest args,
      ((printAll mem bufs ps args).isSome ↔ Suffice mem (kinds ps) args) ∧
        printf mem bufs (cs ++ 0#8 :: rest) args =
          (printAll mem bufs ps args).bind fun r ↦ (e.print mem bufs rest r.2).map (r.1 ++ ·) := by
  obtain ⟨ps, e, rfl⟩ := exists_spell cs h
  refine ⟨ps, e, rfl, fun rest args ↦ ⟨isSome_printAll ps, ?_⟩⟩
  rw [List.append_assoc, printf_spell]
  congr 1
  funext r
  rw [printf_ending]

/-- `Rep %d\n` and `100%`, which is left open. -/
theorem printf_format_rep :
    ∃ ps e, [82#8, 101#8, 112#8, 32#8, 37#8, 100#8, 10#8, 49#8, 48#8, 48#8, 37#8] =
        spell ps ++ Ending.spell e ∧ ∀ rest args,
      ((printAll [] (fun _ ↦ Vector.replicate 16 0#8) ps args).isSome ↔
          Suffice [] (kinds ps) args) ∧
        printf [] (fun _ ↦ Vector.replicate 16 0#8)
            ([82#8, 101#8, 112#8, 32#8, 37#8, 100#8, 10#8, 49#8, 48#8, 48#8, 37#8] ++ 0#8 :: rest)
            args =
          (printAll [] (fun _ ↦ Vector.replicate 16 0#8) ps args).bind fun r ↦
            (e.print [] (fun _ ↦ Vector.replicate 16 0#8) rest r.2).map (r.1 ++ ·) :=
  printf_format (by decide)

/-! ## The buffer -/

/-- `putd` writes to its buffer what it reads from it. -/
theorem putd_congr (buf buf' : Buf) (d : BitVec 32) : putd buf d = putd buf' d := by
  by_cases h0 : d = 0#32
  · subst h0
    rfl
  by_cases hmin : d = BitVec.intMin 32
  · rw [hmin, putd_intMin, putd_intMin]
  · rw [putd_eq h0 hmin, putd_eq h0 hmin]

theorem convert_congr (bufs bufs' : ℕ → Buf) : convert mem bufs = convert mem bufs' := by
  funext c args
  unfold convert
  cases Conversion.ofChar c with
  | none => rfl
  | some k =>
    cases args with
    | nil => rfl
    | cons arg args =>
      cases k with
      | d => exact congrArg (Option.map fun shown ↦ (shown, args)) (putd_congr _ _ arg)
      | _ => rfl

/-- **What was on the stack is never printed**, whatever the format is. -/
theorem printf_congr (bufs bufs' : ℕ → Buf) (format : List (BitVec 8)) (args : List (BitVec 32)) :
    printf mem bufs format args = printf mem bufs' format args := by
  have hconvert : convert mem bufs = convert mem bufs' := convert_congr bufs bufs'
  fun_induction printf mem bufs format args with
  | case1 => rfl
  | case2 => exact printf_terminator.symm
  | case3 => rfl
  | case4 args c format hb ih => exact congrArg (Option.map (c.setWidth 32 :: ·)) ih
  | case5 => rfl
  | case6 args c format hb hp ih =>
    simp only [hconvert, ih]
    rfl
  | case7 c format args h0 hb hp ih => rw [ih, printf_plain ⟨h0, hb, hp⟩]

end Format

end Firmware

end Pinwheel
