import Mathlib.Data.Set.List
import Pinwheel.Pipeline.Listing

/-!
# The disassembly on the screen

`PinwheelApp::app_render_frame` shows for each thread what is in the code RAM around its
pc: eight lines, each with a marker, an address and what `print_rv` prints of the word.
-/

namespace Pinwheel

/-! ## Lines -/

namespace PinwheelApp

/-- One line of the disassembly. -/
structure Line where
  marker : Char
  addr : BitVec 32
  op : BitVec 32
deriving DecidableEq

/-- `d("%c0x%08x ", ...); print_rv(d, op); d("\n")`. -/
def Line.pieces (l : Line) : List Piece :=
  [.char l.marker, .text "0x", .hex 8 l.addr.toNat, .text " "] ++ ended l.op

/-- The lines, from two words before the pc to five behind it. -/
def rows : List ℤ := [-2, -1, 0, 1, 2, 3, 4, 5]

variable {cb : ℕ} (code : BitVec cb → BitVec 32) (pc : BitVec 24) (i : ℤ)

/-- `(thread_pc & 0xFFFF) + (i * 4)`. -/
def offset : ℤ := (pc.setWidth 16).toNat + i * 4

/-- The word in a line.  The bounds are those of a RAM of 64 KiB: in a smaller one there may
be no word at the index. -/
def op : Option (BitVec 32) :=
  if offset pc i < 0 then some 0#32
  else if offset pc i > 65536 - 4 then some 0#32
  else
    let index := offset pc i >>> (2 : ℕ)
    if index < 2 ^ cb then some (code (BitVec.ofInt cb index)) else none

def line : Option Line :=
  (op code pc i).map fun w ↦
    ⟨if i = 0 then '>' else ' ', pc.setWidth 32 + BitVec.ofInt 32 (i * 4), w⟩

/-- The text of some lines, behind the character for the colour. -/
def text (ls : List Line) : String :=
  String.join (([Piece.char (Char.ofNat 1), .text "disassembly:\n"] ++
    ls.flatMap Line.pieces).map Piece.print)

/-- What is shown for a thread. -/
def disassembly : Option String := (rows.mapM (line code pc)).map text

/-- All words are in the RAM, and are known. -/
def Shows : Prop := ∀ i ∈ rows, (op code pc i).any fun w ↦ decide (Known w)

instance : Decidable (Shows code pc) := inferInstanceAs (Decidable (∀ _ ∈ _, _))

/-! ## What the lines tell -/

theorem printed_pieces (l : Line) : Piece.printed l.pieces =
    Piece.printed [.char l.marker, .text "0x", .hex 8 l.addr.toNat, .text " "] ++
      Piece.printed (ended l.op) :=
  Piece.printed_append _ _

/-- A line can be told from what follows it. -/
theorem readable_pieces : Readable {l : Line | Known l.op} fun l ↦ Piece.printed l.pieces := by
  rintro ⟨c, a, w⟩ hw ⟨c', a', w'⟩ hw' r r' heq
  simp only [printed_pieces, List.append_assoc] at heq
  have hform : Piece.SameForm [.char c, .text "0x", .hex 8 a.toNat, .text " "]
      [.char c', .text "0x", .hex 8 a'.toNat, .text " "] :=
    .char c c' (.text rfl (.hex (by decide) a.isLt a'.isLt (.text rfl .nil)))
  obtain ⟨hfront, hrest⟩ := hform.eq heq
  obtain ⟨rfl, hend⟩ := Listing.readable_ended hw hw' _ _ hrest
  simp only [List.cons.injEq, Piece.char.injEq, Piece.hex.injEq] at hfront
  obtain ⟨rfl, -, ⟨-, haddr⟩, -⟩ := hfront
  exact ⟨congrArg (Line.mk c · w) (BitVec.eq_of_toNat_eq haddr), hend⟩

theorem pieces_ne_nil (l : Line) : Piece.printed l.pieces ≠ [] := by
  have hmarker : (Piece.char l.marker).chars = [l.marker] := String.toList_ofList
  rw [Line.pieces, List.cons_append, Piece.printed, List.flatMap_cons, hmarker]
  exact List.cons_ne_nil _ _

/-- The text tells its lines. -/
theorem text_inj {ls ls' : List Line} (h : ∀ l ∈ ls, Known l.op) (h' : ∀ l ∈ ls', Known l.op)
    (heq : text ls = text ls') : ls = ls' := by
  have htext : ∀ ls, (text ls).toList =
      Piece.printed [.char (Char.ofNat 1), .text "disassembly:\n"] ++
        ls.flatMap fun l ↦ Piece.printed l.pieces := fun ls ↦ by
    rw [text, String.toList_join, List.flatMap_map]
    refine (Piece.printed_append _ _).trans (congrArg _ ?_)
    exact List.flatMap_assoc
  have hlists := congrArg String.toList heq
  rw [htext, htext] at hlists
  exact readable_pieces.flatMap (fun l _ ↦ pieces_ne_nil l) h h' (List.append_cancel_left hlists)

/-! ## What the disassembly tells -/

theorem mapM_eq_some {α β : Type*} {f : α → Option β} {as : List α} {bs : List β}
    (h : as.map f = bs.map some) : as.mapM f = some bs :=
  calc as.mapM f = as.mapM (id ∘ f) := rfl
    _ = (as.map f).mapM id := List.mapM_map.symm
    _ = bs.mapM (id ∘ some) := by rw [h, List.mapM_map]
    _ = some bs := List.mapM_pure.trans (congrArg some (List.map_id bs))

variable {code pc i} {cb' : ℕ} {code' : BitVec cb' → BitVec 32} {pc' : BitVec 24}

theorem op_line : (line code pc i).map Line.op = op code pc i := by
  rw [line, Option.map_map]
  exact Option.map_id'

theorem Shows.op (h : Shows code pc) (hi : i ∈ rows) :
    ∃ w, op code pc i = some w ∧ Known w := by
  obtain ⟨w, hw, hknown⟩ := (Option.any_eq_true _ _).mp (h i hi)
  exact ⟨w, hw, of_decide_eq_true hknown⟩

/-- The lines of a thread whose words are all known. -/
theorem Shows.lines (h : Shows code pc) : ∃ ls : List Line,
    rows.map (line code pc) = ls.map some ∧ (∀ l ∈ ls, Known l.op) ∧
      disassembly code pc = some (text ls) := by
  have hrange : rows.map (line code pc) ∈ Set.range (List.map some) := by
    rw [Set.range_list_map]
    intro o ho
    obtain ⟨i, hi, rfl⟩ := List.mem_map.mp ho
    obtain ⟨w, hw, -⟩ := h.op hi
    exact ⟨_, (congrArg (Option.map _) hw).symm⟩
  obtain ⟨ls, hls⟩ := hrange
  refine ⟨ls, hls.symm, fun l hl ↦ ?_, ?_⟩
  · have hmem : some l ∈ rows.map (line code pc) := hls ▸ List.mem_map_of_mem hl
    obtain ⟨i, hi, hline⟩ := List.mem_map.mp hmem
    obtain ⟨w, hw, hknown⟩ := h.op hi
    rw [line, hw] at hline
    cases hline
    exact hknown
  · rw [disassembly, mapM_eq_some hls.symm]
    rfl

/-- **The disassembly tells the pc and the words around it**, as long as it stays inside the
code RAM and knows the words: no two are shown as the same text, though the numbers in the
lines are as long as they need to be. -/
theorem disassembly_eq_iff (h : Shows code pc) (h' : Shows code' pc') :
    disassembly code pc = disassembly code' pc' ↔
      pc = pc' ∧ ∀ i ∈ rows, op code pc i = op code' pc' i := by
  obtain ⟨ls, hls, hknown, htext⟩ := h.lines
  obtain ⟨ls', hls', hknown', htext'⟩ := h'.lines
  have hlines : disassembly code pc = disassembly code' pc' ↔
      rows.map (line code pc) = rows.map (line code' pc') := by
    rw [htext, htext', Option.some_inj, hls, hls',
      (List.map_injective_iff.mpr (Option.some_injective Line)).eq_iff]
    exact ⟨text_inj hknown hknown', congrArg text⟩
  rw [hlines, List.map_inj_left]
  constructor
  · intro heq
    have hop : ∀ i ∈ rows, op code pc i = op code' pc' i := fun i hi ↦ by
      rw [← op_line, heq i hi, op_line]
    refine ⟨?_, hop⟩
    have hzero : (0 : ℤ) ∈ rows := by decide
    obtain ⟨w, hw, -⟩ := h.op hzero
    have hline := heq 0 hzero
    rw [line, line, ← hop 0 hzero, hw] at hline
    have haddr := congrArg Line.addr (Option.some.inj hline)
    have hpc := congrArg (BitVec.setWidth 24) ((BitVec.add_left_inj _).mp haddr)
    rwa [BitVec.setWidth_setWidth_of_le _ (by decide), BitVec.setWidth_setWidth_of_le _ (by decide),
      BitVec.setWidth_eq, BitVec.setWidth_eq] at hpc
  · rintro ⟨rfl, hop⟩ i hi
    rw [line, line, hop i hi]

/-- Eight words, with a given one at address 8. -/
def around (w : BitVec 32) : BitVec 3 → BitVec 32 := fun a ↦
  if a = 2#3 then w else 0x00000013#32

/-- A swap is shown differently from a yield. -/
theorem disassembly_ne_swap :
    disassembly (around 0x80051573#32) 8#24 ≠ disassembly (around 0x80151573#32) 8#24 :=
  (disassembly_eq_iff (by decide) (by decide)).not.mpr (by decide)

example : text [⟨'>', 0x8#32, 0x80051573#32⟩, ⟨' ', 0xC#32, 0xFE000EE3#32⟩] =
    "\x01disassembly:\n>0x00000008 CSRRW r10, 0x800, r10\n 0x0000000c BEQ   r00, r00, -4\n" := by
  decide

end PinwheelApp

end Pinwheel
