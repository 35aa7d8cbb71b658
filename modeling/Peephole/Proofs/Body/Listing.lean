-- Listings of bodies, line by line. A listing shows the markers, the labels and then the
-- instruction itself, for each instruction of the body. Each of these items is one line, unless it
-- shows a text of the document that has a line feed: the quotes around a text escape none, and
-- other texts have no quotes. Such a text may look like further lines.
import Peephole.Body.Listing
import Peephole.Proofs.Opcode.Names
import Peephole.Proofs.Text.Lines

namespace Peephole

open Text

/-! ## Texts of the document -/

/-- The texts of an operand that a listing shows. -/
def Operand.texts : Operand → List String
  | string s => [s]
  | field f => [f.fieldType, f.declaringType, f.name]
  | method m => m.returnType :: m.declaringType :: m.name :: m.parameterTypes
  | _ => []

/-- The text of a marker that a listing shows: the type that is caught. -/
def Marker.texts (m : Marker) : List String :=
  if m.catchType.truthy then [m.catchType.text] else []

/-- The texts of an instruction that a listing shows. -/
def Instruction.texts (i : Instruction) : List String :=
  i.markers.flatMap Marker.texts ++ i.operand.toList.flatMap Operand.texts

theorem feeds_mnemonic (op : Opcode) : feeds op.mnemonic = 0 := by
  rw [feeds_eq_zero_iff]
  intro h
  have hblank := (Opcode.mnemonic_chars op _ h).1
  revert hblank
  decide

theorem feeds_word (k : MarkerKind) : feeds k.word = 0 := by
  cases k <;> decide

@[simp] theorem feeds_label (l : Label) : feeds l.describe = 0 := by
  unfold Label.describe
  rw [feeds_append, feeds_padded]
  decide

/-- A text keeps its line feeds in quotes. -/
theorem feeds_literal (s : String) : feeds (literal s) = feeds s := by
  have hchar : ∀ c, (literalChar c).count '\n' = [c].count '\n' := by
    intro c
    unfold literalChar
    split
    · rw [List.count_cons_of_ne (by decide)]
    · rfl
  have hchars : ∀ cs : List Char, (cs.flatMap literalChar).count '\n' = cs.count '\n' := by
    intro cs
    induction cs with
    | nil => rfl
    | cons c cs ih =>
      rw [List.flatMap_cons, List.count_append, hchar, ih, ← List.count_append,
        List.singleton_append]
  unfold feeds literal
  rw [String.toList_ofList, List.cons_append, List.count_cons_of_ne (by decide),
    List.count_append, hchars]
  rfl

theorem feeds_operand (o : Operand) : feeds o.describe = (o.texts.map feeds).sum := by
  have hsep : feeds " " = 0 ∧ feeds "::" = 0 ∧ feeds "(" = 0 ∧ feeds ", " = 0 ∧ feeds ")" = 0 := by
    decide
  obtain ⟨hspace, hcolons, hopen, hcomma, hclose⟩ := hsep
  cases o with
  | constant c => exact feeds_intRepr c.value
  | string s => simpa [Operand.texts, Operand.describe] using feeds_literal s
  | field f =>
    simp only [Operand.describe, FieldRef.describe, Operand.texts, feeds_append, hspace, hcolons,
      List.map_cons, List.map_nil, List.sum_cons, List.sum_nil]
    omega
  | method m =>
    simp only [Operand.describe, MethodRef.describe, Operand.texts, feeds_append, hspace, hcolons,
      hopen, hclose, feeds_intercalate hcomma, List.map_cons, List.sum_cons]
    omega
  | slot s =>
    change feeds ("V_" ++ s.index.repr) = 0
    rw [feeds_append, feeds_natRepr]
    decide
  | label l => exact feeds_label l

theorem feeds_marker (m : Marker) : feeds m.describe = (m.texts.map feeds).sum := by
  have hparens : feeds "(" = 0 ∧ feeds ")" = 0 := by decide
  unfold Marker.describe Marker.texts
  split
  · simp [feeds_word, hparens.1, hparens.2]
  · exact feeds_word m.kind

theorem feeds_instruction (i : Instruction) :
    feeds i.describe = ((i.operand.toList.flatMap Operand.texts).map feeds).sum := by
  have hspace : feeds " " = 0 := by decide
  unfold Instruction.describe Instruction.mnemonic
  cases i.operand with
  | none => exact feeds_mnemonic i.opcode
  | some o => simp [feeds_mnemonic, hspace, feeds_operand]

namespace Body

/-! ## Items -/

/-- What a listing shows of a body on a line of its own. -/
inductive Item where
  | marker (m : Marker)
  | label (l : Label)
  | instruction (index : Nat) (i : Instruction)

/-- What comes before an instruction in a listing: a sign when the instruction is pointed at, and
its index with four digits at least. -/
def pointer (highlight : Option Window) (index : Nat) : List Char :=
  (if ∃ w ∈ highlight, w.start ≤ index ∧ (index : Int) < w.start + w.length then '>' else ' ') ::
    ' ' :: (List.replicate (4 - (Nat.toDigits 10 index).length) '0' ++ Nat.toDigits 10 index)

/-- An item as a listing shows it. -/
def Item.shown (highlight : Option Window) : Item → List Char
  | marker m => "        .".toList ++ m.describe.toList
  | label l => l.describe.toList ++ [':']
  | instruction index i => pointer highlight index ++ ' ' :: ' ' :: i.describe.toList

/-- The items of an instruction: its markers and its labels come directly before it. -/
def itemsOf (index : Nat) (i : Instruction) : List Item :=
  i.markers.map .marker ++ i.labels.map .label ++ [.instruction index i]

/-- The items of a body, in the order of its instructions. -/
def items (b : Body) : List Item := b.zipIdx.flatMap fun (i, index) => itemsOf index i

variable {highlight : Option Window}

theorem newline_not_mem_pointer (index : Nat) : '\n' ∉ pointer highlight index := by
  unfold pointer
  simp only [List.mem_cons, List.mem_append, not_or]
  refine ⟨?_, by decide, ?_, not_mem_toDigits (by decide) index⟩
  · split <;> decide
  · intro h
    cases List.eq_of_mem_replicate h

theorem toList_pointer (index : Nat) :
    ((if highlight.any (·.contains index) then ">" else " ") ++ " " ++ padded 4 index).toList =
      pointer highlight index := by
  have hinside : highlight.any (·.contains index) = true ↔
      ∃ w ∈ highlight, w.start ≤ index ∧ (index : Int) < w.start + w.length := by
    simp only [Option.any_eq_true, Window.contains, Bool.and_eq_true, decide_eq_true_eq]
    rfl
  unfold pointer
  rw [String.toList_append, String.toList_append, toList_padded]
  by_cases h : highlight.any (·.contains index) = true
  · rw [if_pos h, if_pos (hinside.mp h)]
    rfl
  · rw [if_neg h, if_neg (mt hinside.mpr h)]
    rfl

theorem toList_instructionLines (index : Nat) (i : Instruction) :
    (instructionLines highlight index i).map String.toList =
      (itemsOf index i).map (Item.shown highlight) := by
  have hmarkers : (i.markers.map fun m => "        ." ++ m.describe).map String.toList =
      (i.markers.map Item.marker).map (Item.shown highlight) := by
    rw [List.map_map, List.map_map]
    exact List.map_congr_left fun m _ => String.toList_append
  have hlabels : (i.labels.map fun l => l.describe ++ ":").map String.toList =
      (i.labels.map Item.label).map (Item.shown highlight) := by
    rw [List.map_map, List.map_map]
    exact List.map_congr_left fun l _ => String.toList_append
  have hself : ((if highlight.any (·.contains index) then ">" else " ") ++ " " ++ padded 4 index ++
      "  " ++ i.describe).toList = Item.shown highlight (.instruction index i) := by
    rw [String.toList_append, String.toList_append, toList_pointer, List.append_assoc]
    rfl
  unfold instructionLines itemsOf
  rw [List.map_append, List.map_append, hmarkers, hlabels, List.map_append, List.map_append,
    List.map_singleton, List.map_singleton, hself]

theorem lines_of_ne_nil {b : Body} (hb : b ≠ []) :
    b.lines highlight = b.zipIdx.flatMap fun (i, index) => instructionLines highlight index i := by
  unfold lines
  rw [if_neg (by simpa using hb)]

theorem toList_lines {b : Body} (hb : b ≠ []) :
    (b.lines highlight).map String.toList = b.items.map (Item.shown highlight) := by
  rw [lines_of_ne_nil hb, items, List.map_flatMap, List.map_flatMap]
  exact List.flatMap_congr fun x _ => toList_instructionLines x.2 x.1

theorem length_items (b : Body) :
    b.items.length = (b.map fun i => i.markers.length + i.labels.length + 1).sum := by
  -- An instruction has its items at whatever index it stands.
  have hstart : ∀ (b : Body) (start : Nat),
      ((b.zipIdx start).flatMap fun (i, index) => itemsOf index i).length =
        (b.map fun i => i.markers.length + i.labels.length + 1).sum := by
    intro b
    induction b with
    | nil => exact fun _ => rfl
    | cons i b ih =>
      intro start
      rw [List.zipIdx_cons, List.flatMap_cons, List.length_append, ih, List.map_cons,
        List.sum_cons]
      simp [itemsOf, Nat.add_assoc]
  exact hstart b 0

theorem length_lines_eq {b : Body} (hb : b ≠ []) :
    (b.lines highlight).length = (b.map fun i => i.markers.length + i.labels.length + 1).sum := by
  rw [← length_items, ← List.length_map, toList_lines hb, List.length_map]

theorem feeds_instructionLines (index : Nat) (i : Instruction) :
    ((instructionLines highlight index i).map feeds).sum = (i.texts.map feeds).sum := by
  have hmarkers : ∀ ms : List Marker,
      ((ms.map fun m => "        ." ++ m.describe).map feeds).sum =
        ((ms.flatMap Marker.texts).map feeds).sum := by
    intro ms
    have hdot : feeds "        ." = 0 := by decide
    induction ms with
    | nil => rfl
    | cons m ms ih =>
      rw [List.map_cons, List.map_cons, List.sum_cons, ih, feeds_append, hdot, feeds_marker,
        List.flatMap_cons, List.map_append, List.sum_append, Nat.zero_add]
  have hlabels : ((i.labels.map fun l => l.describe ++ ":").map feeds).sum = 0 := by
    have hcolon : feeds ":" = 0 := by decide
    simp [Function.comp_def, hcolon]
  have hsign : feeds (if highlight.any (·.contains index) then ">" else " ") = 0 := by
    split <;> decide
  have hspaces : feeds " " = 0 ∧ feeds "  " = 0 := by decide
  unfold instructionLines Instruction.texts
  rw [List.map_append, List.map_append, List.sum_append, List.sum_append, hmarkers, hlabels,
    List.map_append, List.sum_append, List.map_singleton, List.sum_singleton, feeds_append,
    feeds_append, feeds_append, feeds_append, hsign, hspaces.1, hspaces.2, feeds_padded,
    feeds_instruction]
  omega

theorem feeds_lines {b : Body} (hb : b ≠ []) :
    ((b.lines highlight).map feeds).sum = ((b.flatMap Instruction.texts).map feeds).sum := by
  have hstart : ∀ (b : Body) (start : Nat),
      (((b.zipIdx start).flatMap fun (i, index) =>
        instructionLines highlight index i).map feeds).sum =
        ((b.flatMap Instruction.texts).map feeds).sum := by
    intro b
    induction b with
    | nil => exact fun _ => rfl
    | cons i b ih =>
      intro start
      rw [List.zipIdx_cons, List.flatMap_cons, List.flatMap_cons, List.map_append, List.map_append,
        List.sum_append, List.sum_append, ih, feeds_instructionLines]
  rw [lines_of_ne_nil hb]
  exact hstart b 0

/-- An instruction is pointed at in the first of its lines. -/
theorem shown_instruction (index : Nat) (i : Instruction) :
    ∃ first more, ((Item.instruction index i).shown highlight).splitOn '\n' =
      (pointer highlight index ++ ' ' :: ' ' :: first) :: more := by
  obtain ⟨first, more, h⟩ := List.exists_cons_of_ne_nil
    (List.splitOn_ne_nil '\n' (i.describe.toList))
  refine ⟨first, more, ?_⟩
  unfold Item.shown
  rw [splitOn_append_of_not_mem (newline_not_mem_pointer index)]
  change (([' ', ' '] ++ i.describe.toList).splitOn '\n').modifyHead _ = _
  rw [splitOn_append_of_not_mem (by decide), h]
  rfl

/-! ## The laws -/

/-- A listing of a body that is not empty ends with a line feed. Its lines show the items of the
body one after the other, an instruction being pointed at in the first of its lines, and there is a
line for each marker, label and instruction and one more for each line feed in a text of the body.
So each item is one line just when no text has a line feed, and only then are there as many lines
as items. -/
theorem a_listing_has_one_line_for_each_item_unless_a_text_has_more (b : Body) (hb : b ≠ [])
    (highlight : Option Window) :
    ∃ ls, Text.lines (b.render highlight) = ls ++ [[]] ∧
      ls = b.items.flatMap (fun x => (x.shown highlight).splitOn '\n') ∧
      (∀ index i, ∃ first more, ((Item.instruction index i).shown highlight).splitOn '\n' =
        (pointer highlight index ++ ' ' :: ' ' :: first) :: more) ∧
      ls.length = (b.map fun i => i.markers.length + i.labels.length + 1).sum +
        ((b.flatMap Instruction.texts).map feeds).sum ∧
      (ls = b.items.map (Item.shown highlight) ↔
        ∀ i ∈ b, ∀ s ∈ i.texts, '\n' ∉ s.toList) ∧
      (ls.length = (b.map fun i => i.markers.length + i.labels.length + 1).sum ↔
        ∀ i ∈ b, ∀ s ∈ i.texts, '\n' ∉ s.toList) := by
  have hne : b.lines highlight ≠ [] := by
    obtain ⟨i, rest, rfl⟩ := List.exists_cons_of_ne_nil hb
    refine List.ne_nil_of_length_pos ?_
    rw [length_lines_eq hb, List.map_cons, List.sum_cons]
    omega
  have hlength : ((b.lines highlight).flatMap Text.lines).length =
      (b.map fun i => i.markers.length + i.labels.length + 1).sum +
        ((b.flatMap Instruction.texts).map feeds).sum := by
    rw [length_flatMap_lines, feeds_lines hb, length_lines_eq hb]
  have hfeeds : ((b.flatMap Instruction.texts).map feeds).sum = 0 ↔
      ∀ i ∈ b, ∀ s ∈ i.texts, '\n' ∉ s.toList := by
    simp only [List.sum_eq_zero_iff_forall_eq_nat, List.forall_mem_map, List.forall_mem_flatMap,
      feeds_eq_zero_iff]
  refine ⟨(b.lines highlight).flatMap Text.lines, lines_intercalate hne, ?_, shown_instruction,
    hlength, ?_, ?_⟩
  · have hlines : (b.lines highlight).map String.toList = b.items.map (Item.shown highlight) :=
      toList_lines hb
    have hpieces := congrArg (List.flatMap (List.splitOn '\n')) hlines
    rw [List.flatMap_map, List.flatMap_map] at hpieces
    exact hpieces
  · rw [← toList_lines hb, flatMap_lines_eq_iff, feeds_lines hb]
    exact hfeeds
  · rw [hlength, ← hfeeds]
    omega

/-- Two instructions with a marker and a label, the second being pointed at. -/
theorem a_listing_of_two_instructions_with_a_marker_and_a_label :
    let b : Body := [⟨.nop, none, [], [⟨.beginTry, .null⟩], rfl⟩, ⟨.ret, none, [⟨2⟩], [], rfl⟩]
    b ≠ [] ∧ Text.lines (b.render (some ⟨1, 1⟩)) =
      ["        .try".toList, "  0000  nop".toList, "L_0002:".toList, "> 0001  ret".toList,
        []] := by
  intro b
  have hb : b ≠ [] := by simp [b]
  obtain ⟨ls, hlines, -, -, -, hitems, -⟩ :=
    a_listing_has_one_line_for_each_item_unless_a_text_has_more b hb (some ⟨1, 1⟩)
  have htexts : ∀ i ∈ b, ∀ s ∈ i.texts, '\n' ∉ s.toList := by decide +kernel
  refine ⟨hb, ?_⟩
  rw [hlines, hitems.mpr htexts]
  decide +kernel

/-- A text with a line feed has two lines though it is one item. A field whose name has a line feed
is listed as a field and a further instruction are. -/
theorem a_line_feed_in_a_text_makes_another_line :
    Text.lines (render [⟨.ldstr, some (.string "a\nb"), [], [], rfl⟩] none) =
        ["  0000  ldstr \"a".toList, "b\"".toList, []] ∧
      render [⟨.ldsfld, some (.field ⟨"T", "f\n  0001  nop", "object", true⟩), [], [], rfl⟩] none =
        render [⟨.ldsfld, some (.field ⟨"T", "f", "object", true⟩), [], [], rfl⟩,
          ⟨.nop, none, [], [], rfl⟩] none := by
  constructor
  · decide +kernel
  · decide +kernel

end Body
end Peephole
