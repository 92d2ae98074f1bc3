import PrefixArithmetic.Proofs.Script.Pieces
import PrefixArithmetic.Proofs.Text.Trim

/-!
# Kept lines

What a script keeps of a line depends only on the line without the blanks at its
ends, so it makes no difference how lines end and what blanks are around them.
Lines are kept or left out one by one: a script that is put together of others
keeps what they keep.
-/
namespace PrefixArithmetic.Script

/-- The lines of a text that hold an expression, as they are evaluated. -/
def kept (text : String) : List String := expressions (lines text)

theorem expression?_congr {line other : List Char} (h : Text.trim line = Text.trim other) :
    expression? line = expression? other := by
  rw [expression?, expression?, h]

/-- The first character of the line that is no blank, if there is any, starts a comment. -/
def Skipped (line : List Char) : Prop := ∀ c ∈ line.find? (!Text.isBlank ·), c = '#'

instance (line : List Char) : Decidable (Skipped line) :=
  Option.decidableForallMem (line.find? (!Text.isBlank ·))

theorem expression?_eq_none_iff {line : List Char} : expression? line = none ↔ Skipped line := by
  rw [Skipped, ← Text.head?_trim, expression?]
  cases Text.trim line with
  | nil => simp
  | cons c rest => simp

theorem expression?_of_kept {line : List Char} (hne : Text.trim line ≠ [])
    (hcomment : (Text.trim line).head? ≠ some '#') :
    expression? line = some (String.ofList (Text.trim line)) := by
  simp [expression?, hne, hcomment]

section Endings

/-- The ending of a line is blank. -/
theorem trim_unended (piece : List Char) : Text.trim (unended piece) = Text.trim piece := by
  have hreverse := piece.reverse_reverse
  unfold unended
  split
  next line h =>
    rw [h, List.reverse_cons, List.reverse_cons, List.append_assoc] at hreverse
    rw [← hreverse, Text.trim_append_blank]
    decide
  next line _ h =>
    rw [h, List.reverse_cons] at hreverse
    rw [← hreverse, Text.trim_append_blank]
    decide
  next => rfl

theorem kept_eq_filterMap (text : String) :
    kept text = (pieces '\n' text.toList).filterMap expression? := by
  have hpiece : ∀ piece : List Char,
      expression? (line (String.ofList piece)).toList = expression? piece := by
    intro piece
    rw [line, String.toList_ofList, String.toList_ofList]
    exact expression?_congr (trim_unended piece)
  rw [kept, lines, textPieces, expressions, List.filterMap_map, List.filterMap_map]
  refine List.filterMap_congr fun piece _ => ?_
  simp only [Function.comp_apply, hpiece]

theorem ofFile?_toUTF8 (text : String) : ofFile? text.toUTF8 = some (kept text) := by
  rw [ofFile?, fromUTF8?_eq_some_iff.mpr rfl]
  rfl

end Endings

/-- The text ends with a line, or is empty. -/
def EndsLine (text : String) : Prop := text = "" ∨ text.toList.getLast? = some '\n'

instance (text : String) : Decidable (EndsLine text) :=
  inferInstanceAs (Decidable (text = "" ∨ text.toList.getLast? = some '\n'))

theorem kept_append {front : String} (h : EndsLine front) (back : String) :
    kept (front ++ back) = kept front ++ kept back := by
  rcases h with rfl | hlast
  · rw [String.empty_append]
    rfl
  · obtain ⟨body, hbody⟩ := List.getLast?_eq_some_iff.mp hlast
    rw [kept_eq_filterMap, kept_eq_filterMap, kept_eq_filterMap, String.toList_append, hbody,
      List.append_assoc, List.singleton_append, pieces_append_cons_mark, List.filterMap_append]

/-- Each of the texts is one line. -/
def AreLines (lines : List String) : Prop := ∀ line ∈ lines, '\n' ∉ line.toList

instance (lines : List String) : Decidable (AreLines lines) :=
  inferInstanceAs (Decidable (∀ line ∈ lines, '\n' ∉ line.toList))

theorem areLines_append_iff {front back : List String} :
    AreLines (front ++ back) ↔ AreLines front ∧ AreLines back :=
  List.forall_mem_append

theorem areLines_cons_iff {line : String} {rest : List String} :
    AreLines (line :: rest) ↔ '\n' ∉ line.toList ∧ AreLines rest :=
  List.forall_mem_cons

lemma newline_toList : "\n".toList = ['\n'] := by decide

/-- What is kept of a text is what is kept of its lines. -/
theorem kept_intercalate {lines : List String} (h : AreLines lines) :
    kept ("\n".intercalate lines) = expressions lines := by
  rw [kept_eq_filterMap, expressions, String.toList_intercalate]
  induction lines with
  | nil => rfl
  | cons line rest ih =>
    obtain ⟨hline, hrest⟩ := areLines_cons_iff.mp h
    cases rest with
    | nil =>
      rw [List.map_singleton, List.intercalate_singleton]
      by_cases hempty : line.toList = []
      · simp [hempty, expression?]
      · simp [pieces_of_not_mem hempty hline, List.filterMap_cons]
    | cons next rest =>
      have hnewline : expression? (line.toList ++ ['\n']) = expression? line.toList :=
        expression?_congr (Text.trim_append_blank (by decide) _)
      have htail := ih hrest
      rw [List.map_cons] at htail
      rw [List.map_cons, List.map_cons, List.intercalate_cons_cons, newline_toList,
        List.append_assoc, List.singleton_append, pieces_append_mark hline, List.filterMap_cons,
        hnewline, ← newline_toList, htail]
      rfl

/-- Every newline gets a carriage return before it. -/
def withReturn (c : Char) : List Char := if c = '\n' then ['\r', '\n'] else [c]

theorem keepsEnds_withReturn : KeepsEnds '\n' '\n' withReturn where
  ending := ⟨['\r'], by decide, rfl⟩
  inner c h := by
    rw [withReturn, if_neg h]
    exact ⟨List.cons_ne_nil c [], by simpa using Ne.symm h⟩

lemma flatMap_withReturn {line : List Char} (h : '\n' ∉ line) : line.flatMap withReturn = line := by
  have hsame : ∀ c ∈ line, withReturn c = [c] := by
    intro c hc
    exact if_neg (ne_of_mem_of_not_mem hc h)
  rw [List.flatMap_congr hsame, List.flatMap_singleton']

lemma expression?_withReturn {piece : List Char} (h : ∃ body, '\n' ∉ body ∧
    (piece = body ∨ piece = body ++ ['\n'])) :
    expression? (piece.flatMap withReturn) = expression? piece := by
  obtain ⟨body, hbody, rfl | rfl⟩ := h
  · rw [flatMap_withReturn hbody]
  · refine expression?_congr ?_
    have hending : ['\n'].flatMap withReturn = ['\r', '\n'] := by decide
    rw [List.flatMap_append, flatMap_withReturn hbody, hending,
      Text.trim_append_blank (by decide), Text.trim_append_blank (by decide)]

/-- Lines may end with a carriage return and a newline. -/
theorem kept_withReturn (text : String) :
    kept (String.ofList (text.toList.flatMap withReturn)) = kept text := by
  rw [kept_eq_filterMap, kept_eq_filterMap, String.toList_ofList,
    pieces_flatMap keepsEnds_withReturn, List.filterMap_map]
  refine List.filterMap_congr fun piece hpiece => ?_
  exact expression?_withReturn (exists_body_of_mem_pieces hpiece)

end PrefixArithmetic.Script
