import PrefixArithmetic.Text.Blank
import Mathlib.Data.List.TakeWhile

/-!
# Trimmed text

Blanks at the ends of a text belong to no word, so a text has the words that it
has without them. What is left after trimming starts with the first character
that is no blank.
-/
namespace PrefixArithmetic.Text

/-- Blanks and nothing else. -/
def AllBlank (text : List Char) : Prop := ∀ c ∈ text, isBlank c = true

instance (text : List Char) : Decidable (AllBlank text) :=
  List.decidableBAll (fun c => isBlank c = true) text

section Ends
variable {left right : List Char}

theorem trim_blank_append (h : AllBlank left) (text : List Char) :
    trim (left ++ text) = trim text := by
  rw [trim, List.dropWhile_append_of_pos h, ← trim]

theorem trim_append_blank (h : AllBlank right) (text : List Char) :
    trim (text ++ right) = trim text := by
  have hreverse : ∀ c ∈ right.reverse, isBlank c = true := fun c hc => h c (List.mem_reverse.mp hc)
  rw [trim, List.dropWhile_append]
  split_ifs with hempty
  · have hright : right.dropWhile isBlank = [] := List.dropWhile_eq_nil_iff.mpr h
    rw [hright, trim, List.isEmpty_iff.mp hempty]
  · rw [List.reverse_append, List.dropWhile_append_of_pos hreverse, ← trim]

/-- Trimming takes away nothing but blanks, at both ends. -/
theorem exists_trim (text : List Char) :
    ∃ left right, AllBlank left ∧ AllBlank right ∧ text = left ++ trim text ++ right := by
  have hfront := List.takeWhile_append_dropWhile (p := isBlank) (l := text)
  have hback := List.takeWhile_append_dropWhile (p := isBlank) (l := (text.dropWhile isBlank).reverse)
  refine ⟨text.takeWhile isBlank, ((text.dropWhile isBlank).reverse.takeWhile isBlank).reverse,
    fun c hc => List.mem_takeWhile_imp hc,
    fun c hc => List.mem_takeWhile_imp (List.mem_reverse.mp hc), ?_⟩
  rw [List.append_assoc, trim, ← List.reverse_append, hback, List.reverse_reverse, hfront]

theorem words_blank_append (h : AllBlank left) (text : List Char) :
    words (left ++ text) = words text := by
  induction left with
  | nil => rfl
  | cons c left ih =>
    obtain ⟨hc, hleft⟩ := List.forall_mem_cons.mp h
    rw [List.cons_append, words_cons_blank hc, ih hleft]

theorem words_of_allBlank {text : List Char} (h : AllBlank text) : words text = [] := by
  have hwords := words_blank_append h []
  rwa [List.append_nil, words_nil] at hwords

theorem words_append_allBlank (h : AllBlank right) (text : List Char) :
    words (text ++ right) = words text := by
  cases right with
  | nil => rw [List.append_nil]
  | cons c right =>
    obtain ⟨hc, hright⟩ := List.forall_mem_cons.mp h
    rw [words_append_blank hc, words_of_allBlank hright, List.append_nil]

/-- A text has the words that it has without the blanks at its ends. -/
theorem words_trim (text : List Char) : words (trim text) = words text := by
  obtain ⟨left, right, hleft, hright, htext⟩ := exists_trim text
  have hwords : words text = words (left ++ trim text ++ right) := congrArg words htext
  rw [hwords, words_append_allBlank hright, words_blank_append hleft]

end Ends

/-- A trimmed text starts with the first character of the text that is no blank. -/
theorem head?_trim (text : List Char) : (trim text).head? = text.find? (!isBlank ·) := by
  have hfind : text.find? (!isBlank ·) = (text.dropWhile isBlank).head? := by
    simpa using List.find?_eq_head?_dropWhile_not (!isBlank ·) text
  rw [hfind]
  cases hrest : text.dropWhile isBlank with
  | nil => rw [trim, hrest]; rfl
  | cons c rest =>
    have hc : isBlank c = false := by
      have := List.head?_dropWhile_not isBlank text
      rwa [hrest] at this
    -- the last of the reversed characters is no blank, so it stays
    rw [trim, hrest, List.reverse_cons, List.dropWhile_append]
    split_ifs
    · simp [hc]
    · simp

theorem isBlank_of_mem_splitOnP {text piece : List Char} (h : piece ∈ text.splitOnP isBlank) :
    ∀ c ∈ piece, isBlank c = false := by
  induction text generalizing piece with
  | nil =>
    rw [List.splitOnP_nil, List.mem_singleton] at h
    rw [h]
    nofun
  | cons c text ih =>
    rw [List.splitOnP_cons_eq_if_modifyHead] at h
    split_ifs at h with hc
    · rcases List.mem_cons.mp h with rfl | hpiece
      · nofun
      · exact ih hpiece
    · obtain ⟨first, rest, hsplit⟩ := List.exists_cons_of_ne_nil (List.splitOnP_ne_nil isBlank text)
      rw [hsplit, List.modifyHead_cons] at h
      rw [hsplit] at ih
      rcases List.mem_cons.mp h with rfl | hpiece
      · exact List.forall_mem_cons.mpr ⟨Bool.eq_false_iff.mpr hc, ih List.mem_cons_self⟩
      · exact ih (List.mem_cons_of_mem first hpiece)

/-- A word has no blank in it. -/
theorem isBlank_of_mem_words {text word : List Char} (h : word ∈ words text) :
    ∀ c ∈ word, isBlank c = false :=
  isBlank_of_mem_splitOnP (List.mem_filter.mp h).1

end PrefixArithmetic.Text
