import PrefixArithmetic.Text.Blank
import PrefixArithmetic.Text.Quoted
import Mathlib.Tactic

/-!
# Texts in lines

A text whose only blanks are spaces stands in one line, whatever else is in it.
Texts that are put together of such texts are such texts again, and so is every
quoted text: all other blanks are characters that quoting does not show. What is
printed with a newline behind each text can be taken apart into the texts again.
-/
namespace PrefixArithmetic.Text

/-- The only blanks of the text are spaces. -/
def Spaced (text : String) : Prop := ∀ c ∈ text.toList, isBlank c = true → c = ' '

instance (text : String) : Decidable (Spaced text) :=
  List.decidableBAll (fun c => isBlank c = true → c = ' ') text.toList

theorem spaced_of_noBlank {text : String} (h : ∀ c ∈ text.toList, isBlank c = false) :
    Spaced text := by
  intro c hc hblank
  rw [h c hc] at hblank
  cases hblank

section Assembly
variable {front inner back separator : String} {parts : List String}

theorem Spaced.append (hfront : Spaced front) (hback : Spaced back) : Spaced (front ++ back) := by
  rw [Spaced, String.toList_append]
  exact List.forall_mem_append.mpr ⟨hfront, hback⟩

theorem Spaced.enclosed (hinner : Spaced inner) (hfront : Spaced front) (hback : Spaced back) :
    Spaced (front ++ inner ++ back) :=
  (hfront.append hinner).append hback

/-- What holds of the characters of the parts and of what stands between them holds of all. -/
theorem forall_mem_intercalate {p : Char → Prop} (hseparator : ∀ c ∈ separator.toList, p c)
    (hparts : ∀ part ∈ parts, ∀ c ∈ part.toList, p c) :
    ∀ c ∈ (separator.intercalate parts).toList, p c := by
  induction parts with
  | nil => simp
  | cons part rest ih =>
    obtain ⟨hpart, hrest⟩ := List.forall_mem_cons.mp hparts
    cases rest with
    | nil => simpa using hpart
    | cons next rest =>
      rw [String.intercalate_cons_cons, String.toList_append, String.toList_append]
      exact List.forall_mem_append.mpr
        ⟨List.forall_mem_append.mpr ⟨hpart, hseparator⟩, ih hrest⟩

theorem spaced_intercalate (hseparator : Spaced separator) (hparts : ∀ part ∈ parts, Spaced part) :
    Spaced (separator.intercalate parts) :=
  forall_mem_intercalate hseparator hparts

theorem spaced_listed (hparts : ∀ part ∈ parts, Spaced part) : Spaced (listed parts) := by
  have hinner : Spaced (", ".intercalate parts) := spaced_intercalate (by decide) hparts
  exact hinner.enclosed (by decide) (by decide)

end Assembly

section Digits

/-- The digits of a number are those of its base. -/
theorem exists_digit_of_mem_toDigits {base n : ℕ} {c : Char} (hbase : 1 < base)
    (h : c ∈ Nat.toDigits base n) : ∃ digit < base, c = Nat.digitChar digit := by
  induction n using Nat.strong_induction_on with
  | _ n ih =>
    rw [Nat.toDigits_eq_if hbase] at h
    split_ifs at h with hlt
    · exact ⟨n, hlt, List.mem_singleton.mp h⟩
    · rcases List.mem_append.mp h with hfront | hlast
      · exact ih (n / base) (Nat.div_lt_self (by omega) hbase) hfront
      · exact ⟨n % base, Nat.mod_lt n (by omega), List.mem_singleton.mp hlast⟩

theorem isBlank_digitChar : ∀ digit < 16, isBlank (Nat.digitChar digit) = false := by decide

theorem isBlank_of_mem_toDigits {base n : ℕ} {c : Char} (hbase : 1 < base) (hle : base ≤ 16)
    (h : c ∈ Nat.toDigits base n) : isBlank c = false := by
  obtain ⟨digit, hdigit, rfl⟩ := exists_digit_of_mem_toDigits hbase h
  exact isBlank_digitChar digit (by omega)

theorem spaced_natRepr (n : ℕ) : Spaced n.repr := by
  refine spaced_of_noBlank fun c hc => ?_
  rw [Nat.toList_repr] at hc
  exact isBlank_of_mem_toDigits (by decide) (by decide) hc

theorem spaced_intRepr (n : ℤ) : Spaced n.repr := by
  cases n with
  | ofNat n => exact spaced_natRepr n
  | negSucc n =>
    have hsign : Spaced "-" := by decide
    exact hsign.append (spaced_natRepr (n + 1))

end Digits

section Quoted

/-- The ranges of the blanks but for the space lie in ranges of what is not printed. -/
lemma whiteSpace_subset_unprintable :
    ∀ range ∈ whiteSpace, range = (0x20, 0x20) ∨
      ∃ other ∈ unprintable, other.1 ≤ range.1 ∧ range.2 ≤ other.2 := by
  decide +kernel

theorem isHidden_of_isBlank {c : Char} (h : isBlank c = true) (hspace : c ≠ ' ') :
    isHidden c = true := by
  obtain ⟨range, hrange, hlower, hupper⟩ := Ranges.cover_iff.mp h
  rw [isHidden, Bool.or_eq_true, Ranges.cover_iff, Ranges.cover_iff]
  rcases whiteSpace_subset_unprintable range hrange with rfl | ⟨other, hother, hle, hge⟩
  · have hcode : c.toNat = ' '.toNat := Nat.le_antisymm hupper hlower
    exact absurd (Char.toNat_inj.mp hcode) hspace
  · exact .inr ⟨other, hother, by omega, by omega⟩

/-- No character is shown as a blank that is not a space. -/
theorem spaced_escape (c : Char) : Spaced (String.ofList (escape c)) := by
  unfold escape
  split_ifs with _ _ _ _ _ _ hhidden
  -- the escapes that are named by one character are closed texts
  any_goals decide
  · rw [String.ofList_append, String.ofList_append]
    refine Spaced.enclosed (spaced_of_noBlank fun digit hdigit => ?_) (by decide) (by decide)
    rw [String.toList_ofList] at hdigit
    exact isBlank_of_mem_toDigits (by decide) (by decide) hdigit
  · intro shown hshown hblank
    rw [String.toList_ofList, List.mem_singleton] at hshown
    subst hshown
    by_contra hspace
    exact hhidden (isHidden_of_isBlank hblank hspace)

theorem spaced_quoted (text : String) : Spaced (quoted text) := by
  have hinner : Spaced (String.ofList (text.toList.flatMap escape)) := by
    intro c hc
    rw [String.toList_ofList] at hc
    obtain ⟨original, -, hshown⟩ := List.mem_flatMap.mp hc
    exact spaced_escape original c (by rwa [String.toList_ofList])
  exact hinner.enclosed (by decide) (by decide)

end Quoted

/-- The lines of a printed text: what each newline ends, and what stands behind the last. -/
def printedLines (text : String) : List String := (text.toList.splitOn '\n').map String.ofList

section PrintedLines

/-- A newline ends the lines before it. -/
theorem printedLines_append_newline (front back : String) :
    printedLines (front ++ "\n" ++ back) = printedLines front ++ printedLines back := by
  have hchars : (front ++ "\n" ++ back).toList = front.toList ++ '\n' :: back.toList := by
    simp
  rw [printedLines, hchars, List.splitOn_append_cons_self, List.map_append]
  rfl

theorem printedLines_ended (text : String) :
    printedLines (text ++ "\n") = printedLines text ++ [""] := by
  have hlines := printedLines_append_newline text ""
  rwa [String.append_empty] at hlines

theorem printedLines_of_spaced {text : String} (h : Spaced text) : printedLines text = [text] := by
  have hnewline : '\n' ∉ text.toList := fun hmem => absurd (h '\n' hmem (by decide)) (by decide)
  rw [printedLines, List.splitOn_eq_singleton hnewline, List.map_singleton, String.ofList_toList]

/-- There is one line more than there are newlines. -/
theorem length_printedLines (text : String) :
    (printedLines text).length = text.toList.count '\n' + 1 := by
  rw [printedLines, List.length_map]
  induction text.toList with
  | nil => rfl
  | cons c rest ih =>
    rw [List.splitOn_cons_eq_if_modifyHead, List.count_cons]
    split_ifs with hc
    · rw [List.length_cons, ih]
    · rw [List.length_modifyHead, ih]

theorem printedLines_intercalate {lines : List String} (hne : lines ≠ [])
    (h : ∀ line ∈ lines, Spaced line) : printedLines ("\n".intercalate lines) = lines := by
  induction lines with
  | nil => exact absurd rfl hne
  | cons line rest ih =>
    obtain ⟨hline, hrest⟩ := List.forall_mem_cons.mp h
    cases rest with
    | nil => rw [String.intercalate_singleton, printedLines_of_spaced hline]
    | cons next rest =>
      rw [String.intercalate_cons_cons, printedLines_append_newline, printedLines_of_spaced hline,
        ih (List.cons_ne_nil next rest) hrest, List.singleton_append]

/-- Texts with a newline behind each are the lines of what they make. -/
theorem printedLines_join {texts : List String} (h : ∀ text ∈ texts, Spaced text) :
    printedLines (String.join (texts.map (· ++ "\n"))) = texts ++ [""] := by
  induction texts with
  | nil => rfl
  | cons text rest ih =>
    obtain ⟨htext, hrest⟩ := List.forall_mem_cons.mp h
    rw [List.map_cons, String.join_cons, printedLines_append_newline, printedLines_of_spaced htext,
      ih hrest, List.singleton_append, List.cons_append]

/-- Texts with a newline behind each, and one more between them. -/
theorem printedLines_separated (texts : List String) :
    printedLines ("\n".intercalate (texts.map (· ++ "\n"))) =
      [""].intercalate (texts.map printedLines) ++ [""] := by
  induction texts with
  | nil => rfl
  | cons text rest ih =>
    cases rest with
    | nil => simp [printedLines_ended]
    | cons next rest =>
      simp only [List.map_cons] at ih ⊢
      rw [String.intercalate_cons_cons, printedLines_append_newline, printedLines_ended, ih,
        List.intercalate_cons_cons]
      simp only [List.append_assoc]

end PrintedLines

end PrefixArithmetic.Text
