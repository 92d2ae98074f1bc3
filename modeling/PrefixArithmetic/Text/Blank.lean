import PrefixArithmetic.Text.Ranges

/-!
# Blanks and words

Blanks are the White_Space characters of Unicode. The words of a text are its
longest runs of other characters, in order. One equation carries the rest: a
blank ends the words before it and starts those after it afresh. A scan that
takes the longest match at the front, again and again, and skips the blanks
finds the words and nothing else.
-/
namespace PrefixArithmetic.Text

/-- The White_Space property. -/
def whiteSpace : Ranges :=
  [(0x09, 0x0d), (0x20, 0x20), (0x85, 0x85), (0xa0, 0xa0), (0x1680, 0x1680),
   (0x2000, 0x200a), (0x2028, 0x2029), (0x202f, 0x202f), (0x205f, 0x205f), (0x3000, 0x3000)]

def isBlank (c : Char) : Bool := whiteSpace.cover c

/-- The longest runs of characters that are not blank. -/
def words (text : List Char) : List (List Char) := (text.splitOnP isBlank).filter (!·.isEmpty)

@[simp] theorem words_nil : words [] = [] := by simp [words]

theorem words_append_blank {c : Char} (h : isBlank c) (front back : List Char) :
    words (front ++ c :: back) = words front ++ words back := by
  simp only [words, List.splitOnP_append_cons _ _ h, List.filter_append]

theorem words_cons_blank {c : Char} (h : isBlank c) (text : List Char) :
    words (c :: text) = words text := by
  simpa using words_append_blank h [] text

theorem words_of_no_blank {text : List Char} (hne : text ≠ [])
    (h : ∀ c ∈ text, isBlank c = false) : words text = [text] := by
  simp [words, List.splitOnP_eq_singleton h, hne]

/-- A word in front is the first word, if a blank follows it. -/
theorem words_cons_word {word : List Char} {c : Char} (hne : word ≠ [])
    (hword : ∀ c ∈ word, isBlank c = false) (h : isBlank c) (text : List Char) :
    words (word ++ c :: text) = word :: words text := by
  rw [words_append_blank h, words_of_no_blank hne hword]
  rfl

theorem drop_length_takeWhile (text : List Char) (kind : Char → Bool) :
    text.drop (text.takeWhile kind).length = text.dropWhile kind := by
  have h : (text.takeWhile kind ++ text.dropWhile kind).drop (text.takeWhile kind).length =
    text.dropWhile kind := List.drop_left
  rwa [List.takeWhile_append_dropWhile] at h

/-- What stands at the front of a text: a word, or the blanks before one, or a character that
begins neither. -/
inductive Lexeme where
  | word (chars : List Char)
  | blanks (chars : List Char)
  | stray (char : Char)

namespace Lexeme

/-- The characters that a lexeme is read from. -/
def chars : Lexeme → List Char
  | word chars => chars
  | blanks chars => chars
  | stray c => [c]

/-- What is kept of a lexeme. Blanks are skipped. -/
def kept? : Lexeme → Option (List Char)
  | word chars => some chars
  | blanks _ => none
  | stray c => some [c]

/-- The longest match at the front, of characters that are not blank or of blanks. Where neither
matches, one character is taken. -/
def front (c : Char) (text : List Char) : Lexeme :=
  let word := (c :: text).takeWhile (!isBlank ·)
  let blanks := (c :: text).takeWhile isBlank
  if blanks.length < word.length then .word word
  else if blanks.isEmpty then .stray c
  else .blanks blanks

-- The first character alone decides which of the two matches, so the other has no length.
section Front
variable {c : Char} (text : List Char)

theorem front_of_blank (h : isBlank c) : front c text = .blanks (c :: text.takeWhile isBlank) := by
  simp [front, h]

theorem front_of_not_blank (h : isBlank c = false) :
    front c text = .word (c :: text.takeWhile (!isBlank ·)) := by
  simp [front, h]

theorem drop_front_of_blank (h : isBlank c) :
    (c :: text).drop (front c text).chars.length = text.dropWhile isBlank := by
  rw [front_of_blank text h]
  exact drop_length_takeWhile text isBlank

theorem drop_front_of_not_blank (h : isBlank c = false) :
    (c :: text).drop (front c text).chars.length = text.dropWhile (!isBlank ·) := by
  rw [front_of_not_blank text h]
  exact drop_length_takeWhile text (!isBlank ·)

theorem length_chars_front_pos : 0 < (front c text).chars.length := by
  cases h : isBlank c with
  | true => simp [front_of_blank text h, chars]
  | false => simp [front_of_not_blank text h, chars]

theorem front_ne_stray (d : Char) : front c text ≠ .stray d := by
  cases h : isBlank c with
  | true => simp [front_of_blank text h]
  | false => simp [front_of_not_blank text h]

end Front

end Lexeme

/-- The lexemes of a text, each read where the one before it ends. -/
def lexemes : List Char → List Lexeme
  | [] => []
  | c :: text =>
    let lexeme := Lexeme.front c text
    lexeme :: lexemes ((c :: text).drop lexeme.chars.length)
termination_by text => text.length
decreasing_by
  have hpos := Lexeme.length_chars_front_pos (c := c) text
  rw [List.length_drop, List.length_cons]
  omega

/-- Every character begins a word or is blank. -/
theorem stray_not_mem_lexemes (d : Char) (text : List Char) : .stray d ∉ lexemes text := by
  induction text using lexemes.induct with
  | case1 => simp [lexemes]
  | case2 c text lexeme ih =>
    rw [lexemes, List.mem_cons, not_or]
    exact ⟨(Lexeme.front_ne_stray text d).symm, ih⟩

section Words
variable {c : Char} (text : List Char)

theorem words_dropWhile : words (text.dropWhile isBlank) = words text := by
  induction text with
  | nil => rfl
  | cons c text ih =>
    cases h : isBlank c with
    | true => rw [List.dropWhile_cons_of_pos h, ih, words_cons_blank h]
    | false => rw [List.dropWhile_cons_of_neg (Bool.eq_false_iff.mp h)]

/-- A word goes on until a blank comes. -/
theorem words_of_not_blank (h : isBlank c = false) :
    words (c :: text) =
      (c :: text.takeWhile (!isBlank ·)) :: words (text.dropWhile (!isBlank ·)) := by
  have hword : ∀ d ∈ c :: text.takeWhile (!isBlank ·), isBlank d = false := by
    refine List.forall_mem_cons.mpr ⟨h, fun d hd => ?_⟩
    simpa using List.all_eq_true.mp List.all_takeWhile d hd
  have htext : c :: text =
      (c :: text.takeWhile (!isBlank ·)) ++ text.dropWhile (!isBlank ·) := by
    rw [List.cons_append, List.takeWhile_append_dropWhile]
  cases hrest : text.dropWhile (!isBlank ·) with
  | nil =>
    rw [hrest, List.append_nil] at htext
    rw [htext, words_of_no_blank (List.cons_ne_nil _ _) hword, words_nil]
  | cons d rest =>
    have hd : isBlank d := by
      have hhead := List.head_dropWhile_not (!isBlank ·) (l := text) (by simp [hrest])
      simpa [hrest] using hhead
    rw [hrest] at htext
    rw [htext, words_cons_word (List.cons_ne_nil _ _) hword hd, words_cons_blank hd]

/-- What is kept of the lexemes are the words. -/
theorem filterMap_kept?_lexemes : (lexemes text).filterMap Lexeme.kept? = words text := by
  induction text using lexemes.induct with
  | case1 => simp [lexemes]
  | case2 c text lexeme ih =>
    rw [lexemes]
    cases h : isBlank c with
    | true =>
      -- The scan goes on behind all the blanks, and they make no difference to the words.
      have hskipped : lexeme.kept? = none := congrArg _ (Lexeme.front_of_blank text h)
      rw [List.filterMap_cons_none hskipped, ih, Lexeme.drop_front_of_blank text h,
        words_dropWhile, words_cons_blank h]
    | false =>
      have hkept : lexeme.kept? = some (c :: text.takeWhile (!isBlank ·)) :=
        congrArg _ (Lexeme.front_of_not_blank text h)
      rw [List.filterMap_cons_some hkept, ih, Lexeme.drop_front_of_not_blank text h,
        words_of_not_blank text h]

end Words

theorem isBlank_of_isDigit {c : Char} (h : c.isDigit = true) : isBlank c = false := by
  have hrange : 48 ≤ c.toNat ∧ c.toNat ≤ 57 := by
    simpa [Char.isDigit, UInt32.le_iff_toNat_le] using h
  rw [← Bool.not_eq_true, isBlank, Ranges.cover_iff]
  simp only [whiteSpace, List.mem_cons, List.not_mem_nil, or_false, not_exists, not_and]
  rintro range (rfl | rfl | rfl | rfl | rfl | rfl | rfl | rfl | rfl | rfl) <;> omega

/-- The text without the blanks at its two ends. -/
def trim (text : List Char) : List Char :=
  ((text.dropWhile isBlank).reverse.dropWhile isBlank).reverse

@[simp] theorem trim_nil : trim [] = [] := rfl

end PrefixArithmetic.Text
