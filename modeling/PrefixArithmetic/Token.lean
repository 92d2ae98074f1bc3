import PrefixArithmetic.Integer64
import PrefixArithmetic.Text.Blank

/-!
# Tokens

The tokens of a source are its words, which a scan of its lexemes finds. A token
of decimal digits alone is a literal; any other token, a signed number among them,
stands for an operation.
-/
namespace PrefixArithmetic

/-- The tokens of a source, in order. Every source has tokens, if only none. -/
def tokenize (source : String) : List String := (Text.words source.toList).map String.ofList

/-- The tokens are what a scan keeps of the lexemes of the source. -/
theorem tokenize_eq_lexemes (source : String) :
    tokenize source =
      ((Text.lexemes source.toList).filterMap Text.Lexeme.kept?).map String.ofList := by
  rw [Text.filterMap_kept?_lexemes, tokenize]

/-- Words with blanks between them are the tokens of the text that they make. -/
theorem tokenize_intercalate {tokens : List String}
    (h : ∀ token ∈ tokens, token ≠ "" ∧ ∀ c ∈ token.toList, Text.isBlank c = false) :
    tokenize (" ".intercalate tokens) = tokens := by
  induction tokens with
  | nil => rfl
  | cons token rest ih =>
    obtain ⟨⟨hne, hblank⟩, hrest⟩ := List.forall_mem_cons.mp h
    have hchars : token.toList ≠ [] := fun hnil => hne (String.toList_eq_nil_iff.mp hnil)
    cases rest with
    | nil => simp [tokenize, Text.words_of_no_blank hchars hblank]
    | cons next rest =>
      have hspace : Text.isBlank ' ' = true := by decide
      have hwords := Text.words_cons_word hchars hblank hspace
        (" ".intercalate (next :: rest)).toList
      have htext : (" ".intercalate (token :: next :: rest)).toList =
          token.toList ++ ' ' :: (" ".intercalate (next :: rest)).toList := by
        simp [String.intercalate_cons_cons]
      rw [tokenize, htext, hwords, List.map_cons, String.ofList_toList, ← tokenize, ih hrest]

namespace Token

/-- Decimal digits and nothing else. -/
def isLiteral (token : String) : Bool := Integer64.isDigits token.toList

/-- The integer a token is written for. -/
def integer? (token : String) : Option Int64 := Integer64.ofText? token.toList

end Token

end PrefixArithmetic
