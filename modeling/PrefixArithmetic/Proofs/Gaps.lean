import PrefixArithmetic.Proofs.Text.Trim
import PrefixArithmetic.Report
import Mathlib.Data.List.Basic

/-!
# Words and gaps

A source is its tokens with blanks before the first, between two, and behind the
last of them. Only between two tokens there has to be a blank, so this is one way
to read a source and no more: the tokens are found again whatever the blanks are,
and every source is made up of its tokens like that.
-/
namespace PrefixArithmetic
open Text

/-- Blanks to put around a row of pieces: some before the first and some behind each. Between two
pieces there is one at least. -/
structure Gaps (count : ℕ) where
  leading : String
  behind : List String
  length_behind : behind.length = count
  leading_blank : AllBlank leading.toList
  behind_blank : ∀ gap ∈ behind, AllBlank gap.toList
  between_ne : ∀ gap ∈ behind.dropLast, gap ≠ ""

namespace Gaps
variable {pieces : List String} {count : ℕ}

/-- The pieces in a row, with the gaps around them. -/
def fill (pieces : List String) (gaps : Gaps pieces.length) : String :=
  gaps.leading ++ String.join (pieces.zipWith (· ++ ·) gaps.behind)

/-- Blanks around no piece at all. -/
def blanks (text : String) (h : AllBlank text.toList) : Gaps 0 where
  leading := text
  behind := []
  length_behind := rfl
  leading_blank := h
  behind_blank := nofun
  between_ne := nofun

/-- One more blank in front. -/
def widen {c : Char} (h : isBlank c = true) (gaps : Gaps count) : Gaps count where
  leading := String.singleton c ++ gaps.leading
  behind := gaps.behind
  length_behind := gaps.length_behind
  leading_blank := by
    rw [String.toList_append, String.toList_singleton]
    exact List.forall_mem_cons.mpr ⟨h, gaps.leading_blank⟩
  behind_blank := gaps.behind_blank
  between_ne := gaps.between_ne

/-- One more piece in front, with no blank before it. -/
def push (gaps : Gaps count) (h : count ≠ 0 → gaps.leading ≠ "") : Gaps (count + 1) where
  leading := ""
  behind := gaps.leading :: gaps.behind
  length_behind := congrArg (· + 1) gaps.length_behind
  leading_blank := nofun
  behind_blank := List.forall_mem_cons.mpr ⟨gaps.leading_blank, gaps.behind_blank⟩
  between_ne := by
    cases hbehind : gaps.behind with
    | nil => nofun
    | cons first rest =>
      have hcount : count ≠ 0 := by
        rw [← gaps.length_behind, hbehind]
        exact Nat.succ_ne_zero _
      have hbetween := gaps.between_ne
      rw [hbehind] at hbetween
      rw [List.dropLast_cons_cons]
      exact List.forall_mem_cons.mpr ⟨h hcount, hbetween⟩

theorem fill_widen {c : Char} (h : isBlank c = true) (gaps : Gaps pieces.length) :
    (gaps.widen h).fill pieces = String.singleton c ++ gaps.fill pieces :=
  String.append_assoc

theorem fill_push (piece : String) (gaps : Gaps pieces.length)
    (h : pieces.length ≠ 0 → gaps.leading ≠ "") :
    (gaps.push h).fill (piece :: pieces) = piece ++ gaps.fill pieces := by
  rw [fill, fill, push, List.zipWith_cons_cons, String.join_cons, String.empty_append,
    String.append_assoc]

theorem fill_grow (front piece : String) (gaps : Gaps (piece :: pieces).length)
    (h : gaps.leading = "") :
    fill ((front ++ piece) :: pieces) gaps = front ++ fill (piece :: pieces) gaps := by
  obtain ⟨gap, rest, hbehind⟩ := List.exists_cons_of_length_eq_add_one gaps.length_behind
  simp only [fill, h, hbehind, List.zipWith_cons_cons, String.join_cons, String.empty_append,
    String.append_assoc]

end Gaps

/-- What a token may be: some characters, none of them blank. -/
def IsToken (text : String) : Prop := text ≠ "" ∧ ∀ c ∈ text.toList, isBlank c = false

theorem IsToken.push {c : Char} {text : String} (hc : isBlank c = false)
    (h : ∀ c ∈ text.toList, isBlank c = false) : IsToken (String.singleton c ++ text) := by
  have hchars : (String.singleton c ++ text).toList = c :: text.toList := by simp
  constructor
  · intro hempty
    rw [hempty] at hchars
    cases hchars
  · rw [hchars]
    exact List.forall_mem_cons.mpr ⟨hc, h⟩

theorem tokenize_of_isToken {token : String} (h : IsToken token) : tokenize token = [token] := by
  have hchars : token.toList ≠ [] := fun hnil => h.1 (String.toList_eq_nil_iff.mp hnil)
  rw [tokenize, words_of_no_blank hchars h.2, List.map_singleton, String.ofList_toList]

section Blanks
variable {blanks : String} (h : AllBlank blanks.toList)
include h

theorem tokenize_blanks_append (text : String) : tokenize (blanks ++ text) = tokenize text := by
  rw [tokenize, String.toList_append, words_blank_append h, tokenize]

theorem tokenize_append_blanks (text : String) : tokenize (text ++ blanks) = tokenize text := by
  rw [tokenize, String.toList_append, words_append_allBlank h, tokenize]

/-- Blanks part the tokens before them from those behind. -/
theorem tokenize_parted (hne : blanks ≠ "") (front back : String) :
    tokenize (front ++ blanks ++ back) = tokenize front ++ tokenize back := by
  obtain ⟨c, rest, hblanks⟩ : ∃ c rest, blanks.toList = c :: rest :=
    List.exists_cons_of_ne_nil fun hnil => hne (String.toList_eq_nil_iff.mp hnil)
  rw [hblanks] at h
  obtain ⟨hc, hrest⟩ := List.forall_mem_cons.mp h
  have hchars : (front ++ blanks ++ back).toList =
      front.toList ++ c :: (rest ++ back.toList) := by
    simp [hblanks]
  rw [tokenize, hchars, words_append_blank hc, words_blank_append hrest, List.map_append,
    ← tokenize, ← tokenize]

end Blanks

/-- Gaps leave the tokens of every piece as they are. -/
theorem tokenize_fill {pieces : List String} (gaps : Gaps pieces.length) :
    tokenize (gaps.fill pieces) = pieces.flatMap tokenize := by
  obtain ⟨leading, behind, hlength, hleading, hbehind, hbetween⟩ := gaps
  rw [Gaps.fill, tokenize_blanks_append hleading]
  dsimp only
  clear leading hleading
  -- what stands behind a piece parts it from the next, if there is one
  induction pieces generalizing behind with
  | nil => rfl
  | cons piece rest ih =>
    obtain ⟨gap, behind, rfl⟩ := List.exists_cons_of_length_eq_add_one hlength
    obtain ⟨hgap, hrestBlank⟩ := List.forall_mem_cons.mp hbehind
    have hrestLength : behind.length = rest.length := Nat.succ.inj hlength
    rw [List.zipWith_cons_cons, String.join_cons, List.flatMap_cons]
    cases behind with
    | nil =>
      obtain rfl := List.length_eq_zero_iff.mp hrestLength.symm
      rw [List.zipWith_nil_left, String.join_nil, String.append_empty, tokenize_append_blanks hgap,
        List.flatMap_nil, List.append_nil]
    | cons next behind =>
      rw [List.dropLast_cons_cons] at hbetween
      obtain ⟨hne, hrestNe⟩ := List.forall_mem_cons.mp hbetween
      rw [tokenize_parted hgap hne, ih (next :: behind) hrestLength hrestBlank hrestNe]

/-- Gaps around tokens give the tokens back. -/
theorem tokenize_fill_of_tokens {tokens : List String} (h : ∀ token ∈ tokens, IsToken token)
    (gaps : Gaps tokens.length) : tokenize (gaps.fill tokens) = tokens := by
  have hself : ∀ token ∈ tokens, tokenize token = [token] :=
    fun token hmem => tokenize_of_isToken (h token hmem)
  rw [tokenize_fill, List.flatMap_congr hself, List.flatMap_singleton']

/-- Every text is made up of tokens and gaps. -/
theorem exists_fill (chars : List Char) :
    ∃ tokens : List String, (∀ token ∈ tokens, IsToken token) ∧
      ∃ gaps : Gaps tokens.length, String.ofList chars = gaps.fill tokens := by
  induction chars with
  | nil => exact ⟨[], nofun, .blanks "" nofun, rfl⟩
  | cons c rest ih =>
    obtain ⟨tokens, htokens, gaps, hrest⟩ := ih
    have htext : String.ofList (c :: rest) = String.singleton c ++ gaps.fill tokens := by
      rw [← hrest, String.ofList_cons]
    cases hc : isBlank c with
    | true => exact ⟨tokens, htokens, gaps.widen hc, by rw [htext, Gaps.fill_widen]⟩
    | false =>
      by_cases hparted : tokens.length ≠ 0 → gaps.leading ≠ ""
      · have hnew : IsToken (String.singleton c ++ "") := .push hc nofun
        rw [String.append_empty] at hnew
        exact ⟨String.singleton c :: tokens, List.forall_mem_cons.mpr ⟨hnew, htokens⟩,
          gaps.push hparted, by rw [htext, Gaps.fill_push]⟩
      · -- no blank parts the character from the first token, so it belongs to it
        obtain ⟨hne, hleading⟩ := Classical.not_imp.mp hparted
        cases tokens with
        | nil => exact absurd rfl hne
        | cons token tokens =>
          obtain ⟨htoken, hothers⟩ := List.forall_mem_cons.mp htokens
          have hgrown : IsToken (String.singleton c ++ token) := .push hc htoken.2
          refine ⟨(String.singleton c ++ token) :: tokens,
            List.forall_mem_cons.mpr ⟨hgrown, hothers⟩, gaps, ?_⟩
          rw [htext, Gaps.fill_grow _ _ gaps (not_not.mp hleading)]

theorem tokenize_eq_iff {source : String} {tokens : List String} :
    tokenize source = tokens ↔
      (∀ token ∈ tokens, IsToken token) ∧ ∃ gaps : Gaps tokens.length, source = gaps.fill tokens := by
  constructor
  · intro h
    obtain ⟨found, hfound, gaps, hsource⟩ := exists_fill source.toList
    rw [String.ofList_toList] at hsource
    obtain rfl : found = tokens := by
      rw [← h, hsource, tokenize_fill_of_tokens hfound]
    exact ⟨hfound, gaps, hsource⟩
  · intro h
    obtain ⟨htokens, gaps, rfl⟩ := h
    exact tokenize_fill_of_tokens htokens gaps

/-- A report depends on the pieces of its source and not on the blanks around them. -/
theorem report_fill_congr {pieces : List String} (gaps other : Gaps pieces.length) :
    report (gaps.fill pieces) = report (other.fill pieces) := by
  have htokens : tokenize (gaps.fill pieces) = tokenize (other.fill pieces) := by
    rw [tokenize_fill, tokenize_fill]
  rw [report, report, htokens]

/-- The tokens of a source are the one row of nonempty blankless texts that it is made up of with
blanks around them. So tokens survive being put together with any blanks, a blank parts what is
before it from what is behind, and no report tells one gap from another. -/
theorem tokens_are_maximal_runs :
    (∀ (source : String) (tokens : List String), tokenize source = tokens ↔
      (∀ token ∈ tokens, token ≠ "" ∧ ∀ c ∈ token.toList, isBlank c = false) ∧
        ∃ gaps : Gaps tokens.length, source = gaps.fill tokens) ∧
    (∀ (source : String) (gaps : Gaps (tokenize source).length),
      tokenize (gaps.fill (tokenize source)) = tokenize source) ∧
    (∀ front blanks back : String, AllBlank blanks.toList → blanks ≠ "" →
      tokenize (front ++ blanks ++ back) = tokenize front ++ tokenize back) ∧
    ∀ (pieces : List String) (gaps other : Gaps pieces.length),
      report (gaps.fill pieces) = report (other.fill pieces) := by
  refine ⟨fun source tokens => tokenize_eq_iff, ?_, ?_, ?_⟩
  · intro source gaps
    have htokens := (tokenize_eq_iff.mp (rfl : tokenize source = tokenize source)).1
    exact tokenize_fill_of_tokens htokens gaps
  · intro front blanks back hblank hne
    exact tokenize_parted hblank hne front back
  · intro pieces gaps other
    exact report_fill_congr gaps other

/-- A no-break space with a line separator parts tokens, and a zero-width space does not. -/
theorem tokens_are_maximal_runs_separators :
    let blanks := "\u00a0\u2028"
    AllBlank blanks.toList ∧ blanks ≠ "" ∧
      tokenize ("sum 1" ++ blanks ++ "2\u200b3") = ["sum", "1", "2\u200b3"] := by
  intro blanks
  have hblank : AllBlank blanks.toList := by decide
  have hne : blanks ≠ "" := by decide
  have hfront : tokenize "sum 1" = ["sum", "1"] := by decide
  have hback : tokenize "2\u200b3" = ["2\u200b3"] := by decide
  obtain ⟨-, -, hparted, -⟩ := tokens_are_maximal_runs
  refine ⟨hblank, hne, ?_⟩
  rw [hparted "sum 1" blanks "2\u200b3" hblank hne, hfront, hback]
  rfl

end PrefixArithmetic
