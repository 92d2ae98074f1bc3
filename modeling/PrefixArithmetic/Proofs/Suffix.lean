import PrefixArithmetic.Proofs.Parsing.Image
import PrefixArithmetic.Proofs.Scan

/-!
# Suffixes

A word owns all the tokens behind it. So tokens that begin with a word form the
same expression behind other tokens as they do alone, only further on: what fails
in it fails at a position that is moved by the number of tokens before it, and
where it has a value that can be written as a literal, the literal may stand in
its place.
-/
namespace PrefixArithmetic

namespace Token

/-- A literal has to have 64 bits; a word may be anything. -/
def Fits (token : String) : Prop :=
  isLiteral token = true → Integer64.InRange (decimal token)

/-- An integer that is not negative is written as a literal for itself. -/
theorem value_text {value : Int64} (h : 0 ≤ value.toInt) :
    Token.value (Integer64.text value) = value := by
  rw [Token.value, decimal_text h, Int64.ofInt_toInt]

theorem fits_text {value : Int64} (h : 0 ≤ value.toInt) : Fits (Integer64.text value) := by
  intro _
  rw [decimal_text h]
  exact Integer64.inRange_toInt value

end Token

namespace Parsing

/-- The number of words among some tokens. -/
def wordCount (tokens : List String) : ℕ := tokens.countP (!Token.isLiteral ·)

/-- The first of the tokens is a word. -/
def BeginsWithWord (tokens : List String) : Prop :=
  ∃ word ∈ tokens.head?, Token.isLiteral word = false

theorem BeginsWithWord.exists_cons {tokens : List String} (h : BeginsWithWord tokens) :
    ∃ word rest, tokens = word :: rest ∧ Token.isLiteral word = false := by
  obtain ⟨word, hhead, hword⟩ := h
  obtain ⟨rest, rfl⟩ := List.head?_eq_some_iff.mp hhead
  exact ⟨word, rest, rfl, hword⟩

theorem BeginsWithWord.append {front : List String} (h : BeginsWithWord front)
    (back : List String) : BeginsWithWord (front ++ back) := by
  obtain ⟨word, rest, rfl, hword⟩ := h.exists_cons
  exact ⟨word, rfl, hword⟩

/-- Whether tokens can be read as operands depends only on their number of words and on each
literal by itself. -/
theorem exists_flatOperands_eq_ok_iff {position depth : ℕ} {tokens : List String}
    (hdepth : depth ≤ nestingLimit) :
    (∃ row, flatOperands position depth tokens = .ok row) ↔
      depth + wordCount tokens ≤ nestingLimit ∧ ∀ token ∈ tokens, Token.Fits token := by
  induction tokens generalizing position depth with
  | nil => simpa [flatOperands, wordCount] using hdepth
  | cons token rest ih =>
    rw [List.forall_mem_cons, wordCount, List.countP_cons, ← wordCount, Token.Fits]
    cases hliteral : Token.isLiteral token with
    | true =>
      simp only [flatOperands_of_literal_eq_ok_iff hliteral]
      have hrest : (∃ row, flatOperands (position + 1) depth rest = .ok row) ↔ _ := ih hdepth
      constructor
      · intro h
        obtain ⟨row, hrange, inner, hinner, -⟩ := h
        obtain ⟨hcount, hfits⟩ := hrest.mp ⟨inner, hinner⟩
        exact ⟨by simpa using hcount, fun _ => hrange, hfits⟩
      · intro h
        obtain ⟨hcount, hrange, hfits⟩ := h
        obtain ⟨inner, hinner⟩ := hrest.mpr ⟨by simpa using hcount, hfits⟩
        exact ⟨_, hrange trivial, inner, hinner, rfl⟩
    | false =>
      simp only [flatOperands_of_word_eq_ok_iff hliteral]
      constructor
      · intro h
        obtain ⟨row, hlt, inner, hinner, -⟩ := h
        obtain ⟨hcount, hfits⟩ := (ih hlt).mp ⟨inner, hinner⟩
        refine ⟨?_, fun hfalse => absurd hfalse Bool.false_ne_true, hfits⟩
        simp only [Bool.not_false, if_true]
        omega
      · intro h
        obtain ⟨hcount, -, hfits⟩ := h
        simp only [Bool.not_false, if_true] at hcount
        have hlt : depth + 1 ≤ nestingLimit := by omega
        obtain ⟨inner, hinner⟩ : ∃ inner, flatOperands (position + 1) (depth + 1) rest = .ok inner :=
          (ih hlt).mpr ⟨by omega, hfits⟩
        exact ⟨_, hlt, inner, hinner, rfl⟩

/-- Behind a word in front, parsing succeeds unless a literal or the nesting is too large. -/
theorem exists_parse_eq_ok_iff {tokens : List String} (h : BeginsWithWord tokens) :
    (∃ expr, parse tokens = .ok expr) ↔
      wordCount tokens ≤ nestingLimit ∧ ∀ token ∈ tokens, Token.Fits token := by
  obtain ⟨word, rest, rfl, hword⟩ := h.exists_cons
  have hflat : (∃ row, flatOperands 0 0 (word :: rest) = .ok row) ↔ _ :=
    exists_flatOperands_eq_ok_iff (Nat.zero_le nestingLimit)
  simp only [flatOperands_of_word_eq_ok_iff hword, Nat.zero_add] at hflat
  rw [← hflat, parse_of_word word rest hword]
  simp only [map_eq_ok_iff]
  constructor
  · intro h
    obtain ⟨_, inner, hinner, -⟩ := h
    exact ⟨_, by decide, inner, hinner, rfl⟩
  · intro h
    obtain ⟨_, -, inner, hinner, -⟩ := h
    exact ⟨_, inner, hinner, rfl⟩

end Parsing

section Scan
variable {Cause α : Type} (ofLiteral : Int64 → α) (ofWord : String → List α → Except Cause α)

/-- A scan comes to the tokens in front with what those behind them left. -/
theorem scanFrom_append (position : ℕ) (front back : List String) :
    scanFrom ofLiteral ofWord position (front ++ back) =
      (scanFrom ofLiteral ofWord (position + front.length) back).bind
        ((front.zipIdx position).foldrM (scanToken ofLiteral ofWord)) := by
  rw [scanFrom, List.zipIdx_append, List.foldrM_append]
  rfl

/-- A scan that starts at a later index gives the same, with its fault moved as far. -/
theorem scanFrom_add (offset position : ℕ) (tokens : List String) :
    scanFrom ofLiteral ofWord (offset + position) tokens =
      (scanFrom ofLiteral ofWord position tokens).mapError (Fault.mapPosition (offset + ·)) := by
  induction tokens generalizing position with
  | nil => rfl
  | cons token rest ih =>
    rw [scanFrom_cons, scanFrom_cons, Nat.add_assoc, ih]
    cases scanFrom ofLiteral ofWord (position + 1) rest with
    | error fault => rfl
    | ok pending =>
      change scanToken ofLiteral ofWord (token, offset + position) pending =
        (scanToken ofLiteral ofWord (token, position) pending).mapError _
      rw [scanToken, scanToken, located_mapPosition (offset + ·)]
      split_ifs
      · rfl
      · cases located position (ofWord token pending) <;> rfl

end Scan

section Suffix
open Parsing
variable {front back : List String} {whole part : Expr}

/-- Tokens that begin with a word can be parsed alone if they can be behind others. -/
theorem exists_parse_suffix (hfront : BeginsWithWord front) (hback : BeginsWithWord back)
    (hwhole : parse (front ++ back) = .ok whole) : ∃ part, parse back = .ok part := by
  obtain ⟨hcount, hfits⟩ := (exists_parse_eq_ok_iff (hfront.append back)).mp ⟨whole, hwhole⟩
  refine (exists_parse_eq_ok_iff hback).mpr ⟨?_, ?_⟩
  · rw [wordCount, List.countP_append] at hcount
    exact (Nat.le_add_left _ _).trans hcount
  · intro token hmem
    exact hfits token (List.mem_append_right front hmem)

/-- A literal that has 64 bits can stand for tokens behind others. -/
theorem exists_parse_literal_suffix (hfront : BeginsWithWord front)
    (hwhole : parse (front ++ back) = .ok whole) {value : Int64} (h : 0 ≤ value.toInt) :
    ∃ folded, parse (front ++ [Integer64.text value]) = .ok folded := by
  obtain ⟨hcount, hfits⟩ := (exists_parse_eq_ok_iff (hfront.append back)).mp ⟨whole, hwhole⟩
  refine (exists_parse_eq_ok_iff (hfront.append _)).mpr ⟨?_, ?_⟩
  · rw [wordCount, List.countP_append] at hcount ⊢
    have hliteral : [Integer64.text value].countP (!Token.isLiteral ·) = 0 := by
      simp [Token.isLiteral_text h]
    omega
  · rw [List.forall_mem_append] at hfits ⊢
    refine ⟨hfits.1, ?_⟩
    rw [List.forall_mem_singleton]
    exact Token.fits_text h

/-- The value of the whole is what the words in front make of what is pending behind them. -/
theorem evaluate_of_scan (hfront : BeginsWithWord front)
    (hwhole : parse (front ++ back) = .ok whole) :
    whole.evaluate.map ([·]) = (scanFrom .integer applyWord front.length back).bind
      (front.zipIdx.foldrM (scanToken .integer applyWord)) := by
  obtain ⟨word, rest, rfl, hword⟩ := hfront.exists_cons
  have hscan : scanFrom .integer applyWord 0 (word :: rest ++ back) = whole.evaluate.map ([·]) :=
    scanFrom_eq_walk apply_ofWord hwhole hword
  rw [scanFrom_append, Nat.zero_add] at hscan
  exact hscan.symm

/-- What is pending behind other tokens is the value of the part, or its fault further on. -/
theorem scan_suffix (hback : BeginsWithWord back) (hpart : parse back = .ok part) :
    scanFrom .integer applyWord front.length back =
      (part.evaluate.map ([·])).mapError (Fault.mapPosition (front.length + ·)) := by
  obtain ⟨word, rest, rfl, hword⟩ := hback.exists_cons
  rw [← Nat.add_zero front.length, scanFrom_add, scanFrom_eq_walk apply_ofWord hpart hword,
    Nat.add_zero]
  rfl

lemma eq_of_map_singleton_eq {ε α : Type} {found other : Except ε α}
    (h : found.map ([·]) = other.map ([·])) : found = other := by
  cases found <;> cases other <;> simp_all [Except.map]

/-- An expression behind other tokens means what it means alone. Its faults are moved by the
tokens in front, and a value that is a literal may be written in its place. -/
theorem suffix_folds (hfront : BeginsWithWord front) (hback : BeginsWithWord back)
    (hwhole : parse (front ++ back) = .ok whole) :
    ∃ part, parse back = .ok part ∧
      (∀ cause position, part.evaluate = .error ⟨position, cause⟩ →
        whole.evaluate = .error ⟨front.length + position, cause⟩) ∧
      ∀ value : Int64, part.evaluate = .ok (.integer value) → 0 ≤ value.toInt →
        ∃ folded, parse (front ++ [Integer64.text value]) = .ok folded ∧
          folded.evaluate = whole.evaluate := by
  obtain ⟨part, hpart⟩ := exists_parse_suffix hfront hback hwhole
  have hscan := evaluate_of_scan hfront hwhole
  rw [scan_suffix hback hpart] at hscan
  refine ⟨part, hpart, ?_, ?_⟩
  · intro cause position hfault
    rw [hfault] at hscan
    exact map_eq_error_iff.mp hscan
  · intro value hvalue hnonneg
    obtain ⟨folded, hfolded⟩ := exists_parse_literal_suffix hfront hwhole hnonneg
    refine ⟨folded, hfolded, eq_of_map_singleton_eq ?_⟩
    have hliteral : scanFrom .integer applyWord front.length [Integer64.text value] =
        .ok [.integer value] := by
      rw [scanFrom_cons, scanFrom_nil]
      change scanToken .integer applyWord (Integer64.text value, front.length) [] = _
      rw [scanToken, if_pos (Token.isLiteral_text hnonneg), Token.value_text hnonneg]
    rw [evaluate_of_scan hfront hfolded, hliteral, hscan, hvalue]
    rfl

/-- A difference that is zero is a zero divisor, written out or not. -/
theorem suffix_folds_divisor :
    let front := ["div", "1"]
    let back := ["sub", "4", "4"]
    ∃ whole folded, parse (front ++ back) = .ok whole ∧ parse (front ++ ["0"]) = .ok folded ∧
      whole.evaluate = .error ⟨0, .divisionByZero⟩ ∧ folded.evaluate = whole.evaluate := by
  intro front back
  have hwhole : parse (front ++ back) = .ok (.operation (.known .div) [.literal 1 1,
      .operation (.known .sub) [.literal 4 3, .literal 4 4] 2] 0) := by
    change parse ("div" :: ["1", "sub", "4", "4"]) = _
    rw [parse_of_word _ _ (by decide)]
    rfl
  have hpart : parse back = .ok (.operation (.known .sub) [.literal 4 1, .literal 4 2] 0) := by
    change parse ("sub" :: ["4", "4"]) = _
    rw [parse_of_word _ _ (by decide)]
    rfl
  have hfront : BeginsWithWord front := ⟨"div", rfl, by decide⟩
  have hback : BeginsWithWord back := ⟨"sub", rfl, by decide⟩
  obtain ⟨part, hparse, -, hfolds⟩ := suffix_folds hfront hback hwhole
  obtain rfl := Except.ok.inj (hparse.symm.trans hpart)
  obtain ⟨folded, hfolded, heq⟩ := hfolds 0 rfl (by decide)
  exact ⟨_, folded, hwhole, hfolded, rfl, heq⟩

end Suffix

end PrefixArithmetic
