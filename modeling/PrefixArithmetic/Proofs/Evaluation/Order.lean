import PrefixArithmetic.Proofs.Evaluation.Accumulators
import PrefixArithmetic.Proofs.Evaluation.Exact
import PrefixArithmetic.Proofs.Report
import PrefixArithmetic.Proofs.Parsing.Image

/-!
# The order of operands

A fold of integers overflows at the first result on the way that does not have 64
bits, so in general the order of its operands decides whether it overflows. Where the
results go in one direction only, up for sums and products of positive integers and
down for what is subtracted, none of them lies beyond the last one. Then the fold
overflows exactly if its exact result does not have 64 bits, and that result is the
same in every order.
-/
namespace PrefixArithmetic

namespace Operator

/-- One step on unbounded integers. -/
def onIntegers : Operator → ℤ → ℤ → ℤ
  | sum => (· + ·)
  | sub => (· - ·)
  | div => (· / ·)
  | mul => (· * ·)

/-- What the steps come to from an integer on, without any bound. -/
def run (op : Operator) (a : ℤ) (words : List Int64) : ℤ :=
  (words.map Int64.toInt).foldl op.onIntegers a

/-- What a fold gives whose exact result is known. -/
def settled (op : Operator) (position : ℕ) (total : ℤ) : Except (Fault EvalCause) Value :=
  if Integer64.InRange total then .ok (.integer (Int64.ofInt total))
  else .error ⟨position, .overflow op⟩

/-- Where the last result has 64 bits, the results on the way have. -/
def KeepsRange (op : Operator) (a : ℤ) (words : List Int64) : Prop :=
  ∀ front, front <+: words → Integer64.InRange (op.run a words) → Integer64.InRange (op.run a front)

/-- Behind some first operands the others may stand in any order. The fold gives its exact result
or overflows, and no step on the way overflows unless the result does. -/
def AnyOrder (op : Operator) (lead words : List Int64) (total : ℤ) : Prop :=
  ∀ (position : ℕ) (words' : List Int64), words.Perm words' →
    located position (op.fold (integers (lead ++ words'))) = op.settled position total ∧
      located position (op.fold (integers (lead ++ words'))) =
        located position (op.fold (integers (lead ++ words))) ∧
      (Integer64.InRange total →
        ∀ front, front <+: words' → ∃ held, op.fold (integers (lead ++ front)) = .ok held)

section Steps
variable {op : Operator} {a b : Int64} {words : List Int64} {total : ℤ}

theorem combine_eq_checked (hop : op ≠ div) :
    op.combine (.integer a) (.integer b) = op.checked (op.onIntegers a.toInt b.toInt) := by
  cases op with
  | sum | sub | mul => rfl
  | div => exact absurd rfl hop

theorem checked_of_inRange (h : Integer64.InRange total) :
    op.checked total = .ok (.integer (Int64.ofInt total)) := by
  rw [checked, Integer64.ofInt?, if_pos h]

theorem checked_of_not_inRange (h : ¬Integer64.InRange total) :
    op.checked total = .error (.overflow op) := by
  rw [checked, Integer64.ofInt?, if_neg h]

theorem located_checked (op : Operator) (position : ℕ) (total : ℤ) :
    located position (op.checked total) = op.settled position total := by
  rw [settled]
  split_ifs with h
  · rw [checked_of_inRange h, located_ok]
  · rw [checked_of_not_inRange h, located_error]

/-- Steps that keep the range come to the exact result or overflow with it. The induction is on the
operands: the first result that has no 64 bits ends the fold, and rules the last one out. -/
theorem foldlM_eq_checked (hop : op ≠ div) (h : op.KeepsRange a.toInt words) :
    (integers words).foldlM op.combine (.integer a) = op.checked (op.run a.toInt words) := by
  induction words generalizing a with
  | nil => exact (checked_eq_ok_iff.mpr ⟨a, rfl, rfl⟩).symm
  | cons b words ih =>
    have hfold : (integers (b :: words)).foldlM op.combine (.integer a) =
        (op.combine (.integer a) (.integer b)).bind ((integers words).foldlM op.combine) :=
      List.foldlM_cons
    have hfirst := h [b] ⟨words, rfl⟩
    rw [hfold, combine_eq_checked hop]
    by_cases hnext : Integer64.InRange (op.onIntegers a.toInt b.toInt)
    · obtain ⟨c, hc⟩ := exists_toInt_eq hnext
      have hkeeps : op.KeepsRange c.toInt words := by
        rintro front ⟨back, rfl⟩ hrange
        rw [hc] at hrange ⊢
        exact h (b :: front) ⟨back, rfl⟩ hrange
      rw [checked_eq_ok_iff.mpr ⟨c, rfl, hc⟩]
      change (integers words).foldlM op.combine (.integer c) = _
      rw [ih hkeeps, hc]
      rfl
    · rw [checked_of_not_inRange hnext,
        checked_of_not_inRange fun hlast => hnext (hfirst hlast)]
      rfl

end Steps

section Runs
variable {words : List Int64} {a : ℤ}

theorem run_sum (a : ℤ) (words : List Int64) :
    sum.run a words = a + (words.map Int64.toInt).sum := by
  induction words generalizing a with
  | nil => simp [run]
  | cons word words ih =>
    change sum.run (a + word.toInt) words = _
    rw [ih, List.map_cons, List.sum_cons, add_assoc]

theorem run_sub (a : ℤ) (words : List Int64) :
    sub.run a words = a - (words.map Int64.toInt).sum := by
  induction words generalizing a with
  | nil => simp [run]
  | cons word words ih =>
    change sub.run (a - word.toInt) words = _
    rw [ih, List.map_cons, List.sum_cons, sub_sub]

theorem run_mul (a : ℤ) (words : List Int64) :
    mul.run a words = a * (words.map Int64.toInt).prod := by
  induction words generalizing a with
  | nil => simp [run]
  | cons word words ih =>
    change mul.run (a * word.toInt) words = _
    rw [ih, List.map_cons, List.prod_cons, mul_assoc]

lemma sum_nonneg (h : ∀ word ∈ words, 0 ≤ word.toInt) : 0 ≤ (words.map Int64.toInt).sum := by
  refine List.sum_nonneg ?_
  rwa [List.forall_mem_map]

lemma prod_pos (h : ∀ word ∈ words, 1 ≤ word.toInt) : 0 < (words.map Int64.toInt).prod := by
  refine List.prod_pos ?_
  rwa [List.forall_mem_map]

/-- Sums of integers that are not negative go up. -/
theorem keepsRange_sum (h : ∀ word ∈ words, 0 ≤ word.toInt) : sum.KeepsRange 0 words := by
  rintro front ⟨back, rfl⟩ hrange
  obtain ⟨hfront, hback⟩ := List.forall_mem_append.mp h
  have hpart := sum_nonneg hfront
  have hrest := sum_nonneg hback
  rw [run_sum, List.map_append, List.sum_append] at hrange
  rw [run_sum]
  unfold Integer64.InRange at *
  omega

/-- Differences go down, from an integer that has 64 bits. -/
theorem keepsRange_sub (ha : Integer64.InRange a) (h : ∀ word ∈ words, 0 ≤ word.toInt) :
    sub.KeepsRange a words := by
  rintro front ⟨back, rfl⟩ hrange
  obtain ⟨hfront, hback⟩ := List.forall_mem_append.mp h
  have hpart := sum_nonneg hfront
  have hrest := sum_nonneg hback
  rw [run_sub, List.map_append, List.sum_append] at hrange
  rw [run_sub]
  unfold Integer64.InRange at *
  omega

/-- Products of positive integers go up. -/
theorem keepsRange_mul (h : ∀ word ∈ words, 1 ≤ word.toInt) : mul.KeepsRange 1 words := by
  rintro front ⟨back, rfl⟩ hrange
  obtain ⟨hfront, hback⟩ := List.forall_mem_append.mp h
  have hpart := prod_pos hfront
  have hrest := prod_pos hback
  rw [run_mul, List.map_append, List.prod_append, one_mul] at hrange
  rw [run_mul, one_mul]
  have hle := le_mul_of_one_le_right hpart.le hrest
  unfold Integer64.InRange at *
  omega

end Runs

section Orders
variable {op : Operator} {lead words words' : List Int64} {a : Int64}

theorem run_perm (hop : op ≠ div) (h : words.Perm words') (a : ℤ) :
    op.run a words' = op.run a words := by
  have hvalues := h.map Int64.toInt
  cases op with
  | sum => rw [run_sum, run_sum, hvalues.sum_eq]
  | sub => rw [run_sub, run_sub, hvalues.sum_eq]
  | mul => rw [run_mul, run_mul, hvalues.prod_eq]
  | div => exact absurd rfl hop

/-- Steps that keep the range in every order may be made in any. -/
theorem anyOrder_of_keepsRange (hop : op ≠ div) (hlead : op.fold (integers lead) = .ok (.integer a))
    (hkeeps : ∀ words', words.Perm words' → op.KeepsRange a.toInt words') :
    op.AnyOrder lead words (op.run a.toInt words) := by
  have hfold : ∀ others, op.fold (integers (lead ++ others)) =
      (integers others).foldlM op.combine (.integer a) := by
    intro others
    rw [integers, List.map_append]
    exact fold_append_of_fold hlead (integers others)
  have hchecked : ∀ words', words.Perm words' →
      op.fold (integers (lead ++ words')) = op.checked (op.run a.toInt words) := by
    intro words' hperm
    rw [hfold, foldlM_eq_checked hop (hkeeps words' hperm), run_perm hop hperm]
  intro position words' hperm
  rw [hchecked words' hperm, hchecked words (.refl words)]
  refine ⟨located_checked op position _, rfl, ?_⟩
  -- a fold that goes through has gone through with the operands in front
  rintro hrange front ⟨back, rfl⟩
  have hall := hchecked _ hperm
  rw [checked_of_inRange hrange, hfold, integers, List.map_append, List.foldlM_append] at hall
  obtain ⟨held, hheld, -⟩ := bind_eq_ok_iff.mp hall
  exact ⟨held, (hfold front).trans hheld⟩

theorem anyOrder_sum (h : ∀ word ∈ words, 0 ≤ word.toInt) :
    sum.AnyOrder [] words (words.map Int64.toInt).sum := by
  have horder : sum.AnyOrder [] words (sum.run 0 words) :=
    anyOrder_of_keepsRange (a := 0) (by decide) (fold_sum []) fun words' hperm =>
      keepsRange_sum fun word hmem => h word (hperm.mem_iff.mpr hmem)
  rwa [run_sum, zero_add] at horder

theorem anyOrder_mul (h : ∀ word ∈ words, 1 ≤ word.toInt) :
    mul.AnyOrder [] words (words.map Int64.toInt).prod := by
  have horder : mul.AnyOrder [] words (mul.run 1 words) :=
    anyOrder_of_keepsRange (a := 1) (by decide) (fold_mul []) fun words' hperm =>
      keepsRange_mul fun word hmem => h word (hperm.mem_iff.mpr hmem)
  rwa [run_mul, one_mul] at horder

theorem anyOrder_sub (first : Int64) (h : ∀ word ∈ words, 0 ≤ word.toInt) :
    sub.AnyOrder [first] words (first.toInt - (words.map Int64.toInt).sum) := by
  have horder : sub.AnyOrder [first] words (sub.run first.toInt words) :=
    anyOrder_of_keepsRange (by decide) (fold_singleton rfl (.integer first)) fun words' hperm =>
      keepsRange_sub (Integer64.inRange_toInt first) fun word hmem =>
        h word (hperm.mem_iff.mpr hmem)
  rwa [run_sub] at horder

end Orders

end Operator

section Source

/-- The token is a literal for the integer. -/
def Token.Denotes (token : String) (word : Int64) : Prop :=
  isLiteral token = true ∧ word.toInt = decimal token

instance (token : String) (word : Int64) : Decidable (Token.Denotes token word) :=
  inferInstanceAs (Decidable (_ ∧ _))

/-- The source is an operator with nothing but literals behind it, for these integers. A literal of
more than 64 bits denotes none of them, so a source with such a literal lists nothing. -/
def Lists (source : String) (op : Operator) (words : List Int64) : Prop :=
  ∃ tokens, tokenize source = op.keyword :: tokens ∧ List.Forall₂ Token.Denotes tokens words

variable {source source' : String} {op : Operator} {tokens : List String}
  {words words' : List Int64}

theorem Lists.nonneg (h : Lists source op words) : ∀ word ∈ words, 0 ≤ word.toInt := by
  obtain ⟨tokens, -, hdenotes⟩ := h
  intro word hmem
  obtain ⟨token, -, -, hvalue⟩ := exists_mem_of_forall₂ hdenotes.flip hmem
  rw [hvalue]
  exact Int.natCast_nonneg _

/-- Literals are operands with the integers that they denote. -/
theorem exists_flatOperands_of_denotes (h : List.Forall₂ Token.Denotes tokens words)
    (position depth : ℕ) :
    ∃ row, Parsing.flatOperands position depth tokens = .ok row ∧
      row.mapM Expr.evaluate = .ok (Operator.integers words) := by
  induction h generalizing position with
  | nil => exact ⟨[], rfl, rfl⟩
  | @cons token word tokens words hdenotes _ ih =>
    obtain ⟨hliteral, hvalue⟩ := hdenotes
    obtain ⟨row, hrow, hvalues⟩ := ih (position + 1)
    have hrange : Integer64.InRange (Token.decimal token) := hvalue ▸ Integer64.inRange_toInt word
    obtain rfl : Token.value token = word :=
      Int64.toInt_inj.mp ((Token.toInt_value hrange).trans hvalue.symm)
    refine ⟨_, (Parsing.flatOperands_of_literal_eq_ok_iff hliteral).mpr
      ⟨hrange, row, hrow, rfl⟩, ?_⟩
    rw [List.mapM_cons, Expr.evaluate_literal, hvalues]
    rfl

/-- An operator with literals behind it is evaluated to the fold of their integers. -/
theorem Lists.evaluateSource_eq (h : Lists source op words) :
    evaluateSource source =
      (located 0 (op.fold (Operator.integers words))).mapError .evaluation := by
  obtain ⟨tokens, htokens, hdenotes⟩ := h
  obtain ⟨row, hrow, hvalues⟩ := exists_flatOperands_of_denotes hdenotes 1 1
  have hparse : parse (tokenize source) = .ok (.operation (.known op) row 0) := by
    rw [htokens, parse_of_word _ _ (Token.isLiteral_keyword op), hrow, Head.ofWord_keyword]
    rfl
  rw [evaluateSource_of_parse_ok hparse, Expr.evaluate_operation, hvalues]
  rfl

/-- What may stand in any order as operands may stand in any order as literals. -/
theorem Operator.AnyOrder.evaluateSource_eq {lead : List Int64} {total : ℤ}
    (horder : op.AnyOrder lead words total) (h : Lists source op (lead ++ words))
    (h' : Lists source' op (lead ++ words')) (hperm : words.Perm words') :
    evaluateSource source = evaluateSource source' := by
  rw [h.evaluateSource_eq, h'.evaluateSource_eq, (horder 0 words' hperm).2.1]

end Source

/-- Integers that are not negative may be added and subtracted in any order, and positive ones
multiplied, faults included; so literals may be listed in any order, if all of them have 64 bits.
Literals of more are left out: the first of them is refused where it stands, and that changes
with the order. -/
theorem operands_in_any_order :
    (∀ words : List Int64, (∀ word ∈ words, 0 ≤ word.toInt) →
      Operator.sum.AnyOrder [] words (words.map Int64.toInt).sum) ∧
    (∀ words : List Int64, (∀ word ∈ words, 1 ≤ word.toInt) →
      Operator.mul.AnyOrder [] words (words.map Int64.toInt).prod) ∧
    (∀ (first : Int64) (words : List Int64), (∀ word ∈ words, 0 ≤ word.toInt) →
      Operator.sub.AnyOrder [first] words (first.toInt - (words.map Int64.toInt).sum)) ∧
    ∀ (source source' : String) (words words' : List Int64), words.Perm words' →
      (Lists source .sum words → Lists source' .sum words' →
        evaluateSource source = evaluateSource source') ∧
      (∀ first, Lists source .sub (first :: words) → Lists source' .sub (first :: words') →
        evaluateSource source = evaluateSource source') ∧
      ((∀ word ∈ words, word ≠ 0) → Lists source .mul words → Lists source' .mul words' →
        evaluateSource source = evaluateSource source') := by
  refine ⟨fun words => Operator.anyOrder_sum, fun words => Operator.anyOrder_mul,
    fun first words => Operator.anyOrder_sub first, ?_⟩
  intro source source' words words' hperm
  refine ⟨?_, ?_, ?_⟩
  · intro h h'
    exact (Operator.anyOrder_sum h.nonneg).evaluateSource_eq h h' hperm
  · intro first h h'
    have hnonneg := (List.forall_mem_cons.mp h.nonneg).2
    exact (Operator.anyOrder_sub first hnonneg).evaluateSource_eq h h' hperm
  · intro hne h h'
    refine (Operator.anyOrder_mul fun word hmem => ?_).evaluateSource_eq h h' hperm
    have hnonneg := h.nonneg word hmem
    have hzero : word.toInt ≠ 0 := hne word hmem ∘ Integer64.toInt_eq_zero_iff.mp
    omega

/-- The greatest integer and one overflow in every order, however the literals are spelled. -/
theorem operands_in_any_order_overflow :
    let source := "sum 9223372036854775807 0 1"
    let source' := "sum 01 9223372036854775807 000"
    Lists source .sum [9223372036854775807, 0, 1] ∧ Lists source' .sum [1, 9223372036854775807, 0] ∧
      evaluateSource source = .error (.evaluation ⟨0, .overflow .sum⟩) ∧
      evaluateSource source = evaluateSource source' := by
  intro source source'
  have hlists : Lists source .sum [9223372036854775807, 0, 1] :=
    ⟨["9223372036854775807", "0", "1"], by decide, by decide⟩
  have hlists' : Lists source' .sum [1, 9223372036854775807, 0] :=
    ⟨["01", "9223372036854775807", "000"], by decide, by decide⟩
  obtain ⟨-, -, -, hsources⟩ := operands_in_any_order
  refine ⟨hlists, hlists', ?_, ?_⟩
  · rw [hlists.evaluateSource_eq]
    decide
  · exact (hsources _ _ _ _ (by decide)).1 hlists hlists'

/-- A literal of more than 64 bits is reported with its place, so its order matters. -/
example :
    evaluateSource "sum 1 9223372036854775808" =
        .error (.parsing ⟨2, .literalTooLarge "9223372036854775808"⟩) ∧
      evaluateSource "sum 9223372036854775808 1" =
        .error (.parsing ⟨1, .literalTooLarge "9223372036854775808"⟩) := by cbv

end PrefixArithmetic
