import PrefixArithmetic.Proofs.Parsing.Flat
import PrefixArithmetic.Proofs.Walk

/-!
# Scans from the right

A word owns all the tokens behind it, so a walk over the tree of some tokens can
be made on the tokens themselves, from the last to the first. A row of results
is pending: a literal goes in front of it, and a word turns all of it into its
own single result, or ends the scan with a fault. No tree is built.
-/
namespace PrefixArithmetic

section Scan
variable {Cause α : Type} (ofLiteral : Int64 → α) (ofWord : String → List α → Except Cause α)

/-- What one token, at its index, does to the pending results. -/
def scanToken (token : String × ℕ) (pending : List α) : Except (Fault Cause) (List α) :=
  if Token.isLiteral token.1 then .ok (ofLiteral (Token.value token.1) :: pending)
  else (located token.2 (ofWord token.1 pending)).map ([·])

/-- The results that are pending when all tokens, the first of them at a given index, have been
scanned from the right. -/
def scanFrom (position : ℕ) (tokens : List String) : Except (Fault Cause) (List α) :=
  (tokens.zipIdx position).foldrM (scanToken ofLiteral ofWord) []

@[simp] theorem scanFrom_nil (position : ℕ) : scanFrom ofLiteral ofWord position [] = .ok [] := rfl

@[simp] theorem scanFrom_cons (position : ℕ) (token : String) (rest : List String) :
    scanFrom ofLiteral ofWord position (token :: rest) =
      (scanFrom ofLiteral ofWord (position + 1) rest).bind
        (scanToken ofLiteral ofWord (token, position)) := by
  rw [scanFrom, List.zipIdx_cons, List.foldrM_cons]
  rfl

end Scan

/-- A word as the operator it names, carried out on the pending values. -/
def applyWord (word : String) (pending : List Value) : Except EvalCause Value :=
  match Operator.ofKeyword? word with
  | some op => op.fold pending
  | none => .error (.unknownOperator word)

/-- A word as the operator it names, written between the pending texts. -/
def joinWord (word : String) (pending : List String) : Except CodeCause String :=
  match Operator.ofKeyword? word with
  | some op => .ok ("(" ++ (" " ++ op.symbol ++ " ").intercalate pending ++ ")")
  | none => .error (.unknownOperator word)

/-- The values pending after a scan of all tokens. -/
def scanValues (tokens : List String) : Except (Fault EvalCause) (List Value) :=
  scanFrom .integer applyWord 0 tokens

/-- The texts pending after a scan of all tokens. -/
def scanTexts (tokens : List String) : Except (Fault CodeCause) (List String) :=
  scanFrom Integer64.text joinWord 0 tokens

lemma apply_ofWord (word : String) : (Head.ofWord word).apply = applyWord word := by
  funext pending
  rw [Head.ofWord, applyWord]
  cases Operator.ofKeyword? word <;> rfl

lemma join_ofWord (word : String) : (Head.ofWord word).join = joinWord word := by
  funext pending
  rw [Head.ofWord, joinWord]
  cases Operator.ofKeyword? word <;> rfl

section Walk
variable {Cause α : Type} {ofLiteral : Int64 → α} {ofHead : Head → List α → Except Cause α}
  {ofWord : String → List α → Except Cause α}

/-- A word turns the results of its operands into the result of its operation. -/
lemma scanFrom_of_word (hword : ∀ word, ofHead (Head.ofWord word) = ofWord word)
    {position : ℕ} {word : String} {rest : List String} {operands : List Expr}
    (hnot : ¬Token.isLiteral word = true)
    (hrest : scanFrom ofLiteral ofWord (position + 1) rest =
      operands.mapM (Expr.walk ofLiteral ofHead)) :
    scanFrom ofLiteral ofWord position (word :: rest) =
      (Expr.walk ofLiteral ofHead (.operation (Head.ofWord word) operands position)).map
        ([·]) := by
  rw [scanFrom_cons, hrest, Expr.walk_operation, hword]
  cases operands.mapM (Expr.walk ofLiteral ofHead) with
  | error fault => rfl
  | ok pending => exact if_neg hnot

/-- A scan of tokens gives what a walk over the operands that they form gives. The induction is on
the tokens: the pending row is always the row of the operands read from there on. -/
theorem scanFrom_eq_mapM (hword : ∀ word, ofHead (Head.ofWord word) = ofWord word)
    {tokens : List String} {position depth : ℕ} {found : List Expr}
    (h : Parsing.flatOperands position depth tokens = .ok found) :
    scanFrom ofLiteral ofWord position tokens = found.mapM (Expr.walk ofLiteral ofHead) := by
  induction tokens generalizing position depth found with
  | nil =>
    cases h
    rfl
  | cons token rest ih =>
    rw [Parsing.flatOperands] at h
    split_ifs at h with hliteral
    · obtain ⟨inner, hinner, rfl⟩ := map_eq_ok_iff.mp h
      rw [scanFrom_cons, ih hinner, List.mapM_cons, Expr.walk_literal]
      cases inner.mapM (Expr.walk ofLiteral ofHead) with
      | error fault => rfl
      | ok pending => exact if_pos hliteral
    · obtain ⟨inner, hinner, rfl⟩ := map_eq_ok_iff.mp h
      rw [mapM_singleton, scanFrom_of_word hword hliteral (ih hinner)]

/-- Behind a word in front the scan gives the result of the whole tree alone. -/
theorem scanFrom_eq_walk (hword : ∀ word, ofHead (Head.ofWord word) = ofWord word)
    {tokens : List String} {expr : Expr} (hparse : parse tokens = .ok expr)
    (hfirst : tokens.head?.any Token.isLiteral = false) :
    scanFrom ofLiteral ofWord 0 tokens = (Expr.walk ofLiteral ofHead expr).map ([·]) := by
  cases tokens with
  | nil => rw [parse_nil] at hparse; cases hparse
  | cons first rest =>
    have hnot : Token.isLiteral first = false := hfirst
    rw [parse_of_word first rest hnot] at hparse
    obtain ⟨inner, hinner, rfl⟩ := map_eq_ok_iff.mp hparse
    exact scanFrom_of_word hword (Bool.eq_false_iff.mp hnot) (scanFrom_eq_mapM hword hinner)

end Walk

/-- Evaluation and coding of the tree are scans of its tokens, faults and positions included. -/
theorem scan_eq_evaluate_and_code {tokens : List String} {expr : Expr}
    (hparse : parse tokens = .ok expr) (hfirst : tokens.head?.any Token.isLiteral = false) :
    scanValues tokens = expr.evaluate.map ([·]) ∧ scanTexts tokens = expr.code.map ([·]) := by
  constructor
  · exact scanFrom_eq_walk apply_ofWord hparse hfirst
  · exact scanFrom_eq_walk join_ofWord hparse hfirst

/-- Evaluation stops at the last word, and coding at the unknown one before it. -/
theorem scan_eq_evaluate_and_code_faults :
    let tokens := ["sum", "1", "pow", "2", "div", "4", "0"]
    ∃ expr, parse tokens = .ok expr ∧ scanValues tokens = expr.evaluate.map ([·]) ∧
      scanTexts tokens = expr.code.map ([·]) := by
  intro tokens
  have hparse : parse tokens = .ok (.operation (.known .sum) [.literal 1 1,
      .operation (.unknown "pow") [.literal 2 3,
        .operation (.known .div) [.literal 4 5, .literal 0 6] 4] 2] 0) := by
    rw [parse_of_word _ _ (by decide)]
    rfl
  exact ⟨_, hparse, scan_eq_evaluate_and_code hparse (by decide)⟩

end PrefixArithmetic
