import PrefixArithmetic.Proofs.Evaluation.Causes
import PrefixArithmetic.Proofs.Scan
import Mathlib.Order.Bounds.Basic

/-!
# The tokens at fault

A fault of evaluation or coding has the index of a word, and its cause fits that
word: the word is unknown, or it is the keyword of the operator that the cause
names. Everything behind the word can be evaluated or coded, because the scan
from the right stops at the first word that fails.
-/
namespace PrefixArithmetic

section Scan
variable {Cause α : Type} {ofLiteral : Int64 → α} {ofWord : String → List α → Except Cause α}
  {position : ℕ} {token : String} {rest : List String}

/-- Every token leaves something pending. -/
theorem scanToken_ne_ok_nil {pending : List α} :
    scanToken ofLiteral ofWord (token, position) pending ≠ .ok [] := by
  intro h
  rw [scanToken] at h
  split_ifs at h
  · cases h
  · obtain ⟨a, -, ha⟩ := map_eq_ok_iff.mp h
    cases ha

theorem scanFrom_eq_ok_nil_iff {tokens : List String} :
    scanFrom ofLiteral ofWord position tokens = .ok [] ↔ tokens = [] := by
  constructor
  · intro h
    cases tokens with
    | nil => rfl
    | cons token rest =>
      rw [scanFrom_cons] at h
      obtain ⟨pending, -, hpending⟩ := bind_eq_ok_iff.mp h
      exact absurd hpending scanToken_ne_ok_nil
  · intro h
    rw [h]
    exact scanFrom_nil _ _ _

/-- Only a word can fail, for what it has against the pending results. -/
theorem scanToken_eq_error_iff {pending : List α} {fault : Fault Cause} :
    scanToken ofLiteral ofWord (token, position) pending = .error fault ↔
      Token.isLiteral token = false ∧ ofWord token pending = .error fault.cause ∧
        fault.position = position := by
  rw [scanToken]
  by_cases hliteral : Token.isLiteral token = true
  · simp [hliteral]
  · rw [if_neg hliteral, map_eq_error_iff, located_eq_error_iff]
    simp [Bool.eq_false_iff.mpr hliteral]

/-- A scan fails at a word behind which it does not fail. -/
theorem scanFrom_eq_error_iff {tokens : List String} {fault : Fault Cause} :
    scanFrom ofLiteral ofWord position tokens = .error fault ↔
      ∃ index word pending, tokens[index]? = some word ∧ Token.isLiteral word = false ∧
        scanFrom ofLiteral ofWord (position + index + 1) (tokens.drop (index + 1)) =
          .ok pending ∧
        ofWord word pending = .error fault.cause ∧ fault.position = position + index := by
  induction tokens generalizing position with
  | nil => simp
  | cons token rest ih =>
    rw [scanFrom_cons, bind_eq_error_iff, ih]
    simp only [scanToken_eq_error_iff]
    constructor
    · intro h
      rcases h with ⟨index, word, pending, hword, hliteral, hpending, hcause, hposition⟩ |
        ⟨pending, hpending, hliteral, hcause, hposition⟩
      · refine ⟨index + 1, word, pending, hword, hliteral, ?_, hcause, by omega⟩
        rw [List.drop_succ_cons, ← hpending]
        congr 1
        omega
      · exact ⟨0, token, pending, rfl, hliteral, hpending, hcause, hposition⟩
    · intro h
      obtain ⟨index, word, pending, hword, hliteral, hpending, hcause, hposition⟩ := h
      cases index with
      | zero =>
        cases hword
        exact .inr ⟨pending, hpending, hliteral, hcause, hposition⟩
      | succ index =>
        refine .inl ⟨index, word, pending, hword, hliteral, ?_, hcause, by omega⟩
        rw [List.drop_succ_cons] at hpending
        rw [← hpending]
        congr 1
        omega

end Scan

section Words
variable {word : String}

/-- A word that is no keyword. -/
def Token.IsUnknown (token : String) : Prop :=
  Token.isLiteral token = false ∧ ∀ op : Operator, op.keyword ≠ token

theorem applyWord_eq_error {pending : List Value} {cause : EvalCause}
    (h : applyWord word pending = .error cause) :
    (∃ op : Operator, op.keyword = word ∧ op.fold pending = .error cause) ∨
      (cause = .unknownOperator word ∧ ∀ op : Operator, op.keyword ≠ word) := by
  rw [applyWord] at h
  split at h
  next op hop => exact .inl ⟨op, Operator.ofKeyword?_eq_some_iff.mp hop, h⟩
  next hnone =>
    cases h
    exact .inr ⟨rfl, Operator.ofKeyword?_eq_none_iff.mp hnone⟩

theorem joinWord_eq_error_iff {pending : List String} {name : String} :
    joinWord word pending = .error (.unknownOperator name) ↔
      name = word ∧ ∀ op : Operator, op.keyword ≠ word := by
  rw [joinWord, ← Operator.ofKeyword?_eq_none_iff]
  split
  next op hop => simp [hop]
  next hnone => simp [hnone, eq_comm]

/-- A token can be coded exactly if it is not unknown, whatever is pending. -/
theorem exists_joinToken_eq_ok_iff {position : ℕ} {pending : List String} :
    (∃ result, scanToken Integer64.text joinWord (word, position) pending = .ok result) ↔
      ¬Token.IsUnknown word := by
  constructor
  · intro h hunknown
    obtain ⟨result, hresult⟩ := h
    obtain ⟨hliteral, hkeyword⟩ := hunknown
    have hfault : scanToken Integer64.text joinWord (word, position) pending =
        .error ⟨position, .unknownOperator word⟩ :=
      scanToken_eq_error_iff.mpr ⟨hliteral, joinWord_eq_error_iff.mpr ⟨rfl, hkeyword⟩, rfl⟩
    rw [hfault] at hresult
    cases hresult
  · intro hknown
    cases h : scanToken Integer64.text joinWord (word, position) pending with
    | ok result => exact ⟨result, rfl⟩
    | error fault =>
      obtain ⟨position', ⟨name⟩⟩ := fault
      obtain ⟨hliteral, hcause, -⟩ := scanToken_eq_error_iff.mp h
      exact absurd ⟨hliteral, (joinWord_eq_error_iff.mp hcause).2⟩ hknown

/-- All tokens can be coded exactly if no word is unknown. -/
theorem exists_scanTexts_eq_ok_iff {position : ℕ} {tokens : List String} :
    (∃ pending, scanFrom Integer64.text joinWord position tokens = .ok pending) ↔
      ∀ token ∈ tokens, ¬Token.IsUnknown token := by
  induction tokens generalizing position with
  | nil => simp
  | cons token rest ih =>
    rw [List.forall_mem_cons, ← ih, scanFrom_cons]
    simp only [bind_eq_ok_iff]
    constructor
    · intro h
      obtain ⟨result, pending, hpending, hresult⟩ := h
      exact ⟨exists_joinToken_eq_ok_iff.mp ⟨result, hresult⟩, pending, hpending⟩
    · intro h
      obtain ⟨hknown, pending, hpending⟩ := h
      obtain ⟨result, hresult⟩ := exists_joinToken_eq_ok_iff.mpr hknown
      exact ⟨result, pending, hpending, hresult⟩

end Words

/-- What a cause says of the word at its position, among these tokens. -/
def EvalCause.Concerns (tokens : List String) (position : ℕ) (word : String) : EvalCause → Prop
  | .unknownOperator name => name = word ∧ ∀ op : Operator, op.keyword ≠ word
  | .missingOperand op =>
    word = op.keyword ∧ (op = .sub ∨ op = .div) ∧ position + 1 = tokens.length
  | .divisionByZero => word = "div"
  | .overflow op => word = op.keyword
  | .underflow op => word = op.keyword ∧ (op = .mul ∨ op = .div)
  | .precisionLoss value =>
    (∃ op : Operator, word = op.keyword) ∧ 2 ^ 53 - 1 < value.toInt.natAbs

/-- What one step of an operator reports concerns the keyword of the operator. -/
theorem Operator.StepCause.concerns {op : Operator} {cause : EvalCause} (h : op.StepCause cause)
    (tokens : List String) (position : ℕ) : cause.Concerns tokens position op.keyword := by
  cases h with
  | divisionByZero isDiv =>
    subst isDiv
    rfl
  | overflow => rfl
  | underflow vanishes =>
    refine ⟨rfl, ?_⟩
    cases op <;> simp_all [Operator.mayUnderflow]
  | precisionLoss large =>
    refine ⟨⟨op, rfl⟩, ?_⟩
    rw [Binary64.digitBound] at large
    omega

section Parsed
variable {tokens : List String} {expr : Expr}

/-- A walk over the tree of some tokens fails as the scan of the tokens does. -/
theorem walk_eq_error_iff_scan {Cause α : Type} {ofLiteral : Int64 → α}
    {ofHead : Head → List α → Except Cause α} {ofWord : String → List α → Except Cause α}
    (hword : ∀ word, ofHead (Head.ofWord word) = ofWord word)
    (hparse : parse tokens = .ok expr) {fault : Fault Cause} :
    expr.walk ofLiteral ofHead = .error fault ↔
      tokens.head?.any Token.isLiteral = false ∧
        scanFrom ofLiteral ofWord 0 tokens = .error fault := by
  cases hfirst : tokens.head?.any Token.isLiteral with
  | false => simp [scanFrom_eq_walk hword hparse hfirst, map_eq_error_iff]
  | true =>
    obtain ⟨first, hhead, hliteral⟩ := (Option.any_eq_true _ _).mp hfirst
    obtain ⟨value, rfl, -⟩ := (parse_of_literal_eq_ok_iff hhead hliteral).mp hparse
    simp

/-- A fault of evaluation concerns the word at its position. -/
theorem concerns_of_evaluate (hparse : parse tokens = .ok expr) {fault : Fault EvalCause}
    (h : expr.evaluate = .error fault) :
    ∃ word, tokens[fault.position]? = some word ∧ Token.isLiteral word = false ∧
      fault.cause.Concerns tokens fault.position word := by
  obtain ⟨-, hscan⟩ := (walk_eq_error_iff_scan apply_ofWord hparse).mp h
  obtain ⟨index, word, pending, hword, hliteral, hpending, hcause, hposition⟩ :=
    scanFrom_eq_error_iff.mp hscan
  rw [Nat.zero_add] at hposition
  rw [hposition]
  refine ⟨word, hword, hliteral, ?_⟩
  rcases applyWord_eq_error hcause with ⟨op, rfl, hfold⟩ | ⟨hunknown, hkeyword⟩
  · rcases Operator.cause_of_fold hfold with ⟨hmissing, hunseeded, rfl⟩ | hstep
    · -- nothing is pending, so the keyword is the last token
      have hlast : tokens.length ≤ index + 1 :=
        List.drop_eq_nil_iff.mp (scanFrom_eq_ok_nil_iff.mp hpending)
      have hlt := (List.getElem?_eq_some_iff.mp hword).1
      rw [hmissing]
      exact ⟨rfl, hunseeded, by omega⟩
    · exact hstep.concerns tokens index
  · rw [hunknown]
    exact ⟨rfl, hkeyword⟩

/-- An operator without a seed at the end of the tokens has no operand. -/
theorem evaluate_of_getLast? (hparse : parse tokens = .ok expr)
    (hfirst : tokens.head?.any Token.isLiteral = false) {op : Operator} (hop : op.Unseeded)
    (hlast : tokens.getLast? = some op.keyword) :
    expr.evaluate = .error ⟨tokens.length - 1, .missingOperand op⟩ := by
  have hne : tokens ≠ [] := by
    intro hnil
    rw [hnil] at hlast
    cases hlast
  have hpos : 0 < tokens.length := List.length_pos_iff.mpr hne
  rw [List.getLast?_eq_getElem?] at hlast
  refine (walk_eq_error_iff_scan apply_ofWord hparse).mpr ⟨hfirst, scanFrom_eq_error_iff.mpr ?_⟩
  refine ⟨tokens.length - 1, op.keyword, [], hlast, Token.isLiteral_keyword op, ?_, ?_,
    (Nat.zero_add _).symm⟩
  · rw [Nat.sub_add_cancel hpos, List.drop_length]
    rfl
  · rw [applyWord, Operator.ofKeyword?_keyword]
    exact Operator.fold_nil_of_unseeded hop

/-- The last of the unknown words is what coding fails for. -/
theorem code_eq_error_iff_isGreatest (hparse : parse tokens = .ok expr) {name : String}
    {position : ℕ} :
    expr.code = .error ⟨position, .unknownOperator name⟩ ↔
      tokens.head?.any Token.isLiteral = false ∧
        IsGreatest {index | ∃ word, tokens[index]? = some word ∧ Token.IsUnknown word} position ∧
        tokens[position]? = some name := by
  rw [Expr.code_eq_walk, walk_eq_error_iff_scan join_ofWord hparse, scanFrom_eq_error_iff]
  refine and_congr_right fun _ => ?_
  constructor
  · intro h
    obtain ⟨index, word, pending, hword, hliteral, hpending, hcause, hposition⟩ := h
    obtain ⟨rfl, hkeyword⟩ := joinWord_eq_error_iff.mp hcause
    obtain rfl : position = index := hposition.trans (Nat.zero_add index)
    refine ⟨⟨⟨name, hword, hliteral, hkeyword⟩, ?_⟩, hword⟩
    intro other hmem
    obtain ⟨word, hother, hunknown⟩ := hmem
    by_contra hlt
    have hmem : word ∈ tokens.drop (position + 1) := by
      refine List.mem_iff_getElem?.mpr ⟨other - (position + 1), ?_⟩
      rw [List.getElem?_drop, ← hother]
      congr 1
      omega
    exact exists_scanTexts_eq_ok_iff.mp ⟨pending, hpending⟩ word hmem hunknown
  · intro h
    obtain ⟨⟨⟨word, hword, hliteral, hkeyword⟩, hgreatest⟩, hname⟩ := h
    obtain rfl : word = name := Option.some.inj (hword.symm.trans hname)
    have hbehind : ∀ token ∈ tokens.drop (position + 1), ¬Token.IsUnknown token := by
      intro token hmem hunknown
      obtain ⟨offset, hoffset⟩ := List.mem_iff_getElem?.mp hmem
      rw [List.getElem?_drop] at hoffset
      have hle := hgreatest ⟨token, hoffset, hunknown⟩
      omega
    obtain ⟨pending, hpending⟩ := exists_scanTexts_eq_ok_iff.mpr hbehind
    exact ⟨position, word, pending, hword, hliteral, hpending,
      joinWord_eq_error_iff.mpr ⟨rfl, hkeyword⟩, (Nat.zero_add _).symm⟩

end Parsed

/-- Faults point at the words that they concern. -/
theorem faults_concern_words {tokens : List String} {expr : Expr}
    (hparse : parse tokens = .ok expr) :
    (∀ fault, expr.evaluate = .error fault →
      ∃ word, tokens[fault.position]? = some word ∧ Token.isLiteral word = false ∧
        fault.cause.Concerns tokens fault.position word) ∧
    (tokens.head?.any Token.isLiteral = false → ∀ op : Operator, op = .sub ∨ op = .div →
      tokens.getLast? = some op.keyword →
        expr.evaluate = .error ⟨tokens.length - 1, .missingOperand op⟩) ∧
    ∀ name position, expr.code = .error ⟨position, .unknownOperator name⟩ ↔
      tokens.head?.any Token.isLiteral = false ∧
        IsGreatest {index | ∃ word, tokens[index]? = some word ∧ Token.IsUnknown word} position ∧
        tokens[position]? = some name :=
  ⟨fun _ => concerns_of_evaluate hparse, fun hfirst _ => evaluate_of_getLast? hparse hfirst,
    fun _ _ => code_eq_error_iff_isGreatest hparse⟩

/-- Evaluation fails at the keyword in the end, and coding at the unknown word before it. -/
theorem faults_concern_words_quotient :
    let tokens := ["sum", "1", "pow", "2", "div"]
    ∃ expr, parse tokens = .ok expr ∧
      expr.evaluate = .error ⟨4, .missingOperand .div⟩ ∧
      (EvalCause.missingOperand .div).Concerns tokens 4 "div" ∧
      expr.code = .error ⟨2, .unknownOperator "pow"⟩ ∧
      IsGreatest {index | ∃ word, tokens[index]? = some word ∧ Token.IsUnknown word} 2 := by
  intro tokens
  have hparse : parse tokens = .ok (.operation (.known .sum) [.literal 1 1,
      .operation (.unknown "pow") [.literal 2 3, .operation (.known .div) [] 4] 2] 0) := by
    rw [parse_of_word _ _ (by decide)]
    rfl
  obtain ⟨hconcerns, hlast, hcode⟩ := faults_concern_words hparse
  have hvalue := hlast (by decide) .div (.inr rfl) rfl
  obtain ⟨word, hword, -, hquotient⟩ := hconcerns _ hvalue
  cases hword
  obtain ⟨-, hgreatest, -⟩ := (hcode "pow" 2).mp rfl
  exact ⟨_, hparse, hvalue, hquotient, rfl, hgreatest⟩

end PrefixArithmetic
