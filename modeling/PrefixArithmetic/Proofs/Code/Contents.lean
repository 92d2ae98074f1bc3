import PrefixArithmetic.Proofs.Parsing.Image
import PrefixArithmetic.Proofs.Text.Marks

/-!
# What stands in code

Code has a pair of brackets for each operation, an operator between each two
operands, and the numeral of each literal, and nothing else that could be taken
for one of these. A property of all code is shown as the code is written: for a
numeral, for brackets around a row, and for a row of operands from its last to
its first.
-/
namespace PrefixArithmetic
open Formula Text

namespace Expr

/-- The values of the literals from left to right. -/
def leaves : Expr → List Int64 := fold (fun value _ => [value]) fun _ rows _ => rows.flatten

/-- The number of operations without operands. -/
def emptyCount : Expr → ℕ :=
  fold (fun _ _ => 0) fun _ counts _ => counts.foldr (· + ·) 0 + if counts.isEmpty then 1 else 0

section Measures
variable (value : Int64) (head : Head) (operands : List Expr) (position : ℕ)

@[simp] theorem leaves_literal : (literal value position).leaves = [value] := by simp [leaves]

@[simp] theorem leaves_operation :
    (operation head operands position).leaves = (operands.map leaves).flatten := by
  simp [leaves]

@[simp] theorem emptyCount_literal : (literal value position).emptyCount = 0 := by
  simp [emptyCount]

@[simp] theorem emptyCount_operation :
    (operation head operands position).emptyCount =
      (operands.map emptyCount).foldr (· + ·) 0 + if operands.isEmpty then 1 else 0 := by
  simp [emptyCount]

end Measures

/-- A property of expressions and their code, and one of rows of operands and what is written
between the brackets, that hold of a whole if they hold of its parts. -/
structure CodeInvariant (P : Expr → List Char → Prop) (Row : List Expr → List Char → Prop) :
    Prop where
  literal : ∀ value position, P (.literal value position) (Numeral.ofInt value.toInt).text
  operation : ∀ {op operands position text}, Row operands text →
    P (.operation (.known op) operands position) ('(' :: (text ++ [')']))
  empty : Row [] []
  last : ∀ {operand text}, P operand text → Row [operand] text
  between : ∀ {op operand row text more}, row ≠ [] → P operand text → Row row more →
    Row (operand :: row) (text ++ (separator op ++ more))

namespace CodeInvariant
variable {P : Expr → List Char → Prop} {Row : List Expr → List Char → Prop}

/-- What is joined from the code of operands is a row of them. -/
theorem row (inv : CodeInvariant P Row) (op : Operator) {operands : List Expr}
    {parts : List (List Char)} (h : List.Forall₂ P operands parts) :
    Row operands ((separator op).intercalate parts) := by
  induction h with
  | nil => exact inv.empty
  | cons hfirst hrest ih =>
    cases hrest with
    | nil =>
      rw [List.intercalate_singleton]
      exact inv.last hfirst
    | cons hsecond hrest =>
      rw [List.intercalate_cons_cons, List.append_assoc]
      exact inv.between (List.cons_ne_nil _ _) hfirst ih

theorem of_code (inv : CodeInvariant P Row) {expr : Expr} {code : String}
    (h : expr.code = .ok code) : P expr code.toList := by
  rw [code_eq_walk] at h
  induction expr generalizing code with
  | literal value position =>
    rw [walk_literal] at h
    cases h
    have htext : (Integer64.text value).toList = (Numeral.ofInt value.toInt).text := by
      rw [Numeral.text_ofInt, Integer64.text]
    rw [htext]
    exact inv.literal value position
  | operation head operands position ih =>
    obtain ⟨parts, hparts, hhead⟩ := (walk_operation_eq_ok_iff _ _).mp h
    cases head with
    | unknown name => cases hhead
    | known op =>
      cases hhead
      have hrow : List.Forall₂ P operands (parts.map String.toList) :=
        List.forall₂_map_right_iff.mpr (forall₂_imp_of_mem hparts ih)
      have htext : ("(" ++ (" " ++ op.symbol ++ " ").intercalate parts ++ ")").toList =
          '(' :: ((separator op).intercalate (parts.map String.toList) ++ [')']) := by
        simp [String.toList_intercalate, separator]
      rw [htext]
      exact inv.operation (inv.row op hrow)

end CodeInvariant

lemma enclosed_append (text rest : List Char) :
    '(' :: (text ++ [')']) ++ rest = '(' :: (text ++ ')' :: rest) := by simp

lemma not_mem_numeral {c : Char} (hdigit : c.isDigit = false) (hsign : c ≠ '-')
    (numeral : Numeral) : c ∉ numeral.text := by
  have hdigits : c ∉ numeral.digits := by
    intro hmem
    rw [numeral.forall_isDigit c hmem] at hdigit
    cases hdigit
  rw [Numeral.text]
  split_ifs
  · exact List.not_mem_cons_of_ne_of_not_mem hsign hdigits
  · exact hdigits

lemma bracket_not_mem_separator {bracket : Char} (h : bracket = '(' ∨ bracket = ')')
    (op : Operator) : bracket ∉ separator op := by
  rcases h with rfl | rfl <;> cases op <;> decide

lemma bracket_not_mem_numeral {bracket : Char} (h : bracket = '(' ∨ bracket = ')')
    (numeral : Numeral) : bracket ∉ numeral.text := by
  rcases h with rfl | rfl <;> exact not_mem_numeral (by decide) (by decide) numeral

/-- Each operation has one bracket of either kind. -/
theorem codeInvariant_brackets {bracket : Char} (h : bracket = '(' ∨ bracket = ')') :
    CodeInvariant (fun expr text => text.count bracket = expr.operationCount)
      fun row text => text.count bracket = (row.map operationCount).foldr (· + ·) 0 where
  literal _ _ := by
    rw [operationCount_literal]
    exact List.count_eq_zero_of_not_mem (bracket_not_mem_numeral h _)
  operation := by
    intro op operands position text hrow
    rw [operationCount_operation, ← hrow]
    rcases h with rfl | rfl <;> simp
  empty := rfl
  last := by
    intro operand text htext
    simpa using htext
  between := by
    intro op operand row text more _ htext hmore
    rw [List.count_append, List.count_append, htext, hmore,
      List.count_eq_zero_of_not_mem (bracket_not_mem_separator h op), Nat.zero_add]
    rfl

/-- No bracket is closed before it is opened, neither in code nor in a row. -/
theorem codeInvariant_nested :
    CodeInvariant (fun _ text => Nested text) fun _ text => Nested text where
  literal _ _ := nested_of_not_mem (bracket_not_mem_numeral (.inr rfl) _)
  operation htext := htext.enclosed
  empty := nested_of_not_mem List.not_mem_nil
  last htext := htext
  between _ htext hmore :=
    htext.append ((nested_of_not_mem (bracket_not_mem_separator (.inr rfl) _)).append hmore)

/-- A row has one operator less than it has operands, unless it is empty. Whatever comes behind
code, no operator begins at the blank before it. -/
theorem codeInvariant_signs :
    CodeInvariant
      (fun expr text => ∀ rest, Opens (text ++ rest) ∧
        signCount (text ++ rest) + 1 = expr.leafCount + expr.emptyCount + signCount rest)
      fun row text => ∀ rest, (row ≠ [] → Opens (text ++ rest)) ∧
        signCount (text ++ rest) + (if row.isEmpty then 0 else 1) =
          (row.map leafCount).foldr (· + ·) 0 + (row.map emptyCount).foldr (· + ·) 0 +
            signCount rest where
  literal := by
    intro value position rest
    refine ⟨opens_numeral _ rest, ?_⟩
    have hblank (c : Char) (hc : c ∈ (Numeral.ofInt value.toInt).text) : c ≠ ' ' := by
      rintro rfl
      exact not_mem_numeral (by decide) (by decide) _ hc
    rw [leafCount_literal, emptyCount_literal, signCount_append hblank]
    omega
  operation := by
    intro op operands position text hrow rest
    have hinner := (hrow (')' :: rest)).2
    rw [signCount_cons (c := ')') (by decide)] at hinner
    rw [enclosed_append]
    refine ⟨opens_cons fun other => by cases other <;> decide, ?_⟩
    rw [signCount_cons (by decide), leafCount_operation, emptyCount_operation]
    split_ifs at hinner ⊢ <;> omega
  empty := by
    intro rest
    exact ⟨fun hne => absurd rfl hne, by simp⟩
  last := by
    intro operand text htext rest
    refine ⟨fun _ => (htext rest).1, ?_⟩
    simpa using (htext rest).2
  between := by
    intro op operand row text more hne htext hmore rest
    obtain ⟨hopens, hcount⟩ := hmore rest
    obtain ⟨hopens', hcount'⟩ := htext (separator op ++ (more ++ rest))
    have hassoc : text ++ (separator op ++ more) ++ rest =
        text ++ (separator op ++ (more ++ rest)) := by simp
    rw [hassoc]
    refine ⟨fun _ => hopens', ?_⟩
    rw [signCount_separator op (hopens hne)] at hcount'
    rw [if_neg (by simpa using hne)] at hcount
    rw [if_neg (by simp), List.map_cons, List.map_cons, List.foldr_cons, List.foldr_cons]
    omega

/-- The integers of code are the leaves. -/
theorem codeInvariant_integers :
    CodeInvariant
      (fun expr text => ∀ rest, NoDigit rest →
        integers (text ++ rest) = expr.leaves.map Int64.toInt ++ integers rest)
      fun row text => ∀ rest, NoDigit rest →
        integers (text ++ rest) =
          (row.map leaves).flatten.map Int64.toInt ++ integers rest where
  literal := by
    intro value position rest hrest
    rw [integers_numeral _ hrest, Numeral.value_ofInt, leaves_literal]
    rfl
  operation := by
    intro op operands position text hrow rest _
    have hclose : NoDigit (')' :: rest) := noDigit_cons (by decide)
    rw [enclosed_append, leaves_operation]
    calc integers ('(' :: (text ++ ')' :: rest))
        = integers (text ++ ')' :: rest) := integers_cons (by decide) nofun
      _ = (operands.map leaves).flatten.map Int64.toInt ++ integers (')' :: rest) := hrow _ hclose
      _ = (operands.map leaves).flatten.map Int64.toInt ++ integers rest := by
        rw [integers_cons (c := ')') (by decide) nofun]
  empty := fun rest _ => rfl
  last := by
    intro operand text htext rest hrest
    rw [htext rest hrest, List.map_singleton, List.flatten_singleton]
  between := by
    intro op operand row text more _ htext hmore rest hrest
    rw [List.append_assoc, List.append_assoc, htext _ (noDigit_separator op _),
      integers_separator, hmore rest hrest, List.map_cons, List.flatten_cons, List.map_append,
      List.append_assoc]

/-- Where only the last operand is an operation, all brackets are closed at the end. -/
theorem codeInvariant_closing :
    CodeInvariant
      (fun expr text => expr.EveryOperation LastNests →
        ∃ body, text = body ++ List.replicate expr.operationCount ')' ∧ ')' ∉ body)
      fun row text => LastNests row → (∀ operand ∈ row, operand.EveryOperation LastNests) →
        ∃ body, text = body ++ List.replicate ((row.map operationCount).foldr (· + ·) 0) ')' ∧
          ')' ∉ body where
  literal := by
    intro value position _
    refine ⟨_, ?_, bracket_not_mem_numeral (.inr rfl) (Numeral.ofInt value.toInt)⟩
    simp
  operation := by
    intro op operands position text hrow hevery
    obtain ⟨hlast, hoperands⟩ := everyOperation_operation_iff.mp hevery
    obtain ⟨body, rfl, hbody⟩ := hrow hlast hoperands
    refine ⟨'(' :: body, ?_, List.not_mem_cons_of_ne_of_not_mem (by decide) hbody⟩
    rw [operationCount_operation, List.replicate_succ', List.append_assoc, List.cons_append]
  empty := fun _ _ => ⟨[], rfl, List.not_mem_nil⟩
  last := by
    intro operand text htext _ hoperands
    simpa using htext (hoperands operand List.mem_cons_self)
  between := by
    intro op operand row text more hne htext hmore hlast hoperands
    obtain ⟨hoperand, hrest⟩ := List.forall_mem_cons.mp hoperands
    cases operand with
    | operation head operands position => exact absurd (lastNests_operation_iff.mp hlast) hne
    | literal value position =>
      obtain ⟨numeral, rfl, hnumeral⟩ := htext hoperand
      obtain ⟨body, rfl, hbody⟩ := hmore (lastNests_literal_iff.mp hlast) hrest
      refine ⟨numeral ++ (separator op ++ body), by simp, ?_⟩
      simp [hnumeral, hbody, bracket_not_mem_separator (.inr rfl) op]

end Expr

/-- Without unknown operators there is code. It has a pair of brackets for each operation, and they
are nested; an operator less than leaves, and one more for each operation without operands; and the
leaves are its integers. The code of a parsed expression has all its closing brackets at the end. -/
theorem code_contents {expr : Expr} (hknown : expr.unknowns = []) :
    ∃ code : String, expr.code = .ok code ∧
      code.toList.count '(' = expr.operationCount ∧
      code.toList.count ')' = expr.operationCount ∧
      Text.Nested code.toList ∧
      (Text.occurrences " + ".toList code.toList + Text.occurrences " - ".toList code.toList +
          Text.occurrences " / ".toList code.toList + Text.occurrences " * ".toList code.toList : ℤ)
        = expr.leafCount - 1 + expr.emptyCount ∧
      Text.integers code.toList = expr.leaves.map Int64.toInt ∧
      ∀ tokens, parse tokens = .ok expr →
        ∃ body, code.toList = body ++ List.replicate expr.operationCount ')' ∧ ')' ∉ body := by
  obtain ⟨code, hcode⟩ := (Expr.exists_walk_eq_ok_iff Expr.refusesUnknown_join).mpr hknown
  refine ⟨code, hcode, (Expr.codeInvariant_brackets (.inl rfl)).of_code hcode,
    (Expr.codeInvariant_brackets (.inr rfl)).of_code hcode,
    Expr.codeInvariant_nested.of_code hcode, ?_, ?_, ?_⟩
  · have hcount := (Expr.codeInvariant_signs.of_code hcode []).2
    have hnone : signCount [] = 0 := by simp [signCount, occurrences]
    have hsigns : signCount code.toList =
        occurrences " + ".toList code.toList + occurrences " - ".toList code.toList +
          occurrences " / ".toList code.toList + occurrences " * ".toList code.toList := rfl
    rw [List.append_nil, hnone, hsigns] at hcount
    omega
  · have hintegers := Expr.codeInvariant_integers.of_code hcode [] noDigit_nil
    have hnone : integers [] = [] := by simp [integers]
    rwa [List.append_nil, hnone, List.append_nil] at hintegers
  · intro tokens hparse
    exact Expr.codeInvariant_closing.of_code hcode (parse_eq_ok_iff.mp hparse).1.lastNests

/-- Groups of no operand and of one and a negative term, `(-1 - () - (-2) - 3)`, and a parsed
expression, `(1 - (7 * ()))`. -/
theorem code_contents_differences :
    let groups := Expr.operation (.known .sub) [.literal (-1) 1, .operation (.known .sum) [] 2,
      .operation (.known .mul) [.literal (-2) 4] 3, .literal 3 5] 0
    let parsed := Expr.operation (.known .sub) [.literal 1 1, .operation (.known .mul)
      [.literal 7 3, .operation (.known .sum) [] 4] 2] 0
    (groups.unknowns = [] ∧ ∃ code, groups.code = .ok code ∧ code.toList.count ')' = 3 ∧
      Text.occurrences " + ".toList code.toList + Text.occurrences " - ".toList code.toList +
        Text.occurrences " / ".toList code.toList + Text.occurrences " * ".toList code.toList = 3 ∧
      Text.integers code.toList = [-1, -2, 3]) ∧
    (parsed.unknowns = [] ∧ parse ["sub", "1", "mul", "7", "sum"] = .ok parsed ∧
      ∃ code body, parsed.code = .ok code ∧
        code.toList = body ++ [')', ')', ')'] ∧ ')' ∉ body) := by
  intro groups parsed
  obtain ⟨code, hcode, -, hclosed, -, hsigns, hintegers, -⟩ := @code_contents groups rfl
  obtain ⟨code', hcode', -, -, -, -, -, hclosing⟩ := @code_contents parsed rfl
  have hparse : parse ["sub", "1", "mul", "7", "sum"] = .ok parsed := by
    rw [parse_of_word _ _ (by decide)]
    rfl
  obtain ⟨body, hbody, hnone⟩ := hclosing _ hparse
  have hleaves : groups.leafCount = 3 := by simp [groups]
  have hempty : groups.emptyCount = 1 := by simp [groups]
  refine ⟨⟨rfl, code, hcode, ?_, ?_, ?_⟩, rfl, hparse, code', body, hcode', ?_, hnone⟩
  · simpa [groups] using hclosed
  · omega
  · simpa [groups] using hintegers
  · simpa [parsed] using hbody

end PrefixArithmetic
