import PrefixArithmetic.Proofs.Parsing.Image

/-!
# Measures of parsed expressions

A parsed expression has one leaf for each literal among its tokens and one operation
for each word. Every word stands inside the operations of all words before it, so
the words are also what the height counts, with one level more for literals behind
the last of them. The limit on nesting bounds the height of everything that is
evaluated or written as code.
-/
namespace PrefixArithmetic

namespace Parsing
open PrefixArithmetic.Expr

/-- The levels that tokens open up: one at each word, and one for the literals at the end. -/
def levels (tokens : List String) : ℕ :=
  tokens.countP (!Token.isLiteral ·) + if tokens.getLast?.any Token.isLiteral then 1 else 0

/-- The operands that are read from some tokens have the measures of the tokens. -/
structure Measured (row : List Expr) (tokens : List String) : Prop where
  leafCount_eq : (row.map leafCount).foldr (· + ·) 0 = tokens.countP Token.isLiteral
  operationCount_eq : (row.map operationCount).foldr (· + ·) 0 = tokens.countP (!Token.isLiteral ·)
  depth_eq : (row.map depth).foldr max 0 = levels tokens

section Tokens
variable {token : String} {rest : List String} {row : List Expr} {position : ℕ}

/-- The last token of all tells whether there is a level for literals. -/
lemma levels_of_literal (h : Token.isLiteral token = true) :
    levels (token :: rest) = max 1 (levels rest) := by
  have hwords : (token :: rest).countP (!Token.isLiteral ·) = rest.countP (!Token.isLiteral ·) :=
    List.countP_cons_of_neg (by simp [h])
  rw [levels, levels, hwords]
  cases rest with
  | nil => simp [h]
  | cons next rest =>
    rw [List.getLast?_cons_cons]
    by_cases hlast : (next :: rest).getLast?.any Token.isLiteral = true
    · rw [if_pos hlast]
      omega
    · -- the last token is a word, and that is a level already
      have hword : 0 < (next :: rest).countP (!Token.isLiteral ·) := by
        refine List.countP_pos_iff.mpr ⟨_, List.getLast_mem (List.cons_ne_nil next rest), ?_⟩
        rw [List.getLast?_eq_some_getLast (List.cons_ne_nil next rest)] at hlast
        simpa using hlast
      rw [if_neg hlast]
      omega

lemma levels_of_word (h : Token.isLiteral token = false) :
    levels (token :: rest) = levels rest + 1 := by
  have hwords : (token :: rest).countP (!Token.isLiteral ·) =
      rest.countP (!Token.isLiteral ·) + 1 := List.countP_cons_of_pos (by simp [h])
  rw [levels, levels, hwords]
  cases rest with
  | nil => simp [h]
  | cons next rest =>
    rw [List.getLast?_cons_cons]
    omega

theorem measured_nil : Measured [] [] := ⟨rfl, rfl, rfl⟩

/-- A literal is one leaf more, beside the others. -/
theorem Measured.literal (h : Measured row rest) (htoken : Token.isLiteral token = true)
    (value : Int64) : Measured (.literal value position :: row) (token :: rest) where
  leafCount_eq := by
    rw [List.map_cons, List.foldr_cons, leafCount_literal, h.leafCount_eq,
      List.countP_cons_of_pos htoken, Nat.add_comm]
  operationCount_eq := by
    rw [List.map_cons, List.foldr_cons, operationCount_literal, h.operationCount_eq,
      List.countP_cons_of_neg (by simp [htoken]), Nat.zero_add]
  depth_eq := by
    rw [List.map_cons, List.foldr_cons, depth_literal, h.depth_eq, levels_of_literal htoken]

/-- A word puts its operation on top of all the others. -/
theorem Measured.operation (h : Measured row rest) (htoken : Token.isLiteral token = false)
    (head : Head) : Measured [.operation head row position] (token :: rest) where
  leafCount_eq := by
    rw [List.countP_cons_of_neg (by simp [htoken]), ← h.leafCount_eq]
    simp
  operationCount_eq := by
    rw [List.countP_cons_of_pos (by simp [htoken]), ← h.operationCount_eq]
    simp
  depth_eq := by
    rw [levels_of_word htoken, ← h.depth_eq]
    simp

end Tokens

/-- Operands have the measures of the tokens they are read from. The induction is on the tokens:
a literal goes beside what follows it, and a word on top. -/
theorem measured_of_flatOperands {position depth : ℕ} {tokens : List String} {row : List Expr}
    (h : flatOperands position depth tokens = .ok row) : Measured row tokens := by
  induction tokens generalizing position depth row with
  | nil =>
    cases h
    exact measured_nil
  | cons token rest ih =>
    cases htoken : Token.isLiteral token with
    | true =>
      obtain ⟨-, inner, hinner, rfl⟩ := (flatOperands_of_literal_eq_ok_iff htoken).mp h
      exact (ih hinner).literal htoken _
    | false =>
      obtain ⟨-, inner, hinner, rfl⟩ := (flatOperands_of_word_eq_ok_iff htoken).mp h
      exact (ih hinner).operation htoken _

/-- Behind a word in front the whole expression has the measures of all tokens. -/
theorem measured_of_parse {tokens : List String} {expr : Expr} (hparse : parse tokens = .ok expr)
    (hfirst : tokens.head?.any Token.isLiteral = false) : Measured [expr] tokens := by
  cases tokens with
  | nil => rw [parse_nil] at hparse; cases hparse
  | cons first rest =>
    have hword : Token.isLiteral first = false := hfirst
    rw [parse_of_word first rest hword] at hparse
    obtain ⟨inner, hinner, rfl⟩ := map_eq_ok_iff.mp hparse
    exact (measured_of_flatOperands hinner).operation hword _

end Parsing

section Parse
variable {tokens : List String} {expr : Expr}

/-- A literal in front is all of the expression. -/
theorem exists_literal_of_parse (hparse : parse tokens = .ok expr)
    (hfirst : tokens.head?.any Token.isLiteral = true) : ∃ value, expr = .literal value 0 := by
  obtain ⟨first, hhead, hliteral⟩ := (Option.any_eq_true _ _).mp hfirst
  obtain ⟨value, rfl, -⟩ := (parse_of_literal_eq_ok_iff hhead hliteral).mp hparse
  exact ⟨value, rfl⟩

/-- Literals are leaves and words are operations, no more of them than the limit on nesting, and
the height is the number of words and a level more for a literal at the end. Only a literal in
front is read alone. -/
theorem measures_of_parse (hparse : parse tokens = .ok expr) :
    expr.depth ≤ 513 ∧
      (tokens.head?.any Token.isLiteral = true →
        expr.leafCount = 1 ∧ expr.operationCount = 0 ∧ expr.depth = 1) ∧
      (tokens.head?.any Token.isLiteral = false →
        expr.leafCount = tokens.countP Token.isLiteral ∧
          expr.operationCount = tokens.countP (!Token.isLiteral ·) ∧
          expr.operationCount ≤ 512 ∧
          expr.leafCount + expr.operationCount = tokens.length ∧
          expr.depth =
            expr.operationCount + if tokens.getLast?.any Token.isLiteral then 1 else 0) := by
  have hlimit : expr.operationCount ≤ 512 := (parse_eq_ok_iff.mp hparse).1.operationCount_le
  cases hfirst : tokens.head?.any Token.isLiteral with
  | true =>
    obtain ⟨value, rfl⟩ := exists_literal_of_parse hparse hfirst
    simp
  | false =>
    have hmeasured := Parsing.measured_of_parse hparse hfirst
    have hleaves : expr.leafCount = tokens.countP Token.isLiteral := by
      simpa using hmeasured.leafCount_eq
    have hoperations : expr.operationCount = tokens.countP (!Token.isLiteral ·) := by
      simpa using hmeasured.operationCount_eq
    have hdepth : expr.depth =
        expr.operationCount + if tokens.getLast?.any Token.isLiteral then 1 else 0 := by
      have hlevels : expr.depth = Parsing.levels tokens := by simpa using hmeasured.depth_eq
      rw [hlevels, hoperations, Parsing.levels]
    have hlength : expr.leafCount + expr.operationCount = tokens.length := by
      rw [hleaves, hoperations]
      simpa using (List.length_eq_countP_add_countP Token.isLiteral).symm
    refine ⟨?_, nofun, fun _ => ⟨hleaves, hoperations, hlimit, hlength, hdepth⟩⟩
    rw [hdepth]
    split_ifs <;> omega

/-- A word at the end has no operands, so nothing stands on the level below it. -/
theorem measures_of_parse_word :
    let tokens := ["sum", "007", "pow", "8", "9", "sub"]
    ∃ expr, parse tokens = .ok expr ∧ expr.leafCount = 3 ∧ expr.operationCount = 3 ∧
      expr.depth = 3 := by
  intro tokens
  have hparse : parse tokens = .ok (.operation (.known .sum) [.literal 7 1,
      .operation (.unknown "pow") [.literal 8 3, .literal 9 4,
        .operation (.known .sub) [] 5] 2] 0) := by
    rw [parse_of_word _ _ (by decide)]
    rfl
  obtain ⟨-, -, hmeasures⟩ := measures_of_parse hparse
  obtain ⟨hleaves, hoperations, -, -, hdepth⟩ := hmeasures (by decide)
  refine ⟨_, hparse, ?_, ?_, ?_⟩
  · rw [hleaves]
    decide
  · rw [hoperations]
    decide
  · rw [hdepth, hoperations]
    decide

end Parse

end PrefixArithmetic
