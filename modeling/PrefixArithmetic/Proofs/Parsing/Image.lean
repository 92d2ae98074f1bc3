import PrefixArithmetic.Expr.Nodes
import PrefixArithmetic.Proofs.Code.Formula
import PrefixArithmetic.Proofs.Parsing.Flat
import PrefixArithmetic.Proofs.Postorder

/-!
# What parsing gives

Each node of a parsed expression stands for one token, and in preorder the nodes
are the tokens, none lost and none moved. The expressions that parsing gives are
those whose nodes are numbered in preorder, whose words are not spelled like
anything else, and whose operations are nested at the end only and not too deep.
Printed in preorder, each of them is read again as itself.
-/
namespace PrefixArithmetic

namespace Token
variable {value : Int64}

lemma toList_text_of_nonneg (h : 0 ≤ value.toInt) :
    (Integer64.text value).toList = Nat.toDigits 10 value.toInt.toNat := by
  obtain ⟨n, hn⟩ := Int.eq_ofNat_of_zero_le h
  rw [Integer64.text, hn]
  simp [Int.repr]

/-- The text of an integer that is not negative is a literal. -/
theorem isLiteral_text (h : 0 ≤ value.toInt) : isLiteral (Integer64.text value) = true := by
  rw [isLiteral, toList_text_of_nonneg h]
  exact Numeral.isDigits_toDigits _

theorem decimal_text (h : 0 ≤ value.toInt) :
    (decimal (Integer64.text value) : ℤ) = value.toInt := by
  rw [decimal, toList_text_of_nonneg h, Nat.ofDigitChars_ten_toDigits, Int.toNat_of_nonneg h]

/-- A literal is one word of a text. -/
theorem noBlank_of_isLiteral {token : String} (h : isLiteral token = true) :
    token ≠ "" ∧ ∀ c ∈ token.toList, Text.isBlank c = false := by
  rw [isLiteral, Integer64.isDigits, Bool.and_eq_true, List.all_eq_true] at h
  obtain ⟨hne, hdigits⟩ := h
  refine ⟨?_, fun c hc => Text.isBlank_of_isDigit (hdigits c hc)⟩
  intro hempty
  rw [hempty] at hne
  cases hne

lemma noBlank_of_any {token : String} (h : token.toList.any Text.isBlank = false) :
    ∀ c ∈ token.toList, Text.isBlank c = false := by
  simpa using h

theorem noBlank_keyword (op : Operator) :
    op.keyword ≠ "" ∧ ∀ c ∈ op.keyword.toList, Text.isBlank c = false := by
  have hany : op.keyword.toList.any Text.isBlank = false := by cases op <;> decide
  refine ⟨?_, noBlank_of_any hany⟩
  cases op <;> decide

end Token

namespace Node

/-- The index of the token that a node was read from. -/
def position : Node → ℕ
  | literal _ position => position
  | operation _ _ position => position

/-- The token that a node is printed as. -/
def token : Node → String
  | literal value _ => Integer64.text value
  | operation head _ _ => head.word

/-- A literal stands for digits of its number, and an operation for the word of its head. -/
def StandsFor : Node → String → Prop
  | literal value _, token => Token.isLiteral token = true ∧ value.toInt = Token.decimal token
  | operation head _ _, token => Token.isLiteral token = false ∧ head = Head.ofWord token

/-- No literal has a sign, and no unknown operator is spelled like a keyword or a literal. -/
def Readable : Node → Prop
  | literal value _ => 0 ≤ value.toInt
  | operation (.known _) _ _ => True
  | operation (.unknown name) _ _ =>
    (∀ op : Operator, op.keyword ≠ name) ∧ Token.isLiteral name = false

theorem readable_of_standsFor {node : Node} {token : String} (h : node.StandsFor token) :
    node.Readable := by
  cases node with
  | literal value position =>
    rw [Readable, h.2]
    exact Int.natCast_nonneg _
  | operation head count position =>
    obtain ⟨hliteral, rfl⟩ := h
    rw [Head.ofWord]
    cases hword : Operator.ofKeyword? token with
    | some op => trivial
    | none => exact ⟨Operator.ofKeyword?_eq_none_iff.mp hword, hliteral⟩

/-- A readable node stands for the token that it is printed as. -/
theorem standsFor_token {node : Node} (h : node.Readable) : node.StandsFor node.token := by
  match node with
  | literal value position => exact ⟨Token.isLiteral_text h, (Token.decimal_text h).symm⟩
  | operation (.known op) count position =>
    exact ⟨Token.isLiteral_keyword op, (Head.ofWord_keyword op).symm⟩
  | operation (.unknown name) count position =>
    refine ⟨h.2, ?_⟩
    rw [token, Head.word, Head.ofWord, Operator.ofKeyword?_eq_none_iff.mpr h.1]

end Node

namespace Expr

/-- The tokens of an expression in preorder. -/
def tokens (expr : Expr) : List String := expr.nodes.map Node.token

def isLiteral : Expr → Bool
  | literal _ _ => true
  | operation _ _ _ => false

/-- No operand but the last is an operation. -/
def LastNests (operands : List Expr) : Prop :=
  ∀ operand ∈ operands.dropLast, operand.isLiteral = true

/-- The shape of parsed expressions. -/
structure Shaped (expr : Expr) : Prop where
  readable : ∀ node ∈ expr.nodes, node.Readable
  lastNests : expr.EveryOperation LastNests
  operationCount_le : expr.operationCount ≤ 512
  positions : expr.nodes.map Node.position = List.range expr.nodes.length

/-- A literal in front is read alone; else every token is read as the node at its place. -/
def ReadFrom (expr : Expr) (tokens : List String) : Prop :=
  (∃ first value, tokens.head? = some first ∧ Token.isLiteral first = true ∧
      expr = literal value 0 ∧ value.toInt = Token.decimal first) ∨
    List.Forall₂ Node.StandsFor expr.nodes tokens

/-- The nodes of some expressions in a row. -/
def rowNodes (row : List Expr) : List Node := (row.map nodes).flatten

theorem nodes_ne_nil (expr : Expr) : expr.nodes ≠ [] := by
  cases expr <;> simp

@[simp] theorem rowNodes_nil : rowNodes [] = [] := rfl

@[simp] theorem rowNodes_cons (expr : Expr) (row : List Expr) :
    rowNodes (expr :: row) = expr.nodes ++ rowNodes row := by simp [rowNodes]

theorem rowNodes_eq_nil_iff {row : List Expr} : rowNodes row = [] ↔ row = [] := by
  cases row with
  | nil => simp
  | cons expr row => simp [nodes_ne_nil]

theorem nodes_operation_eq (head : Head) (operands : List Expr) (position : ℕ) :
    (operation head operands position).nodes =
      .operation head operands.length position :: rowNodes operands := nodes_operation ..

/-- The shape of operands that are read from a position on, inside `depth` operations. -/
structure RowShaped (position depth : ℕ) (row : List Expr) : Prop where
  readable : ∀ node ∈ rowNodes row, node.Readable
  lastNests : LastNests row
  inside : ∀ operand ∈ row, operand.EveryOperation LastNests
  depth_le : depth + (row.map operationCount).foldr (· + ·) 0 ≤ 512
  positions : (rowNodes row).map Node.position = List.range' position (rowNodes row).length

lemma positions_cons_iff {node : Node} {nodes : List Node} {position : ℕ} :
    (node :: nodes).map Node.position = List.range' position (node :: nodes).length ↔
      node.position = position ∧
        nodes.map Node.position = List.range' (position + 1) nodes.length := by
  rw [List.map_cons, List.length_cons, List.range'_succ, List.cons.injEq]

lemma lastNests_literal_iff {value : Int64} {position : ℕ} {row : List Expr} :
    LastNests (literal value position :: row) ↔ LastNests row := by
  cases row with
  | nil => exact iff_of_true nofun nofun
  | cons next row =>
    rw [LastNests, List.dropLast_cons_cons, List.forall_mem_cons]
    exact and_iff_right rfl

lemma lastNests_operation_iff {head : Head} {operands row : List Expr} {position : ℕ} :
    LastNests (operation head operands position :: row) ↔ row = [] := by
  cases row with
  | nil => exact iff_of_true nofun rfl
  | cons next row =>
    rw [LastNests, List.dropLast_cons_cons, List.forall_mem_cons]
    exact iff_of_false (fun h => nomatch h.1) nofun

section Row
variable {position depth : ℕ} {row : List Expr}

theorem rowShaped_nil_iff : RowShaped position depth [] ↔ depth ≤ 512 := by
  constructor
  · intro h
    exact h.depth_le
  · intro h
    exact ⟨nofun, nofun, nofun, h, rfl⟩

/-- A literal takes one position and leaves the others to the rest. -/
theorem rowShaped_literal_iff {value : Int64} {start : ℕ} :
    RowShaped position depth (literal value start :: row) ↔
      start = position ∧ 0 ≤ value.toInt ∧ RowShaped (position + 1) depth row := by
  have hnodes : rowNodes (literal value start :: row) = .literal value start :: rowNodes row := by
    rw [rowNodes_cons, nodes_literal, List.singleton_append]
  constructor
  · intro h
    obtain ⟨hreadable, hlast, hinside, hdepth, hpositions⟩ := h
    rw [hnodes] at hreadable hpositions
    obtain ⟨hnode, hreadable⟩ := List.forall_mem_cons.mp hreadable
    obtain ⟨hstart, hpositions⟩ := positions_cons_iff.mp hpositions
    have hdepth' : depth + (row.map operationCount).foldr (· + ·) 0 ≤ 512 := by simpa using hdepth
    exact ⟨hstart, hnode, hreadable, lastNests_literal_iff.mp hlast,
      (List.forall_mem_cons.mp hinside).2, hdepth', hpositions⟩
  · intro h
    obtain ⟨hstart, hnode, hreadable, hlast, hinside, hdepth, hpositions⟩ := h
    refine ⟨?_, lastNests_literal_iff.mpr hlast, ?_, by simpa using hdepth, ?_⟩
    · rw [hnodes]
      exact List.forall_mem_cons.mpr ⟨hnode, hreadable⟩
    · exact List.forall_mem_cons.mpr ⟨everyOperation_literal _ _ _, hinside⟩
    · rw [hnodes]
      exact positions_cons_iff.mpr ⟨hstart, hpositions⟩

/-- An operation is the last of its row, and its operands stand one deeper. -/
theorem rowShaped_operation_iff {head : Head} {operands : List Expr} {start : ℕ} :
    RowShaped position depth (operation head operands start :: row) ↔
      row = [] ∧ start = position ∧ (Node.operation head operands.length start).Readable ∧
        RowShaped (position + 1) (depth + 1) operands := by
  have hnodes : rowNodes [operation head operands start] =
      .operation head operands.length start :: rowNodes operands := by
    rw [rowNodes_cons, nodes_operation_eq, rowNodes_nil, List.append_nil]
  have hcount : depth + ([operation head operands start].map operationCount).foldr (· + ·) 0 =
      depth + 1 + (operands.map operationCount).foldr (· + ·) 0 := by
    simp
    omega
  constructor
  · intro h
    obtain ⟨hreadable, hlast, hinside, hdepth, hpositions⟩ := h
    obtain rfl := lastNests_operation_iff.mp hlast
    rw [hnodes] at hreadable hpositions
    obtain ⟨hnode, hreadable⟩ := List.forall_mem_cons.mp hreadable
    obtain ⟨hstart, hpositions⟩ := positions_cons_iff.mp hpositions
    obtain ⟨hnests, hinner⟩ := everyOperation_operation_iff.mp (hinside _ List.mem_cons_self)
    exact ⟨rfl, hstart, hnode, hreadable, hnests, hinner, hcount ▸ hdepth, hpositions⟩
  · intro h
    obtain ⟨rfl, hstart, hnode, hreadable, hnests, hinner, hdepth, hpositions⟩ := h
    refine ⟨?_, lastNests_operation_iff.mpr rfl, ?_, hcount ▸ hdepth, ?_⟩
    · rw [hnodes]
      exact List.forall_mem_cons.mpr ⟨hnode, hreadable⟩
    · rw [List.forall_mem_singleton]
      exact everyOperation_operation_iff.mpr ⟨hnests, hinner⟩
    · rw [hnodes]
      exact positions_cons_iff.mpr ⟨hstart, hpositions⟩

/-- A row begins with a literal if a literal is its first token. -/
theorem rowNodes_standFor_literal_iff {token : String} {rest : List String}
    (htoken : Token.isLiteral token = true) :
    List.Forall₂ Node.StandsFor (rowNodes row) (token :: rest) ↔
      ∃ value start inner, row = literal value start :: inner ∧
        value.toInt = Token.decimal token ∧
          List.Forall₂ Node.StandsFor (rowNodes inner) rest := by
  constructor
  · intro h
    match row with
    | [] => cases h
    | literal value start :: inner =>
      rw [rowNodes_cons, nodes_literal] at h
      obtain ⟨⟨-, hvalue⟩, hinner⟩ := List.forall₂_cons.mp h
      exact ⟨value, start, inner, rfl, hvalue, hinner⟩
    | operation head operands start :: inner =>
      rw [rowNodes_cons, nodes_operation_eq] at h
      obtain ⟨⟨hword, -⟩, -⟩ := List.forall₂_cons.mp h
      exact absurd htoken (Bool.eq_false_iff.mp hword)
  · intro h
    obtain ⟨value, start, inner, rfl, hvalue, hinner⟩ := h
    rw [rowNodes_cons, nodes_literal]
    exact .cons ⟨htoken, hvalue⟩ hinner

/-- A row begins with an operation if a word is its first token. -/
theorem rowNodes_standFor_word_iff {token : String} {rest : List String}
    (htoken : Token.isLiteral token = false) :
    List.Forall₂ Node.StandsFor (rowNodes row) (token :: rest) ↔
      ∃ operands start others, row = operation (Head.ofWord token) operands start :: others ∧
        List.Forall₂ Node.StandsFor (rowNodes operands ++ rowNodes others) rest := by
  constructor
  · intro h
    match row with
    | [] => cases h
    | literal value start :: others =>
      rw [rowNodes_cons, nodes_literal] at h
      obtain ⟨⟨hdigits, -⟩, -⟩ := List.forall₂_cons.mp h
      exact absurd hdigits (Bool.eq_false_iff.mp htoken)
    | operation head operands start :: others =>
      rw [rowNodes_cons, nodes_operation_eq, List.cons_append] at h
      obtain ⟨⟨-, rfl⟩, hrest⟩ := List.forall₂_cons.mp h
      exact ⟨operands, start, others, rfl, hrest⟩
  · intro h
    obtain ⟨operands, start, others, rfl, hrest⟩ := h
    rw [rowNodes_cons, nodes_operation_eq, List.cons_append]
    exact .cons ⟨htoken, rfl⟩ hrest

theorem rowShaped_singleton_iff {expr : Expr} : RowShaped 0 0 [expr] ↔ expr.Shaped := by
  have hnodes : rowNodes [expr] = expr.nodes := by rw [rowNodes_cons, rowNodes_nil, List.append_nil]
  constructor
  · intro h
    obtain ⟨hreadable, -, hinside, hdepth, hpositions⟩ := h
    rw [hnodes] at hreadable hpositions
    rw [← List.range_eq_range'] at hpositions
    exact ⟨hreadable, hinside expr List.mem_cons_self, by simpa using hdepth, hpositions⟩
  · intro h
    obtain ⟨hreadable, hnests, hcount, hpositions⟩ := h
    rw [List.range_eq_range'] at hpositions
    refine ⟨by rwa [hnodes], nofun, ?_, by simpa using hcount, by rwa [hnodes]⟩
    exact List.forall_mem_singleton.mpr hnests

end Row

theorem shaped_literal_iff {value : Int64} {position : ℕ} :
    (literal value position).Shaped ↔ position = 0 ∧ 0 ≤ value.toInt := by
  rw [← rowShaped_singleton_iff, rowShaped_literal_iff, rowShaped_nil_iff,
    and_iff_left (Nat.zero_le _)]

end Expr

namespace Parsing
open PrefixArithmetic.Expr

section Steps
variable {position depth : ℕ} {token : String} {rest : List String} {row : List Expr}

lemma flatOperands_of_literal_eq_ok_iff (h : Token.isLiteral token = true) :
    flatOperands position depth (token :: rest) = .ok row ↔
      Integer64.InRange (Token.decimal token) ∧
        ∃ inner, flatOperands (position + 1) depth rest = .ok inner ∧
          Expr.literal (Token.value token) position :: inner = row := by
  rw [flatOperands, if_pos h]
  split_ifs with hrange
  · rw [map_eq_ok_iff, and_iff_right hrange]
  · constructor
    · intro h
      cases h
    · intro h
      exact absurd h.1 hrange

lemma flatOperands_of_word_eq_ok_iff (h : Token.isLiteral token = false) :
    flatOperands position depth (token :: rest) = .ok row ↔
      depth < nestingLimit ∧
        ∃ inner, flatOperands (position + 1) (depth + 1) rest = .ok inner ∧
          [Expr.operation (Head.ofWord token) inner position] = row := by
  rw [flatOperands, if_neg (Bool.eq_false_iff.mp h)]
  split_ifs with hdepth
  · constructor
    · intro h
      cases h
    · intro h
      exact absurd h.1 (Nat.not_lt.mpr hdepth)
  · rw [map_eq_ok_iff, and_iff_right (Nat.not_le.mp hdepth)]

end Steps

/-- The flat reading of tokens gives exactly the rows of this shape whose nodes stand for the
tokens. The induction is on the tokens; the first token tells what the first node of a row is. -/
theorem flatOperands_eq_ok_iff {position depth : ℕ} {tokens : List String} {row : List Expr}
    (hdepth : depth ≤ nestingLimit) :
    flatOperands position depth tokens = .ok row ↔
      RowShaped position depth row ∧ List.Forall₂ Node.StandsFor (rowNodes row) tokens := by
  induction tokens generalizing position depth row with
  | nil =>
    rw [flatOperands, List.forall₂_nil_right_iff, rowNodes_eq_nil_iff]
    constructor
    · intro h
      cases h
      exact ⟨rowShaped_nil_iff.mpr hdepth, rfl⟩
    · intro h
      obtain ⟨-, rfl⟩ := h
      rfl
  | cons token rest ih =>
    cases hliteral : Token.isLiteral token with
    | true =>
      rw [flatOperands_of_literal_eq_ok_iff hliteral, rowNodes_standFor_literal_iff hliteral]
      constructor
      · intro h
        obtain ⟨hrange, inner, hinner, rfl⟩ := h
        obtain ⟨hshaped, hstands⟩ := (ih hdepth).mp hinner
        have hvalue := Token.toInt_value hrange
        have hnonneg : 0 ≤ (Token.value token).toInt := by omega
        exact ⟨rowShaped_literal_iff.mpr ⟨rfl, hnonneg, hshaped⟩, _, _, inner, rfl, hvalue, hstands⟩
      · intro h
        obtain ⟨hshaped, value, start, inner, rfl, hvalue, hstands⟩ := h
        obtain ⟨rfl, -, hinner⟩ := rowShaped_literal_iff.mp hshaped
        have hrange : Integer64.InRange (Token.decimal token) :=
          hvalue ▸ Integer64.inRange_toInt value
        have hsame : Token.value token = value :=
          Int64.toInt_inj.mp ((Token.toInt_value hrange).trans hvalue.symm)
        exact ⟨hrange, inner, (ih hdepth).mpr ⟨hinner, hstands⟩, by rw [hsame]⟩
    | false =>
      rw [flatOperands_of_word_eq_ok_iff hliteral, rowNodes_standFor_word_iff hliteral]
      constructor
      · intro h
        obtain ⟨hlt, inner, hinner, rfl⟩ := h
        obtain ⟨hshaped, hstands⟩ := (ih hlt).mp hinner
        have hnode : (Node.operation (Head.ofWord token) inner.length position).Readable :=
          Node.readable_of_standsFor ⟨hliteral, rfl⟩
        have hrow : RowShaped position depth [.operation (Head.ofWord token) inner position] :=
          rowShaped_operation_iff.mpr ⟨rfl, rfl, hnode, hshaped⟩
        refine ⟨hrow, inner, position, [], rfl, ?_⟩
        rwa [rowNodes_nil, List.append_nil]
      · intro h
        obtain ⟨hshaped, operands, start, others, rfl, hstands⟩ := h
        obtain ⟨rfl, rfl, -, hinner⟩ := rowShaped_operation_iff.mp hshaped
        rw [rowNodes_nil, List.append_nil] at hstands
        have hlt : depth + 1 ≤ nestingLimit := (Nat.le_add_right _ _).trans hinner.depth_le
        exact ⟨hlt, operands, (ih hlt).mpr ⟨hinner, hstands⟩, rfl⟩

end Parsing

section Parse
variable {tokens : List String} {expr : Expr}

/-- Behind a word in front parsing takes all tokens. -/
theorem parse_of_word_eq_ok_iff (hfirst : tokens.head?.any Token.isLiteral = false) :
    parse tokens = .ok expr ↔
      expr.Shaped ∧ List.Forall₂ Node.StandsFor expr.nodes tokens := by
  cases tokens with
  | nil =>
    rw [parse_nil, List.forall₂_nil_right_iff]
    exact iff_of_false nofun fun h => expr.nodes_ne_nil h.2
  | cons first rest =>
    have hword : Token.isLiteral first = false := hfirst
    have hflat : parse (first :: rest) = .ok expr ↔
        Parsing.flatOperands 0 0 (first :: rest) = .ok [expr] := by
      rw [parse_of_word first rest hword, map_eq_ok_iff,
        Parsing.flatOperands_of_word_eq_ok_iff hword, and_iff_right (by decide)]
      simp only [List.cons.injEq, and_true]
    rw [hflat, Parsing.flatOperands_eq_ok_iff (Nat.zero_le _), Expr.rowShaped_singleton_iff,
      Expr.rowNodes_cons, Expr.rowNodes_nil, List.append_nil]

/-- The image of parsing: expressions of the shape that fit the tokens. -/
theorem parse_eq_ok_iff : parse tokens = .ok expr ↔ expr.Shaped ∧ expr.ReadFrom tokens := by
  cases hhead : tokens.head? with
  | none =>
    obtain rfl := List.head?_eq_none_iff.mp hhead
    rw [parse_nil, Expr.ReadFrom, List.forall₂_nil_right_iff]
    simp [Expr.nodes_ne_nil]
  | some first =>
    by_cases hliteral : Token.isLiteral first = true
    · rw [parse_of_literal_eq_ok_iff hhead hliteral]
      constructor
      · intro h
        obtain ⟨value, rfl, hvalue⟩ := h
        have hnonneg : 0 ≤ value.toInt := hvalue ▸ Int.natCast_nonneg _
        exact ⟨Expr.shaped_literal_iff.mpr ⟨rfl, hnonneg⟩,
          .inl ⟨first, value, hhead, hliteral, rfl, hvalue⟩⟩
      · intro h
        obtain ⟨hshaped, ⟨other, value, hother, -, rfl, hvalue⟩ | hstands⟩ := h
        · obtain rfl : first = other := Option.some.inj (hhead.symm.trans hother)
          exact ⟨value, rfl, hvalue⟩
        · -- the first node stands for the literal, so it is all there is
          obtain ⟨rest, rfl⟩ := List.head?_eq_some_iff.mp hhead
          cases expr with
          | literal value position =>
            obtain ⟨rfl, -⟩ := Expr.shaped_literal_iff.mp hshaped
            rw [Expr.nodes_literal] at hstands
            exact ⟨value, rfl, (List.forall₂_cons.mp hstands).1.2⟩
          | operation head operands position =>
            rw [Expr.nodes_operation] at hstands
            have hword := (List.forall₂_cons.mp hstands).1.1
            exact absurd hliteral (Bool.eq_false_iff.mp hword)
    · have hfirst : tokens.head?.any Token.isLiteral = false := by simp [hhead, hliteral]
      rw [parse_of_word_eq_ok_iff hfirst]
      refine and_congr_right fun _ => ⟨.inr, ?_⟩
      intro hread
      rcases hread with ⟨other, value, hother, hdigits, -⟩ | hstands
      · obtain rfl : first = other := Option.some.inj (hhead.symm.trans hother)
        exact absurd hdigits hliteral
      · exact hstands

end Parse

namespace Expr
variable {expr : Expr}

/-- The node for the token at an index has this index in preorder, and as its position. -/
theorem Shaped.exists_node (h : expr.Shaped) {tokens : List String}
    (hstands : List.Forall₂ Node.StandsFor expr.nodes tokens) {index : ℕ} {token : String}
    (htoken : tokens[index]? = some token) :
    ∃ node, expr.nodes[index]? = some node ∧ node.position = index ∧ node.StandsFor token := by
  obtain ⟨hlt, rfl⟩ := List.getElem?_eq_some_iff.mp htoken
  have hlt' : index < expr.nodes.length := hstands.length_eq ▸ hlt
  have hposition : (expr.nodes.map Node.position)[index]? = some index := by
    rw [h.positions, List.getElem?_range hlt']
  rw [List.getElem?_map, List.getElem?_eq_getElem hlt'] at hposition
  exact ⟨_, List.getElem?_eq_getElem hlt', Option.some.inj hposition,
    hstands.get hlt' hlt⟩

/-- The printed tokens of a parsed expression are read again as this expression. -/
theorem Shaped.parse_tokens (h : expr.Shaped) : parse expr.tokens = .ok expr := by
  refine parse_eq_ok_iff.mpr ⟨h, .inr ?_⟩
  rw [tokens, List.forall₂_map_right_iff, List.forall₂_same]
  exact fun node hnode => Node.standsFor_token (h.readable node hnode)

/-- The printed tokens are the words of the text that they make with blanks between them, if
the unknown operators are words. -/
theorem Shaped.tokenize_tokens (h : expr.Shaped)
    (hwords : ∀ name count position, .operation (.unknown name) count position ∈ expr.nodes →
      name ≠ "" ∧ ∀ c ∈ name.toList, Text.isBlank c = false) :
    tokenize (" ".intercalate expr.tokens) = expr.tokens := by
  refine tokenize_intercalate ?_
  rw [tokens, List.forall_mem_map]
  intro node hnode
  match node with
  | .literal value position =>
    exact Token.noBlank_of_isLiteral (Token.isLiteral_text (h.readable _ hnode))
  | .operation (.known op) count position => exact Token.noBlank_keyword op
  | .operation (.unknown name) count position => exact hwords name count position hnode

end Expr

/-- Parsing and printing are inverse to one another on the expressions that parsing gives. -/
theorem parse_inverse_tokens :
    (∀ (tokens : List String) (expr : Expr), parse tokens = .ok expr →
      expr.Shaped ∧
        ((∃ first value, tokens.head? = some first ∧ Token.isLiteral first = true ∧
            expr = .literal value 0 ∧ value.toInt = Token.decimal first) ∨
          expr.nodes.length = tokens.length ∧
            ∀ index token, tokens[index]? = some token → ∃ node : Node,
              expr.nodes[index]? = some node ∧ node.position = index ∧ node.StandsFor token)) ∧
    ∀ expr : Expr, expr.Shaped →
      parse expr.tokens = .ok expr ∧
        ((∀ name count position, .operation (.unknown name) count position ∈ expr.nodes →
            name ≠ "" ∧ ∀ c ∈ name.toList, Text.isBlank c = false) →
          parse (tokenize (" ".intercalate expr.tokens)) = .ok expr) := by
  constructor
  · intro tokens expr hparse
    obtain ⟨hshaped, hread⟩ := parse_eq_ok_iff.mp hparse
    refine ⟨hshaped, hread.imp_right ?_⟩
    intro hstands
    exact ⟨hstands.length_eq, fun _ _ => hshaped.exists_node hstands⟩
  · intro expr hshaped
    refine ⟨hshaped.parse_tokens, ?_⟩
    intro hwords
    rw [hshaped.tokenize_tokens hwords]
    exact hshaped.parse_tokens

/-- Printing leaves the zeros before a number away, and an unknown operator as it is. -/
theorem parse_inverse_tokens_zeros :
    ∃ expr, parse ["sum", "007", "pow", "8"] = .ok expr ∧ expr.Shaped ∧
      expr.tokens = ["sum", "7", "pow", "8"] ∧ parse expr.tokens = .ok expr ∧
      parse (tokenize "sum 7 pow 8") = .ok expr := by
  have hparse : parse ["sum", "007", "pow", "8"] = .ok (.operation (.known .sum)
      [.literal 7 1, .operation (.unknown "pow") [.literal 8 3] 2] 0) := by
    rw [parse_of_word _ _ (by decide)]
    rfl
  obtain ⟨hread, hprint⟩ := parse_inverse_tokens
  obtain ⟨hshaped, -⟩ := hread _ _ hparse
  obtain ⟨hself, htext⟩ := hprint _ hshaped
  refine ⟨_, hparse, hshaped, rfl, hself, htext ?_⟩
  intro name count position hmem
  obtain ⟨rfl, -, -⟩ : name = "pow" ∧ count = 1 ∧ position = 2 := by simpa using hmem
  exact ⟨by decide, Token.noBlank_of_any (by decide)⟩

end PrefixArithmetic
