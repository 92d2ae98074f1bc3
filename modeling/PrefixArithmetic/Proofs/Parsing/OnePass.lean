import PrefixArithmetic.Proofs.Parsing.Flat

/-!
# Parsing in one pass

What parsing gives can be said of the tokens by their indices. A token is at
fault by itself if it is a literal of more than 64 bits, and by the number of
words before it if it is a word. The least index at fault is reported. If there
is none, the operands of a word are the literals up to the next word and then
the operation of that word. A literal in front stands alone.
-/
namespace PrefixArithmetic

namespace Parsing

/-- The number of words among the tokens before an index. -/
def wordsBefore (tokens : List String) (index : ℕ) : ℕ :=
  (tokens.take index).countP (!Token.isLiteral ·)

/-- What is wrong with the token at an index, when all tokens stand inside `depth` operations. -/
def faultAt? (depth : ℕ) (tokens : List String) (index : ℕ) : Option (Fault ParseCause) :=
  tokens[index]?.bind fun token =>
    if Token.isLiteral token then
      if Integer64.InRange (Token.decimal token) then none
      else some ⟨index, .literalTooLarge token⟩
    else if 512 ≤ depth + wordsBefore tokens index then
      some ⟨index, .nestingTooDeep 512⟩
    else none

/-- What is wrong at the least index where something is. -/
def firstFault? (depth : ℕ) (tokens : List String) : Option (Fault ParseCause) :=
  (List.range tokens.length).findSome? (faultAt? depth tokens)

mutual
/-- The operation of the word at an index: its operands start at the next index. -/
def operationAt (tokens : List String) (index : ℕ) (h : index < tokens.length) : Expr :=
  .operation (Head.ofWord tokens[index]) (operandsAt tokens (index + 1)) index
termination_by 2 * (tokens.length - index)

/-- The literals from an index up to the next word, and then the operation of that word. -/
def operandsAt (tokens : List String) (start : ℕ) : List Expr :=
  let literals := (tokens.drop start).takeWhile Token.isLiteral
  let next := start + literals.length
  (literals.mapIdx fun offset token => .literal (Token.value token) (start + offset)) ++
    if h : next < tokens.length then [operationAt tokens next h] else []
termination_by 2 * (tokens.length - start) + 1
end

/-- The reference for parsing: the least fault, or else the tree of all tokens. -/
def onePass : List String → Except (Fault ParseCause) Expr
  | [] => .error ⟨0, .endOfInput⟩
  | first :: rest =>
    if Token.isLiteral first then
      if Integer64.InRange (Token.decimal first) then .ok (.literal (Token.value first) 0)
      else .error ⟨0, .literalTooLarge first⟩
    else
      match firstFault? 0 (first :: rest) with
      | some fault => .error fault
      | none => .ok (operationAt (first :: rest) 0 (Nat.zero_lt_succ _))

section Indices
variable {tokens : List String} {index : ℕ}

theorem wordsBefore_succ_of_literal (h : index < tokens.length)
    (hliteral : Token.isLiteral tokens[index] = true) :
    wordsBefore tokens (index + 1) = wordsBefore tokens index := by
  rw [wordsBefore, List.take_add_one, List.getElem?_eq_getElem h, List.countP_append]
  simp [wordsBefore, hliteral]

theorem wordsBefore_succ_of_word (h : index < tokens.length)
    (hword : Token.isLiteral tokens[index] = false) :
    wordsBefore tokens (index + 1) = wordsBefore tokens index + 1 := by
  rw [wordsBefore, List.take_add_one, List.getElem?_eq_getElem h, List.countP_append]
  simp [wordsBefore, hword]

theorem operandsAt_of_length_le (h : tokens.length ≤ index) : operandsAt tokens index = [] := by
  rw [operandsAt]
  simp [List.drop_eq_nil_of_le h, Nat.not_lt.mpr h]

/-- A literal is one operand, and the others start behind it. -/
theorem operandsAt_of_literal (h : index < tokens.length)
    (hliteral : Token.isLiteral tokens[index] = true) :
    operandsAt tokens index =
      .literal (Token.value tokens[index]) index :: operandsAt tokens (index + 1) := by
  rw [operandsAt, operandsAt, List.drop_eq_getElem_cons h]
  simp only [List.takeWhile_cons_of_pos hliteral, List.mapIdx_cons, List.length_cons,
    List.cons_append, Nat.add_zero, Nat.add_right_comm, Nat.add_assoc, Nat.add_comm 1]

/-- A word ends the operands with its operation. -/
theorem operandsAt_of_word (h : index < tokens.length)
    (hword : Token.isLiteral tokens[index] = false) :
    operandsAt tokens index = [operationAt tokens index h] := by
  have hnone : (tokens.drop index).takeWhile Token.isLiteral = [] := by
    rw [List.drop_eq_getElem_cons h, List.takeWhile_cons_of_neg (by simp [hword])]
  rw [operandsAt]
  simp only [hnone, List.mapIdx_nil, List.length_nil, List.nil_append, Nat.add_zero, dif_pos h]

theorem faultAt?_of_lt (depth : ℕ) (h : index < tokens.length) :
    faultAt? depth tokens index =
      if Token.isLiteral tokens[index] then
        if Integer64.InRange (Token.decimal tokens[index]) then none
        else some ⟨index, .literalTooLarge tokens[index]⟩
      else if nestingLimit ≤ depth + wordsBefore tokens index then
        some ⟨index, .nestingTooDeep nestingLimit⟩
      else none := by
  rw [faultAt?, List.getElem?_eq_getElem h, Option.bind_some]
  rfl

theorem faultAt?_eq_some {depth : ℕ} {fault : Fault ParseCause}
    (h : faultAt? depth tokens index = some fault) :
    fault.position = index ∧ fault.cause ≠ .endOfInput := by
  obtain ⟨token, -, hfault⟩ := Option.bind_eq_some_iff.mp h
  split_ifs at hfault <;> cases hfault <;> exact ⟨rfl, nofun⟩

end Indices

/-- The first fault is one of its own token, and no token before it is at fault. -/
theorem firstFault?_eq_some {depth : ℕ} {tokens : List String} {fault : Fault ParseCause}
    (h : firstFault? depth tokens = some fault) :
    faultAt? depth tokens fault.position = some fault ∧
      ∀ index < fault.position, faultAt? depth tokens index = none := by
  obtain ⟨before, index, after, hrange, hfault, hnone⟩ := List.findSome?_eq_some_iff.mp h
  have hlength : before.length < tokens.length := by
    have := congrArg List.length hrange
    simp only [List.length_range, List.length_append, List.length_cons] at this
    omega
  have hindex : index = before.length := by
    have := congrArg (·[before.length]?) hrange
    simpa [hlength] using this.symm
  have hbefore : before = List.range before.length := by
    have := congrArg (List.take before.length) hrange
    simpa [List.take_range, Nat.min_eq_left hlength.le] using this.symm
  obtain ⟨rfl, -⟩ := faultAt?_eq_some hfault
  refine ⟨hfault, fun earlier hlt => hnone earlier ?_⟩
  rw [hbefore, ← hindex]
  exact List.mem_range.mpr hlt

/-- A fault if there is one, and otherwise what was read. -/
def outcomeOf {α : Type} (found : α) : Option (Fault ParseCause) → Except (Fault ParseCause) α
  | some fault => .error fault
  | none => .ok found

@[simp] theorem outcomeOf_map {α β : Type} (f : α → β) (found : α)
    (fault? : Option (Fault ParseCause)) :
    (outcomeOf found fault?).map f = outcomeOf (f found) fault? := by
  cases fault? <;> rfl

/-- The flat reading from an index on meets the faults of the indices from there on. The
counter of the flat reading is the depth at the start and the words before the index. -/
theorem flatOperands_drop (depth : ℕ) (tokens : List String) (count index : ℕ)
    (h : index + count = tokens.length) :
    flatOperands index (depth + wordsBefore tokens index) (tokens.drop index) =
      outcomeOf (operandsAt tokens index)
        ((List.range' index count).findSome? (faultAt? depth tokens)) := by
  induction count generalizing index with
  | zero =>
    have hend : tokens.length ≤ index := by omega
    rw [List.drop_eq_nil_of_le hend, operandsAt_of_length_le hend]
    rfl
  | succ count ih =>
    have hlt : index < tokens.length := by omega
    have hnext := ih (index + 1) (by omega)
    rw [List.drop_eq_getElem_cons hlt, flatOperands, List.range'_succ, List.findSome?_cons,
      faultAt?_of_lt depth hlt]
    by_cases hliteral : Token.isLiteral tokens[index] = true
    · rw [wordsBefore_succ_of_literal hlt hliteral] at hnext
      rw [if_pos hliteral, if_pos hliteral, operandsAt_of_literal hlt hliteral, hnext,
        outcomeOf_map]
      split_ifs <;> rfl
    · have hword : Token.isLiteral tokens[index] = false := Bool.eq_false_iff.mpr hliteral
      rw [wordsBefore_succ_of_word hlt hword, ← Nat.add_assoc] at hnext
      rw [if_neg hliteral, if_neg hliteral, operandsAt_of_word hlt hword, hnext, outcomeOf_map,
        operationAt]
      split_ifs <;> rfl

/-- Behind a word in front the flat reading starts inside one operation. -/
theorem firstFault?_of_word {first : String} (rest : List String)
    (hword : Token.isLiteral first = false) :
    firstFault? 0 (first :: rest) =
      (List.range' 1 rest.length).findSome? (faultAt? 0 (first :: rest)) := by
  have hfirst : faultAt? 0 (first :: rest) 0 = none := by
    simp [faultAt?, hword, wordsBefore]
  rw [firstFault?, List.range_eq_range', List.length_cons, List.range'_succ, List.findSome?_cons,
    hfirst]

theorem onePass_of_word {first : String} (rest : List String)
    (hword : Token.isLiteral first = false) :
    onePass (first :: rest) = (flatOperands 1 1 rest).map
      (.operation (Head.ofWord first) · 0) := by
  have hflat := flatOperands_drop 0 (first :: rest) rest.length 1 (by simp [Nat.add_comm])
  have hwords : 0 + wordsBefore (first :: rest) 1 = 1 := by simp [wordsBefore, hword]
  rw [hwords, List.drop_one, List.tail_cons, ← firstFault?_of_word rest hword] at hflat
  rw [hflat, outcomeOf_map, onePass, hword, operationAt]
  cases firstFault? 0 (first :: rest) <;> rfl

theorem onePass_ne_endOfInput {first : String} (rest : List String) (position : ℕ) :
    onePass (first :: rest) ≠ .error ⟨position, .endOfInput⟩ := by
  intro h
  rw [onePass] at h
  split_ifs at h
  · cases h
  · cases hfault : firstFault? 0 (first :: rest) with
    | none => rw [hfault] at h; cases h
    | some fault =>
      rw [hfault] at h
      cases h
      obtain ⟨hat, -⟩ := firstFault?_eq_some hfault
      exact (faultAt?_eq_some hat).2 rfl

end Parsing

/-- Parsing is the one pass over the tokens, and only no tokens at all end too early. -/
theorem parse_eq_onePass (tokens : List String) :
    parse tokens = Parsing.onePass tokens ∧
      ((∃ position, parse tokens = .error ⟨position, .endOfInput⟩) ↔ tokens = []) := by
  cases tokens with
  | nil => exact ⟨parse_nil, fun _ => rfl, fun _ => ⟨0, parse_nil⟩⟩
  | cons first rest =>
    have heq : parse (first :: rest) = Parsing.onePass (first :: rest) := by
      by_cases hliteral : Token.isLiteral first = true
      · rw [parse_of_literal first rest hliteral, Parsing.onePass, if_pos hliteral]
      · have hword : Token.isLiteral first = false := Bool.eq_false_iff.mpr hliteral
        rw [parse_of_word first rest hword, Parsing.onePass_of_word rest hword]
    refine ⟨heq, ?_, nofun⟩
    intro h
    obtain ⟨position, hend⟩ := h
    rw [heq] at hend
    exact absurd hend (Parsing.onePass_ne_endOfInput rest position)

end PrefixArithmetic
