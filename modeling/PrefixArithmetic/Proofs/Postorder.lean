import PrefixArithmetic.Proofs.Evaluation.Causes

/-!
# Postorder

A walk comes to the head of an operation after the heads of all its operands.
Listed in this order, the subtrees of an expression tell which head is at fault
first. Where heads refuse an unknown operator whatever its operands are, a walk
that succeeds has met none, and a walk that fails for one has met no other before.
-/
namespace PrefixArithmetic.Expr

mutual
/-- The subtrees of an expression, each behind the subtrees of its operands. -/
def postorder : Expr → List Expr
  | .literal value position => [.literal value position]
  | .operation head operands position =>
    postorderAll operands ++ [.operation head operands position]

def postorderAll : List Expr → List Expr
  | [] => []
  | expr :: rest => postorder expr ++ postorderAll rest
end

theorem postorderAll_eq_flatten (operands : List Expr) :
    postorderAll operands = (operands.map postorder).flatten := by
  induction operands with
  | nil => rfl
  | cons expr rest ih => rw [postorderAll, ih, List.map_cons, List.flatten_cons]

@[simp] theorem postorder_literal (value : Int64) (position : ℕ) :
    (literal value position).postorder = [literal value position] := by rw [postorder]

@[simp] theorem postorder_operation (head : Head) (operands : List Expr) (position : ℕ) :
    (operation head operands position).postorder =
      (operands.map postorder).flatten ++ [operation head operands position] := by
  rw [postorder, postorderAll_eq_flatten]

theorem mem_postorder_self (expr : Expr) : expr ∈ expr.postorder := by
  cases expr with
  | literal value position => simp
  | operation head operands position => simp

theorem mem_postorder_operation {subtree : Expr} {head : Head} {operands : List Expr}
    {position : ℕ} :
    subtree ∈ (operation head operands position).postorder ↔
      (∃ operand ∈ operands, subtree ∈ operand.postorder) ∨
        subtree = operation head operands position := by
  simp

/-- The operands of every operation in an expression, of the whole and of its parts, are so. -/
def EveryOperation (p : List Expr → Prop) (expr : Expr) : Prop :=
  ∀ head operands position, operation head operands position ∈ expr.postorder → p operands

@[simp] theorem everyOperation_literal (p : List Expr → Prop) (value : Int64) (position : ℕ) :
    (literal value position).EveryOperation p := by simp [EveryOperation]

theorem everyOperation_operation_iff {p : List Expr → Prop} {head : Head} {operands : List Expr}
    {position : ℕ} :
    (operation head operands position).EveryOperation p ↔
      p operands ∧ ∀ operand ∈ operands, operand.EveryOperation p := by
  simp only [EveryOperation, postorder_operation, List.mem_append, List.mem_flatten, List.mem_map,
    List.mem_singleton]
  constructor
  · intro h
    refine ⟨h head operands position (.inr rfl), ?_⟩
    intro operand hmem head' operands' position' hinner
    exact h head' operands' position' (.inl ⟨_, ⟨operand, hmem, rfl⟩, hinner⟩)
  · intro h head' operands' position' hmem
    obtain ⟨hself, hoperands⟩ := h
    rcases hmem with ⟨_, ⟨operand, hoperand, rfl⟩, hinner⟩ | heq
    · exact hoperands operand hoperand head' operands' position' hinner
    · cases heq
      exact hself

/-- The name and the position of an operation whose operator is unknown. -/
def unknown? : Expr → Option (String × ℕ)
  | .operation (.unknown name) _ position => some (name, position)
  | _ => none

/-- The names and positions of the unknown operators, in postorder. -/
def unknowns (expr : Expr) : List (String × ℕ) := expr.postorder.filterMap unknown?

@[simp] theorem unknowns_literal (value : Int64) (position : ℕ) :
    (literal value position).unknowns = [] := by simp [unknowns, unknown?]

@[simp] theorem unknowns_operation (head : Head) (operands : List Expr) (position : ℕ) :
    (operation head operands position).unknowns =
      (operands.map unknowns).flatten ++ (operation head operands position).unknown?.toList := by
  have hinner : (operands.map postorder).flatten.filterMap unknown? =
      (operands.map unknowns).flatten := by
    rw [List.filterMap_flatten, List.map_map]
    rfl
  rw [unknowns, postorder_operation, List.filterMap_append, hinner, List.filterMap_cons]
  cases unknown? (operation head operands position) <;> rfl

theorem unknown?_eq_some_iff {expr : Expr} {name : String} {position : ℕ} :
    expr.unknown? = some (name, position) ↔
      ∃ operands, expr = operation (.unknown name) operands position := by
  unfold unknown?
  split <;> simp_all

theorem unknowns_ne_nil_iff {expr : Expr} :
    expr.unknowns ≠ [] ↔
      ∃ name operands position, operation (.unknown name) operands position ∈ expr.postorder := by
  constructor
  · intro h
    obtain ⟨⟨name, position⟩, hmem⟩ := List.exists_mem_of_ne_nil _ h
    obtain ⟨subtree, hsubtree, hunknown⟩ := List.mem_filterMap.mp hmem
    obtain ⟨operands, rfl⟩ := unknown?_eq_some_iff.mp hunknown
    exact ⟨name, operands, position, hsubtree⟩
  · intro h
    obtain ⟨name, operands, position, hmem⟩ := h
    exact List.ne_nil_of_mem (List.mem_filterMap.mpr ⟨_, hmem, rfl⟩)

/-- Heads refuse the unknown operators, with a cause of its own for each name, and the known
ones for other causes only. -/
structure RefusesUnknown {Cause α : Type} (ofHead : Head → List α → Except Cause α)
    (refusal : String → Cause) : Prop where
  unknown : ∀ name found, ofHead (.unknown name) found = .error (refusal name)
  known : ∀ op found name, ofHead (.known op) found ≠ .error (refusal name)
  injective : Function.Injective refusal

section Walk
variable {Cause α : Type} {ofLiteral : Int64 → α} {ofHead : Head → List α → Except Cause α}
  {refusal : String → Cause}

/-- Where a walk succeeds, it has results for all subtrees. -/
theorem exists_walk_of_mem_postorder {expr subtree : Expr} {a : α}
    (h : walk ofLiteral ofHead expr = .ok a) (hmem : subtree ∈ expr.postorder) :
    ∃ b, walk ofLiteral ofHead subtree = .ok b := by
  induction expr generalizing a with
  | literal value position =>
    rw [postorder_literal, List.mem_singleton] at hmem
    exact ⟨a, hmem ▸ h⟩
  | operation head operands position ih =>
    rcases mem_postorder_operation.mp hmem with ⟨operand, hoperand, hinner⟩ | hself
    · obtain ⟨found, hfound, -⟩ := (walk_operation_eq_ok_iff _ _).mp h
      obtain ⟨b, -, hb⟩ := exists_mem_of_forall₂ hfound hoperand
      exact ih operand hoperand hb hinner
    · exact ⟨a, hself ▸ h⟩

lemma flatten_unknowns_of_forall {row : List Expr} (h : ∀ operand ∈ row, operand.unknowns = []) :
    (row.map unknowns).flatten = [] := by
  simpa using h

/-- A walk that succeeds meets no unknown operator. -/
theorem unknowns_of_walk_eq_ok (hrefuses : RefusesUnknown ofHead refusal) {expr : Expr} {a : α}
    (h : walk ofLiteral ofHead expr = .ok a) : expr.unknowns = [] := by
  induction expr generalizing a with
  | literal value position => exact unknowns_literal value position
  | operation head operands position ih =>
    obtain ⟨found, hfound, hhead⟩ := (walk_operation_eq_ok_iff _ _).mp h
    have hoperands : ∀ operand ∈ operands, operand.unknowns = [] := by
      intro operand hmem
      obtain ⟨b, -, hb⟩ := exists_mem_of_forall₂ hfound hmem
      exact ih operand hmem hb
    cases head with
    | unknown name =>
      rw [hrefuses.unknown] at hhead
      cases hhead
    | known op =>
      rw [unknowns_operation, flatten_unknowns_of_forall hoperands]
      rfl

/-- A walk that fails for an unknown operator fails for the first of them. -/
theorem unknowns_of_walk_eq_error (hrefuses : RefusesUnknown ofHead refusal) {expr : Expr}
    {name : String} {position : ℕ}
    (h : walk ofLiteral ofHead expr = .error ⟨position, refusal name⟩) :
    expr.unknowns.head? = some (name, position) := by
  induction expr with
  | literal value position => rw [walk_literal] at h; cases h
  | operation head operands start ih =>
    rw [unknowns_operation]
    rcases (walk_operation_eq_error_iff _ _).mp h with
      ⟨before, operand, after, rfl, hbefore, hoperand⟩ | ⟨found, hfound, hhead, hposition⟩
    · have hnone : (before.map unknowns).flatten = [] :=
        flatten_unknowns_of_forall fun other hother =>
          (hbefore other hother).elim fun _ => unknowns_of_walk_eq_ok hrefuses
      have hfirst := ih operand (by simp) hoperand
      simp [hnone, List.head?_append, hfirst]
    · have hnone : (operands.map unknowns).flatten = [] :=
        flatten_unknowns_of_forall fun operand hmem =>
          (exists_mem_of_forall₂ hfound hmem).elim fun _ hb =>
            unknowns_of_walk_eq_ok hrefuses hb.2
      cases head with
      | known op => exact absurd hhead (hrefuses.known op found name)
      | unknown other =>
        rw [hrefuses.unknown] at hhead
        obtain rfl : position = start := hposition
        obtain rfl : other = name := hrefuses.injective (Except.error.inj hhead)
        rw [hnone]
        rfl

section Code
variable {ofHead : Head → List α → Except CodeCause α}

/-- Where nothing else is refused, a walk succeeds exactly if there is no unknown operator. -/
theorem exists_walk_eq_ok_iff (hrefuses : RefusesUnknown ofHead .unknownOperator) {expr : Expr} :
    (∃ a, walk ofLiteral ofHead expr = .ok a) ↔ expr.unknowns = [] := by
  constructor
  · intro h
    obtain ⟨a, ha⟩ := h
    exact unknowns_of_walk_eq_ok hrefuses ha
  · intro hnone
    cases h : walk ofLiteral ofHead expr with
    | ok a => exact ⟨a, rfl⟩
    | error fault =>
      obtain ⟨position, ⟨name⟩⟩ := fault
      have hfirst := unknowns_of_walk_eq_error hrefuses h
      rw [hnone] at hfirst
      cases hfirst

/-- Where nothing else is refused, the first unknown operator is what a walk fails for. -/
theorem walk_eq_error_iff (hrefuses : RefusesUnknown ofHead .unknownOperator) {expr : Expr}
    {name : String} {position : ℕ} :
    walk ofLiteral ofHead expr = .error ⟨position, .unknownOperator name⟩ ↔
      expr.unknowns.head? = some (name, position) := by
  constructor
  · exact unknowns_of_walk_eq_error hrefuses
  · intro hfirst
    cases h : walk ofLiteral ofHead expr with
    | ok a =>
      rw [unknowns_of_walk_eq_ok hrefuses h] at hfirst
      cases hfirst
    | error fault =>
      obtain ⟨found, ⟨other⟩⟩ := fault
      rw [unknowns_of_walk_eq_error hrefuses h] at hfirst
      cases hfirst
      rfl

end Code

end Walk

theorem refusesUnknown_apply : RefusesUnknown Head.apply .unknownOperator where
  unknown _ _ := rfl
  known := Operator.fold_ne_unknownOperator
  injective _ _ := EvalCause.unknownOperator.inj

theorem refusesUnknown_join : RefusesUnknown Head.join .unknownOperator where
  unknown _ _ := rfl
  known _ _ _ := nofun
  injective _ _ := CodeCause.unknownOperator.inj

end PrefixArithmetic.Expr
