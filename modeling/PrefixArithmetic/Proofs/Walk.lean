import PrefixArithmetic.Code
import PrefixArithmetic.Evaluation
import Mathlib.Tactic

/-!
# Walks over expressions

Evaluation and coding visit an expression in the same way: the operands of an
operation from left to right, then its head, and the first fault ends the walk.
What is said here of walks holds for both.
-/
namespace PrefixArithmetic

section Results
variable {ε α β : Type}

theorem bind_eq_ok_iff {found : Except ε α} {next : α → Except ε β} {b : β} :
    found.bind next = .ok b ↔ ∃ a, found = .ok a ∧ next a = .ok b := by
  cases found with
  | error e => simp [Except.bind]
  | ok a => simp [Except.bind]

theorem bind_eq_error_iff {found : Except ε α} {next : α → Except ε β} {e : ε} :
    found.bind next = .error e ↔ found = .error e ∨ ∃ a, found = .ok a ∧ next a = .error e := by
  cases found with
  | error e => simp [Except.bind]
  | ok a => simp [Except.bind]

theorem map_eq_ok_iff {found : Except ε α} {f : α → β} {b : β} :
    found.map f = .ok b ↔ ∃ a, found = .ok a ∧ f a = b := by
  cases found with
  | error e => simp [Except.map]
  | ok a => simp [Except.map]

theorem map_eq_error_iff {found : Except ε α} {f : α → β} {e : ε} :
    found.map f = .error e ↔ found = .error e := by
  cases found <;> simp [Except.map]

/-- All results of a row are right if each of them is. -/
theorem mapM_eq_ok_iff {f : α → Except ε β} {row : List α} {results : List β} :
    row.mapM f = .ok results ↔ List.Forall₂ (fun a b => f a = .ok b) row results := by
  induction row generalizing results with
  | nil => simp [pure, Except.pure, eq_comm]
  | cons a row ih =>
    rw [List.mapM_cons, List.forall₂_cons_left_iff]
    change ((f a).bind fun b => (row.mapM f).bind fun rest => .ok (b :: rest)) = _ ↔ _
    simp only [bind_eq_ok_iff, ih, Except.ok.injEq]
    exact ⟨fun ⟨b, hb, rest, hrest, h⟩ => ⟨b, rest, hb, hrest, h.symm⟩,
      fun ⟨b, rest, hb, hrest, h⟩ => ⟨b, hb, rest, hrest, h.symm⟩⟩

/-- The results of a row fail where the first of them fails. -/
theorem mapM_eq_error_iff {f : α → Except ε β} {row : List α} {e : ε} :
    row.mapM f = .error e ↔
      ∃ before a after, row = before ++ a :: after ∧ (∀ b ∈ before, ∃ result, f b = .ok result) ∧
        f a = .error e := by
  induction row with
  | nil => simp [pure, Except.pure]
  | cons a row ih =>
    rw [List.mapM_cons]
    change ((f a).bind fun b => (row.mapM f).bind fun rest => .ok (b :: rest)) = _ ↔ _
    simp only [bind_eq_error_iff, ih, reduceCtorEq, and_false, exists_false, or_false]
    constructor
    · intro h
      rcases h with h | ⟨result, hresult, before, b, after, rfl, hbefore, hb⟩
      · exact ⟨[], a, row, rfl, nofun, h⟩
      · exact ⟨a :: before, b, after, rfl, List.forall_mem_cons.mpr ⟨⟨result, hresult⟩, hbefore⟩, hb⟩
    · intro h
      obtain ⟨before, b, after, hrow, hbefore, hb⟩ := h
      cases before with
      | nil =>
        cases hrow
        exact .inl hb
      | cons c before =>
        cases hrow
        obtain ⟨⟨result, hresult⟩, hbefore⟩ := List.forall_mem_cons.mp hbefore
        exact .inr ⟨result, hresult, before, b, after, rfl, hbefore, hb⟩

theorem mapM_eq_some_iff {f : α → Option β} {row : List α} {results : List β} :
    row.mapM f = some results ↔ List.Forall₂ (fun a b => f a = some b) row results := by
  induction row generalizing results with
  | nil => simp [eq_comm]
  | cons a row ih =>
    simp only [List.mapM_cons, Option.bind_eq_bind, Option.bind_eq_some_iff,
      Option.pure_def, Option.some.injEq, List.forall₂_cons_left_iff, ih]
    exact ⟨fun ⟨b, hb, rest, hrest, h⟩ => ⟨b, rest, hb, hrest, h.symm⟩,
      fun ⟨b, rest, hb, hrest, h⟩ => ⟨b, hb, rest, hrest, h.symm⟩⟩

theorem mapM_singleton (f : α → Except ε β) (a : α) : [a].mapM f = (f a).map ([·]) := by
  rw [List.mapM_cons, List.mapM_nil]
  cases f a <;> rfl

lemma forall₂_imp_of_mem {R S : α → β → Prop} {row : List α} {results : List β}
    (h : List.Forall₂ R row results) (himp : ∀ a ∈ row, ∀ b, R a b → S a b) :
    List.Forall₂ S row results :=
  ((List.forall₂_and_left row results).mpr ⟨himp, h⟩).imp fun _ b hab => hab.1 b hab.2

lemma exists_mem_of_forall₂ {R : α → β → Prop} {row : List α} {results : List β}
    (h : List.Forall₂ R row results) {a : α} (ha : a ∈ row) : ∃ b ∈ results, R a b := by
  induction h with
  | nil => cases ha
  | cons hab _ ih =>
    rcases List.mem_cons.mp ha with rfl | ha
    · exact ⟨_, List.mem_cons_self, hab⟩
    · obtain ⟨b, hb, hr⟩ := ih ha
      exact ⟨b, List.mem_cons_of_mem _ hb, hr⟩

/-- A row of results that are each turned into something else. -/
theorem mapM_map_result {γ : Type} {f : α → Except ε β} {g : α → Except ε γ} {h : β → γ}
    {row : List α} (hrow : ∀ a ∈ row, g a = (f a).map h) :
    row.mapM g = (row.mapM f).map (List.map h) := by
  induction row with
  | nil => rfl
  | cons a row ih =>
    have hrest := ih fun b hb => hrow b (List.mem_cons_of_mem _ hb)
    rw [List.mapM_cons, List.mapM_cons, hrow a List.mem_cons_self, hrest]
    cases f a with
    | error e => rfl
    | ok b => cases row.mapM f <;> rfl

/-- A row whose errors are each turned into something else. -/
theorem mapM_mapError {ε' : Type} {f : α → Except ε β} {g : α → Except ε' β} {h : ε → ε'}
    {row : List α} (hrow : ∀ a ∈ row, g a = (f a).mapError h) :
    row.mapM g = (row.mapM f).mapError h := by
  induction row with
  | nil => rfl
  | cons a row ih =>
    have hrest := ih fun b hb => hrow b (List.mem_cons_of_mem _ hb)
    rw [List.mapM_cons, List.mapM_cons, hrow a List.mem_cons_self, hrest]
    cases f a with
    | error e => rfl
    | ok b => cases row.mapM f <;> rfl

theorem located_eq_ok_iff {position : ℕ} {found : Except ε α} {a : α} :
    located position found = .ok a ↔ found = .ok a := by
  cases found <;> simp

theorem located_eq_error_iff {position : ℕ} {found : Except ε α} {fault : Fault ε} :
    located position found = .error fault ↔
      found = .error fault.cause ∧ fault.position = position := by
  cases found with
  | error cause =>
    rw [located_error, Except.error.injEq, Except.error.injEq]
    constructor
    · intro h
      rw [← h]
      exact ⟨rfl, rfl⟩
    · intro h
      obtain ⟨rfl, rfl⟩ := h
      rfl
  | ok a => simp

theorem located_map (position : ℕ) (f : α → β) (found : Except ε α) :
    located position (found.map f) = (located position found).map f := by
  cases found <;> rfl

/-- A fault that is reported somewhere else. -/
def Fault.mapPosition (f : ℕ → ℕ) (fault : Fault ε) : Fault ε := ⟨f fault.position, fault.cause⟩

theorem located_mapPosition (f : ℕ → ℕ) (position : ℕ) (found : Except ε α) :
    located (f position) found = (located position found).mapError (Fault.mapPosition f) := by
  cases found <;> rfl

end Results

namespace Expr

section Walk
variable {Cause α β : Type}

/-- One result for literals, and for an operation what its head makes of the results of its
operands; a cause is located at the operation. -/
def walk (ofLiteral : Int64 → α) (ofHead : Head → List α → Except Cause α) :
    Expr → Except (Fault Cause) α :=
  fold (fun value _ => .ok (ofLiteral value)) fun head results position =>
    (results.mapM id).bind fun found => located position (ofHead head found)

theorem evaluate_eq_walk : evaluate = walk .integer Head.apply := rfl

theorem code_eq_walk : code = walk Integer64.text Head.join := rfl

variable (ofLiteral : Int64 → α) (ofHead : Head → List α → Except Cause α)

@[simp] theorem walk_literal (value : Int64) (position : ℕ) :
    walk ofLiteral ofHead (literal value position) = .ok (ofLiteral value) := by simp [walk]

@[simp] theorem walk_operation (head : Head) (operands : List Expr) (position : ℕ) :
    walk ofLiteral ofHead (operation head operands position) =
      (operands.mapM (walk ofLiteral ofHead)).bind fun found =>
        located position (ofHead head found) := by
  rw [walk, fold_operation, List.mapM_map]
  rfl

/-- An operation has a result exactly if its operands have results that its head accepts. -/
theorem walk_operation_eq_ok_iff {head : Head} {operands : List Expr} {position : ℕ} {a : α} :
    walk ofLiteral ofHead (operation head operands position) = .ok a ↔
      ∃ found, List.Forall₂ (fun operand b => walk ofLiteral ofHead operand = .ok b)
        operands found ∧ ofHead head found = .ok a := by
  rw [walk_operation, bind_eq_ok_iff]
  simp only [mapM_eq_ok_iff, located_eq_ok_iff]

/-- An operation fails with the fault of its first operand that fails, or else with what its head
has against the results of the operands. -/
theorem walk_operation_eq_error_iff {head : Head} {operands : List Expr} {position : ℕ}
    {fault : Fault Cause} :
    walk ofLiteral ofHead (operation head operands position) = .error fault ↔
      (∃ before operand after, operands = before ++ operand :: after ∧
        (∀ other ∈ before, ∃ a, walk ofLiteral ofHead other = .ok a) ∧
        walk ofLiteral ofHead operand = .error fault) ∨
      ∃ found, List.Forall₂ (fun operand b => walk ofLiteral ofHead operand = .ok b)
        operands found ∧ ofHead head found = .error fault.cause ∧ fault.position = position := by
  rw [walk_operation, bind_eq_error_iff, mapM_eq_error_iff]
  simp only [mapM_eq_ok_iff, located_eq_error_iff]

/-- Results may be turned into something else after the walk or at each step of it. -/
theorem walk_map (f : α → β) {ofHead' : Head → List β → Except Cause β}
    (hhead : ∀ head found, ofHead' head (found.map f) = (ofHead head found).map f)
    (expr : Expr) :
    walk (fun value => f (ofLiteral value)) ofHead' expr =
      (walk ofLiteral ofHead expr).map f := by
  induction expr with
  | literal value position => simp only [walk_literal]; rfl
  | operation head operands position ih =>
    rw [walk_operation, walk_operation, mapM_map_result ih]
    cases operands.mapM (walk ofLiteral ofHead) with
    | error fault => rfl
    | ok found =>
      change located position (ofHead' head (found.map f)) = _
      rw [hhead, located_map]
      rfl

end Walk

end Expr

end PrefixArithmetic
