import PrefixArithmetic.Proofs.Postorder

/-!
# The first fault

A walk fails at the first operation in postorder that fails: all operations before
it have results, and so have its operands, but its head refuses them. What comes
later in postorder is not looked at. So the operations that the failing one lies in
may have other heads, and other operands behind the way down to it.
-/
namespace PrefixArithmetic.Expr

/-- An operation with one of its operands left open. -/
structure Frame where
  head : Head
  left : List Expr
  right : List Expr
  position : ℕ

def Frame.plug (frame : Frame) (expr : Expr) : Expr :=
  operation frame.head (frame.left ++ expr :: frame.right) frame.position

/-- The expression with a subtree at the end of a path, which leads through open operations from
the outermost to the innermost. -/
def plug (path : List Frame) (expr : Expr) : Expr := path.foldr Frame.plug expr

@[simp] theorem plug_cons (frame : Frame) (path : List Frame) (expr : Expr) :
    plug (frame :: path) expr = frame.plug (plug path expr) := rfl

/-- The subtrees are what is at the end of some path. -/
theorem mem_postorder_iff {subtree expr : Expr} :
    subtree ∈ expr.postorder ↔ ∃ path, plug path subtree = expr := by
  constructor
  · intro hmem
    induction expr with
    | literal value position =>
      rw [postorder_literal, List.mem_singleton] at hmem
      exact ⟨[], hmem⟩
    | operation head operands position ih =>
      rcases mem_postorder_operation.mp hmem with ⟨operand, hoperand, hinner⟩ | hself
      · obtain ⟨path, hpath⟩ := ih operand hoperand hinner
        obtain ⟨left, right, hoperands⟩ := List.append_of_mem hoperand
        refine ⟨⟨head, left, right, position⟩ :: path, ?_⟩
        rw [plug_cons, hpath, Frame.plug, hoperands]
      · exact ⟨[], hself⟩
  · intro h
    obtain ⟨path, rfl⟩ := h
    induction path with
    | nil => exact mem_postorder_self subtree
    | cons frame path ih =>
      rw [plug_cons, Frame.plug, mem_postorder_operation]
      exact .inl ⟨plug path subtree, by simp, ih⟩

/-- The operands of an operation have results that its head refuses, with this cause. -/
def Refuses {Cause α : Type} (run : Expr → Except (Fault Cause) α)
    (ofHead : Head → List α → Except Cause α) (head : Head) (operands : List Expr)
    (cause : Cause) : Prop :=
  ∃ found, List.Forall₂ (fun operand b => run operand = .ok b) operands found ∧
    ofHead head found = .error cause

/-- All operations among the subtrees have results. -/
def Settled {Cause α : Type} (run : Expr → Except (Fault Cause) α) (subtrees : List Expr) : Prop :=
  ∀ head operands position, operation head operands position ∈ subtrees →
    ∃ b, run (operation head operands position) = .ok b

/-- The operation that stands where the fault is refuses its operands, and all operations before
it in postorder have results. -/
def RefusesFirst {Cause α : Type} (run : Expr → Except (Fault Cause) α)
    (ofHead : Head → List α → Except Cause α) (expr : Expr) (head : Head) (operands : List Expr)
    (fault : Fault Cause) : Prop :=
  Refuses run ofHead head operands fault.cause ∧
    ∃ before after, expr.postorder = before ++ operation head operands fault.position :: after ∧
      Settled run before

section Walk
variable {Cause α : Type} {ofLiteral : Int64 → α} {ofHead : Head → List α → Except Cause α}

theorem settled_postorder {row : List Expr}
    (h : ∀ expr ∈ row, ∃ a, walk ofLiteral ofHead expr = .ok a) :
    Settled (walk ofLiteral ofHead) (row.map postorder).flatten := by
  intro head operands position hmem
  rw [← List.flatMap_def, List.mem_flatMap] at hmem
  obtain ⟨expr, hexpr, hsubtree⟩ := hmem
  obtain ⟨a, ha⟩ := h expr hexpr
  exact exists_walk_of_mem_postorder ha hsubtree

theorem Refuses.walk_eq {head : Head} {operands : List Expr} {cause : Cause}
    (h : Refuses (walk ofLiteral ofHead) ofHead head operands cause) (position : ℕ) :
    walk ofLiteral ofHead (operation head operands position) = .error ⟨position, cause⟩ := by
  obtain ⟨found, hfound, hhead⟩ := h
  exact (walk_operation_eq_error_iff _ _).mpr (.inr ⟨found, hfound, hhead, rfl⟩)

/-- Where an expression itself refuses its operands, nothing in it has failed. -/
theorem Refuses.refusesFirst {head : Head} {operands : List Expr} {cause : Cause}
    (h : Refuses (walk ofLiteral ofHead) ofHead head operands cause) (position : ℕ) :
    RefusesFirst (walk ofLiteral ofHead) ofHead (operation head operands position) head operands
      ⟨position, cause⟩ := by
  refine ⟨h, (operands.map postorder).flatten, [], postorder_operation head operands position, ?_⟩
  obtain ⟨found, hfound, -⟩ := h
  refine settled_postorder fun operand hmem => ?_
  obtain ⟨a, -, ha⟩ := exists_mem_of_forall₂ hfound hmem
  exact ⟨a, ha⟩

/-- The first operation to refuse stays the first behind operands that have results. -/
theorem RefusesFirst.plug {frame : Frame} {expr : Expr} {head : Head} {operands : List Expr}
    {fault : Fault Cause}
    (h : RefusesFirst (walk ofLiteral ofHead) ofHead expr head operands fault)
    (hleft : ∀ operand ∈ frame.left, ∃ a, walk ofLiteral ofHead operand = .ok a) :
    RefusesFirst (walk ofLiteral ofHead) ofHead (frame.plug expr) head operands fault := by
  obtain ⟨hrefuses, before, after, hsplit, hbefore⟩ := h
  refine ⟨hrefuses, (frame.left.map postorder).flatten ++ before,
    after ++ ((frame.right.map postorder).flatten ++ [frame.plug expr]), ?_, ?_⟩
  · simp [Frame.plug, hsplit]
  · intro other otherOperands position hmem
    rcases List.mem_append.mp hmem with houter | hinner
    · exact settled_postorder hleft other otherOperands position houter
    · exact hbefore other otherOperands position hinner

/-- A walk that fails comes to an operation that is the first to refuse its operands. -/
theorem exists_refusesFirst {expr : Expr} {fault : Fault Cause}
    (h : walk ofLiteral ofHead expr = .error fault) :
    ∃ head operands, RefusesFirst (walk ofLiteral ofHead) ofHead expr head operands fault := by
  induction expr with
  | literal value position =>
    rw [walk_literal] at h
    cases h
  | operation head operands position ih =>
    rcases (walk_operation_eq_error_iff _ _).mp h with
      ⟨left, operand, right, rfl, hleft, hoperand⟩ | ⟨found, hfound, hhead, rfl⟩
    · obtain ⟨inner, innerOperands, hfirst⟩ := ih operand (by simp) hoperand
      have houter : RefusesFirst (walk ofLiteral ofHead) ofHead
          (Frame.plug ⟨head, left, right, position⟩ operand) inner innerOperands fault :=
        hfirst.plug hleft
      exact ⟨inner, innerOperands, houter⟩
    · have hrefuses : Refuses (walk ofLiteral ofHead) ofHead head operands fault.cause :=
        ⟨found, hfound, hhead⟩
      exact ⟨head, operands, hrefuses.refusesFirst fault.position⟩

/-- The first operation to refuse its operands is the first subtree that fails. -/
theorem find?_of_refusesFirst {expr : Expr} {head : Head} {operands : List Expr}
    {fault : Fault Cause}
    (h : RefusesFirst (walk ofLiteral ofHead) ofHead expr head operands fault) :
    expr.postorder.find? (fun subtree => !(walk ofLiteral ofHead subtree).isOk) =
      some (operation head operands fault.position) := by
  obtain ⟨hrefuses, before, after, hsplit, hbefore⟩ := h
  refine List.find?_eq_some_iff_append.mpr ⟨?_, before, after, hsplit, ?_⟩
  · rw [hrefuses.walk_eq]
    rfl
  · intro subtree hmem
    cases subtree with
    | literal value position => rw [walk_literal]; rfl
    | operation head operands position =>
      obtain ⟨b, hb⟩ := hbefore head operands position hmem
      rw [hb]
      rfl

/-- A walk fails with the fault of the first operation to refuse its operands, and only so. -/
theorem walk_eq_error_iff_refusesFirst {expr : Expr} {fault : Fault Cause} :
    walk ofLiteral ofHead expr = .error fault ↔
      ∃ head operands, RefusesFirst (walk ofLiteral ofHead) ofHead expr head operands fault := by
  constructor
  · exact exists_refusesFirst
  · intro h
    obtain ⟨head, operands, hfirst⟩ := h
    have hrefused := hfirst.1.walk_eq fault.position
    cases hexpr : walk ofLiteral ofHead expr with
    | ok a =>
      have hmem := List.mem_of_find?_eq_some (find?_of_refusesFirst hfirst)
      obtain ⟨b, hb⟩ := exists_walk_of_mem_postorder hexpr hmem
      rw [hb] at hrefused
      cases hrefused
    | error other =>
      -- both faults are of the same operation, the first that fails
      obtain ⟨head', operands', hother⟩ := exists_refusesFirst hexpr
      have hsame := (find?_of_refusesFirst hfirst).symm.trans (find?_of_refusesFirst hother)
      rw [Option.some.inj hsame, hother.1.walk_eq] at hrefused
      exact hrefused

/-- What fails in an operation, if nothing before it does, is all that is told of the operation. -/
theorem walk_plug_of_error {frame : Frame} {expr : Expr} {fault : Fault Cause}
    (h : walk ofLiteral ofHead expr = .error fault) :
    walk ofLiteral ofHead (frame.plug expr) =
      (frame.left.mapM (walk ofLiteral ofHead)).bind fun _ => .error fault := by
  have hrow : (frame.left ++ expr :: frame.right).mapM (walk ofLiteral ofHead) =
      (frame.left.mapM (walk ofLiteral ofHead)).bind fun _ => .error fault := by
    rw [List.mapM_append, List.mapM_cons, h]
    rfl
  rw [Frame.plug, walk_operation, hrow]
  cases frame.left.mapM (walk ofLiteral ofHead) <;> rfl

theorem exists_walk_plug_eq_error {subtree : Expr} {fault : Fault Cause} (path : List Frame)
    (h : walk ofLiteral ofHead subtree = .error fault) :
    ∃ outer, walk ofLiteral ofHead (plug path subtree) = .error outer := by
  induction path with
  | nil => exact ⟨fault, h⟩
  | cons frame path ih =>
    obtain ⟨inner, hinner⟩ := ih
    rw [plug_cons, walk_plug_of_error hinner]
    cases frame.left.mapM (walk ofLiteral ofHead) with
    | error outer => exact ⟨outer, rfl⟩
    | ok found => exact ⟨inner, rfl⟩

/-- Around a subtree that fails, only what stands before it counts. -/
theorem walk_plug_congr {path other : List Frame} {subtree : Expr} {fault : Fault Cause}
    (h : walk ofLiteral ofHead subtree = .error fault)
    (hleft : other.map Frame.left = path.map Frame.left) :
    walk ofLiteral ofHead (plug other subtree) = walk ofLiteral ofHead (plug path subtree) := by
  induction path generalizing other with
  | nil =>
    obtain rfl := List.map_eq_nil_iff.mp hleft
    rfl
  | cons frame path ih =>
    obtain ⟨otherFrame, others, rfl, hframe, hothers⟩ := List.map_eq_cons_iff.mp hleft
    obtain ⟨inner, hinner⟩ := exists_walk_plug_eq_error path h
    have hsame := (ih hothers).trans hinner
    rw [plug_cons, plug_cons, walk_plug_of_error hinner, walk_plug_of_error hsame, hframe]

end Walk

/-- Evaluation fails with what the first operation in postorder reports that has no value although
its operands have values. The operations around it may have any heads and positions, and any
operands behind the way to it. -/
theorem first_failing_operation (expr : Expr) (fault : Fault EvalCause) :
    (expr.evaluate = .error fault ↔
      ∃ head operands, RefusesFirst evaluate Head.apply expr head operands fault) ∧
    (∀ subtree, subtree ∈ expr.postorder ↔ ∃ path, plug path subtree = expr) ∧
    ∀ head operands, RefusesFirst evaluate Head.apply expr head operands fault →
      ∀ path other : List Frame, plug path (operation head operands fault.position) = expr →
        other.map Frame.left = path.map Frame.left →
          (plug other (operation head operands fault.position)).evaluate = .error fault := by
  have hiff : expr.evaluate = .error fault ↔
      ∃ head operands, RefusesFirst evaluate Head.apply expr head operands fault :=
    walk_eq_error_iff_refusesFirst
  refine ⟨hiff, fun subtree => mem_postorder_iff, ?_⟩
  intro head operands hfirst path other hpath hleft
  have hfault := hiff.mpr ⟨head, operands, hfirst⟩
  have hrefused : (operation head operands fault.position).evaluate = .error fault :=
    hfirst.1.walk_eq fault.position
  have hsame : (plug other (operation head operands fault.position)).evaluate =
      (plug path (operation head operands fault.position)).evaluate :=
    walk_plug_congr hrefused hleft
  rw [hsame, hpath, hfault]

/-- A quotient fails inside an unknown operator, which would fail next, and so do others. -/
theorem first_failing_operation_quotient :
    let quotient := operation (.known .div) [.literal 4 4, .literal 0 5] 3
    let path : List Frame :=
      [⟨.known .sub, [.literal 1 1], [], 0⟩,
        ⟨.unknown "max", [.literal 2 2], [operation (.unknown "pow") [] 6], 1⟩]
    let other : List Frame :=
      [⟨.unknown "min", [.literal 1 1], [operation (.known .sub) [] 8], 0⟩,
        ⟨.known .mul, [.literal 2 2], [], 1⟩]
    (plug path quotient).evaluate = .error ⟨3, .divisionByZero⟩ ∧
      other.map Frame.left = path.map Frame.left ∧
      (plug other quotient).evaluate = .error ⟨3, .divisionByZero⟩ := by
  intro quotient path other
  have hfirst : RefusesFirst evaluate Head.apply (plug path quotient) (.known .div)
      [.literal 4 4, .literal 0 5] ⟨3, .divisionByZero⟩ := by
    refine ⟨⟨[.integer 4, .integer 0], ?_, rfl⟩,
      [.literal 1 1, .literal 2 2, .literal 4 4, .literal 0 5], _, rfl, ?_⟩
    · exact .cons rfl (.cons rfl .nil)
    · intro head operands position hmem
      simp at hmem
  obtain ⟨hiff, -, hreplace⟩ :=
    first_failing_operation (plug path quotient) ⟨3, .divisionByZero⟩
  exact ⟨hiff.mpr ⟨_, _, hfirst⟩, rfl, hreplace _ _ hfirst path other rfl rfl⟩

end PrefixArithmetic.Expr
