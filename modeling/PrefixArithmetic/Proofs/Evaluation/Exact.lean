import PrefixArithmetic.Proofs.Evaluation.OneStep

/-!
# Exact values

An expression has an exact value if all of its arithmetic can be done on
unbounded integers with every intermediate result inside 64 bits and no
remainder left by a division. Evaluation gives an integer exactly then, and the same one: a step
with a real in it never gives an integer again. Rational arithmetic without any
bound gives that integer too.
-/
namespace PrefixArithmetic

namespace Operator

/-- The exact result of one step on unbounded integers. A quotient leaves no remainder. -/
def Exact (op : Operator) (a b result : ℤ) : Prop :=
  match op with
  | sum => result = a + b
  | sub => result = a - b
  | mul => result = a * b
  | div => b ≠ 0 ∧ a = result * b

/-- Exact steps from the left, all of whose results have 64 bits. -/
inductive Steps (op : Operator) : ℤ → List ℤ → ℤ → Prop
  | done (a : ℤ) : Steps op a [] a
  | step {a b next result : ℤ} {rest : List ℤ} (exact : op.Exact a b next)
      (inRange : Integer64.InRange next) (steps : Steps op next rest result) :
      Steps op a (b :: rest) result

/-- The exact fold of some integers: sums are seeded with zero and products with one, and the
others start at their first operand, which they need. -/
def Folds (op : Operator) (values : List ℤ) (result : ℤ) : Prop :=
  match op with
  | sum => Steps sum 0 values result
  | mul => Steps mul 1 values result
  | op => ∃ first rest, values = first :: rest ∧ Steps op first rest result

/-- One step on rational numbers, which only a zero divisor prevents. -/
def rational? (op : Operator) (a b : ℚ) : Option ℚ :=
  match op with
  | sum => some (a + b)
  | sub => some (a - b)
  | mul => some (a * b)
  | div => if b = 0 then none else some (a / b)

/-- The fold of some rational numbers, seeded as folds of integers are. -/
def rationalFold? (op : Operator) (values : List ℚ) : Option ℚ :=
  match op, values with
  | sum, values => values.foldlM sum.rational? 0
  | mul, values => values.foldlM mul.rational? 1
  | op, first :: rest => rest.foldlM op.rational? first
  | _, [] => none

end Operator

namespace Expr

/-- The exact value of an expression on unbounded integers. -/
inductive HasValue : Expr → ℤ → Prop
  | literal (value : Int64) (position : ℕ) : HasValue (.literal value position) value.toInt
  | operation {op : Operator} {operands : List Expr} {values : List ℤ} {result : ℤ}
      (position : ℕ) (operandValues : List.Forall₂ HasValue operands values)
      (folds : op.Folds values result) :
      HasValue (.operation (.known op) operands position) result

/-- The value of an expression in rational arithmetic, if nothing is divided by zero. -/
def rational? : Expr → Option ℚ :=
  fold (fun value _ => some (value.toInt : ℚ)) fun head values _ =>
    match head with
    | .known op => (values.mapM id).bind op.rationalFold?
    | .unknown _ => none

@[simp] theorem rational?_literal (value : Int64) (position : ℕ) :
    (literal value position).rational? = some (value.toInt : ℚ) := by simp [rational?]

@[simp] theorem rational?_operation (op : Operator) (operands : List Expr) (position : ℕ) :
    (operation (.known op) operands position).rational? =
      (operands.mapM rational?).bind op.rationalFold? := by
  rw [rational?, fold_operation, List.mapM_map]
  rfl

end Expr

namespace Operator

/-! Steps on integers -/

lemma combinePromoted_ne_integer (op : Operator) (left right : Value) (word : Int64) :
    op.combinePromoted left right ≠ .ok (.integer word) := by
  intro h
  obtain ⟨a, -, b, -, hreal⟩ := combinePromoted_eq_ok_iff.mp h
  cases eq_of_combineReal hreal

lemma checked_eq_integer_iff {op : Operator} {exact : ℤ} {word : Int64} :
    op.checked exact = .ok (.integer word) ↔ word.toInt = exact := by
  rw [checked_eq_ok_iff]
  constructor
  · intro h
    obtain ⟨other, heq, hother⟩ := h
    cases heq
    exact hother
  · intro h
    exact ⟨word, rfl, h⟩

lemma exact_div_iff {a b result : ℤ} (hb : b ≠ 0) :
    b ∣ a ∧ result = a / b ↔ a = result * b := by
  constructor
  · intro h
    rw [h.2, Int.ediv_mul_cancel h.1]
  · intro h
    have hdvd : b ∣ a := Dvd.intro_left result h.symm
    refine ⟨hdvd, ?_⟩
    rw [h, Int.mul_ediv_cancel result hb]

lemma combineInteger_eq_integer_iff {op : Operator} {a b word : Int64}
    (hzero : op = div → b.toInt ≠ 0) :
    op.combineInteger a b = .ok (.integer word) ↔ op.Exact a.toInt b.toInt word.toInt := by
  cases op with
  | sum | sub | mul => exact checked_eq_integer_iff
  | div =>
    have hb := hzero rfl
    rw [combineInteger, Exact, ← exact_div_iff hb]
    split_ifs with hdvd
    · rw [checked_eq_integer_iff]
      exact ⟨fun h => ⟨hb, hdvd, h⟩, fun h => h.2.2⟩
    · exact ⟨fun h => absurd h (combinePromoted_ne_integer _ _ _ _),
        fun h => absurd h.2.1 hdvd⟩

lemma combine_integer_eq_integer_iff {op : Operator} {a b word : Int64} :
    op.combine (.integer a) (.integer b) = .ok (.integer word) ↔
      op.Exact a.toInt b.toInt word.toInt := by
  rcases combine_integers op a b with ⟨rfl, rfl, hstep⟩ | ⟨hzero, hstep⟩
  · rw [hstep]
    exact ⟨nofun, fun h => absurd Int64.toInt_zero h.1⟩
  · rw [hstep]
    exact combineInteger_eq_integer_iff fun hop hb => hzero hop (Integer64.toInt_eq_zero_iff.mp hb)

/-- A step gives an integer exactly if it is exact, on integers, and within 64 bits. A real on
either side never turns into an integer again. -/
theorem combine_eq_integer_iff {op : Operator} {left right : Value} {word : Int64} :
    op.combine left right = .ok (.integer word) ↔
      ∃ a b : Int64, left = .integer a ∧ right = .integer b ∧
        op.Exact a.toInt b.toInt word.toInt := by
  constructor
  · intro h
    rcases combine_cases op left right with
      ⟨-, -, hstep⟩ | ⟨-, ⟨a, b, rfl, rfl, -⟩ | ⟨-, hstep⟩⟩
    · rw [hstep] at h
      cases h
    · exact ⟨a, b, rfl, rfl, combine_integer_eq_integer_iff.mp h⟩
    · exact absurd (hstep ▸ h) (combinePromoted_ne_integer op left right word)
  · intro h
    obtain ⟨a, b, rfl, rfl, hexact⟩ := h
    exact combine_integer_eq_integer_iff.mpr hexact

/-- Integers as operands of a fold. -/
def integers (words : List Int64) : List Value := words.map .integer

lemma exists_toInt_eq {n : ℤ} (h : Integer64.InRange n) : ∃ word : Int64, word.toInt = n :=
  ⟨Int64.ofInt n, Integer64.ofInt?_eq_some_iff.mp (if_pos h)⟩

theorem steps_nil_iff {op : Operator} {a result : ℤ} : op.Steps a [] result ↔ result = a := by
  constructor
  · intro h
    cases h
    rfl
  · intro h
    rw [h]
    exact .done a

theorem steps_cons_iff {op : Operator} {a b result : ℤ} {rest : List ℤ} :
    op.Steps a (b :: rest) result ↔
      ∃ next, op.Exact a b next ∧ Integer64.InRange next ∧ op.Steps next rest result := by
  constructor
  · intro h
    cases h with
    | step hexact hrange hsteps => exact ⟨_, hexact, hrange, hsteps⟩
  · intro h
    obtain ⟨next, hexact, hrange, hsteps⟩ := h
    exact .step hexact hrange hsteps

/-- A loop of steps ends at an integer exactly if it is a run of exact steps. -/
theorem foldlM_eq_integer_iff {op : Operator} {values : List Value} {left : Value}
    {word : Int64} :
    values.foldlM op.combine left = .ok (.integer word) ↔
      ∃ (a : Int64) (words : List Int64), left = .integer a ∧ values = integers words ∧
        op.Steps a.toInt (words.map Int64.toInt) word.toInt := by
  induction values generalizing left with
  | nil =>
    constructor
    · intro h
      cases h
      exact ⟨word, [], rfl, rfl, .done _⟩
    · intro h
      obtain ⟨a, words, rfl, hwords, hsteps⟩ := h
      obtain rfl := List.map_eq_nil_iff.mp hwords.symm
      rw [Int64.toInt_inj.mp (steps_nil_iff.mp hsteps)]
      rfl
  | cons value values ih =>
    rw [List.foldlM_cons]
    refine bind_eq_ok_iff.trans ?_
    constructor
    · intro h
      obtain ⟨next, hnext, hrest⟩ := h
      obtain ⟨c, words, rfl, rfl, hsteps⟩ := ih.mp hrest
      obtain ⟨a, b, rfl, rfl, hexact⟩ := combine_eq_integer_iff.mp hnext
      exact ⟨a, b :: words, rfl, rfl, .step hexact (Integer64.inRange_toInt c) hsteps⟩
    · intro h
      obtain ⟨a, words, rfl, hwords, hsteps⟩ := h
      obtain ⟨b, words, rfl, rfl, rfl⟩ := List.map_eq_cons_iff.mp hwords.symm
      obtain ⟨next, hexact, hrange, hsteps⟩ := steps_cons_iff.mp hsteps
      obtain ⟨c, rfl⟩ := exists_toInt_eq hrange
      exact ⟨.integer c, combine_eq_integer_iff.mpr ⟨a, b, rfl, rfl, hexact⟩,
        ih.mpr ⟨c, words, rfl, rfl, hsteps⟩⟩

/-- A fold that has to start at its first operand. -/
lemma foldFirst_eq_integer_iff {op : Operator} {values : List Value} {word : Int64}
    (hfold : ∀ first rest, op.fold (first :: rest) = rest.foldlM op.combine first)
    (hempty : op.fold [] = .error (.missingOperand op)) :
    op.fold values = .ok (.integer word) ↔
      ∃ words : List Int64, values = integers words ∧
        ∃ first rest, words.map Int64.toInt = first :: rest ∧
          op.Steps first rest word.toInt := by
  cases values with
  | nil =>
    rw [hempty]
    constructor
    · nofun
    · intro h
      obtain ⟨words, hwords, first, rest, hmap, -⟩ := h
      obtain rfl := List.map_eq_nil_iff.mp hwords.symm
      cases hmap
  | cons value values =>
    rw [hfold, foldlM_eq_integer_iff]
    constructor
    · intro h
      obtain ⟨a, words, rfl, rfl, hsteps⟩ := h
      exact ⟨a :: words, rfl, a.toInt, words.map Int64.toInt, rfl, hsteps⟩
    · intro h
      obtain ⟨words, hwords, first, rest, hmap, hsteps⟩ := h
      obtain ⟨a, words, rfl, rfl, rfl⟩ := List.map_eq_cons_iff.mp hwords.symm
      cases hmap
      exact ⟨a, words, rfl, rfl, hsteps⟩

/-- A fold that starts at a seed of its own. -/
lemma foldSeed_eq_integer_iff {op : Operator} {seed : Int64} {values : List Value}
    {word : Int64} :
    values.foldlM op.combine (.integer seed) = .ok (.integer word) ↔
      ∃ words : List Int64, values = integers words ∧
        op.Steps seed.toInt (words.map Int64.toInt) word.toInt := by
  rw [foldlM_eq_integer_iff]
  simp only [Value.integer.injEq, exists_and_left, exists_eq_left']

theorem fold_eq_integer_iff {op : Operator} {values : List Value} {word : Int64} :
    op.fold values = .ok (.integer word) ↔
      ∃ words : List Int64, values = integers words ∧
        op.Folds (words.map Int64.toInt) word.toInt := by
  cases op with
  | sum => rw [fold_sum]; exact foldSeed_eq_integer_iff
  | mul => rw [fold_mul]; exact foldSeed_eq_integer_iff
  | sub | div => exact foldFirst_eq_integer_iff (fun _ _ => rfl) rfl

theorem Steps.inRange {op : Operator} {a result : ℤ} {rest : List ℤ}
    (h : Steps op a rest result) (ha : Integer64.InRange a) : Integer64.InRange result := by
  induction h with
  | done => exact ha
  | step _ hrange _ ih => exact ih hrange

theorem Folds.inRange {op : Operator} {values : List ℤ} {result : ℤ}
    (h : op.Folds values result) (hvalues : ∀ value ∈ values, Integer64.InRange value) :
    Integer64.InRange result := by
  cases op with
  | sum | mul => exact Steps.inRange h (by decide)
  | sub | div =>
    obtain ⟨first, rest, rfl, hsteps⟩ := h
    exact hsteps.inRange (hvalues first List.mem_cons_self)

/-! Steps on rational numbers -/

lemma rational?_of_exact {op : Operator} {a b result : ℤ} (h : op.Exact a b result) :
    op.rational? a b = some (result : ℚ) := by
  cases op with
  | sum => simp [show result = a + b from h, rational?]
  | sub => simp [show result = a - b from h, rational?]
  | mul => simp [show result = a * b from h, rational?]
  | div =>
    obtain ⟨hb, rfl⟩ := h
    have hb' : (b : ℚ) ≠ 0 := Int.cast_ne_zero.mpr hb
    rw [rational?, if_neg hb', Int.cast_mul, mul_div_cancel_right₀ _ hb']

theorem Steps.rational? {op : Operator} {a result : ℤ} {rest : List ℤ}
    (h : op.Steps a rest result) :
    (rest.map ((↑) : ℤ → ℚ)).foldlM op.rational? (a : ℚ) = some (result : ℚ) := by
  induction h with
  | done => rfl
  | step hexact _ _ ih =>
    rw [List.map_cons, List.foldlM_cons, rational?_of_exact hexact]
    exact ih

/-- A fold that is exact on integers is the fold of the same rational numbers. -/
theorem Folds.rational? {op : Operator} {values : List ℤ} {result : ℤ}
    (h : op.Folds values result) :
    op.rationalFold? (values.map ((↑) : ℤ → ℚ)) = some (result : ℚ) := by
  cases op with
  | sum | mul => simpa [rationalFold?] using Steps.rational? h
  | sub | div =>
    obtain ⟨first, rest, rfl, hsteps⟩ := h
    exact hsteps.rational?

end Operator

namespace Expr

lemma hasValue_literal_iff {value : Int64} {position : ℕ} {n : ℤ} :
    (literal value position).HasValue n ↔ value.toInt = n := by
  constructor
  · intro h
    generalize hexpr : literal value position = expr at h
    cases h <;> cases hexpr
    rfl
  · intro h
    rw [← h]
    exact .literal value position

lemma hasValue_operation_iff {head : Head} {operands : List Expr} {position : ℕ} {n : ℤ} :
    (operation head operands position).HasValue n ↔
      ∃ op values, head = .known op ∧ List.Forall₂ HasValue operands values ∧
        op.Folds values n := by
  constructor
  · intro h
    cases h with
    | operation _ hoperands hfolds => exact ⟨_, _, rfl, hoperands, hfolds⟩
  · intro h
    obtain ⟨op, values, rfl, hoperands, hfolds⟩ := h
    exact .operation position hoperands hfolds

/-- Operands have exact values exactly if they all evaluate to integers, the same ones. -/
lemma operandValues_iff {operands : List Expr} (values : List ℤ)
    (h : ∀ operand ∈ operands, ∀ n, operand.HasValue n ↔
      ∃ word : Int64, word.toInt = n ∧ operand.evaluate = .ok (.integer word)) :
    List.Forall₂ HasValue operands values ↔
      ∃ words : List Int64, values = words.map Int64.toInt ∧
        List.Forall₂ (fun operand value => operand.evaluate = .ok value) operands
          (Operator.integers words) := by
  induction operands generalizing values with
  | nil =>
    rw [List.forall₂_nil_left_iff]
    constructor
    · intro h
      exact ⟨[], h, .nil⟩
    · intro h
      obtain ⟨words, rfl, hwords⟩ := h
      have hnil : words = [] := List.map_eq_nil_iff.mp (List.forall₂_nil_left_iff.mp hwords)
      rw [hnil, List.map_nil]
  | cons operand operands ih =>
    have hoperand := h operand List.mem_cons_self
    have hrest := fun rest => ih rest fun other hother => h other (List.mem_cons_of_mem _ hother)
    rw [List.forall₂_cons_left_iff]
    constructor
    · intro h
      obtain ⟨n, rest, hn, hvalues, rfl⟩ := h
      obtain ⟨word, rfl, hword⟩ := (hoperand n).mp hn
      obtain ⟨words, rfl, hwords⟩ := (hrest rest).mp hvalues
      exact ⟨word :: words, rfl, .cons hword hwords⟩
    · intro h
      obtain ⟨words, rfl, hwords⟩ := h
      obtain ⟨_, _, hword, hwords, hcons⟩ := List.forall₂_cons_left_iff.mp hwords
      obtain ⟨word, words, rfl, rfl, rfl⟩ := List.map_eq_cons_iff.mp hcons
      exact ⟨word.toInt, words.map Int64.toInt, (hoperand _).mpr ⟨word, rfl, hword⟩,
        (hrest _).mpr ⟨words, rfl, hwords⟩, rfl⟩

/-- The exact value is the integer that evaluation gives. -/
theorem hasValue_iff (expr : Expr) (n : ℤ) :
    expr.HasValue n ↔
      ∃ word : Int64, word.toInt = n ∧ expr.evaluate = .ok (.integer word) := by
  induction expr generalizing n with
  | literal value position =>
    simp [hasValue_literal_iff]
  | operation head operands position ih =>
    rw [hasValue_operation_iff]
    simp only [evaluate_eq_walk, walk_operation_eq_ok_iff]
    simp only [← evaluate_eq_walk]
    constructor
    · intro h
      obtain ⟨op, values, rfl, hoperands, hfolds⟩ := h
      obtain ⟨words, rfl, hwords⟩ := (operandValues_iff values ih).mp hoperands
      have hrange : Integer64.InRange n := hfolds.inRange fun value hvalue => by
        obtain ⟨word, -, rfl⟩ := List.mem_map.mp hvalue
        exact Integer64.inRange_toInt word
      obtain ⟨word, rfl⟩ := Operator.exists_toInt_eq hrange
      exact ⟨word, rfl, _, hwords, Operator.fold_eq_integer_iff.mpr ⟨words, rfl, hfolds⟩⟩
    · intro h
      obtain ⟨word, rfl, found, hfound, happly⟩ := h
      cases head with
      | unknown name => cases happly
      | known op =>
        obtain ⟨words, rfl, hfolds⟩ := Operator.fold_eq_integer_iff.mp happly
        exact ⟨op, _, rfl, (operandValues_iff _ ih).mpr ⟨words, rfl, hfound⟩, hfolds⟩

/-- Rational arithmetic gives the exact value, if there is one. -/
theorem rational?_of_hasValue {expr : Expr} {n : ℤ} (h : expr.HasValue n) :
    expr.rational? = some (n : ℚ) := by
  induction expr generalizing n with
  | literal value position =>
    rw [← hasValue_literal_iff.mp h, rational?_literal]
  | operation head operands position ih =>
    obtain ⟨op, values, rfl, hoperands, hfolds⟩ := hasValue_operation_iff.mp h
    have hvalues := forall₂_imp_of_mem hoperands fun operand hmem _ => ih operand hmem
    have hrow : operands.mapM rational? = some (values.map ((↑) : ℤ → ℚ)) :=
      mapM_eq_some_iff.mpr (List.forall₂_map_right_iff.mpr hvalues)
    rw [rational?_operation, hrow]
    exact hfolds.rational?

end Expr

/-- Evaluation gives an integer exactly where exact arithmetic on unbounded integers does, and
then rational arithmetic gives it too. -/
theorem evaluate_eq_integer_iff (expr : Expr) (word : Int64) :
    (expr.evaluate = .ok (.integer word) ↔ expr.HasValue word.toInt) ∧
      (expr.HasValue word.toInt → expr.rational? = some (word.toInt : ℚ)) := by
  refine ⟨?_, Expr.rational?_of_hasValue⟩
  rw [Expr.hasValue_iff]
  constructor
  · intro h
    exact ⟨word, rfl, h⟩
  · intro h
    obtain ⟨other, hother, hvalue⟩ := h
    rwa [← Int64.toInt_inj.mp hother]

/-- The least integer, by way of the greatest: `(0 - (-1 * -9223372036854775807)) - 1`. -/
theorem evaluate_eq_integer_iff_least :
    let expr := Expr.operation (.known .sub) [.literal 0 1, .operation (.known .mul)
      [.literal (-1) 3, .literal (-9223372036854775807) 4] 2, .literal 1 5] 0
    expr.HasValue (-9223372036854775808) ∧ expr.rational? = some (-9223372036854775808) := by
  intro expr
  obtain ⟨hiff, hrational⟩ := evaluate_eq_integer_iff expr (-9223372036854775808)
  have hvalue := hiff.mp rfl
  have hleast : (-9223372036854775808 : Int64).toInt = -9223372036854775808 := rfl
  rw [hleast] at hvalue hrational
  refine ⟨hvalue, (hrational hvalue).trans ?_⟩
  norm_num

end PrefixArithmetic
