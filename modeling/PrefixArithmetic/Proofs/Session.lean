import PrefixArithmetic.Proofs.Parsing.Halting
import PrefixArithmetic.Session

/-!
# The cursor of a session

Between the steps of a session anything may happen: a reading fails inside several
operations, the session comes back to an earlier place, an operation is read as if
it stood inside too many others. What the cursor has not read is still what follows
its position. So what a step does depends on that position alone, and each reading
step either stops at the end of the tokens or moves the cursor on.
-/
namespace PrefixArithmetic

namespace Cursor

/-- The cursor stands before one of the tokens or behind the last. -/
structure Within (cursor : Cursor) (tokens : List String) : Prop where
  position_le : cursor.position ≤ tokens.length
  rest_eq : cursor.rest = tokens.drop cursor.position

namespace Within
variable {cursor : Cursor} {tokens : List String}

theorem start (tokens : List String) : (Cursor.start tokens).Within tokens :=
  ⟨Nat.zero_le _, rfl⟩

theorem position_add_remaining (h : cursor.Within tokens) :
    cursor.position + cursor.remaining = tokens.length := by
  rw [remaining, h.rest_eq, List.length_drop]
  exact Nat.add_sub_cancel' h.position_le

theorem rest_eq_nil_iff (h : cursor.Within tokens) :
    cursor.rest = [] ↔ cursor.position = tokens.length := by
  have hsum := h.position_add_remaining
  rw [← List.length_eq_zero_iff]
  change cursor.remaining = 0 ↔ _
  omega

theorem peek_eq (h : cursor.Within tokens) : cursor.peek = tokens[cursor.position]? := by
  rw [peek, h.rest_eq, List.head?_drop]

theorem forward (h : cursor.Within tokens) {count : ℕ} (hcount : count ≤ cursor.remaining) :
    (cursor.forward count).Within tokens where
  position_le := by
    have hsum := h.position_add_remaining
    rw [forward_position]
    omega
  rest_eq := by rw [forward_rest, h.rest_eq, List.drop_drop, forward_position]

end Within

end Cursor

/-- The fault of a result that is one. -/
def faultOf? {α : Type} : Except (Fault ParseCause) α → Option (Fault ParseCause)
  | .ok _ => none
  | .error fault => some fault

/-- The fault that an answer reports. -/
def Reply.fault? : Reply → Option (Fault ParseCause)
  | .consumed token => faultOf? token
  | .read tree => faultOf? tree
  | .peeked _ | .done => none

namespace Step

/-- The steps that read. The others only look, or move between places already reached. -/
inductive Reads : Step → Prop where
  | consume : Reads .consume
  | literal : Reads .literal
  | expression (depth : ℕ) : Reads (.expression depth)
  | operation (depth : ℕ) : Reads (.operation depth)

/-- Where a step that reads from a position leaves the cursor, if it succeeds. -/
def stop (tokens : List String) (position : ℕ) : Step → ℕ
  | .operation _ => tokens.length
  | .expression _ =>
    if tokens[position]?.any Token.isLiteral then position + 1 else tokens.length
  | _ => position + 1

/-- What a reading step keeps to, between the positions before and after it. -/
structure Keeps (step : Step) (tokens : List String) (before : ℕ)
    (fault? : Option (Fault ParseCause)) (after : ℕ) : Prop where
  ended : before = tokens.length →
    fault? = some ⟨tokens.length, .endOfInput⟩ ∧ after = before
  advances : before < tokens.length →
    before < after ∧ ∀ fault, fault? = some fault → fault.cause ≠ .endOfInput
  succeeds : fault? = none → after = step.stop tokens before
  /-- A token that cannot be read is the last one read. -/
  fails : ∀ fault, fault? = some fault → fault.cause ≠ .endOfInput →
    before ≤ fault.position ∧ fault.position < tokens.length ∧ after = fault.position + 1

namespace Keeps
variable {step : Step} {tokens : List String} {before : ℕ}

theorem of_ended (step : Step) (tokens : List String) :
    step.Keeps tokens tokens.length (some ⟨tokens.length, .endOfInput⟩) tokens.length where
  ended _ := ⟨rfl, rfl⟩
  advances hlt := absurd hlt (Nat.lt_irrefl _)
  succeeds hnone := by cases hnone
  fails fault hfault hcause := by
    cases hfault
    exact absurd rfl hcause

theorem of_success (hbefore : before < tokens.length) (hstop : before < step.stop tokens before) :
    step.Keeps tokens before none (step.stop tokens before) where
  ended hended := absurd hended hbefore.ne
  advances _ := ⟨hstop, fun _ hfault => by cases hfault⟩
  succeeds _ := rfl
  fails _ hfault := by cases hfault

theorem of_fault {fault : Fault ParseCause} (hfrom : before ≤ fault.position)
    (hto : fault.position < tokens.length) (hcause : fault.cause ≠ .endOfInput) :
    step.Keeps tokens before (some fault) (fault.position + 1) where
  ended hended := absurd hended (hfrom.trans_lt hto).ne
  advances _ := by
    refine ⟨Nat.lt_succ_of_le hfrom, ?_⟩
    intro _ hfault
    cases hfault
    exact hcause
  succeeds hnone := by cases hnone
  fails _ hfault _ := by
    cases hfault
    exact ⟨hfrom, hto, rfl⟩

end Keeps

end Step

namespace Outcome.Proceeds
variable {cursor : Cursor} {tokens : List String} {α : Type} {outcome : Outcome cursor α}
  {count : ℕ}

/-- Reading stays among the tokens. -/
theorem within (h : outcome.Proceeds count) (hwithin : cursor.Within tokens) :
    outcome.cursor.Within tokens := by
  by_cases hrest : cursor.rest = []
  · rw [(h.ended hrest).2]
    exact hwithin
  · obtain ⟨-, hcount, hhalts⟩ := h.halts hrest
    cases hresult : outcome.result with
    | ok found =>
      rw [hhalts.reads found hresult]
      exact hwithin.forward hcount
    | error fault =>
      obtain ⟨index, hblocks⟩ := hhalts.fails fault hresult
      rw [hblocks.cursor_eq]
      exact hwithin.forward hblocks.index_lt

theorem keeps {step : Step} (h : outcome.Proceeds count) (hwithin : cursor.Within tokens)
    (hstop : cursor.position + count = step.stop tokens cursor.position) :
    step.Keeps tokens cursor.position (faultOf? outcome.result) outcome.cursor.position := by
  have hsum := hwithin.position_add_remaining
  by_cases hrest : cursor.rest = []
  · obtain ⟨hresult, hcursor⟩ := h.ended hrest
    rw [hresult, hcursor, hwithin.rest_eq_nil_iff.mp hrest]
    exact .of_ended step tokens
  · obtain ⟨hpos, hcount, hhalts⟩ := h.halts hrest
    cases hresult : outcome.result with
    | ok found =>
      rw [hhalts.reads found hresult, Cursor.forward_position, hstop]
      exact .of_success (by omega) (by omega)
    | error fault =>
      obtain ⟨index, hlt, hposition, hcursor, hcause⟩ := hhalts.fails fault hresult
      rw [hcursor, Cursor.forward_position, ← Nat.add_assoc, ← hposition]
      exact .of_fault (by omega) (by omega) hcause

end Outcome.Proceeds

namespace Session
variable {session : Session} {tokens : List String}

/-- Both places of a session are among the tokens. -/
structure Within (session : Session) (tokens : List String) : Prop where
  cursor : session.cursor.Within tokens
  saved : session.saved.Within tokens

/-- A reading step is one of the readers at work on the cursor. It takes as many tokens as lie
before the place where the step is to stop. -/
theorem exists_outcome_of_reads {step : Step} (h : session.cursor.Within tokens)
    (hreads : step.Reads) :
    ∃ (α : Type) (outcome : Outcome session.cursor α) (count : ℕ),
      (session.step step).1.fault? = faultOf? outcome.result ∧
      (session.step step).2 = ⟨outcome.cursor, session.saved⟩ ∧
      outcome.Proceeds count ∧
      session.cursor.position + count = step.stop tokens session.cursor.position := by
  have hsum := h.position_add_remaining
  cases hreads with
  | consume => exact ⟨_, _, _, rfl, rfl, Parsing.consume_proceeds _, rfl⟩
  | literal => exact ⟨_, _, _, rfl, rfl, Parsing.literal_proceeds _, rfl⟩
  | operation depth => exact ⟨_, _, _, rfl, rfl, Parsing.operation_proceeds _ depth, hsum⟩
  | expression depth =>
    refine ⟨_, _, _, rfl, rfl, Parsing.expression_proceeds _ depth, ?_⟩
    rw [h.peek_eq, Step.stop]
    split_ifs
    · rfl
    · exact hsum

theorem Within.step_of_reads {step : Step} (h : session.Within tokens) (hreads : step.Reads) :
    (session.step step).2.Within tokens := by
  obtain ⟨_, outcome, count, -, hnext, hproceeds, -⟩ := exists_outcome_of_reads h.cursor hreads
  rw [hnext]
  exact ⟨hproceeds.within h.cursor, h.saved⟩

theorem Within.step (h : session.Within tokens) (step : Step) :
    (session.step step).2.Within tokens := by
  cases step with
  | peek => exact h
  | consume => exact h.step_of_reads .consume
  | literal => exact h.step_of_reads .literal
  | expression depth => exact h.step_of_reads (.expression depth)
  | operation depth => exact h.step_of_reads (.operation depth)
  | save => exact ⟨h.cursor, h.cursor⟩
  | restore => exact ⟨h.saved, h.saved⟩

theorem Within.keeps_of_reads {step : Step} (h : session.Within tokens) (hreads : step.Reads) :
    step.Keeps tokens session.cursor.position (session.step step).1.fault?
      (session.step step).2.cursor.position := by
  obtain ⟨_, outcome, count, hfault, hnext, hproceeds, hstop⟩ :=
    exists_outcome_of_reads h.cursor hreads
  rw [hfault, hnext]
  exact hproceeds.keeps h.cursor hstop

/-- The session after some steps. -/
def reached (session : Session) (steps : List Step) : Session :=
  steps.foldl (fun session step => (session.step step).2) session

theorem Within.reached (h : session.Within tokens) (steps : List Step) :
    (session.reached steps).Within tokens := by
  induction steps generalizing session with
  | nil => exact h
  | cons step steps ih => exact ih (h.step step)

/-- In a run, each step works on the session that the steps before it have reached. -/
theorem run_getElem? (session : Session) (front : List Step) (step : Step) (back : List Step) :
    (session.run (front ++ step :: back))[front.length]? =
      some ((session.reached front).step step) := by
  induction front generalizing session with
  | nil => rfl
  | cons first front ih => exact ih (session.step first).2

/-- Whatever steps are taken, and in whatever order, the cursor stays among the tokens and no
token is lost. Looking does not move it. A reading step fails in place at the end of the
tokens; before the end it moves on, to where it stops or right behind the token at fault. -/
theorem run_keeps_to_tokens (tokens : List String) (front : List Step) (step : Step)
    (back : List Step) :
    ∃ reply next,
      ((Session.start tokens).run (front ++ step :: back))[front.length]? = some (reply, next) ∧
      next.cursor.position ≤ tokens.length ∧
      next.cursor.position + next.cursor.remaining = tokens.length ∧
      (step = .peek → next.cursor = ((Session.start tokens).reached front).cursor) ∧
      (step.Reads → step.Keeps tokens ((Session.start tokens).reached front).cursor.position
        reply.fault? next.cursor.position) := by
  have hstart : (Session.start tokens).Within tokens := ⟨.start tokens, .start tokens⟩
  have hbefore := hstart.reached front
  have hafter := (hbefore.step step).cursor
  refine ⟨_, (((Session.start tokens).reached front).step step).2,
    run_getElem? _ front step back, hafter.position_le, hafter.position_add_remaining, ?_, ?_⟩
  · rintro rfl
    rfl
  · intro hreads
    exact hbefore.keeps_of_reads hreads

/-- A word that is no literal is passed over, and the operation behind it would stand too deep. -/
theorem run_keeps_to_tokens_tooDeep :
    ∃ reply next,
      ((Session.start ["div", "1"]).run [.save, .literal, .operation 512, .restore])[2]? =
        some (reply, next) ∧
      reply.fault? = some ⟨1, .nestingTooDeep 512⟩ ∧ next.cursor.position = 2 := by
  obtain ⟨reply, next, hrun, -, -, -, hkeeps⟩ :=
    run_keeps_to_tokens ["div", "1"] [.save, .literal] (.operation 512) [.restore]
  have hdeep := (Parsing.operation_of_limit_le 1 512 "1" [] le_rfl).1
  have hfault : reply.fault? = some ⟨1, .nestingTooDeep 512⟩ := by
    rw [run_getElem?] at hrun
    obtain ⟨rfl, -⟩ := Prod.mk.inj (Option.some.inj hrun)
    change faultOf? (Parsing.operation ⟨1, ["1"]⟩ 512).result = _
    rw [hdeep]
    rfl
  have hafter := ((hkeeps (.operation 512)).fails _ hfault (by decide)).2.2
  exact ⟨reply, next, hrun, hfault, hafter⟩

end Session

end PrefixArithmetic
