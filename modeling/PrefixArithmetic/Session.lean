import PrefixArithmetic.Parsing

/-!
# Reading sessions

A session is a cursor that is moved by one step after another, and a second
cursor that was kept for coming back to it.
-/
namespace PrefixArithmetic

/-- One thing to do with the cursor of a session. -/
inductive Step where
  | peek
  | consume
  | literal
  | expression (depth : Nat)
  | operation (depth : Nat)
  | save
  | restore

/-- What a step answers. -/
inductive Reply where
  | peeked (token : Option String)
  | consumed (token : Except (Fault ParseCause) (Nat × String))
  | read (tree : Except (Fault ParseCause) Expr)
  | done

structure Session where
  cursor : Cursor
  saved : Cursor

namespace Session

/-- A session before the first token, which is also where it comes back to. -/
def start (tokens : List String) : Session := ⟨.start tokens, .start tokens⟩

/-- A reading step: its result is the answer, and the session goes on from its cursor. -/
def after {start : Cursor} {α : Type} (session : Session) (outcome : Outcome start α)
    (reply : Except (Fault ParseCause) α → Reply) : Reply × Session :=
  (reply outcome.result, ⟨outcome.cursor, session.saved⟩)

def step (session : Session) : Step → Reply × Session
  | .peek => (.peeked session.cursor.peek, session)
  | .consume => session.after session.cursor.consume .consumed
  | .literal => session.after (Parsing.literal session.cursor) .read
  | .expression depth => session.after (Parsing.expression session.cursor depth) .read
  | .operation depth => session.after (Parsing.operation session.cursor depth) .read
  | .save => (.done, ⟨session.cursor, session.cursor⟩)
  | .restore => (.done, ⟨session.saved, session.saved⟩)

/-- The answers to some steps, each with the session after it. -/
def run (session : Session) : List Step → List (Reply × Session)
  | [] => []
  | step :: rest =>
    let next := session.step step
    next :: run next.2 rest

end Session

end PrefixArithmetic
