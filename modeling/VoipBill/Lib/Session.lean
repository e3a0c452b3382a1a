import Mathlib.Tactic

/-!
# Sessions of a transactional store

A session executes statements against a durable state.  Outside of a
transaction every statement takes effect at once; inside, it works on a copy
that `COMMIT` makes durable and `ROLLBACK`, or the loss of the session, throws
away.  A statement whose work is not possible is an SQL error.
-/

namespace VoipBill
namespace Lib

/-- Statements over work of type `ω`. -/
inductive Sql (ω : Type) where
  | begin
  | commit
  | rollback
  | work (w : ω)
deriving DecidableEq

/-- The durable state and the working copy of the open transaction. -/
structure Session (δ : Type) where
  durable : δ
  working : Option δ
deriving DecidableEq

namespace Session

variable {δ ω : Type} (apply : ω → δ → Option δ)

/-- Execute a statement; `BEGIN` inside and `COMMIT` or `ROLLBACK` outside of a
transaction only warn. -/
def execute (s : Session δ) : Sql ω → Option (Session δ)
  | .begin => some { s with working := some (s.working.getD s.durable) }
  | .commit => some { durable := s.working.getD s.durable, working := none }
  | .rollback => some { s with working := none }
  | .work w =>
      match s.working with
      | some state => (apply w state).map fun state' => { s with working := some state' }
      | none => (apply w s.durable).map fun state' => { s with durable := state' }

/-- The session is lost and with it the open transaction. -/
def lose (s : Session δ) : Session δ := { s with working := none }

end Session
end Lib
end VoipBill
