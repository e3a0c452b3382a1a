import VoipBill.Lib.Session

/-!
# Database connections

`BDb::exec` (and `BDb::query`, which retries in the same way): a statement is
sent up to twice when a connection is open, once otherwise, and every failure
drops the connection, so the second attempt runs in a new session.

`BDbTransaction` only sends `BEGIN`, `COMMIT` and `ROLLBACK` through `exec`.
-/

namespace VoipBill

open Lib

/-- A connection and the database behind it. -/
structure BDb (δ : Type) extends Session δ where
  connected : Bool

/-- Whether the connection is lost during the first and the second attempt. -/
structure Drops where
  first : Bool
  again : Bool
deriving DecidableEq

namespace BDb

variable {δ ω : Type} (apply : ω → δ → Option δ)

def disconnect (db : BDb δ) : BDb δ := ⟨db.lose, false⟩

/-- One attempt: connect, send the statement, look at the result.  A connection
that is lost on the way loses the statement too. -/
def attempt (db : BDb δ) (statement : Sql ω) (dropped : Bool) : BDb δ × Bool :=
  if dropped then
    (db.disconnect, false)
  else
    match db.execute apply statement with
    | some session => (⟨session, true⟩, true)
    | none => (db.disconnect, false)

/-- The second component tells whether `exec` returns; otherwise it throws. -/
def exec (db : BDb δ) (statement : Sql ω) (drops : Drops) : BDb δ × Bool :=
  match db.attempt apply statement drops.first with
  | (db', true) => (db', true)
  | (db', false) =>
      if db.connected then db'.attempt apply statement drops.again else (db', false)

/-- Statements one after another, up to the first that throws. -/
def execAll (db : BDb δ) : List (Sql ω × Drops) → BDb δ × Bool
  | [] => (db, true)
  | (statement, drops) :: rest =>
      match db.exec apply statement drops with
      | (db', true) => db'.execAll rest
      | (db', false) => (db', false)

end BDb
end VoipBill
