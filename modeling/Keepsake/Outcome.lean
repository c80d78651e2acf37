import Keepsake.Failure
/-!
# Outcomes

An operation answers, fails, or is stopped by a panic. An `Attempt` is an operation on a variable.
-/

namespace Keepsake

/-- What an operation comes to. -/
inductive Outcome (ε α : Type) where
  | ok (a : α)
  | fail (e : ε)
  | panic (p : Panic)
deriving DecidableEq

namespace Outcome

variable {ε α β : Type}

/-- Changes the answer. -/
def map (f : α → β) : Outcome ε α → Outcome ε β
  | ok a => ok (f a)
  | fail e => fail e
  | panic p => panic p

/-- An answer or a failure as an outcome. -/
def ofExcept : Except ε α → Outcome ε α
  | .ok a => ok a
  | .error e => fail e

end Outcome

/-- What reading or writing a variable comes to. -/
abbrev Attempt (α : Type) := Outcome AccessFailure α

end Keepsake
