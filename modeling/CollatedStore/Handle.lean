/-!
How calls name what they work on: transactions and cursors by handles, databases by numbers, and
the two orders of a database by their roles.
-/
namespace CollatedStore

abbrev Handle := Nat

/-- The number of a database in its environment. -/
abbrev Dbi := Nat

/-- Which of a database's two orders. -/
inductive Role where
  | keys
  | values
  deriving DecidableEq, Repr

end CollatedStore
