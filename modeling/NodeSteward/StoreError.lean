/-!
# Failures of a store

A store refuses a write that would break a uniqueness rule, or fails in some other way.  That a
record does not exist is no failure of a reading call: such a call answers that there is none.
-/

namespace NodeSteward

/-- Why a store did not do what it was asked. -/
inductive StoreError where
  /-- A uniqueness rule rejected the write. -/
  | constraintViolation (operation details : String)
  /-- Any other failure. -/
  | storageFailure (operation details : String)
  deriving DecidableEq, Repr

namespace StoreError

def message : StoreError → String
  | .constraintViolation operation details =>
    operation ++ ": constraint violation: " ++ details
  | .storageFailure operation details => operation ++ ": storage failure: " ++ details

/-- True when a uniqueness rule rejected the write. -/
def isConstraintViolation : StoreError → Bool
  | .constraintViolation _ _ => true
  | .storageFailure _ _ => false

/-- The failure of a write that names a record which does not exist. -/
def missingRow (operation idText : String) : StoreError :=
  .storageFailure operation ("no row with id " ++ idText)

/-- The failure that is arranged on purpose, to see how callers cope with it. -/
def injected (operation : String) : StoreError :=
  .storageFailure operation "injected failure"

end StoreError

end NodeSteward
