import EventHorizon.Canonical.Access

/-!
# The adapter contract

The states of a transaction and the results of the three phases, as every adapter reports them.
-/

namespace EventHorizon.Adapters

/-- `TransactionState`. -/
inductive TransactionState
  | pending
  | prepared
  | committed
  | aborted
  | failed
  | indeterminate
  deriving DecidableEq, Repr

/-- `PrepareResult`. -/
structure PrepareResult where
  transactionId : PyStr
  success : Bool
  error : Option PyStr
  metadata : Option PyValue

/-- `CommitResult`. -/
structure CommitResult where
  transactionId : PyStr
  success : Bool
  error : Option PyStr
  externalId : Option PyStr

/-- `AbortResult`. -/
structure AbortResult where
  transactionId : PyStr
  success : Bool
  error : Option PyStr

end EventHorizon.Adapters
