import RedisPy.Spec.OptimisticTransactions
import Mathlib.Data.List.Nodup
import Mathlib.Logic.Function.Iterate

/-! Calls of `transaction` that interleave with each other and with any writes come to the same
as calls that run one after another, each in a single step, unless a connection is exchanged
behind a WATCH. A call is such a step once, unless the reply to an EXEC is lost. -/

namespace RedisPy

namespace OptimisticTransactions

open Optimistic

variable {calls : Nat → Call} {s : State} {store : Key → Value}

/-- Every call that has returned has been applied once, and no other call has. -/
def Settled (s : State) : Prop :=
  ∀ i, s.log.count (.transacted i) = if (s.tasks i).phase.isReturned then 1 else 0

/-- The calls whose writes have been made, one after another. -/
def applied (deeds : List Deed) : List Nat := deeds.filterMap fun
  | .transacted i => some i
  | .written _ => none

/-- The calls that have returned, among the first `n`. -/
def State.returned (s : State) (n : Nat) : List Nat := (List.range n).filter fun i => (s.tasks i).phase.isReturned

end OptimisticTransactions

end RedisPy
