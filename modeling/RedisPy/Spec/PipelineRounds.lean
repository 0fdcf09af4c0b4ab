import RedisPy.Spec.ClusterExecute

/-! The retry loops around a round of a cluster pipeline: `ClusterPipeline.execute` of
`redis/asyncio/cluster.py` and `send_cluster_commands` of `redis/cluster.py`. What each round
comes to is given from outside; a run is told by what it returns or raises and by how many
rounds it has performed. -/

namespace RedisPy

namespace PipelineRounds

/-- What a round meets, in either client. -/
structure Round (R : Type) where
  /-- `await self._client.initialize()`, where it is called. -/
  initializes : Except Exc Unit := .ok ()
  /-- `_execute`, `_send_cluster_commands` -/
  executes : Except Exc R
  /-- `await self._client.aclose()` and the sleep, where they are reached. -/
  closes : Except Exc Unit := .ok ()

variable {R : Type}

/-- The outcome of a round. -/
def Round.outcome (r : Round R) : Except Exc R := r.initializes >>= fun _ => r.executes

/-- The end of the loop: `raise exception`, a variable that only a failed round assigns. -/
def raiseLast : Option Exc → Exc
  | some exception => exception
  | none => { cls := .UnboundLocalError, msg := "local variable 'exception' referenced before assignment" }

/-- The loop of `execute` of `redis/asyncio/cluster.py`, with the rounds left of
`range(cluster_error_retry_attempts)`. -/
def asyncLoop (rounds : Nat → Round R) (exception : Option Exc) (performed : Nat) :
    Nat → Except Exc R × Nat
  | 0 => (.error (raiseLast exception), performed)
  | left + 1 =>
    match (rounds performed).initializes with
    | .error e => (.error e, performed + 1)
    | .ok () =>
      match (rounds performed).executes with
      | .ok results => (.ok results, performed + 1)
      | .error e =>
        if e.cls ∈ ERRORS_ALLOW_RETRY then
          match (rounds performed).closes with
          | .error e' => (.error e', performed + 1)
          | .ok () => asyncLoop rounds (some e) (performed + 1) left
        else (.error e, performed + 1)

/-- `execute` of a stack that is not empty. -/
def asyncExecute (cluster_error_retry_attempts : Nat) (rounds : Nat → Round R) :
    Except Exc R × Nat :=
  asyncLoop rounds none 0 cluster_error_retry_attempts

/-- The exceptions that `send_cluster_commands` catches. -/
def caught (e : Exc) : Bool := e.isinstanceAny [.ClusterDownError, .ConnectionError]

/-- The loop of `send_cluster_commands`. -/
def syncLoop (rounds : Nat → Round R) (performed : Nat) : (retry_attempts : Nat) → Except Exc R × Nat
  | 0 => ((rounds performed).outcome, performed + 1)
  | left + 1 =>
    match (rounds performed).outcome with
    | .ok results => (.ok results, performed + 1)
    | .error e =>
      if caught e then syncLoop rounds (performed + 1) left else (.error e, performed + 1)

/-- `send_cluster_commands` of a stack that is not empty. -/
def syncSend (cluster_error_retry_attempts : Nat) (rounds : Nat → Round R) : Except Exc R × Nat :=
  syncLoop rounds 0 cluster_error_retry_attempts

end PipelineRounds

end RedisPy
