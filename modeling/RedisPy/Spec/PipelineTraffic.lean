import RedisPy.Spec.PipelineScript

/-! What the sync `ClusterPipeline` transmits, and what it reads from the nodes. The operations
are those of a scripted attempt, with a record beside them of what is sent and of the replies that
are no errors. -/

namespace RedisPy

open Raising

namespace ClusterPipeline

/-- What is done about a command: it is sent, or a reply to it is read that is no error. -/
inductive Deed (α : Type) where
  | sends (p : Nat)
  | reads (p : Nat) (v : Option α)
  deriving DecidableEq, Repr

/-- The same in `execute_command`, which has one command. -/
inductive Step (α : Type) where
  | sends
  | reads (v : Option α)
  deriving DecidableEq, Repr

def Step.of {α : Type} (p : Nat) : Step α → Deed α
  | sends => .sends p
  | reads v => .reads p v

section
variable {σ ρ κ α : Type}

def noteDeeds (ds : List (Deed α)) : EStateM Exc (σ × List (Deed α)) Unit :=
  modify fun s => (s.1, s.2 ++ ds)

/-- The operations, and the record. `steps` is what `execute_command` does about a command. -/
def logging (steps : Nat → List (Step α)) (ops : Ops σ ρ κ α) : Ops (σ × List (Deed α)) ρ κ α where
  args := ops.args
  determineNodes p := first (ops.determineNodes p)
  isDefaultNode n := first (ops.isDefaultNode n)
  replaceDefaultNode := first ops.replaceDefaultNode
  initializeNodes := first ops.initializeNodes
  getRedisConnection n := first (ops.getRedisConnection n)
  getConnection r p := first (ops.getConnection r p)
  packCommands ps := first (ops.packCommands ps)
  sendPackedCommand c ps := do
    noteDeeds (ps.map .sends)
    first (ops.sendPackedCommand c ps)
  parseResponse r c p := do
    let v ← first (ops.parseResponse r c p)
    noteDeeds [.reads p v]
    return v
  release r c := first (ops.release r c)
  countRetry := first ops.countRetry
  executeCommand p := do
    noteDeeds ((steps p).map (Step.of p))
    first (ops.executeCommand p)
  callback p := (ops.callback p).map fun cb r => first (cb r)

end

/-- The error that a result is. -/
def errorOf {α : Type} : PipelineResult α → Option Exc
  | .error e => some e
  | .ok _ => none

/-- A script of the attempts, each with what `execute_command` does about the commands. -/
structure Traffic (ρ κ α : Type) where
  attempts : Nat → PipelineAttempt ρ κ α
  steps : Nat → Nat → List (Step α)

/-- `execute` with the record; what it comes to, the callbacks' record and the record. -/
def Traffic.run {ρ κ α : Type} (t : Traffic ρ κ α) (args : Nat → List String)
    (callbacks : Nat → Option (ResponseCallback α)) (cluster_error_retry_attempts n : Nat)
    (raise_on_error : Bool) :
    EStateM.Result Exc ((Applications α × List (Deed α)) × PipelineBook ρ κ α)
      (List (PipelineResult α)) :=
  (execute (fun k => logging (t.steps k) (scripted args callbacks (t.attempts k) k))
    cluster_error_retry_attempts n raise_on_error).run
    (({ attempt := cluster_error_retry_attempts }, []), {})

end ClusterPipeline

namespace PipelineAttempt

open ClusterPipeline

variable {ρ κ α : Type} (a : PipelineAttempt ρ κ α) (steps : Nat → List (Step α))
  (args : Nat → List String) (callbacks : Nat → Option (ResponseCallback α)) (n : Nat)

/-- The commands whose replies are values, up to the one with which the reading ends. -/
def readIn : List Nat → List Nat
  | [] => []
  | p :: ps =>
    match a.reply p with
    | .ok _ => p :: readIn ps
    | .error e => if isLoss e || !e.isinstance .RedisError then [] else readIn ps

/-- A connection that is lost in reading is lost before a value has been read from it. -/
def Unbroken : Prop :=
  ∀ ps ∈ a.groups args n, a.lost ps = .ok true → a.writing ps = .ok false → a.readIn ps = []

/-- `execute_command` sends nothing when it has read a value, and the value is what it ends with. -/
def Once (p : Nat) : Prop :=
  (steps p).Pairwise (fun x y => x ≠ .sends → y ≠ .sends) ∧
    ∀ v, .reads v ∈ steps p → a.executed p = .ok v

/-- No value is read in the attempt. -/
def ReadsNothing : Prop :=
  (∀ ps ∈ a.groups args n, a.writing ps = .ok false → a.readIn ps = []) ∧
    ∀ p < n, a.Retried (a.groups args n) p → ∀ v, .reads v ∉ steps p

/-- The entry of the list. -/
def listed (p : Nat) : PipelineResult α :=
  come (after (callbacks p) (a.result (callbacks p) (a.groups args n) p))

/-- The first error of the list. -/
def firstError : Option Exc :=
  (List.range n).findSome? fun p => errorOf (a.listed args callbacks n p)

/-- The attempt is followed by another, if there is one left: after an exception that has escaped
from it, or the first error of its list, which is raised. -/
def IsFollowed (raise_on_error : Bool) : Prop :=
  a.GivenUp args callbacks n ∨
    (raise_on_error = true ∧ a.ending args callbacks n = .ok () ∧
      ∃ e ∈ a.firstError args callbacks n,
        e.isinstanceAny [.ClusterDownError, .ConnectionError] = true)

/-- An attempt with `left` more to come keeps what it has read: it is not followed by another, and
the commands are not executed anew. -/
structure Spares (left : Nat) (raise_on_error : Bool) : Prop where
  followed : left ≠ 0 → a.IsFollowed args callbacks n raise_on_error → a.ReadsNothing steps args n
  unbroken : a.Unbroken args n
  once : ∀ p < n, a.Retried (a.groups args n) p → a.Once steps p

end PipelineAttempt

namespace ClusterPipeline

variable {ρ κ α : Type}

/-- After a value has been read for a command it is not sent. -/
def NotResent (log : List (Deed α)) : Prop :=
  log.Pairwise fun d d' => ∀ p v, d = .reads p v → d' ≠ .sends p

/-- What the callbacks make of a reply to a command: of one from its own node, and of one that
`execute_command` has read. -/
def Made (callback : Option (ResponseCallback α))
    (processed : PipelineResult α → Except Exc (PipelineResult α)) (v : Option α)
    (r : PipelineResult α) : Prop :=
  r = PipelineAttempt.come (PipelineAttempt.after callback (.ok v)) ∨
    r = PipelineAttempt.come (PipelineAttempt.after callback
      (PipelineAttempt.come (PipelineAttempt.decoded callback processed (.ok v))))

end ClusterPipeline

end RedisPy
