import RedisPy.Spec.ClusterPipeline

/-! What an attempt of the sync `ClusterPipeline` meets with, call by call, and what
its commands should come to. Within one attempt no call is made twice, so an outcome for
each of them says all that can happen. -/

namespace RedisPy

open Raising

/-- What comes of the operations by which the commands are grouped, and of releasing. -/
structure Routing (ρ κ : Type) where
  targets : Nat → Except Exc (List ClusterNode)
  isDefault : ClusterNode → Except Exc Bool := fun _ => .ok false
  redis : ClusterNode → Except Exc ρ
  /-- What `get_connection` returns or raises for a command. -/
  connection : Nat → Except Exc κ
  release : ρ → κ → Except Exc Unit := fun _ _ => .ok ()

/-- A node that the caller has named for a command, as `target_nodes`. Grouping takes it out of the
options, so that it is gone when the command is executed anew and in later attempts. -/
inductive NamedNode where
  | no | now | before
  deriving DecidableEq

/-- What comes of all calls of one attempt. -/
structure PipelineAttempt (ρ κ α : Type) extends Routing ρ κ where
  initialized : Except Exc Unit := .ok ()
  replaced : Except Exc Unit := .ok ()
  packed : List Nat → Except Exc Unit := fun _ => .ok ()
  sent : List Nat → Except Exc Unit := fun _ => .ok ()
  /-- What the command's own node replies. -/
  reply : Nat → Except Exc (Option α)
  counted : Except Exc Bool := .ok false
  /-- The reply with which `execute_command` of the pipeline ends, or what it raises for
  want of one. -/
  executed : Nat → Except Exc (Option α)
  named : Nat → NamedNode := fun _ => .no
  /-- The same for `execute_command` of the client, at the node that the caller has named, or
  after a `ClusterDownError`. -/
  insisted : Nat → Except Exc (Option α)
  /-- `_process_result`, through `RESULT_CALLBACKS`, of the result from one node. -/
  processed : Nat → PipelineResult α → Except Exc (PipelineResult α) := fun _ r => .ok r

/-- A function of `cluster_response_callbacks`. -/
abbrev ResponseCallback (α : Type) := PipelineResult α → Except Exc (PipelineResult α)

/-- The attempt that is under way, and what the callbacks have been applied to, by attempt
and command. -/
structure Applications (α : Type) where
  attempt : Nat
  applied : List ((Nat × Nat) × PipelineResult α) := []

namespace ClusterPipeline

variable {σ ρ κ α β : Type}

/-- Raise what the outcome raises. -/
def outcome : Except Exc β → EStateM Exc σ β
  | .ok b => return b
  | .error e => throw e

theorem outcome_run (o : Except Exc β) (s : σ × PipelineBook ρ κ α) :
    (first (outcome o) : M σ ρ κ α β).run s =
      match o with
      | .ok b => .ok b s
      | .error e => .error e s := by
  obtain ⟨w, b⟩ := s
  cases o <;> rfl

/-- The pipeline's operations, with these outcomes. -/
def Ops.routed (ops : Ops σ ρ κ α) (r : Routing ρ κ) : Ops σ ρ κ α :=
  { ops with
    determineNodes := fun p => outcome (r.targets p)
    isDefaultNode := fun n => outcome (r.isDefault n)
    getRedisConnection := fun n => outcome (r.redis n)
    getConnection := fun _ p => outcome (r.connection p)
    release := fun c p => outcome (r.release c p) }

/-- Call a callback, and note what it is applied to. -/
def call (k p : Nat) (cb : ResponseCallback α) (r : PipelineResult α) :
    EStateM Exc (Applications α) (PipelineResult α) := do
  modify fun s => { s with applied := s.applied ++ [((k, p), r)] }
  outcome (cb r)

/-- The reply of one node, through its response callback. -/
def responded (k p : Nat) (callback : Option (ResponseCallback α)) (v : Option α) :
    EStateM Exc (Applications α) (PipelineResult α) :=
  match callback with
  | some cb => call k p cb (.ok v)
  | none => return .ok v

/-- What `execute_command` does with the reply that it ends with. -/
def standalone (k p : Nat) (callback : Option (ResponseCallback α))
    (processed : PipelineResult α → Except Exc (PipelineResult α)) :
    Except Exc (Option α) → EStateM Exc (Applications α) (PipelineResult α)
  | .error e => throw e
  | .ok v => do outcome (processed (← responded k p callback v))

/-- The operations of attempt `k`, which begins when its first command is routed. -/
def scripted (args : Nat → List String) (callbacks : Nat → Option (ResponseCallback α))
    (a : PipelineAttempt ρ κ α) (k : Nat) : Ops (Applications α) ρ κ α where
  args := args
  determineNodes p := do
    modify fun s => { s with attempt := k }
    outcome (a.targets p)
  isDefaultNode n := outcome (a.isDefault n)
  replaceDefaultNode := outcome a.replaced
  initializeNodes := outcome a.initialized
  getRedisConnection n := outcome (a.redis n)
  getConnection _ p := outcome (a.connection p)
  packCommands ps := outcome (a.packed ps)
  sendPackedCommand _ ps := outcome (a.sent ps)
  parseResponse _ _ p := outcome (a.reply p)
  release r c := outcome (a.release r c)
  countRetry := outcome a.counted
  executeCommand p := standalone k p (callbacks p) (a.processed p) (a.executed p)
  callback p := (callbacks p).map (call k p)

end ClusterPipeline

namespace PipelineAttempt

open ClusterPipeline

variable {ρ κ α : Type}

/-- `except (ConnectionError, TimeoutError)` -/
def isLoss (e : Exc) : Bool := e.isinstanceAny [.ConnectionError, .TimeoutError]

/-! ### How the commands are grouped -/

def target (a : PipelineAttempt ρ κ α) (args : Nat → List String) (p : Nat) :
    Except Exc ClusterNode := do
  match ← a.targets p with
  | [] => .error (Sync.noTargets (argsRepr (args p)))
  | [node] => .ok node
  | _ => .error (tooManyTargets (argsRepr (args p)))

def released (a : PipelineAttempt ρ κ α) : List (NodeCommands ρ κ) → Except Exc Unit
  | [] => .ok ()
  | n :: ns => do
    a.release n.redis_node n.connection
    released a ns

/-- The nodes manager is initialized anew. -/
def renewed (a : PipelineAttempt ρ κ α) (is_default_node : Bool) : Except Exc Unit := do
  a.initialized
  if is_default_node then a.replaced

/-- What is done about a connection that is not to be had. -/
def refused (a : PipelineAttempt ρ κ α) (nodes : NodeDict ρ κ) (is_default_node : Bool) (e : Exc) :
    Except Exc κ := do
  if e.isinstance .ConnectionError then
    a.released nodes.items
    a.renewed is_default_node
  .error e

def connected (a : PipelineAttempt ρ κ α) (p : Nat) (node : ClusterNode) (nodes : NodeDict ρ κ)
    (is_default_node : Bool) : Except Exc (NodeCommands ρ κ) := do
  let redis_node ← a.redis node
  let c ← tryCatch (a.connection p) (a.refused nodes is_default_node)
  return { node_name := node.name, redis_node := redis_node, connection := c }

def entry (a : PipelineAttempt ρ κ α) (p : Nat) (node : ClusterNode) (nodes : NodeDict ρ κ)
    (is_default_node : Bool) : Except Exc (NodeCommands ρ κ) :=
  match nodes.get? node.name with
  | some n => .ok n
  | none => a.connected p node nodes is_default_node

def grouped (a : PipelineAttempt ρ κ α) (args : Nat → List String) :
    List Nat → NodeDict ρ κ → Bool → Except Exc (NodeDict ρ κ × Bool)
  | [], nodes, is_default_node => .ok (nodes, is_default_node)
  | p :: ps, nodes, is_default_node => do
    let node ← a.target args p
    let is_default ← a.isDefault node
    let n ← a.entry p node nodes (is_default_node || is_default)
    grouped a args ps (nodes.put { n with commands := n.commands ++ [p] })
      (is_default_node || is_default)

/-- The commands of each node. -/
def groups (a : PipelineAttempt ρ κ α) (args : Nat → List String) (n : Nat) : List (List Nat) :=
  match a.grouped args (List.range n) ∅ false with
  | .ok (nodes, _) => nodes.items.map NodeCommands.commands
  | .error _ => []

/-! ### What becomes of the connections -/

/-- Whether the connection is lost in sending the commands. -/
def writing (a : PipelineAttempt ρ κ α) (ps : List Nat) : Except Exc Bool :=
  match (do a.packed ps; a.sent ps) with
  | .ok _ => .ok false
  | .error e => if isLoss e then .ok true else .error e

/-- Whether the connection is lost in reading the replies. -/
def reading (a : PipelineAttempt ρ κ α) : List Nat → Except Exc Bool
  | [] => .ok false
  | p :: ps =>
    match a.reply p with
    | .ok _ => reading a ps
    | .error e =>
      if isLoss e then .ok true
      else if e.isinstance .RedisError then reading a ps
      else .error e

/-- Whether the connection of these commands is lost. -/
def lost (a : PipelineAttempt ρ κ α) (ps : List Nat) : Except Exc Bool := do
  if ← a.writing ps then .ok true else a.reading ps

def served (a : PipelineAttempt ρ κ α) (ns : List (NodeCommands ρ κ)) : Except Exc Unit := do
  ns.forM fun n => (a.writing n.commands).map fun _ => ()
  ns.forM fun n => (a.lost n.commands).map fun _ => ()

/-- An exception of the clean-up is the one that is raised. -/
def exchanged (a : PipelineAttempt ρ κ α) (ns : List (NodeCommands ρ κ)) : Except Exc Unit :=
  match a.released ns with
  | .error e => .error e
  | .ok _ => a.served ns

/-! ### What becomes of the commands -/

/-- The command is executed anew: the connection of its node was lost, or its reply is an
error of `ERRORS_ALLOW_RETRY`. -/
def Retried (a : PipelineAttempt ρ κ α) (groups : List (List Nat)) (p : Nat) : Prop :=
  (∃ ps ∈ groups, p ∈ ps ∧ a.lost ps = .ok true) ∨ allowsRetry (a.reply p) = true

instance (a : PipelineAttempt ρ κ α) (groups : List (List Nat)) (p : Nat) :
    Decidable (a.Retried groups p) :=
  inferInstanceAs (Decidable (_ ∨ _))

/-- What the callback returns for a result. -/
def after (callback : Option (ResponseCallback α)) (r : PipelineResult α) :
    Except Exc (PipelineResult α) :=
  match callback with
  | some cb => cb r
  | none => .ok r

/-- What `execute_command` returns or raises, given the reply that it ends with. -/
def decoded (callback : Option (ResponseCallback α))
    (processed : PipelineResult α → Except Exc (PipelineResult α)) :
    Except Exc (Option α) → Except Exc (PipelineResult α)
  | .error e => .error e
  | .ok v => (after callback (.ok v)).bind processed

/-- The value returned, or the exception raised, by a call. -/
def come : Except Exc (PipelineResult α) → PipelineResult α
  | .error e => .error e
  | .ok r => r

/-- The result of the command before the callbacks. -/
def result (a : PipelineAttempt ρ κ α) (callback : Option (ResponseCallback α))
    (groups : List (List Nat)) (p : Nat) : PipelineResult α :=
  if a.Retried groups p then come (decoded callback (a.processed p) (a.executed p)) else a.reply p

def again (a : PipelineAttempt ρ κ α) (groups : List (List Nat)) (n : Nat) : List Nat :=
  (List.range n).filter fun p => a.Retried groups p

/-- What `execute_command` raises, where it is not kept as a result. -/
def reexecuted (a : PipelineAttempt ρ κ α) (callback : Option (ResponseCallback α)) (p : Nat) :
    Except Exc Unit :=
  match decoded callback (a.processed p) (a.executed p) with
  | .ok _ => .ok ()
  | .error e => if e.isinstance .RedisError then .ok () else .error e

/-- The slots are looked up anew, if it is time. -/
def refreshed (a : PipelineAttempt ρ κ α) (is_default_node : Bool) : Except Exc Unit := do
  if ← a.counted then a.renewed is_default_node

/-- The second attempt, if there is any. -/
def retrying (a : PipelineAttempt ρ κ α) (callbacks : Nat → Option (ResponseCallback α))
    (groups : List (List Nat)) (n : Nat) (is_default_node : Bool) : Except Exc Unit :=
  if a.again groups n = [] then .ok ()
  else do
    a.refreshed is_default_node
    (a.again groups n).forM fun p => a.reexecuted (callbacks p) p

/-- How the attempt ends: well, or with the exception that escapes from it. -/
def ending (a : PipelineAttempt ρ κ α) (args : Nat → List String)
    (callbacks : Nat → Option (ResponseCallback α)) (n : Nat) : Except Exc Unit := do
  let (nodes, is_default_node) ← a.grouped args (List.range n) ∅ false
  a.exchanged nodes.items
  let groups := nodes.items.map NodeCommands.commands
  a.retrying callbacks groups n is_default_node
  (List.range n).forM fun p =>
    (after (callbacks p) (a.result (callbacks p) groups p)).map fun _ => ()

/-! ### What the commands should come to -/

/-- The client tries again where the pipeline, whose `ERRORS_ALLOW_RETRY` is another, gives up. -/
def triesAgain : Except Exc (Option α) → Bool
  | .error e => e.cls = .ClusterDownError
  | .ok _ => false

/-- The reply by which the pipeline goes. -/
def final (a : PipelineAttempt ρ κ α) (groups : List (List Nat)) (p : Nat) :
    Except Exc (Option α) :=
  if a.Retried groups p then a.executed p else a.reply p

/-- The client executes the command otherwise than the pipeline: at the node that the caller has
named, which the pipeline has dropped by then, or again, where the pipeline gives up. -/
def Elsewhere (a : PipelineAttempt ρ κ α) (groups : List (List Nat)) (p : Nat) : Prop :=
  a.named p = .before ∨ (a.named p = .now ∧ a.Retried groups p) ∨
    (a.named p = .no ∧ triesAgain (a.final groups p) = true)

instance (a : PipelineAttempt ρ κ α) (groups : List (List Nat)) (p : Nat) :
    Decidable (a.Elsewhere groups p) :=
  inferInstanceAs (Decidable (_ ∨ _))

/-- The reply with which `execute_command` of the client ends. -/
def answer (a : PipelineAttempt ρ κ α) (groups : List (List Nat)) (p : Nat) :
    Except Exc (Option α) :=
  if a.Elsewhere groups p then a.insisted p else a.final groups p

/-- What a callback is to be applied to: a reply once, an exception never. -/
def due (callback : Option (ResponseCallback α)) : Except Exc (Option α) → List (PipelineResult α)
  | .ok v => if callback.isSome then [.ok v] else []
  | .error _ => []

/-- A command with a callback has a reply, which is a value, from its own node, and what the
callback returns for it is what `execute_command` returns. For a command without one it makes no
difference whether the client executes it otherwise, or else the reply of its own node is what
`execute_command` returns. -/
def Plain (a : PipelineAttempt ρ κ α) (callback : Option (ResponseCallback α))
    (groups : List (List Nat)) (p : Nat) : Prop :=
  match callback with
  | some cb =>
    ¬ a.Retried groups p ∧ ∃ v, a.reply p = .ok v ∧ (a.named p = .before → a.insisted p = .ok v) ∧
      ∀ r, cb (.ok v) = .ok r → come (a.processed p r) = r
  | none =>
    (a.Elsewhere groups p → come (decoded none (a.processed p) (a.insisted p)) = a.result none groups p) ∧
      (¬ a.Elsewhere groups p → ¬ a.Retried groups p →
        ∀ v, a.reply p = .ok v → come (a.processed p (.ok v)) = .ok v)

/-- No exception escapes from the attempt, and its commands are plain. -/
def Clean (a : PipelineAttempt ρ κ α) (args : Nat → List String)
    (callbacks : Nat → Option (ResponseCallback α)) (n : Nat) : Prop :=
  a.ending args callbacks n = .ok () ∧ ∀ p < n, a.Plain (callbacks p) (a.groups args n) p

/-- The attempt ends with an exception after which the pipeline makes another. -/
def GivenUp (a : PipelineAttempt ρ κ α) (args : Nat → List String)
    (callbacks : Nat → Option (ResponseCallback α)) (n : Nat) : Prop :=
  ∃ e : Exc, a.ending args callbacks n = .error e ∧
    e.isinstanceAny [.ClusterDownError, .ConnectionError] = true

end PipelineAttempt

end RedisPy
