import RedisPy.Library.Keyed
import RedisPy.Library.Lease
import RedisPy.Spec.ClusterExecute

/-! The sync `ClusterPipeline` (`redis/cluster.py`). As `_execute_command` it is
written over what it calls, on a state of any type; beside that state stand the
results of the commands and what has been done with connections. The commands are
numbered by their `position`, which is their place on the stack, so that sorting
by position changes nothing. -/

namespace RedisPy

open Raising

/-- What `PipelineCommand.result` holds: an exception object, or a value, where
`none` is `None`, be it a reply or no reply yet. -/
abbrev PipelineResult (α : Type) := Except Exc (Option α)

/-- The commands' results, and the connections that were obtained and released. -/
structure PipelineBook (ρ κ α : Type) where
  results : Nat → PipelineResult α := fun _ => .ok none
  leases : List (Lease.Event κ ρ) := []

namespace ClusterPipeline

def ERRORS_ALLOW_RETRY : List ExcClass :=
  [.ConnectionError, .TimeoutError, .MovedError, .AskError, .TryAgainError]

/-- What the pipeline calls and reads; `p` is a command. -/
structure Ops (σ ρ κ α : Type) where
  /-- `c.args`, each through `safe_str`. -/
  args : Nat → List String
  /-- The nodes that the caller named for the command, or `_determine_nodes(*c.args)`. -/
  determineNodes : (p : Nat) → EStateM Exc σ (List ClusterNode)
  /-- `node == self.get_default_node()` -/
  isDefaultNode : ClusterNode → EStateM Exc σ Bool
  replaceDefaultNode : EStateM Exc σ Unit
  initializeNodes : EStateM Exc σ Unit
  getRedisConnection : ClusterNode → EStateM Exc σ ρ
  /-- `get_connection(redis_node, c.args)` -/
  getConnection : ρ → (p : Nat) → EStateM Exc σ κ
  /-- `connection.pack_commands(...)` -/
  packCommands : List Nat → EStateM Exc σ Unit
  sendPackedCommand : κ → List Nat → EStateM Exc σ Unit
  parseResponse : ρ → κ → (p : Nat) → EStateM Exc σ (Option α)
  /-- `connection_pool.release(connection)` -/
  release : ρ → κ → EStateM Exc σ Unit
  /-- `self.reinitialize_counter += 1` and `_should_reinitialized()`. -/
  countRetry : EStateM Exc σ Bool
  /-- `super().execute_command(*c.args, **c.options)` -/
  executeCommand : (p : Nat) → EStateM Exc σ (PipelineResult α)
  /-- `cluster_response_callbacks.get(c.args[0])`, which may return an exception object. -/
  callback : (p : Nat) → Option (PipelineResult α → EStateM Exc σ (PipelineResult α))

section
variable {σ ρ κ α β : Type}

abbrev M (σ ρ κ α β : Type) := EStateM Exc (σ × PipelineBook ρ κ α) β

def note (e : Lease.Event κ ρ) : M σ ρ κ α Unit :=
  modify fun s => (s.1, { s.2 with leases := s.2.leases ++ [e] })

/-- `c.result = r` for each of the commands. -/
def setResults (ps : List Nat) (r : PipelineResult α) : M σ ρ κ α Unit :=
  modify fun s => (s.1, { s.2 with results := fun p => if p ∈ ps then r else s.2.results p })

/-- `c.result = r` -/
def setResult (p : Nat) (r : PipelineResult α) : M σ ρ κ α Unit := setResults [p] r

def getResult (p : Nat) : M σ ρ κ α (PipelineResult α) := do return (← get).2.results p

/-! ### The commands by node -/

/-- `NodeCommands`, less its methods. -/
structure NodeCommands (ρ κ : Type) where
  node_name : String
  redis_node : ρ
  connection : κ
  commands : List Nat := []

/-- The dictionary `nodes`, from names to `NodeCommands`. -/
abbrev NodeDict (ρ κ : Type) := Keyed (NodeCommands.node_name : NodeCommands ρ κ → String)

/-- `n.connection_pool.release(n.connection)` for each of them. -/
def releaseAll (ops : Ops σ ρ κ α) : List (NodeCommands ρ κ) → M σ ρ κ α Unit
  | [] => return ()
  | n :: ns => do
    note (.released n.connection n.redis_node)
    first (ops.release n.redis_node n.connection)
    releaseAll ops ns

/-- How the arguments are printed. -/
def argsRepr (args : List String) : String :=
  "(" ++ ", ".intercalate (args.map fun a => "'" ++ a ++ "'") ++ ")"

/-- `f"Too many targets for command {c.args}"` -/
def tooManyTargets (args : String) : Exc where
  cls := .RedisClusterException
  msg := "Too many targets for command " ++ args

/-- The node of the command. -/
def targetNode (ops : Ops σ ρ κ α) (p : Nat) : M σ ρ κ α ClusterNode := do
  match ← first (ops.determineNodes p) with
  | [] => throw (Sync.noTargets (argsRepr (ops.args p)))
  | [node] => return node
  | _ => throw (tooManyTargets (argsRepr (ops.args p)))

/-- A connection to a node that has none yet. -/
def connectNode (ops : Ops σ ρ κ α) (p : Nat) (node : ClusterNode) (nodes : NodeDict ρ κ)
    (is_default_node : Bool) : M σ ρ κ α (NodeCommands ρ κ) := do
  let redis_node ← first (ops.getRedisConnection node)
  let connection ← tryCatch (first (ops.getConnection redis_node p)) (fun e => do
    if e.isinstance .ConnectionError then
      releaseAll ops nodes.items
      first ops.initializeNodes
      if is_default_node then first ops.replaceDefaultNode
    throw e)
  note (.obtained connection redis_node)
  return { node_name := node.name, redis_node := redis_node, connection := connection }

/-- The entry of the node, which is made where there is none. -/
def nodeCommands (ops : Ops σ ρ κ α) (p : Nat) (node : ClusterNode) (nodes : NodeDict ρ κ)
    (is_default_node : Bool) : M σ ρ κ α (NodeCommands ρ κ) :=
  match nodes.get? node.name with
  | some n => return n
  | none => connectNode ops p node nodes is_default_node

/-- The `for c in attempt` loop: the commands by node, and whether the default node is one. -/
def groupCommands (ops : Ops σ ρ κ α) : List Nat → NodeDict ρ κ → (is_default_node : Bool) →
    M σ ρ κ α (NodeDict ρ κ × Bool)
  | [], nodes, is_default_node => return (nodes, is_default_node)
  | p :: ps, nodes, is_default_node => do
    let node ← targetNode ops p
    let is_default ← first (ops.isDefaultNode node)
    let n ← nodeCommands ops p node nodes (is_default_node || is_default)
    groupCommands ops ps (nodes.put { n with commands := n.commands ++ [p] })
      (is_default_node || is_default)

def NodeCommands.write (ops : Ops σ ρ κ α) (n : NodeCommands ρ κ) : M σ ρ κ α Unit := do
  setResults n.commands (.ok none)
  tryCatch
    (do
      first (ops.packCommands n.commands)
      first (ops.sendPackedCommand n.connection n.commands))
    (fun e => do
      if e.isinstanceAny [.ConnectionError, .TimeoutError] then setResults n.commands (.error e)
      else throw e)

/-- The `except` arms of `NodeCommands.read`, and whether its loop goes on. -/
def NodeCommands.failed (n : NodeCommands ρ κ) (p : Nat) (e : Exc) : M σ ρ κ α Bool := do
  if e.isinstanceAny [.ConnectionError, .TimeoutError] then
    setResults n.commands (.error e)
    return false
  else if e.isinstance .RedisError then
    setResult p (.error e)
    return true
  else throw e

/-- One command of `NodeCommands.read`: whether the loop goes on. -/
def NodeCommands.readOne (ops : Ops σ ρ κ α) (n : NodeCommands ρ κ) (p : Nat) : M σ ρ κ α Bool := do
  match ← getResult p with
  | .ok none =>
    tryCatch
      (do
        setResult p (.ok (← first (ops.parseResponse n.redis_node n.connection p)))
        return true)
      (n.failed p)
  | _ => return true

/-- The loop of `NodeCommands.read`. -/
def NodeCommands.readFrom (ops : Ops σ ρ κ α) (n : NodeCommands ρ κ) : List Nat → M σ ρ κ α Unit
  | [] => return ()
  | p :: ps => do
    if ← n.readOne ops p then n.readFrom ops ps

def NodeCommands.read (ops : Ops σ ρ κ α) (n : NodeCommands ρ κ) : M σ ρ κ α Unit :=
  n.readFrom ops n.commands

def writeAll (ops : Ops σ ρ κ α) : List (NodeCommands ρ κ) → M σ ρ κ α Unit
  | [] => return ()
  | n :: ns => do
    n.write ops
    writeAll ops ns

def readAll (ops : Ops σ ρ κ α) : List (NodeCommands ρ κ) → M σ ρ κ α Unit
  | [] => return ()
  | n :: ns => do
    n.read ops
    readAll ops ns

/-- All requests go out before the first reply is read. -/
def exchange (ops : Ops σ ρ κ α) (nodes : List (NodeCommands ρ κ)) : M σ ρ κ α Unit :=
  tryFinally
    (do
      writeAll ops nodes
      readAll ops nodes)
    (releaseAll ops nodes)

/-! ### The whole pipeline -/

/-- `isinstance(c.result, ClusterPipeline.ERRORS_ALLOW_RETRY)` -/
def allowsRetry : PipelineResult α → Bool
  | .error e => e.isinstanceAny ERRORS_ALLOW_RETRY
  | .ok _ => false

/-- One command of the second attempt. -/
def retryCommand (ops : Ops σ ρ κ α) (p : Nat) : M σ ρ κ α Unit :=
  tryCatch
    (do setResult p (← first (ops.executeCommand p)))
    (fun e => do
      if e.isinstance .RedisError then setResult p (.error e) else throw e)

def retryAll (ops : Ops σ ρ κ α) : List Nat → M σ ρ κ α Unit
  | [] => return ()
  | p :: ps => do
    retryCommand ops p
    retryAll ops ps

/-- The slots are looked up anew, if it is time. -/
def refresh (ops : Ops σ ρ κ α) (is_default_node : Bool) : M σ ρ κ α Unit := do
  if ← first ops.countRetry then
    first ops.initializeNodes
    if is_default_node then first ops.replaceDefaultNode

/-- The second attempt, command by command. -/
def retryCommands (ops : Ops σ ρ κ α) (stack : List Nat) (is_default_node : Bool) :
    M σ ρ κ α Unit := do
  let results := (← get).2.results
  let attempt := stack.filter fun p => allowsRetry (results p)
  if attempt ≠ [] then
    refresh ops is_default_node
    retryAll ops attempt

/-- The command's result goes through its callback, if it has one. -/
def applyCallback (ops : Ops σ ρ κ α) (p : Nat) : M σ ρ κ α Unit := do
  match ops.callback p with
  | some cb => setResult p (← first (cb (← getResult p)))
  | none => return ()

/-- The response list, through `cluster_response_callbacks`. -/
def buildResponse (ops : Ops σ ρ κ α) : List Nat → M σ ρ κ α (List (PipelineResult α))
  | [] => return []
  | p :: ps => do
    applyCallback ops p
    let r ← getResult p
    let rs ← buildResponse ops ps
    return r :: rs

/-- `annotate_exception`, as the exception is raised. -/
def annotated (ops : Ops σ ρ κ α) (p : Nat) (e : Exc) : Exc :=
  { e with
    msg := "Command # " ++ toString (p + 1) ++ " (" ++ " ".intercalate (ops.args p) ++
      ") of pipeline caused error: " ++ e.msg }

def raiseFirstError (ops : Ops σ ρ κ α) : List Nat → M σ ρ κ α Unit
  | [] => return ()
  | p :: ps => do
    match ← getResult p with
    | .error e => throw (annotated ops p e)
    | .ok _ => raiseFirstError ops ps

/-- The response list, or the first error that is in it. -/
def respond (ops : Ops σ ρ κ α) (stack : List Nat) (raise_on_error : Bool) :
    M σ ρ κ α (List (PipelineResult α)) := do
  let response ← buildResponse ops stack
  if raise_on_error then raiseFirstError ops stack
  return response

/-- `_send_cluster_commands`, with redirections allowed. -/
def _sendClusterCommands (ops : Ops σ ρ κ α) (stack : List Nat) (raise_on_error : Bool) :
    M σ ρ κ α (List (PipelineResult α)) := do
  let (nodes, is_default_node) ← groupCommands ops stack ∅ false
  exchange ops nodes.items
  retryCommands ops stack is_default_node
  respond ops stack raise_on_error

/-- The loop of `send_cluster_commands`. What is called need not be the same in each
attempt: it may depend on how many attempts are left. -/
def sendAttempts (ops : Nat → Ops σ ρ κ α) (stack : List Nat) (raise_on_error : Bool) :
    (retry_attempts : Nat) → M σ ρ κ α (List (PipelineResult α))
  | 0 => _sendClusterCommands (ops 0) stack raise_on_error
  | retry_attempts + 1 =>
    tryCatch (_sendClusterCommands (ops (retry_attempts + 1)) stack raise_on_error) (fun e => do
      if e.isinstanceAny [.ClusterDownError, .ConnectionError] then
        sendAttempts ops stack raise_on_error retry_attempts
      else throw e)

/-- `execute` of a stack of `n` commands. -/
def execute (ops : Nat → Ops σ ρ κ α) (cluster_error_retry_attempts n : Nat)
    (raise_on_error : Bool) : M σ ρ κ α (List (PipelineResult α)) :=
  if n = 0 then return []
  else sendAttempts ops (List.range n) raise_on_error cluster_error_retry_attempts

end

end ClusterPipeline

end RedisPy
