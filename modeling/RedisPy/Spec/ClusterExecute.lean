import RedisPy.Library.Raising
import RedisPy.Spec.NodesManager

/-! `RedisCluster._execute_command` and the loop around it, for the sync client
(`redis/cluster.py`) and the asyncio one (`redis/asyncio/cluster.py`). The code is
written over what it calls: a record of operations on a state of any type, so
that the same text runs against a script of outcomes and against a cluster. The
sleeps of the retry loop are left out. -/

namespace RedisPy

open Raising

def RedisClusterRequestTTL : Nat := 16

/-- `RedisCluster.ERRORS_ALLOW_RETRY`, compared with the exact type. -/
def ERRORS_ALLOW_RETRY : List ExcClass := [.ConnectionError, .TimeoutError, .ClusterDownError]

/-- What is sent on a connection for one attempt. -/
inductive Sent where
  | ASKING | command
  deriving DecidableEq, Repr

/-- What `_execute_command` calls on the client and its nodes manager. -/
structure ClientOps (σ : Type) where
  /-- The environment moves on to the next attempt. -/
  attempt : EStateM Exc σ Unit
  /-- `get_node(node_name=...)` -/
  getNode : String → EStateM Exc σ (Option ClusterNode)
  determineSlot : EStateM Exc σ Int
  getNodeFromSlot : Int → EStateM Exc σ ClusterNode
  /-- `nodes_manager.startup_nodes.pop(target_node.name, None)` -/
  popStartupNode : String → EStateM Exc σ Unit
  /-- `self.reinitialize_counter += 1` and whether a re-initialisation is due. -/
  countMoved : EStateM Exc σ Bool
  /-- `self.reinitialize_counter = 0` -/
  resetCounter : EStateM Exc σ Unit
  /-- `nodes_manager._moved_exception = e` -/
  updateMovedException : Exc → EStateM Exc σ Unit

namespace Sync

/-- What the sync `_execute_command` calls besides; `ρ` are the `Redis` clients of
the nodes, each with its pool, and `κ` the connections. -/
structure Ops (σ ρ κ α : Type) extends ClientOps σ where
  getRedisConnection : ClusterNode → EStateM Exc σ ρ
  /-- `get_connection(redis_node)`, from the client's pool. -/
  getConnection : ρ → EStateM Exc σ κ
  sendCommand : κ → Sent → EStateM Exc σ Unit
  parseResponse : ρ → κ → Sent → EStateM Exc σ α
  /-- `cluster_response_callbacks[command]`, where there is one. -/
  callback : α → EStateM Exc σ α
  disconnect : κ → EStateM Exc σ Unit
  /-- `target_node.redis_connection = None` -/
  forgetConnection : ClusterNode → EStateM Exc σ Unit
  initializeNodes : EStateM Exc σ Unit
  /-- `redis_node.connection_pool.release(connection)` -/
  release : ρ → κ → EStateM Exc σ Unit

/-- The local variables of `_execute_command`, which outlive an attempt. -/
structure Locals (ρ κ : Type) where
  target_node : Option ClusterNode
  redis_node : Option ρ := none
  connection : Option κ := none
  redirect_addr : String := ""
  asking : Bool := false
  moved : Bool := false

section
variable {σ ρ κ α : Type}

abbrev Call (σ ρ κ α : Type) := EStateM Exc (σ × Locals ρ κ) α

def locals : Call σ ρ κ (Locals ρ κ) := do return (← get).2

def setLocals (f : Locals ρ κ → Locals ρ κ) : Call σ ρ κ Unit := modify fun s => (s.1, f s.2)

/-- The node of this attempt. -/
def findTarget (ops : Ops σ ρ κ α) : Call σ ρ κ Unit := do
  let l ← locals
  if l.asking then
    let target_node ← first (ops.getNode l.redirect_addr)
    setLocals fun l => { l with target_node := target_node }
  else if l.moved then
    let slot ← first ops.determineSlot
    let target_node ← first (ops.getNodeFromSlot slot)
    setLocals fun l => { l with target_node := some target_node, moved := false }

/-- An attribute of a name that is `None`. -/
def noneAttribute (attr : String) : Exc :=
  { cls := .AttributeError, msg := "'NoneType' object has no attribute '" ++ attr ++ "'" }

/-- The part of the `try` block that ends with a connection. -/
def acquire (ops : Ops σ ρ κ α) : Call σ ρ κ (ρ × κ) := do
  findTarget ops
  match (← locals).target_node with
  | none => throw (noneAttribute "redis_connection")
  | some target_node =>
    let redis_node ← first (ops.getRedisConnection target_node)
    setLocals fun l => { l with redis_node := some redis_node }
    let connection ← first (ops.getConnection redis_node)
    setLocals fun l => { l with connection := some connection }
    return (redis_node, connection)

/-- The part of the `try` block that talks to the node. -/
def converse (ops : Ops σ ρ κ α) (redis_node : ρ) (connection : κ) : Call σ ρ κ α := do
  if (← locals).asking then
    first (ops.sendCommand connection .ASKING)
    let _ ← first (ops.parseResponse redis_node connection .ASKING)
    setLocals fun l => { l with asking := false }
  first (ops.sendCommand connection .command)
  let response ← first (ops.parseResponse redis_node connection .command)
  first (ops.callback response)

def disconnect (ops : Ops σ ρ κ α) : Call σ ρ κ Unit := do
  match (← locals).connection with
  | some connection => first (ops.disconnect connection)
  | none => return ()

/-- A node that could not be reached is no startup node any more. -/
def forgetTarget (ops : Ops σ ρ κ α) : Call σ ρ κ Unit := do
  match (← locals).target_node with
  | none => throw (noneAttribute "name")
  | some target_node =>
    first (ops.popStartupNode target_node.name)
    first (ops.forgetConnection target_node)

/-- The `except` arms: they raise, or let the loop go on. -/
def handle (ops : Ops σ ρ κ α) (e : Exc) : Call σ ρ κ Unit := do
  if e.isinstance .AuthenticationError then throw e
  else if e.isinstanceAny [.ConnectionError, .TimeoutError] then
    disconnect ops
    forgetTarget ops
    first ops.initializeNodes
    throw e
  else if e.isinstance .MovedError then
    if ← first ops.countMoved then
      first ops.initializeNodes
      first ops.resetCounter
    else first (ops.updateMovedException e)
    setLocals fun l => { l with moved := true }
  else if e.isinstance .TryAgainError then return ()
  else if e.isinstance .AskError then
    match e.redirect with
    | some r =>
      setLocals fun l => { l with redirect_addr := getNodeName r.host r.port, asking := true }
    | none => throw (noneAttribute "host")
  else if e.isinstance .ClusterDownError then
    first ops.initializeNodes
    throw e
  else if e.isinstance .ResponseError then throw e
  else if e.isinstance .Exception then
    disconnect ops
    throw e
  else throw e

/-- The `finally` block. -/
def releaseConnection (ops : Ops σ ρ κ α) : Call σ ρ κ Unit := do
  let l ← locals
  match l.connection, l.redis_node with
  | some connection, some redis_node => first (ops.release redis_node connection)
  | some _, none => throw (noneAttribute "connection_pool")
  | none, _ => return ()

/-- One round of the loop: the response, or `none` when the loop goes on. -/
def attempt (ops : Ops σ ρ κ α) : Call σ ρ κ (Option α) := do
  first ops.attempt
  tryFinally
    (tryCatch
      (do
        let (redis_node, connection) ← acquire ops
        return some (← converse ops redis_node connection))
      (fun e => do
        handle ops e
        return none))
    (releaseConnection ops)

/-- The `while ttl > 0` loop. -/
def attempts (ops : Ops σ ρ κ α) : (ttl : Nat) → Call σ ρ κ α
  | 0 => throw { cls := .ClusterError, msg := "TTL exhausted." }
  | ttl + 1 => do
    match ← attempt ops with
    | some response => return response
    | none => attempts ops ttl

def _executeCommand (ops : Ops σ ρ κ α) (target_node : ClusterNode) : EStateM Exc σ α :=
  withLocals { target_node := some target_node } (attempts ops RedisClusterRequestTTL)

/-- What `_internal_execute_command` calls besides, and what it reads. The caller
names no `target_nodes`. -/
structure Dispatch (σ α : Type) where
  /-- `self.__class__.ERRORS_ALLOW_RETRY` -/
  errors_allow_retry : List ExcClass
  /-- How the arguments are printed. -/
  args : String
  determineNodes : EStateM Exc σ (List ClusterNode)
  /-- `node == self.get_default_node()` -/
  isDefaultNode : ClusterNode → EStateM Exc σ Bool
  replaceDefaultNode : EStateM Exc σ Unit
  /-- `_process_result` -/
  processResult : Dict String α → EStateM Exc σ α

/-- The command on every target node, and the replies by node name. -/
def executeOnEach (ops : Ops σ ρ κ α) : List ClusterNode → Dict String α →
    EStateM Exc σ (Dict String α)
  | [], res => return res
  | n :: ns, res => do
    let r ← _executeCommand ops n
    executeOnEach ops ns (res.put (n.name, r))

/-- `f"No targets were found to execute {args} command on"` -/
def noTargets (args : String) : Exc where
  cls := .RedisClusterException
  msg := "No targets were found to execute " ++ args ++ " command on"

/-- The `try` block of `_internal_execute_command`, with its variable `is_default_node`. -/
def executeOnce (ops : Ops σ ρ κ α) (d : Dispatch σ α) : EStateM Exc (σ × Bool) α := do
  let target_nodes ← first d.determineNodes
  if target_nodes = [] then throw (noTargets d.args)
  if target_nodes.length = 1 then
    if ← first (target_nodes.head?.elim (return false) d.isDefaultNode) then
      modify fun s => (s.1, true)
  let res ← first (executeOnEach ops target_nodes ∅)
  first (d.processResult res)

/-- Its loop: `retry_attempts` exceptions are taken as a reason to try again. -/
def executeAttempts (ops : Ops σ ρ κ α) (d : Dispatch σ α) : (retry_attempts : Nat) →
    EStateM Exc (σ × Bool) α
  | 0 => executeOnce ops d
  | retry_attempts + 1 =>
    tryCatch (executeOnce ops d) (fun e => do
      if e.cls ∈ d.errors_allow_retry then
        if (← get).2 then first d.replaceDefaultNode
        executeAttempts ops d retry_attempts
      else throw e)

def _internalExecuteCommand (ops : Ops σ ρ κ α) (d : Dispatch σ α)
    (cluster_error_retry_attempts : Nat) : EStateM Exc σ α :=
  withLocals false (executeAttempts ops d cluster_error_retry_attempts)

end

end Sync

namespace Asyncio

/-- What the asyncio `_execute_command` calls besides. -/
structure Ops (σ α : Type) extends ClientOps σ where
  /-- `target_node.execute_command(...)`, on a connection of the node's own. -/
  executeCommand : ClusterNode → Sent → EStateM Exc σ α
  /-- `self.aclose()` -/
  aclose : EStateM Exc σ Unit

structure Locals where
  target_node : Option ClusterNode
  redirect_addr : String := ""
  asking : Bool := false
  moved : Bool := false

section
variable {σ α : Type}

abbrev Call (σ α : Type) := EStateM Exc (σ × Locals) α

def locals : Call σ Locals := do return (← get).2

def setLocals (f : Locals → Locals) : Call σ Unit := modify fun s => (s.1, f s.2)

/-- A command of this attempt's node. -/
def executeOnTarget (ops : Ops σ α) (what : Sent) : Call σ α := do
  match (← locals).target_node with
  | none => throw (Sync.noneAttribute "execute_command")
  | some target_node => first (ops.executeCommand target_node what)

/-- The `try` block. -/
def converse (ops : Ops σ α) : Call σ α := do
  let l ← locals
  if l.asking then
    let target_node ← first (ops.getNode l.redirect_addr)
    setLocals fun l => { l with target_node := target_node }
    let _ ← executeOnTarget ops .ASKING
    setLocals fun l => { l with asking := false }
  else if l.moved then
    let slot ← first ops.determineSlot
    let target_node ← first (ops.getNodeFromSlot slot)
    setLocals fun l => { l with target_node := some target_node, moved := false }
  executeOnTarget ops .command

/-- The `except` arms: they raise, or let the loop go on. -/
def handle (ops : Ops σ α) (e : Exc) : Call σ Unit := do
  if e.isinstanceAny [.BusyLoadingError, .MaxConnectionsError] then throw e
  else if e.isinstanceAny [.ConnectionError, .TimeoutError] then
    match (← locals).target_node with
    | none => throw (Sync.noneAttribute "name")
    | some target_node =>
      first (ops.popStartupNode target_node.name)
      first ops.aclose
      throw e
  else if e.isinstance .ClusterDownError then
    first ops.aclose
    throw e
  else if e.isinstance .MovedError then
    if ← first ops.countMoved then
      first ops.aclose
      first ops.resetCounter
    else first (ops.updateMovedException e)
    setLocals fun l => { l with moved := true }
  else if e.isinstance .AskError then
    match e.redirect with
    | some r =>
      setLocals fun l => { l with redirect_addr := getNodeName r.host r.port, asking := true }
    | none => throw (Sync.noneAttribute "host")
  else if e.isinstance .TryAgainError then return ()
  else throw e

/-- One round of the loop: the response, or `none` when the loop goes on. -/
def attempt (ops : Ops σ α) : Call σ (Option α) := do
  first ops.attempt
  tryCatch (some <$> converse ops) (fun e => do
    handle ops e
    return none)

/-- The `while ttl > 0` loop. -/
def attempts (ops : Ops σ α) : (ttl : Nat) → Call σ α
  | 0 => throw { cls := .ClusterError, msg := "TTL exhausted." }
  | ttl + 1 => do
    match ← attempt ops with
    | some response => return response
    | none => attempts ops ttl

def _executeCommand (ops : Ops σ α) (target_node : ClusterNode) : EStateM Exc σ α :=
  withLocals { target_node := some target_node } (attempts ops RedisClusterRequestTTL)

end

end Asyncio

end RedisPy
