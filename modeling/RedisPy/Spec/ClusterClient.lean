import RedisPy.Spec.ClusterExecute

/-! `RedisCluster` and a cluster that answers it: `execute_command` of one command
that goes to the node of its slot, with the loop that tries again. The nodes can
all be reached, and the slots stay where they are during the call. `COMMAND`,
which the asyncio client asks when it starts, is left out. -/

namespace RedisPy

open Raising

/-- The attributes of a `RedisCluster`. -/
structure RedisCluster where
  nodes_manager : NodesManager
  reinitialize_steps : Nat := 5
  reinitialize_counter : Nat := 0
  cluster_error_retry_attempts : Nat := 3
  /-- `_initialize`, asyncio only: `initialize` is to be called before the next command. -/
  initialize_ : Bool := false
  /-- The draw of `random`: a number below the argument. -/
  randrange : Nat → Nat := fun _ => 0
  /-- The names of the nodes that the command was sent to, in order. -/
  sent : List String := []

/-- The cluster as the command meets it. -/
structure Cluster (α : Type) where
  /-- How the command's arguments are printed. -/
  args : String
  /-- The command's slot. -/
  slot : Int
  /-- The node that is reached under this name owns the slot. -/
  owns : String → Bool
  /-- The owner's reply. -/
  reply : α
  /-- What the other nodes answer. -/
  moved : ClusterNode → Redirect
  /-- The reply to `ASKING`. -/
  asking : α
  cluster_slots : ClusterSlots

/-- `MOVED <slot> <host>:<port>`, as the parser raises it. -/
def movedError (r : Redirect) : Exc where
  cls := .MovedError
  msg := toString r.slot_id ++ " " ++ r.host ++ ":" ++ toString r.port
  redirect := some r

namespace RedisCluster

variable {α : Type}

abbrev M := EStateM Exc RedisCluster

/-- A method of the nodes manager. -/
def onManager {β : Type} (m : NodesManager.M β) : M β := fun w =>
  match m.run w.nodes_manager with
  | .ok b nm => .ok b { w with nodes_manager := nm }
  | .error e nm => .error e { w with nodes_manager := nm }

def randint (w : RedisCluster) (a b : Nat) : Nat := a + w.randrange (b + 1 - a)

def getNode (name : String) : M (Option ClusterNode) := do
  return (← get).nodes_manager.nodesCache.get? name

/-- `get_node_from_slot`, with `read_from_replicas` off. -/
def getNodeFromSlot (c : Variant) (slot : Int) : M ClusterNode := do
  onManager (c.getNodeFromSlot slot false none (← get).randint)

/-- `_should_reinitialized`, which the asyncio client writes out. -/
def shouldReinitialized (w : RedisCluster) : Bool :=
  w.reinitialize_steps ≠ 0 ∧ w.reinitialize_counter % w.reinitialize_steps = 0

def countMoved : M Bool := do
  modify fun w => { w with reinitialize_counter := w.reinitialize_counter + 1 }
  return (← get).shouldReinitialized

def resetCounter : M Unit := modify fun w => { w with reinitialize_counter := 0 }

def updateMovedException (e : Exc) : M Unit :=
  onManager (modify fun nm => { nm with moved_exception := e.redirect })

/-- The part of the interface that the two clients share. -/
def clientOps (c : Variant) (cluster : Cluster α) : ClientOps RedisCluster where
  attempt := return ()
  getNode := getNode
  determineSlot := return cluster.slot
  getNodeFromSlot := getNodeFromSlot c
  popStartupNode name := onManager (NodesManager.popStartupNode name)
  countMoved := countMoved
  resetCounter := resetCounter
  updateMovedException := updateMovedException

/-- A command goes to `n`. -/
def transmit (n : ClusterNode) : Sent → M Unit
  | .ASKING => return ()
  | .command => modify fun w => { w with sent := w.sent ++ [n.name] }

/-- What `n` answers. -/
def answer (cluster : Cluster α) (n : ClusterNode) : Sent → M α
  | .ASKING => return cluster.asking
  | .command => if cluster.owns n.name then return cluster.reply else throw (movedError (cluster.moved n))

def replaceDefaultNode : M Unit := do
  let w ← get
  let others (t : ServerType) : List ClusterNode :=
    (w.nodes_manager.getNodesByServerType t).filter
      (fun n => !(w.nodes_manager.default_node.any n.eq))
  let setDefault (n : ClusterNode) : M Unit :=
    onManager (modify fun nm => { nm with default_node := some n })
  let primaries := others .PRIMARY
  if primaries ≠ [] then
    setDefault (← onManager (NodesManager.item primaries (w.randrange primaries.length)))
  else
    let replicas := others .REPLICA
    if replicas ≠ [] then
      setDefault (← onManager (NodesManager.item replicas (w.randrange replicas.length)))

/-- `node == self.get_default_node()` -/
def isDefaultNode (w : RedisCluster) (n : ClusterNode) : Bool := w.nodes_manager.default_node.any n.eq

namespace Sync

/-- The pool of a node hands out connections to that node. -/
def ops (cluster : Cluster α) : RedisPy.Sync.Ops RedisCluster ClusterNode ClusterNode α where
  toClientOps := clientOps .sync cluster
  getRedisConnection n := do
    if !(← get).nodes_manager.redis_connection n then
      onManager (RedisPy.Sync.NodesManager.createRedisConnection n)
    return n
  getConnection n := return n
  sendCommand := transmit
  parseResponse _ := answer cluster
  callback a := return a
  disconnect _ := return ()
  forgetConnection n := onManager (modify fun nm =>
    { nm with redis_connection := Function.update nm.redis_connection n false })
  initializeNodes := onManager (RedisPy.Sync.NodesManager.initializeNodes cluster.cluster_slots)
  release _ _ := return ()

def dispatch (cluster : Cluster α) : RedisPy.Sync.Dispatch RedisCluster α where
  errors_allow_retry := ERRORS_ALLOW_RETRY
  args := cluster.args
  determineNodes := do return [← getNodeFromSlot .sync cluster.slot]
  isDefaultNode n := do return (← get).isDefaultNode n
  replaceDefaultNode := replaceDefaultNode
  -- the reply of the one node, as the command has no callback for its result
  processResult res :=
    match res.items with
    | (_, reply) :: _ => return reply
    | [] => throw { cls := .IndexError, msg := "list index out of range" }

def executeCommand (cluster : Cluster α) : M α := do
  RedisPy.Sync._internalExecuteCommand (ops cluster) (dispatch cluster)
    (← get).cluster_error_retry_attempts

end Sync

namespace Asyncio

/-- `NodesManager.aclose()`, less the disconnecting. -/
def forgetDefault : M Unit := onManager (modify fun nm => { nm with default_node := none })

def aclose : M Unit := do
  if !(← get).initialize_ then
    modify fun w => { w with initialize_ := true }
    forgetDefault

def ops (cluster : Cluster α) : RedisPy.Asyncio.Ops RedisCluster α where
  toClientOps := clientOps .asyncio cluster
  executeCommand n what := do
    transmit n what
    answer cluster n what
  aclose := aclose

/-- `RedisCluster.initialize` -/
def initializeClient (cluster : Cluster α) : M Unit := do
  if (← get).initialize_ then
    tryCatch
      (do
        onManager (RedisPy.Asyncio.NodesManager.initializeNodes cluster.cluster_slots)
        modify fun w => { w with initialize_ := false })
      (fun e => do
        forgetDefault
        throw e)

/-- What comes before the `try` block of `execute_command`, with its variable
`target_nodes`. -/
def prepare (cluster : Cluster α) : EStateM Exc (RedisCluster × Option ClusterNode) Unit := do
  let (w, target_nodes) ← get
  if w.initialize_ then
    first (initializeClient cluster)
    if target_nodes.any (← get).1.isDefaultNode then first replaceDefaultNode

/-- The `try` block. -/
def executeOnce (cluster : Cluster α) : EStateM Exc (RedisCluster × Option ClusterNode) α := do
  let target_node ← first (getNodeFromSlot .asyncio cluster.slot)
  modify fun s => (s.1, some target_node)
  first (RedisPy.Asyncio._executeCommand (ops cluster) target_node)

/-- The loop of `execute_command`. -/
def executeAttempts (cluster : Cluster α) : (retry_attempts : Nat) →
    EStateM Exc (RedisCluster × Option ClusterNode) α
  | 0 => do
    prepare cluster
    executeOnce cluster
  | retry_attempts + 1 => do
    prepare cluster
    tryCatch (executeOnce cluster) (fun e =>
      if e.cls ∈ ERRORS_ALLOW_RETRY then executeAttempts cluster retry_attempts else throw e)

def executeCommand (cluster : Cluster α) : M α := do
  withLocals none (executeAttempts cluster (← get).cluster_error_retry_attempts)

end Asyncio

end RedisCluster

/-- `execute_command` of the variant. -/
def Variant.executeCommand {α : Type} (cluster : Cluster α) : Variant → RedisCluster.M α
  | sync => RedisCluster.Sync.executeCommand cluster
  | asyncio => RedisCluster.Asyncio.executeCommand cluster

end RedisPy
