import RedisPy.Library.Heap
import RedisPy.Library.Keyed
import RedisPy.Spec.Exceptions

/-! `NodesManager` (`redis/cluster.py` and `redis/asyncio/cluster.py`): what the
client believes about the cluster. Nodes, node lists and the dictionaries of
nodes are objects that several variables may share, so they live on a heap; the
slot table is held by `slots_cache` alone. -/

namespace RedisPy

/-- `redis/crc.py` -/
def REDIS_CLUSTER_HASH_SLOTS : Nat := 16384

def getNodeName (host : String) (port : Int) : String := host ++ ":" ++ toString port

inductive ServerType where
  | PRIMARY | REPLICA
  deriving DecidableEq, Repr

/-- A `ClusterNode` object: its identity and what never changes after
`__init__`. `server_type` and `redis_connection` are kept on the heap. -/
structure ClusterNode where
  id : Nat
  host : String
  port : Int
  deriving DecidableEq, Repr

def ClusterNode.name (n : ClusterNode) : String := getNodeName n.host n.port

def ClusterNode.eq (n m : ClusterNode) : Bool := n.name == m.name

/-- A dictionary from names to nodes. Every store goes under the node's own name. -/
abbrev Nodes := Keyed ClusterNode.name

structure LoadBalancer where
  primary_to_idx : Dict String Nat := ∅
  start_index : Nat := 0

def LoadBalancer.getServerIndex (lb : LoadBalancer) (primary : String) (list_size : Nat) :
    Nat × LoadBalancer :=
  let server_index := ((lb.primary_to_idx.get? primary).map Prod.snd).getD lb.start_index
  (server_index,
    { lb with primary_to_idx := lb.primary_to_idx.put (primary, (server_index + 1) % list_size) })

def LoadBalancer.reset (lb : LoadBalancer) : LoadBalancer := { lb with primary_to_idx := ∅ }

/-- What `NodesManager.__init__` is given and never changes. -/
structure Settings where
  require_full_coverage : Bool := false
  dynamic_startup_nodes : Bool := true
  address_remap : Option (String × Int → String × Int) := none
  /-- What `socket.gethostbyname` answers. -/
  gethostbyname : String → String := fun _ => "127.0.0.1"

/-- How `ClusterNode.__init__` and `get_node` read a host. -/
def Settings.resolveHost (s : Settings) (host : String) : String :=
  if host = "localhost" then s.gethostbyname host else host

def Settings.remapHostPort (s : Settings) (addr : String × Int) : String × Int :=
  match s.address_remap with
  | some f => f addr
  | none => addr

structure NodesManager extends Settings where
  -- the heap
  server_type : ClusterNode → Option ServerType := fun _ => none
  /-- The node object has a `Redis` client (sync only). -/
  redis_connection : ClusterNode → Bool := fun _ => false
  nextNode : Nat := 0
  lists : Heap (List ClusterNode) := ⟨fun _ => [], 0⟩
  dicts : Heap Nodes := ⟨fun _ => ∅, 0⟩
  -- the attributes
  nodes_cache : Ref := 0
  slots_cache : Dict Int Ref := ∅
  startup_nodes : Ref := 0
  default_node : Option ClusterNode := none
  moved_exception : Option Redirect := none
  read_load_balancer : LoadBalancer := {}

/-- One entry of a `CLUSTER SLOTS` reply: the range and the addresses that serve
it, the primary's first. A host may be `NULL`. -/
structure SlotRange where
  start : Int
  stop : Int
  primary : Option String × Int
  replicas : List (Option String × Int)
  deriving DecidableEq, Repr

/-- `slot[2][0] = host` -/
def SlotRange.setHost (e : SlotRange) (host : String) : SlotRange :=
  { e with primary := (host, e.primary.2) }

/-- What each startup node answers to `CLUSTER SLOTS`, or what asking it raises. -/
abbrev ClusterSlots := ClusterNode → Except Exc (List SlotRange)

namespace NodesManager

abbrev M := EStateM Exc NodesManager

def nodesCache (nm : NodesManager) : Nodes := nm.dicts.read nm.nodes_cache

def startupNodes (nm : NodesManager) : Nodes := nm.dicts.read nm.startup_nodes

/-- `slots_cache.get(slot)`, the list object's content. -/
def slotNodes (nm : NodesManager) (slot : Int) : Option (List ClusterNode) :=
  (nm.slots_cache.get? slot).map (fun entry => nm.lists.read entry.2)

/-- The list object at `slots_cache[slot]`. -/
def slotRef (slot : Int) : M Ref := do
  match (← get).slots_cache.get? slot with
  | some entry => return entry.2
  | none => throw { cls := .KeyError, msg := toString slot }

/-- `lst[i]` -/
def item (lst : List ClusterNode) (i : Nat) : M ClusterNode :=
  match lst[i]? with
  | some n => return n
  | none => throw { cls := .IndexError, msg := "list index out of range" }

def setServerType (n : ClusterNode) (t : ServerType) : M Unit :=
  modify fun nm => { nm with server_type := Function.update nm.server_type n (some t) }

/-- `ClusterNode(host, port, server_type)` -/
def newClusterNode (host : String) (port : Int) (server_type : ServerType) : M ClusterNode := do
  let nm ← get
  let n : ClusterNode := { id := nm.nextNode, host := nm.resolveHost host, port := port }
  set { nm with nextNode := nm.nextNode + 1 }
  setServerType n server_type
  return n

def setNodesCache (nodes : Nodes) : M Unit :=
  modify fun nm => { nm with dicts := nm.dicts.write nm.nodes_cache nodes }

def updateMovedException (e : Redirect) : M Unit :=
  modify fun nm => { nm with moved_exception := some e }

/-- `nodes_cache.get(get_node_name(host, port))`, with `localhost` resolved. -/
def cachedNode (nm : NodesManager) (host : String) (port : Int) : Option ClusterNode :=
  nm.nodesCache.get? (getNodeName (nm.resolveHost host) port)

/-- The node that a redirection names, known or new, as a primary. -/
def redirectedNode (get_node : String → Int → M (Option ClusterNode))
    (add_node : ClusterNode → M Unit) (e : Redirect) : M ClusterNode := do
  match ← get_node e.host e.port with
  | some n =>
    if (← get).server_type n ≠ some .PRIMARY then setServerType n .PRIMARY
    return n
  | none =>
    let n ← newClusterNode e.host e.port .PRIMARY
    add_node n
    return n

/-- The new owner was a replica of the slot: the list object itself is edited. -/
def failover (r : Ref) (redirected_node : ClusterNode) : M Unit := do
  let nodes := (← get).lists.read r
  let old_primary ← item nodes 0
  setServerType old_primary .REPLICA
  let nodes := nodes ++ [old_primary]
  let nodes := nodes.eraseP redirected_node.eq
  let nodes := nodes.set 0 redirected_node
  modify fun nm => { nm with lists := nm.lists.write r nodes }
  if (← get).default_node.any old_primary.eq then
    modify fun nm => { nm with default_node := some redirected_node }

/-- The new owner comes from elsewhere: the slot gets a list of its own. -/
def replaceNodes (slot : Int) (redirected_node : ClusterNode) : M Unit :=
  modify fun nm =>
    { nm with
      slots_cache := nm.slots_cache.put (slot, (nm.lists.alloc [redirected_node]).1)
      lists := (nm.lists.alloc [redirected_node]).2 }

/-- `_update_moved_slots`, over the variant's `get_node` and its way to add a
node to `nodes_cache`. -/
def updateMovedSlots (get_node : String → Int → M (Option ClusterNode))
    (add_node : ClusterNode → M Unit) : M Unit := do
  match (← get).moved_exception with
  | none => throw { cls := .AttributeError, msg := "'NoneType' object has no attribute 'host'" }
  | some e =>
    let redirected_node ← redirectedNode get_node add_node e
    let r ← slotRef e.slot_id
    if ((← get).lists.read r).any redirected_node.eq then failover r redirected_node
    else replaceNodes e.slot_id redirected_node
    modify fun nm => { nm with moved_exception := none }

/-- `get_node_from_slot` first works off a pending redirection. -/
def applyMoved (update_moved_slots : M Unit) : M Unit := do
  if (← get).moved_exception.isSome then update_moved_slots

def slotNotCovered (slot : Int) (require_full_coverage : Bool) : Exc where
  cls := .SlotNotCoveredError
  msg := "Slot \"" ++ toString slot ++ "\" not covered by the cluster. " ++
    "\"require_full_coverage=" ++ (if require_full_coverage then "True" else "False") ++ "\""

def getNodesByServerType (nm : NodesManager) (t : ServerType) : List ClusterNode :=
  nm.nodesCache.items.filter (fun n => nm.server_type n = some t)

def checkSlotsCoverage (slots : Dict Int Ref) : Bool :=
  (List.range' 0 REDIS_CLUSTER_HASH_SLOTS).all (fun i => slots.contains i)

/-- `populate_startup_nodes` in `__init__`, before the first `initialize`: the
`ClusterNode` objects that the caller made, in a dictionary of their own. -/
def init (settings : Settings) (startup_nodes : List (String × Int)) : NodesManager :=
  let nodes : List ClusterNode :=
    startup_nodes.mapIdx fun i a => { id := i, host := settings.resolveHost a.1, port := a.2 }
  { toSettings := settings
    nextNode := nodes.length
    dicts := ⟨fun r => if r = 1 then nodes.foldl Keyed.put ∅ else ∅, 2⟩
    nodes_cache := 0
    startup_nodes := 1 }

/-- `self.nodes_manager.startup_nodes.pop(name, None)`, which `_execute_command` does. -/
def popStartupNode (name : String) : M Unit :=
  modify fun nm => { nm with dicts := nm.dicts.write nm.startup_nodes (nm.startupNodes.erase name) }

/-- The local variables that `initialize` builds the new topology in. -/
structure Tmp where
  nodes : Nodes := ∅
  slots : Dict Int Ref := ∅
  disagreements : List String := []

/-- How a variant turns an address of the reply into a node of the new topology. -/
abbrev NodeFactory := String × Int → ServerType → Nodes → M (ClusterNode × Nodes)

/-- The address that an entry of the reply gives. A host that is `None` stands as
`None` in the names of nodes. -/
def replyAddr (a : Option String × Int) : String × Int := (a.1.getD "None", a.2)

/-- The replicas of one entry, in order. -/
def addReplicas (node_of : NodeFactory) : List (Option String × Int) → Nodes →
    M (List ClusterNode × Nodes)
  | [], nodes => return ([], nodes)
  | addr :: addrs, nodes => do
    let (n, nodes) ← node_of ((← get).remapHostPort (replyAddr addr)) .REPLICA nodes
    let (ns, nodes) ← addReplicas node_of addrs nodes
    return (n :: ns, nodes)

/-- `range(int(slot[0]), int(slot[1]) + 1)` -/
def slotsOf (e : SlotRange) : List Int :=
  (List.range (e.stop + 1 - e.start).toNat).map (fun i => e.start + (i : Int))

/-- Give the slots that have no nodes yet the list object `r`, and note a
primary that an earlier entry disagrees with. -/
def fillSlots (target_node : ClusterNode) (r : Ref) : List Int → Tmp → M Tmp
  | [], tmp => return tmp
  | i :: is, tmp => do
    match tmp.slots.get? i with
    | none => fillSlots target_node r is { tmp with slots := tmp.slots.put (i, r) }
    | some entry =>
      let tmp_slot ← item ((← get).lists.read entry.2) 0
      if tmp_slot.name ≠ target_node.name then
        let disagreements := tmp.disagreements ++
          [tmp_slot.name ++ " vs " ++ target_node.name ++ " on slot: " ++ toString i]
        if disagreements.length > 5 then
          throw {
            cls := .RedisClusterException
            msg := "startup_nodes could not agree on a valid slots cache: " ++
              ", ".intercalate disagreements }
        fillSlots target_node r is { tmp with disagreements := disagreements }
      else fillSlots target_node r is tmp

/-- The primary's address; a lone server does not know its own host. -/
def primaryAddr (startup_node : ClusterNode) (e : SlotRange) : String × Int :=
  if e.primary.1 = some "" then (startup_node.host, e.primary.2) else replyAddr e.primary

/-- One entry of a reply of `startup_node`: all its slots get one list object. -/
def addRange (node_of : NodeFactory) (startup_node : ClusterNode) (e : SlotRange) (tmp : Tmp) :
    M Tmp := do
  let (target_node, nodes) ←
    node_of ((← get).remapHostPort (primaryAddr startup_node e)) .PRIMARY tmp.nodes
  let (replica_nodes, nodes) ← addReplicas node_of e.replicas nodes
  let (r, lists) := (← get).lists.alloc (target_node :: replica_nodes)
  modify fun nm => { nm with lists := lists }
  fillSlots target_node r (slotsOf e) { tmp with nodes := nodes }

def addRanges (node_of : NodeFactory) (startup_node : ClusterNode) : List SlotRange → Tmp → M Tmp
  | [], tmp => return tmp
  | e :: es, tmp => do addRanges node_of startup_node es (← addRange node_of startup_node e tmp)

/-- `CLUSTER SLOTS` of one startup node. -/
def askClusterSlots (cluster_slots : ClusterSlots) (startup_node : ClusterNode) :
    Except Exc (List SlotRange) :=
  match cluster_slots startup_node with
  | .ok reply => .ok reply
  | .error e =>
    if e.isinstance .ResponseError then
      .error { cls := .RedisClusterException, msg := "Cluster mode is not enabled on this node" }
    else .error e

/-- What a variant makes of a reply that has one range only, given how many startup nodes
there are and which of them has answered. -/
abbrev LoneHost := Nat → ClusterNode → List SlotRange → Except Exc (List SlotRange)

/-- The loop over the startup nodes, `count` in all: the new topology, whether a node was
reached, whether the slots are all covered, and the last exception met. -/
def scanStartupNodes (node_of : NodeFactory) (lone_host : LoneHost) (count : Nat)
    (cluster_slots : ClusterSlots) (connect : ClusterNode → M Unit) :
    List ClusterNode → Tmp → (reachable : Bool) → (exception : Option Exc) →
    M (Tmp × Bool × Bool × Option Exc)
  | [], tmp, reachable, exception => return (tmp, reachable, false, exception)
  | n :: ns, tmp, reachable, exception => do
    connect n
    match askClusterSlots cluster_slots n with
    | .error e =>
      if e.isinstance .Exception then
        scanStartupNodes node_of lone_host count cluster_slots connect ns tmp reachable (some e)
      else throw e
    | .ok reply =>
      match lone_host count n reply with
      | .error e => throw e
      | .ok reply =>
        let tmp ← addRanges node_of n reply tmp
        if checkSlotsCoverage tmp.slots then return (tmp, true, true, exception)
        else scanStartupNodes node_of lone_host count cluster_slots connect ns tmp true exception

/-- `self.get_nodes_by_server_type(PRIMARY)[0]` -/
def firstPrimary : M ClusterNode := do item ((← get).getNodesByServerType .PRIMARY) 0

/-- `initialize`, over what the variants do each in their own way. -/
def initializeWith (node_of : NodeFactory) (lone_host : LoneHost) (connect : ClusterNode → M Unit)
    (prepare : Nodes → M Unit) (install : Nodes → Dict Int Ref → M Unit)
    (cluster_slots : ClusterSlots) : M Unit := do
  modify fun nm => { nm with read_load_balancer := nm.read_load_balancer.reset }
  let startup_nodes := (← get).startupNodes.items
  let (tmp, reachable, fully_covered, exception) ←
    scanStartupNodes node_of lone_host startup_nodes.length cluster_slots connect startup_nodes {}
      false none
  if !reachable then
    throw {
      cls := .RedisClusterException
      msg := "Redis Cluster cannot be connected. Please provide at least one reachable node: " ++
        (exception.map Exc.msg).getD "None" }
  prepare tmp.nodes
  if !fully_covered && (← get).require_full_coverage then
    throw {
      cls := .RedisClusterException
      msg := "All slots are not covered after query all startup_nodes. " ++
        toString tmp.slots.items.length ++ " of " ++ toString REDIS_CLUSTER_HASH_SLOTS ++
        " covered..." }
  install tmp.nodes tmp.slots

end NodesManager

namespace Sync.NodesManager
open RedisPy.NodesManager

/-- `get_node(host, port)`: without a host or a port, and with no name, nothing is found. -/
def getNode (host : String) (port : Int) : M (Option ClusterNode) := do
  if host ≠ "" ∧ port ≠ 0 then return (← get).cachedNode host port else return none

/-- `self.nodes_cache[node.name] = node` -/
def addNode (n : ClusterNode) : M Unit := do setNodesCache ((← get).nodesCache.put n)

def updateMovedSlots : M Unit := RedisPy.NodesManager.updateMovedSlots getNode addNode

/-- The end of `get_node_from_slot`; `randint` is the draw among the replicas. -/
def pickNode (slot : Int) (read_from_replicas : Bool) (server_type : Option ServerType)
    (randint : Nat → Nat → Nat) : M ClusterNode := do
  let nm ← get
  let nodes := (nm.slotNodes slot).getD []
  if nodes.length = 0 then throw (slotNotCovered slot nm.require_full_coverage)
  else if read_from_replicas then
    let primary ← item nodes 0
    let (i, lb) := nm.read_load_balancer.getServerIndex primary.name nodes.length
    set { nm with read_load_balancer := lb }
    item nodes i
  else if server_type = none ∨ server_type = some .PRIMARY ∨ nodes.length = 1 then item nodes 0
  else item nodes (randint 1 (nodes.length - 1))

def getNodeFromSlot (slot : Int) (read_from_replicas : Bool := false)
    (server_type : Option ServerType := none) (randint : Nat → Nat → Nat := fun a _ => a) :
    M ClusterNode := do
  applyMoved updateMovedSlots
  pickNode slot read_from_replicas server_type randint

/-- `create_redis_connections` of one node. -/
def createRedisConnection (n : ClusterNode) : M Unit :=
  modify fun nm => { nm with redis_connection := Function.update nm.redis_connection n true }

def createRedisConnections (nodes : Nodes) : M Unit := forM nodes.items createRedisConnection

/-- A node of the old topology that has a client already. -/
def reusableNode (nm : NodesManager) (name : String) : Option ClusterNode :=
  (nm.nodesCache.get? name).filter nm.redis_connection

def getOrCreateClusterNode : NodeFactory := fun (host, port) role tmp_nodes_cache => do
  match tmp_nodes_cache.get? (getNodeName host port) with
  | some target_node => return (target_node, tmp_nodes_cache)
  | none =>
    let target_node ← match reusableNode (← get) (getNodeName host port) with
      | some n => pure n
      | none => newClusterNode host port role
    if (← get).server_type target_node ≠ some role then setServerType target_node role
    return (target_node, tmp_nodes_cache.put target_node)

/-- A lone server does not know its own host. `len` is taken of it before anything else. -/
def loneHost : LoneHost
  | count, startup_node, [e] =>
    match e.primary.1 with
    | none => .error { cls := .TypeError, msg := "object of type 'NoneType' has no len()" }
    | some host =>
      .ok [if host.length = 0 ∧ count = 1 then e.setHost startup_node.host else e]
  | _, _, cluster_slots => .ok cluster_slots

/-- The end of `initialize`: the new dictionary is `nodes_cache`, and with
`dynamic_startup_nodes` it is `startup_nodes` as well, one object under two names. -/
def install (tmp_nodes_cache : Nodes) (tmp_slots : Dict Int Ref) : M Unit := do
  modify fun nm =>
    { nm with
      dicts := (nm.dicts.alloc tmp_nodes_cache).2
      nodes_cache := (nm.dicts.alloc tmp_nodes_cache).1
      slots_cache := tmp_slots }
  let default_node ← firstPrimary
  modify fun nm =>
    { nm with
      default_node := some default_node
      startup_nodes := if nm.dynamic_startup_nodes then nm.nodes_cache else nm.startup_nodes
      moved_exception := none }

/-- `initialize`, a word that Lean keeps for itself. -/
def initializeNodes : ClusterSlots → M Unit :=
  initializeWith getOrCreateClusterNode loneHost createRedisConnection createRedisConnections install

end Sync.NodesManager

namespace Asyncio.NodesManager
open RedisPy.NodesManager

def getNode (host : String) (port : Int) : M (Option ClusterNode) := do
  if host ≠ "" ∧ port ≠ 0 then return (← get).cachedNode host port
  else
    throw {
      cls := .DataError
      msg := "get_node requires one of the following: 1. node name 2. host and port" }

/-- `set_nodes`, less the tasks that disconnect the nodes it drops. -/
def setNodes (old new : Nodes) (remove_old : Bool := false) : Nodes :=
  let old := if remove_old then old.restrict (fun name => new.contains name) else old
  new.items.foldl Keyed.put old

/-- `self.set_nodes(self.nodes_cache, {node.name: node})` -/
def addNode (n : ClusterNode) : M Unit := do
  setNodesCache (setNodes (← get).nodesCache (Keyed.put ∅ n))

def updateMovedSlots : M Unit := RedisPy.NodesManager.updateMovedSlots getNode addNode

/-- The end of `get_node_from_slot`: an uncovered slot raises a `KeyError`, which
is not among the exceptions caught there. -/
def pickNode (slot : Int) (read_from_replicas : Bool) : M ClusterNode := do
  let nm ← get
  let r ← slotRef slot
  match nm.lists.read r with
  | [] => throw (slotNotCovered slot nm.require_full_coverage)
  | primary :: replicas =>
    if read_from_replicas then
      let (i, lb) := nm.read_load_balancer.getServerIndex primary.name (replicas.length + 1)
      set { nm with read_load_balancer := lb }
      match (primary :: replicas)[i]? with
      | some n => return n
      | none => throw (slotNotCovered slot nm.require_full_coverage)
    else return primary

def getNodeFromSlot (slot : Int) (read_from_replicas : Bool := false) : M ClusterNode := do
  applyMoved updateMovedSlots
  pickNode slot read_from_replicas

/-- How `initialize` finds or makes a node. -/
def getOrCreateClusterNode : NodeFactory := fun (host, port) role tmp_nodes_cache => do
  let target_node ← match tmp_nodes_cache.get? (getNodeName host port) with
    | some n => pure n
    | none => newClusterNode host port role
  return (target_node, tmp_nodes_cache.put target_node)

/-- A lone server does not know its own host, or gives `None` for it. -/
def loneHost : LoneHost
  | count, startup_node, [e] =>
    .ok [if (e.primary.1 = none ∨ e.primary.1 = some "") ∧ count = 1 then
      e.setHost startup_node.host else e]
  | _, _, cluster_slots => .ok cluster_slots

/-- The end of `initialize`: the two dictionaries stay the objects they were. -/
def install (tmp_nodes_cache : Nodes) (tmp_slots : Dict Int Ref) : M Unit := do
  modify fun nm => { nm with slots_cache := tmp_slots }
  setNodesCache (setNodes (← get).nodesCache tmp_nodes_cache true)
  modify fun nm =>
    { nm with
      dicts := nm.dicts.write nm.startup_nodes (setNodes nm.startupNodes nm.nodesCache true) }
  let default_node ← firstPrimary
  modify fun nm => { nm with default_node := some default_node, moved_exception := none }

/-- `initialize` -/
def initializeNodes : ClusterSlots → M Unit :=
  initializeWith getOrCreateClusterNode loneHost (fun _ => pure ()) (fun _ => pure ()) install

end Asyncio.NodesManager

/-- Which of the two clients is meant. -/
inductive Variant where
  | sync | asyncio
  deriving DecidableEq, Repr

namespace Variant
open NodesManager (M)

def getNode : Variant → String → Int → M (Option ClusterNode)
  | sync => Sync.NodesManager.getNode
  | asyncio => Asyncio.NodesManager.getNode

def addNode : Variant → ClusterNode → M Unit
  | sync => Sync.NodesManager.addNode
  | asyncio => Asyncio.NodesManager.addNode

def getOrCreateClusterNode : Variant → NodesManager.NodeFactory
  | sync => Sync.NodesManager.getOrCreateClusterNode
  | asyncio => Asyncio.NodesManager.getOrCreateClusterNode

def loneHost : Variant → NodesManager.LoneHost
  | sync => Sync.NodesManager.loneHost
  | asyncio => Asyncio.NodesManager.loneHost

/-- What is done with a startup node before it is asked. -/
def connect : Variant → ClusterNode → M Unit
  | sync => Sync.NodesManager.createRedisConnection
  | asyncio => fun _ => pure ()

/-- `create_redis_connections`, which the asyncio client does without. -/
def createRedisConnections : Variant → Nodes → M Unit
  | sync => Sync.NodesManager.createRedisConnections
  | asyncio => fun _ => pure ()

def install : Variant → Nodes → Dict Int Ref → M Unit
  | sync => Sync.NodesManager.install
  | asyncio => Asyncio.NodesManager.install

def updateMovedSlots : Variant → M Unit
  | sync => Sync.NodesManager.updateMovedSlots
  | asyncio => Asyncio.NodesManager.updateMovedSlots

/-- `get_node_from_slot`; `randint` is the sync client's draw among the replicas. -/
def getNodeFromSlot (slot : Int) (read_from_replicas : Bool) (server_type : Option ServerType)
    (randint : Nat → Nat → Nat) : Variant → M ClusterNode
  | sync => Sync.NodesManager.getNodeFromSlot slot read_from_replicas server_type randint
  | asyncio => Asyncio.NodesManager.getNodeFromSlot slot read_from_replicas

def initializeNodes : Variant → ClusterSlots → M Unit
  | sync => Sync.NodesManager.initializeNodes
  | asyncio => Asyncio.NodesManager.initializeNodes

end Variant

end RedisPy
