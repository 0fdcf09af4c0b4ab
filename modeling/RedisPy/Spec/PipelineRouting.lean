import RedisPy.Spec.Exceptions

/-! To which nodes a command is sent, by `execute_command` of a cluster client and by a
pipeline in which it is queued, in `redis/cluster.py` and `redis/asyncio/cluster.py`.
Where the code chooses among nodes, all outcomes are kept. -/

namespace RedisPy

def NODE_FLAGS : List String := ["primaries", "replicas", "all", "random", "default-node"]

/-- What is passed as `target_nodes`; an instance of no other class is taken. -/
inductive TargetNodes (ν : Type) where
  | str (s : String)
  | list (nodes : List ν)
  | node (n : ν)
  /-- The values of a dictionary. -/
  | dict (nodes : List ν)
  | other (truthy : Bool)

/-- The nodes that the client knows, and those that the command may go to by its slot. -/
structure SlotTopology (ν : Type) where
  primaries : List ν
  replicas : List ν
  nodes : List ν
  default_node : ν
  slot : Except Exc (List ν)

/-- What the client has on record for the command. -/
structure CommandRoute where
  /-- `command_flags.get(command)` -/
  flag : Option String := none
  /-- `command in SEARCH_COMMANDS[0]`, which the sync client looks at. -/
  search : Bool := false

namespace TargetNodes

variable {ν : Type}

/-- `bool(target_nodes)` -/
def truthy : TargetNodes ν → Bool
  | str s => s ≠ ""
  | list nodes => !nodes.isEmpty
  | node _ => true
  | dict nodes => !nodes.isEmpty
  | other truthy => truthy

/-- `_is_nodes_flag`, in the asyncio client `_is_node_flag` -/
def isNodesFlag : TargetNodes ν → Bool
  | str s => NODE_FLAGS.contains s
  | _ => false

def parseTargetNodes : TargetNodes ν → Except Exc (List ν)
  | list nodes => .ok nodes
  | node n => .ok [n]
  | dict nodes => .ok nodes
  | str _ => .error { cls := .TypeError }
  | other _ => .error { cls := .TypeError }

/-- The flag that is handed to `_determine_nodes`. -/
def flag : TargetNodes ν → Option String
  | str s => some s
  | _ => none

end TargetNodes

namespace PipelineRouting

variable {ν : Type}

/-- The outcomes there can be. -/
abbrev Outcomes (α : Type) := List (Except Exc α)

def _determineNodes (asyncio : Bool) (t : SlotTopology ν) (c : CommandRoute) (node_flag : Option String) :
    Outcomes (List ν) :=
  match node_flag.or c.flag with
  | some "random" => t.nodes.map fun n => .ok [n]
  | some "primaries" => [.ok t.primaries]
  | some "replicas" => [.ok t.replicas]
  | some "all" => [.ok t.nodes]
  | some "default-node" => [.ok [t.default_node]]
  | _ =>
    if !asyncio ∧ c.search then [.ok [t.default_node]]
    else
      match t.slot with
      | .ok nodes => nodes.map fun n => .ok [n]
      | .error e => [.error e]

/-- `if not target_nodes: raise ...` -/
def found (o : Except Exc (List ν)) : Except Exc (List ν) :=
  match o with
  | .ok [] => .error { cls := .RedisClusterException }
  | _ => o

/-- The target nodes of `execute_command`. -/
def executeTargets (asyncio : Bool) (t : SlotTopology ν) (c : CommandRoute) :
    Option (TargetNodes ν) → Outcomes (List ν)
  | none => (_determineNodes asyncio t c none).map found
  | some passed_targets =>
    -- the sync client asks for `is not None`, the asyncio client for a true value
    if (!asyncio || passed_targets.truthy) && !passed_targets.isNodesFlag then
      [passed_targets.parseTargetNodes]
    else (_determineNodes asyncio t c (if passed_targets.truthy then passed_targets.flag else none)).map found

/-- `len(target_nodes) > 1`, and the only node. -/
def onlyOne : Except Exc (List ν) → Except Exc ν
  | .ok [n] => .ok n
  | .ok _ => .error { cls := .RedisClusterException }
  | .error e => .error e

/-- A pipeline of the sync client has no `node_flags`. -/
def noNodeFlags : Exc :=
  { cls := .AttributeError, msg := "'ClusterPipeline' object has no attribute 'node_flags'" }

/-- The target nodes of a command in a pipeline. The sync pipeline looks a string up in
an attribute that it has not, hands `_determine_nodes` no flag, and asks the values of a
dictionary for the first of them. -/
def pipelineTargets (asyncio : Bool) (t : SlotTopology ν) (c : CommandRoute) :
    Option (TargetNodes ν) → Outcomes (List ν)
  | none => (_determineNodes asyncio t c none).map found
  | some passed_targets =>
    match asyncio, passed_targets.truthy, passed_targets with
    | _, false, _ => (_determineNodes asyncio t c none).map found
    | false, true, .str _ => [.error noNodeFlags]
    | false, true, .dict nodes => [if 1 < nodes.length then .ok nodes else .error { cls := .TypeError }]
    | false, true, _ => [passed_targets.parseTargetNodes]
    | true, true, _ =>
      if !passed_targets.isNodesFlag then [passed_targets.parseTargetNodes]
      else (_determineNodes asyncio t c passed_targets.flag).map found

/-- A transmission of the command: with the others for its node, or by itself in
`execute_command`. -/
inductive Try where
  | grouped | alone
  deriving DecidableEq

/-- The command on the stack, with the `target_nodes` of its options. -/
structure QueuedCommand (ν : Type) where
  target_nodes : Option (TargetNodes ν)

/-- The nodes to which the command may be sent this time. -/
def sentTo (asyncio : Bool) (c : CommandRoute) (q : QueuedCommand ν) : Try × SlotTopology ν → List ν
  | (.grouped, t) =>
    (pipelineTargets asyncio t c q.target_nodes).filterMap fun o => (onlyOne o).toOption
  | (.alone, t) =>
    (executeTargets asyncio t c q.target_nodes).flatMap fun o => o.toOption.getD []

/-- `options.pop("target_nodes", None)`; a command by itself is given a copy of its options. -/
def step (q : QueuedCommand ν) : Try × SlotTopology ν → QueuedCommand ν
  | (.grouped, _) => { q with target_nodes := none }
  | (.alone, _) => q

/-- The nodes that `execute_command` could choose with the options of the caller. -/
def couldChoose (asyncio : Bool) (c : CommandRoute) (passed : Option (TargetNodes ν))
    (t : SlotTopology ν) : List ν :=
  (executeTargets asyncio t c passed).flatMap fun o => o.toOption.getD []

end PipelineRouting

end RedisPy
