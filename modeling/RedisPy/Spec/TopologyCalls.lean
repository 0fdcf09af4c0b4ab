import RedisPy.Library.Raising
import RedisPy.Spec.NodesManager

/-! What a cluster client does to its `NodesManager` in the course of commands
(`redis/cluster.py` and `redis/asyncio/cluster.py`): slots are looked up,
redirections noted, the topology asked for again, and a node whose connection
failed is dropped from the startup nodes. -/

namespace RedisPy

open NodesManager (M)

namespace NodesManager

/-- `target_node.redis_connection = None` -/
def dropRedisConnection (n : ClusterNode) : M Unit :=
  modify fun nm => { nm with redis_connection := Function.update nm.redis_connection n false }

/-- `NodesManager.close`, or `aclose`, less the connections it closes. -/
def close : M Unit := modify fun nm => { nm with default_node := none }

end NodesManager

namespace Variant
open NodesManager

/-- The `except (ConnectionError, TimeoutError)` of `_execute_command`, up to the
`raise`. The asyncio client asks for the topology later, before its next command. -/
def connectionFailed (target_node : ClusterNode) (cluster_slots : ClusterSlots) : Variant → M Unit
  | sync => do
    popStartupNode target_node.name
    dropRedisConnection target_node
    Sync.NodesManager.initializeNodes cluster_slots
  | asyncio => do
    popStartupNode target_node.name
    close

/-- How a client asks for the topology: the asyncio client's `RedisCluster.initialize`
sets up its commands parser next, and closes itself when either fails. -/
def initializeClient (cluster_slots : ClusterSlots) (parser_setup : Option Exc) :
    Variant → M Unit
  | sync => Sync.NodesManager.initializeNodes cluster_slots
  | asyncio =>
    tryCatch
      (do
        Asyncio.NodesManager.initializeNodes cluster_slots
        match parser_setup with
        | some e => throw e
        | none => pure ())
      (fun e => do
        close
        throw e)

end Variant

/-- One thing that a command does to the topology. -/
inductive TopologyCall where
  | lookup (slot : Int) (read_from_replicas : Bool) (server_type : Option ServerType)
      (randint : Nat → Nat → Nat)
  | moved (e : Redirect)
  | initializeClient (cluster_slots : ClusterSlots) (parser_setup : Option Exc)
  | connectionFailed (target_node : ClusterNode) (cluster_slots : ClusterSlots)
  | close

namespace TopologyCall

def run (c : Variant) : TopologyCall → M Unit
  | lookup slot read_from_replicas server_type randint => do
    let _ ← c.getNodeFromSlot slot read_from_replicas server_type randint
  | moved e => NodesManager.updateMovedException e
  | initializeClient cluster_slots parser_setup => c.initializeClient cluster_slots parser_setup
  | connectionFailed target_node cluster_slots => c.connectionFailed target_node cluster_slots
  | close => NodesManager.close

/-- The state after the call, whether it raised or not. -/
def step (c : Variant) (nm : NodesManager) (call : TopologyCall) : NodesManager :=
  Raising.state ((call.run c).run nm)

end TopologyCall

end RedisPy
