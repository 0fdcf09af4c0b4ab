import Mathlib
import RedisPy.Proofs.ShardedMessages

/-! When the polling of a `ClusterPubSub` is robust: its iterator over the mapping of nodes must
not be met by a mapping of another size, neither by that of a later call nor by one that a handler
makes between two turns. -/

namespace RedisPy

namespace ClusterPubSub

open NodePubSub

variable {ν H D : Type} [DecidableEq ν] {cfg : Listening ν H D} {s : ClusterPubSub ν H D}

omit [DecidableEq ν] in
/-- The nodes in turn are those of the mapping. -/
theorem Consistent.turns (h : Consistent s) :
    (s._pubsubs_generator.turns s.node_pubsub_mapping.items).Perm s.node_pubsub_mapping.items := by
  rcases h with hempty | hlive
  · rw [turns_of_empty hempty, hempty]
  · exact PubSubsGenerator.turns_perm hlive

/-- Two nodes, and handlers that return. -/
def twoNodes : Listening Nat Unit Nat :=
  { oneNode with get_node_from_key := fun channel => if channel = 1 then "first" else "second" }

end ClusterPubSub

end RedisPy
