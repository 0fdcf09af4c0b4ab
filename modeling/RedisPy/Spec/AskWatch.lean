import RedisPy.Library.Wire
import RedisPy.Spec.ClusterExecute

/-! What the two `_execute_command` send on the connections of the nodes, over
anything they call. The sync one has its connection to itself. The asyncio one takes
a connection of the node (`ClusterNode` of `redis/asyncio/cluster.py`) for ASKING and
one for the command, and other tasks run at every `await`. -/

namespace RedisPy

open Raising Wire

/-- What is sent: ASKING, the command, to a node that an ASK redirection names or to
another one, or something of another task. -/
inductive Transmission where
  | ASKING
  | command (asked : Bool)
  | other
  deriving DecidableEq, Repr

/-- The log, and whether the node at hand was named by an ASK redirection. -/
structure Watch (κ : Type) where
  wire : Log κ Transmission := []
  asked : Bool := false

namespace Watch

variable {κ σ β : Type}

def transmission (w : Watch κ) : Sent → Transmission
  | .ASKING => .ASKING
  | .command => .command w.asked

/-- The node that is found next is the one of an ASK redirection, or is not. -/
def found (asked : Bool) (m : EStateM Exc σ β) : EStateM Exc (σ × Watch κ) β := do
  let b ← first m
  modify fun s => (s.1, { s.2 with asked := asked })
  return b

def sent (k : κ) (what : Sent) : EStateM Exc (σ × Watch κ) Unit :=
  modify fun s => (s.1, { s.2 with wire := s.2.wire ++ [(k, s.2.transmission what)] })

end Watch

namespace Sync

variable {σ ρ κ α : Type}

/-- The operations, watched. -/
def watched (ops : Ops σ ρ κ α) : Ops (σ × Watch κ) ρ κ α where
  attempt := first ops.attempt
  getNode name := Watch.found true (ops.getNode name)
  determineSlot := first ops.determineSlot
  getNodeFromSlot slot := Watch.found false (ops.getNodeFromSlot slot)
  popStartupNode name := first (ops.popStartupNode name)
  countMoved := first ops.countMoved
  resetCounter := first ops.resetCounter
  updateMovedException e := first (ops.updateMovedException e)
  getRedisConnection n := first (ops.getRedisConnection n)
  getConnection r := first (ops.getConnection r)
  sendCommand k what := do
    Watch.sent k what
    first (ops.sendCommand k what)
  parseResponse r k what := first (ops.parseResponse r k what)
  callback a := first (ops.callback a)
  disconnect k := first (ops.disconnect k)
  forgetConnection n := first (ops.forgetConnection n)
  initializeNodes := first ops.initializeNodes
  release r k := first (ops.release r k)

end Sync

namespace Asyncio

/-- What other tasks have done when an `await` is over: what they sent on their
connections, and the connections of each node that are free then. -/
structure OtherTasks (κ : Type) where
  sends : List κ := []
  free : String → List κ := fun _ => []

/-- What the operations of one attempt come to. -/
structure AskAttempt (κ α : Type) where
  /-- What `get_node` finds for an ASK redirection. -/
  known : Option ClusterNode := none
  slot : Except Exc Int := .ok 0
  node : Except Exc ClusterNode
  due : Bool := false
  aclose : Except Exc Unit := .ok ()
  /-- A connection where none is free: a new one, or `MaxConnectionsError`. -/
  connection : Sent → Except Exc κ
  send : Sent → Except Exc Unit := fun _ => .ok ()
  answer : Sent → Except Exc α
  /-- Before the attempt, while something is sent, and while an answer is read. -/
  before : OtherTasks κ := {}
  sending : Sent → OtherTasks κ := fun _ => {}
  reading : Sent → OtherTasks κ := fun _ => {}

/-- The connections of the nodes, between what is to come and what has been sent. -/
structure AskWorld (κ α : Type) where
  now : AskAttempt κ α
  later : Nat → AskAttempt κ α
  /-- `ClusterNode._free`, by the node's name. -/
  _free : String → List κ
  watch : Watch κ := {}

namespace AskWorld

variable {κ α β : Type} [DecidableEq κ]

abbrev M (κ α β : Type) := EStateM Exc (AskWorld κ α) β

def ofExcept : Except Exc β → M κ α β
  | .ok b => return b
  | .error e => throw e

/-- Other tasks run; they leave the connection alone that is in use here. -/
def others (c : κ) (o : OtherTasks κ) : M κ α Unit := modify fun s =>
  { s with
    _free := fun name => (o.free name).filter (· ≠ c)
    watch := { s.watch with wire := s.watch.wire ++ (o.sends.filter (· ≠ c)).map (·, .other) } }

def acquireConnection (name : String) (what : Sent) : M κ α κ := do
  match (← get)._free name with
  | c :: free =>
    modify fun s => { s with _free := Function.update s._free name free }
    return c
  | [] => ofExcept ((← get).now.connection what)

/-- `self._free.append(connection)` -/
def release (name : String) (c : κ) : M κ α Unit :=
  modify fun s => { s with _free := Function.update s._free name (s._free name ++ [c]) }

def sent (c : κ) (what : Sent) : M κ α Unit := modify fun s =>
  { s with watch := { s.watch with wire := s.watch.wire ++ [(c, s.watch.transmission what)] } }

def found (asked : Bool) : M κ α Unit :=
  modify fun s => { s with watch := { s.watch with asked := asked } }

def executeCommand (n : ClusterNode) (what : Sent) : M κ α α := do
  let connection ← acquireConnection n.name what
  sent connection what
  others connection ((← get).now.sending what)
  ofExcept ((← get).now.send what)
  others connection ((← get).now.reading what)
  tryFinally (do ofExcept ((← get).now.answer what)) (release n.name connection)

/-- The world as the client's environment. -/
def ops : Asyncio.Ops (AskWorld κ α) α where
  attempt := modify fun s =>
    { s with
      now := s.later 0
      later := fun n => s.later (n + 1)
      _free := (s.later 0).before.free
      watch := { s.watch with wire := s.watch.wire ++ (s.later 0).before.sends.map (·, .other) } }
  getNode _ := do
    found true
    return (← get).now.known
  determineSlot := do ofExcept (← get).now.slot
  getNodeFromSlot _ := do
    let n ← ofExcept (← get).now.node
    found false
    return n
  popStartupNode _ := return ()
  countMoved := do return (← get).now.due
  resetCounter := return ()
  updateMovedException _ := return ()
  executeCommand := executeCommand
  aclose := do ofExcept (← get).now.aclose

end AskWorld

end Asyncio

end RedisPy
