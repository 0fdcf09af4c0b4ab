import RedisPy.Library.Lease
import RedisPy.Spec.ClusterExecute

/-! A script of outcomes for the sync `_execute_command`: for each attempt what
every operation comes to, and the history of what is done with connections. -/

namespace RedisPy

open Lease

/-- What the operations of one attempt come to, in the order in which they are
called. A connection comes from the pool of the `Redis` client `ρ`. -/
structure Attempt (ρ κ α : Type) where
  /-- What `get_node` finds for an ASK redirection. -/
  known : Option ClusterNode
  slot : Except Exc Int
  node : Except Exc ClusterNode
  redis : Except Exc ρ
  conn : Except Exc κ
  send : Sent → Except Exc Unit
  answer : Sent → Except Exc α
  callback : α → Except Exc α
  -- what the handlers and the `finally` block do
  due : Bool
  disconnect : Except Exc Unit
  initializeNodes : Except Exc Unit
  release : Except Exc Unit

structure Script (ρ κ α : Type) where
  now : Attempt ρ κ α
  later : Nat → Attempt ρ κ α
  log : List (Event κ ρ) := []

namespace Script

variable {ρ κ α β : Type}

abbrev M (ρ κ α β : Type) := EStateM Exc (Script ρ κ α) β

def ofExcept : Except Exc β → M ρ κ α β
  | .ok a => return a
  | .error e => throw e

/-- Note an event, whatever then comes of it. -/
def note (e : Event κ ρ) : M ρ κ α Unit := modify fun s => { s with log := s.log ++ [e] }

/-- The script as the client's environment. -/
def ops : Sync.Ops (Script ρ κ α) ρ κ α where
  attempt := modify fun s => { s with now := s.later 0, later := fun n => s.later (n + 1) }
  getNode _ := do return (← get).now.known
  determineSlot := do ofExcept (← get).now.slot
  getNodeFromSlot _ := do ofExcept (← get).now.node
  popStartupNode _ := return ()
  countMoved := do return (← get).now.due
  resetCounter := return ()
  updateMovedException _ := return ()
  getRedisConnection _ := do ofExcept (← get).now.redis
  getConnection p := do
    let c ← ofExcept (← get).now.conn
    note (.obtained c p)
    return c
  sendCommand c what := do
    note (.used c)
    ofExcept ((← get).now.send what)
  parseResponse _ c what := do
    note (.used c)
    ofExcept ((← get).now.answer what)
  callback a := do ofExcept ((← get).now.callback a)
  disconnect c := do
    note (.disconnected c)
    ofExcept (← get).now.disconnect
  forgetConnection _ := return ()
  initializeNodes := do ofExcept (← get).now.initializeNodes
  release p c := do
    note (.released c p)
    ofExcept (← get).now.release

end Script

end RedisPy
