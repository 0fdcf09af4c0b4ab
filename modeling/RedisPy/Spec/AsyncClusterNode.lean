import RedisPy.Library.Interleave
import RedisPy.Library.Raising
import RedisPy.Spec.Exceptions

/-! `ClusterNode` of `redis/asyncio/cluster.py`: the tasks that execute commands and
pipelines on one node, from one `await` to the next. What packing, connecting, writing
and parsing come to is given from outside; a cancellation is one of their exceptions. -/

namespace RedisPy

namespace AsyncClusterNode

open Interleave

/-- The connection object that was made as the so many-th of its node. -/
abbrev Conn := Nat

structure Node where
  max_connections : Nat
  _connections : List Conn := []
  /-- `collections.deque(maxlen=self.max_connections)` -/
  _free : List Conn := []
  /-- The connections whose `is_connected` is true. -/
  connected : List Conn := []
  deriving DecidableEq, Repr

abbrev M (β : Type) := EStateM Exc Node β

/-- `acquire_connection`; `connection_class(**self.connection_kwargs)` comes to `construct`. -/
def acquireConnection (construct : Except Exc Unit) : M Conn := do
  let s ← get
  match s._free with
  | c :: free =>
    set { s with _free := free }
    return c
  | [] =>
    if s._connections.length < s.max_connections then
      match construct with
      | .error e => throw e
      | .ok () =>
        let c := s._connections.length
        set { s with _connections := s._connections ++ [c] }
        return c
    else throw { cls := .MaxConnectionsError }

namespace Node

variable (s : Node)

/-- `self._free.append(connection)`: a full deque drops its first element. -/
def freeAppend (c : Conn) : Node :=
  { s with
    _free := if s._free.length < s.max_connections then s._free ++ [c]
      else (s._free ++ [c]).drop 1 }

def setConnected (c : Conn) (is_connected : Bool) : Node :=
  { s with connected := if is_connected then s.connected.insert c else s.connected.erase c }

end Node

inductive Job (κ : Type) where
  | execute_command (args : κ)
  | execute_pipeline (commands : List κ)

inductive Result (α : Type) where
  | response (a : α)
  /-- What `execute_pipeline` returns, and the `result` of each command. -/
  | responses (ret : Bool) (results : List (Except Exc α))

/-- A task between two of its turns. -/
inductive Task (κ α : Type) where
  | ready (job : Job κ)
  /-- In `await self.connect()` of `send_packed_command` -/
  | connecting (c : Conn) (job : Job κ)
  /-- In `await self._writer.drain()` of `send_packed_command` -/
  | writing (c : Conn) (job : Job κ)
  /-- In `await self.parse_response(..)` of `execute_command` -/
  | reading (c : Conn)
  /-- In `await self.parse_response(..)` for the first of `left`, in `execute_pipeline` -/
  | readingEach (c : Conn) (ret : Bool) (results : List (Except Exc α)) (cmd : κ) (left : List κ)
  | ended (outcome : Except Exc (Result α))

/-- What a task waits for, and what has become of it. -/
inductive Event (α : Type) where
  /-- The task is started; `packed` is what `pack_command` or `pack_commands` comes to. -/
  | starts (construct packed : Except Exc Unit)
  /-- The task is cancelled before it has started. -/
  | cancelled (e : Exc)
  | connects (r : Except Exc Unit) (is_connected : Bool)
  | writes (r : Except Exc Unit)
  | reads (r : Except Exc α) (is_connected : Bool)

variable {κ α : Type}

/-- The connection a running task holds. -/
def Task.held : Task κ α → List Conn
  | .ready _ => []
  | .connecting c _ => [c]
  | .writing c _ => [c]
  | .reading c => [c]
  | .readingEach c _ _ _ _ => [c]
  | .ended _ => []

/-- The loop of `execute_pipeline` over the commands whose responses are still to be
read, up to its next `await`; after the last one the connection is released. -/
def readResponses (s : Node) (c : Conn) (ret : Bool) (results : List (Except Exc α)) :
    List κ → Node × Task κ α
  | cmd :: left => (s, .readingEach c ret results cmd left)
  | [] => (s.freeAppend c, .ended (.ok (.responses ret results)))

/-- One turn of `execute_command` or `execute_pipeline`. -/
def resume (s : Node) : Task κ α → Event α → Option (Node × Task κ α)
  | .ready _, .cancelled e => some (s, .ended (.error e))
  | .ready job, .starts construct packed =>
    match (acquireConnection construct).run s with
    | .error e s => some (s, .ended (.error e))
    | .ok c s =>
      match packed with
      | .error e => some (s, .ended (.error e))
      | .ok () => some (s, if c ∈ s.connected then .writing c job else .connecting c job)
  | .connecting c job, .connects r is_connected =>
    let s := s.setConnected c is_connected
    match r with
    | .error e => some (s, .ended (.error e))
    | .ok () => some (s, .writing c job)
  | .writing c _, .writes (.error e) =>
    -- `await self.disconnect(nowait=True)`
    some (s.setConnected c false, .ended (.error e))
  | .writing c (.execute_command _), .writes (.ok ()) => some (s, .reading c)
  | .writing c (.execute_pipeline commands), .writes (.ok ()) =>
    some (readResponses s c false [] commands)
  | .reading c, .reads r is_connected =>
    -- the `finally` releases the connection
    some ((s.setConnected c is_connected).freeAppend c, .ended (r.map .response))
  | .readingEach c ret results _ left, .reads r is_connected =>
    let s := s.setConnected c is_connected
    match r with
    | .ok a => some (readResponses s c ret (results ++ [.ok a]) left)
    | .error e =>
      if e.isinstance .Exception then
        some (readResponses s c true (results ++ [.error e]) left)
      else some (s, .ended (.error e))
  | _, _ => none

/-- Tasks on one node. -/
def program : Program (Job κ) Node (Task κ α) (Event α) where
  start := .ready
  resume := resume

/-- A node no task has used yet. -/
def init (max_connections : Nat) : World Node (Task κ α) where
  shared := { max_connections := max_connections }
  tasks := []

/-- `n` connections are acquired one after another, each of which can be made. -/
def acquireConnections : Nat → M (List Conn)
  | 0 => return []
  | n + 1 => do
    let c ← acquireConnection (.ok ())
    let cs ← acquireConnections n
    return c :: cs

end AsyncClusterNode

end RedisPy
