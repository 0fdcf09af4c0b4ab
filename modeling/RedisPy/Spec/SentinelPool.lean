import RedisPy.Library.Course

/-! The connections of a `SentinelConnectionPool` for a master (`redis/sentinel.py`,
`redis/asyncio/sentinel.py`, on the pools of `connection.py`), while sentinels name new masters.
Pools for slaves, `check_connection` and forks are left out; closing a socket does not fail. -/

namespace RedisPy

namespace SentinelPool

/-- Which of the two libraries it is. -/
inductive Library where
  | redis
  | asyncio
  deriving DecidableEq

/-- `(host, port)` -/
abbrev Address := String × Nat

structure Conn where
  address : Address := ("localhost", 6379)
  connected : Bool := false

def Conn.disconnect (c : Conn) : Conn := { c with connected := false }

structure Pool where
  master_address : Option Address := none
  _available_connections : List Conn := []
  _in_use_connections : List Conn := []
  /-- In `redis/connection.py` only. -/
  _created_connections : Nat := 0
  /-- The addresses of the connections that have been handed out, with `master_address` then. -/
  handed : List (Address × Option Address) := []

/-- An attempt of `_connect_retry` on a connection that is not connected. -/
structure Attempt where
  /-- What `discover_master` returns; it raises where this is `none`. -/
  master : Option Address
  /-- `super().connect()` does not raise. -/
  opens : Bool

/-- `get_master_address`, when the sentinels have named a master. -/
def Pool.getMasterAddress (p : Pool) (master : Address) : Pool :=
  if p.master_address = some master then p
  else { p with
    master_address := some master
    _available_connections := p._available_connections.map Conn.disconnect }

/-- `connect`, with the attempts that its retry leaves to it; it raises if the connection is not
connected in the end. -/
def connect (p : Pool) (c : Conn) : List Attempt → Pool × Conn
  | [] => (p, c)
  | attempt :: attempts =>
    if c.connected then (p, c)
    else
      match attempt.master with
      | none => connect p c attempts
      | some master =>
        connect (p.getMasterAddress master) { address := master, connected := attempt.opens } attempts

def Pool.ownsConnection (p : Pool) (c : Conn) : Bool := p.master_address = some c.address

section
variable (lib : Library) (max_connections : Nat)

/-- `release` of a connection that is no longer in use: `redis/asyncio` takes back every one. -/
def Pool.release (p : Pool) (c : Conn) : Pool :=
  match lib with
  | .redis =>
    if p.ownsConnection c then { p with _available_connections := p._available_connections ++ [c] }
    else { p with _created_connections := p._created_connections - 1 }
  | .asyncio => { p with _available_connections := p._available_connections ++ [c] }

/-- No connection can be made. -/
def Pool.full (p : Pool) : Bool :=
  match lib with
  | .redis => max_connections ≤ p._created_connections
  | .asyncio => max_connections ≤ p._in_use_connections.length

/-- The connection that `get_connection` takes, if it does not raise "Too many connections". -/
def Pool.take (p : Pool) : Option (Pool × Conn) :=
  match p._available_connections.getLast? with
  | some c => some ({ p with _available_connections := p._available_connections.dropLast }, c)
  | none =>
    if p.full lib max_connections then none
    else some ({ p with _created_connections := p._created_connections + 1 }, {})

/-- A connection that is connected is handed out, another one goes back. -/
def handOut (r : Pool × Conn) : Pool :=
  if r.2.connected then { r.1 with
    _in_use_connections := r.1._in_use_connections ++ [r.2]
    handed := r.1.handed ++ [(r.2.address, r.1.master_address)] }
  else r.1.release lib r.2

/-- A connection that is not ready is connected anew. -/
structure Unready where
  attempts : List Attempt
  /-- "Connection not ready" -/
  again : Bool

/-- `get_connection`; the connection that is taken may turn out not to be ready. -/
def Pool.getConnection (p : Pool) (attempts : List Attempt) (unready : Option Unready) : Pool :=
  match p.take lib max_connections with
  | none => p
  | some (p, c) =>
    let r := connect p c attempts
    match unready with
    | none => handOut lib r
    | some unready =>
      if r.2.connected then
        let r := connect r.1 r.2.disconnect unready.attempts
        if unready.again then r.1.release lib r.2 else handOut lib r
      else handOut lib r

inductive Call where
  | get_connection (attempts : List Attempt) (unready : Option Unready)
  /-- Of the `i`-th connection in use. -/
  | release (i : Nat)
  /-- The `i`-th connection in use is closed. -/
  | lose (i : Nat)
  /-- The `i`-th connection in use is used, and connects first if it is closed. -/
  | use (i : Nat) (attempts : List Attempt)
  /-- `disconnect` of the pool. -/
  | disconnect (inuse_connections : Bool)

def Pool.step (p : Pool) : Call → Pool
  | .get_connection attempts unready => p.getConnection lib max_connections attempts unready
  | .release i =>
    match p._in_use_connections[i]? with
    | none => p
    | some c => { p with _in_use_connections := p._in_use_connections.eraseIdx i }.release lib c
  | .lose i => { p with _in_use_connections := p._in_use_connections.modify i Conn.disconnect }
  | .use i attempts =>
    match p._in_use_connections[i]? with
    | none => p
    | some c =>
      let r := connect p c attempts
      { r.1 with _in_use_connections := p._in_use_connections.set i r.2 }
  | .disconnect inuse_connections => { p with
      _available_connections := p._available_connections.map Conn.disconnect
      _in_use_connections :=
        if inuse_connections then p._in_use_connections.map Conn.disconnect else p._in_use_connections }

def run (calls : List Call) : Pool := calls.foldl (Pool.step lib max_connections) {}

end

/-- What the pool would hand out without asking the sentinels is connected to the master that they
named last. -/
def Pool.Current (p : Pool) : Prop :=
  ∀ c ∈ p._available_connections, c.connected = true → p.master_address = some c.address

/-- The call gives back a connection to another master, and it is still connected. -/
def Pool.Stale (p : Pool) (call : Call) : Prop :=
  ∃ i c, call = .release i ∧ p._in_use_connections[i]? = some c ∧ c.connected = true ∧
    p.master_address ≠ some c.address

end SentinelPool

end RedisPy
