import RedisPy.Library.Interleave
import RedisPy.Spec.PooledCalls

/-! Commands that tasks run at the same time on one connection: `redis.asyncio.Redis` with
`single_connection_client=True` (`redis/asyncio/client.py`), on which a task waits for
`_single_conn_lock` twice. A task that is cancelled while it uses the connection is a failure of the
network; `aclose` is left out. -/

namespace RedisPy

namespace SingleConnection

open Handshake Interleave Raising

structure Shared where
  /-- `_single_conn_lock` is taken. -/
  locked : Bool := false
  /-- `self.connection` is there. -/
  connection : Bool := false
  wire : Wire := {}

/-- What a task waits for. -/
inductive Phase where
  /-- The lock, in `initialize`. -/
  | starts
  /-- `get_connection`, with the lock. -/
  | getConnection
  /-- The lock, in `execute_command`. -/
  | execute
  /-- The command is being sent, and may be retried so often. -/
  | send (retries : Nat)
  | read (retries : Nat)
  /-- The connection is being closed for what has been raised. -/
  | fail (e : Exc) (retries : Nat)
  | ended

structure Task where
  /-- The command. -/
  n : Nat
  phase : Phase

def Task.goesTo (t : Task) (phase : Phase) : Task := { t with phase := phase }

inductive Event where
  | goOn
  | cancel
  deriving DecidableEq

/-- What a program makes of the connection, and what is done then. -/
def onWire {β : Type} (s : Shared) (m : M β) (done : Shared → Shared × Task)
    (raised : Exc → Shared → Shared × Task) : Shared × Task :=
  match m.run s.wire with
  | .ok _ wire => done { s with wire := wire }
  | .error e wire => raised e { s with wire := wire }

/-- The task ends, and the lock is released. -/
def releases (t : Task) (s : Shared) : Shared × Task := ({ s with locked := false }, t.goesTo .ended)

section
variable (net : Network) (c : Handshake.Settings) (client : Client)

/-- `call_with_retry` catches what has been raised, or the task ends with it. -/
def caught (t : Task) (retries : Nat) (e : Exc) (s : Shared) : Shared × Task :=
  if client.supported_errors e then (s, t.goesTo (.fail e retries)) else releases t s

/-- The command is retried, or the task ends. -/
def retried (t : Task) (s : Shared) : Nat → Shared × Task
  | 0 => releases t s
  | retries + 1 => (s, t.goesTo (.send retries))

/-- A turn of a task; one that has to wait for the lock cannot take it. -/
def resume (s : Shared) (t : Task) (e : Event) : Option (Shared × Task) :=
  match t.phase with
  | .starts =>
    if e = .cancel then some (s, t.goesTo .ended)
    else if s.locked then none
    else if s.connection then some (s, t.goesTo .execute)
    else some ({ s with locked := true }, t.goesTo .getConnection)
  | .getConnection =>
    if e = .cancel then none
    else some (onWire s (Handshake.getConnection net c)
      (fun s => ({ s with locked := false, connection := true }, t.goesTo .execute)) fun _ => releases t)
  | .execute =>
    if e = .cancel then some (s, t.goesTo .ended)
    else if s.locked then none
    else some ({ s with locked := true }, t.goesTo (.send client.retries))
  | .send k =>
    if e = .cancel then none
    else some (onWire s (sendPackedCommand net c [.command t.n]) (fun s => (s, t.goesTo (.read k)))
      (caught client t k))
  | .read k =>
    if e = .cancel then none
    else some (onWire s (parseResponse net client t.n) (releases t) (caught client t k))
  | .fail raised k =>
    if e = .cancel then some (onWire s disconnect (releases t) fun _ => releases t)
    else some (onWire s (disconnectRaise client raised) (fun s => retried t s k) fun _ => releases t)
  | .ended => none

def program : Program Nat Shared Task Event where
  start n := { n := n, phase := .starts }
  resume := resume net c client

/-- What has become of a client and its tasks. -/
def run (moves : List (Move Nat Event)) : World Shared Task :=
  moves.foldl (program net c client).advance { shared := {}, tasks := [] }

end

end SingleConnection

end RedisPy
