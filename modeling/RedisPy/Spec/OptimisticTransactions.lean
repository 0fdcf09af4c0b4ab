import RedisPy.Library.Course
import RedisPy.Library.Optimistic

/-! `Redis.transaction` (`redis/client.py`): any number of calls, each a pipeline that watches
keys, runs `func` and executes what `func` has queued, over and over while a `WatchError` is
raised. The server runs one operation of one connection at a time, and a transaction at once.
What is queued sets or deletes keys, which the server does not refuse. -/

namespace RedisPy

namespace OptimisticTransactions

open Optimistic

abbrev Key := String

/-- The reply to `GET`. -/
abbrev Value := Option String

/-- What `transaction` is called with. `func` reads watched keys, one after another, and then
calls `multi` and queues its writes. -/
structure Call where
  watches : List Key
  func : Body Key Value
  watches_ne : watches ≠ []
  reads : func.Within watches

/-- Where a call is. -/
inductive Phase where
  /-- Before `pipe.watch(*watches)`. -/
  | watching
  /-- In `func`, or in `pipe.execute()` when nothing but its writes is left. -/
  | running (rest : Body Key Value)
  | returned
  | raised

def Phase.isReturned : Phase → Bool
  | .returned => true
  | _ => false

structure Task where
  phase : Phase := .watching
  /-- What the server keeps for the connection: it has a WATCH, -/
  watched : Bool := false
  /-- and a watched key has been written since. -/
  dirty : Bool := false

/-- What has been done to the store. -/
inductive Deed where
  | transacted (i : Nat)
  | written (sets : List (Key × Value))
  deriving DecidableEq

structure State where
  store : Key → Value
  tasks : Nat → Task := fun _ => {}
  log : List Deed := []

inductive Event where
  /-- The next operation of a call goes well. -/
  | turn (i : Nat)
  /-- It raises: after the server has run it, if `ran`. If `caught` the call goes on, since a
  `WatchError` is raised for the connection that is lost, or WATCH is tried again. -/
  | fails (i : Nat) (ran caught : Bool)
  /-- `check_health` finds the connection of a call lost and connects anew, without an error. -/
  | reconnects (i : Nat)
  /-- Anybody else writes. -/
  | writes (sets : List (Key × Value))

/-- The server writes, and marks the connections that watch what is written. -/
def State.write (calls : Nat → Call) (s : State) (sets : List (Key × Value)) (deed : Deed) : State :=
  { store := Optimistic.write sets s.store
    tasks := fun j =>
      { s.tasks j with
        dirty := (s.tasks j).dirty ||
          (s.tasks j).watched && decide (Optimistic.Touches (calls j).watches sets) }
    log := s.log ++ [deed] }

/-- A call goes on in another phase. -/
def State.goesTo (s : State) (i : Nat) (phase : Phase) : State :=
  { s with tasks := Function.update s.tasks i { s.tasks i with phase := phase } }

/-- WATCH, from which on the server notes what is written. -/
def State.watch (s : State) (i : Nat) (func : Body Key Value) : State :=
  { s with tasks := Function.update s.tasks i { phase := .running func, watched := true } }

/-- The server forgets the WATCH of a connection. -/
def State.forget (s : State) (i : Nat) : State :=
  { s with tasks := Function.update s.tasks i { phase := (s.tasks i).phase } }

/-- MULTI, the writes and EXEC, which comes to nothing when a watched key has been written. -/
def State.exec (calls : Nat → Call) (s : State) (i : Nat) (sets : List (Key × Value)) : State :=
  if (s.tasks i).dirty then s else s.write calls sets (.transacted i)

/-- The next operation of a call goes well. -/
def turn (calls : Nat → Call) (s : State) (i : Nat) : State :=
  match (s.tasks i).phase with
  | .watching => s.watch i (calls i).func
  | .running (.get key next) => s.goesTo i (.running (next (s.store key)))
  | .running (.done sets) =>
    -- the reply is nil, a `WatchError`, and the loop goes on
    if (s.tasks i).dirty then s.goesTo i .watching
    else (s.exec calls i sets).goesTo i .returned
  | .returned => s
  | .raised => s

/-- It raises. -/
def fail (calls : Nat → Call) (s : State) (i : Nat) (ran caught : Bool) : State :=
  let next : Phase := if caught then .watching else .raised
  match (s.tasks i).phase with
  | .watching => s.goesTo i next
  | .running (.get _ _) => s.goesTo i next
  | .running (.done sets) => (if ran then s.exec calls i sets else s).goesTo i next
  | .returned => s
  | .raised => s

def step (calls : Nat → Call) (s : State) : Event → State
  | .turn i => turn calls s i
  | .fails i ran caught => fail calls s i ran caught
  | .reconnects i => s.forget i
  | .writes sets => s.write calls sets (.written sets)

def run (calls : Nat → Call) (s : State) (events : List Event) : State := events.foldl (step calls) s

/-- What a deed comes to where each call is a single step. -/
def perform (calls : Nat → Call) (store : Key → Value) : Deed → Key → Value
  | .transacted i => (calls i).func.apply store
  | .written sets => Optimistic.write sets store

end OptimisticTransactions

end RedisPy
