import Mathlib.Data.Rat.Floor
import RedisPy.Library.Exclusion
import RedisPy.Library.Interleave
import RedisPy.Spec.Exceptions

/-! `Lock` of `redis/lock.py`: any number of locks on one key, their calls taking turns
with each other and with the clock of the server. The server runs a command or a script
in one turn. A lock is a `Lock` object as the thread sees it that uses it, since the
token is in `threading.local()`; only where `thread_local` is false do all threads see one, and
may take turns between any two looks at it. -/

namespace RedisPy.Locks

open Interleave Exclusion

/-- `uuid.uuid1().hex.encode()`, or the token given to `acquire`. -/
abbrev Token := Nat

/-- The key: the token it holds and the time in ms at which it expires. -/
structure Key where
  token : Token
  expires_at : Option Int := none
  /-- The lock whose `SET` this is. -/
  setBy : Nat
  deriving DecidableEq, Repr

structure Server where
  now : Int := 0
  key : Option Key := none
  deriving DecidableEq, Repr

/-- `int(x * 1000)` -/
def milliseconds (x : Rat) : Int := if 0 ≤ x then ⌊x * 1000⌋ else ⌈x * 1000⌉

namespace Server

variable (s : Server)

/-- `SET name token NX PX px`. An expire time that is not positive is refused. -/
def set (token : Token) (px : Option Int) (by_ : Nat) : Except Exc Bool × Server :=
  match px, s.key with
  | none, none => (.ok true, { s with key := some ⟨token, none, by_⟩ })
  | none, some _ => (.ok false, s)
  | some px, key =>
    if px ≤ 0 then
      (.error { cls := .ResponseError, msg := "invalid expire time in 'set' command" }, s)
    else
      match key with
      | none => (.ok true, { s with key := some ⟨token, some (s.now + px), by_⟩ })
      | some _ => (.ok false, s)

/-- `PEXPIRE name ttl` for the key that is there; it is gone at once unless `ttl` is positive. -/
def pexpire (key : Key) (ttl : Int) : Server :=
  { s with key := if 0 < ttl then some { key with expires_at := some (s.now + ttl) } else none }

/-- `PTTL name` for the key that is there -/
def pttl (key : Key) : Int :=
  match key.expires_at with
  | none => -1
  | some t => t - s.now

/-- `LUA_RELEASE_SCRIPT` -/
def luaRelease (token : Token) : Int × Server :=
  match s.key with
  | none => (0, s)
  | some key => if key.token ≠ token then (0, s) else (1, { s with key := none })

/-- `LUA_EXTEND_SCRIPT` -/
def luaExtend (token : Token) (additional_time : Int) (replace_ttl : Bool) : Int × Server :=
  match s.key with
  | none => (0, s)
  | some key =>
    if key.token ≠ token then (0, s)
    else
      let expiration := s.pttl key
      if expiration < 0 then (0, s)
      else
        let newttl := if replace_ttl then additional_time else additional_time + expiration
        (1, s.pexpire key newttl)

/-- `LUA_REACQUIRE_SCRIPT` -/
def luaReacquire (token : Token) (timeout : Int) : Int × Server :=
  match s.key with
  | none => (0, s)
  | some key => if key.token ≠ token then (0, s) else (1, s.pexpire key timeout)

end Server

/-- What a `Lock` is made with. -/
structure Lock where
  timeout : Option Rat := none
  sleep : Rat := 1 / 10
  blocking : Bool := true
  blocking_timeout : Option Rat := none
  thread_local : Bool := true
  /-- The thread that uses it is the one that has made it. -/
  constructed : Bool := true

structure State where
  server : Server := {}
  /-- `self.local.token` of each lock, where the attribute is there. -/
  token : Nat → Option (Option Token)
  /-- The tokens there have been, and the locks they were made for. -/
  issued : List (Token × Nat) := []

def State.setToken (s : State) (i : Nat) (token : Option Token) : State :=
  { s with token := fun j => if j = i then some token else s.token j }

inductive Call where
  | acquire (sleep : Option Rat) (blocking : Option Bool) (blocking_timeout : Option Rat)
  | release
  | extend (additional_time : Rat) (replace_ttl : Bool)
  | reacquire
  | owned

/-- The locals of `acquire` -/
structure Attempt where
  token : Token
  sleep : Rat
  blocking : Bool
  stop_trying_at : Option Rat

/-- `stop_trying_at is not None and next_try_at > stop_trying_at` -/
def Attempt.late (attempt : Attempt) (next_try_at : Rat) : Bool :=
  match attempt.stop_trying_at with
  | none => false
  | some stop_trying_at => stop_trying_at < next_try_at

inductive Script where
  | release
  | extend (additional_time : Int) (replace_ttl : Bool)
  | reacquire (timeout : Int)

/-- A call between two of its turns; or the clock of the server. -/
inductive Task where
  | called (i : Nat) (call : Call)
  | setting (i : Nat) (attempt : Attempt)
  /-- What `do_acquire` returns is not looked at yet. -/
  | answered (i : Nat) (attempt : Attempt) (r : Bool)
  | acquired (i : Nat) (r : Except Exc Bool)
  /-- `expected_token` has been read. -/
  | releasing (i : Nat) (expected_token : Token)
  /-- A token has been seen, and is to be read once more for the arguments of the script. -/
  | extending (i : Nat) (additional_time : Int) (replace_ttl : Bool)
  | reacquiring (i : Nat) (timeout : Int)
  | scripting (i : Nat) (script : Script) (token : Token)
  | getting (i : Nat)
  | got (i : Nat) (stored_token : Option Token)
  /-- A token has been seen, and is to be read once more. -/
  | comparing (i : Nat) (stored_token : Option Token)
  | returned (i : Nat) (r : Except Exc Bool)
  | clock

/-- What a turn finds: the `monotonic` clock of the client, the token that is made, or the
time that has passed at the server. -/
inductive Event where
  | turn (monotonic : Rat)
  | begins (monotonic : Rat) (token : Token)
  | passes (ms : Nat)
  | expires

/-- `if not bool(r): raise LockNotOwnedError(msg)` -/
def bool (r : Int) (msg : String) : Except Exc Bool :=
  if r = 0 then .error { cls := .LockNotOwnedError, msg := msg } else .ok true

/-- What a script returns, and what `do_release`, `do_extend` or `do_reacquire` makes of it. -/
def runScript (s : State) (token : Token) : Script → Except Exc Bool × State
  | .release =>
    let (r, server) := s.server.luaRelease token
    (bool r "Cannot release a lock that's no longer owned", { s with server := server })
  | .extend additional_time replace_ttl =>
    let (r, server) := s.server.luaExtend token additional_time replace_ttl
    (bool r "Cannot extend a lock that's no longer owned", { s with server := server })
  | .reacquire timeout =>
    let (r, server) := s.server.luaReacquire token timeout
    (bool r "Cannot reacquire a lock that's no longer owned", { s with server := server })

def lockError (i : Nat) (msg : String) : Task := .returned i (.error { cls := .LockError, msg := msg })

/-- `self.local.token`, in a thread in which it has never been set. -/
def noToken (i : Nat) : Task :=
  .returned i (.error
    { cls := .AttributeError, msg := "'_thread._local' object has no attribute 'token'" })

/-- The token among the arguments of a script, where `None` is no argument. -/
def withToken (s : State) (i : Nat) (script : Script) : Task :=
  match s.token i with
  | none => noToken i
  | some none => .returned i (.error
    { cls := .DataError
      msg := "Invalid input of type: 'NoneType'. Convert to a bytes, string, int or float first." })
  | some (some token) => .scripting i script token

/-- One turn of a call. -/
def resume (locks : Nat → Lock) (s : State) : Task → Event → Option (State × Task)
  | .called i (.acquire sleep blocking blocking_timeout), .begins monotonic token =>
    let lock := locks i
    let blocking_timeout := blocking_timeout.or lock.blocking_timeout
    some ({ s with issued := s.issued ++ [(token, i)] },
      .setting i
        { token := token
          sleep := sleep.getD lock.sleep
          blocking := blocking.getD lock.blocking
          stop_trying_at := blocking_timeout.map (monotonic + ·) })
  | .setting i attempt, .turn _ =>
    let timeout := (locks i).timeout.bind fun t => if t = 0 then none else some (milliseconds t)
    match s.server.set attempt.token timeout i with
    | (.ok r, server) => some ({ s with server := server }, .answered i attempt r)
    | (.error e, server) => some ({ s with server := server }, .acquired i (.error e))
  | .answered i attempt true, .turn _ =>
    some (s.setToken i (some attempt.token), .acquired i (.ok true))
  | .answered i attempt false, .turn monotonic =>
    if !attempt.blocking || attempt.late (monotonic + attempt.sleep) then
      some (s, .acquired i (.ok false))
    -- `mod_time.sleep(sleep)`, and once more
    else some (s, .setting i attempt)
  | .called i .release, .turn _ =>
    match s.token i with
    | none => some (s, noToken i)
    | some none => some (s, lockError i "Cannot release an unlocked lock")
    | some (some token) => some (s, .releasing i token)
  | .releasing i expected_token, .turn _ =>
    some (s.setToken i none, .scripting i .release expected_token)
  | .called i (.extend additional_time replace_ttl), .turn _ =>
    match s.token i, (locks i).timeout with
    | none, _ => some (s, noToken i)
    | some none, _ => some (s, lockError i "Cannot extend an unlocked lock")
    | some (some _), none => some (s, lockError i "Cannot extend a lock with no timeout")
    | some (some _), some _ => some (s, .extending i (milliseconds additional_time) replace_ttl)
  | .extending i additional_time replace_ttl, .turn _ =>
    some (s, withToken s i (.extend additional_time replace_ttl))
  | .called i .reacquire, .turn _ =>
    match s.token i, (locks i).timeout with
    | none, _ => some (s, noToken i)
    | some none, _ => some (s, lockError i "Cannot reacquire an unlocked lock")
    | some (some _), none => some (s, lockError i "Cannot reacquire a lock with no timeout")
    | some (some _), some timeout => some (s, .reacquiring i (milliseconds timeout))
  | .reacquiring i timeout, .turn _ => some (s, withToken s i (.reacquire timeout))
  | .scripting i script token, .turn _ =>
    let (r, s) := runScript s token script
    some (s, .returned i r)
  | .called i .owned, .turn _ => some (s, .getting i)
  | .getting i, .turn _ => some (s, .got i (s.server.key.map (·.token)))
  | .got i stored_token, .turn _ =>
    match s.token i with
    | none => some (s, noToken i)
    | some none => some (s, .returned i (.ok false))
    | some (some _) => some (s, .comparing i stored_token)
  | .comparing i stored_token, .turn _ =>
    match s.token i with
    | none => some (s, noToken i)
    | some token => some (s, .returned i (.ok (decide (stored_token = token))))
  | .clock, .passes ms =>
    let now := s.server.now + ms
    let key := s.server.key.filter fun key => match key.expires_at with
      | none => true
      | some t => now < t
    some ({ s with server := { now := now, key := key } }, .clock)
  | .clock, .expires => some ({ s with server := { s.server with key := none } }, .clock)
  | _, _ => none

inductive Job where
  | call (i : Nat) (call : Call)
  | clock

/-- The calls on locks that all have the same name. -/
def program (locks : Nat → Lock) : Program Job State Task Event where
  start
    | .call i call => .called i call
    | .clock => .clock
  resume := resume locks

/-- `__init__` sets `self.local.token` to `None`, for the thread that runs it. -/
def init (locks : Nat → Lock) : World State Task where
  shared := { token := fun i => if (locks i).thread_local && !(locks i).constructed then none else some none }
  tasks := []

/-- What a turn has done to the lock as a whole. -/
def deed (s : State) (t : Task) (s' : State) : Option (Deed Nat) :=
  match t, s.server.key, s'.server.key with
  | .setting i _, none, some _ => some (.acquired i)
  | .scripting i .release _, some _, none => some (.released i)
  -- a `PEXPIRE` to nothing, or the clock
  | _, some _, none => some .expired
  | _, _, _ => none

end RedisPy.Locks
