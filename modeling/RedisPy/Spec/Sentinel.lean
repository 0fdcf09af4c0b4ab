import RedisPy.Library.Interleave
import RedisPy.Spec.Exceptions

/-! `Sentinel.discover_master` (`redis/sentinel.py`, `redis/asyncio/sentinel.py`). A sentinel
is asked over the network, and the asynchronous call gives the others a turn meanwhile. -/

namespace RedisPy

/-- The state of one service, as `sentinel_masters` returns it. -/
structure MasterState where
  is_master : Bool
  is_sdown : Bool
  is_odown : Bool
  num_other_sentinels : Int
  ip : String
  port : Int
  deriving DecidableEq, Repr

/-- `sentinel_masters()`: the services by name, or what it raises. -/
abbrev SentinelMasters := Except Exc (List (String × MasterState))

/-- `Sentinel`; its clients are of any kind, and `describe` is `f"{sentinel} - {e!r}"`. -/
structure Sentinel (κ : Type) where
  sentinels : List κ
  min_other_sentinels : Int := 0
  _force_master_ip : Option String := none
  describe : κ → Exc → String := fun _ _ => ""

namespace Sentinel

variable {κ : Type} (S : Sentinel κ)

def checkMasterState (state : MasterState) : Bool :=
  if !state.is_master || state.is_sdown || state.is_odown then false
  else if state.num_other_sentinels < S.min_other_sentinels then false
  else true

/-- The master of a service that passes the check, in what a sentinel has answered. -/
def masterIn (service_name : String) (masters : List (String × MasterState)) : Option MasterState :=
  (masters.lookup service_name).filter S.checkMasterState

/-- "Put this sentinel at the top of the list": the two assignments, the right-hand side
taken first. -/
def putFirst (sentinel_no : Nat) (sentinel : κ) : Sentinel κ :=
  match S.sentinels with
  | [] => S
  | first :: _ => { S with sentinels := (S.sentinels.set 0 sentinel).set sentinel_no first }

/-- The exception at the end of the loop. -/
def masterNotFound (service_name : String) (collected_errors : List String) : Exc where
  cls := .MasterNotFoundError
  msg := "No master found for '" ++ service_name ++ "'" ++
    if collected_errors.length > 0 then " : " ++ ", ".intercalate collected_errors else ""

/-- The rounds of the loop in `redis/sentinel.py` for the clients that are left; `ask` is what
each of them answers. -/
def discoverFrom (service_name : String) (ask : Nat → SentinelMasters) (sentinel_no : Nat)
    (collected_errors : List String) : List κ → Except Exc (String × Int) × Sentinel κ
  | [] => (.error (masterNotFound service_name collected_errors), S)
  | sentinel :: sentinels =>
    match ask sentinel_no with
    | .error e =>
      if e.isinstanceAny [.ConnectionError, .TimeoutError] then
        discoverFrom service_name ask (sentinel_no + 1)
          (collected_errors ++ [S.describe sentinel e]) sentinels
      else (.error e, S)
    | .ok masters =>
      match S.masterIn service_name masters with
      | some state =>
        (.ok (S._force_master_ip.getD state.ip, state.port), S.putFirst sentinel_no sentinel)
      | none => discoverFrom service_name ask (sentinel_no + 1) collected_errors sentinels

def discoverMaster (service_name : String) (ask : Nat → SentinelMasters) :
    Except Exc (String × Int) × Sentinel κ :=
  S.discoverFrom service_name ask 0 [] S.sentinels

end Sentinel

/-- An asynchronous `discover_master` between two of its turns. -/
inductive Discovery (κ : Type) where
  | called (service_name : String)
  /-- It awaits `sentinel.sentinel_masters()`. -/
  | asking (service_name : String) (sentinel_no : Nat) (sentinel : κ) (collected_errors : List String)
  | returned (master : String × Int)
  | raised (e : Exc)

/-- What a turn of it begins with. -/
inductive DiscoveryTurn where
  | starts
  | answered (masters : SentinelMasters)

namespace Discovery

variable {κ : Type}

/-- The head of the loop: the iterator reads the list as it is now. -/
def next (S : Sentinel κ) (service_name : String) (sentinel_no : Nat)
    (collected_errors : List String) : Discovery κ :=
  match S.sentinels[sentinel_no]? with
  | some sentinel => asking service_name sentinel_no sentinel collected_errors
  | none => raised (Sentinel.masterNotFound service_name collected_errors)

/-- A turn of `discover_master` in `redis/asyncio/sentinel.py`: up to the next `await`. -/
def resume (S : Sentinel κ) : Discovery κ → DiscoveryTurn → Option (Sentinel κ × Discovery κ)
  | called service_name, .starts => some (S, next S service_name 0 [])
  | asking service_name sentinel_no sentinel collected_errors, .answered (.error e) =>
    if e.isinstanceAny [.ConnectionError, .TimeoutError] then
      some (S, next S service_name (sentinel_no + 1) (collected_errors ++ [S.describe sentinel e]))
    else some (S, raised e)
  | asking service_name sentinel_no sentinel collected_errors, .answered (.ok masters) =>
    match S.masterIn service_name masters with
    | some state => some (S.putFirst sentinel_no sentinel, returned (state.ip, state.port))
    | none => some (S, next S service_name (sentinel_no + 1) collected_errors)
  | _, _ => none

/-- The calls of `discover_master` on one `Sentinel`. -/
def program (κ : Type) : Interleave.Program String (Sentinel κ) (Discovery κ) DiscoveryTurn where
  start := called
  resume := resume

end Discovery

/-- The calls made and the turns taken, in one order or another. -/
abbrev DiscoveryMove := Interleave.Move String DiscoveryTurn

abbrev SentinelWorld (κ : Type) := Interleave.World (Sentinel κ) (Discovery κ)

end RedisPy
