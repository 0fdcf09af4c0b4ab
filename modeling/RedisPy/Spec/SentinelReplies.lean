import RedisPy.Spec.ClientInfo
import RedisPy.Spec.Sentinel

/-! The replies of a sentinel under either protocol: the callbacks for `SENTINEL MASTERS`,
`SENTINEL MASTER` and `SENTINEL SLAVES` of RESP2 and RESP3 (`redis/_parsers/helpers.py`), and
`discover_master` and `discover_slaves` on what they make of a reply (`redis/sentinel.py`). -/

namespace RedisPy

/-- A value in a parsed state. -/
inductive StateValue where
  | text (t : ClientText)
  | int (i : Int)
  | bool (b : Bool)
  /-- `set(flags)`, its elements in some order. -/
  | flagSet (flags : List Chars)
  deriving DecidableEq, Repr

/-- A parsed state. Its keys are text or bytes. -/
abbrev ParsedState := Dict ClientText StateValue

namespace SentinelReplies

/-- A key as a literal in the source. -/
def key (s : String) : ClientText := .str s.toList

/-- `SENTINEL_STATE_TYPES`; every type in it is `int`. -/
def stateTypes : List ClientText :=
  ["can-failover-its-master", "config-epoch", "down-after-milliseconds", "failover-timeout",
    "info-refresh", "last-hello-message", "last-ok-ping-reply", "last-ping-reply", "last-ping-sent",
    "master-link-down-time", "master-port", "num-other-sentinels", "num-slaves", "o-down-time",
    "pending-commands", "parallel-syncs", "port", "quorum", "role-reported-time", "s-down-time",
    "slave-priority", "slave-repl-offset", "voted-leader-epoch"].map key

/-- `state[k]` -/
def getItem (state : ParsedState) (k : ClientText) : Except Exc StateValue :=
  match state.get? k with
  | some (_, v) => .ok v
  | none => .error { cls := .KeyError, msg := String.ofList (strIfBytes k) }

/-- `int(value)`, for a value of a reply. -/
def intOf (value : ClientText) : Option Int := Numeral.readInt (strIfBytes value)

/-- The value of one field of `pairs_to_dict_typed`: "if for some reason the value can't be
coerced, just use the string value". -/
def typed (k value : ClientText) : StateValue :=
  if k ∈ stateTypes then
    match intOf value with
    | some i => .int i
    | none => .text value
  else .text value

/-- `pairs_to_dict_typed(item, SENTINEL_STATE_TYPES)`, after what it has read. -/
def pairsToDictTyped (result : ParsedState) : List ClientText → ParsedState
  | k :: value :: item => pairsToDictTyped (result.put (k, typed k value)) item
  | _ => result

/-- `set(v.split(","))` -/
def splitFlags : StateValue → Except Exc (List Chars)
  | .text (.str t) => .ok (t.splitOn ',')
  | .text (.bytes _) =>
    .error { cls := .TypeError, msg := "a bytes-like object is required, not 'str'" }
  | .int _ => .error { cls := .AttributeError, msg := "'int' object has no attribute 'split'" }
  | .bool _ => .error { cls := .AttributeError, msg := "'bool' object has no attribute 'split'" }
  | .flagSet _ => .error { cls := .AttributeError, msg := "'set' object has no attribute 'split'" }

/-- The derived flags, with the flag each one stands for. -/
def derivedFlags : List (String × String) :=
  [("is_master", "master"), ("is_slave", "slave"), ("is_sdown", "s_down"), ("is_odown", "o_down"),
    ("is_sentinel", "sentinel"), ("is_disconnected", "disconnected"),
    ("is_master_down", "master_down")]

/-- `parse_sentinel_state`, of anything that the items are taken from one after the other. -/
def parseSentinelState (item : List ClientText) : Except Exc ParsedState := do
  let result := pairsToDictTyped ∅ item
  let flags ← splitFlags (← getItem result (key "flags"))
  pure (derivedFlags.foldl
    (fun result p => result.put (key p.1, .bool (flags.contains p.2.toList))) result)

/-- A state as the server has it: the names of its fields and their values. -/
structure Monitored where
  fields : List (ClientText × ClientText)
  nodup : (fields.map Prod.fst).Nodup
  has_flags : ∃ f ∈ fields, strIfBytes f.1 = "flags".toList
  has_name : ∃ f ∈ fields, strIfBytes f.1 = "name".toList

/-- A state as RESP2 sends it, a flat array. -/
def Monitored.flat (m : Monitored) : List ClientText := m.fields.flatMap fun f => [f.1, f.2]

/-- A state as RESP3 sends it, a map. -/
def Monitored.map (m : Monitored) : Dict ClientText ClientText := ⟨m.fields, m.nodup⟩

def parseSentinelMaster (response : List ClientText) : Except Exc ParsedState :=
  parseSentinelState (response.map fun x => .str (strIfBytes x))

/-- The loop of `parse_sentinel_state_resp3`. Where the value is not taken by its type, both
keys are read as text. -/
def readStateResp3 (response : Dict ClientText ClientText) (result : ParsedState) :
    List ClientText → Except Exc ParsedState
  | [] => .ok result
  | k :: keys =>
    match if k ∈ stateTypes then (response.get? k).bind fun p => intOf p.2 else none with
    | some i => readStateResp3 response (result.put (.str (strIfBytes k), .int i)) keys
    | none =>
      match response.get? (.str (strIfBytes k)) with
      | some (_, value) =>
        readStateResp3 response (result.put (.str (strIfBytes k), .text value)) keys
      | none => .error { cls := .KeyError, msg := String.ofList (strIfBytes k) }

def parseSentinelStateResp3 (response : Dict ClientText ClientText) : Except Exc ParsedState := do
  let result ← readStateResp3 response ∅ response.keys
  let flags ← splitFlags (← getItem result (key "flags"))
  pure (result.put (key "flags", .flagSet flags))

/-- What the callback for `SENTINEL MASTERS` returns. -/
inductive MastersReply where
  | dict (masters : Dict StateValue ParsedState)
  | list (masters : List ParsedState)

/-- The loop of `parse_sentinel_masters`. -/
def readMasters (result : Dict StateValue ParsedState) :
    List (List ClientText) → Except Exc (Dict StateValue ParsedState)
  | [] => .ok result
  | item :: response => do
    let state ← parseSentinelState (item.map fun x => .str (strIfBytes x))
    readMasters (result.put (← getItem state (key "name"), state)) response

def parseSentinelMasters (response : List (List ClientText)) : Except Exc MastersReply :=
  (readMasters ∅ response).map .dict

/-- `parse_sentinel_masters_resp3`: what is gone through in a map is its keys. -/
def parseSentinelMastersResp3 (response : List (Dict ClientText ClientText)) :
    Except Exc MastersReply :=
  (response.mapM fun master => parseSentinelState master.keys).map .list

/-- `parse_sentinel_slaves_and_sentinels` -/
def parseSentinelSlaves (response : List (List ClientText)) : Except Exc (List ParsedState) :=
  response.mapM fun item => parseSentinelState (item.map fun x => .str (strIfBytes x))

/-- `parse_sentinel_slaves_and_sentinels_resp3` -/
def parseSentinelSlavesResp3 (response : List (Dict ClientText ClientText)) :
    Except Exc (List ParsedState) :=
  response.mapM parseSentinelStateResp3

/-- The protocol of the connection to a sentinel. -/
inductive SentinelProtocol where
  | resp2 | resp3
  deriving DecidableEq, Repr

/-- `SENTINEL MASTERS`, from the server to the caller. -/
def sentinelMasters : SentinelProtocol → List Monitored → Except Exc MastersReply
  | .resp2, masters => parseSentinelMasters (masters.map Monitored.flat)
  | .resp3, masters => parseSentinelMastersResp3 (masters.map Monitored.map)

def sentinelMaster : SentinelProtocol → Monitored → Except Exc ParsedState
  | .resp2, m => parseSentinelMaster m.flat
  | .resp3, m => parseSentinelStateResp3 m.map

def sentinelSlaves : SentinelProtocol → List Monitored → Except Exc (List ParsedState)
  | .resp2, slaves => parseSentinelSlaves (slaves.map Monitored.flat)
  | .resp3, slaves => parseSentinelSlavesResp3 (slaves.map Monitored.map)

/-- `masters.get(service_name)` -/
def getMaster (service_name : Chars) : MastersReply → Except Exc (Option ParsedState)
  | .dict masters => .ok ((masters.get? (.text (.str service_name))).map Prod.snd)
  | .list _ => .error { cls := .AttributeError, msg := "'list' object has no attribute 'get'" }

/-- `bool(v)` -/
def StateValue.truthy : StateValue → Bool
  | .text t => t ≠ .str [] ∧ t ≠ .bytes []
  | .int i => i ≠ 0
  | .bool b => b
  | .flagSet flags => !flags.isEmpty

/-- `v < n` -/
def lessThan (n : Int) : StateValue → Except Exc Bool
  | .int i => .ok (i < n)
  | .bool b => .ok ((if b then 1 else 0) < n)
  | _ => .error { cls := .TypeError, msg := "'<' not supported between these instances" }

def checkMasterState (min_other_sentinels : Int) (state : ParsedState) : Except Exc Bool := do
  if !StateValue.truthy (← getItem state (key "is_master")) then pure false
  else if StateValue.truthy (← getItem state (key "is_sdown")) then pure false
  else if StateValue.truthy (← getItem state (key "is_odown")) then pure false
  else pure !(← lessThan min_other_sentinels (← getItem state (key "num-other-sentinels")))

section Discovery

variable (min_other_sentinels : Int) (describe : Nat → Exc → String)

/-- What `discover_master` makes of one answer: an address, or on to the next sentinel. -/
def masterOfAnswer (service_name : Chars) (masters : MastersReply) :
    Except Exc (Option (StateValue × StateValue)) := do
  match ← getMaster service_name masters with
  | none => pure none
  | some state =>
    if ← checkMasterState min_other_sentinels state then
      pure (some (← getItem state (key "ip"), ← getItem state (key "port")))
    else pure none

/-- `discover_master` over the sentinels' answers, without a forced address. An answer is the
monitored masters, or what the call raised. -/
def discoverMaster (p : SentinelProtocol) (service_name : Chars) (sentinel_no : Nat)
    (collected_errors : List String) :
    List (Except Exc (List Monitored)) → Except Exc (StateValue × StateValue)
  | [] => .error (Sentinel.masterNotFound (String.ofList service_name) collected_errors)
  | answer :: answers =>
    match answer.bind (sentinelMasters p) with
    | .error e =>
      if e.isinstanceAny [.ConnectionError, .TimeoutError] then
        discoverMaster p service_name (sentinel_no + 1) (collected_errors ++ [describe sentinel_no e])
          answers
      else .error e
    | .ok masters =>
      match masterOfAnswer min_other_sentinels service_name masters with
      | .error e => .error e
      | .ok (some address) => .ok address
      | .ok none => discoverMaster p service_name (sentinel_no + 1) collected_errors answers

def filterSlaves : List ParsedState → Except Exc (List (StateValue × StateValue))
  | [] => .ok []
  | slave :: slaves => do
    let down ← if StateValue.truthy (← getItem slave (key "is_odown")) then pure true
      else (getItem slave (key "is_sdown")).map StateValue.truthy
    if down then filterSlaves slaves
    else
      let address := (← getItem slave (key "ip"), ← getItem slave (key "port"))
      pure (address :: (← filterSlaves slaves))

/-- `discover_slaves` over the sentinels' answers. -/
def discoverSlaves (p : SentinelProtocol) :
    List (Except Exc (List Monitored)) → Except Exc (List (StateValue × StateValue))
  | [] => .ok []
  | answer :: answers =>
    match answer.bind (sentinelSlaves p) with
    | .error e =>
      if e.isinstanceAny [.ConnectionError, .ResponseError, .TimeoutError] then
        discoverSlaves p answers
      else .error e
    | .ok slaves =>
      match filterSlaves slaves with
      | .error e => .error e
      | .ok [] => discoverSlaves p answers
      | .ok alive => .ok alive

end Discovery

end SentinelReplies

end RedisPy
