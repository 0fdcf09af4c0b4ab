import Mathlib.Logic.Function.Basic
import RedisPy.Library.Raising
import RedisPy.Spec.Exceptions

/-! `PubSub` of the sync client (`redis/client.py`) and of the asyncio one
(`redis/asyncio/client.py`), its connection, and the server at the other end. A name
stands for its encoded form. What the network does is given from outside. Health
checks, published messages and message handlers are left out. -/

namespace RedisPy

open Raising

/-- The dictionaries of subscriptions: `channels`, `patterns` and `shard_channels`. -/
inductive Kind where
  | channels | patterns | shard_channels
  deriving DecidableEq, Repr

/-- SUBSCRIBE, PSUBSCRIBE and SSUBSCRIBE, or UNSUBSCRIBE and its likes. -/
inductive Request (ν : Type) where
  | SUBSCRIBE (k : Kind) (names : List ν)
  | UNSUBSCRIBE (k : Kind) (names : List ν)
  deriving DecidableEq, Repr

/-- The dictionary that the request is about. -/
def Request.kind {ν : Type} : Request ν → Kind
  | .SUBSCRIBE k _ => k
  | .UNSUBSCRIBE k _ => k

def Request.names {ν : Type} : Request ν → List ν
  | .SUBSCRIBE _ names => names
  | .UNSUBSCRIBE _ names => names

inductive Ack (ν : Type) where
  | subscribe (k : Kind) (name : ν)
  | unsubscribe (k : Kind) (name : Option ν)
  | error
  deriving DecidableEq, Repr

/-- How names are encoded. -/
structure NameEncoder (ν : Type) where
  /-- `decode(encode(name))`, the key under which the name is kept. -/
  normalize : ν → Except Exc ν
  /-- `decode(key, force=True)`, the name under which `on_connect` subscribes to it. -/
  force : ν → Except Exc ν
  /-- The names `self` and `target_node`, as `force` gives them. -/
  self : ν
  target_node : ν

/-- What a `PubSub` has from its connection and its pool. -/
structure PubSubSettings (ν : Type) where
  /-- The client is the asyncio one. -/
  asyncio : Bool
  encoder : NameEncoder ν
  /-- `conn.retry`, which has `_retries` that are not negative. -/
  retries : Nat
  supported_errors : Exc → Bool
  /-- `isinstance(error, tuple(conn.retry_on_error))` -/
  retry_on_error : Exc → Bool

/-- The dictionaries there are, in the order of `on_connect`. -/
def PubSubSettings.kinds {ν : Type} (cfg : PubSubSettings ν) : List Kind :=
  if cfg.asyncio then [.channels, .patterns] else [.channels, .patterns, .shard_channels]

/-- A `PubSub`, its connection with what is under way on it, and what the server holds
for that connection. -/
structure PubSub (ν : Type) where
  /-- `self.connection is not None` -/
  connection : Bool := false
  /-- The keys of the dictionary. -/
  registered : Kind → List ν := fun _ => []
  pending_unsubscribe : Kind → List ν := fun _ => []
  /-- The sync client alone looks at it. -/
  subscribed_event : Bool := false
  /-- `conn._sock is not None` -/
  sock : Bool := false
  /-- The connection is not broken. -/
  alive : Bool := false
  requests : List (Request ν) := []
  replies : List (Ack ν) := []
  server : Kind → List ν := fun _ => []
  /-- What the next operations on sockets come to. -/
  outcomes : List (Option Exc) := []

namespace PubSub

variable {ν β : Type} [DecidableEq ν]

abbrev M (ν β : Type) := EStateM Exc (PubSub ν) β

/-! ### The server -/

/-- One request: what the server then holds, and its replies. -/
def serve (server : Kind → List ν) : Request ν → (Kind → List ν) × List (Ack ν)
  | .SUBSCRIBE k names =>
    if names = [] then (server, [.error])
    else (Function.update server k (server k ++ names.filter (· ∉ server k)),
      names.map (.subscribe k))
  | .UNSUBSCRIBE k names =>
    if names = [] then
      (Function.update server k [],
        if server k = [] then [.unsubscribe k none] else (server k).map fun a => .unsubscribe k (some a))
    else (Function.update server k ((server k).filter (· ∉ names)),
      names.map fun a => .unsubscribe k (some a))

/-! ### The connection -/

/-- The next operation on a socket. -/
def draw : M ν Unit := do
  match (← get).outcomes with
  | [] => return ()
  | o :: os =>
    modify fun s => { s with outcomes := os }
    match o with
    | none => return ()
    | some e => throw e

/-- `conn.disconnect()`: what was under way is lost, and the server forgets the connection. -/
def disconnect : M ν Unit := modify fun s =>
  { s with sock := false, alive := false, requests := [], replies := [], server := fun _ => [] }

/-- A new socket. -/
def opened : M ν Unit := modify fun s =>
  { s with sock := true, alive := true, requests := [], replies := [], server := fun _ => [] }

/-- `conn.send_command(...)`; on a broken connection what is sent is lost. -/
def sendCommand (connect : M ν Unit) (r : Request ν) : M ν Unit := do
  if !(← get).sock then connect
  tryCatch draw (fun e => do
    disconnect
    throw e)
  modify fun s => if s.alive then { s with requests := s.requests ++ [r] } else s

def _disconnectRaiseConnect (cfg : PubSubSettings ν) (connect : M ν Unit) (e : Exc) : M ν Unit := do
  disconnect
  if cfg.retry_on_error e then connect else throw e

/-- `_execute`, with the loop of `call_with_retry`. -/
def _execute (cfg : PubSubSettings ν) (connect : M ν Unit) (command : M ν β) :
    (retries : Nat) → M ν β
  | 0 => tryCatch command (fun e => do
      if cfg.supported_errors e then
        _disconnectRaiseConnect cfg connect e
        throw e
      else throw e)
  | retries + 1 => tryCatch command (fun e => do
      if cfg.supported_errors e then
        _disconnectRaiseConnect cfg connect e
        _execute cfg connect command retries
      else throw e)

/-! ### Calls -/

/-- The property `subscribed`. -/
def subscribed (cfg : PubSubSettings ν) (s : PubSub ν) : Bool :=
  if cfg.asyncio then s.registered .channels ≠ [] ∨ s.registered .patterns ≠ []
  else s.subscribed_event

def _normalizeKeys (cfg : PubSubSettings ν) (names : List ν) : M ν (List ν) :=
  match names.mapM cfg.encoder.normalize with
  | .ok keys => return keys
  | .error e => throw e

/-- `execute_command`, which gets a connection at the first time. -/
def executeCommand (cfg : PubSubSettings ν) (connect : M ν Unit) (r : Request ν) : M ν Unit := do
  if !(← get).connection then
    draw
    opened
    modify fun s => { s with connection := true }
  else if cfg.asyncio then connect
  _execute cfg connect (sendCommand connect r) cfg.retries

/-- `subscribe` and its likes: the dictionary is updated after the command is sent. -/
def subscribeTo (cfg : PubSubSettings ν) (connect : M ν Unit) (k : Kind) (names : List ν) :
    M ν Unit := do
  executeCommand cfg connect (.SUBSCRIBE k names.eraseDups)
  let keys ← _normalizeKeys cfg names.eraseDups
  modify fun s =>
    { s with
      registered := Function.update s.registered k
        (s.registered k ++ keys.filter (· ∉ s.registered k))
      subscribed_event := true
      pending_unsubscribe := Function.update s.pending_unsubscribe k
        ((s.pending_unsubscribe k).filter (· ∉ keys)) }

/-- `unsubscribe` and its likes; `none` is a call without arguments. -/
def unsubscribeFrom (cfg : PubSubSettings ν) (connect : M ν Unit) (k : Kind)
    (names : Option (List ν)) : M ν Unit := do
  let registered := (← get).registered k
  let keys ← names.elim (return registered) (_normalizeKeys cfg)
  modify fun s =>
    { s with
      pending_unsubscribe := Function.update s.pending_unsubscribe k
        (s.pending_unsubscribe k ++ keys.filter (· ∉ s.pending_unsubscribe k)) }
  executeCommand cfg connect (.UNSUBSCRIBE k (names.getD []))

section
variable (cfg : PubSubSettings ν) (connect : M ν Unit)

def subscribe : List ν → M ν Unit := subscribeTo cfg connect .channels

def psubscribe : List ν → M ν Unit := subscribeTo cfg connect .patterns

def ssubscribe : List ν → M ν Unit := subscribeTo cfg connect .shard_channels

def unsubscribe : Option (List ν) → M ν Unit := unsubscribeFrom cfg connect .channels

def punsubscribe : Option (List ν) → M ν Unit := unsubscribeFrom cfg connect .patterns

def sunsubscribe : Option (List ν) → M ν Unit := unsubscribeFrom cfg connect .shard_channels

/-- The call for each dictionary. -/
def subscribeCall : Kind → List ν → M ν Unit
  | .channels => subscribe cfg connect
  | .patterns => psubscribe cfg connect
  | .shard_channels => ssubscribe cfg connect

def unsubscribeCall : Kind → Option (List ν) → M ν Unit
  | .channels => unsubscribe cfg connect
  | .patterns => punsubscribe cfg connect
  | .shard_channels => sunsubscribe cfg connect

theorem subscribeCall_eq (k : Kind) (names : List ν) :
    subscribeCall cfg connect k names = subscribeTo cfg connect k names := by
  cases k <;> rfl

theorem unsubscribeCall_eq (k : Kind) (names : Option (List ν)) :
    unsubscribeCall cfg connect k names = unsubscribeFrom cfg connect k names := by
  cases k <;> rfl

end

/-- The names that come to a method as keyword arguments. It has a parameter `self`
already, and `ssubscribe` one that is called `target_node`. -/
def bindKeywords (cfg : PubSubSettings ν) (k : Kind) (names : List ν) : Except Exc (List ν) :=
  if cfg.encoder.self ∈ names then
    .error { cls := .TypeError, msg := "got multiple values for argument 'self'" }
  else .ok (if k = .shard_channels then names.filter (· ≠ cfg.encoder.target_node) else names)

/-- The part of `on_connect` for one dictionary after the other. -/
def resubscribe (cfg : PubSubSettings ν) (connect : M ν Unit) : List Kind → M ν Unit
  | [] => return ()
  | k :: ks => do
    if (← get).registered k ≠ [] then
      match ((← get).registered k).mapM cfg.encoder.force >>= bindKeywords cfg k with
      | .ok names => subscribeCall cfg connect k names
      | .error e => throw e
    resubscribe cfg connect ks

def onConnect (cfg : PubSubSettings ν) (connect : M ν Unit) : M ν Unit := do
  modify fun s => { s with pending_unsubscribe := fun _ => [] }
  resubscribe cfg connect cfg.kinds

/-- `conn.connect()` with its callback `on_connect`, when a socket can be opened so many
times, one from within the callback of the other. -/
def connect (cfg : PubSubSettings ν) : (opens : Nat) → M ν Unit
  | 0 => do
    if !(← get).sock then throw { cls := .ConnectionError }
  | opens + 1 => do
    if !(← get).sock then
      draw
      opened
      onConnect cfg (connect cfg opens)

/-- `read_response`, where `none` stands for no reply in time; the sync client connects
before it, if it has to. -/
def readReply (cfg : PubSubSettings ν) (connect : M ν Unit) : M ν (Option (Ack ν)) := do
  if !cfg.asyncio then connect
  draw
  match (← get).replies with
  | [] => return none
  | r :: rs =>
    modify fun s => { s with replies := rs }
    return some r

def parseResponse (cfg : PubSubSettings ν) (opens : Nat) : M ν (Option (Ack ν)) := do
  if !(← get).connection then throw { cls := .RuntimeError }
  if cfg.asyncio then connect cfg opens
  _execute cfg (connect cfg opens) (readReply cfg (connect cfg opens)) cfg.retries

/-- A name that is pending is out of the dictionary. -/
def popUnsubscribed (cfg : PubSubSettings ν) (k : Kind) : Option ν → M ν Unit
  | some a => do
    let keys ← _normalizeKeys cfg [a]
    modify fun s =>
      if ∃ key ∈ keys, key ∈ s.pending_unsubscribe k then
        { s with
          pending_unsubscribe := Function.update s.pending_unsubscribe k
            ((s.pending_unsubscribe k).filter (· ∉ keys))
          registered := Function.update s.registered k ((s.registered k).filter (· ∉ keys)) }
      else s
  | none => return ()

/-- The part of `handle_message` for an acknowledged unsubscription. -/
def handleUnsubscribe (cfg : PubSubSettings ν) (k : Kind) (name : Option ν) : M ν Unit := do
  popUnsubscribed cfg k name
  modify fun s =>
    if s.registered .channels = [] ∧ s.registered .patterns = [] ∧ s.registered .shard_channels = []
    then { s with subscribed_event := false } else s

/-- `handle_message`; an error reply has been raised by `parse_response`. -/
def handleMessage (cfg : PubSubSettings ν) : Ack ν → M ν Unit
  | .subscribe _ _ => return ()
  | .unsubscribe k name => handleUnsubscribe cfg k name
  | .error => throw { cls := .ResponseError }

/-- `get_message`; the sync client returns at once if it is not subscribed. -/
def getMessage (cfg : PubSubSettings ν) (opens : Nat) : M ν Unit := do
  if cfg.asyncio || subscribed cfg (← get) then
    match ← parseResponse cfg opens with
    | some r => handleMessage cfg r
    | none => return ()

/-! ### Courses -/

/-- What the network does during a call: how often a socket can be opened, and what
the operations come to. -/
structure Network where
  opens : Nat := 1
  outcomes : List (Option Exc) := []

inductive PubSubCall (ν : Type) where
  | subscribe (k : Kind) (names : List ν) (net : Network)
  | unsubscribe (k : Kind) (names : Option (List ν)) (net : Network)
  | get_message (net : Network)
  | serve
  /-- So many of the replies can still be read. -/
  | lose (n : Nat)
  | disconnect

/-- A call on an object that has this dictionary. -/
def PubSubCall.Allowed (cfg : PubSubSettings ν) : PubSubCall ν → Prop
  | .subscribe k _ _ => k ∈ cfg.kinds
  | .unsubscribe k _ _ => k ∈ cfg.kinds
  | _ => True

/-- The server takes the next request. -/
def served (s : PubSub ν) : PubSub ν :=
  match s.requests with
  | [] => s
  | r :: rs =>
    { s with
      requests := rs
      server := (serve s.server r).1
      replies := s.replies ++ (serve s.server r).2 }

/-- The connection breaks, and the server notices. -/
def lost (n : Nat) (s : PubSub ν) : PubSub ν :=
  { s with alive := false, requests := [], replies := s.replies.take n, server := fun _ => [] }

def withNetwork (net : Network) (m : M ν Unit) : M ν Unit := do
  modify fun s => { s with outcomes := net.outcomes }
  m

def call (cfg : PubSubSettings ν) : PubSubCall ν → M ν Unit
  | .subscribe k names net => withNetwork net (subscribeCall cfg (connect cfg net.opens) k names)
  | .unsubscribe k names net => withNetwork net (unsubscribeCall cfg (connect cfg net.opens) k names)
  | .get_message net => withNetwork net (getMessage cfg net.opens)
  | .serve => modify served
  | .lose n => modify (lost n)
  | .disconnect => disconnect

def step (cfg : PubSubSettings ν) (s : PubSub ν) (i : PubSubCall ν) : PubSub ν :=
  state ((call cfg i).run s)

end PubSub

end RedisPy
