import RedisPy.Library.Keyed
import RedisPy.Spec.PubSub

/-! What a `ClusterPubSub` (`redis/cluster.py`) makes of the responses that arrive on its own
connection, as any `PubSub` (`redis/client.py`), and on those of its nodes. Connections do not
break, slots stay where they are and names are normalised. A handler may subscribe and
unsubscribe, and it may raise; it asks for no messages. -/

namespace RedisPy

/-- The type of a response that is a list of a type, a channel and data. -/
inductive PlainType where
  | message | smessage
  | subscribe (k : Kind)
  | unsubscribe (k : Kind)
  deriving DecidableEq, Repr

/-- What `parse_response` reads; no `channel` is one more name. -/
inductive Response (ν D : Type) where
  | pmessage (pattern channel : ν) (data : D)
  | pong (data : D)
  | plain (type : PlainType) (channel : ν) (data : D)
  deriving DecidableEq, Repr

namespace Response

variable {ν D : Type}

/-- The answer to a subscription or to the end of one. -/
def acknowledges : Response ν D → Bool
  | plain (.subscribe _) _ _ => true
  | plain (.unsubscribe _) _ _ => true
  | _ => false

end Response

/-- `message`, the dictionary; its `type` comes with the response. -/
structure PubSubMessage (ν D : Type) where
  response : Response ν D
  pattern : Option ν
  channel : Option ν
  data : D
  deriving DecidableEq, Repr

/-- A `PubSub` with the responses that have arrived for it. -/
structure NodePubSub (ν H D : Type) where
  registered : Kind → Dict ν (Option H) := fun _ => ∅
  pending_unsubscribe : Kind → List ν := fun _ => []
  subscribed_event : Bool := false
  ignore_subscribe_messages : Bool := false
  arrived : List (Response ν D) := []

/-- A call that subscribes or ends subscriptions. Where it may change the mapping of a
`ClusterPubSub`, `passed` is where an iterator over it stands then. -/
inductive SubscribingCall (ν H : Type) where
  | subscribe (k : Kind) (names : List (ν × Option H))
  | unsubscribe (k : Kind) (names : Option (List ν))
  | ssubscribe (s_channels : List (ν × Option H)) (passed : Nat)
  | sunsubscribe (channels : Option (List ν)) (passed : Nat)

/-- What the code has of handlers, of the cluster and of health checks. -/
structure Listening (ν H D : Type) where
  /-- `if handler:` -/
  truthy : H → Bool
  /-- What `handler(message)` does with the object that it is registered with. -/
  acts : H → PubSubMessage ν D → List (SubscribingCall ν H)
  /-- What `handler(message)` raises then. -/
  raises : H → PubSubMessage ν D → Option Exc
  /-- The name of `cluster.get_node_from_key(channel)`. -/
  get_node_from_key : ν → String
  /-- Whether the data of a pong is `HEALTH_CHECK_MESSAGE`. -/
  health_check_message : D → Bool

/-- What happened to responses: which were read (the replies to health checks apart), with the
handler registered for them, which messages were returned, and which were passed to handlers. -/
structure Happened (ν H D : Type) where
  read : List (Response ν D × Option H) := []
  returned : List (PubSubMessage ν D) := []
  passed : List (H × PubSubMessage ν D) := []
  deriving DecidableEq, Repr

namespace Happened

variable {ν H D : Type}

/-- The one after the other. -/
def andThen (a b : Happened ν H D) : Happened ν H D where
  read := a.read ++ b.read
  returned := a.returned ++ b.returned
  passed := a.passed ++ b.passed

end Happened

namespace NodePubSub

variable {ν H D : Type} [DecidableEq ν] (cfg : Listening ν H D)

/-- The dictionary of `handle_message`. -/
def messageOf : Response ν D → PubSubMessage ν D
  | r@(.pmessage pattern channel data) =>
    { response := r, pattern := some pattern, channel := some channel, data := data }
  | r@(.pong data) => { response := r, pattern := none, channel := none, data := data }
  | r@(.plain _ channel data) => { response := r, pattern := none, channel := some channel, data := data }

/-- The handler that is registered for a published message. -/
def handlerFor (p : NodePubSub ν H D) : Response ν D → Option H
  | .pmessage pattern _ _ => ((p.registered .patterns).get? pattern).bind Prod.snd
  | .plain .smessage channel _ => ((p.registered .shard_channels).get? channel).bind Prod.snd
  | .plain .message channel _ => ((p.registered .channels).get? channel).bind Prod.snd
  | _ => none

/-- `not self.channels and not self.patterns and not self.shard_channels` -/
def unregistered (p : NodePubSub ν H D) : Bool :=
  (p.registered .channels).items.isEmpty && (p.registered .patterns).items.isEmpty &&
    (p.registered .shard_channels).items.isEmpty

/-- A pending name is out of both collections. -/
def forget (k : Kind) (name : ν) (p : NodePubSub ν H D) : NodePubSub ν H D :=
  if name ∈ p.pending_unsubscribe k then
    { p with
      pending_unsubscribe := Function.update p.pending_unsubscribe k
        ((p.pending_unsubscribe k).filter (· ≠ name))
      registered := Function.update p.registered k ((p.registered k).erase name) }
  else p

/-- `subscribed_event` when there may be no subscriptions anymore. -/
def clearEvent (p : NodePubSub ν H D) : NodePubSub ν H D :=
  if p.unregistered then { p with subscribed_event := false } else p

/-- The part of `handle_message` about unsubscriptions. -/
def unsubscribed (p : NodePubSub ν H D) : Response ν D → NodePubSub ν H D
  | .plain (.unsubscribe k) name _ => (p.forget k name).clearEvent
  | _ => p

/-- How `handle_message` ends: with a message, without one, or with what a handler raised. -/
abbrev Ending (ν D : Type) := Except Exc (Option (PubSubMessage ν D))

/-- The second part of `handle_message`, with the handler found. -/
def deliver (r : Response ν D) (ignore : Bool) : Option H → Ending ν D × List (H × PubSubMessage ν D)
  | some h =>
    if cfg.truthy h then
      ((cfg.raises h (messageOf r)).elim (.ok none) .error, [(h, messageOf r)])
    else (.ok (some (messageOf r)), [])
  | none => (.ok (if r.acknowledges && ignore then none else some (messageOf r)), [])

/-- One call of `get_message`, and what it did. -/
structure Call (ν H D : Type) where
  pubsub : NodePubSub ν H D
  happened : Happened ν H D := {}
  result : Ending ν D := .ok none

def handleMessage (p : NodePubSub ν H D) (r : Response ν D) (ignore_subscribe_messages : Bool) :
    Call ν H D :=
  let ending := deliver cfg r (ignore_subscribe_messages || p.ignore_subscribe_messages) (p.handlerFor r)
  { pubsub := p.unsubscribed r
    happened :=
      { read := [(r, p.handlerFor r)]
        returned := (ending.1.toOption.bind id).toList
        passed := ending.2 }
    result := ending.1 }

def isHealthCheckResponse : Response ν D → Bool
  | .pong data => cfg.health_check_message data
  | _ => false

def getMessage (p : NodePubSub ν H D) (ignore_subscribe_messages : Bool) : Call ν H D :=
  if p.subscribed_event then
    match p.arrived with
    | [] => { pubsub := p }
    | r :: rs =>
      if isHealthCheckResponse cfg r then { pubsub := { p with arrived := rs } }
      else handleMessage cfg { p with arrived := rs } r ignore_subscribe_messages
  else { pubsub := p }

/-- What `subscribe` and its likes keep. -/
def subscribeTo (k : Kind) (names : List (ν × Option H)) (p : NodePubSub ν H D) : NodePubSub ν H D :=
  { p with
    registered := Function.update p.registered k (names.foldl Keyed.put (p.registered k))
    pending_unsubscribe := Function.update p.pending_unsubscribe k
      ((p.pending_unsubscribe k).filter (· ∉ names.map Prod.fst))
    subscribed_event := true }

/-- What `unsubscribe` and its likes keep; `none` is a call without arguments. -/
def unsubscribeFrom (k : Kind) (names : Option (List ν)) (p : NodePubSub ν H D) : NodePubSub ν H D :=
  { p with
    pending_unsubscribe := Function.update p.pending_unsubscribe k
      (p.pending_unsubscribe k ++
        (names.getD (p.registered k).keys).filter (· ∉ p.pending_unsubscribe k)) }

/-- A response arrives. -/
def arrive (p : NodePubSub ν H D) (r : Response ν D) : NodePubSub ν H D :=
  { p with arrived := p.arrived ++ [r] }

end NodePubSub

/-- `self._pubsubs_generator` with the iterator it is in, which knows how many entries the
mapping had and has passed so many of them. -/
inductive PubSubsGenerator where
  | unstarted
  | suspended (size passed : Nat)
  | finished
  deriving DecidableEq, Repr

namespace PubSubsGenerator

/-- `next(self._pubsubs_generator)`, on a mapping that is not empty. -/
def next (keys : List String) : PubSubsGenerator → Except Exc String × PubSubsGenerator
  | unstarted => (.ok (keys.headD ""), suspended keys.length 1)
  | suspended size passed =>
    if size ≠ keys.length then
      (.error { cls := .RuntimeError, msg := "dictionary changed size during iteration" }, finished)
    else if passed < keys.length then (.ok (keys.getD passed ""), suspended size (passed + 1))
    else (.ok (keys.headD ""), suspended keys.length 1)
  | finished => (.error { cls := .StopIteration }, finished)

/-- Where in the mapping the iterator stands after a change is not said by the language. -/
def moved (passed : Nat) : PubSubsGenerator → PubSubsGenerator
  | suspended size _ => suspended size passed
  | g => g

end PubSubsGenerator

/-- A `ClusterPubSub`, its own connection included; a `PubSub` is one without nodes. -/
structure ClusterPubSub (ν H D : Type) where
  own : NodePubSub ν H D := {}
  /-- `self.connection is not None` -/
  connection : Bool := false
  /-- The keys of `node_pubsub_mapping`. -/
  node_pubsub_mapping : Keyed (id : String → String) := ∅
  /-- Its values. -/
  pubsub : String → NodePubSub ν H D := fun _ => {}
  _pubsubs_generator : PubSubsGenerator := .unstarted

namespace ClusterPubSub

variable {ν H D : Type} [DecidableEq ν] (cfg : Listening ν H D)

/-- `_get_node_pubsub`; the new `PubSub` ignores nothing. -/
def _getNodePubsub (s : ClusterPubSub ν H D) (name : String) : ClusterPubSub ν H D :=
  if name ∈ s.node_pubsub_mapping.keys then s
  else
    { s with
      node_pubsub_mapping := s.node_pubsub_mapping.put name
      pubsub := Function.update s.pubsub name {} }

/-- `ssubscribe` for one channel. -/
def ssubscribeOne (s : ClusterPubSub ν H D) (item : ν × Option H) : ClusterPubSub ν H D :=
  let name := cfg.get_node_from_key item.1
  let s := s._getNodePubsub name
  let p := (s.pubsub name).subscribeTo .shard_channels [(item.1, item.2.filter cfg.truthy)]
  { s with
    pubsub := Function.update s.pubsub name p
    own :=
      { s.own with
        registered := Function.update s.own.registered .shard_channels
          ((p.registered .shard_channels).items.foldl Keyed.put (s.own.registered .shard_channels))
        pending_unsubscribe := Function.update s.own.pending_unsubscribe .shard_channels
          ((s.own.pending_unsubscribe .shard_channels).filter (· ≠ item.1))
        subscribed_event := true } }

/-- `sunsubscribe` for one channel. -/
def sunsubscribeOne (s : ClusterPubSub ν H D) (channel : ν) : ClusterPubSub ν H D :=
  let name := cfg.get_node_from_key channel
  let s := s._getNodePubsub name
  let p := (s.pubsub name).unsubscribeFrom .shard_channels (some [channel])
  { s with
    pubsub := Function.update s.pubsub name p
    own :=
      { s.own with
        pending_unsubscribe := Function.update s.own.pending_unsubscribe .shard_channels
          (s.own.pending_unsubscribe .shard_channels ++
            (p.pending_unsubscribe .shard_channels).filter
              (· ∉ s.own.pending_unsubscribe .shard_channels)) } }

def ssubscribe (s : ClusterPubSub ν H D) (s_channels : List (ν × Option H)) : ClusterPubSub ν H D :=
  s_channels.foldl (ssubscribeOne cfg) s

/-- `sunsubscribe`; `none` is a call without arguments. -/
def sunsubscribe (s : ClusterPubSub ν H D) (channels : Option (List ν)) : ClusterPubSub ν H D :=
  (channels.getD (s.own.registered .shard_channels).keys).foldl (sunsubscribeOne cfg) s

/-- The iterator after a call on `s`. -/
def resized (s : ClusterPubSub ν H D) (passed : Nat) (s' : ClusterPubSub ν H D) : ClusterPubSub ν H D :=
  if s'.node_pubsub_mapping.keys = s.node_pubsub_mapping.keys then s'
  else { s' with _pubsubs_generator := s'._pubsubs_generator.moved passed }

/-- The object after a call that subscribes or ends subscriptions. -/
def subscribing (s : ClusterPubSub ν H D) : SubscribingCall ν H → ClusterPubSub ν H D
  | .subscribe k names => { s with own := s.own.subscribeTo k names, connection := true }
  | .unsubscribe k names => { s with own := s.own.unsubscribeFrom k names, connection := true }
  | .ssubscribe s_channels passed => resized s passed (ssubscribe cfg s s_channels)
  | .sunsubscribe channels passed => resized s passed (sunsubscribe cfg s channels)

/-- The object after the handlers that were called have acted on it. -/
def handled (s : ClusterPubSub ν H D) (passed : List (H × PubSubMessage ν D)) : ClusterPubSub ν H D :=
  (passed.flatMap fun x => cfg.acts x.1 x.2).foldl (subscribing cfg) s

/-- What ends a call: the mapping and its iterator, or anything else. -/
inductive Raised where
  | mapping (e : Exc)
  | other (e : Exc)
  deriving DecidableEq, Repr

/-- What a call did, and the object after it. -/
structure Did (ν H D : Type) where
  object : ClusterPubSub ν H D
  /-- The nodes that were asked for a message, with what was read from them. -/
  polled : List (String × List (Response ν D × Option H)) := []
  happened : Happened ν H D := {}
  /-- The messages that the flags of `get_sharded_message` have held back. -/
  suppressed : List (PubSubMessage ν D) := []
  result : Except Raised (Option (PubSubMessage ν D)) := .ok none

/-- One node is asked; a handler that is called acts on the object. -/
def ask (ignore : Bool) (name : String) (s : ClusterPubSub ν H D) : Did ν H D :=
  let call := NodePubSub.getMessage cfg (s.pubsub name) ignore
  { object := handled cfg { s with pubsub := Function.update s.pubsub name call.pubsub }
      call.happened.passed
    polled := [(name, call.happened.read)]
    happened := call.happened
    result := call.result.mapError .other }

/-- Go on when a node has given nothing. -/
def Did.orElse (first : Did ν H D) (next : ClusterPubSub ν H D → Did ν H D) : Did ν H D :=
  match first.result with
  | .ok none =>
    let rest := next first.object
    { rest with
      polled := first.polled ++ rest.polled
      happened := first.happened.andThen rest.happened }
  | _ => first

/-- `_sharded_message_generator`, with so many turns left. -/
def pollNodes : (turns : Nat) → ClusterPubSub ν H D → Did ν H D
  | 0, s => { object := s }
  | turns + 1, s =>
    match s._pubsubs_generator.next s.node_pubsub_mapping.items with
    | (.error e, g) => { object := { s with _pubsubs_generator := g }, result := .error (.mapping e) }
    | (.ok name, g) => (ask cfg false name { s with _pubsubs_generator := g }).orElse (pollNodes turns)

/-- The node whose subscriptions have ended is taken out. -/
def dropNode (s : ClusterPubSub ν H D) (name : String) : Option Exc × ClusterPubSub ν H D :=
  if name ∈ s.node_pubsub_mapping.keys then
    (none, if (s.pubsub name).subscribed_event then s
      else { s with node_pubsub_mapping := s.node_pubsub_mapping.erase name })
  else (some { cls := .KeyError, msg := name }, s)

/-- What `get_sharded_message` does about an unsubscription that was waited for. -/
def noteUnsubscribed (s : ClusterPubSub ν H D) : Response ν D → Option Exc × ClusterPubSub ν H D
  | .plain (.unsubscribe .shard_channels) channel _ =>
    if channel ∈ s.own.pending_unsubscribe .shard_channels then
      dropNode { s with own := s.own.forget .shard_channels channel } (cfg.get_node_from_key channel)
    else (none, s)
  | _ => (none, s)

/-- What `get_sharded_message` does with what the nodes have given. -/
def conclude (ignore_subscribe_messages : Bool) (p : Did ν H D) : Did ν H D :=
  match p.result with
  | .ok (some m) =>
    let noted := noteUnsubscribed cfg p.object m.response
    match noted.1 with
    | some e =>
      { p with
        object := noted.2
        happened := { p.happened with returned := [] }
        result := .error (.mapping e) }
    | none =>
      let s := { noted.2 with own := noted.2.own.clearEvent }
      if p.object.own.ignore_subscribe_messages || ignore_subscribe_messages then
        { p with
          object := s
          happened := { p.happened with returned := [] }
          suppressed := [m]
          result := .ok none }
      else { p with object := s }
  | _ => p

def getShardedMessage (s : ClusterPubSub ν H D) (ignore_subscribe_messages : Bool) :
    (target_node : Option String) → Did ν H D
  | some name =>
    if name ∈ s.node_pubsub_mapping.keys then
      conclude cfg ignore_subscribe_messages (ask cfg ignore_subscribe_messages name s)
    else { object := s, result := .error (.mapping { cls := .KeyError, msg := name }) }
  | none =>
    conclude cfg ignore_subscribe_messages (pollNodes cfg s.node_pubsub_mapping.items.length s)

/-- `get_message`, which reads from the object's own connection. -/
def getMessage (s : ClusterPubSub ν H D) (ignore_subscribe_messages : Bool) : Did ν H D :=
  if s.own.subscribed_event && !s.connection then
    { object := s, result := .error (.other { cls := .RuntimeError }) }
  else
    let call := NodePubSub.getMessage cfg s.own ignore_subscribe_messages
    { object := handled cfg { s with own := call.pubsub } call.happened.passed
      happened := call.happened
      result := call.result.mapError .other }

/-! ### Courses -/

/-- Calls, and responses that arrive on the object's own connection or on that of a node. Where
a call may change the mapping, `passed` is where an iterator over it stands then. -/
inductive ClusterPubSubCall (ν H D : Type) where
  | subscribe (k : Kind) (names : List (ν × Option H))
  | unsubscribe (k : Kind) (names : Option (List ν))
  | ssubscribe (s_channels : List (ν × Option H)) (passed : Nat)
  | sunsubscribe (channels : Option (List ν)) (passed : Nat)
  | get_message (ignore_subscribe_messages : Bool)
  | get_sharded_message (ignore_subscribe_messages : Bool) (target_node : Option String) (passed : Nat)
  | arrive (node : Option String) (r : Response ν D)

/-- One call, or one response that arrives. -/
def call (s : ClusterPubSub ν H D) : ClusterPubSubCall ν H D → Did ν H D
  | .subscribe k names => { object := subscribing cfg s (.subscribe k names) }
  | .unsubscribe k names => { object := subscribing cfg s (.unsubscribe k names) }
  | .ssubscribe s_channels passed => { object := subscribing cfg s (.ssubscribe s_channels passed) }
  | .sunsubscribe channels passed => { object := subscribing cfg s (.sunsubscribe channels passed) }
  | .get_message ignore => getMessage cfg s ignore
  | .get_sharded_message ignore target passed =>
    let did := getShardedMessage cfg s ignore target
    { did with object := resized s passed did.object }
  | .arrive none r => { object := { s with own := s.own.arrive r } }
  | .arrive (some name) r =>
    { object := { s with
        pubsub := Function.update s.pubsub name ((s.pubsub name).arrive r) } }

/-- What happened in a run. -/
def happened : ClusterPubSub ν H D → List (ClusterPubSubCall ν H D) → Happened ν H D
  | _, [] => {}
  | s, i :: is => (call cfg s i).happened.andThen (happened (call cfg s i).object is)

/-- The states before the calls of a run. -/
def course : ClusterPubSub ν H D → List (ClusterPubSubCall ν H D) →
    List (ClusterPubSub ν H D × ClusterPubSubCall ν H D)
  | _, [] => []
  | s, i :: is => (s, i) :: course (call cfg s i).object is

end ClusterPubSub

end RedisPy
