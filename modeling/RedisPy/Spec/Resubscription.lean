import RedisPy.Library.Keyed
import RedisPy.Library.Raising
import RedisPy.Spec.PubSub
import RedisPy.Spec.Python

/-! `PubSub.on_connect` (`redis/client.py`, `redis/asyncio/client.py`) with the names themselves:
they are decoded, passed as keyword arguments, encoded for the wire and normalised again. Sending
succeeds here. -/

namespace RedisPy

open Raising

/-- What `encode` and `decode` do with the client's encoding and error handler, and two texts that
are names of parameters. -/
structure TextCodec (τ : Type) where
  decode : Bytes → Except Exc τ
  encode : τ → Except Exc Bytes
  self : τ
  target_node : τ

/-- A key of a dictionary of subscriptions. -/
inductive SubscriptionKey (τ : Type) where
  | str (t : τ)
  | bytes (b : Bytes)
  deriving DecidableEq, Repr

/-- `Encoder` -/
structure SubscriptionEncoder (τ : Type) extends TextCodec τ where
  decode_responses : Bool

namespace SubscriptionEncoder

variable {τ : Type} (enc : SubscriptionEncoder τ)

/-- `encoder.decode(k, force=True)` -/
def forceText : SubscriptionKey τ → Except Exc τ
  | .str t => .ok t
  | .bytes b => enc.decode b

/-- `encoder.decode(b)` -/
def keyOf (b : Bytes) : Except Exc (SubscriptionKey τ) :=
  if enc.decode_responses then (enc.decode b).map .str else .ok (.bytes b)

/-- `decode(encode(t))` -/
def normalizeKey (t : τ) : Except Exc (SubscriptionKey τ) :=
  match enc.encode t with
  | .error e => .error e
  | .ok b => enc.keyOf b

end SubscriptionEncoder

/-- The dictionary of these items, which come one after the other. -/
def dictOf {κ H : Type} [DecidableEq κ] (items : List (κ × H)) : Dict κ H := items.foldl Keyed.put ∅

/-- A `PubSub` with its dictionaries, and what has been sent on its connection. -/
structure Subscriptions (τ H : Type) where
  registered : Kind → Dict (SubscriptionKey τ) H
  pending_unsubscribe : Kind → List (SubscriptionKey τ) := fun _ => []
  sent : List (Kind × List Bytes) := []

namespace Subscriptions

variable {τ H : Type} [DecidableEq τ] (enc : SubscriptionEncoder τ)

abbrev M (τ H β : Type) := EStateM Exc (Subscriptions τ H) β

def raises {β : Type} : Except Exc β → M τ H β
  | .ok b => return b
  | .error e => throw e

/-- `{self.encoder.decode(k, force=True): v for k, v in d.items()}` -/
def forcedItems (d : Dict (SubscriptionKey τ) H) : Except Exc (Dict τ H) :=
  (d.items.mapM fun item => (enc.forceText item.1).map fun t => (t, item.2)).map dictOf

/-- The keyword arguments that the method receives. It has a parameter `self` already, and
`ssubscribe` one that is called `target_node`. -/
def bindKwargs (k : Kind) (kwargs : Dict τ H) : Except Exc (Dict τ H) :=
  if enc.self ∈ kwargs.keys then
    .error { cls := .TypeError, msg := "got multiple values for argument 'self'" }
  else .ok (if k = .shard_channels then kwargs.erase enc.target_node else kwargs)

def normalizeKeys (kwargs : Dict τ H) : Except Exc (Dict (SubscriptionKey τ) H) :=
  (kwargs.items.mapM fun item => (enc.normalizeKey item.1).map fun key => (key, item.2)).map dictOf

/-- `subscribe(**kwargs)`, `psubscribe(**kwargs)` or `ssubscribe(**kwargs)` -/
def subscribeKwargs (k : Kind) (kwargs : Dict τ H) : M τ H Unit := do
  let new ← raises (bindKwargs enc k kwargs)
  let names ← raises (new.keys.mapM enc.encode)
  modify fun s => { s with sent := s.sent ++ [(k, names)] }
  let new ← raises (normalizeKeys enc new)
  modify fun s =>
    { s with
      registered := Function.update s.registered k (new.items.foldl Keyed.put (s.registered k))
      pending_unsubscribe := Function.update s.pending_unsubscribe k
        ((s.pending_unsubscribe k).filter (· ∉ new.keys)) }

/-- The part of `on_connect` for one dictionary. -/
def resubscribeTo (k : Kind) : M τ H Unit := do
  let s ← get
  if (s.registered k).items ≠ [] then
    let kwargs ← raises (forcedItems enc (s.registered k))
    subscribeKwargs enc k kwargs

def resubscribeAll : List Kind → M τ H Unit
  | [] => return ()
  | k :: ks => do
    resubscribeTo enc k
    resubscribeAll ks

/-- `on_connect`; `kinds` are the dictionaries that the client has. -/
def onConnect (kinds : List Kind) : M τ H Unit := do
  modify fun s => { s with pending_unsubscribe := fun _ => [] }
  resubscribeAll enc kinds

end Subscriptions

/-- The dictionaries of the two clients, in the order of `on_connect`. -/
def syncKinds : List Kind := [.channels, .patterns, .shard_channels]

def asyncKinds : List Kind := [.channels, .patterns]

namespace Subscriptions

variable {τ H : Type} [DecidableEq τ] (enc : SubscriptionEncoder τ)

/-- The dictionary that subscribing to the names, in this order, has left. A name that cannot
be decoded for it has raised then. -/
def registeredFor (names : List (Bytes × H)) : Dict (SubscriptionKey τ) H :=
  dictOf (names.filterMap fun p => (enc.keyOf p.1).toOption.map fun key => (key, p.2))

end Subscriptions

end RedisPy
