import Mathlib
import RedisPy.Spec.ShardedMessages

/-! Who gets the messages that a `ClusterPubSub` reads, and which nodes it asks for them. -/

namespace RedisPy

namespace NodePubSub

variable {ν H D : Type} [DecidableEq ν] (cfg : Listening ν H D)

/-- The response that a `PubSub` hands over next, with the handler registered for it: there is none
without a subscription, and none for the reply to a health check. -/
def next (p : NodePubSub ν H D) : Option (Response ν D × Option H) :=
  if p.subscribed_event then
    (p.arrived.head?.filter fun r => !isHealthCheckResponse cfg r).map fun r => (r, p.handlerFor r)
  else none

/-- What a call of `get_message` ends the asking of nodes with: a response that it returns, or an
exception of a handler. -/
def heard (ignore : Bool) (p : NodePubSub ν H D) : Option (Option (Response ν D × Option H)) :=
  (p.next cfg).bind fun x =>
    match (deliver cfg x.1 (ignore || p.ignore_subscribe_messages) x.2).1 with
    | .ok none => none
    | .ok (some _) => some (some x)
    | .error _ => some none

variable {cfg} {p : NodePubSub ν H D} {ignore : Bool} {x : Response ν D × Option H}

theorem handlerFor_of_acknowledges {r : Response ν D} (h : r.acknowledges = true) :
    p.handlerFor r = none := by
  cases r with
  | pmessage pattern channel data => cases h
  | pong data => cases h
  | plain type channel data => cases type <;> first | rfl | cases h

theorem next_handler (h : p.next cfg = some x) : x.2 = p.handlerFor x.1 := by
  unfold next at h
  split at h
  · obtain ⟨r, -, rfl⟩ := Option.map_eq_some_iff.mp h
    rfl
  · cases h

variable (ignore) in
theorem getMessage_of_next_none (h : p.next cfg = none) :
    (getMessage cfg p ignore).result = .ok none ∧ (getMessage cfg p ignore).happened = {} := by
  unfold next at h
  unfold getMessage
  split
  · rename_i hsub
    rw [if_pos hsub, Option.map_eq_none_iff] at h
    cases harrived : p.arrived with
    | nil => exact ⟨rfl, rfl⟩
    | cons r rs =>
      have hhealth : isHealthCheckResponse cfg r = true := by
        rw [harrived, List.head?_cons] at h
        simpa using h
      simp only [hhealth, if_true, and_self]
  · exact ⟨rfl, rfl⟩

variable (ignore) in
theorem getMessage_of_next_some (h : p.next cfg = some x) :
    (getMessage cfg p ignore).result =
        (deliver cfg x.1 (ignore || p.ignore_subscribe_messages) x.2).1 ∧
      (getMessage cfg p ignore).happened =
        { read := [x]
          returned := (((deliver cfg x.1 (ignore || p.ignore_subscribe_messages) x.2).1).toOption.bind
            id).toList
          passed := (deliver cfg x.1 (ignore || p.ignore_subscribe_messages) x.2).2 } := by
  unfold next at h
  split at h
  · rename_i hsub
    obtain ⟨r, hr, rfl⟩ := Option.map_eq_some_iff.mp h
    obtain ⟨hhead, hhealth⟩ := Option.filter_eq_some_iff.mp hr
    obtain ⟨rs, hrs⟩ := List.head?_eq_some_iff.mp hhead
    have hother : isHealthCheckResponse cfg r = false := by simpa using hhealth
    simp only [getMessage, if_pos hsub, hrs, hother, Bool.false_eq_true, if_false, handleMessage]
    exact ⟨rfl, rfl⟩
  · cases h

end NodePubSub

namespace Happened

variable {ν H D : Type}

/-- Everything read but acknowledgements is returned, in its order, if it has no handler, and
passed to the handler if it has one. -/
def Accounted (a : Happened ν H D) : Prop :=
  a.returned.filter (fun m => !m.response.acknowledges) =
      (a.read.filter fun x => !x.1.acknowledges && x.2.isNone).map (fun x => NodePubSub.messageOf x.1) ∧
    a.passed = a.read.filterMap fun x => x.2.map fun h => (h, NodePubSub.messageOf x.1)

theorem accounted_empty : Accounted ({} : Happened ν H D) := ⟨rfl, rfl⟩

theorem accounted_andThen {a b : Happened ν H D} (ha : Accounted a) :
    Accounted (a.andThen b) ↔ Accounted b := by
  unfold Accounted andThen
  simp only [List.filter_append, List.map_append, List.filterMap_append, ha.1, ha.2,
    List.append_cancel_left_eq]

theorem andThen_empty (a : Happened ν H D) : a.andThen {} = a := by
  simp [andThen]

end Happened

namespace NodePubSub

variable {ν H D : Type} [DecidableEq ν] {cfg : Listening ν H D} {p : NodePubSub ν H D}
  {ignore : Bool} {x : Response ν D × Option H}

omit [DecidableEq ν] in
@[simp] theorem response_messageOf (r : Response ν D) : (messageOf r).response = r := by
  cases r <;> rfl

variable (cfg ignore) in
omit [DecidableEq ν] in
/-- One response is accounted for when its handler counts as one. -/
theorem accounted_deliver_iff {r : Response ν D} {o : Option H} (hack : r.acknowledges = true → o = none) :
    Happened.Accounted
        { read := [(r, o)]
          returned := ((deliver cfg r ignore o).1.toOption.bind id).toList
          passed := (deliver cfg r ignore o).2 } ↔
      ∀ h, o = some h → cfg.truthy h = true := by
  cases o with
  | none =>
    refine iff_of_true ?_ (by simp)
    cases hr : r.acknowledges <;> cases ignore <;>
      simp [Happened.Accounted, deliver, hr, Except.toOption]
  | some h =>
    have hr : r.acknowledges = false := by
      by_contra hr
      cases hack (by simpa using hr)
    by_cases ht : cfg.truthy h = true
    · refine iff_of_true ?_ (by simpa using ht)
      cases hraise : cfg.raises h (messageOf r) <;>
        simp [Happened.Accounted, deliver, ht, hraise, Except.toOption]
    · refine iff_of_false ?_ (by simpa using ht)
      simp [Happened.Accounted, deliver, ht, hr, Except.toOption]

omit [DecidableEq ν] in
theorem deliver_some {r : Response ν D} {o : Option H} {m : PubSubMessage ν D}
    (h : (deliver cfg r ignore o).1 = .ok (some m)) :
    m = messageOf r ∧ (deliver cfg r ignore o).2 = [] := by
  cases o with
  | none =>
    cases hr : (r.acknowledges && ignore) <;> simp_all [deliver]
  | some handler =>
    by_cases ht : cfg.truthy handler = true
    · cases hraise : cfg.raises handler (messageOf r) <;> simp [deliver, ht, hraise] at h
    · simp_all [deliver]

omit [DecidableEq ν] in
theorem truthy_of_deliver {r : Response ν D} {o : Option H}
    (h : ∀ m, (deliver cfg r ignore o).1 ≠ .ok (some m)) :
    ∀ handler, o = some handler → cfg.truthy handler = true := by
  rintro handler rfl
  by_contra ht
  exact h (messageOf r) (by simp [deliver, ht])

theorem accounted_getMessage_iff :
    (getMessage cfg p ignore).happened.Accounted ↔
      ∀ x, p.next cfg = some x → ∀ h, x.2 = some h → cfg.truthy h = true := by
  cases hnext : p.next cfg with
  | none =>
    rw [(getMessage_of_next_none ignore hnext).2]
    exact iff_of_true Happened.accounted_empty fun _ h => by cases h
  | some x =>
    rw [(getMessage_of_next_some ignore hnext).2, accounted_deliver_iff cfg _ fun h =>
      (next_handler hnext).trans (handlerFor_of_acknowledges h)]
    simp

end NodePubSub

/-! ### Taking turns -/

namespace PubSubsGenerator

variable {keys : List String} {g : PubSubsGenerator}

/-- The generator has not ended, and its iterator knows how many entries there are. -/
def Live (keys : List String) (g : PubSubsGenerator) : Prop :=
  g = unstarted ∨ ∃ passed, g = suspended keys.length passed

/-- The nodes in the order in which they come next. -/
def turns (keys : List String) : PubSubsGenerator → List String
  | unstarted => keys
  | suspended size passed =>
    if size = keys.length then keys.rotate (if passed < keys.length then passed else 0) else []
  | finished => []

theorem rotate_wrapped {n : Nat} (h : n ≤ keys.length) :
    keys.rotate (if n < keys.length then n else 0) = keys.rotate n := by
  split
  · rfl
  · rw [Nat.le_antisymm h (Nat.not_lt.mp ‹_›), List.rotate_zero, List.rotate_length]

theorem turns_suspended {n : Nat} (h : n ≤ keys.length) :
    turns keys (suspended keys.length n) = keys.rotate n := by
  rw [turns, if_pos rfl, rotate_wrapped h]

theorem turns_perm (h : Live keys g) : (turns keys g).Perm keys := by
  rcases h with rfl | ⟨passed, rfl⟩
  · exact .refl _
  · rw [turns, if_pos rfl]
    exact List.rotate_perm _ _

theorem turns_of_not_live (h : ¬Live keys g) : turns keys g = [] := by
  cases g with
  | unstarted => exact absurd (.inl rfl) h
  | suspended size passed => exact if_neg fun hsize => h (.inr ⟨passed, by rw [hsize]⟩)
  | finished => rfl

theorem next_of_not_live (h : ¬Live keys g) : ∃ e g', g.next keys = (.error e, g') := by
  cases g with
  | unstarted => exact absurd (.inl rfl) h
  | suspended size passed =>
    exact ⟨_, _, if_pos fun hsize => h (.inr ⟨passed, by rw [hsize]⟩)⟩
  | finished => exact ⟨_, _, rfl⟩

/-- The node whose turn it is has the last turn then. -/
theorem next_of_live (h : Live keys g) (hne : keys ≠ []) :
    ∃ x rest passed, g.next keys = (.ok x, suspended keys.length passed) ∧ turns keys g = x :: rest ∧
      turns keys (suspended keys.length passed) = rest ++ [x] := by
  obtain ⟨x, rest, hkeys⟩ := List.exists_cons_of_ne_nil hne
  have hpos := List.length_pos_iff.mpr hne
  have hfirst : turns keys (suspended keys.length 1) = rest ++ [x] := by
    rw [turns_suspended hpos, hkeys, List.rotate_cons_succ, List.rotate_zero]
  rcases h with rfl | ⟨passed, rfl⟩
  · exact ⟨x, rest, 1, by rw [next, hkeys]; rfl, hkeys, hfirst⟩
  · by_cases hpassed : passed < keys.length
    · have hhead := List.head?_rotate hpassed
      obtain ⟨y, rest', hturn⟩ := List.exists_cons_of_ne_nil
        (l := keys.rotate passed) (by simpa using hne)
      rw [hturn, List.head?_cons] at hhead
      refine ⟨y, rest', passed + 1, ?_, ?_, ?_⟩
      · rw [next, if_neg (by simp), if_pos hpassed, List.getD_eq_getElem?_getD, ← hhead]
        rfl
      · rw [turns_suspended hpassed.le, hturn]
      · rw [turns_suspended hpassed, ← Nat.add_one, ← List.rotate_rotate, hturn, List.rotate_cons_succ,
          List.rotate_zero]
    · refine ⟨x, rest, 1, ?_, ?_, hfirst⟩
      · rw [next, if_neg (by simp), if_neg hpassed, hkeys]
        rfl
      · rw [turns, if_pos rfl, if_neg hpassed, List.rotate_zero, hkeys]

end PubSubsGenerator

namespace ClusterPubSub

open NodePubSub

variable {ν H D : Type} [DecidableEq ν] {cfg : Listening ν H D} {s s' : ClusterPubSub ν H D}

/-! ### What handlers do -/

/-- Handlers add nodes only, and while they add none the iterator over the nodes stays as it is. -/
structure Extends (s s' : ClusterPubSub ν H D) : Prop where
  kept : s'.node_pubsub_mapping.items = s.node_pubsub_mapping.items →
    s'._pubsubs_generator = s._pubsubs_generator
  grown : s'.node_pubsub_mapping.items ≠ s.node_pubsub_mapping.items →
    s.node_pubsub_mapping.items.length < s'.node_pubsub_mapping.items.length ∧
      ∃ passed, s'._pubsubs_generator = s._pubsubs_generator.moved passed
  ignores : s'.own.ignore_subscribe_messages = s.own.ignore_subscribe_messages

omit [DecidableEq ν] in
theorem Extends.refl (s : ClusterPubSub ν H D) : Extends s s :=
  ⟨fun _ => rfl, fun h => absurd rfl h, rfl⟩

theorem moved_moved (g : PubSubsGenerator) (n m : Nat) : (g.moved n).moved m = g.moved m := by
  cases g <;> rfl

omit [DecidableEq ν] in
theorem Extends.trans {s'' : ClusterPubSub ν H D} (h : Extends s s') (h' : Extends s' s'') :
    Extends s s'' := by
  by_cases hfirst : s'.node_pubsub_mapping.items = s.node_pubsub_mapping.items
  · refine ⟨fun he => ?_, fun hne => ?_, h'.ignores.trans h.ignores⟩
    · rw [h'.kept (he.trans hfirst.symm), h.kept hfirst]
    · obtain ⟨hlength, passed, hmoved⟩ := h'.grown fun he => hne (he.trans hfirst)
      exact ⟨hfirst ▸ hlength, passed, by rw [hmoved, h.kept hfirst]⟩
  · obtain ⟨hlength, passed, hmoved⟩ := h.grown hfirst
    by_cases hsecond : s''.node_pubsub_mapping.items = s'.node_pubsub_mapping.items
    · refine ⟨fun he => absurd (hsecond.symm.trans he) hfirst, fun _ => ?_, h'.ignores.trans h.ignores⟩
      exact ⟨hsecond ▸ hlength, passed, by rw [h'.kept hsecond, hmoved]⟩
    · obtain ⟨hlength', passed', hmoved'⟩ := h'.grown hsecond
      refine ⟨fun he => ?_, fun _ => ?_, h'.ignores.trans h.ignores⟩
      · rw [he] at hlength'
        exact absurd hlength (Nat.not_lt.mpr hlength'.le)
      · exact ⟨hlength.trans hlength', passed', by rw [hmoved', hmoved, moved_moved]⟩

/-- Nodes are added at the end, and nothing else of this changes. -/
structure Appends (s s' : ClusterPubSub ν H D) : Prop where
  nodes : s.node_pubsub_mapping.items <+: s'.node_pubsub_mapping.items
  generator : s'._pubsubs_generator = s._pubsubs_generator
  ignores : s'.own.ignore_subscribe_messages = s.own.ignore_subscribe_messages

omit [DecidableEq ν] in
theorem Appends.trans {s'' : ClusterPubSub ν H D} (h : Appends s s') (h' : Appends s' s'') :
    Appends s s'' :=
  ⟨h.nodes.trans h'.nodes, h'.generator.trans h.generator, h'.ignores.trans h.ignores⟩

omit [DecidableEq ν] in
theorem appends_getNodePubsub (s : ClusterPubSub ν H D) (name : String) :
    Appends s (s._getNodePubsub name) := by
  unfold _getNodePubsub
  split
  · exact ⟨List.prefix_refl _, rfl, rfl⟩
  · rename_i hnew
    refine ⟨?_, rfl, rfl⟩
    simp only [Keyed.put, id_eq, if_neg hnew]
    exact List.prefix_append _ _

theorem appends_ssubscribeOne (s : ClusterPubSub ν H D) (item : ν × Option H) :
    Appends s (ssubscribeOne cfg s item) := by
  obtain ⟨hnodes, hgenerator, hignores⟩ := appends_getNodePubsub s (cfg.get_node_from_key item.1)
  exact ⟨hnodes, hgenerator, hignores⟩

theorem appends_sunsubscribeOne (s : ClusterPubSub ν H D) (channel : ν) :
    Appends s (sunsubscribeOne cfg s channel) := by
  obtain ⟨hnodes, hgenerator, hignores⟩ := appends_getNodePubsub s (cfg.get_node_from_key channel)
  exact ⟨hnodes, hgenerator, hignores⟩

omit [DecidableEq ν] in
theorem appends_foldl {α : Type} {f : ClusterPubSub ν H D → α → ClusterPubSub ν H D}
    (h : ∀ s a, Appends s (f s a)) (l : List α) (s : ClusterPubSub ν H D) : Appends s (l.foldl f s) := by
  induction l generalizing s with
  | nil => exact ⟨List.prefix_refl _, rfl, rfl⟩
  | cons a l ih => exact (h s a).trans (ih _)

omit [DecidableEq ν] in
theorem extends_resized (h : Appends s s') (passed : Nat) : Extends s (resized s passed s') := by
  unfold resized
  split
  · rename_i hsame
    have hitems : s'.node_pubsub_mapping.items = s.node_pubsub_mapping.items := by
      simpa [Keyed.keys] using hsame
    exact ⟨fun _ => h.generator, fun hne => absurd hitems hne, h.ignores⟩
  · rename_i hother
    have hne : s'.node_pubsub_mapping.items ≠ s.node_pubsub_mapping.items := by
      simpa [Keyed.keys] using hother
    refine ⟨fun he => absurd he hne, fun _ => ⟨?_, passed, congrArg (PubSubsGenerator.moved passed) h.generator⟩, h.ignores⟩
    exact lt_of_le_of_ne h.nodes.length_le fun he => hne (h.nodes.eq_of_length he).symm

theorem extends_subscribing (s : ClusterPubSub ν H D) (c : SubscribingCall ν H) :
    Extends s (subscribing cfg s c) := by
  cases c with
  | subscribe k names => exact ⟨fun _ => rfl, fun h => absurd rfl h, rfl⟩
  | unsubscribe k names => exact ⟨fun _ => rfl, fun h => absurd rfl h, rfl⟩
  | ssubscribe s_channels passed =>
    exact extends_resized (appends_foldl appends_ssubscribeOne _ s) passed
  | sunsubscribe channels passed =>
    exact extends_resized (appends_foldl appends_sunsubscribeOne _ s) passed

variable (cfg) in
theorem extends_handled (s : ClusterPubSub ν H D) (passed : List (H × PubSubMessage ν D)) :
    Extends s (handled cfg s passed) := by
  unfold handled
  generalize passed.flatMap _ = calls
  induction calls generalizing s with
  | nil => exact .refl s
  | cons c calls ih => exact (extends_subscribing s c).trans (ih _)

variable (cfg) in
theorem extends_ask (ignore : Bool) (name : String) (s : ClusterPubSub ν H D) :
    Extends s (ask cfg ignore name s).object := by
  obtain ⟨hkept, hgrown, hignores⟩ := extends_handled cfg
    { s with pubsub := Function.update s.pubsub name (NodePubSub.getMessage cfg (s.pubsub name) ignore).pubsub }
    (NodePubSub.getMessage cfg (s.pubsub name) ignore).happened.passed
  exact ⟨hkept, hgrown, hignores⟩

/-! ### Turns -/

/-- The turn of a node: the nodes whose turn is still to come, what the node is told to ignore,
and the object when it is asked. -/
structure Turn (ν H D : Type) where
  name : String
  rest : List String := []
  ignore : Bool := false
  object : ClusterPubSub ν H D

namespace Turn

variable (cfg) (t : Turn ν H D)

def did : Did ν H D := ask cfg t.ignore t.name t.object

/-- The response that the node hands over. -/
def next : Option (Response ν D × Option H) := (t.object.pubsub t.name).next cfg

/-- What the turn ends the asking of nodes with. -/
def heard : Option (Option (Response ν D × Option H)) := (t.object.pubsub t.name).heard cfg t.ignore

/-- The handler that is called adds a node. -/
abbrev Grows : Prop :=
  (t.did cfg).object.node_pubsub_mapping.items ≠ t.object.node_pubsub_mapping.items

end Turn

/-- The object when the next node is asked. -/
def advanced (s : ClusterPubSub ν H D) : ClusterPubSub ν H D :=
  { s with _pubsubs_generator := (s._pubsubs_generator.next s.node_pubsub_mapping.items).2 }

/-- The turns of these nodes, until a response ends them or a handler has added a node. -/
def visits (cfg : Listening ν H D) : List String → ClusterPubSub ν H D → List (Turn ν H D)
  | [], _ => []
  | name :: rest, s =>
    let t : Turn ν H D := { name := name, rest := rest, object := s.advanced }
    t :: if (t.heard cfg).isNone ∧ ¬t.Grows cfg then visits cfg rest (t.did cfg).object else []

/-- What these turns end with, and in which one. -/
def ended (cfg : Listening ν H D) (ts : List (Turn ν H D)) :
    Option (Turn ν H D × Option (Response ν D × Option H)) :=
  ts.findSome? fun t => (t.heard cfg).map fun x => (t, x)

/-- No handler that leaves a turn to come adds a node. -/
def Steady (cfg : Listening ν H D) (ts : List (Turn ν H D)) : Prop :=
  ∀ t ∈ ts, t.heard cfg = none → t.Grows cfg → t.rest = []

/-- A message that was given, and what happened before. -/
structure Gives (p : Did ν H D) (x : Response ν D × Option H) (before : Happened ν H D) : Prop where
  accounted : before.Accounted
  handler : x.1.acknowledges = true → x.2 = none
  nothing : before.returned = []
  result : p.result = .ok (some (messageOf x.1))
  happened : p.happened = before.andThen { read := [x], returned := [messageOf x.1] }

/-- How the asking of nodes in these turns ends. -/
inductive PollEnds (cfg : Listening ν H D) (ts : List (Turn ν H D)) (d : Did ν H D) : Prop
  | silent (ended : ended cfg ts = none) (steady : Steady cfg ts) (accounted : d.happened.Accounted)
      (suppressed : d.suppressed = []) (result : d.result = .ok none)
  | changed (ended : ended cfg ts = none) (unsteady : ¬Steady cfg ts) (accounted : d.happened.Accounted)
      (e : Exc) (result : d.result = .error (.mapping e))
  | raised (t : Turn ν H D) (ended : ended cfg ts = some (t, none)) (steady : Steady cfg ts)
      (accounted : d.happened.Accounted) (e : Exc) (result : d.result = .error (.other e))
  | gave (t : Turn ν H D) (x : Response ν D × Option H) (before : Happened ν H D)
      (ended : ended cfg ts = some (t, some x)) (steady : Steady cfg ts) (gives : Gives d x before)
      (own : d.object.own = t.object.own)
      (mapping : d.object.node_pubsub_mapping = t.object.node_pubsub_mapping)

/-- What one turn does. -/
inductive TurnEnds (cfg : Listening ν H D) (t : Turn ν H D) : Prop
  | silent (heard : t.heard cfg = none) (result : (t.did cfg).result = .ok none)
      (accounted : (t.did cfg).happened.Accounted) (nothing : (t.did cfg).happened.returned = [])
  | raised (heard : t.heard cfg = some none) (accounted : (t.did cfg).happened.Accounted)
      (e : Exc) (result : (t.did cfg).result = .error (.other e))
  | gave (x : Response ν D × Option H) (heard : t.heard cfg = some (some x))
      (gives : Gives (t.did cfg) x {}) (own : (t.did cfg).object.own = t.object.own)
      (mapping : (t.did cfg).object.node_pubsub_mapping = t.object.node_pubsub_mapping)

variable (cfg) in
theorem turnEnds (t : Turn ν H D) : TurnEnds cfg t := by
  obtain ⟨name, rest, ignore, s⟩ := t
  cases hnext : (s.pubsub name).next cfg with
  | none =>
    obtain ⟨hresult, hhappened⟩ := getMessage_of_next_none ignore hnext
    refine .silent ?_ ?_ ?_ ?_
    · simp only [Turn.heard, NodePubSub.heard, hnext, Option.bind_none]
    · simp only [Turn.did, ask, hresult]
      rfl
    · simp only [Turn.did, ask, hhappened]
      exact Happened.accounted_empty
    · simp only [Turn.did, ask, hhappened]
  | some x =>
    obtain ⟨r, o⟩ := x
    obtain ⟨hresult, hhappened⟩ := getMessage_of_next_some ignore hnext
    have hack : r.acknowledges = true → o = none := fun h =>
      (next_handler hnext).trans (handlerFor_of_acknowledges h)
    have hone := accounted_deliver_iff cfg (ignore || (s.pubsub name).ignore_subscribe_messages) hack
    have hheard : Turn.heard cfg ⟨name, rest, ignore, s⟩ =
        match (deliver cfg r (ignore || (s.pubsub name).ignore_subscribe_messages) o).1 with
        | .ok none => none
        | .ok (some _) => some (some (r, o))
        | .error _ => some none := by
      simp only [Turn.heard, NodePubSub.heard, hnext, Option.bind_some]
    cases hd : (deliver cfg r (ignore || (s.pubsub name).ignore_subscribe_messages) o).1 with
    | error e =>
      rw [hd] at hone hheard hresult
      refine .raised hheard ?_ e ?_
      · simp only [Turn.did, ask, hhappened, hd]
        exact hone.mpr (truthy_of_deliver fun m h => nomatch hd.symm.trans h)
      · simp only [Turn.did, ask, hresult]
        rfl
    | ok m =>
      cases m with
      | none =>
        rw [hd] at hone hheard hresult
        refine .silent hheard ?_ ?_ ?_
        · simp only [Turn.did, ask, hresult]
          rfl
        · simp only [Turn.did, ask, hhappened, hd]
          exact hone.mpr (truthy_of_deliver fun m h => nomatch hd.symm.trans h)
        · simp only [Turn.did, ask, hhappened, hd]
          rfl
      | some m =>
        obtain ⟨rfl, hpassed⟩ := deliver_some hd
        rw [hd] at hheard hresult
        refine .gave (r, o) hheard ⟨Happened.accounted_empty, hack, rfl, ?_, ?_⟩ ?_ ?_
        · simp only [Turn.did, ask, hresult]
          rfl
        · simp only [Turn.did, ask, hhappened, hd, hpassed]
          rfl
        · simp only [Turn.did, ask, hhappened, hpassed]
          rfl
        · simp only [Turn.did, ask, hhappened, hpassed]
          rfl

variable (cfg) in
theorem polled_did (t : Turn ν H D) : (t.did cfg).polled = [(t.name, (t.next cfg).toList)] := by
  simp only [Turn.did, ask, Turn.next]
  cases hnext : (t.object.pubsub t.name).next cfg with
  | none => rw [(getMessage_of_next_none t.ignore hnext).2]; rfl
  | some x => rw [(getMessage_of_next_some t.ignore hnext).2]; rfl

theorem ended_cons_of_silent {t : Turn ν H D} {ts : List (Turn ν H D)} (h : t.heard cfg = none) :
    ended cfg (t :: ts) = ended cfg ts := by
  rw [ended, List.findSome?_cons, h]
  rfl

theorem ended_cons_of_heard {t : Turn ν H D} {ts : List (Turn ν H D)}
    {x : Option (Response ν D × Option H)} (h : t.heard cfg = some x) :
    ended cfg (t :: ts) = some (t, x) := by
  rw [ended, List.findSome?_cons, h]
  rfl

theorem steady_cons {t : Turn ν H D} {ts : List (Turn ν H D)} (h : ¬t.Grows cfg) :
    Steady cfg (t :: ts) ↔ Steady cfg ts := by
  unfold Steady
  rw [List.forall_mem_cons]
  exact and_iff_right fun _ hgrows => absurd hgrows h

/-- A turn that ends nothing, before others. -/
theorem PollEnds.cons {t : Turn ν H D} {ts : List (Turn ν H D)} {d : Did ν H D}
    (hheard : t.heard cfg = none) (hstays : ¬t.Grows cfg) (hacc : (t.did cfg).happened.Accounted)
    (hnothing : (t.did cfg).happened.returned = []) (h : PollEnds cfg ts d) :
    PollEnds cfg (t :: ts)
      { d with
        polled := (t.did cfg).polled ++ d.polled
        happened := (t.did cfg).happened.andThen d.happened } := by
  have hall : ∀ {a : Happened ν H D}, a.Accounted → ((t.did cfg).happened.andThen a).Accounted :=
    (Happened.accounted_andThen hacc).mpr
  cases h with
  | silent hended hsteady haccounted hsuppressed hresult =>
    exact .silent ((ended_cons_of_silent hheard).trans hended) ((steady_cons hstays).mpr hsteady)
      (hall haccounted) hsuppressed hresult
  | changed hended hunsteady haccounted e hresult =>
    exact .changed ((ended_cons_of_silent hheard).trans hended)
      (fun h => hunsteady ((steady_cons hstays).mp h)) (hall haccounted) e hresult
  | raised t' hended hsteady haccounted e hresult =>
    exact .raised t' ((ended_cons_of_silent hheard).trans hended) ((steady_cons hstays).mpr hsteady)
      (hall haccounted) e hresult
  | gave t' x before hended hsteady hgives hown hmapping =>
    refine .gave t' x ((t.did cfg).happened.andThen before)
      ((ended_cons_of_silent hheard).trans hended) ((steady_cons hstays).mpr hsteady)
      ⟨hall hgives.accounted, hgives.handler, ?_, hgives.result, ?_⟩ hown hmapping
    · simp only [Happened.andThen, hnothing, hgives.nothing, List.append_nil]
    · simp only [hgives.happened, Happened.andThen, List.append_assoc]

/-- One turn, with none to come. -/
theorem pollEnds_single {t : Turn ν H D} (h : t.rest = []) : PollEnds cfg [t] (t.did cfg) := by
  have hsteady : Steady cfg [t] := by
    intro t' ht' _ _
    rwa [List.mem_singleton.mp ht']
  cases turnEnds cfg t with
  | silent hheard hresult hacc _ =>
    exact .silent (ended_cons_of_silent hheard) hsteady hacc rfl hresult
  | raised hheard hacc e hresult => exact .raised t (ended_cons_of_heard hheard) hsteady hacc e hresult
  | gave x hheard hgives hown hmapping =>
    exact .gave t x {} (ended_cons_of_heard hheard) hsteady hgives hown hmapping

omit [DecidableEq ν] in
theorem orElse_of_none {first : Did ν H D} {next : ClusterPubSub ν H D → Did ν H D}
    (h : first.result = .ok none) : first.orElse next =
      { next first.object with
        polled := first.polled ++ (next first.object).polled
        happened := first.happened.andThen (next first.object).happened } := by
  simp only [Did.orElse, h]

omit [DecidableEq ν] in
theorem orElse_of_ne {first : Did ν H D} {next : ClusterPubSub ν H D → Did ν H D}
    (h : first.result ≠ .ok none) : first.orElse next = first := by
  unfold Did.orElse
  split
  · exact absurd ‹_› h
  · rfl

variable (cfg) in
/-- So many turns ask the nodes that come next. -/
theorem pollNodes_ends {turns : Nat} {s : ClusterPubSub ν H D}
    (hlive : s._pubsubs_generator.Live s.node_pubsub_mapping.items)
    (hle : turns ≤ s.node_pubsub_mapping.items.length) :
    (pollNodes cfg turns s).polled =
        (visits cfg ((s._pubsubs_generator.turns s.node_pubsub_mapping.items).take turns) s).map
          (fun t => (t.name, (t.next cfg).toList)) ∧
      PollEnds cfg (visits cfg ((s._pubsubs_generator.turns s.node_pubsub_mapping.items).take turns) s)
        (pollNodes cfg turns s) := by
  induction turns generalizing s with
  | zero => exact ⟨rfl, .silent rfl (fun _ h => nomatch h) Happened.accounted_empty rfl rfl⟩
  | succ n ih =>
    obtain ⟨x, rest, passed, hnext, hturns, hturns'⟩ :=
      PubSubsGenerator.next_of_live hlive (List.ne_nil_of_length_pos (Nat.zero_lt_of_lt hle))
    have hlength : rest.length + 1 = s.node_pubsub_mapping.items.length := by
      rw [← (PubSubsGenerator.turns_perm hlive).length_eq, hturns, List.length_cons]
    generalize hg : PubSubsGenerator.suspended s.node_pubsub_mapping.items.length passed = g' at *
    have hadvanced : s.advanced = { s with _pubsubs_generator := g' } := by
      rw [advanced, hnext]
    rw [hturns, List.take_succ_cons]
    generalize ht : ({ name := x, rest := rest.take n, object := s.advanced } : Turn ν H D) = t
    have hvisits : visits cfg (x :: rest.take n) s =
        t :: if (t.heard cfg).isNone ∧ ¬t.Grows cfg then visits cfg (rest.take n) (t.did cfg).object
          else [] := by
      rw [visits, ht]
    have hpoll : pollNodes cfg (n + 1) s = (t.did cfg).orElse (pollNodes cfg n) := by
      rw [← ht, Turn.did, hadvanced]
      simp only [pollNodes, hnext]
    have hobject : t.object = { s with _pubsubs_generator := g' } := by rw [← ht, ← hadvanced]
    have hrest : t.rest = rest.take n := by rw [← ht]
    have hextends : Extends t.object (t.did cfg).object := extends_ask cfg _ _ _
    rw [hvisits, hpoll]
    cases turnEnds cfg t with
    | silent hheard hresult hacc hnothing =>
      rw [orElse_of_none hresult]
      by_cases hgrows : t.Grows cfg
      · rw [if_neg (fun h => h.2 hgrows), List.map_singleton]
        cases n with
        | zero =>
          refine ⟨polled_did cfg t, .silent (ended_cons_of_silent hheard) ?_ ?_ rfl rfl⟩
          · intro t' ht' _ _
            rw [List.mem_singleton.mp ht', hrest, List.take_zero]
          · exact (Happened.accounted_andThen hacc).mpr Happened.accounted_empty
        | succ n =>
          obtain ⟨hmore, passed', hmoved⟩ := hextends.grown hgrows
          have hdead : ¬(t.did cfg).object._pubsubs_generator.Live
              (t.did cfg).object.node_pubsub_mapping.items := by
            rw [hmoved, hobject, ← hg]
            rw [hobject] at hmore
            rintro (h | ⟨_, h⟩)
            · cases h
            · injection h with h
              exact absurd h hmore.ne
          obtain ⟨e, g'', herror⟩ := PubSubsGenerator.next_of_not_live hdead
          have hrestne : t.rest ≠ [] := by
            rw [hrest]
            intro hnil
            have := congrArg List.length hnil
            rw [List.length_take, List.length_nil] at this
            omega
          simp only [pollNodes, herror, List.append_nil]
          refine ⟨polled_did cfg t, .changed (ended_cons_of_silent hheard) ?_ ?_ e rfl⟩
          · intro hsteady
            exact hrestne (hsteady t List.mem_cons_self hheard hgrows)
          · exact (Happened.accounted_andThen hacc).mpr Happened.accounted_empty
      · rw [if_pos ⟨Option.isNone_iff_eq_none.mpr hheard, hgrows⟩]
        have hitems : (t.did cfg).object.node_pubsub_mapping.items = s.node_pubsub_mapping.items := by
          rw [not_not.mp hgrows, hobject]
        have hgenerator : (t.did cfg).object._pubsubs_generator = g' := by
          rw [hextends.kept (not_not.mp hgrows), hobject]
        have htake : (g'.turns s.node_pubsub_mapping.items).take n = rest.take n := by
          rw [hturns', List.take_append_of_le_length (by omega)]
        obtain ⟨hpolled, hends⟩ := ih (s := (t.did cfg).object)
          (by rw [hitems, hgenerator, ← hg]; exact .inr ⟨_, rfl⟩) (by rw [hitems]; exact Nat.le_of_succ_le hle)
        rw [hitems, hgenerator, htake] at hpolled hends
        refine ⟨?_, hends.cons hheard hgrows hacc hnothing⟩
        simp only [List.map_cons, polled_did, hpolled, List.singleton_append]
    | raised hheard hacc e hresult =>
      rw [orElse_of_ne (by rw [hresult]; exact fun h => nomatch h), if_neg (by simp [hheard])]
      refine ⟨polled_did cfg t, .raised t (ended_cons_of_heard hheard) ?_ hacc e hresult⟩
      intro t' ht' h
      rw [List.mem_singleton.mp ht', hheard] at h
      cases h
    | gave x' hheard hgives hown hmapping =>
      rw [orElse_of_ne (by rw [hgives.result]; exact fun h => nomatch h), if_neg (by simp [hheard])]
      refine ⟨polled_did cfg t, .gave t x' {} (ended_cons_of_heard hheard) ?_ hgives hown hmapping⟩
      intro t' ht' h
      rw [List.mem_singleton.mp ht', hheard] at h
      cases h

/-! ### What the nodes give -/

/-- The turns of a call. -/
def turnsOf (cfg : Listening ν H D) (s : ClusterPubSub ν H D) (ignore : Bool) :
    (target_node : Option String) → List (Turn ν H D)
  | some name =>
    if name ∈ s.node_pubsub_mapping.keys then [{ name := name, ignore := ignore, object := s }] else []
  | none => visits cfg (s._pubsubs_generator.turns s.node_pubsub_mapping.items) s

/-- The response that a call gets from the nodes. -/
def found (cfg : Listening ν H D) (s : ClusterPubSub ν H D) (ignore : Bool)
    (target_node : Option String) : Option (Response ν D × Option H) :=
  (ended cfg (turnsOf cfg s ignore target_node)).bind Prod.snd

/-- `get_sharded_message` up to the wrapper's own part. -/
def polledBy (cfg : Listening ν H D) (s : ClusterPubSub ν H D) (ignore : Bool) :
    (target_node : Option String) → Did ν H D
  | some name =>
    if name ∈ s.node_pubsub_mapping.keys then ask cfg ignore name s
    else { object := s, result := .error (.mapping { cls := .KeyError, msg := name }) }
  | none => pollNodes cfg s.node_pubsub_mapping.items.length s

theorem getShardedMessage_eq (ignore : Bool) (target : Option String) :
    getShardedMessage cfg s ignore target = conclude cfg ignore (polledBy cfg s ignore target) := by
  cases target with
  | none => rfl
  | some name =>
    by_cases h : name ∈ s.node_pubsub_mapping.keys
    · simp only [getShardedMessage, polledBy, if_pos h]
    · simp only [getShardedMessage, polledBy, if_neg h]
      rfl

/-- The iterator over the mapping is of use. -/
def Consistent (s : ClusterPubSub ν H D) : Prop :=
  s.node_pubsub_mapping.items = [] ∨ s._pubsubs_generator.Live s.node_pubsub_mapping.items

/-- The target is mapped; in turn, the iterator was made for as many nodes as there are. -/
def Reachable (s : ClusterPubSub ν H D) (target : Option String) : Prop :=
  target.elim (Consistent s) (· ∈ s.node_pubsub_mapping.keys)

theorem turns_of_empty {keys : List String} (h : keys = []) (g : PubSubsGenerator) :
    g.turns keys = [] := by
  subst h
  cases g with
  | unstarted => rfl
  | suspended size passed =>
    rw [PubSubsGenerator.turns, List.rotate_nil]
    exact ite_self _
  | finished => rfl

variable (cfg) in
/-- The nodes are asked in their turns. -/
theorem polledBy_ends (ignore : Bool) {target : Option String} (h : Reachable s target) :
    (polledBy cfg s ignore target).polled =
        (turnsOf cfg s ignore target).map (fun t => (t.name, (t.next cfg).toList)) ∧
      PollEnds cfg (turnsOf cfg s ignore target) (polledBy cfg s ignore target) := by
  cases target with
  | some name =>
    have hmapped : name ∈ s.node_pubsub_mapping.keys := h
    rw [turnsOf, polledBy, if_pos hmapped, if_pos hmapped]
    exact ⟨polled_did cfg { name := name, ignore := ignore, object := s },
      pollEnds_single (t := { name := name, ignore := ignore, object := s }) rfl⟩
  | none =>
    rcases h with hempty | hlive
    · rw [turnsOf, turns_of_empty hempty, polledBy, hempty]
      exact ⟨rfl, .silent rfl (fun _ h => nomatch h) Happened.accounted_empty rfl rfl⟩
    · have hends := pollNodes_ends cfg hlive (Nat.le_refl _)
      rwa [List.take_of_length_le (PubSubsGenerator.turns_perm hlive).length_eq.le] at hends

variable (cfg) in
/-- Nothing is asked that cannot be reached. -/
theorem polledBy_of_not_reachable (ignore : Bool) {target : Option String} (h : ¬Reachable s target) :
    found cfg s ignore target = none ∧ (polledBy cfg s ignore target).happened = {} ∧
      ∃ e, (polledBy cfg s ignore target).result = .error (.mapping e) := by
  cases target with
  | some name =>
    have hunmapped : name ∉ s.node_pubsub_mapping.keys := h
    rw [found, turnsOf, polledBy, if_neg hunmapped, if_neg hunmapped]
    exact ⟨rfl, rfl, _, rfl⟩
  | none =>
    obtain ⟨hne, hdead⟩ := not_or.mp h
    obtain ⟨e, g', hnext⟩ := PubSubsGenerator.next_of_not_live hdead
    obtain ⟨n, hn⟩ := Nat.exists_eq_succ_of_ne_zero
      (Nat.pos_iff_ne_zero.mp (List.length_pos_iff.mpr hne))
    rw [found, turnsOf, PubSubsGenerator.turns_of_not_live hdead, polledBy, hn]
    simp only [pollNodes, hnext]
    exact ⟨rfl, trivial, e, rfl⟩

variable (cfg) in
/-- The nodes give what is found. -/
theorem polledBy_cases (s : ClusterPubSub ν H D) (ignore : Bool) (target : Option String) :
    (found cfg s ignore target = none ∧ (polledBy cfg s ignore target).happened.Accounted ∧
        ∀ m, (polledBy cfg s ignore target).result ≠ .ok (some m)) ∨
      ∃ x before, found cfg s ignore target = some x ∧
        Gives (polledBy cfg s ignore target) x before := by
  by_cases h : Reachable s target
  · unfold found
    cases (polledBy_ends cfg ignore h).2 with
    | silent hended _ hacc _ hresult =>
      rw [hended, hresult]
      exact .inl ⟨rfl, hacc, fun m h => nomatch h⟩
    | changed hended _ hacc e hresult =>
      rw [hended, hresult]
      exact .inl ⟨rfl, hacc, fun m h => nomatch h⟩
    | raised t hended _ hacc e hresult =>
      rw [hended, hresult]
      exact .inl ⟨rfl, hacc, fun m h => nomatch h⟩
    | gave t x before hended _ hgives _ _ =>
      rw [hended]
      exact .inr ⟨x, before, rfl, hgives⟩
  · obtain ⟨hfound, hhappened, e, hresult⟩ := polledBy_of_not_reachable cfg ignore h
    rw [hhappened, hresult]
    exact .inl ⟨hfound, Happened.accounted_empty, fun m h => nomatch h⟩

theorem pollNodes_ignores (turns : Nat) (s : ClusterPubSub ν H D) :
    (pollNodes cfg turns s).object.own.ignore_subscribe_messages = s.own.ignore_subscribe_messages := by
  induction turns generalizing s with
  | zero => rfl
  | succ n ih =>
    unfold pollNodes
    split
    · rfl
    · rename_i name g _
      have hask := (extends_ask cfg false name { s with _pubsubs_generator := g }).ignores
      by_cases hgo : (ask cfg false name { s with _pubsubs_generator := g }).result = .ok none
      · rw [orElse_of_none hgo]
        exact (ih _).trans hask
      · rw [orElse_of_ne hgo]
        exact hask

theorem polledBy_ignores (ignore : Bool) (target : Option String) :
    (polledBy cfg s ignore target).object.own.ignore_subscribe_messages =
      s.own.ignore_subscribe_messages := by
  cases target with
  | none => exact pollNodes_ignores _ s
  | some name =>
    by_cases h : name ∈ s.node_pubsub_mapping.keys
    · rw [polledBy, if_pos h]
      exact (extends_ask cfg ignore name s).ignores
    · rw [polledBy, if_neg h]

/-! ### What the wrapper does with it -/

omit [DecidableEq ν] in
theorem accounted_returned_iff {x : Response ν D × Option H} (hack : x.1.acknowledges = true → x.2 = none) :
    Happened.Accounted { read := [x], returned := [messageOf x.1] } ↔
      x.1.acknowledges = true ∨ x.2 = none := by
  obtain ⟨r, o⟩ := x
  cases o with
  | none => cases hr : r.acknowledges <;> simp [Happened.Accounted, hr]
  | some h =>
    have hr : r.acknowledges = false := by
      by_contra hr
      exact nomatch hack (by simpa using hr)
    simp [Happened.Accounted, hr]

omit [DecidableEq ν] in
theorem accounted_dropped_iff {x : Response ν D × Option H} (hack : x.1.acknowledges = true → x.2 = none) :
    Happened.Accounted { read := [x] } ↔ x.1.acknowledges = true := by
  obtain ⟨r, o⟩ := x
  cases hr : r.acknowledges with
  | true =>
    cases hack hr
    simp [Happened.Accounted, hr]
  | false => cases o <;> simp [Happened.Accounted, hr]

/-- Only an acknowledgement changes the mapping. -/
theorem noteUnsubscribed_raises {r : Response ν D} {e : Exc}
    (h : (noteUnsubscribed cfg s r).1 = some e) : r.acknowledges = true := by
  unfold noteUnsubscribed at h
  split at h
  · rfl
  · cases h

theorem conclude_of_none {ignore : Bool} {p : Did ν H D} (h : ∀ m, p.result ≠ .ok (some m)) :
    conclude cfg ignore p = p := by
  unfold conclude
  split
  · exact absurd ‹_› (h _)
  · rfl

/-- A sharded call accounts for what it reads when a flag hides nothing but acknowledgements. -/
theorem accounted_getShardedMessage_iff (ignore : Bool) (target : Option String) :
    (getShardedMessage cfg s ignore target).happened.Accounted ↔
      ∀ x, found cfg s ignore target = some x → x.1.acknowledges = true ∨
        x.2 = none ∧ (s.own.ignore_subscribe_messages || ignore) = false := by
  rw [getShardedMessage_eq]
  rcases polledBy_cases cfg s ignore target with ⟨hfound, hacc, hnone⟩ | ⟨x, before, hfound, hgives⟩
  · rw [hfound]
    refine iff_of_true ?_ (by simp)
    rw [conclude_of_none hnone]
    exact hacc
  · rw [hfound]
    simp only [Option.some.injEq, forall_eq']
    have hdrop : Happened.Accounted { (polledBy cfg s ignore target).happened with returned := [] } ↔
        x.1.acknowledges = true := by
      rw [hgives.happened, ← accounted_dropped_iff hgives.handler,
        ← Happened.accounted_andThen (b := { read := [x] }) hgives.accounted]
      simp only [Happened.andThen, hgives.nothing, List.append_nil]
    have hkeep : (polledBy cfg s ignore target).happened.Accounted ↔
        x.1.acknowledges = true ∨ x.2 = none := by
      rw [hgives.happened, Happened.accounted_andThen hgives.accounted,
        accounted_returned_iff hgives.handler]
    simp only [conclude, hgives.result, response_messageOf, polledBy_ignores]
    cases hnoted : (noteUnsubscribed cfg (polledBy cfg s ignore target).object x.1).1 with
    | some e =>
      have hack := noteUnsubscribed_raises hnoted
      exact iff_of_true (hdrop.mpr hack) (.inl hack)
    | none =>
      cases hflag : (s.own.ignore_subscribe_messages || ignore) with
      | true => simpa using hdrop
      | false => simpa using hkeep

/-! ### Runs -/

/-- The response that a call of `get_message` reads. -/
def nextOwn (cfg : Listening ν H D) (s : ClusterPubSub ν H D) : Option (Response ν D × Option H) :=
  if s.connection then s.own.next cfg else none

/-- A call that loses no message: `get_message` finds no handler that is false, and
`get_sharded_message` gets acknowledgements, or messages without a handler and ignores nothing. -/
def Lossless (cfg : Listening ν H D) (s : ClusterPubSub ν H D) : ClusterPubSubCall ν H D → Prop
  | .get_message _ => ∀ x, nextOwn cfg s = some x → ∀ h, x.2 = some h → cfg.truthy h = true
  | .get_sharded_message ignore target _ => ∀ x, found cfg s ignore target = some x →
      x.1.acknowledges = true ∨ x.2 = none ∧ (s.own.ignore_subscribe_messages || ignore) = false
  | _ => True

theorem accounted_ownMessage_iff (ignore : Bool) :
    (getMessage cfg s ignore).happened.Accounted ↔
      ∀ x, nextOwn cfg s = some x → ∀ h, x.2 = some h → cfg.truthy h = true := by
  unfold getMessage nextOwn
  cases hconn : s.connection with
  | true => simp [accounted_getMessage_iff]
  | false =>
    cases hsub : s.own.subscribed_event with
    | true => simp [Happened.accounted_empty]
    | false =>
      have hnext : s.own.next cfg = none := by simp [NodePubSub.next, hsub]
      simp [(getMessage_of_next_none ignore hnext).2, Happened.accounted_empty]

theorem accounted_call_iff (i : ClusterPubSubCall ν H D) :
    (call cfg s i).happened.Accounted ↔ Lossless cfg s i := by
  cases i with
  | get_message ignore => exact accounted_ownMessage_iff ignore
  | get_sharded_message ignore target passed => exact accounted_getShardedMessage_iff ignore target
  | arrive node r => cases node <;> exact iff_of_true Happened.accounted_empty trivial
  | subscribe k names => exact iff_of_true Happened.accounted_empty trivial
  | unsubscribe k names => exact iff_of_true Happened.accounted_empty trivial
  | ssubscribe s_channels passed => exact iff_of_true Happened.accounted_empty trivial
  | sunsubscribe channels passed => exact iff_of_true Happened.accounted_empty trivial

/-- In every state that a run reaches, everything read is accounted for, if its calls lose no
message, and only then. -/
theorem accounted_iff_lossless (cfg : Listening ν H D) (s : ClusterPubSub ν H D)
    (calls : List (ClusterPubSubCall ν H D)) :
    (∀ n, (happened cfg s (calls.take n)).Accounted) ↔
      ∀ p ∈ course cfg s calls, Lossless cfg p.1 p.2 := by
  induction calls generalizing s with
  | nil => exact iff_of_true (fun n => by rw [List.take_nil]; exact Happened.accounted_empty) (by simp [course])
  | cons i is ih =>
    rw [course, List.forall_mem_cons, ← ih, ← accounted_call_iff]
    constructor
    · intro h
      have hfirst : (call cfg s i).happened.Accounted := by
        have := h 1
        rwa [List.take_succ_cons, List.take_zero, happened, happened, Happened.andThen_empty] at this
      refine ⟨hfirst, fun n => ?_⟩
      have := h (n + 1)
      rwa [List.take_succ_cons, happened, Happened.accounted_andThen hfirst] at this
    · rintro ⟨hfirst, hrest⟩ n
      cases n with
      | zero => exact Happened.accounted_empty
      | succ n =>
        rw [List.take_succ_cons, happened, Happened.accounted_andThen hfirst]
        exact hrest n

/-- One node, and handlers that return. -/
def oneNode : Listening Nat Unit Nat where
  truthy _ := true
  acts _ _ := []
  raises _ _ := none
  get_node_from_key _ := "node"
  health_check_message _ := false

/-- A message on a shard channel is lost when subscribe messages are ignored. -/
theorem sharded_message_ignored :
    happened oneNode {} [.ssubscribe [(1, none)] 0, .arrive (some "node") (.plain .smessage 1 7),
        .get_sharded_message true none 0] = { read := [(.plain .smessage 1 7, none)] } ∧
      ¬(happened oneNode {} [.ssubscribe [(1, none)] 0, .arrive (some "node") (.plain .smessage 1 7),
        .get_sharded_message true none 0]).Accounted := by
  have hread : happened oneNode {} [.ssubscribe [(1, none)] 0,
      .arrive (some "node") (.plain .smessage 1 7), .get_sharded_message true none 0] =
      { read := [(.plain .smessage 1 7, none)] } := by decide
  refine ⟨hread, fun h => ?_⟩
  rw [hread] at h
  exact nomatch h.1

end ClusterPubSub

end RedisPy
