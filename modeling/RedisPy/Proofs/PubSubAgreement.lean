import Mathlib.Tactic.Tauto
import RedisPy.Proofs.PubSubCalls

/-! What a `PubSub` has in its dictionaries is what the server will hold once it has
taken all requests, but for names that wait for their acknowledgement. -/

namespace RedisPy

namespace PubSub

open Raising Course

variable {ν : Type} [DecidableEq ν]

/-! ### The server -/

/-- All requests one after the other. -/
def serveAll (server : Kind → List ν) : List (Request ν) → (Kind → List ν) × List (Ack ν)
  | [] => (server, [])
  | r :: rs =>
    ((serveAll (serve server r).1 rs).1, (serve server r).2 ++ (serveAll (serve server r).1 rs).2)

theorem serveAll_concat (server : Kind → List ν) (rs : List (Request ν)) (r : Request ν) :
    serveAll server (rs ++ [r]) = ((serve (serveAll server rs).1 r).1,
      (serveAll server rs).2 ++ (serve (serveAll server rs).1 r).2) := by
  induction rs generalizing server with
  | nil => simp [serveAll]
  | cons q rs ih => simp [serveAll, ih]

theorem mem_serve_subscribe {server : Kind → List ν} {k k' : Kind} {names : List ν} {a : ν} :
    a ∈ (serve server (.SUBSCRIBE k names)).1 k' ↔ a ∈ server k' ∨ (k' = k ∧ a ∈ names) := by
  unfold serve
  by_cases hn : names = []
  · simp [hn]
  · by_cases hk : k' = k
    · subst hk
      simp only [hn, ite_false, Function.update_self, List.mem_append, List.mem_filter,
        decide_not, Bool.not_eq_true', decide_eq_false_iff_not, true_and]
      tauto
    · simp [hn, hk]

/-- A request to unsubscribe that has no names covers all of them. -/
def Covers (names : List ν) (a : ν) : Prop := names = [] ∨ a ∈ names

instance (names : List ν) (a : ν) : Decidable (Covers names a) :=
  inferInstanceAs (Decidable (_ ∨ _))

theorem mem_serve_unsubscribe {server : Kind → List ν} {k k' : Kind} {names : List ν} {a : ν} :
    a ∈ (serve server (.UNSUBSCRIBE k names)).1 k' ↔
      a ∈ server k' ∧ ¬ (k' = k ∧ Covers names a) := by
  unfold serve Covers
  by_cases hk : k' = k
  · subst hk
    by_cases hn : names = []
    · simp [hn]
    · simp [hn]
  · by_cases hn : names = []
    · simp [hn, hk]
    · simp [hn, hk]

theorem ack_mem_serve {server : Kind → List ν} {k : Kind} {names : List ν} {a : ν}
    (ha : a ∈ server k) (hc : Covers names a) :
    .unsubscribe k (some a) ∈ (serve server (.UNSUBSCRIBE k names)).2 := by
  unfold serve
  by_cases hn : names = []
  · simp only [hn, ite_true]
    rw [if_neg (List.ne_nil_of_mem ha)]
    exact List.mem_map_of_mem ha
  · simp only [hn, ite_false]
    exact List.mem_map_of_mem (hc.resolve_left hn)

/-- The server knows no names but those it is told. -/
theorem mem_serve_held {server : Kind → List ν} {r : Request ν} {k : Kind} {a : ν}
    (h : a ∈ (serve server r).1 k) : a ∈ server k ∨ a ∈ r.names := by
  cases r with
  | SUBSCRIBE k' names => exact (mem_serve_subscribe.mp h).imp id fun h => h.2
  | UNSUBSCRIBE k' names => exact .inl (mem_serve_unsubscribe.mp h).1

theorem mem_serve_ack {server : Kind → List ν} {r : Request ν} {k : Kind} {a : ν}
    (h : .unsubscribe k (some a) ∈ (serve server r).2) : a ∈ server k ∨ a ∈ r.names := by
  cases r with
  | SUBSCRIBE k' names =>
    simp only [serve] at h
    split at h <;> simp at h
  | UNSUBSCRIBE k' names =>
    simp only [serve] at h
    split at h
    · split at h
      · simp at h
      · obtain ⟨b, hb, he⟩ := List.mem_map.mp h
        cases he
        exact .inl hb
    · obtain ⟨b, hb, he⟩ := List.mem_map.mp h
      cases he
      exact .inr hb

/-- What the server will hold once it has taken all requests. -/
def final (s : PubSub ν) : Kind → List ν := (serveAll s.server s.requests).1

/-- The replies that are still to be handled, in order. -/
def due (s : PubSub ν) : List (Ack ν) := s.replies ++ (serveAll s.server s.requests).2

theorem final_appended {s : PubSub ν} {r : Request ν} (h : s.alive = true) :
    final (appended s r) = (serve (final s) r).1 := by
  simp [final, appended, h, serveAll_concat]

theorem due_appended {s : PubSub ν} {r : Request ν} (h : s.alive = true) :
    due (appended s r) = due s ++ (serve (final s) r).2 := by
  simp [due, final, appended, h, serveAll_concat]

/-! ### Agreement -/

/-- The dictionary is what the server will hold, less the names that are being
unsubscribed, whose acknowledgements are due, `extra` being already at hand. -/
structure Agrees (extra : List (Ack ν)) (k : Kind) (s : PubSub ν) : Prop where
  mem_final : ∀ a, a ∈ final s k ↔ a ∈ s.registered k ∧ a ∉ s.pending_unsubscribe k
  due : ∀ a, a ∈ s.registered k → a ∈ s.pending_unsubscribe k →
    .unsubscribe k (some a) ∈ extra ++ due s

/-- Nothing has been asked for on a new connection. -/
structure Blank (k : Kind) (s : PubSub ν) : Prop where
  final : ∀ a, a ∉ final s k
  pending : ∀ a, a ∉ s.pending_unsubscribe k

/-- The name is kept and sent again as it is. -/
def Survives (cfg : PubSubSettings ν) (a : ν) : Prop :=
  cfg.encoder.normalize a = .ok a ∧ cfg.encoder.force a = .ok a

/-- The name is kept, and `on_connect` subscribes to it again. -/
def Renews (cfg : PubSubSettings ν) (k : Kind) (a : ν) : Prop :=
  Survives cfg a ∧ a ≠ cfg.encoder.self ∧ (k = .shard_channels → a ≠ cfg.encoder.target_node)

/-- Bounds on what is in the dictionaries, and whether the flag is looked at. -/
structure Bounds (ν : Type) where
  names : Kind → ν → Prop
  flag : Prop

/-- What holds of the dictionaries whatever the connection is like. -/
structure Books (cfg : PubSubSettings ν) (N : Bounds ν) (s : PubSub ν) : Prop where
  survives : ∀ k, ∀ a ∈ s.registered k, N.names k a
  kinds : ∀ k, k ∉ cfg.kinds → s.registered k = []
  flag : N.flag → (s.subscribed_event = true ↔ ∃ k, s.registered k ≠ [])
  held : ∀ k, ∀ a ∈ final s k, Survives cfg a
  acks : ∀ k a, .unsubscribe k (some a) ∈ due s → Survives cfg a

/-- The client agrees with the server, or will when the dictionaries of `todo` have been
subscribed to again. -/
structure Partly (cfg : PubSubSettings ν) (N : Bounds ν) (extra : List (Ack ν)) (todo : List Kind)
    (s : PubSub ν) : Prop where
  connection : s.connection = true
  books : Books cfg N s
  agrees : Up s → ∀ k, Agrees extra k s ∨ (k ∈ todo ∧ Blank k s)

abbrev Kept (cfg : PubSubSettings ν) (N : Bounds ν) : PubSub ν → Prop := Partly cfg N [] []

/-- The same bounds, without the names that are covered. -/
def Bounds.without (N : Bounds ν) (k : Kind) (names : List ν) : Bounds ν where
  names k' a := N.names k' a ∧ ¬ (k' = k ∧ Covers names a)
  flag := N.flag

variable {cfg : PubSubSettings ν} {extra : List (Ack ν)} {todo : List Kind} {s : PubSub ν}
  {k : Kind} {names : List ν} {N : Bounds ν}

theorem Partly.agreed (h : Kept cfg N s) (hu : Up s) (k : Kind) : Agrees [] k s :=
  (h.agrees hu k).resolve_right fun h => by simp at h

theorem Partly.of_down (hc : s.connection = true) (h : Books cfg N s) (hs : s.sock = false) :
    Partly cfg N extra todo s :=
  ⟨hc, h, fun hu => by simp [hs, Up] at hu⟩

theorem Books.outcomes (h : Books cfg N s) (os : List (Option Exc)) :
    Books cfg N { s with outcomes := os } :=
  ⟨h.survives, h.kinds, h.flag, h.held, h.acks⟩

theorem Books.disconnected (h : Books cfg N s) : Books cfg N (disconnected s) :=
  ⟨h.survives, h.kinds, h.flag, fun _ _ ha => (nomatch ha), fun _ _ ha => (nomatch ha)⟩

theorem Books.reopened (h : Books cfg N s) : Books cfg N (reopened s) :=
  ⟨h.survives, h.kinds, h.flag, fun _ _ ha => (nomatch ha), fun _ _ ha => (nomatch ha)⟩

theorem Partly.outcomes (h : Partly cfg N extra todo s) (os : List (Option Exc)) :
    Partly cfg N extra todo { s with outcomes := os } :=
  ⟨h.connection, h.books.outcomes os, fun hu k =>
    (h.agrees hu k).imp (fun h => ⟨h.mem_final, h.due⟩) fun h => ⟨h.1, h.2.final, h.2.pending⟩⟩

theorem Partly.disconnected (h : Partly cfg N extra todo s) :
    Partly cfg N [] [] (disconnected s) :=
  .of_down h.connection h.books.disconnected rfl

theorem mem_serve_other {server : Kind → List ν} {r : Request ν} {a : ν} (hk : k ≠ r.kind) :
    a ∈ (serve server r).1 k ↔ a ∈ server k := by
  cases r with
  | SUBSCRIBE k' names => simp [mem_serve_subscribe, show k ≠ k' from hk]
  | UNSUBSCRIBE k' names => simp [mem_serve_unsubscribe, show k ≠ k' from hk]

/-- A request for one dictionary leaves the others alone. -/
theorem Agrees.other {r : Request ν} (h : Agrees extra k s) (ha : s.alive = true)
    (hk : k ≠ r.kind) : Agrees extra k (appended s r) := by
  have hreg : (appended s r).registered = s.registered := by simp [appended, ha]
  have hpen : (appended s r).pending_unsubscribe = s.pending_unsubscribe := by simp [appended, ha]
  constructor
  · intro a
    rw [final_appended ha, mem_serve_other hk, hreg, hpen]
    exact h.mem_final a
  · intro a hr hp
    rw [hreg] at hr
    rw [hpen] at hp
    rw [due_appended ha, ← List.append_assoc]
    exact List.mem_append_left _ (h.due a hr hp)

theorem Blank.other {r : Request ν} (h : Blank k s) (ha : s.alive = true) (hk : k ≠ r.kind) :
    Blank k (appended s r) := by
  constructor
  · intro a
    rw [final_appended ha, mem_serve_other hk]
    exact h.final a
  · have hpen : (appended s r).pending_unsubscribe = s.pending_unsubscribe := by simp [appended, ha]
    rw [hpen]
    exact h.pending

theorem Books.appended {r : Request ν} (h : Books cfg N s) (hr : ∀ a ∈ r.names, Survives cfg a) :
    Books cfg N (appended s r) := by
  cases ha : s.alive with
  | false => simpa [PubSub.appended, ha] using h
  | true =>
    refine ⟨?_, ?_, ?_, fun k a hk => ?_, fun k a hk => ?_⟩
    · simpa [PubSub.appended, ha] using h.survives
    · simpa [PubSub.appended, ha] using h.kinds
    · simpa [PubSub.appended, ha] using h.flag
    · rw [final_appended ha] at hk
      exact (mem_serve_held hk).elim (h.held k a) (hr a)
    · rw [due_appended ha] at hk
      rcases List.mem_append.mp hk with hk | hk
      · exact h.acks k a hk
      · exact (mem_serve_ack hk).elim (h.held k a) (hr a)

/-! ### Subscribing -/

/-- The names are about to be asked for; where nothing has been asked for yet, they are
all there are in the dictionary. -/
structure Asking (cfg : PubSubSettings ν) (N : Bounds ν) (k : Kind) (names : List ν) (todo : List Kind)
    (s : PubSub ν) : Prop where
  connection : s.connection = true
  books : Books cfg N s
  survives : ∀ a ∈ names, Survives cfg a
  here : Up s → Agrees [] k s ∨ (Blank k s ∧ ∀ a ∈ s.registered k, a ∈ names)
  others : Up s → ∀ k', k' ≠ k → Agrees [] k' s ∨ (k' ∈ todo ∧ Blank k' s)

/-- `SUBSCRIBE` has been sent, and the names are still missing in the dictionary. -/
structure Sent (cfg : PubSubSettings ν) (N : Bounds ν) (k : Kind) (names : List ν) (todo : List Kind)
    (s : PubSub ν) : Prop where
  connection : s.connection = true
  books : Books cfg N s
  asked : Up s → ∀ a, a ∈ final s k ↔
    a ∈ names ∨ (a ∈ s.registered k ∧ a ∉ s.pending_unsubscribe k)
  due : Up s → ∀ a, a ∉ names → a ∈ s.registered k → a ∈ s.pending_unsubscribe k →
    .unsubscribe k (some a) ∈ due s
  others : Up s → ∀ k', k' ≠ k → Agrees [] k' s ∨ (k' ∈ todo ∧ Blank k' s)

theorem Kept.asking (h : Kept cfg N s) (hn : ∀ a ∈ names, Survives cfg a) :
    Asking cfg N k names todo s where
  connection := h.connection
  books := h.books
  survives := hn
  here hu := .inl (h.agreed hu k)
  others hu k' _ := .inl (h.agreed hu k')

theorem Asking.sent (h : Asking cfg N k names todo s) :
    Sent cfg N k names todo (appended s (.SUBSCRIBE k names)) where
  connection := by rw [appended_connection, h.connection]
  books := h.books.appended h.survives
  asked hu a := by
    rw [final_appended hu.of_appended.2, mem_serve_subscribe, appended_registered, appended_pending]
    rcases h.here hu.of_appended with hag | ⟨hblank, hall⟩
    · have := hag.mem_final a
      tauto
    · have := hblank.final a
      have := hall a
      tauto
  due hu a hn hr hp := by
    rw [appended_registered] at hr
    rw [appended_pending] at hp
    rw [due_appended hu.of_appended.2]
    rcases h.here hu.of_appended with hag | ⟨hblank, -⟩
    · exact List.mem_append_left _ (hag.due a hr hp)
    · exact absurd hp (hblank.pending a)
  others hu k' hk := (h.others hu.of_appended k' hk).imp (fun h => h.other hu.of_appended.2 hk)
    fun h => ⟨h.1, h.2.other hu.of_appended.2 hk⟩

variable {connect : M ν Unit}

/-- Reconnecting leaves the client in agreement with the server, and does nothing while
there is a socket. -/
structure Reconnects (cfg : PubSubSettings ν) (N : Bounds ν) (connect : M ν Unit) : Prop where
  keeps : Keeps (Kept cfg N) connect
  up : ∀ s, s.sock = true → connect.run s = .ok () s

/-- A request that is sent from states in which `P` holds, as it does of all that are in
agreement. -/
theorem Reconnects.sends (hcon : Reconnects cfg N connect) {r : Request ν} {P Q : PubSub ν → Prop}
    (hkept : ∀ s, Kept cfg N s → P s) (hbooks : ∀ s, P s → s.connection = true ∧ Books cfg N s)
    (houtcomes : ∀ s os, P s → P { s with outcomes := os }) (hsent : ∀ s, P s → Q (appended s r)) :
    Sends cfg connect r P Q (Kept cfg N) (fun _ => Kept cfg N) where
  outcomes s os hs _ := houtcomes s os hs
  sent := hsent
  lost s e os hs _ := by
    obtain ⟨hc, hb⟩ := hbooks s hs
    exact .of_down hc (hb.outcomes os).disconnected rfl
  down s hs hdown := by
    obtain ⟨hc, hb⟩ := hbooks s hs
    exact (hcon.keeps s (.of_down hc hb hdown)).mono (fun _ s hs => hkept s hs) fun _ _ h => h
  up := hcon.up
  error _ _ h := h
  disconnected _ _ h := h.disconnected
  reconnect e s hs _ _ :=
    (hcon.keeps _ hs.disconnected).mono (fun _ s hs => ⟨hkept s hs, hs⟩) fun _ _ h => h

theorem sends_subscribe (hcon : Reconnects cfg N connect) (hn : ∀ a ∈ names, Survives cfg a) :
    Sends cfg connect (.SUBSCRIBE k names) (Asking cfg N k names todo) (Sent cfg N k names todo)
      (Kept cfg N) (fun _ => Kept cfg N) :=
  hcon.sends (fun _ h => Kept.asking h hn) (fun _ h => ⟨h.connection, h.books⟩)
    (fun _ os h => ⟨h.connection, h.books.outcomes os, h.survives,
      fun hu => (h.here hu).imp (fun h => ⟨h.mem_final, h.due⟩) fun h => ⟨⟨h.1.final, h.1.pending⟩, h.2⟩,
      fun hu k' hk => (h.others hu k' hk).imp (fun h => ⟨h.mem_final, h.due⟩)
        fun h => ⟨h.1, h.2.final, h.2.pending⟩⟩)
    fun _ h => h.sent

omit [DecidableEq ν] in
theorem normalizeKeys_run {keys : List ν} (h : ∀ a ∈ keys, Survives cfg a) (s : PubSub ν) :
    (_normalizeKeys cfg keys).run s = .ok keys s := by
  have hmap : keys.mapM cfg.encoder.normalize = .ok keys := by
    induction keys with
    | nil => rfl
    | cons a keys ih =>
      rw [List.mapM_cons, (h a List.mem_cons_self).1, ih fun b hb => h b (List.mem_cons_of_mem _ hb)]
      rfl
  unfold _normalizeKeys
  rw [hmap]
  rfl

/-- The dictionary once the names have been subscribed to. -/
def recorded (s : PubSub ν) (k : Kind) (keys : List ν) : PubSub ν :=
  { s with
    registered := Function.update s.registered k
      (s.registered k ++ keys.filter (· ∉ s.registered k))
    subscribed_event := true
    pending_unsubscribe := Function.update s.pending_unsubscribe k
      ((s.pending_unsubscribe k).filter (· ∉ keys)) }

theorem mem_recorded_registered {k' : Kind} {keys : List ν} {a : ν} :
    a ∈ (recorded s k keys).registered k' ↔ a ∈ s.registered k' ∨ (k' = k ∧ a ∈ keys) := by
  by_cases hk : k' = k
  · subst hk
    simp [recorded]
    tauto
  · simp [recorded, hk]

theorem mem_recorded_pending {k' : Kind} {keys : List ν} {a : ν} :
    a ∈ (recorded s k keys).pending_unsubscribe k' ↔
      a ∈ s.pending_unsubscribe k' ∧ ¬ (k' = k ∧ a ∈ keys) := by
  by_cases hk : k' = k
  · subst hk
    simp [recorded]
  · simp [recorded, hk]

theorem Sent.recorded (h : Sent cfg N k names todo s) (hk : k ∈ cfg.kinds)
    (hne : N.flag → names ≠ []) (hn : ∀ a ∈ names, N.names k a) : Partly cfg N [] todo (recorded s k names) where
  connection := h.connection
  books := by
    constructor
    · intro k' a ha
      rcases mem_recorded_registered.mp ha with hr | ⟨rfl, hmem⟩
      · exact h.books.survives k' a hr
      · exact hn a hmem
    · intro k' hk'
      have hne' : k' ≠ k := fun he => hk' (he ▸ hk)
      simpa [PubSub.recorded, hne'] using h.books.kinds k' hk'
    · intro hflag
      obtain ⟨a, ha⟩ := List.exists_mem_of_ne_nil names (hne hflag)
      have : a ∈ (PubSub.recorded s k names).registered k := mem_recorded_registered.mpr (.inr ⟨rfl, ha⟩)
      exact ⟨fun _ => ⟨k, List.ne_nil_of_mem this⟩, fun _ => rfl⟩
    · exact h.books.held
    · exact h.books.acks
  agrees hu k' := by
    by_cases hk' : k' = k
    · subst hk'
      left
      constructor
      · intro a
        rw [mem_recorded_registered, mem_recorded_pending]
        have := h.asked hu a
        change a ∈ final s k' ↔ _
        tauto
      · intro a hr hp
        rw [mem_recorded_registered] at hr
        rw [mem_recorded_pending] at hp
        exact h.due hu a (by tauto) (by tauto) hp.1
    · have hreg : (PubSub.recorded s k names).registered k' = s.registered k' := by
        simp [PubSub.recorded, hk']
      have hpen : (PubSub.recorded s k names).pending_unsubscribe k' = s.pending_unsubscribe k' := by
        simp [PubSub.recorded, hk']
      refine (h.others hu k' hk').imp (fun h => ⟨?_, ?_⟩) fun h => ⟨h.1, ⟨h.2.final, ?_⟩⟩
      · rw [hreg, hpen]
        exact h.mem_final
      · rw [hreg, hpen]
        exact h.due
      · rw [hpen]
        exact h.2.pending

/-- A subscription that is sent is recorded; one that is not leaves all as it is. -/
theorem subscribeTo_post {J : PubSub ν → Prop} (hcon : Reconnects cfg N connect)
    (hJ : ∀ s, Kept cfg N s → J s) (hk : k ∈ cfg.kinds) (hne : N.flag → names ≠ [])
    (hN : ∀ k a, N.names k a → Renews cfg k a) (hn : ∀ a ∈ names, N.names k a)
    (hs : s.connection = true → Asking cfg N k names.eraseDups todo s)
    (hfirst : s.connection = false → ∀ os, (∀ o ∈ os, o ∈ s.outcomes) →
      J { s with outcomes := os } ∧
        Asking cfg N k names.eraseDups todo { reopened { s with outcomes := os } with connection := true }) :
    Post ((subscribeTo cfg connect k names).run s) (fun _ => Partly cfg N [] todo) (fun _ => J) := by
  have hn₁ : ∀ a ∈ names.eraseDups, N.names k a := fun a ha => hn a (List.mem_eraseDups.mp ha)
  have hn' : ∀ a ∈ names.eraseDups, Survives cfg a := fun a ha => (hN k a (hn₁ a ha)).1
  have hne' : N.flag → names.eraseDups ≠ [] := by
    intro hflag
    obtain ⟨a, ha⟩ := List.exists_mem_of_ne_nil names (hne hflag)
    exact List.ne_nil_of_mem (List.mem_eraseDups.mpr ha)
  unfold subscribeTo
  apply Post.bind (executeCommand_post (sends_subscribe hcon hn') hJ s hs hfirst)
  intro _ s₁ hs₁
  apply Post.bind (Q := fun keys s' => keys = names.eraseDups ∧ s' = s₁)
  · rw [normalizeKeys_run hn']
    exact ⟨rfl, rfl⟩
  · rintro _ _ ⟨rfl, rfl⟩
    exact hs₁.recorded hk hne' hn₁

/-! ### Reconnecting -/

omit [DecidableEq ν] in
theorem mapM_force {keys : List ν} (h : ∀ a ∈ keys, Survives cfg a) :
    keys.mapM cfg.encoder.force = .ok keys := by
  induction keys with
  | nil => rfl
  | cons a keys ih =>
    rw [List.mapM_cons, (h a List.mem_cons_self).2, ih fun b hb => h b (List.mem_cons_of_mem _ hb)]
    rfl

theorem bindKeywords_force {keys : List ν} (h : ∀ a ∈ keys, Renews cfg k a) :
    keys.mapM cfg.encoder.force >>= bindKeywords cfg k = .ok keys := by
  rw [mapM_force fun a ha => (h a ha).1]
  change bindKeywords cfg k keys = .ok keys
  unfold bindKeywords
  rw [if_neg fun hself => (h _ hself).2.1 rfl]
  split
  · rename_i hk
    rw [List.filter_eq_self.mpr fun a ha => decide_eq_true ((h a ha).2.2 hk)]
  · rfl

theorem resubscribe_post (hN : ∀ k a, N.names k a → Renews cfg k a) (hcon : Reconnects cfg N connect) {ks : List Kind}
    (hks : ∀ k ∈ ks, k ∈ cfg.kinds) (hs : Partly cfg N [] ks s) :
    Post ((resubscribe cfg connect ks).run s) (fun _ => Kept cfg N) (fun _ => Kept cfg N) := by
  induction ks generalizing s with
  | nil => exact hs
  | cons k ks ih =>
    have hks' : ∀ k' ∈ ks, k' ∈ cfg.kinds := fun k' hk' => hks k' (List.mem_cons_of_mem _ hk')
    unfold resubscribe
    apply Post.get_bind
    by_cases hr : s.registered k = []
    · simp only [hr, ne_eq, not_true_eq_false, ite_false]
      apply ih hks'
      refine ⟨hs.connection, hs.books, fun hu k' => ?_⟩
      rcases hs.agrees hu k' with hag | ⟨hmem, hblank⟩
      · exact .inl hag
      · rcases List.mem_cons.mp hmem with rfl | hmem
        · left
          constructor
          · intro a
            simp [hr, hblank.final a]
          · simp [hr]
        · exact .inr ⟨hmem, hblank⟩
    · simp only [hr, ne_eq, not_false_eq_true, ite_true]
      apply Post.get_bind
      rw [bindKeywords_force fun a ha => hN k a (hs.books.survives k a ha)]
      apply Post.bind (Q := fun _ => Partly cfg N [] ks)
      · rw [subscribeCall_eq]
        apply subscribeTo_post hcon (fun _ h => h) (hks k List.mem_cons_self) (fun _ => hr) hN (hs.books.survives k)
        · intro _
          refine ⟨hs.connection, hs.books, fun a ha => ?_, fun hu => ?_, fun hu k' hk' => ?_⟩
          · exact (hN k a (hs.books.survives k a (List.mem_eraseDups.mp ha))).1
          · exact (hs.agrees hu k).imp id fun h => ⟨h.2, fun a ha => List.mem_eraseDups.mpr ha⟩
          · refine (hs.agrees hu k').imp id fun h => ⟨?_, h.2⟩
            exact (List.mem_cons.mp h.1).resolve_left hk'
        · intro hc
          simp [hs.connection] at hc
      · exact fun _ s' hs' => ih hks' hs'

/-- On a new connection all dictionaries are subscribed to again, and nothing is pending. -/
theorem onConnect_post (hN : ∀ k a, N.names k a → Renews cfg k a) (hcon : Reconnects cfg N connect) (hc : s.connection = true)
    (hb : Books cfg N s) : Post ((onConnect cfg connect).run (reopened s)) (fun _ => Kept cfg N)
      (fun _ => Kept cfg N) := by
  unfold onConnect
  apply Post.bind (Q := fun _ => Partly cfg N [] cfg.kinds)
  · have hb' := hb.reopened
    refine ⟨hc, ⟨hb'.survives, hb'.kinds, hb'.flag, hb'.held, hb'.acks⟩, fun _ k => ?_⟩
    have hfinal : ∀ a, a ∉ final { reopened s with pending_unsubscribe := fun _ => [] } k :=
      fun a ha => nomatch ha
    by_cases hk : k ∈ cfg.kinds
    · exact .inr ⟨hk, hfinal, fun a ha => nomatch ha⟩
    · have hr : (reopened s).registered k = [] := hb.kinds k hk
      left
      constructor
      · intro a
        simp [hfinal a, hr]
      · simp [hr]
  · exact fun _ s' hs' => resubscribe_post hN hcon (fun _ hk => hk) hs'

theorem connect_up (cfg : PubSubSettings ν) (opens : Nat) {s : PubSub ν} (hs : s.sock = true) :
    (PubSub.connect cfg opens).run s = .ok () s := by
  cases opens <;> simp [PubSub.connect, hs]

theorem connect_reconnects (hN : ∀ k a, N.names k a → Renews cfg k a) (opens : Nat) :
    Reconnects cfg N (PubSub.connect cfg opens) := by
  refine ⟨?_, fun s hs => connect_up cfg opens hs⟩
  induction opens with
  | zero =>
    intro s hs
    unfold PubSub.connect
    apply Post.get_bind
    apply Post.ite
    · exact fun _ => hs
    · exact fun _ => hs
  | succ opens ih =>
    intro s hs
    by_cases hsock : s.sock = true
    · rw [connect_up cfg _ hsock]
      exact hs
    · unfold PubSub.connect
      apply Post.get_bind
      apply Post.ite
      · intro _
        apply Post.bind (Q := fun _ => Kept cfg N)
        · exact draw_post (fun os _ => hs.outcomes os) fun e os _ => hs.outcomes os
        · intro _ s₁ hs₁
          apply Post.bind (Q := fun _ s' => s' = reopened s₁)
          · exact rfl
          · rintro _ _ rfl
            exact onConnect_post hN ⟨ih, fun s hs => connect_up cfg opens hs⟩ hs₁.connection hs₁.books
      · exact fun _ => hs

end PubSub

end RedisPy
