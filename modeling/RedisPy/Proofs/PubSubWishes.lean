import RedisPy.Proofs.PubSubCourses

/-! What the user of a `PubSub` asked for last, and what it takes for that to outlive
lost connections. -/

namespace RedisPy

namespace PubSub

open Raising Course

variable {ν : Type} [DecidableEq ν] {cfg : PubSubSettings ν} {s : PubSub ν} {k : Kind}
  {names : List ν} {connect : M ν Unit} {W : Kind → ν → Prop}

/-- The names that are in the dictionaries and do not wait for being unsubscribed. -/
def Stands (W : Kind → ν → Prop) (s : PubSub ν) : Prop :=
  ∀ k a, (a ∈ s.registered k ∧ a ∉ s.pending_unsubscribe k) ↔ W k a

/-- No name of the dictionaries waits for being unsubscribed. -/
def Settled (s : PubSub ν) : Prop := ∀ k, ∀ a ∈ s.registered k, a ∉ s.pending_unsubscribe k

/-- What reconnecting does not change, once everything is settled. -/
structure Held (R : Kind → List ν) (s : PubSub ν) : Prop where
  registered : s.registered = R
  settled : Settled s

/-- Nothing is recorded. -/
structure Frozen (R P : Kind → List ν) (s : PubSub ν) : Prop where
  registered : s.registered = R
  pending : s.pending_unsubscribe = P

/-- A command that is sent from `P` leaves `I`, and so does one that is not. -/
structure Leaves (cfg : PubSubSettings ν) (connect : M ν Unit) (P I : PubSub ν → Prop)
    (E : Exc → PubSub ν → Prop) : Prop where
  sends : ∀ r, Sends cfg connect r P I I E
  failed : ∀ s e os, P s → some e ∈ s.outcomes → E e { s with outcomes := os }
  read : ∀ s rs, P s → I { s with replies := rs }

omit [DecidableEq ν] in
theorem leaves_held {R : Kind → List ν} (hkeeps : Keeps (Held R) connect)
    (hup : ∀ s, s.sock = true → connect.run s = .ok () s) :
    Leaves cfg connect (Held R) (Held R) (fun _ => Held R) where
  sends r :=
    { outcomes := fun s os hs _ => ⟨hs.registered, hs.settled⟩
      sent := fun s hs => ⟨by rw [appended_registered, hs.registered], by
        rw [Settled, appended_registered, appended_pending]
        exact hs.settled⟩
      lost := fun s e os hs _ => ⟨hs.registered, hs.settled⟩
      down := fun s hs _ => hkeeps s hs
      up := hup
      error := fun _ _ h => h
      disconnected := fun _ _ h => ⟨h.registered, h.settled⟩
      reconnect := fun e s hs _ _ => (hkeeps (disconnected s) ⟨hs.registered, hs.settled⟩).mono
        (fun _ _ h => ⟨h, h⟩) fun _ _ h => h }
  failed _ _ _ hs _ := ⟨hs.registered, hs.settled⟩
  read _ _ hs := ⟨hs.registered, hs.settled⟩

theorem leaves_unopened {R P : Kind → List ν} :
    Leaves cfg (PubSub.connect cfg 0) (Frozen R P) (Frozen R P) (fun _ => Frozen R P) where
  sends r :=
    { outcomes := fun s os hs _ => ⟨hs.registered, hs.pending⟩
      sent := fun s hs => ⟨by rw [appended_registered, hs.registered], by
        rw [appended_pending, hs.pending]⟩
      lost := fun s e os hs _ => ⟨hs.registered, hs.pending⟩
      down := fun s hs hdown => by
        rw [connect_zero s hdown]
        exact hs
      up := fun s hs => connect_up cfg 0 hs
      error := fun _ _ h => h
      disconnected := fun _ _ h => ⟨h.registered, h.pending⟩
      reconnect := fun e s hs _ _ => by
        rw [connect_zero _ rfl]
        exact ⟨hs.registered, hs.pending⟩ }
  failed _ _ _ hs _ := ⟨hs.registered, hs.pending⟩
  read _ _ hs := ⟨hs.registered, hs.pending⟩

/-- There is a socket, and what may fail does not lead to reconnecting. -/
def Undisturbed (cfg : PubSubSettings ν) (s : PubSub ν) : Prop :=
  s.sock = true ∧ ∀ e, some e ∈ s.outcomes →
    ¬ (cfg.supported_errors e = true ∧ cfg.retry_on_error e = true)

theorem leaves_undisturbed {R P : Kind → List ν} {opens : Nat} :
    Leaves cfg (PubSub.connect cfg opens) (fun s => Frozen R P s ∧ Undisturbed cfg s) (Frozen R P)
      (fun e s => Frozen R P s ∧
        ¬ (cfg.supported_errors e = true ∧ cfg.retry_on_error e = true)) where
  sends r :=
    { outcomes := fun s os hs hos =>
        ⟨⟨hs.1.registered, hs.1.pending⟩, hs.2.1, fun e he => hs.2.2 e (hos _ he)⟩
      sent := fun s hs => ⟨by rw [appended_registered, hs.1.registered], by
        rw [appended_pending, hs.1.pending]⟩
      lost := fun s e os hs he => ⟨⟨hs.1.registered, hs.1.pending⟩, hs.2.2 e he⟩
      down := fun s hs hdown => by simp [hs.2.1] at hdown
      up := fun s hs => connect_up cfg opens hs
      error := fun _ _ h => h.1
      disconnected := fun _ _ h => ⟨h.1.registered, h.1.pending⟩
      reconnect := fun e s hs hsup hretry => absurd ⟨hsup, hretry⟩ hs.2 }
  failed _ e _ hs he := ⟨⟨hs.1.registered, hs.1.pending⟩, hs.2.2 e he⟩
  read _ _ hs := ⟨hs.1.registered, hs.1.pending⟩

section
variable {P I : PubSub ν → Prop} {E : Exc → PubSub ν → Prop}

/-- A reply is read, and the dictionaries are left to `handle_message`. -/
theorem Leaves.parseResponse {opens : Nat} (h : Leaves cfg (PubSub.connect cfg opens) P I E)
    (hP : ∀ s, P s → I s) (hs : P s) :
    Post ((parseResponse cfg opens).run s) (fun _ => I) (fun _ => I) := by
  have hsends := h.sends (.SUBSCRIBE .channels [])
  have hconnect : ∀ s, P s → Post ((PubSub.connect cfg opens).run s) (fun _ => P) E := by
    intro s hs
    by_cases hsock : s.sock = true
    · rw [hsends.up s hsock]
      exact hs
    · exact hsends.down s hs (by simpa using hsock)
  have hread : ∀ s, P s → Post (nextReply.run s) (fun _ => I) E := by
    intro s hs
    apply Post.bind (Q := fun _ => P)
    · refine draw_post (fun os hos => hsends.outcomes s os hs hos) fun e os hos => ?_
      exact h.failed s e os hs (hos _ List.mem_cons_self)
    · intro _ s₁ hs₁
      apply Post.get_bind
      cases hr : s₁.replies with
      | nil => exact hP s₁ hs₁
      | cons r rs => exact h.read s₁ rs hs₁
  have hreply : ∀ s, P s →
      Post ((readReply cfg (PubSub.connect cfg opens)).run s) (fun _ => I) E := by
    intro s hs
    unfold readReply
    cases hasyncio : cfg.asyncio with
    | true => exact hread s hs
    | false => exact Post.bind (hconnect s hs) fun _ => hread
  have hexecute := execute_post hreply hsends.error hsends.disconnected hsends.reconnect cfg.retries
  unfold PubSub.parseResponse
  apply Post.get_bind
  cases hconn : s.connection with
  | false => exact hP s hs
  | true =>
    cases hasyncio : cfg.asyncio with
    | true => exact Post.bind ((hconnect s hs).mono (fun _ _ h => h) hsends.error) fun _ => hexecute
    | false => exact hexecute s hs

end

/-! ### Reconnecting -/

theorem Held.record {R : Kind → List ν} (h : Held R s) (hn : ∀ a ∈ names, a ∈ R k) :
    Held R (recorded s k names) := by
  have hreg : (recorded s k names).registered = R := by
    have hnil : names.filter (· ∉ R k) = [] := by simpa using hn
    rw [recorded, h.registered, hnil, List.append_nil, Function.update_eq_self]
  refine ⟨hreg, fun k' a ha hp => ?_⟩
  rw [hreg, ← h.registered] at ha
  exact h.settled k' a ha (mem_recorded_pending.mp hp).1

/-- What is subscribed to again was in the dictionary before. -/
theorem resubscribe_held {R : Kind → List ν} (hR : ∀ k, ∀ a ∈ R k, Renews cfg k a)
    (h : Leaves cfg connect (Held R) (Held R) (fun _ => Held R)) (ks : List Kind) :
    Keeps (Held R) (resubscribe cfg connect ks) := by
  induction ks with
  | nil => exact Keeps.pure _
  | cons k ks ih =>
    intro s hs
    unfold resubscribe
    apply Post.get_bind
    apply Post.ite
    · intro _
      apply Post.get_bind
      rw [hs.registered, bindKeywords_force (hR k)]
      apply Post.bind (Q := fun _ => Held R)
      · rw [subscribeCall_eq]
        unfold subscribeTo
        apply Post.bind (executeCommand_post (h.sends _) (fun _ h => h) s (fun _ => hs) fun _ os _ =>
          ⟨⟨hs.registered, hs.settled⟩, ⟨hs.registered, hs.settled⟩⟩)
        intro _ s₁ hs₁
        apply Post.bind (Q := fun keys s' => keys = (R k).eraseDups ∧ s' = s₁)
        · rw [normalizeKeys_run fun a ha => (hR k a (List.mem_eraseDups.mp ha)).1]
          exact ⟨rfl, rfl⟩
        · rintro _ _ ⟨rfl, rfl⟩
          exact hs₁.record fun a ha => List.mem_eraseDups.mp ha
      · exact fun _ => ih
    · exact fun _ => ih s hs

theorem connect_held {R : Kind → List ν} (hR : ∀ k, ∀ a ∈ R k, Renews cfg k a) (opens : Nat) :
    Leaves cfg (PubSub.connect cfg opens) (Held R) (Held R) (fun _ => Held R) := by
  apply leaves_held _ fun s hs => connect_up cfg opens hs
  induction opens with
  | zero =>
    intro s hs
    unfold PubSub.connect
    apply Post.get_bind
    apply Post.ite
    · exact fun _ => hs
    · exact fun _ => hs
  | succ opens ih =>
    intro s hs
    unfold PubSub.connect
    apply Post.get_bind
    apply Post.ite
    · intro _
      apply Post.bind (Q := fun _ => Held R)
      · exact draw_post (fun os _ => ⟨hs.registered, hs.settled⟩)
          fun e os _ => ⟨hs.registered, hs.settled⟩
      intro _ s₁ hs₁
      apply Post.bind (Q := fun _ => Held R)
      · exact ⟨hs₁.registered, hs₁.settled⟩
      intro _ s₂ hs₂
      unfold onConnect
      apply Post.bind (Q := fun _ => Held R)
      · exact ⟨hs₂.registered, fun _ _ _ hp => by cases hp⟩
      · exact fun _ => resubscribe_held hR (leaves_held ih fun s hs => connect_up cfg opens hs) _
    · exact fun _ => hs

/-! ### Wishes -/

/-- The dictionaries are the same, and so are their names that are pending. -/
structure Same (s s' : PubSub ν) : Prop where
  registered : s'.registered = s.registered
  pending : ∀ k, ∀ a ∈ s.registered k, a ∈ s'.pending_unsubscribe k ↔ a ∈ s.pending_unsubscribe k

omit [DecidableEq ν] in
theorem Same.stands {s' : PubSub ν} (h : Same s s') (hs : Stands W s) : Stands W s' := by
  intro k a
  rw [← hs k a, h.registered]
  constructor
  · exact fun ha => ⟨ha.1, fun hp => ha.2 ((h.pending k a ha.1).mpr hp)⟩
  · exact fun ha => ⟨ha.1, fun hp => ha.2 ((h.pending k a ha.1).mp hp)⟩

/-- Either reconnecting cannot come about, or it has nothing to undo. -/
theorem exists_leaves (hR : ∀ k, ∀ a ∈ s.registered k, Renews cfg k a) {opens : Nat}
    (hok : Steady cfg s ⟨opens, s.outcomes⟩ ∨ Settled s) :
    ∃ P I E, Leaves cfg (PubSub.connect cfg opens) P I E ∧ P s ∧ (∀ s', P s' → I s') ∧
      (∀ s', I s' → Same s s') ∧
      ∀ os, (∀ o ∈ os, o ∈ s.outcomes) →
        P { reopened { s with outcomes := os } with connection := true } := by
  have hfrozen : ∀ s', Frozen s.registered s.pending_unsubscribe s' → Same s s' :=
    fun s' hs' => ⟨hs'.registered, fun k a _ => by rw [hs'.pending]⟩
  rcases hok with (hopens | ⟨hsock, hquiet⟩) | hsettled
  · obtain rfl : opens = 0 := hopens
    exact ⟨_, _, _, leaves_unopened, ⟨rfl, rfl⟩, fun _ h => h, hfrozen, fun _ _ => ⟨rfl, rfl⟩⟩
  · refine ⟨_, _, _, leaves_undisturbed, ⟨⟨rfl, rfl⟩, hsock, hquiet⟩, fun _ h => h.1, hfrozen, ?_⟩
    exact fun os hos => ⟨⟨rfl, rfl⟩, rfl, fun e he => hquiet e (hos _ he)⟩
  · refine ⟨_, _, _, connect_held hR opens, ⟨rfl, hsettled⟩, fun _ h => h, fun s' hs' => ?_,
      fun _ _ => ⟨rfl, hsettled⟩⟩
    refine ⟨hs'.registered, fun k a ha => ?_⟩
    exact iff_of_false (hs'.settled k a (hs'.registered ▸ ha)) (hsettled k a ha)

theorem executeCommand_same (hR : ∀ k, ∀ a ∈ s.registered k, Renews cfg k a) {opens : Nat}
    {r : Request ν} (hok : Steady cfg s ⟨opens, s.outcomes⟩ ∨ Settled s) :
    Post ((executeCommand cfg (PubSub.connect cfg opens) r).run s) (fun _ => Same s)
      (fun _ => Same s) := by
  obtain ⟨P, I, E, hleaves, hs, hPI, hsame, hfirst⟩ := exists_leaves hR hok
  refine (executeCommand_post (hleaves.sends r) (fun _ h => h) s (fun _ => hs) fun _ os hos =>
    ⟨?_, hfirst os hos⟩).mono (fun _ => hsame) fun _ => hsame
  exact hPI _ ((hleaves.sends r).outcomes s os hs hos)

theorem parseResponse_same (hR : ∀ k, ∀ a ∈ s.registered k, Renews cfg k a) {opens : Nat}
    (hok : Steady cfg s ⟨opens, s.outcomes⟩ ∨ Settled s) :
    Post ((parseResponse cfg opens).run s) (fun _ => Same s) (fun _ => Same s) := by
  obtain ⟨P, I, E, hleaves, hs, hPI, hsame, -⟩ := exists_leaves hR hok
  exact (hleaves.parseResponse hPI hs).mono (fun _ => hsame) fun _ => hsame

/-- The wishes of the user: whether the last call that named the name, or covered it, was
to subscribe. A call to subscribe counts when it has returned. -/
def wishAfter (cfg : PubSubSettings ν) (s : PubSub ν) (w : Kind → ν → Bool) :
    PubSubCall ν → Kind → ν → Bool
  | .subscribe k names net => fun k' a =>
    w k' a || (k' = k ∧ a ∈ names ∧ isOk ((call cfg (.subscribe k names net)).run s) = true)
  | .unsubscribe k names _ => fun k' a => w k' a && !(k' = k ∧ Covers (sentNames names) a)
  | _ => w

/-- A `PubSub` with the wishes of its user. -/
abbrev Wishing (ν : Type) := PubSub ν × (Kind → ν → Bool)

def stepWishing (cfg : PubSubSettings ν) (p : Wishing ν) (i : PubSubCall ν) : Wishing ν :=
  (step cfg p.1 i, wishAfter cfg p.1 p.2 i)

/-- A call is in order for the wishes: wherever it comes to reconnect, no name of the
dictionaries waits for being unsubscribed, nor is it being unsubscribed by the call. -/
def KeepsWishes (cfg : PubSubSettings ν) (s : PubSub ν) : PubSubCall ν → Prop
  | .subscribe k names net => (∀ a ∈ names, Renews cfg k a) ∧ (Steady cfg s net ∨ Settled s)
  | .unsubscribe k names net => names ≠ some [] ∧ (∀ a ∈ sentNames names, Survives cfg a) ∧
      (Steady cfg s net ∨ (Settled s ∧ ∀ a ∈ s.registered k, ¬ Covers (sentNames names) a))
  | .get_message net => Steady cfg s net ∨ Settled s
  | _ => True

omit [DecidableEq ν] in
theorem KeepsWishes.inOrder {i : PubSubCall ν} (h : KeepsWishes cfg s i) : InOrder cfg s i := by
  cases i with
  | subscribe k names net => exact h.1
  | unsubscribe k names net => exact ⟨h.1, h.2.1, h.2.2.symm.imp (fun h => h.2) id⟩
  | get_message net => trivial
  | serve => trivial
  | lose n => trivial
  | disconnect => trivial

/-- The wishes, as what stands. -/
abbrev Granted (w : Kind → ν → Bool) : PubSub ν → Prop := Stands fun k a => w k a = true

theorem Stands.recorded {n : List ν} (h : Stands W s) :
    Stands (fun k' a => W k' a ∨ (k' = k ∧ a ∈ n)) (recorded s k n) := by
  intro k' a
  have := h k' a
  rw [mem_recorded_registered, mem_recorded_pending]
  change _ ↔ W k' a ∨ _
  tauto

theorem Stands.marked {keys : List ν} (h : Stands W s)
    (hkeys : ∀ a ∈ s.registered k, a ∈ keys ↔ Covers names a) :
    Stands (fun k' a => W k' a ∧ ¬ (k' = k ∧ Covers names a)) (marked s k keys) := by
  intro k' a
  have hreg : (PubSub.marked s k keys).registered = s.registered := rfl
  have := h k' a
  rw [hreg, mem_marked_pending]
  change _ ↔ W k' a ∧ _
  by_cases hk : k' = k
  · subst hk
    have := hkeys a
    tauto
  · tauto

theorem Stands.removed {a : ν} (h : Stands W s) (ha : a ∈ s.pending_unsubscribe k) :
    Stands W (removed s k a) := by
  intro k' b
  rw [mem_removed_registered, mem_removed_pending, ← h k' b]
  by_cases he : k' = k ∧ b = a
  · obtain ⟨rfl, rfl⟩ := he
    tauto
  · tauto

omit [DecidableEq ν] in
theorem Stands.flagged (h : Stands W s) : Stands W (flagged s) := by
  unfold PubSub.flagged
  split
  · exact h
  · exact h

/-- A name that is subscribed to stands once the call has returned, and nothing
changes if it has not. -/
theorem subscribe_stands {opens : Nat} (hR : ∀ k, ∀ a ∈ s.registered k, Renews cfg k a)
    (hn : ∀ a ∈ names, Survives cfg a) (hok : Steady cfg s ⟨opens, s.outcomes⟩ ∨ Settled s)
    (h : Stands W s) :
    Post ((subscribeTo cfg (PubSub.connect cfg opens) k names).run s)
      (fun _ => Stands fun k' a => W k' a ∨ (k' = k ∧ a ∈ names)) (fun _ => Stands W) := by
  unfold subscribeTo
  apply Post.bind (Q := fun _ s' => Stands W s')
  · exact (executeCommand_same hR hok).mono (fun _ _ hs => hs.stands h) fun _ _ hs => hs.stands h
  intro _ s₁ hs₁
  apply Post.bind (Q := fun keys s' => keys = names.eraseDups ∧ s' = s₁)
  · rw [normalizeKeys_run fun a ha => hn a (List.mem_eraseDups.mp ha)]
    exact ⟨rfl, rfl⟩
  rintro _ _ ⟨rfl, rfl⟩
  have hrec := hs₁.recorded (k := k) (n := names.eraseDups)
  simp only [List.mem_eraseDups] at hrec
  exact hrec

/-- A name that is unsubscribed does not stand, whether the request is sent or not. -/
theorem unsubscribe_stands {names : Option (List ν)} {opens : Nat}
    (hR : ∀ k, ∀ a ∈ s.registered k, Renews cfg k a) (hne : names ≠ some [])
    (hn : ∀ a ∈ sentNames names, Survives cfg a)
    (hok : Steady cfg s ⟨opens, s.outcomes⟩ ∨
      (Settled s ∧ ∀ a ∈ s.registered k, ¬ Covers (sentNames names) a))
    (h : Stands W s) :
    Stands (fun k' a => W k' a ∧ ¬ (k' = k ∧ Covers (sentNames names) a))
      (state ((unsubscribeFrom cfg (PubSub.connect cfg opens) k names).run s)) := by
  apply Post.state
  obtain ⟨keys, hrun, hkeys⟩ := markedKeys_run (s := s) (k := k) hn hne
  unfold unsubscribeFrom
  apply Post.get_bind
  apply Post.bind (Q := fun ks s' => ks = keys ∧ s' = s)
  · rw [hrun]
    exact ⟨rfl, rfl⟩
  rintro keys s ⟨rfl, rfl⟩
  apply Post.bind (Q := fun _ s' => s' = marked s k keys)
  · exact rfl
  rintro _ _ rfl
  have hmarked := h.marked hkeys
  refine (executeCommand_same (s := marked s k keys) hR (hok.imp id ?_)).mono (fun _ _ hs => hs.stands hmarked)
    fun _ _ hs => hs.stands hmarked
  rintro ⟨hsettled, huncovered⟩ k' a ha hp
  rcases mem_marked_pending.mp hp with hp | ⟨rfl, hmem⟩
  · exact hsettled k' a ha hp
  · exact huncovered a ha ((hkeys a ha).mp hmem)

/-- An acknowledgement takes out nothing but what does not stand. -/
theorem handleMessage_stands {r : Ack ν} (hr : ∀ k a, r = .unsubscribe k (some a) → Survives cfg a)
    (h : Stands W s) :
    Post ((handleMessage cfg r).run s) (fun _ => Stands W) (fun _ => Stands W) := by
  cases r with
  | error => exact h
  | subscribe k a => exact h
  | unsubscribe k name =>
    cases name with
    | none => exact h.flagged
    | some a =>
      change Post ((handleUnsubscribe cfg k (some a)).run s) _ _
      rw [handleUnsubscribe_run (hr k a rfl)]
      by_cases ha : a ∈ s.pending_unsubscribe k
      · rw [if_pos ha]
        exact (h.removed ha).flagged
      · rw [if_neg ha]
        exact h.flagged

theorem getMessage_stands {flag : Prop} {opens : Nat} (hs : Inv cfg (surviving cfg flag) s)
    (hok : Steady cfg s ⟨opens, s.outcomes⟩ ∨ Settled s) (h : Stands W s) :
    Stands W (state ((getMessage cfg opens).run s)) := by
  apply Post.state
  have hsame := parseResponse_same hs.books.survives hok
  unfold getMessage
  apply Post.get_bind
  refine Post.ite (fun _ => ?_) fun _ => Post.pure h
  apply Post.bind (Q := fun r s' => Stands W s' ∧
    ∀ q k a, r = some q → q = .unsubscribe k (some a) → Survives cfg a)
  · cases hc : s.connection with
    | false =>
      have hrun : (parseResponse cfg opens).run s = .error { cls := .RuntimeError } s := by
        simp [parseResponse, hc]
      rw [hrun]
      exact h
    | true =>
      have hread := parseResponse_post opens (fun _ _ h => h) (hs.kept hc)
      refine (hsame.and hread).mono (fun r s' hr => ⟨hr.1.stands h, ?_⟩) fun _ _ he => he.1.stands h
      rintro q k a rfl hq
      exact hr.2.2 k a hq
  · rintro (_ | r) s' ⟨hst, hr⟩
    · exact hst
    · exact handleMessage_stands (fun k a hq => hr r k a rfl hq) hst

/-- The invariant, and the wishes of the user granted. -/
structure Granting (cfg : PubSubSettings ν) (p : Wishing ν) : Prop where
  inv : Inv cfg (surviving cfg False) p.1
  granted : Granted p.2 p.1

theorem stepWishing_granting {p : Wishing ν} {i : PubSubCall ν} (h : Granting cfg p)
    (ha : i.Allowed cfg) (hok : KeepsWishes cfg p.1 i) : Granting cfg (stepWishing cfg p i) := by
  refine ⟨step_inv h.inv ha hok.inOrder False.elim, ?_⟩
  have hR : ∀ k, ∀ a ∈ p.1.registered k, Renews cfg k a := h.inv.books.survives
  obtain ⟨s, w⟩ := p
  cases i with
  | subscribe k names net =>
    have hpost : Post ((call cfg (.subscribe k names net)).run s)
        (fun _ => Stands fun k' a => w k' a = true ∨ (k' = k ∧ a ∈ names))
        (fun _ => Stands fun k' a => w k' a = true) := by
      simp only [call, subscribeCall_eq]
      exact subscribe_stands (s := { s with outcomes := net.outcomes }) hR (fun a ha => (hok.1 a ha).1)
        hok.2 h.granted
    cases hrun : (call cfg (.subscribe k names net)).run s with
    | ok _ s' =>
      rw [hrun] at hpost
      have hs' : Stands (fun k' a => w k' a = true ∨ (k' = k ∧ a ∈ names)) s' := hpost
      simpa [stepWishing, step, wishAfter, hrun, isOk, state, Stands] using hs'
    | error _ s' =>
      rw [hrun] at hpost
      have hs' : Stands (fun k' a => w k' a = true) s' := hpost
      simpa [stepWishing, step, wishAfter, hrun, isOk, state, Stands] using hs'
  | unsubscribe k names net =>
    have hs' : Stands (fun k' a => w k' a = true ∧ ¬ (k' = k ∧ Covers (sentNames names) a))
        (step cfg s (.unsubscribe k names net)) := by
      simp only [step, call, unsubscribeCall_eq]
      exact unsubscribe_stands (s := { s with outcomes := net.outcomes }) hR hok.1 hok.2.1 hok.2.2
        h.granted
    simpa [stepWishing, wishAfter, Stands, imp_iff_not_or] using hs'
  | get_message net =>
    exact getMessage_stands (s := { s with outcomes := net.outcomes }) (h.inv.outcomes _) hok h.granted
  | serve =>
    change Stands _ (served s)
    unfold served
    split
    · exact h.granted
    · exact h.granted
  | lose n => exact h.granted
  | disconnect => exact h.granted

/-- The server holds what the user wishes. -/
def Honoured (p : Wishing ν) : Prop := ∀ k a, a ∈ p.1.server k ↔ p.2 k a = true

theorem Granting.honoured {p : Wishing ν} (h : Granting cfg p) (hq : Quiet p.1) : Honoured p := by
  intro k a
  rw [(h.inv.quiet hq k a).1]
  exact h.granted k a

/-- In every course of calls in order, the server holds what the user asked for last,
whenever nothing is under way. -/
theorem honoured_of_keepsWishes (cfg : PubSubSettings ν) (calls : List (PubSubCall ν))
    (ha : Each (stepWishing cfg) (fun _ i => i.Allowed cfg) ({}, fun _ _ => false) calls)
    (hok : Each (stepWishing cfg) (fun p i => KeepsWishes cfg p.1 i) ({}, fun _ _ => false) calls) :
    Each (stepWishing cfg) (fun p i => Quiet (stepWishing cfg p i).1 → Honoured (stepWishing cfg p i))
      ({}, fun _ _ => false) calls :=
  (each_of_invariant (I := Granting cfg) (fun _ _ => stepWishing_granting)
    ⟨inv_new, fun _ _ => by simp⟩ ha hok).mono fun _ _ h => h.honoured

/-- A channel left before the connection is lost stays left, once that is acknowledged. -/
theorem honoured_reconnected :
    Each (stepWishing plainSettings)
      (fun p i => Quiet (stepWishing plainSettings p i).1 → Honoured (stepWishing plainSettings p i))
      ({}, fun _ _ => false)
      [.subscribe .channels ["1", "2"] {}, .serve, .get_message {}, .unsubscribe .channels (some ["1"]) {},
        .serve, .get_message {}, .get_message {}, .disconnect, .get_message {}, .serve,
        .get_message {}] := by
  apply honoured_of_keepsWishes
  · exact ⟨List.mem_cons_self, trivial, trivial, List.mem_cons_self, trivial, trivial, trivial, trivial,
      trivial, trivial, trivial, trivial⟩
  · have hsettled : ∀ s : PubSub String, s.pending_unsubscribe .channels = [] →
        s.pending_unsubscribe .patterns = [] → s.pending_unsubscribe .shard_channels = [] → Settled s := by
      rintro s hc hp hs (_ | _ | _) a _
      · simp [hc]
      · simp [hp]
      · simp [hs]
    have hsteady : ∀ s : PubSub String, s.sock = true → Steady plainSettings s {} :=
      fun s hs => .inr ⟨hs, fun e he => nomatch he⟩
    have hnames : ∀ a ∈ ["1", "2"], Renews plainSettings .channels a := by
      intro a ha
      refine ⟨⟨rfl, rfl⟩, ?_, fun hk => nomatch hk⟩
      rintro rfl
      exact absurd ha (by decide)
    refine ⟨⟨hnames, .inr (hsettled _ rfl rfl rfl)⟩, trivial, .inl (hsteady _ ?_),
      ⟨by simp, fun _ _ => ⟨rfl, rfl⟩, .inl (hsteady _ ?_)⟩, trivial, .inl (hsteady _ ?_),
      .inl (hsteady _ ?_), trivial, .inr (hsettled _ ?_ ?_ ?_), trivial, .inl (hsteady _ ?_), trivial⟩
    all_goals decide +kernel

/-- A channel is left, and the connection is lost before the server says so. Reconnecting
subscribes to it once more. -/
theorem unsubscribed_undone :
    ¬ ∀ calls, Each (stepWishing plainSettings) (fun _ i => i.Allowed plainSettings)
        ({}, fun _ _ => false) calls →
      Each (stepWishing plainSettings) (fun p i => Quiet (stepWishing plainSettings p i).1 →
        Honoured (stepWishing plainSettings p i)) ({}, fun _ _ => false) calls := by
  intro h
  have hall := h [.subscribe .channels ["1"] {}, .serve, .get_message {}, .unsubscribe .channels none {},
    .disconnect, .get_message {}, .serve, .get_message {}]
    ⟨List.mem_cons_self, trivial, trivial, List.mem_cons_self, trivial, trivial, trivial, trivial, trivial⟩
  obtain ⟨-, -, -, -, -, -, -, hlast, -⟩ := hall
  have hon := hlast ⟨⟨by decide +kernel, by decide +kernel⟩, by decide +kernel, by decide +kernel⟩
  exact absurd ((hon .channels "1").mp (by decide +kernel)) (by decide +kernel)

end PubSub

end RedisPy
