import RedisPy.Proofs.PubSubAgreement

/-! Courses of calls on a `PubSub`: the dictionaries are the server's sets whenever
nothing is under way. -/

namespace RedisPy

namespace PubSub

open Raising Course

variable {ν : Type} [DecidableEq ν] {cfg : PubSubSettings ν} {extra : List (Ack ν)}
  {todo : List Kind} {s : PubSub ν} {k : Kind} {names : List ν} {N : Bounds ν}
  {connect : M ν Unit}

/-! ### Calls -/

/-- What holds in every state of a course in order. -/
structure Inv (cfg : PubSubSettings ν) (N : Bounds ν) (s : PubSub ν) : Prop where
  books : Books cfg N s
  fresh : s.connection = false → s.sock = false ∧ ∀ k, s.registered k = []
  kept : s.connection = true → Kept cfg N s

theorem Kept.inv (h : Kept cfg N s) : Inv cfg N s :=
  ⟨h.books, fun hc => by simp [h.connection] at hc, fun _ => h⟩

theorem Inv.outcomes (h : Inv cfg N s) (os : List (Option Exc)) :
    Inv cfg N { s with outcomes := os } :=
  ⟨h.books.outcomes os, h.fresh, fun hc => (h.kept hc).outcomes os⟩

/-- The first connection, with nothing in the dictionaries. -/
theorem Inv.first (h : Inv cfg N s) (hc : s.connection = false) :
    Kept cfg N { reopened s with connection := true } := by
  have hb := h.books.reopened
  refine ⟨rfl, ⟨hb.survives, hb.kinds, hb.flag, hb.held, hb.acks⟩, fun _ k => .inl ?_⟩
  have hr : s.registered k = [] := (h.fresh hc).2 k
  constructor
  · intro a
    change a ∈ ([] : List ν) ↔ a ∈ s.registered k ∧ _
    simp [hr]
  · intro a ha
    change a ∈ s.registered k at ha
    simp [hr] at ha

theorem subscribe_inv (hN : ∀ k a, N.names k a → Renews cfg k a) {net : Network} (h : Inv cfg N s)
    (hk : k ∈ cfg.kinds) (hne : N.flag → names ≠ []) (hn : ∀ a ∈ names, N.names k a) :
    Inv cfg N (step cfg s (.subscribe k names net)) := by
  have hn' : ∀ a ∈ names.eraseDups, Survives cfg a :=
    fun a ha => (hN k a (hn a (List.mem_eraseDups.mp ha))).1
  apply Post.state
  unfold call withNetwork
  apply Post.bind (Q := fun _ => Inv cfg N)
  · exact h.outcomes _
  intro _ s₁ hs₁
  rw [subscribeCall_eq]
  apply (subscribeTo_post (connect_reconnects hN net.opens) (fun _ => Kept.inv) hk hne hN hn ?_ ?_).mono
    (fun _ _ h => Kept.inv h) (fun _ _ h => h)
  · exact fun hc => (hs₁.kept hc).asking hn'
  · exact fun hc os _ => ⟨hs₁.outcomes os, ((hs₁.outcomes os).first hc).asking hn'⟩

/-! ### Messages -/

/-- The acknowledged name is out of the dictionary. -/
def removed (s : PubSub ν) (k : Kind) (a : ν) : PubSub ν :=
  { s with
    pending_unsubscribe := Function.update s.pending_unsubscribe k
      ((s.pending_unsubscribe k).filter (· ∉ [a]))
    registered := Function.update s.registered k ((s.registered k).filter (· ∉ [a])) }

theorem mem_removed_registered {k' : Kind} {a b : ν} :
    b ∈ (removed s k a).registered k' ↔ b ∈ s.registered k' ∧ ¬ (k' = k ∧ b = a) := by
  by_cases hk : k' = k
  · subst hk
    simp [removed]
  · simp [removed, hk]

theorem mem_removed_pending {k' : Kind} {a b : ν} :
    b ∈ (removed s k a).pending_unsubscribe k' ↔ b ∈ s.pending_unsubscribe k' ∧ ¬ (k' = k ∧ b = a) := by
  by_cases hk : k' = k
  · subst hk
    simp [removed]
  · simp [removed, hk]

/-- Whether anything is left in the dictionaries is seen to last. -/
def flagged (s : PubSub ν) : PubSub ν :=
  if s.registered .channels = [] ∧ s.registered .patterns = [] ∧ s.registered .shard_channels = []
  then { s with subscribed_event := false } else s

theorem handleUnsubscribe_run {a : ν} (ha : Survives cfg a) :
    (handleUnsubscribe cfg k (some a)).run s =
      .ok () (flagged (if a ∈ s.pending_unsubscribe k then removed s k a else s)) := by
  have hkeys : (_normalizeKeys cfg [a]).run s = .ok [a] s :=
    normalizeKeys_run (fun b hb => List.mem_singleton.mp hb ▸ ha) s
  have hpop : (popUnsubscribed cfg k (some a)).run s =
      .ok () (if a ∈ s.pending_unsubscribe k then removed s k a else s) := by
    unfold popUnsubscribed
    rw [EStateM.run_bind, hkeys]
    simp only [List.mem_singleton, exists_eq_left, EStateM.run_modify, removed]
  unfold handleUnsubscribe
  rw [EStateM.run_bind, hpop]
  rfl

/-- The flag is not looked at here. -/
structure Listed (cfg : PubSubSettings ν) (N : Bounds ν) (s : PubSub ν) : Prop where
  connection : s.connection = true
  survives : ∀ k, ∀ a ∈ s.registered k, N.names k a
  kinds : ∀ k, k ∉ cfg.kinds → s.registered k = []
  flag : N.flag → (∃ k, s.registered k ≠ []) → s.subscribed_event = true
  held : ∀ k, ∀ a ∈ final s k, Survives cfg a
  acks : ∀ k a, .unsubscribe k (some a) ∈ due s → Survives cfg a
  agrees : Up s → ∀ k, Agrees [] k s

theorem Listed.flagged (h : Listed cfg N s) : Kept cfg N (flagged s) := by
  unfold PubSub.flagged
  split
  · rename_i hnil
    have hall : ∀ k, s.registered k = [] := by
      rintro (_ | _ | _)
      · exact hnil.1
      · exact hnil.2.1
      · exact hnil.2.2
    refine ⟨h.connection, ⟨h.survives, h.kinds, ?_, h.held, h.acks⟩, fun hu k => .inl ?_⟩
    · simp [hall]
    · exact ⟨(h.agrees hu k).mem_final, (h.agrees hu k).due⟩
  · rename_i hsome
    have hex : ∃ k, s.registered k ≠ [] := by
      by_contra hno
      have hall : ∀ k, s.registered k = [] := by simpa using hno
      exact hsome ⟨hall _, hall _, hall _⟩
    exact ⟨h.connection, ⟨h.survives, h.kinds, fun hf => ⟨fun _ => hex, h.flag hf⟩, h.held, h.acks⟩,
      fun hu k => .inl (h.agrees hu k)⟩

/-- An acknowledgement that is at hand settles what was pending. -/
theorem handleMessage_post {r : Ack ν} (hn : ∀ k a, r = .unsubscribe k (some a) → Survives cfg a)
    (h : Partly cfg N [r] [] s) :
    Post ((handleMessage cfg r).run s) (fun _ => Kept cfg N) (fun _ => Kept cfg N) := by
  have hag : Up s → ∀ k, Agrees [r] k s := fun hu k =>
    (h.agrees hu k).resolve_right fun h => by simp at h
  -- An acknowledgement of anything else is not waited for.
  have hother : (∀ k a, r ≠ .unsubscribe k (some a)) → Listed cfg N s := by
    intro hr
    refine ⟨h.connection, h.books.survives, h.books.kinds, fun hf => (h.books.flag hf).mpr, h.books.held,
      h.books.acks, fun hu k => ⟨(hag hu k).mem_final, fun a ha hp => ?_⟩⟩
    exact (List.mem_cons.mp ((hag hu k).due a ha hp)).resolve_left fun he => hr k a he.symm
  have hkept : Listed cfg N s → Kept cfg N s := fun hl =>
    ⟨h.connection, h.books, fun hu k => .inl (hl.agrees hu k)⟩
  cases r with
  | error => exact hkept (hother fun _ _ => by simp)
  | subscribe k a => exact hkept (hother fun _ _ => by simp)
  | unsubscribe k name =>
    cases name with
    | none =>
      have hrun : (handleMessage cfg (.unsubscribe k none)).run s = .ok () (flagged s) := by
        simp only [handleMessage, handleUnsubscribe, popUnsubscribed]
        rfl
      rw [hrun]
      exact (hother fun _ _ => by simp).flagged
    | some a =>
      change Post ((handleUnsubscribe cfg k (some a)).run s) _ _
      rw [handleUnsubscribe_run (hn k a rfl)]
      have hdue : ∀ hu : Up s, ∀ k' b, b ∈ s.registered k' → b ∈ s.pending_unsubscribe k' →
          ¬ (k' = k ∧ b = a) → .unsubscribe k' (some b) ∈ due s := by
        intro hu k' b hb hp hne
        refine (List.mem_cons.mp ((hag hu k').due b hb hp)).resolve_left fun he => hne ?_
        simpa using he
      by_cases hp : a ∈ s.pending_unsubscribe k
      · rw [if_pos hp]
        apply Listed.flagged
        constructor
        · exact h.connection
        · exact fun k' b hb => h.books.survives k' b (mem_removed_registered.mp hb).1
        · intro k' hk'
          refine List.eq_nil_iff_forall_not_mem.mpr fun b hb => ?_
          have := (mem_removed_registered.mp hb).1
          simp [h.books.kinds k' hk'] at this
        · rintro hf ⟨k', hk'⟩
          obtain ⟨b, hb⟩ := List.exists_mem_of_ne_nil _ hk'
          exact (h.books.flag hf).mpr ⟨k', List.ne_nil_of_mem (mem_removed_registered.mp hb).1⟩
        · exact h.books.held
        · exact h.books.acks
        · intro hu k'
          constructor
          · intro b
            rw [mem_removed_registered, mem_removed_pending]
            have hmem := (hag hu k').mem_final b
            change b ∈ final s k' ↔ _
            by_cases he : k' = k ∧ b = a
            · obtain ⟨rfl, rfl⟩ := he
              tauto
            · tauto
          · intro b hb hq
            rw [mem_removed_registered] at hb
            rw [mem_removed_pending] at hq
            exact hdue hu k' b hb.1 hq.1 hb.2
      · rw [if_neg hp]
        refine Listed.flagged ⟨h.connection, h.books.survives, h.books.kinds, fun hf => (h.books.flag hf).mpr,
          h.books.held, h.books.acks, fun hu k' => ⟨(hag hu k').mem_final, fun b hb hq => ?_⟩⟩
        apply hdue hu k' b hb hq
        rintro ⟨rfl, rfl⟩
        exact hp hq

/-- The reply is at hand and off the connection, if there is one. -/
def Read (cfg : PubSubSettings ν) (N : Bounds ν) : Option (Ack ν) → PubSub ν → Prop
  | some r, s => Partly cfg N [r] [] s ∧ ∀ k a, r = .unsubscribe k (some a) → Survives cfg a
  | none, s => Kept cfg N s

theorem Kept.read {r : Ack ν} {rs : List (Ack ν)} (h : Kept cfg N s) (hr : s.replies = r :: rs) :
    Read cfg N (some r) { s with replies := rs } := by
  have hdue : due s = r :: due { s with replies := rs } := by simp [due, hr]
  have hacks : ∀ k a, .unsubscribe k (some a) ∈ r :: due { s with replies := rs } →
      Survives cfg a := hdue ▸ h.books.acks
  refine ⟨⟨h.connection, ⟨h.books.survives, h.books.kinds, h.books.flag, h.books.held, ?_⟩, ?_⟩, ?_⟩
  · exact fun k a ha => hacks k a (List.mem_cons_of_mem _ ha)
  · intro hu k
    left
    refine ⟨(h.agreed hu k).mem_final, fun a ha hp => ?_⟩
    have := (h.agreed hu k).due a ha hp
    rwa [hdue] at this
  · exact fun k a he => hacks k a (he ▸ List.mem_cons_self)

omit [DecidableEq ν] in
/-- Reading a reply, once the connection is open. -/
def nextReply : M ν (Option (Ack ν)) := do
  draw
  match (← get).replies with
  | [] => return none
  | r :: rs =>
    modify fun s => { s with replies := rs }
    return some r

theorem readReply_post (hcon : Reconnects cfg N connect) (h : Kept cfg N s) :
    Post ((readReply cfg connect).run s) (Read cfg N) (fun _ => Kept cfg N) := by
  have hread : ∀ s, Kept cfg N s →
      Post (nextReply.run s) (Read cfg N) (fun _ => Kept cfg N) := by
    intro s hs
    apply Post.bind (Q := fun _ => Kept cfg N)
    · exact draw_post (fun os _ => hs.outcomes os) fun e os _ => hs.outcomes os
    · intro _ s₁ hs₁
      apply Post.get_bind
      cases hr : s₁.replies with
      | nil => exact hs₁
      | cons r rs => exact hs₁.read hr
  unfold readReply
  cases hasyncio : cfg.asyncio with
  | true => exact hread s h
  | false =>
    simp only [Bool.not_false]
    exact Post.bind (hcon.keeps s h) fun _ => hread

theorem parseResponse_post (opens : Nat) (hN : ∀ k a, N.names k a → Renews cfg k a) (h : Kept cfg N s) :
    Post ((parseResponse cfg opens).run s) (Read cfg N) (fun _ => Kept cfg N) := by
  have hcon := connect_reconnects hN opens
  have hexecute : ∀ s, Kept cfg N s → Post ((_execute cfg (PubSub.connect cfg opens)
      (readReply cfg (PubSub.connect cfg opens)) cfg.retries).run s) (Read cfg N) (fun _ => Kept cfg N) :=
    execute_post (E := fun _ => Kept cfg N) (fun _ => readReply_post hcon) (fun _ _ h => h)
      (fun _ _ h => h.disconnected)
      (fun e s hs _ _ => (hcon.keeps _ hs.disconnected).mono (fun _ _ h => ⟨h, h⟩) fun _ _ h => h) _
  unfold parseResponse
  apply Post.get_bind
  simp only [h.connection, Bool.not_true]
  cases hasyncio : cfg.asyncio with
  | true => exact Post.bind (hcon.keeps s h) fun _ => hexecute
  | false => exact hexecute s h

theorem getMessage_inv (hN : ∀ k a, N.names k a → Renews cfg k a) {net : Network} (h : Inv cfg N s) :
    Inv cfg N (step cfg s (.get_message net)) := by
  have hs := h.outcomes net.outcomes
  apply Post.state
  unfold call withNetwork
  apply Post.bind (Q := fun _ s' => s' = { s with outcomes := net.outcomes })
  · exact rfl
  rintro _ s' rfl
  generalize ({ s with outcomes := net.outcomes } : PubSub ν) = s' at hs
  unfold getMessage
  apply Post.get_bind
  refine Post.ite (fun _ => ?_) fun _ => Post.pure hs
  cases hc : s'.connection with
  | false =>
    have hrun : (parseResponse cfg net.opens).run s' = .error { cls := .RuntimeError } s' := by
      simp [parseResponse, hc]
    apply Post.bind (Q := fun _ _ => False)
    · rw [hrun]
      exact hs
    · exact fun _ _ h => h.elim
  | true =>
    apply Post.bind ((parseResponse_post _ hN (hs.kept hc)).mono (fun _ _ h => h) fun _ _ => Kept.inv)
    rintro (_ | r) s₁ hs₁
    · exact Kept.inv hs₁
    · exact (handleMessage_post hs₁.2 hs₁.1).mono (fun _ _ => Kept.inv) fun _ _ => Kept.inv

/-! ### Unsubscribing -/

/-- The names are pending, and the request is about to be sent. -/
structure Asked (cfg : PubSubSettings ν) (N : Bounds ν) (k : Kind) (names : List ν)
    (s : PubSub ν) : Prop where
  connection : s.connection = true
  books : Books cfg N s
  sound : Up s → ∀ a ∈ final s k, a ∈ s.registered k ∧ (a ∈ s.pending_unsubscribe k → Covers names a)
  live : Up s → ∀ a ∈ s.registered k, a ∉ s.pending_unsubscribe k →
    a ∈ final s k ∧ ¬ Covers names a
  due : Up s → ∀ a ∈ s.registered k, a ∈ s.pending_unsubscribe k →
    a ∈ final s k ∨ .unsubscribe k (some a) ∈ due s
  others : Up s → ∀ k', k' ≠ k → Agrees [] k' s

theorem Asked.appended (h : Asked cfg N k names s) (hn : ∀ a ∈ names, Survives cfg a) :
    Kept cfg N (appended s (.UNSUBSCRIBE k names)) := by
  refine ⟨by rw [appended_connection, h.connection], h.books.appended hn, fun hu k' => .inl ?_⟩
  replace hu := hu.of_appended
  by_cases hk : k' = k
  · subst hk
    constructor
    · intro a
      rw [final_appended hu.2, mem_serve_unsubscribe, appended_registered, appended_pending]
      have := h.sound hu a
      have := h.live hu a
      tauto
    · intro a hr hp
      rw [appended_registered] at hr
      rw [appended_pending] at hp
      rw [due_appended hu.2, List.nil_append]
      rcases h.due hu a hr hp with hf | hd
      · exact List.mem_append_right _ (ack_mem_serve hf ((h.sound hu a hf).2 hp))
      · exact List.mem_append_left _ hd
  · exact (h.others hu k' hk).other hu.2 hk

def marked (s : PubSub ν) (k : Kind) (keys : List ν) : PubSub ν :=
  { s with
    pending_unsubscribe := Function.update s.pending_unsubscribe k
      (s.pending_unsubscribe k ++ keys.filter (· ∉ s.pending_unsubscribe k)) }

theorem mem_marked_pending {k' : Kind} {keys : List ν} {a : ν} :
    a ∈ (marked s k keys).pending_unsubscribe k' ↔
      a ∈ s.pending_unsubscribe k' ∨ (k' = k ∧ a ∈ keys) := by
  by_cases hk : k' = k
  · subst hk
    simp [marked]
    tauto
  · simp [marked, hk]

theorem Kept.asked {keys : List ν} (h : Kept cfg N s)
    (hkeys : ∀ a ∈ s.registered k, a ∈ keys ↔ Covers names a) :
    Asked cfg N k names (marked s k keys) where
  connection := h.connection
  books := ⟨h.books.survives, h.books.kinds, h.books.flag, h.books.held, h.books.acks⟩
  sound hu a ha := by
    have hmem := ((h.agreed hu k).mem_final a).mp ha
    refine ⟨hmem.1, fun hp => ?_⟩
    rw [mem_marked_pending] at hp
    exact (hkeys a hmem.1).mp (hp.resolve_left hmem.2).2
  live hu a ha hp := by
    rw [mem_marked_pending] at hp
    have := (h.agreed hu k).mem_final a
    have := hkeys a ha
    change a ∈ final s k ∧ _
    have ha' : a ∈ s.registered k := ha
    tauto
  due hu a ha hp := by
    rw [mem_marked_pending] at hp
    by_cases hpend : a ∈ s.pending_unsubscribe k
    · exact .inr ((h.agreed hu k).due a ha hpend)
    · exact .inl (((h.agreed hu k).mem_final a).mpr ⟨ha, hpend⟩)
  others hu k' hk := by
    have hpen : (marked s k keys).pending_unsubscribe k' = s.pending_unsubscribe k' := by
      simp [marked, hk]
    constructor
    · rw [hpen]
      exact (h.agreed hu k').mem_final
    · rw [hpen]
      exact (h.agreed hu k').due

/-- Names that are not in the dictionary may well be pending. -/
theorem Kept.marked {keys : List ν} (h : Kept cfg N s) (hkeys : ∀ a ∈ s.registered k, a ∉ keys) :
    Kept cfg N (marked s k keys) := by
  refine ⟨h.connection, ⟨h.books.survives, h.books.kinds, h.books.flag, h.books.held, h.books.acks⟩,
    fun hu k' => .inl ⟨fun a => ?_, fun a ha hp => ?_⟩⟩
  · rw [mem_marked_pending]
    have hmem := (h.agreed hu k').mem_final a
    change a ∈ final s k' ↔ a ∈ s.registered k' ∧ _
    have := hkeys a
    by_cases hk : k' = k
    · subst hk
      tauto
    · tauto
  · rw [mem_marked_pending] at hp
    refine (h.agreed hu k').due a ha (hp.resolve_right ?_)
    rintro ⟨rfl, hmem⟩
    exact hkeys a ha hmem

/-- A call cannot come to reconnect: there is a socket and no failure that would lead to
it, or no socket can be opened. -/
def Steady (cfg : PubSubSettings ν) (s : PubSub ν) (net : Network) : Prop :=
  net.opens = 0 ∨ (s.sock = true ∧ ∀ e, some e ∈ net.outcomes →
    ¬ (cfg.supported_errors e = true ∧ cfg.retry_on_error e = true))

theorem Asked.outcomes (h : Asked cfg N k names s) (os : List (Option Exc)) :
    Asked cfg N k names { s with outcomes := os } :=
  ⟨h.connection, h.books.outcomes os, h.sound, h.live, h.due,
    fun hu k' hk => ⟨(h.others hu k' hk).mem_final, (h.others hu k' hk).due⟩⟩

theorem Asked.down (h : Asked cfg N k names s) (hs : s.sock = false) : Kept cfg N s :=
  .of_down h.connection h.books hs

theorem connect_zero (s : PubSub ν) (hs : s.sock = false) :
    (PubSub.connect cfg 0).run s = .error { cls := .ConnectionError } s := by
  simp [PubSub.connect, hs]

theorem sends_unopened (hn : ∀ a ∈ names, Survives cfg a) :
    Sends cfg (PubSub.connect cfg 0) (.UNSUBSCRIBE k names) (Asked cfg N k names) (Kept cfg N)
      (Kept cfg N) (fun _ => Kept cfg N) where
  outcomes _ os hs _ := hs.outcomes os
  sent _ hs := hs.appended hn
  lost _ _ os hs _ := .of_down hs.connection (hs.books.outcomes os).disconnected rfl
  down s hs hdown := by
    rw [connect_zero s hdown]
    exact hs.down hdown
  up s hs := connect_up cfg 0 hs
  error _ _ h := h
  disconnected _ _ h := h.disconnected
  reconnect e s hs _ _ := by
    rw [connect_zero _ rfl]
    exact hs.disconnected

theorem sends_steady {opens : Nat} (hn : ∀ a ∈ names, Survives cfg a) :
    Sends cfg (PubSub.connect cfg opens) (.UNSUBSCRIBE k names)
      (fun s => Asked cfg N k names s ∧ s.sock = true ∧ ∀ e, some e ∈ s.outcomes →
        ¬ (cfg.supported_errors e = true ∧ cfg.retry_on_error e = true))
      (Kept cfg N) (Kept cfg N)
      (fun e s => Kept cfg N s ∧ ¬ (cfg.supported_errors e = true ∧ cfg.retry_on_error e = true)) where
  outcomes _ os hs hos := ⟨hs.1.outcomes os, hs.2.1, fun e he => hs.2.2 e (hos _ he)⟩
  sent _ hs := hs.1.appended hn
  lost _ e os hs he :=
    ⟨.of_down hs.1.connection (hs.1.books.outcomes os).disconnected rfl, hs.2.2 e he⟩
  down s hs hdown := by simp [hs.2.1] at hdown
  up s hs := connect_up cfg opens hs
  error _ _ h := h.1
  disconnected _ _ h := h.1.disconnected
  reconnect e s hs hsup hretry := absurd ⟨hsup, hretry⟩ hs.2

theorem Partly.bound {N' : Bounds ν} (h : Partly cfg N extra todo s)
    (hN : ∀ k, ∀ a ∈ s.registered k, N'.names k a) (hflag : N'.flag → N.flag) :
    Partly cfg N' extra todo s :=
  ⟨h.connection, ⟨hN, h.books.kinds, fun hf => h.books.flag (hflag hf), h.books.held,
    h.books.acks⟩, h.agrees⟩

/-- Names that are not in the dictionary are unsubscribed at the server alone. -/
theorem sends_unregistered (hcon : Reconnects cfg (N.without k names) connect)
    (hn : ∀ a ∈ names, Survives cfg a) :
    Sends cfg connect (.UNSUBSCRIBE k names)
      (Kept cfg (N.without k names)) (Kept cfg N)
      (Kept cfg (N.without k names))
      (fun _ => Kept cfg (N.without k names)) :=
  hcon.sends (fun _ h => h) (fun _ h => ⟨h.connection, h.books⟩) (fun _ os h => h.outcomes os) (by
    intro s hs
    have huncovered : ∀ a ∈ s.registered k, ¬ Covers names a := fun a ha hc =>
      (hs.books.survives k a ha).2 ⟨rfl, hc⟩
    refine Asked.appended ⟨hs.connection, ⟨fun k' a ha => (hs.books.survives k' a ha).1,
      hs.books.kinds, hs.books.flag, hs.books.held, hs.books.acks⟩, ?_, ?_, ?_, ?_⟩ hn
    · intro hu a ha
      have hmem := ((hs.agreed hu k).mem_final a).mp ha
      exact ⟨hmem.1, fun hp => absurd hp hmem.2⟩
    · exact fun hu a ha hp => ⟨((hs.agreed hu k).mem_final a).mpr ⟨ha, hp⟩, huncovered a ha⟩
    · exact fun hu a ha hp => .inr ((hs.agreed hu k).due a ha hp)
    · exact fun hu k' _ => hs.agreed hu k')

/-- The names of a call to unsubscribe, as they are sent. -/
abbrev sentNames (names : Option (List ν)) : List ν := names.getD []

omit [DecidableEq ν] in
theorem markedKeys_run {names : Option (List ν)} (hn : ∀ a ∈ sentNames names, Survives cfg a)
    (hne : names ≠ some []) :
    ∃ keys, (names.elim (return s.registered k) (_normalizeKeys cfg) : M ν (List ν)).run s =
        .ok keys s ∧ ∀ a ∈ s.registered k, a ∈ keys ↔ Covers (sentNames names) a := by
  cases names with
  | none => exact ⟨s.registered k, rfl, fun a ha => ⟨fun _ => .inl rfl, fun _ => ha⟩⟩
  | some names =>
    refine ⟨names, normalizeKeys_run hn s, fun a _ => ⟨.inr, fun hc => hc.resolve_left ?_⟩⟩
    rintro rfl
    exact hne rfl

/-- How the request to unsubscribe is sent once its names are pending. -/
theorem unsubscribed_post (hN : ∀ k a, N.names k a → Renews cfg k a) {opens : Nat} {keys : List ν}
    (h : Kept cfg N s) (hn : ∀ a ∈ names, Survives cfg a)
    (hkeys : ∀ a ∈ s.registered k, a ∈ keys ↔ Covers names a)
    (hok : (∀ a ∈ s.registered k, ¬ Covers names a) ∨ Steady cfg s ⟨opens, s.outcomes⟩) :
    Post ((executeCommand cfg (PubSub.connect cfg opens) (.UNSUBSCRIBE k names)).run
      (marked s k keys)) (fun _ => Inv cfg N) (fun _ => Inv cfg N) := by
  have hnever : (marked s k keys).connection = false → False := fun hc => by
    have : s.connection = false := hc
    simp [h.connection] at this
  rcases hok with huncovered | hopens | ⟨hsock, hquiet⟩
  · have hbound : ∀ k' a, (N.without k names).names k' a → Renews cfg k' a :=
      fun k' a ha => hN k' a ha.1
    have hmarked : Kept cfg (N.without k names) (marked s k keys) := by
      refine (h.marked fun a ha hk => huncovered a ha ((hkeys a ha).mp hk)).bound
        (fun k' a ha => ?_) id
      refine ⟨h.books.survives k' a ha, ?_⟩
      rintro ⟨rfl, hc⟩
      exact huncovered a ha hc
    refine (executeCommand_post (sends_unregistered (connect_reconnects hbound opens) hn)
      (J := Inv cfg N) (fun s hs => ?_) _ (fun _ => hmarked) fun hc => (hnever hc).elim).mono
      (fun _ _ h => Kept.inv h) fun _ _ h => h
    exact Kept.inv (hs.bound (fun k' a ha => (hs.books.survives k' a ha).1) id)
  · obtain rfl : opens = 0 := hopens
    exact (executeCommand_post (sends_unopened hn) (fun _ => Kept.inv) _
      (fun _ => h.asked hkeys) fun hc => (hnever hc).elim).mono (fun _ _ h => Kept.inv h) fun _ _ h => h
  · exact (executeCommand_post (sends_steady hn) (fun _ => Kept.inv) _
      (fun _ => ⟨h.asked hkeys, hsock, hquiet⟩) fun hc => (hnever hc).elim).mono
      (fun _ _ h => Kept.inv h) fun _ _ h => h

theorem unsubscribe_inv (hN : ∀ k a, N.names k a → Renews cfg k a) {names : Option (List ν)}
    {net : Network} (h : Inv cfg N s) (hne : names ≠ some [])
    (hn : ∀ a ∈ sentNames names, Survives cfg a)
    (hok : (∀ a ∈ s.registered k, ¬ Covers (sentNames names) a) ∨ Steady cfg s net) :
    Inv cfg N (step cfg s (.unsubscribe k names net)) := by
  apply Post.state
  unfold call withNetwork
  apply Post.bind (Q := fun _ s' => s' = { s with outcomes := net.outcomes })
  · exact rfl
  rintro _ s₁ rfl
  have hs := h.outcomes net.outcomes
  generalize hs₁ : ({ s with outcomes := net.outcomes } : PubSub ν) = s₁ at hs
  replace hok : (∀ a ∈ s₁.registered k, ¬ Covers (sentNames names) a) ∨
      Steady cfg s₁ ⟨net.opens, s₁.outcomes⟩ := by
    subst hs₁
    exact hok
  obtain ⟨keys, hrun, hkeys⟩ := markedKeys_run (s := s₁) (k := k) hn hne
  rw [unsubscribeCall_eq]
  unfold unsubscribeFrom
  apply Post.get_bind
  apply Post.bind (Q := fun ks s' => ks = keys ∧ s' = s₁)
  · rw [hrun]
    exact ⟨rfl, rfl⟩
  rintro keys s₁ ⟨rfl, rfl⟩
  apply Post.bind (Q := fun _ s' => s' = marked s₁ k keys)
  · exact rfl
  rintro _ _ rfl
  cases hc : s₁.connection with
  | true => exact unsubscribed_post hN (hs.kept hc) hn hkeys hok
  | false =>
    have hbound : ∀ k' a, (N.without k (sentNames names)).names k' a → Renews cfg k' a :=
      fun k' a ha => hN k' a ha.1
    have hmarked : ∀ os, Inv cfg N { marked s₁ k keys with outcomes := os } := fun os =>
      ⟨⟨hs.books.survives, hs.books.kinds, hs.books.flag, hs.books.held, hs.books.acks⟩, hs.fresh,
        fun hc' => by simp [marked, hc] at hc'⟩
    refine (executeCommand_post (sends_unregistered (connect_reconnects hbound net.opens) hn)
      (J := Inv cfg N) (fun s hs => ?_) _ (fun hc' => by simp [marked, hc] at hc')
      fun _ os _ => ⟨hmarked os, ?_⟩).mono (fun _ _ h => Kept.inv h) fun _ _ h => h
    · exact Kept.inv (hs.bound (fun k' a ha => (hs.books.survives k' a ha).1) id)
    · refine ((hmarked os).first hc).bound (fun k' a ha => ?_) id
      have : a ∈ s₁.registered k' := ha
      simp [(hs.fresh hc).2 k'] at this

/-! ### The server and the network -/

theorem final_served (s : PubSub ν) : final (served s) = final s := by
  unfold served
  split
  · rfl
  · rename_i r rs hr
    simp [final, hr, serveAll]

theorem due_served (s : PubSub ν) : due (served s) = due s := by
  unfold served
  split
  · rfl
  · rename_i r rs hr
    simp [due, hr, serveAll]

/-- A request that is taken changes nothing about what is to come. -/
theorem serve_inv (h : Inv cfg N s) : Inv cfg N (step cfg s .serve) := by
  have hstep : step cfg s .serve = served s := rfl
  have hsame : (served s).connection = s.connection ∧ (served s).sock = s.sock ∧
      (served s).alive = s.alive ∧ (served s).registered = s.registered ∧
      (served s).pending_unsubscribe = s.pending_unsubscribe ∧
      (served s).subscribed_event = s.subscribed_event := by
    unfold served
    split <;> simp
  obtain ⟨hconn, hsock, halive, hreg, hpen, hflag⟩ := hsame
  have hbooks : Books cfg N (served s) := by
    constructor
    · rw [hreg]
      exact h.books.survives
    · rw [hreg]
      exact h.books.kinds
    · rw [hreg, hflag]
      exact h.books.flag
    · rw [final_served]
      exact h.books.held
    · rw [due_served]
      exact h.books.acks
  rw [hstep]
  refine ⟨hbooks, ?_, fun hc => ⟨hc, hbooks, fun hu k => .inl ?_⟩⟩
  · rw [hconn, hsock, hreg]
    exact h.fresh
  · rw [hconn] at hc
    rw [Up, hsock, halive] at hu
    have hag := (h.kept hc).agreed hu k
    constructor
    · rw [final_served, hreg, hpen]
      exact hag.mem_final
    · rw [due_served, hreg, hpen]
      exact hag.due

theorem lose_inv (h : Inv cfg N s) (n : Nat) : Inv cfg N (step cfg s (.lose n)) := by
  have hbooks : Books cfg N (lost n s) := by
    refine ⟨h.books.survives, h.books.kinds, h.books.flag, fun _ _ ha => (nomatch ha), fun k a ha => ?_⟩
    have hmem : .unsubscribe k (some a) ∈ s.replies.take n := by simpa [due, lost, serveAll] using ha
    exact h.books.acks k a (List.mem_append_left _ (List.mem_of_mem_take hmem))
  refine ⟨hbooks, h.fresh, fun hc => ⟨hc, hbooks, fun hu => ?_⟩⟩
  have halive := hu.2
  cases halive

theorem disconnect_inv (h : Inv cfg N s) : Inv cfg N (step cfg s .disconnect) :=
  ⟨h.books.disconnected, fun hc => ⟨rfl, (h.fresh hc).2⟩, fun hc => (h.kept hc).disconnected⟩

/-- A call is in order: its names survive, those subscribed to are subscribed to again, and
where a request to unsubscribe comes to
reconnect it covers no name of the dictionary. -/
def InOrder (cfg : PubSubSettings ν) (s : PubSub ν) : PubSubCall ν → Prop
  | .subscribe k names _ => ∀ a ∈ names, Renews cfg k a
  | .unsubscribe k names net => names ≠ some [] ∧ (∀ a ∈ sentNames names, Survives cfg a) ∧
      ((∀ a ∈ s.registered k, ¬ Covers (sentNames names) a) ∨ Steady cfg s net)
  | _ => True

/-- A call to subscribe has a name at least. -/
def HasNames : PubSubCall ν → Prop
  | .subscribe _ names _ => names ≠ []
  | _ => True

/-- All names are subscribed to again. -/
def surviving (cfg : PubSubSettings ν) (flag : Prop) : Bounds ν where
  names := Renews cfg
  flag := flag

theorem step_inv {flag : Prop} {i : PubSubCall ν} (h : Inv cfg (surviving cfg flag) s)
    (ha : i.Allowed cfg) (hok : InOrder cfg s i) (hflag : flag → HasNames i) :
    Inv cfg (surviving cfg flag) (step cfg s i) := by
  have hN : ∀ k a, (surviving cfg flag).names k a → Renews cfg k a := fun _ _ h => h
  cases i with
  | subscribe k names net => exact subscribe_inv hN h ha hflag hok
  | unsubscribe k names net => exact unsubscribe_inv hN h hok.1 hok.2.1 hok.2.2
  | get_message net => exact getMessage_inv hN h
  | serve => exact serve_inv h
  | lose n => exact lose_inv h n
  | disconnect => exact disconnect_inv h

theorem inv_new : Inv cfg N ({} : PubSub ν) := by
  constructor
  · constructor
    · exact fun _ _ ha => nomatch ha
    · exact fun _ _ => rfl
    · simp
    · exact fun _ _ ha => nomatch ha
    · exact fun _ _ ha => nomatch ha
  · exact fun _ => ⟨rfl, fun _ => rfl⟩
  · exact fun hc => nomatch hc

/-- The connection is up and nothing is under way. -/
def Quiet (s : PubSub ν) : Prop := Up s ∧ s.requests = [] ∧ s.replies = []

/-- The dictionaries are the server's sets, and `subscribed` tells whether there is
anything in them. -/
def InAgreement (cfg : PubSubSettings ν) (s : PubSub ν) : Prop :=
  (∀ k a, a ∈ s.registered k ↔ a ∈ s.server k) ∧
    (subscribed cfg s = true ↔ ∃ k, s.registered k ≠ [])

theorem Inv.quiet (h : Inv cfg N s) (hq : Quiet s) (k : Kind) (a : ν) :
    (a ∈ s.server k ↔ a ∈ s.registered k ∧ a ∉ s.pending_unsubscribe k) ∧
      (a ∈ s.registered k → a ∉ s.pending_unsubscribe k) := by
  obtain ⟨hu, hreq, hrep⟩ := hq
  have hc : s.connection = true := by
    cases hc : s.connection with
    | true => rfl
    | false => exact absurd hu.1 (by simp [(h.fresh hc).1])
  have hag := (h.kept hc).agreed hu k
  refine ⟨?_, fun ha hp => ?_⟩
  · have := hag.mem_final a
    rwa [final, hreq] at this
  · have := hag.due a ha hp
    simp [due, hreq, hrep, serveAll] at this

theorem Inv.subscribed (h : Inv cfg (surviving cfg True) s) :
    subscribed cfg s = true ↔ ∃ k, s.registered k ≠ [] := by
  unfold PubSub.subscribed
  cases hasyncio : cfg.asyncio with
  | false => exact h.books.flag trivial
  | true =>
    have hshard : s.registered .shard_channels = [] :=
      h.books.kinds _ (by simp [PubSubSettings.kinds, hasyncio])
    simp only [ite_true, decide_eq_true_eq]
    constructor
    · exact fun hk => hk.elim (fun hk => ⟨_, hk⟩) fun hk => ⟨_, hk⟩
    · rintro ⟨_ | _ | _, hk⟩
      · exact .inl hk
      · exact .inr hk
      · exact absurd hshard hk

theorem Inv.inAgreement (h : Inv cfg (surviving cfg True) s) (hq : Quiet s) : InAgreement cfg s := by
  refine ⟨fun k a => ?_, h.subscribed⟩
  obtain ⟨hmem, hpend⟩ := h.quiet hq k a
  tauto

/-- In every course of calls in order, where all subscriptions have names, the client
agrees with the server whenever nothing is under way. -/
theorem inAgreement_of_inOrder (cfg : PubSubSettings ν) (calls : List (PubSubCall ν))
    (ha : Each (step cfg) (fun _ i => i.Allowed cfg) {} calls)
    (hok : Each (step cfg) (fun s i => InOrder cfg s i ∧ HasNames i) {} calls) :
    Each (step cfg) (fun s i => Quiet (step cfg s i) → InAgreement cfg (step cfg s i)) {} calls :=
  (each_of_invariant (I := Inv cfg (surviving cfg True))
    (fun _ _ h ha hok => step_inv h ha hok.1 fun _ => hok.2) inv_new ha hok).mono
    fun _ _ h => h.inAgreement

/-- The sync client on names that are kept as they are, with no retries. -/
def plainSettings : PubSubSettings String where
  asyncio := false
  encoder := { normalize := .ok, force := .ok, self := "self", target_node := "target_node" }
  retries := 0
  supported_errors e := e.isinstanceAny [.ConnectionError, .TimeoutError, .SocketTimeout]
  retry_on_error _ := false

/-- A connection lost after a subscription, and the channel left after that. -/
theorem inAgreement_reconnected :
    Each (step plainSettings)
      (fun s i => Quiet (step plainSettings s i) → InAgreement plainSettings (step plainSettings s i)) {}
      [.subscribe .channels ["1"] {}, .serve, .disconnect, .get_message {}, .serve, .get_message {},
        .unsubscribe .channels (some ["1"]) {}, .serve, .get_message {}] := by
  apply inAgreement_of_inOrder
  · exact ⟨List.mem_cons_self, trivial, trivial, trivial, trivial, trivial, List.mem_cons_self,
      trivial, trivial, trivial⟩
  · refine ⟨⟨?_, List.cons_ne_nil _ _⟩, ⟨trivial, trivial⟩, ⟨trivial, trivial⟩,
      ⟨trivial, trivial⟩, ⟨trivial, trivial⟩, ⟨trivial, trivial⟩, ⟨⟨by simp, fun _ _ => ⟨rfl, rfl⟩, ?_⟩, trivial⟩,
      ⟨trivial, trivial⟩, ⟨trivial, trivial⟩, trivial⟩
    · intro a ha
      obtain rfl := List.mem_singleton.mp ha
      exact ⟨⟨rfl, rfl⟩, by decide, by decide⟩
    · exact .inr (.inr ⟨by decide +kernel, fun e he => nomatch he⟩)

/-- A channel is left while the connection is down. Reconnecting subscribes to it once
more and forgets that it is to be left, so that its acknowledgement is not heeded. -/
theorem unsubscribed_offline_disagrees :
    ¬ ∀ calls, Each (step plainSettings) (fun _ i => i.Allowed plainSettings) {} calls →
      Each (step plainSettings) (fun s i => Quiet (step plainSettings s i) →
        InAgreement plainSettings (step plainSettings s i)) {} calls := by
  intro h
  have hall := h [.subscribe .channels ["1"] {}, .serve, .get_message {}, .disconnect,
    .unsubscribe .channels (some ["1"]) {}, .serve, .serve, .get_message {}, .get_message {}]
    ⟨List.mem_cons_self, trivial, trivial, trivial, List.mem_cons_self, trivial, trivial, trivial,
      trivial, trivial⟩
  obtain ⟨-, -, -, -, -, -, -, -, hlast, -⟩ := hall
  have hag := hlast ⟨⟨by decide +kernel, by decide +kernel⟩, by decide +kernel, by decide +kernel⟩
  exact absurd ((hag.1 .channels "1").mp (by decide +kernel)) (by decide +kernel)

end PubSub

end RedisPy
