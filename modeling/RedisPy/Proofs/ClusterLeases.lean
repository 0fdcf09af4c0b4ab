import RedisPy.Spec.ClusterScript

/-! What the sync `_execute_command` does with connections, for every script of
outcomes: an attempt that gets a connection gives it back, and one that does not
gives back the connection of an earlier attempt once more. -/

namespace RedisPy

open Raising Lease Sync

variable {ρ κ α : Type}

attribute [local simp] Except.isOk Except.toBool

abbrev CallState (ρ κ α : Type) := Script ρ κ α × Locals ρ κ

/-- The attempt finds its node. -/
def findsTarget (a : Attempt ρ κ α) (l : Locals ρ κ) : Bool :=
  if l.asking then a.known.isSome
  else if l.moved then a.slot.isOk && a.node.isOk
  else l.target_node.isSome

/-- The attempt finds its node, and gets a client and a connection. -/
def acquires (a : Attempt ρ κ α) (l : Locals ρ κ) : Bool :=
  findsTarget a l && (a.redis.isOk && a.conn.isOk)

/-- A statement about a state that looks at the history and the two variables of
the `finally` block alone. -/
def Of (J : List (Event κ ρ) → Option κ → Option ρ → Prop) (s : CallState ρ κ α) : Prop :=
  J s.1.log s.2.connection s.2.redis_node

theorem post_locals {β : Type} {f : Locals ρ κ → Call (Script ρ κ α) ρ κ β} {s : CallState ρ κ α}
    {Q : β → CallState ρ κ α → Prop} {E : Exc → CallState ρ κ α → Prop}
    (h : Post ((f s.2).run s) Q E) : Post ((locals >>= f).run s) Q E := h

/-- How the search for the node ends, which leaves connections alone. -/
theorem findTarget_spec (w : Script ρ κ α) (l : Locals ρ κ) :
    Post ((findTarget Script.ops).run (w, l))
      (fun _ s => s.1 = w ∧ s.2.connection = l.connection ∧ s.2.redis_node = l.redis_node ∧
        s.2.target_node.isSome = findsTarget w.now l)
      (fun _ s => s.1 = w ∧ s.2 = l ∧ findsTarget w.now l = false) := by
  unfold findTarget findsTarget
  apply post_locals
  by_cases ha : l.asking = true
  · simp [ha, Post, setLocals, Script.ops]
  by_cases hm : l.moved = true
  · cases hs : w.now.slot with
    | error e => simp [ha, hm, hs, Post, Script.ops, Script.ofExcept]
    | ok slot =>
      cases hn : w.now.node with
      | error e => simp [ha, hm, hs, hn, Post, Script.ops, Script.ofExcept]
      | ok n => simp [ha, hm, hs, hn, Post, setLocals, Script.ops, Script.ofExcept]
  · simp [ha, hm, Post]

/-- How the first half of the `try` block ends. -/
theorem acquire_spec (w : Script ρ κ α) (l : Locals ρ κ) :
    Post ((acquire Script.ops).run (w, l))
      (fun rc s => acquires w.now l = true ∧ s.1.log = w.log ++ [.obtained rc.2 rc.1] ∧
        s.2.connection = some rc.2 ∧ s.2.redis_node = some rc.1)
      (fun _ s => acquires w.now l = false ∧ s.1.log = w.log ∧ s.2.connection = l.connection ∧
        (l.redis_node.isSome → s.2.redis_node.isSome)) := by
  unfold acquire
  apply Post.bind ((findTarget_spec w l).mono (fun _ _ h => h) ?_)
  · rintro _ ⟨w', l'⟩ ⟨rfl, hc, hr, ht⟩
    replace hc : l'.connection = l.connection := hc
    replace hr : l'.redis_node = l.redis_node := hr
    apply post_locals
    cases hn : l'.target_node with
    | none =>
      have hf : findsTarget w'.now l = false := by rw [← ht, hn]; rfl
      exact ⟨by simp [acquires, hf], rfl, hc, fun h => hr ▸ h⟩
    | some n =>
      have hf : findsTarget w'.now l = true := by rw [← ht, hn]; rfl
      cases hredis : w'.now.redis with
      | error e => simp [acquires, hf, hredis, Post, Script.ops, Script.ofExcept, hc, hr]
      | ok r =>
        cases hconn : w'.now.conn with
        | error e =>
          simp [acquires, hf, hredis, hconn, Post, setLocals, Script.ops, Script.ofExcept, hc]
        | ok c =>
          simp [acquires, hf, hredis, hconn, Post, setLocals, Script.ops, Script.ofExcept,
            Script.note]
  · rintro e ⟨w', l'⟩ ⟨rfl, rfl, hf⟩
    exact ⟨by simp [acquires, hf], rfl, rfl, id⟩

/-! ### What the rest of an attempt keeps -/

section
variable {J : List (Event κ ρ) → Option κ → Option ρ → Prop}

theorem ofExcept_keeps {β : Type} (r : Except Exc β) (s : Script ρ κ α) (l : Locals ρ κ)
    (h : Of J (s, l)) :
    Post ((first (Script.ofExcept r)).run (s, l)) (fun _ => Of J) (fun _ => Of J) := by
  cases r <;> exact h

theorem setLocals_keeps {f : Locals ρ κ → Locals ρ κ} {s : CallState ρ κ α}
    (hc : (f s.2).connection = s.2.connection) (hr : (f s.2).redis_node = s.2.redis_node)
    (h : Of J s) : Post ((setLocals f).run s) (fun _ => Of J) (fun _ => Of J) := by
  change J s.1.log (f s.2).connection (f s.2).redis_node
  rw [hc, hr]
  exact h

theorem note_keeps {β : Type} (e : Event κ ρ) (r : Attempt ρ κ α → Except Exc β)
    (s : CallState ρ κ α) (h : J (s.1.log ++ [e]) s.2.connection s.2.redis_node) :
    Post ((first (do Script.note e; Script.ofExcept (r (← get).now))).run s)
      (fun _ => Of J) (fun _ => Of J) := by
  obtain ⟨w, l⟩ := s
  cases hr : r w.now with
  | ok a =>
    simp only [Post, Script.note, Script.ofExcept, run_first, EStateM.run_bind, EStateM.run_modify,
      EStateM.run_get, hr]
    exact h
  | error err =>
    simp only [Post, Script.note, Script.ofExcept, run_first, EStateM.run_bind, EStateM.run_modify,
      EStateM.run_get, hr]
    exact h

/-- The exchange with the node only uses the connection it was given. -/
theorem converse_keeps {s : CallState ρ κ α} {r : ρ} {c : κ}
    (hused : ∀ log c' r', J log c' r' → J (log ++ [.used c]) c' r') (h : Of J s) :
    Post ((converse Script.ops r c).run s) (fun _ => Of J) (fun _ => Of J) := by
  have hsend : ∀ (s : CallState ρ κ α) what, Of J s →
      Post ((first (Script.ops.sendCommand c what)).run s) (fun _ => Of J) (fun _ => Of J) :=
    fun s what h => note_keeps (.used c) (fun a => a.send what) s (hused _ _ _ h)
  have hparse : ∀ (s : CallState ρ κ α) what, Of J s →
      Post ((first (Script.ops.parseResponse r c what)).run s) (fun _ => Of J) (fun _ => Of J) :=
    fun s what h => note_keeps (.used c) (fun a => a.answer what) s (hused _ _ _ h)
  have hrest : ∀ s : CallState ρ κ α, Of J s →
      Post ((do
        first (Script.ops.sendCommand c .command)
        let response ← first (Script.ops.parseResponse r c .command)
        first (Script.ops.callback response) : Call (Script ρ κ α) ρ κ α).run s)
        (fun _ => Of J) (fun _ => Of J) := by
    intro s h
    apply Post.bind (hsend s .command h)
    intro _ s₁ h₁
    apply Post.bind (hparse s₁ .command h₁)
    rintro response ⟨w, l⟩ h₂
    exact ofExcept_keeps _ w l h₂
  unfold converse
  apply post_locals
  apply Post.ite
  · intro _
    apply Post.bind (hsend s .ASKING h)
    intro _ s₁ h₁
    apply Post.bind (hparse s₁ .ASKING h₁)
    intro _ s₂ h₂
    apply Post.bind (setLocals_keeps rfl rfl h₂)
    exact fun _ => hrest
  · exact fun _ => hrest s h

theorem disconnect_keeps {s : CallState ρ κ α}
    (hdisc : ∀ log c r, J log (some c) r → J (log ++ [.disconnected c]) (some c) r) (h : Of J s) :
    Post ((disconnect Script.ops).run s) (fun _ => Of J) (fun _ => Of J) := by
  unfold disconnect
  apply post_locals
  cases hc : s.2.connection with
  | none => exact h
  | some c =>
    refine note_keeps (.disconnected c) (fun a => a.disconnect) s ?_
    rw [hc]
    exact hdisc _ _ _ (hc ▸ h)

theorem forgetTarget_keeps {s : CallState ρ κ α} (h : Of J s) :
    Post ((forgetTarget Script.ops).run s) (fun _ => Of J) (fun _ => Of J) := by
  unfold forgetTarget
  apply post_locals
  cases s.2.target_node <;> exact h

/-- The `except` arms at most disconnect the connection at hand. -/
theorem handle_keeps {s : CallState ρ κ α} (e : Exc)
    (hdisc : ∀ log c r, J log (some c) r → J (log ++ [.disconnected c]) (some c) r) (h : Of J s) :
    Post ((handle Script.ops e).run s) (fun _ => Of J) (fun _ => Of J) := by
  have hinit : ∀ s : CallState ρ κ α, Of J s →
      Post ((first Script.ops.initializeNodes).run s) (fun _ => Of J) (fun _ => Of J) :=
    fun s h => ofExcept_keeps _ s.1 s.2 h
  unfold handle
  apply Post.ite
  · exact fun _ => h
  intro _
  apply Post.ite
  · intro _
    apply Post.bind (disconnect_keeps hdisc h)
    intro _ s₁ h₁
    apply Post.bind (forgetTarget_keeps h₁)
    intro _ s₂ h₂
    apply Post.bind (hinit s₂ h₂)
    exact fun _ _ h₃ => h₃
  intro _
  apply Post.ite
  · intro _
    have hcount : Post ((first Script.ops.countMoved).run s) (fun _ => Of J) (fun _ => Of J) := h
    have hnothing : ∀ s : CallState ρ κ α, Of J s →
        Post ((first (pure () : Script.M ρ κ α Unit)).run s) (fun _ => Of J) (fun _ => Of J) :=
      fun _ h => h
    apply Post.bind hcount
    intro due s₁ h₁
    apply Post.ite
    · intro _
      apply Post.bind (hinit s₁ h₁)
      intro _ s₂ h₂
      apply Post.bind (hnothing s₂ h₂)
      exact fun _ _ h₃ => setLocals_keeps rfl rfl h₃
    · intro _
      apply Post.bind (hnothing s₁ h₁)
      exact fun _ _ h₂ => setLocals_keeps rfl rfl h₂
  intro _
  apply Post.ite
  · exact fun _ => h
  intro _
  apply Post.ite
  · intro _
    cases e.redirect with
    | some r => exact setLocals_keeps rfl rfl h
    | none => exact h
  intro _
  apply Post.ite
  · intro _
    apply Post.bind (hinit s h)
    exact fun _ _ h₁ => h₁
  intro _
  apply Post.ite
  · exact fun _ => h
  intro _
  apply Post.ite
  · intro _
    apply Post.bind (disconnect_keeps hdisc h)
    exact fun _ _ h₁ => h₁
  · exact fun _ => h

end

/-! ### One attempt -/

/-- The `finally` block gives back the connection at hand, if there is one. -/
theorem releaseConnection_spec {J K : List (Event κ ρ) → Option κ → Option ρ → Prop}
    {s : CallState ρ κ α}
    (hr : ∀ log c r, J log (some c) (some r) → K (log ++ [.released c r]) (some c) (some r))
    (hn : ∀ log r, J log none r → K log none r) (hb : ∀ log c, J log (some c) none → K log (some c) none) (h : Of J s) :
    Post ((releaseConnection Script.ops).run s) (fun _ => Of K) (fun _ => Of K) := by
  unfold releaseConnection
  apply post_locals
  unfold Of at h
  cases hc : s.2.connection with
  | none =>
    rw [hc] at h
    change K s.1.log s.2.connection s.2.redis_node
    rw [hc]
    exact hn _ _ h
  | some c =>
    rw [hc] at h
    cases hrn : s.2.redis_node with
    | none =>
      rw [hrn] at h
      change K s.1.log s.2.connection s.2.redis_node
      rw [hc, hrn]
      exact hb _ _ h
    | some r =>
      rw [hrn] at h
      refine note_keeps (.released c r) (fun a => a.release) s ?_
      rw [hc, hrn]
      exact hr _ _ _ h

/-- The script at the start of the next attempt. -/
def Script.next (w : Script ρ κ α) : Script ρ κ α :=
  { w with now := w.later 0, later := fun n => w.later (n + 1) }

/-- The `try` block as a whole. -/
def tryBlock : Call (Script ρ κ α) ρ κ (Option α) := do
  let (redis_node, connection) ← acquire Script.ops
  return some (← converse Script.ops redis_node connection)

/-- An attempt whose `try` block ends in `J`, handlers and clean-up included. -/
theorem attempt_of {J K : List (Event κ ρ) → Option κ → Option ρ → Prop} (w : Script ρ κ α)
    (l : Locals ρ κ) (hbody : Post (tryBlock.run (w.next, l)) (fun _ => Of J) (fun _ => Of J))
    (hdisc : ∀ log c r, J log (some c) r → J (log ++ [.disconnected c]) (some c) r)
    (hr : ∀ log c r, J log (some c) (some r) → K (log ++ [.released c r]) (some c) (some r))
    (hn : ∀ log r, J log none r → K log none r) (hb : ∀ log c, J log (some c) none → K log (some c) none) :
    Post ((attempt Script.ops).run (w, l)) (fun _ => Of K) (fun _ => Of K) := by
  have hhandled : Post ((tryCatch tryBlock fun e => do
      handle Script.ops e
      return none).run (w.next, l)) (fun _ => Of J) (fun _ => Of J) := by
    apply Post.tryCatch hbody
    intro e s h
    apply Post.bind (handle_keeps e hdisc h)
    exact fun _ _ h => h
  have hstart : Post ((first Script.ops.attempt).run (w, l)) (fun _ s => s = (w.next, l))
      (fun _ => Of K) := rfl
  unfold attempt
  apply Post.bind hstart
  rintro _ _ rfl
  apply Post.tryFinally hhandled
  · exact fun _ s h => releaseConnection_spec hr hn hb h
  · exact fun _ s h => releaseConnection_spec hr hn hb h

theorem tryBlock_spec {J : List (Event κ ρ) → Option κ → Option ρ → Prop} (w : Script ρ κ α)
    (l : Locals ρ κ) (hused : ∀ log c r, J log (some c) r → J (log ++ [.used c]) (some c) r)
    (hgot : acquires w.now l = true → ∀ c r, J (w.log ++ [.obtained c r]) (some c) (some r))
    (hnot : acquires w.now l = false → ∀ r : Option ρ, (l.redis_node.isSome → r.isSome) →
      J w.log l.connection r) :
    Post ((tryBlock : Call (Script ρ κ α) ρ κ (Option α)).run (w, l))
      (fun _ => Of J) (fun _ => Of J) := by
  unfold tryBlock
  apply Post.bind ((acquire_spec w l).mono (fun _ _ h => h) ?_)
  · rintro ⟨r, c⟩ s ⟨hacq, hlog, hc, hr⟩
    have h : Of (fun log c' r' => c' = some c ∧ J log c' r') s := by
      change s.2.connection = some c ∧ J s.1.log s.2.connection s.2.redis_node
      rw [hlog, hc, hr]
      exact ⟨rfl, hgot hacq c r⟩
    have hused' : ∀ log c' r', (c' = some c ∧ J log c' r') →
        (c' = some c ∧ J (log ++ [.used c]) c' r') := by
      rintro log _ r' ⟨rfl, h⟩
      exact ⟨rfl, hused log c r' h⟩
    apply Post.bind ((converse_keeps hused' h).mono (fun _ _ h => h) fun _ _ h => h.2)
    exact fun _ _ h => h.2
  · rintro e s ⟨hacq, hlog, hc, hr⟩
    change J s.1.log s.2.connection s.2.redis_node
    rw [hlog, hc]
    exact hnot hacq _ hr

variable [DecidableEq κ] [DecidableEq ρ]

/-- Nothing is on lease, and an old connection goes with an old client. -/
def Clean (log : List (Event κ ρ)) (c : Option κ) (r : Option ρ) : Prop :=
  held log = some [] ∧ (c.isSome → r.isSome)

/-- The connection at hand is on lease from the pool of the client at hand. -/
def Holding (log : List (Event κ ρ)) (c : Option κ) (r : Option ρ) : Prop :=
  ∃ c' r', c = some c' ∧ r = some r' ∧ held log = some [(c', r')]

/-- No connection was ever at hand. -/
def Idle (log : List (Event κ ρ)) (c : Option κ) (_ : Option ρ) : Prop :=
  held log = some [] ∧ c = none

/-- The connection at hand is not on lease any more. -/
def Stale (log : List (Event κ ρ)) (c : Option κ) (r : Option ρ) : Prop :=
  (held log = some [] ∨ held log = none) ∧ c.isSome ∧ r.isSome

/-- The rules are broken already. -/
def Broken (log : List (Event κ ρ)) (_ : Option κ) (_ : Option ρ) : Prop := held log = none

theorem holding_release : ∀ (log : List (Event κ ρ)) c r, Holding log (some c) (some r) →
    Clean (log ++ [.released c r]) (some c) (some r) := by
  rintro log c r ⟨c', r', hc, hr, h⟩
  obtain rfl := Option.some.inj hc
  obtain rfl := Option.some.inj hr
  exact ⟨held_released h, fun _ => rfl⟩

theorem holding_disconnect : ∀ (log : List (Event κ ρ)) c r, Holding log (some c) r →
    Holding (log ++ [.disconnected c]) (some c) r := by
  rintro log c r ⟨c', r', hc, rfl, h⟩
  obtain rfl := Option.some.inj hc
  exact ⟨c, r', rfl, rfl, held_disconnected h⟩

theorem stale_release : ∀ (log : List (Event κ ρ)) c r, Stale log (some c) (some r) →
    Broken (log ++ [.released c r]) (some c) (some r) := by
  rintro log c r ⟨h | h, -⟩
  · exact held_released_none h c r
  · exact held_append_none h _

theorem stale_disconnect : ∀ (log : List (Event κ ρ)) c r, Stale log (some c) r →
    Stale (log ++ [.disconnected c]) (some c) r := by
  rintro log c r ⟨h | h, hc, hr⟩
  · exact ⟨.inr (held_disconnected_none h c), hc, hr⟩
  · exact ⟨.inr (held_append_none h _), hc, hr⟩

theorem holding_used : ∀ (log : List (Event κ ρ)) c r, Holding log (some c) r →
    Holding (log ++ [.used c]) (some c) r := by
  rintro log c r ⟨c', r', hc, rfl, h⟩
  obtain rfl := Option.some.inj hc
  exact ⟨c, r', rfl, rfl, held_used h⟩

/-- An attempt that gets a connection, or starts without one, leaves nothing on lease. -/
theorem attempt_clean (w : Script ρ κ α) (l : Locals ρ κ) (h : Of Clean (w, l))
    (hacq : l.connection.isSome → acquires (w.later 0) l = true) :
    Post ((attempt Script.ops).run (w, l)) (fun _ => Of Clean) (fun _ => Of Clean) := by
  cases ha : acquires (w.later 0) l with
  | true =>
    apply attempt_of (J := Holding) w l _ holding_disconnect holding_release
    · rintro log r ⟨c', r', hc, -⟩
      cases hc
    · rintro log c ⟨c', r', -, hr, -⟩
      cases hr
    · apply tryBlock_spec w.next l holding_used
      · exact fun _ c r => ⟨c, r, rfl, rfl, held_obtained h.1 c r⟩
      · intro hno
        exact absurd (hno.symm.trans ha) (by simp)
  | false =>
    have hc : l.connection = none := by
      cases hc : l.connection with
      | none => rfl
      | some c => exact absurd (ha.symm.trans (hacq (by simp [hc]))) (by simp)
    apply attempt_of (J := Idle) w l
    · apply tryBlock_spec w.next l
      · rintro log c r ⟨-, hc'⟩
        cases hc'
      · intro hyes
        exact absurd (ha.symm.trans hyes) (by simp)
      · exact fun _ r _ => ⟨h.1, hc⟩
    · rintro log c r ⟨-, hc'⟩
      cases hc'
    · rintro log c r ⟨-, hc'⟩
      cases hc'
    · rintro log r ⟨hh, -⟩
      exact ⟨hh, fun hs => by simp at hs⟩
    · rintro log c ⟨-, hc'⟩
      cases hc'

/-- An attempt that does not get a connection gives back an earlier one once more. -/
theorem attempt_broken (w : Script ρ κ α) (l : Locals ρ κ) (h : Of Clean (w, l))
    (hc : l.connection.isSome) (ha : acquires (w.later 0) l = false) :
    Post ((attempt Script.ops).run (w, l)) (fun _ => Of Broken) (fun _ => Of Broken) := by
  apply attempt_of (J := Stale) w l _ stale_disconnect stale_release
  · rintro log r ⟨-, hc', -⟩
    simp at hc'
  · rintro log c ⟨-, -, hr⟩
    simp at hr
  · apply tryBlock_spec w.next l
    · rintro log c r ⟨hh | hh, hc', hr⟩
      · exact ⟨.inr (by simp [held_concat, hh, step]), hc', hr⟩
      · exact ⟨.inr (held_append_none hh _), hc', hr⟩
    · intro hyes
      exact absurd (ha.symm.trans hyes) (by simp)
    · exact fun _ r hr => ⟨.inl h.1, hc, hr (h.2 hc)⟩

/-- What is broken stays broken. -/
theorem attempt_keeps_broken (w : Script ρ κ α) (l : Locals ρ κ) (h : Of Broken (w, l)) :
    Post ((attempt Script.ops).run (w, l)) (fun _ => Of Broken) (fun _ => Of Broken) := by
  have hmore : ∀ (log : List (Event κ ρ)) es, held log = none → held (log ++ es) = none :=
    fun log es hn => held_append_none hn es
  apply attempt_of (J := Broken) w l
  · apply tryBlock_spec w.next l
    · exact fun log c _ hn => hmore log _ hn
    · exact fun _ c r => hmore w.log _ h
    · exact fun _ r _ => h
  · exact fun log c _ hn => hmore log _ hn
  · exact fun log c r hn => hmore log _ hn
  · exact fun log _ hn => hn
  · exact fun log _ hn => hn

/-! ### The whole call -/

theorem attempts_keeps_broken (ttl : Nat) (s : CallState ρ κ α) (h : Of Broken s) :
    Of Broken (state ((attempts Script.ops ttl).run s)) := by
  induction ttl generalizing s with
  | zero => exact h
  | succ ttl ih =>
    have ha := attempt_keeps_broken s.1 s.2 h
    unfold attempts
    rw [EStateM.run_bind]
    cases hr : (attempt Script.ops).run s with
    | error e s' =>
      rw [hr] at ha
      exact ha
    | ok response s' =>
      rw [hr] at ha
      cases response with
      | some a => exact ha
      | none => exact ih s' ha

/-- No attempt that starts with a connection of an earlier one in its variables
fails before it has one of its own, through `ttl` attempts. -/
def Steady : (ttl : Nat) → CallState ρ κ α → Prop
  | 0, _ => True
  | ttl + 1, s =>
    (s.2.connection.isSome → acquires (s.1.later 0) s.2 = true) ∧
      ∀ s', (attempt Script.ops).run s = .ok none s' → Steady ttl s'

theorem attempts_conserves_iff (ttl : Nat) (s : CallState ρ κ α) (h : Of Clean s) :
    Conserves (state ((attempts Script.ops ttl).run s)).1.log ↔ Steady ttl s := by
  induction ttl generalizing s with
  | zero => exact ⟨fun _ => trivial, fun _ => h.1⟩
  | succ ttl ih =>
    unfold attempts Steady
    rw [EStateM.run_bind]
    by_cases hacq : s.2.connection.isSome → acquires (s.1.later 0) s.2 = true
    · have ha := attempt_clean s.1 s.2 h hacq
      cases hr : (attempt Script.ops).run s with
      | error e s' =>
        rw [hr] at ha
        exact ⟨fun _ => ⟨hacq, by simp⟩, fun _ => ha.1⟩
      | ok response s' =>
        rw [hr] at ha
        cases response with
        | some a => exact ⟨fun _ => ⟨hacq, by simp⟩, fun _ => ha.1⟩
        | none =>
          rw [show Conserves _ ↔ _ from ih s' ha]
          constructor
          · intro hs
            refine ⟨hacq, fun s'' he => ?_⟩
            obtain ⟨-, rfl⟩ := EStateM.Result.ok.inj he
            exact hs
          · exact fun hs => hs.2 s' rfl
    · have ha : acquires (s.1.later 0) s.2 = false := by
        cases ha : acquires (s.1.later 0) s.2 with
        | true => exact absurd (fun _ => ha) hacq
        | false => rfl
      have hc : s.2.connection.isSome = true := by
        by_contra hc
        exact hacq fun h => absurd h hc
      have hbroken := attempt_broken s.1 s.2 h hc ha
      have hend : ¬ Conserves (state ((attempts Script.ops (ttl + 1)).run s)).1.log := by
        intro hcons
        have : Of Broken (state ((attempts Script.ops (ttl + 1)).run s)) := by
          unfold attempts
          rw [EStateM.run_bind]
          cases hr : (attempt Script.ops).run s with
          | error e s' =>
            rw [hr] at hbroken
            exact hbroken
          | ok response s' =>
            rw [hr] at hbroken
            cases response with
            | some a => exact hbroken
            | none => exact attempts_keeps_broken ttl s' hbroken
        exact absurd (hcons.symm.trans this) (by simp)
      unfold attempts at hend
      rw [EStateM.run_bind] at hend
      exact ⟨fun hcons => absurd hcons hend, fun hs => absurd hs.1 hacq⟩

/-- A call conserves connections exactly when each of its attempts that follows
one that got a connection gets one too. -/
theorem executeCommand_conserves_iff (script : Script ρ κ α) (target_node : ClusterNode) :
    Conserves (state ((_executeCommand Script.ops target_node).run { script with log := [] })).log ↔
      Steady RedisClusterRequestTTL
        ({ script with log := [] }, { target_node := some target_node }) := by
  unfold _executeCommand
  rw [state_withLocals]
  exact attempts_conserves_iff RedisClusterRequestTTL _ ⟨rfl, by simp⟩

/-- An attempt that gets the connection 0 of the client 0, and no answer but `answer`. -/
def answered (answer : Except Exc Unit) (known : Option ClusterNode) : Attempt Nat Nat Unit where
  known := known
  slot := .ok 0
  node := .ok ⟨0, "10.0.0.1", 7000⟩
  redis := .ok 0
  conn := .ok 0
  send _ := .ok ()
  answer _ := answer
  callback _ := .ok ()
  due := false
  disconnect := .ok ()
  initializeNodes := .ok ()
  release := .ok ()

/-- An ASK redirection to a node that the client does not know. -/
def askUnknown : Script Nat Nat Unit where
  now := answered (.ok ()) none
  later
    | 0 => answered (.error { cls := .AskError, redirect := some ⟨0, "10.0.0.9", 7000⟩ }) none
    | _ => answered (.ok ()) none

/-- The connection is released twice, and disconnected in between. -/
theorem askUnknown_not_conserved :
    ¬ Conserves (state ((_executeCommand Script.ops ⟨0, "10.0.0.1", 7000⟩).run askUnknown)).log := by
  decide +kernel

end RedisPy
