import RedisPy.Spec.ClusterExecute

/-! Invariants of what `_execute_command` runs on: how an invariant that the
operations around the exchange with a node keep is carried through a round of the
loop, over any operations. -/

namespace RedisPy

open Raising

namespace Sync

variable {σ ρ κ α : Type}

/-- An invariant of the state alone. -/
abbrev OfState (I : σ → Prop) (s : σ × Locals ρ κ) : Prop := I s.1

/-- All operations but those of the exchange keep the invariant. -/
structure Background (ops : Ops σ ρ κ α) (I : σ → Prop) : Prop where
  attempt : Keeps I ops.attempt
  getNode : ∀ name, Keeps I (ops.getNode name)
  determineSlot : Keeps I ops.determineSlot
  getNodeFromSlot : ∀ slot, Keeps I (ops.getNodeFromSlot slot)
  popStartupNode : ∀ name, Keeps I (ops.popStartupNode name)
  countMoved : Keeps I ops.countMoved
  resetCounter : Keeps I ops.resetCounter
  updateMovedException : ∀ e, Keeps I (ops.updateMovedException e)
  getRedisConnection : ∀ n, Keeps I (ops.getRedisConnection n)
  getConnection : ∀ r, Keeps I (ops.getConnection r)
  disconnect : ∀ k, Keeps I (ops.disconnect k)
  forgetConnection : ∀ n, Keeps I (ops.forgetConnection n)
  initializeNodes : Keeps I ops.initializeNodes
  release : ∀ r k, Keeps I (ops.release r k)

variable {ops : Ops σ ρ κ α} {I : σ → Prop}

theorem keeps_first {β : Type} {m : EStateM Exc σ β} (h : Keeps I m) :
    Keeps (OfState (ρ := ρ) (κ := κ) I) (first m) := by
  rintro ⟨s, l⟩ hs
  exact Post.first (h s hs)

theorem keeps_locals {β : Type} {f : Locals ρ κ → Call σ ρ κ β}
    (h : ∀ l, Keeps (OfState I) (f l)) : Keeps (OfState I) (locals >>= f) := fun s => h s.2 s

theorem keeps_setLocals (f : Locals ρ κ → Locals ρ κ) :
    Keeps (OfState I) (setLocals f : Call σ ρ κ Unit) := fun _ h => h

theorem Background.findTarget (h : Background ops I) : Keeps (OfState I) (findTarget ops) := by
  unfold Sync.findTarget
  apply keeps_locals
  intro l
  apply Keeps.ite
  · apply Keeps.bind (keeps_first (h.getNode _))
    exact fun _ => keeps_setLocals _
  · apply Keeps.ite
    · apply Keeps.bind (keeps_first h.determineSlot)
      intro slot
      apply Keeps.bind (keeps_first (h.getNodeFromSlot slot))
      exact fun _ => keeps_setLocals _
    · exact Keeps.pure _

/-- From the node on, the first half of the `try` block keeps what does not depend on
the node's client and its connection. -/
theorem connect_keeps {K : σ × Locals ρ κ → Prop}
    (hredis : ∀ n, Keeps K (first (ops.getRedisConnection n)))
    (hconn : ∀ r, Keeps K (first (ops.getConnection r)))
    (hset : ∀ (w : σ) (l : Locals ρ κ) r k, K (w, l) →
      K (w, { l with redis_node := r }) ∧ K (w, { l with redis_node := r, connection := k }))
    (hsome : ∀ (w : σ) (l : Locals ρ κ) k, K (w, l) → K (w, { l with connection := k })) :
    Keeps K (do
      match (← locals).target_node with
      | none => throw (noneAttribute "redis_connection")
      | some target_node =>
        let redis_node ← first (ops.getRedisConnection target_node)
        setLocals fun l => { l with redis_node := some redis_node }
        let connection ← first (ops.getConnection redis_node)
        setLocals fun l => { l with connection := some connection }
        return (redis_node, connection) : Call σ ρ κ (ρ × κ)) := by
  intro s hs
  apply Post.bind (Q := fun _ => K)
  · exact hs
  intro l s₁ hs₁
  cases l.target_node with
  | none => exact hs₁
  | some n =>
    apply Post.bind (hredis n s₁ hs₁)
    rintro r ⟨w, l⟩ hs
    apply Post.bind (Q := fun _ => K)
    · exact (hset w l (some r) none hs).1
    intro _ s hs
    apply Post.bind (hconn r s hs)
    rintro k ⟨w, l⟩ hs
    exact hsome w l (some k) hs

theorem Background.acquire (h : Background ops I) : Keeps (OfState I) (acquire ops) := by
  unfold Sync.acquire
  apply Keeps.bind h.findTarget
  intro _
  apply connect_keeps
  · exact fun n => keeps_first (h.getRedisConnection n)
  · exact fun r => keeps_first (h.getConnection r)
  · exact fun _ _ _ _ hs => ⟨hs, hs⟩
  · exact fun _ _ _ hs => hs

theorem Background.disconnected (h : Background ops I) : Keeps (OfState I) (Sync.disconnect ops) := by
  unfold Sync.disconnect
  apply keeps_locals
  intro l
  cases l.connection with
  | none => exact Keeps.pure _
  | some k => exact keeps_first (h.disconnect k)

theorem Background.forgetTarget (h : Background ops I) : Keeps (OfState I) (forgetTarget ops) := by
  unfold Sync.forgetTarget
  apply keeps_locals
  intro l
  cases l.target_node with
  | none => exact Keeps.throw _
  | some n =>
    apply Keeps.bind (keeps_first (h.popStartupNode n.name))
    exact fun _ => keeps_first (h.forgetConnection n)

theorem Background.handle (h : Background ops I) (e : Exc) : Keeps (OfState I) (handle ops e) := by
  have hinit := keeps_first (ρ := ρ) (κ := κ) h.initializeNodes
  unfold Sync.handle
  apply Keeps.ite (Keeps.throw _)
  apply Keeps.ite
  · apply Keeps.bind h.disconnected
    intro _
    apply Keeps.bind h.forgetTarget
    intro _
    apply Keeps.bind hinit
    exact fun _ => Keeps.throw _
  apply Keeps.ite
  · apply Keeps.bind (keeps_first h.countMoved)
    intro due
    apply Keeps.ite
    · apply Keeps.bind hinit
      intro _
      apply Keeps.bind (keeps_first h.resetCounter)
      exact fun _ => keeps_setLocals _
    · apply Keeps.bind (keeps_first (h.updateMovedException e))
      exact fun _ => keeps_setLocals _
  apply Keeps.ite (Keeps.pure _)
  apply Keeps.ite
  · cases e.redirect with
    | none => exact Keeps.throw _
    | some r => exact keeps_setLocals _
  apply Keeps.ite
  · apply Keeps.bind hinit
    exact fun _ => Keeps.throw _
  apply Keeps.ite (Keeps.throw _)
  apply Keeps.ite
  · apply Keeps.bind h.disconnected
    exact fun _ => Keeps.throw _
  · exact Keeps.throw _

theorem Background.releaseConnection (h : Background ops I) :
    Keeps (OfState I) (releaseConnection ops) := by
  unfold Sync.releaseConnection
  apply keeps_locals
  intro l
  cases l.connection with
  | none => exact Keeps.pure _
  | some k =>
    cases l.redis_node with
    | none => exact Keeps.throw _
    | some r => exact keeps_first (h.release r k)

/-- A round keeps the invariant if its exchange with the node does. -/
theorem Background.round (h : Background ops I) {P : σ × Locals ρ κ → Prop} {s : σ × Locals ρ κ}
    (hpre : Post ((first ops.attempt).run s) (fun _ => P) (fun _ => OfState I))
    (htry : ∀ s, P s → Post ((do
      let (redis_node, connection) ← Sync.acquire ops
      converse ops redis_node connection).run s) (fun _ => OfState I) (fun _ => OfState I)) :
    Post ((Sync.attempt ops).run s) (fun _ => OfState I) (fun _ => OfState I) := by
  unfold Sync.attempt
  apply Post.bind hpre
  intro _ s₁ hs₁
  apply Post.tryFinally (R := fun _ => OfState I) (F := fun _ => OfState I)
  · apply Post.tryCatch (F := fun _ => OfState I)
    · have := htry s₁ hs₁
      rw [EStateM.run_bind] at this ⊢
      cases hacq : (Sync.acquire ops).run s₁ with
      | error e s' =>
        rw [hacq] at this
        exact this
      | ok rk s' =>
        rw [hacq] at this
        exact Post.bind this fun _ _ h => h
    · intro e s₂ hs₂
      exact Post.bind (h.handle e s₂ hs₂) fun _ _ h => h
  · exact fun _ s₂ hs₂ => (h.releaseConnection s₂ hs₂).mono (fun _ _ h => h) fun _ _ h => h
  · exact fun _ s₂ hs₂ => (h.releaseConnection s₂ hs₂).mono (fun _ _ h => h) fun _ _ h => h

theorem attempts_succ (ops : Ops σ ρ κ α) (n : Nat) :
    attempts ops (n + 1) = attempt ops >>= fun response => response.elim (attempts ops n) pure := by
  rw [attempts]
  congr 1
  funext response
  cases response <;> rfl

end Sync

namespace Asyncio

variable {σ α : Type}

abbrev OfState (I : σ → Prop) (s : σ × Locals) : Prop := I s.1

/-- The operations of the `except` arms keep the invariant. -/
structure Background (ops : Ops σ α) (I : σ → Prop) : Prop where
  popStartupNode : ∀ name, Keeps I (ops.popStartupNode name)
  countMoved : Keeps I ops.countMoved
  resetCounter : Keeps I ops.resetCounter
  updateMovedException : ∀ e, Keeps I (ops.updateMovedException e)
  aclose : Keeps I ops.aclose

variable {ops : Ops σ α} {I : σ → Prop}

theorem keeps_first {β : Type} {m : EStateM Exc σ β} (h : Keeps I m) : Keeps (OfState I) (first m) := by
  rintro ⟨s, l⟩ hs
  exact Post.first (h s hs)

theorem keeps_locals {β : Type} {f : Locals → Call σ β} (h : ∀ l, Keeps (OfState I) (f l)) :
    Keeps (OfState I) (locals >>= f) := fun s => h s.2 s

theorem keeps_setLocals (f : Locals → Locals) : Keeps (OfState I) (setLocals f : Call σ Unit) :=
  fun _ h => h

theorem Background.handle (h : Background ops I) (e : Exc) : Keeps (OfState I) (handle ops e) := by
  unfold Asyncio.handle
  apply Keeps.ite (Keeps.throw _)
  apply Keeps.ite
  · apply keeps_locals
    intro l
    cases l.target_node with
    | none => exact Keeps.throw _
    | some n =>
      apply Keeps.bind (keeps_first (h.popStartupNode n.name))
      intro _
      apply Keeps.bind (keeps_first h.aclose)
      exact fun _ => Keeps.throw _
  apply Keeps.ite
  · apply Keeps.bind (keeps_first h.aclose)
    exact fun _ => Keeps.throw _
  apply Keeps.ite
  · apply Keeps.bind (keeps_first h.countMoved)
    intro due
    apply Keeps.ite
    · apply Keeps.bind (keeps_first h.aclose)
      intro _
      apply Keeps.bind (keeps_first h.resetCounter)
      exact fun _ => keeps_setLocals _
    · apply Keeps.bind (keeps_first (h.updateMovedException e))
      exact fun _ => keeps_setLocals _
  apply Keeps.ite
  · cases e.redirect with
    | none => exact Keeps.throw _
    | some r => exact keeps_setLocals _
  apply Keeps.ite (Keeps.pure _)
  exact Keeps.throw _

/-- A round keeps the invariant if its exchange with the node does. -/
theorem Background.round (h : Background ops I) {P : σ × Locals → Prop} {s : σ × Locals}
    (hpre : Post ((first ops.attempt).run s) (fun _ => P) (fun _ => OfState I))
    (htry : ∀ s, P s → Post ((converse ops).run s) (fun _ => OfState I) (fun _ => OfState I)) :
    Post ((Asyncio.attempt ops).run s) (fun _ => OfState I) (fun _ => OfState I) := by
  unfold Asyncio.attempt
  apply Post.bind hpre
  intro _ s₁ hs₁
  apply Post.tryCatch (F := fun _ => OfState I)
  · have := htry s₁ hs₁
    rw [run_map]
    cases hc : (Asyncio.converse ops).run s₁ <;> rw [hc] at this <;> exact this
  · intro e s₂ hs₂
    exact Post.bind (h.handle e s₂ hs₂) fun _ _ h => h

theorem attempts_succ (ops : Ops σ α) (n : Nat) :
    attempts ops (n + 1) = attempt ops >>= fun response => response.elim (attempts ops n) pure := by
  rw [attempts]
  congr 1
  funext response
  cases response <;> rfl

end Asyncio

end RedisPy
