import RedisPy.Library.Course
import RedisPy.Spec.AsyncConnectionPool

/-! Asyncio pools give each connection to one task, never make more than they may, and
have all of them back when the tasks have ended. The lock of the condition is free at
every `await`, so that no `release` has to wait for it. -/

namespace RedisPy.AsyncConnectionPool

open Interleave Raising Course

variable {s s' : Pool} {t t' : Task} {e : Event} {held : List Conn} {c : Conn}
  {w : World Pool Task}

/-- Every connection is available or in use, and those in use are `held`. -/
structure Accounted (s : Pool) (held : List Conn) : Prop where
  made : (s._available_connections ++ s._in_use_connections).Perm (List.range s.made)
  bounded : s.made ≤ s.max_connections
  in_use : s._in_use_connections.Perm held

theorem Accounted.perm {held' : List Conn} (h : Accounted s held) (hp : held.Perm held') :
    Accounted s held' := ⟨h.made, h.bounded, h.in_use.trans hp⟩

/-- The condition has no part in the account. -/
theorem Accounted.condition (h : Accounted s held) (locked : Bool) (waiters : List (Nat × Bool))
    (nextWaiter : Nat) :
    Accounted { s with locked := locked, _waiters := waiters, nextWaiter := nextWaiter } held :=
  ⟨h.made, h.bounded, h.in_use⟩

theorem Accounted.nodup (h : Accounted s held) :
    (s._available_connections ++ s._in_use_connections).Nodup :=
  h.made.nodup_iff.mpr List.nodup_range

theorem Accounted.length (h : Accounted s held) :
    s._available_connections.length + s._in_use_connections.length = s.made := by
  have := h.made.length_eq
  rwa [List.length_append, List.length_range] at this

theorem getAvailableConnection_post (construct : Except Exc Unit) (h : Accounted s held) :
    Post ((getAvailableConnection construct).run s)
      (fun c s' => Accounted s' (c :: held) ∧ s'.locked = s.locked) (fun _ s' => s' = s) := by
  have hnodup := h.nodup
  have hlen := h.length
  have hmade := h.made
  unfold getAvailableConnection
  apply Post.get_bind
  split
  · case h_1 c hlast =>
    have havail := List.dropLast_append_getLast? c hlast
    rw [← havail, List.append_assoc] at hnodup hmade
    have hnot : c ∉ s._in_use_connections :=
      (List.nodup_cons.mp (List.nodup_append.mp hnodup).2.1).1
    refine ⟨⟨?_, h.bounded, ?_⟩, rfl⟩
    · simp only [List.insert_of_not_mem hnot]
      exact hmade
    · simp only [List.insert_of_not_mem hnot]
      exact h.in_use.cons c
  · case h_2 hlast =>
    have hnil : s._available_connections = [] := List.getLast?_eq_none_iff.mp hlast
    rw [hnil, List.nil_append] at hmade
    rw [hnil, List.length_nil, Nat.zero_add] at hlen
    apply Post.ite
    · exact fun _ => rfl
    · intro hlt
      cases construct with
      | error e => exact rfl
      | ok =>
        have hnot : s.made ∉ s._in_use_connections := by
          rw [hmade.mem_iff, List.mem_range]
          exact Nat.lt_irrefl _
        refine ⟨⟨?_, ?_, ?_⟩, rfl⟩
        · simp only [hnil, List.nil_append, List.insert_of_not_mem hnot, List.range_succ]
          exact (List.perm_append_singleton s.made _).symm.trans (hmade.append_right _)
        · exact Nat.succ_le_of_lt (hlen ▸ Nat.not_le.mp hlt)
        · simp only [List.insert_of_not_mem hnot]
          exact h.in_use.cons s.made

theorem release_post (h : Accounted s (c :: held)) :
    Post (s.release c) (fun _ s' => Accounted s' held ∧ s'.locked = s.locked) fun _ _ => False := by
  have hmem : c ∈ s._in_use_connections := h.in_use.mem_iff.mpr List.mem_cons_self
  have hperm := List.perm_cons_erase hmem
  unfold Pool.release releaseConnection
  apply Post.get_bind
  rw [if_pos hmem]
  refine ⟨⟨?_, h.bounded, ?_⟩, rfl⟩
  · simp only [List.append_assoc, List.singleton_append]
    exact (hperm.symm.append_left _).trans h.made
  · exact List.Perm.cons_inv (hperm.symm.trans h.in_use)

/-! ### A turn -/

/-- The task waits for the lock of the condition. -/
def Task.AwaitsLock : Task → Prop
  | .locking => True
  | .relocking _ => True
  | .releasing _ _ => True
  | _ => False

/-- After a turn the lock is free, and the account is right with what the others hold. -/
structure InOrder (held : List Conn) (r : Pool × Task) : Prop where
  unlocked : r.1.locked = false
  runs : ¬ r.2.AwaitsLock
  accounted : Accounted r.1 (r.2.held ++ held)

theorem withCondition_inOrder {suspended : Task} {body : Pool → Pool × Task}
    (hlock : s.locked = false) (h : InOrder held (body { s with locked := true })) :
    InOrder held (s.withCondition suspended body) := by
  rw [Pool.withCondition, hlock]
  exact h

theorem waitFor_inOrder (construct : Except Exc Unit) (h : Accounted s held) :
    InOrder held (s.waitFor construct) := by
  unfold Pool.waitFor
  split
  · have hpost := getAvailableConnection_post construct h
    cases hr : (getAvailableConnection construct).run s with
    | ok c s₁ =>
      rw [hr] at hpost
      exact ⟨rfl, id, hpost.1.condition _ _ _⟩
    | error e₁ s₁ =>
      rw [hr] at hpost
      obtain rfl : s₁ = s := hpost
      exact ⟨rfl, id, h.condition _ _ _⟩
  · exact ⟨rfl, id, h.condition _ _ _⟩

theorem reacquire_inOrder (construct : Except Exc Unit) (pending : Option Exc)
    (hlock : s.locked = false) (h : Accounted s held) :
    InOrder held (s.reacquire construct pending) := by
  apply withCondition_inOrder hlock
  cases pending with
  | none => exact waitFor_inOrder construct (h.condition _ _ _)
  | some e => exact ⟨rfl, id, h.condition _ _ _⟩

theorem getConnection_inOrder (construct : Except Exc Unit) (hlock : s.locked = false)
    (h : Accounted s held) : InOrder held (s.getConnection construct) := by
  unfold Pool.getConnection
  cases s.kind with
  | plain =>
    have hpost := getAvailableConnection_post construct h
    dsimp only
    cases hr : (getAvailableConnection construct).run s with
    | ok c s₁ =>
      rw [hr] at hpost
      exact ⟨hpost.2.trans hlock, id, hpost.1⟩
    | error e₁ s₁ =>
      rw [hr] at hpost
      obtain rfl : s₁ = s := hpost
      exact ⟨hlock, id, h⟩
  | blocking =>
    exact withCondition_inOrder hlock (waitFor_inOrder construct (h.condition _ _ _))

theorem releaseThen_inOrder (outcome : Except Exc Unit) (hlock : s.locked = false)
    (h : Accounted s (c :: held)) : InOrder held (s.releaseThen c outcome) := by
  unfold Pool.releaseThen
  cases s.kind with
  | plain =>
    have hpost := release_post h
    dsimp only
    cases hr : s.release c with
    | ok _ s₁ =>
      rw [hr] at hpost
      exact ⟨hpost.2.trans hlock, id, hpost.1⟩
    | error e₁ s₁ =>
      rw [hr] at hpost
      exact hpost.elim
  | blocking =>
    apply withCondition_inOrder hlock
    have hpost := release_post (h.condition true s._waiters s.nextWaiter)
    unfold Pool.releaseLocked
    cases hr : Pool.release { s with locked := true } c with
    | ok _ s₁ =>
      rw [hr] at hpost
      exact ⟨rfl, id, hpost.1.condition _ _ _⟩
    | error e₁ s₁ =>
      rw [hr] at hpost
      exact hpost.elim

theorem resume_inOrder (hr : resume s t e = some (s', t')) (hlock : s.locked = false)
    (ht : ¬ t.AwaitsLock) (h : Accounted s (t.held ++ held)) : InOrder held (s', t') := by
  cases t with
  | locking => exact absurd trivial ht
  | relocking => exact absurd trivial ht
  | releasing => exact absurd trivial ht
  | ended => cases e <;> cases hr
  | ready =>
    cases e with
    | cancelled e =>
      rw [← Option.some.inj hr]
      exact ⟨hlock, id, h⟩
    | starts construct =>
      rw [← Option.some.inj hr]
      exact getConnection_inOrder construct hlock h
    | _ => cases hr
  | waiting fut =>
    have hw : Accounted (s.removeWaiter fut) held := h.condition _ _ _
    cases e with
    | cancelled e =>
      rw [← Option.some.inj hr]
      exact reacquire_inOrder _ _ hlock hw
    | timesOut =>
      rw [← Option.some.inj hr]
      exact reacquire_inOrder _ _ hlock hw
    | wakes construct =>
      obtain ⟨-, hr⟩ := Option.ite_none_right_eq_some.mp hr
      rw [← Option.some.inj hr]
      exact reacquire_inOrder construct none hlock hw
    | _ => cases hr
  | connecting c =>
    cases e with
    | connects r =>
      cases r with
      | ok =>
        rw [← Option.some.inj hr]
        exact ⟨hlock, id, h⟩
      | error e =>
        rw [← Option.some.inj hr]
        exact releaseThen_inOrder _ hlock h
    | _ => cases hr
  | holding c =>
    cases e with
    | releases =>
      rw [← Option.some.inj hr]
      exact releaseThen_inOrder _ hlock h
    | _ => cases hr

/-! ### A run -/

def Task.Ended : Task → Prop
  | .ended _ => True
  | _ => False

/-- No connection is both available and in use, there are not too many, each is held by
one task at most, and none is in use when all tasks have ended. -/
structure Sound (w : World Pool Task) : Prop where
  disjoint : List.Disjoint w.shared._available_connections w.shared._in_use_connections
  bounded : w.shared._available_connections.length + w.shared._in_use_connections.length ≤
    w.shared.max_connections
  exclusive : (w.holdings Task.held).Nodup
  in_use : w.shared._in_use_connections.Perm (w.holdings Task.held)
  returned : (∀ t ∈ w.tasks, t.Ended) → w.shared._in_use_connections = []

/-- The lock is free at every `await`, and what the tasks hold is what is in use. -/
structure Inv (w : World Pool Task) : Prop where
  unlocked : w.shared.locked = false
  runs : ∀ t ∈ w.tasks, ¬ t.AwaitsLock
  accounted : Accounted w.shared (w.holdings Task.held)

theorem Inv.sound (h : Inv w) : Sound w := by
  have hnodup := h.accounted.nodup
  refine ⟨fun a ha hu => (List.nodup_append.mp hnodup).2.2 a ha a hu rfl,
    Nat.le_trans (Nat.le_of_eq h.accounted.length) h.accounted.bounded, ?_, h.accounted.in_use,
    fun hended => ?_⟩
  · exact h.accounted.in_use.nodup_iff.mp (List.nodup_append.mp hnodup).2.1
  · have hnone : w.holdings Task.held = [] := by
      apply World.holdings_nil
      intro t ht
      have := hended t ht
      cases t with
      | ended => rfl
      | _ => exact this.elim
    exact List.perm_nil.mp (hnone ▸ h.accounted.in_use)

theorem advance_inv (w : World Pool Task) (m : Move Unit Event) (h : Inv w) :
    Inv (program.advance w m) := by
  refine @Program.advance_keeps _ _ _ _ program Inv (fun _ _ => True) ?_ ?_ w m h trivial
  · intro w k hw
    refine ⟨hw.unlocked, ?_, ?_⟩
    · intro t ht
      rcases List.mem_append.mp ht with ht | ht
      · exact hw.runs t ht
      · rw [List.mem_singleton.mp ht]
        exact id
    · rw [World.holdings_spawn rfl]
      exact hw.accounted
  · intro w i e t s' t' hw _ ht hr
    have hnext := resume_inOrder hr hw.unlocked (hw.runs t (List.mem_of_getElem? ht))
      (hw.accounted.perm (World.holdings_perm ht))
    refine ⟨hnext.unlocked, ?_, hnext.accounted.perm (World.holdings_set_perm ht).symm⟩
    intro u hu
    rcases List.mem_or_eq_of_mem_set hu with hu | rfl
    · exact hw.runs u hu
    · exact hnext.runs

/-- In every run of its tasks a pool is sound after every move. -/
theorem pool_sound (kind : Kind) (max_connections : Option Nat) (moves : List (Move Unit Event)) :
    Each program.advance (fun w m => Sound (program.advance w m)) (init kind max_connections)
      moves := by
  refine each_good (I := Inv) ?_ ?_ (Each.trivial _ _)
  · intro w m hw _
    have hnext := advance_inv w m hw
    exact ⟨hnext.sound, hnext⟩
  · exact ⟨rfl, fun t ht => absurd ht List.not_mem_nil, ⟨List.Perm.refl _, Nat.zero_le _,
      List.Perm.refl _⟩⟩

end RedisPy.AsyncConnectionPool
