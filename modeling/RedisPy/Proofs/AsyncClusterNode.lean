import RedisPy.Library.Course
import RedisPy.Spec.AsyncClusterNode

/-! The connections of an asyncio `ClusterNode` are those that are free and those that
running tasks hold, in every run in which no task is broken off between acquiring its
connection and the part of it that gives it back. -/

namespace RedisPy.AsyncClusterNode

open Interleave Raising Course

variable {κ α : Type} {s s' : Node} {t t' : Task κ α} {e : Event α} {held : List Conn} {c : Conn}
  {w : World Node (Task κ α)}

/-- The connections of the node are the free ones and `held`, each in one place. -/
structure Accounted (s : Node) (held : List Conn) : Prop where
  conserved : s._connections.Perm (s._free ++ held)
  numbered : s._connections = List.range s._connections.length
  bounded : s._connections.length ≤ s.max_connections

theorem Accounted.perm {held' : List Conn} (h : Accounted s held) (hp : held.Perm held') :
    Accounted s held' :=
  ⟨h.conserved.trans (hp.append_left _), h.numbered, h.bounded⟩

theorem Accounted.setConnected (h : Accounted s held) (b : Bool) :
    Accounted (s.setConnected c b) held :=
  ⟨h.conserved, h.numbered, h.bounded⟩

/-- The deque has room for a connection that is given back. -/
theorem Accounted.freeAppend (h : Accounted s (c :: held)) : Accounted (s.freeAppend c) held := by
  have hlen := h.conserved.length_eq
  have hbound := h.bounded
  have hroom : s._free.length < s.max_connections := by
    rw [List.length_append, List.length_cons] at hlen
    omega
  refine ⟨?_, h.numbered, h.bounded⟩
  have hperm := h.conserved
  simp only [Node.freeAppend, if_pos hroom, List.append_assoc]
  exact hperm

theorem acquireConnection_post (construct : Except Exc Unit) (h : Accounted s held) :
    Post ((acquireConnection construct).run s) (fun c s' => Accounted s' (c :: held))
      (fun _ s' => s' = s) := by
  have hperm := h.conserved
  unfold acquireConnection
  refine Post.get_bind ?_
  split
  · case h_1 c free hfree =>
    rw [hfree] at hperm
    exact ⟨hperm.trans List.perm_middle.symm, h.numbered, h.bounded⟩
  · case h_2 hfree =>
    rw [hfree] at hperm
    split_ifs with hlt
    · cases construct with
      | error e => exact rfl
      | ok =>
        refine ⟨?_, ?_, ?_⟩
        · simp only [hfree, List.nil_append]
          exact (hperm.append_right _).trans List.perm_append_comm
        · simp only [List.length_append, List.length_singleton, List.range_succ, ← h.numbered]
        · simp only [List.length_append, List.length_singleton]
          omega
    · exact rfl

/-! ### A turn -/

/-- The task is broken off after it has acquired its connection, in packing, connecting or
writing, or `execute_pipeline` in reading, by what is no `Exception`. -/
def Strays (s : Node) : Task κ α → Event α → Prop
  | .ready _, .starts construct (.error _) => isOk ((acquireConnection construct).run s) = true
  | .connecting _ _, .connects (.error _) _ => True
  | .writing _ _, .writes (.error _) => True
  | .readingEach _ _ _ _ _, .reads (.error e) _ => e.isinstance .Exception = false
  | _, _ => False

theorem readResponses_accounted (ret : Bool) (results : List (Except Exc α)) (left : List κ)
    (h : Accounted s (c :: held)) :
    Accounted (readResponses s c ret results left).1
      ((readResponses s c ret results left).2.held ++ held) := by
  cases left with
  | nil => exact h.freeAppend
  | cons cmd left => exact h

/-- A turn keeps the account; when the task is broken off, a connection is left that no
task holds and that is not free. -/
theorem resume_accounted (hr : resume s t e = some (s', t')) (h : Accounted s (t.held ++ held)) :
    (¬ Strays s t e ∧ Accounted s' (t'.held ++ held)) ∨
      (Strays s t e ∧ ∃ c, Accounted s' (c :: (t'.held ++ held))) := by
  unfold resume at hr
  split at hr
  · case h_1 =>
    obtain ⟨rfl, rfl⟩ := by simpa using hr
    exact .inl ⟨id, h⟩
  · case h_2 job construct packed =>
    have hpost := acquireConnection_post construct h
    cases hrun : (acquireConnection construct).run s with
    | error e₁ s₁ =>
      rw [hrun] at hpost hr
      obtain rfl : s₁ = s := hpost
      obtain ⟨rfl, rfl⟩ := by simpa using hr
      refine .inl ⟨?_, h⟩
      cases packed <;> simp [Strays, hrun, isOk]
    | ok c s₁ =>
      rw [hrun] at hpost hr
      cases packed with
      | error e₁ =>
        obtain ⟨rfl, rfl⟩ := by simpa using hr
        exact .inr ⟨by simp [Strays, hrun, isOk], c, hpost⟩
      | ok =>
        obtain ⟨rfl, rfl⟩ := by simpa using hr
        refine .inl ⟨id, ?_⟩
        split_ifs
        · exact hpost
        · exact hpost
  · case h_3 c job r is_connected =>
    cases r with
    | error e₁ =>
      obtain ⟨rfl, rfl⟩ := by simpa using hr
      exact .inr ⟨trivial, c, h.setConnected _⟩
    | ok =>
      obtain ⟨rfl, rfl⟩ := by simpa using hr
      exact .inl ⟨id, h.setConnected _⟩
  · case h_4 c job e₁ =>
    obtain ⟨rfl, rfl⟩ := by simpa using hr
    exact .inr ⟨trivial, c, h.setConnected _⟩
  · case h_5 =>
    obtain ⟨rfl, rfl⟩ := by simpa using hr
    exact .inl ⟨id, h⟩
  · case h_6 c commands =>
    obtain ⟨rfl, rfl⟩ := Prod.mk.inj (Option.some.inj hr)
    exact .inl ⟨id, readResponses_accounted _ _ _ h⟩
  · case h_7 =>
    obtain ⟨rfl, rfl⟩ := by simpa using hr
    exact .inl ⟨id, (h.setConnected _).freeAppend⟩
  · case h_8 c ret results cmd left r is_connected =>
    have hset := h.setConnected (c := c) is_connected
    cases r with
    | ok a =>
      obtain ⟨rfl, rfl⟩ := Prod.mk.inj (Option.some.inj hr)
      exact .inl ⟨id, readResponses_accounted _ _ _ hset⟩
    | error e₁ =>
      cases hexc : e₁.isinstance .Exception with
      | true =>
        simp only [hexc, if_true] at hr
        obtain ⟨rfl, rfl⟩ := Prod.mk.inj (Option.some.inj hr)
        exact .inl ⟨by simp [Strays, hexc], readResponses_accounted _ _ _ hset⟩
      | false =>
        simp only [hexc] at hr
        obtain ⟨rfl, rfl⟩ := by simpa using hr
        exact .inr ⟨hexc, c, hset⟩
  · cases hr

/-! ### A run -/

/-- The connections are those that are free and those that running tasks hold, and each
is in one place only. -/
def Conserved (w : World Node (Task κ α)) : Prop :=
  w.shared._connections.Perm (w.shared._free ++ w.holdings Task.held) ∧ w.shared._connections.Nodup

def Task.Ended : Task κ α → Prop
  | .ended _ => True
  | _ => False

/-- Every connection is free, and `max_connections` can be acquired at once. -/
def Serves (s : Node) : Prop :=
  s._connections.Perm s._free ∧ isOk ((acquireConnections s.max_connections).run s) = true

/-- The connections are conserved, and when all tasks have ended the node is as good as new. -/
def Conserving (w : World Node (Task κ α)) : Prop :=
  Conserved w ∧ ((∀ t ∈ w.tasks, t.Ended) → Serves w.shared)

/-- The task that takes its turn is not broken off with its connection. -/
def InOrder (w : World Node (Task κ α)) : Move (Job κ) (Event α) → Prop
  | .spawn _ => True
  | .resume i e => ∀ t, w.tasks[i]? = some t → ¬ Strays w.shared t e

theorem Accounted.acquireConnection_ok (h : Accounted s held) (hlt : held.length < s.max_connections) :
    ∃ c s', (acquireConnection (.ok ())).run s = .ok c s' ∧ Accounted s' (c :: held) ∧
      s'.max_connections = s.max_connections := by
  have hpost := acquireConnection_post (.ok ()) h
  have hlen := h.conserved.length_eq
  unfold acquireConnection at hpost ⊢
  cases hfree : s._free with
  | cons c free =>
    simp only [EStateM.run_bind, EStateM.run_get, hfree] at hpost ⊢
    exact ⟨c, _, rfl, hpost, rfl⟩
  | nil =>
    have hroom : s._connections.length < s.max_connections := by
      rw [hfree, List.nil_append] at hlen
      omega
    simp only [EStateM.run_bind, EStateM.run_get, hfree, if_pos hroom] at hpost ⊢
    exact ⟨_, _, rfl, hpost, rfl⟩

/-- A node whose tasks hold few enough connections has as many to give as it has left. -/
theorem Accounted.acquireConnections_ok {n : Nat} (h : Accounted s held)
    (hn : held.length + n ≤ s.max_connections) : isOk ((acquireConnections n).run s) = true := by
  induction n generalizing s held with
  | zero => rfl
  | succ n ih =>
    obtain ⟨c, s', hrun, hs', hmax⟩ := h.acquireConnection_ok (by omega)
    have hrest : isOk ((acquireConnections n).run s') = true := by
      apply ih hs'
      rw [List.length_cons, hmax]
      omega
    obtain ⟨cs, s'', hcs⟩ := exists_ok_of_isOk hrest
    simp [acquireConnections, EStateM.run_bind, hrun, hcs, isOk]

theorem held_of_ended (h : t.Ended) : t.held = [] := by
  cases t with
  | ended => rfl
  | _ => exact h.elim

theorem Accounted.conserving (h : Accounted w.shared (w.holdings Task.held)) : Conserving w := by
  refine ⟨⟨h.conserved, h.numbered ▸ List.nodup_range⟩, fun hended => ?_⟩
  have hnone : w.holdings Task.held = [] := World.holdings_nil fun t ht => held_of_ended (hended t ht)
  rw [hnone] at h
  exact ⟨by simpa using h.conserved, h.acquireConnections_ok (by simp)⟩

theorem advance_accounted (w : World Node (Task κ α)) (m : Move (Job κ) (Event α))
    (h : Accounted w.shared (w.holdings Task.held)) (hm : InOrder w m) :
    Accounted (program.advance w m).shared ((program.advance w m).holdings Task.held) := by
  refine Program.advance_keeps (I := fun w => Accounted w.shared (w.holdings Task.held))
    ?_ ?_ w m h hm
  · intro w k hw
    rw [World.holdings_spawn rfl]
    exact hw
  · intro w i e t s' t' hw hok ht hr
    rcases resume_accounted hr (hw.perm (World.holdings_perm ht)) with ⟨-, hs'⟩ | ⟨hstrays, -⟩
    · exact hs'.perm (World.holdings_set_perm ht).symm
    · exact absurd hstrays (hok t ht)

theorem Strays.resume_ne_none (h : Strays s t e) : resume s t e ≠ none := by
  unfold Strays at h
  split at h
  · case h_1 construct _ =>
    obtain ⟨c, s', hrun⟩ := exists_ok_of_isOk h
    simp [resume, hrun]
  · simp [resume]
  · simp [resume]
  · simp [resume, h]
  · exact h.elim

/-- Once a task has been broken off, a connection is missing. -/
theorem inOrder_of_conserving (w : World Node (Task κ α)) (m : Move (Job κ) (Event α))
    (h : Accounted w.shared (w.holdings Task.held)) (hc : Conserving (program.advance w m)) :
    InOrder w m := by
  cases m with
  | spawn k => trivial
  | resume i e =>
    intro t ht hstrays
    obtain ⟨⟨s', t'⟩, hr⟩ := Option.ne_none_iff_exists'.mp hstrays.resume_ne_none
    rcases resume_accounted hr (h.perm (World.holdings_perm ht)) with ⟨hnot, -⟩ | ⟨-, c, hs'⟩
    · exact hnot hstrays
    · have hlost := hs'.conserved.length_eq
      have hkept := hc.1.1.length_eq
      rw [Program.advance_resume ht hr, List.length_append,
        (World.holdings_set_perm ht).length_eq] at hkept
      rw [List.length_append, List.length_cons] at hlost
      simp only [] at hkept
      omega

/-- A node conserves its connections throughout a run of its tasks just if no task is broken
off before it reads, nor `execute_pipeline` in reading by what is no `Exception`. -/
theorem connections_conserved_iff (max_connections : Nat) (moves : List (Move (Job κ) (Event α))) :
    Each program.advance (fun w m => Conserving (program.advance w m)) (init max_connections) moves ↔
      Each program.advance InOrder (init max_connections) moves := by
  have hinit : Accounted (init max_connections : World Node (Task κ α)).shared
      ((init max_connections : World Node (Task κ α)).holdings Task.held) :=
    ⟨List.Perm.refl _, rfl, Nat.zero_le _⟩
  refine each_good_iff (I := fun w => Accounted w.shared (w.holdings Task.held)) ?_ ?_ hinit
    (Each.trivial _ _)
  · intro w m hw _ hok
    have hnext := advance_accounted w m hw hok
    exact ⟨hnext.conserving, hnext⟩
  · exact fun w m hw _ hc => inOrder_of_conserving w m hw hc

/-- The task is cancelled in `await self.connect()`. -/
def cancelledConnect : List (Move (Job Unit) (Event Unit)) :=
  [.spawn (.execute_command ()), .resume 0 (.starts (.ok ()) (.ok ())),
    .resume 0 (.connects (.error { cls := .CancelledError }) false)]

/-- The only connection of the node is lost, and no other task gets one. -/
theorem cancelledConnect_leaks :
    ¬ Each program.advance (fun w m => Conserving (program.advance w m)) (init 1) cancelledConnect ∧
      isOk ((acquireConnection (.ok ())).run
        (cancelledConnect.foldl program.advance (init 1)).shared) = false := by
  refine ⟨?_, rfl⟩
  rintro ⟨-, -, h, -⟩
  exact absurd h.1.1.length_eq (by decide)

end RedisPy.AsyncClusterNode
