import RedisPy.Library.Course
import RedisPy.Spec.CacheLocks

/-! When the threads of a caching pool can wait for each other for ever. A thread that
waits holds a lock in four places only: where a health check under its `_cache_lock` has
read an invalidation, where another proxy's connection is drained and has brought one,
where the pool is about to disconnect a connection, and where it is about to drain. -/

namespace RedisPy.CacheLocks

open Interleave Course

variable {s s' : Shared} {t u : Thread} {e : Event} {place : Place} {l x : Lock}
  {w : World Shared Thread}

/-- The thread is about to drain another proxy's connection. -/
def Thread.AtDrain (t : Thread) : Prop := ∃ q, t.place = .atDrain q

/-- The thread has the lock of the pool and is at that of `q`: it has read an invalidation
from the connection of `q`, which it drains, or is about to disconnect it. -/
def Thread.Reaches (q : Proxy) (t : Thread) : Prop :=
  match t.place with
  | .handling (.draining connection_ref) _ => connection_ref = q
  | .atEach connection _ => connection = q
  | _ => False

/-- The connection that is drained is another proxy's, and no health check under the lock
has read an invalidation. -/
def Thread.Sane (t : Thread) : Prop :=
  match t.place with
  | .atDrain q => q ≠ t.proxy
  | .reading (.draining q) => q ≠ t.proxy
  | .handling (.draining q) _ => q ≠ t.proxy
  | .invalidating (.draining q) _ => q ≠ t.proxy
  | .handling .checkingLocked _ => False
  | _ => True

theorem Thread.Reaches.waits {q : Proxy} (h : t.Reaches q) :
    t.wants = some (._cache_lock q) ∧ ._pool_lock ∈ t.held ∧ ¬ t.AtDrain := by
  obtain ⟨p, place⟩ := t
  cases place with
  | handling r data =>
    cases r with
    | draining connection_ref =>
      obtain rfl : connection_ref = q := h
      exact ⟨rfl, List.mem_cons_self, fun ⟨_, hq⟩ => nomatch hq⟩
    | _ => exact h.elim
  | atEach connection connections =>
    obtain rfl : connection = q := h
    exact ⟨rfl, List.mem_cons_self, fun ⟨_, hq⟩ => nomatch hq⟩
  | _ => exact h.elim

/-- A thread that reaches for a lock does not hold it. -/
theorem Thread.Reaches.not_held {q : Proxy} (h : t.Reaches q) (hsane : t.Sane) :
    ._cache_lock q ∉ t.held := by
  obtain ⟨p, place⟩ := t
  cases place with
  | handling r data =>
    cases r with
    | draining connection_ref =>
      obtain rfl : connection_ref = q := h
      have hne : connection_ref ≠ p := hsane
      simp [Thread.held, Thread.heldReading, hne]
    | _ => exact h.elim
  | atEach connection connections => simp [Thread.held]
  | _ => exact h.elim

/-- Where a thread holds a lock and wants another. -/
theorem waiting_place (hsane : t.Sane) (hw : t.wants = some l) (hx : x ∈ t.held) :
    (∃ q, t.Reaches q) ∨ t.AtDrain ∧ l = ._pool_lock ∧ x = ._cache_lock t.proxy := by
  obtain ⟨p, place⟩ := t
  cases place with
  | handling r data =>
    cases r with
    | draining q =>
      exact .inl ⟨q, rfl⟩
    | checkingLocked => exact hsane.elim
    | pending => cases hx
    | checking => cases hx
    | responding => cases hx
  | atEach q connections =>
    exact .inl ⟨q, rfl⟩
  | atDrain q => exact .inr ⟨⟨q, rfl⟩, (Option.some.inj hw).symm, List.mem_singleton.mp hx⟩
  | atCachable => cases hx
  | atLookup => cases hx
  | atCached => cases hx
  | atStore => cases hx
  | atFlush => cases hx
  | atPool => cases hx
  | _ => cases hw

/-! ### A turn -/

/-- After a read, the thread reads on, handles the invalidation or is out of the blocks. -/
theorem moved_of_reads {r : Parsed} (h : move s t (.reads r) = some (s', place)) :
    ∃ r₀, t.place = .reading r₀ ∧ s' = s ∧
      ((∃ data, r = .push data ∧ place = .handling r₀ data) ∨ place = .reading r₀ ∨ place = .idle ∨
        (∃ command, place = .atCachable command ∧ r₀ = .pending command) ∨
          ∃ v, place = .atStore v ∧ r₀ = .responding) := by
  obtain ⟨p, place₀⟩ := t
  cases place₀ with
  | reading r₀ =>
    refine ⟨r₀, rfl, ?_⟩
    cases r with
    | push data =>
      cases h
      exact ⟨rfl, .inl ⟨data, rfl, rfl⟩⟩
    | raised =>
      cases h
      exact ⟨rfl, .inr (.inr (.inl rfl))⟩
    | nothing =>
      cases r₀ with
      | pending command =>
        cases h
        exact ⟨rfl, .inr (.inr (.inr (.inl ⟨command, rfl, rfl⟩)))⟩
      | responding => cases h
      | _ =>
        cases h
        exact ⟨rfl, .inr (.inr (.inl rfl))⟩
    | reply v =>
      cases r₀ with
      | responding =>
        cases h
        exact ⟨rfl, .inr (.inr (.inr (.inr ⟨v, rfl, rfl⟩)))⟩
      | _ =>
        cases h
        exact ⟨rfl, .inr (.inl rfl)⟩
  | _ => cases r <;> cases h

theorem cachable_place (s : Shared) (p : Proxy) (command : Command) :
    (cachable s p command).2 = .idle ∨ (∃ key, (cachable s p command).2 = .atLookup key) ∨
      (cachable s p command).2 = .reading .checkingLocked := by
  unfold cachable
  split
  · split
    · exact .inl rfl
    · exact .inr (.inl ⟨_, rfl⟩)
  · exact .inr (.inr rfl)

theorem lookup_place (s : Shared) (p : Proxy) (key : CacheKey) :
    (∃ entry, (s._cache.get key).1 = some entry ∧ entry.connection_ref ≠ p ∧
        (lookup s p key).2 = .atDrain entry.connection_ref) ∨
      (lookup s p key).2 = .idle ∨ (lookup s p key).2 = .reading .checking := by
  unfold lookup
  split
  · case h_1 entry d hget =>
    by_cases hq : entry.connection_ref ≠ p
    · exact .inl ⟨entry, by rw [hget], hq, if_pos hq⟩
    · exact .inr (.inl (if_neg hq))
  · exact .inr (.inr rfl)

theorem cached_place (s : Shared) (p : Proxy) :
    (cached s p).2 = .reading .responding ∨ (cached s p).2 = .idle := by
  unfold cached
  split
  · exact .inl rfl
  · split
    · exact .inl rfl
    · case h_2 entry d hget =>
      by_cases hp : entry.status = .IN_PROGRESS
      · exact .inl (if_pos hp)
      · exact .inr (if_neg hp)

/-- A thread locks what it wants, or wants nothing and keeps some of its locks. -/
theorem move_held (h : move s t e = some (s', place)) :
    (∃ l, t.wants = some l ∧ ({ t with place := place } : Thread).held = l :: t.held) ∨
      t.wants = none ∧ ({ t with place := place } : Thread).held.Sublist t.held := by
  cases e with
  | reads r =>
    obtain ⟨r₀, ht, -, hplace⟩ := moved_of_reads h
    obtain ⟨p, place₀⟩ := t
    obtain rfl : place₀ = .reading r₀ := ht
    refine .inr ⟨rfl, ?_⟩
    rcases hplace with ⟨data, -, rfl⟩ | rfl | rfl | ⟨command, rfl, -⟩ | ⟨v, rfl, -⟩
    · exact List.Sublist.refl _
    · exact List.Sublist.refl _
    · exact List.nil_sublist _
    · exact List.nil_sublist _
    · exact List.nil_sublist _
  | runs =>
    obtain ⟨p, place₀⟩ := t
    cases place₀ with
    | handling => cases h; exact .inl ⟨_, rfl, rfl⟩
    | atCachable => cases h; exact .inl ⟨_, rfl, rfl⟩
    | atLookup => cases h; exact .inl ⟨_, rfl, rfl⟩
    | atDrain => cases h; exact .inl ⟨_, rfl, rfl⟩
    | atCached => cases h; exact .inl ⟨_, rfl, rfl⟩
    | atStore => cases h; exact .inl ⟨_, rfl, rfl⟩
    | atFlush => cases h; exact .inl ⟨_, rfl, rfl⟩
    | atPool => cases h; exact .inl ⟨_, rfl, rfl⟩
    | inStore => cases h; exact .inr ⟨rfl, List.nil_sublist _⟩
    | inFlush => cases h; exact .inr ⟨rfl, List.nil_sublist _⟩
    | atEach => cases h; exact .inl ⟨_, rfl, rfl⟩
    | inEach => cases h; exact .inr ⟨rfl, List.sublist_cons_self _ _⟩
    | inPool connections =>
      refine .inr ⟨rfl, ?_⟩
      cases connections with
      | nil => cases h; exact List.nil_sublist _
      | cons => cases h; exact List.Sublist.refl _
    | invalidating r data =>
      refine .inr ⟨rfl, ?_⟩
      simp only [move] at h
      split at h
      · cases h; exact List.sublist_cons_self _ _
      · cases h; exact List.nil_sublist _
    | inCachable command =>
      have hplace := congrArg Prod.snd (Option.some.inj h)
      refine .inr ⟨rfl, ?_⟩
      rcases cachable_place s p command with hc | ⟨key, hc⟩ | hc
      all_goals
        obtain rfl : _ = place := hc.symm.trans hplace
      · exact List.nil_sublist _
      · exact List.nil_sublist _
      · exact List.Sublist.refl _
    | inLookup key =>
      have hplace := congrArg Prod.snd (Option.some.inj h)
      refine .inr ⟨rfl, ?_⟩
      rcases lookup_place s p key with ⟨entry, -, -, hc⟩ | hc | hc
      all_goals
        obtain rfl : _ = place := hc.symm.trans hplace
      · exact List.Sublist.refl _
      · exact List.nil_sublist _
      · exact List.nil_sublist _
    | inCached =>
      have hplace := congrArg Prod.snd (Option.some.inj h)
      refine .inr ⟨rfl, ?_⟩
      rcases cached_place s p with hc | hc
      all_goals
        obtain rfl : _ = place := hc.symm.trans hplace
      · exact List.nil_sublist _
      · exact List.nil_sublist _
    | idle => cases h
    | reading => cases h
  | _ =>
    obtain ⟨p, place₀⟩ := t
    cases place₀ with
    | idle => cases h; exact .inr ⟨rfl, List.nil_sublist _⟩
    | _ => cases h

/-- Nothing is drained, no invalidation handled and no connection of the pool disconnected. -/
def Place.Plain : Place → Prop
  | .reading (.draining _) => False
  | .handling _ _ => False
  | .invalidating _ _ => False
  | .atDrain _ => False
  | .atEach _ _ => False
  | _ => True

/-- The place a thread runs on to. -/
inductive RunsOn (s : Shared) (t : Thread) : Place → Prop
  | locked {r : Read} {data : Invalidation} (ht : t.place = .handling r data) :
      RunsOn s t (.invalidating r data)
  | readsOn {r : Read} {data : Invalidation} (ht : t.place = .invalidating r data) :
      RunsOn s t (.reading r)
  | drains {q : Proxy} (ht : t.place = .atDrain q) : RunsOn s t (.reading (.draining q))
  | disconnects {q : Proxy} {connections : List Proxy} (ht : t.place = .inPool (q :: connections)) :
      RunsOn s t (.atEach q connections)
  | hit {key : CacheKey} {entry : CacheEntry} (ht : t.place = .inLookup key)
      (hget : (s._cache.get key).1 = some entry) (hq : entry.connection_ref ≠ t.proxy) :
      RunsOn s t (.atDrain entry.connection_ref)
  | plain {place : Place} (h : place.Plain) : RunsOn s t place

theorem runsOn (h : move s t .runs = some (s', place)) : RunsOn s t place := by
  obtain ⟨p, place₀⟩ := t
  cases place₀ with
  | handling => cases h; exact .locked rfl
  | atDrain => cases h; exact .drains rfl
  | invalidating r data =>
    simp only [move] at h
    split at h
    · cases h; exact .readsOn rfl
    · cases h; exact .plain trivial
  | inCachable command =>
    have hplace := congrArg Prod.snd (Option.some.inj h)
    rcases cachable_place s p command with hc | ⟨key, hc⟩ | hc
    all_goals
      obtain rfl : _ = place := hc.symm.trans hplace
      exact .plain trivial
  | inLookup key =>
    have hplace := congrArg Prod.snd (Option.some.inj h)
    rcases lookup_place s p key with ⟨entry, hget, hq, hc⟩ | hc | hc
    all_goals
      obtain rfl : _ = place := hc.symm.trans hplace
    · exact .hit rfl hget hq
    · exact .plain trivial
    · exact .plain trivial
  | inCached =>
    have hplace := congrArg Prod.snd (Option.some.inj h)
    rcases cached_place s p with hc | hc
    all_goals
      obtain rfl : _ = place := hc.symm.trans hplace
      exact .plain trivial
  | inPool connections =>
    cases connections with
    | nil => cases h; exact .plain trivial
    | cons => cases h; exact .disconnects rfl
  | idle => cases h
  | reading => cases h
  | _ => cases h; exact .plain trivial

theorem Place.Plain.sane (h : place.Plain) : ({ t with place := place } : Thread).Sane := by
  cases place with
  | handling => exact h.elim
  | invalidating => exact h.elim
  | atDrain => exact h.elim
  | atEach => exact h.elim
  | reading r => cases r <;> first | exact h.elim | trivial
  | _ => trivial

theorem Place.Plain.not_reaches (h : place.Plain) {q : Proxy} :
    ¬ ({ t with place := place } : Thread).Reaches q := by
  cases place with
  | handling => exact h.elim
  | atEach => exact h.elim
  | _ => exact id

/-- What keeps a turn from leading into a deadlock: a health check under the lock reads no
invalidation; a drained connection brings one, and the pool comes to disconnect a connection,
only while no thread is about to drain from its proxy; and a thread is about to drain only
while no thread with the lock of the pool is at the lock of its own proxy. -/
def Harmless (w : World Shared Thread) (t : Thread) (e : Event) : Prop :=
  match t.place, e with
  | .reading .checkingLocked, .reads (.push _) => False
  | .reading (.draining q), .reads (.push _) => ∀ u ∈ w.tasks, u.proxy = q → ¬ u.AtDrain
  | .inPool (q :: _), .runs => ∀ u ∈ w.tasks, u.proxy = q → ¬ u.AtDrain
  | .inLookup key, .runs => ∀ entry, (w.shared._cache.get key).1 = some entry →
      entry.connection_ref ≠ t.proxy → ∀ u ∈ w.tasks, ¬ u.Reaches t.proxy
  | _, _ => True

/-- A turn of a sane thread leaves it sane, and a new danger is one that `Harmless` names. -/
theorem move_sane (h : move w.shared t e = some (s', place)) (hsane : t.Sane)
    (hok : Harmless w t e) :
    ({ t with place := place } : Thread).Sane ∧
      (∀ q, ({ t with place := place } : Thread).Reaches q →
        ∀ u ∈ w.tasks, u.proxy = q → ¬ u.AtDrain) ∧
      (({ t with place := place } : Thread).AtDrain → ∀ u ∈ w.tasks, ¬ u.Reaches t.proxy) := by
  have hplain : place.Plain → _ := fun hp =>
    (⟨hp.sane, fun q hq => (hp.not_reaches hq).elim,
      fun ⟨q, hq⟩ => by subst hq; exact hp.elim⟩ :
      ({ t with place := place } : Thread).Sane ∧
      (∀ q, ({ t with place := place } : Thread).Reaches q →
        ∀ u ∈ w.tasks, u.proxy = q → ¬ u.AtDrain) ∧
      (({ t with place := place } : Thread).AtDrain → ∀ u ∈ w.tasks, ¬ u.Reaches t.proxy))
  obtain ⟨p, place₀⟩ := t
  cases e with
  | reads r =>
    obtain ⟨r₀, ht, -, hplace⟩ := moved_of_reads h
    obtain rfl : place₀ = .reading r₀ := ht
    rcases hplace with ⟨data, rfl, rfl⟩ | rfl | rfl | ⟨command, rfl, -⟩ | ⟨v, rfl, -⟩
    · refine ⟨?_, ?_, fun ⟨_, hq⟩ => (nomatch hq)⟩
      · cases r₀ with
        | draining q => exact hsane
        | checkingLocked => exact hok.elim
        | _ => trivial
      · intro q hq
        cases r₀ with
        | draining connection_ref =>
          obtain rfl : connection_ref = q := hq
          exact hok
        | _ => exact hq.elim
    · exact ⟨hsane, fun _ hq => hq.elim, fun ⟨_, hq⟩ => (nomatch hq)⟩
    · exact hplain trivial
    · exact hplain trivial
    · exact hplain trivial
  | runs =>
    cases runsOn h with
    | @locked r data ht =>
      obtain rfl : place₀ = .handling r data := ht
      refine ⟨?_, fun _ hq => hq.elim, fun ⟨_, hq⟩ => (nomatch hq)⟩
      cases r with
      | draining q => exact hsane
      | _ => trivial
    | @readsOn r data ht =>
      obtain rfl : place₀ = .invalidating r data := ht
      refine ⟨?_, fun _ hq => hq.elim, fun ⟨_, hq⟩ => (nomatch hq)⟩
      cases r with
      | draining q => exact hsane
      | _ => trivial
    | @drains q ht =>
      obtain rfl : place₀ = .atDrain q := ht
      exact ⟨hsane, fun _ hq => hq.elim, fun ⟨_, hq⟩ => (nomatch hq)⟩
    | @disconnects q connections ht =>
      obtain rfl : place₀ = .inPool (q :: connections) := ht
      refine ⟨trivial, ?_, fun ⟨_, hq⟩ => (nomatch hq)⟩
      rintro _ rfl
      exact hok
    | @hit key entry ht hget hq =>
      obtain rfl : place₀ = .inLookup key := ht
      exact ⟨hq, fun _ hq => hq.elim, fun _ => hok entry hget hq⟩
    | plain hp => exact hplain hp
  | _ =>
    cases place₀ with
    | idle => cases h; exact hplain trivial
    | _ => cases h

/-! ### The invariant -/

/-- The locks are those of the blocks that the threads are in, and no thread with the lock of
the pool reaches for the lock of a proxy whose thread is about to drain. -/
structure Inv (w : World Shared Thread) : Prop where
  locked : w.shared.locked.Perm (w.holdings Thread.held)
  nodup : (w.holdings Thread.held).Nodup
  sane : ∀ t ∈ w.tasks, t.Sane
  apart : ∀ t ∈ w.tasks, ∀ u ∈ w.tasks, ∀ q, t.Reaches q → u.proxy = q → ¬ u.AtDrain

/-- The turn that is taken is harmless. -/
def InOrder (w : World Shared Thread) : Move Proxy Event → Prop
  | .spawn _ => True
  | .resume i e => ∀ t, w.tasks[i]? = some t → ¬ t.Blocked w.shared → Harmless w t e

theorem resume_eq_some {t' : Thread} (h : resume s t e = some (s', t')) :
    ¬ t.Blocked s ∧ ∃ s₁ place, move s t e = some (s₁, place) ∧ t' = { t with place := place } ∧
      s' = { s₁ with locked := t'.held ++ s.locked.filter fun l => l ∉ t.held } := by
  unfold resume at h
  split at h
  · cases h
  · case isFalse hb =>
    split at h
    · cases h
    · case h_2 s₁ place hm =>
      obtain ⟨rfl, rfl⟩ := Prod.mk.inj (Option.some.inj h)
      exact ⟨hb, s₁, place, hm, rfl, rfl⟩

/-- The locks after a turn are those of the thread and those of the others. -/
theorem locked_after {held held' others locked : List Lock} (hl : locked.Perm (held ++ others))
    (hn : (held ++ others).Nodup) :
    (held' ++ locked.filter fun l => l ∉ held).Perm (held' ++ others) := by
  apply List.Perm.append_left
  refine (hl.filter _).trans ?_
  rw [List.filter_append]
  have hheld : held.filter (fun l => l ∉ held) = [] := by
    rw [List.filter_eq_nil_iff]
    intro l h
    simpa using h
  have hothers : others.filter (fun l => l ∉ held) = others := by
    rw [List.filter_eq_self]
    intro l h
    have := (List.nodup_append.mp hn).2.2
    simpa using fun hl => this l hl l h rfl
  rw [hheld, hothers, List.nil_append]

theorem resume_inv {i : Nat} {t' : Thread} (hw : Inv w) (ht : w.tasks[i]? = some t)
    (hok : ¬ t.Blocked w.shared → Harmless w t e) (hr : resume w.shared t e = some (s', t')) :
    Inv { shared := s', tasks := w.tasks.set i t' } := by
  obtain ⟨hfree, s₁, place, hm, rfl, rfl⟩ := resume_eq_some hr
  have hmem := List.mem_of_getElem? ht
  have hperm : (w.holdings Thread.held).Perm (t.held ++ w.others Thread.held i) :=
    World.holdings_perm ht
  have hn := hperm.nodup_iff.mp hw.nodup
  have hl := hw.locked.trans hperm
  obtain ⟨hsane, hhandles, hdrain⟩ := move_sane hm (hw.sane t hmem) (hok hfree)
  have hn' : (({ t with place := place } : Thread).held ++ w.others Thread.held i).Nodup := by
    rcases move_held hm with ⟨l, hwants, hheld⟩ | ⟨-, hsub⟩
    · rw [hheld]
      refine List.nodup_cons.mpr ⟨fun hin => hfree ⟨l, hwants, ?_⟩, hn⟩
      exact hl.mem_iff.mpr hin
    · exact hn.sublist (hsub.append_right _)
  refine ⟨?_, (World.holdings_set_perm ht).nodup_iff.mpr hn', ?_, ?_⟩
  · exact (locked_after hl hn).trans (World.holdings_set_perm ht).symm
  · intro u hu
    rcases List.mem_or_eq_of_mem_set hu with hu | rfl
    · exact hw.sane u hu
    · exact hsane
  · intro u hu v hv q hhandle hq hat
    rcases List.mem_or_eq_of_mem_set hu with hu | rfl <;>
      rcases List.mem_or_eq_of_mem_set hv with hv | rfl
    · exact hw.apart u hu v hv q hhandle hq hat
    · -- the thread that has moved is about to drain
      exact hdrain hat u hu (hq ▸ hhandle)
    · exact hhandles q hhandle v hv hq hat
    · exact hhandle.waits.2.2 hat

theorem advance_inv (w : World Shared Thread) (m : Move Proxy Event) (hw : Inv w)
    (hm : InOrder w m) : Inv (program.advance w m) := by
  refine Program.advance_keeps (I := Inv) ?_ ?_ w m hw hm
  · intro w k hw
    refine ⟨?_, ?_, ?_, ?_⟩
    · rw [World.holdings_spawn rfl]
      exact hw.locked
    · rw [World.holdings_spawn rfl]
      exact hw.nodup
    · intro t ht
      rcases List.mem_append.mp ht with ht | ht
      · exact hw.sane t ht
      · rw [List.mem_singleton.mp ht]
        trivial
    · intro t ht u hu q hhandle hq hat
      rcases List.mem_append.mp ht with ht | ht
      · rcases List.mem_append.mp hu with hu | hu
        · exact hw.apart t ht u hu q hhandle hq hat
        · rw [List.mem_singleton.mp hu] at hat
          obtain ⟨q', hq'⟩ := hat
          cases hq'
      · rw [List.mem_singleton.mp ht] at hhandle
        exact hhandle.elim
  · intro w i e t s' t' hw hok ht hr
    exact resume_inv hw ht (hok t ht) hr

/-! ### Deadlocks -/

/-- Threads that wait for each other for ever, or one that waits for itself. -/
def Deadlocked (w : World Shared Thread) : Prop := w.Deadlocked Thread.held Thread.wants

theorem Inv.not_deadlocked (hw : Inv w) : ¬ Deadlocked w := by
  rintro ⟨is, hne, his⟩
  -- no thread of a deadlock has the lock of the pool and reaches for that of a proxy
  have hnone : ∀ i ∈ is, ∀ t, w.tasks[i]? = some t → ∀ q, ¬ t.Reaches q := by
    intro i hi t ht q hq
    obtain ⟨t₁, l, ht₁, hwants, j, hj, u, hu, hheld⟩ := his i hi
    obtain rfl := Option.some.inj (ht.symm.trans ht₁)
    obtain rfl : ._cache_lock q = l := Option.some.inj (hq.waits.1.symm.trans hwants)
    obtain ⟨u₁, l', hu₁, hwants', -⟩ := his j hj
    obtain rfl := Option.some.inj (hu.symm.trans hu₁)
    rcases waiting_place (hw.sane u (List.mem_of_getElem? hu)) hwants' hheld with
      ⟨q', hq'⟩ | ⟨hat, -, hx⟩
    · -- both hold the lock of the pool, so they are one
      have hij : i = j := World.holder_unique hw.nodup ht hu hq.waits.2.1 hq'.waits.2.1
      subst hij
      obtain rfl := Option.some.inj (ht.symm.trans hu)
      exact hq.not_held (hw.sane t (List.mem_of_getElem? ht)) hheld
    · exact hw.apart t (List.mem_of_getElem? ht) u (List.mem_of_getElem? hu) q hq
        (Lock._cache_lock.inj hx).symm hat
  obtain ⟨i, hi⟩ := List.exists_mem_of_ne_nil is hne
  obtain ⟨t, l, ht, hwants, j, hj, u, hu, hheld⟩ := his i hi
  obtain ⟨u₁, l₁, hu₁, hwants₁, k, hk, v, hv, hheld₁⟩ := his j hj
  obtain rfl := Option.some.inj (hu.symm.trans hu₁)
  rcases waiting_place (hw.sane u (List.mem_of_getElem? hu)) hwants₁ hheld with
    ⟨q, hq⟩ | ⟨-, rfl, -⟩
  · exact hnone j hj u hu q hq
  · -- who holds the lock of the pool and waits reaches for that of a proxy
    obtain ⟨v₁, l₂, hv₁, hwants₂, -⟩ := his k hk
    obtain rfl := Option.some.inj (hv.symm.trans hv₁)
    rcases waiting_place (hw.sane v (List.mem_of_getElem? hv)) hwants₂ hheld₁ with
      ⟨q, hq⟩ | ⟨-, -, hx⟩
    · exact hnone k hk v hv q hq
    · cases hx

theorem resume_of_move (hb : ¬ t.Blocked s) (h : move s t e = some (s', place)) :
    ∃ s₁, resume s t e = some (s₁, { t with place := place }) := by
  unfold resume
  rw [if_neg hb, h]
  exact ⟨_, rfl⟩

/-- A turn that is not harmless leads into a deadlock at once. -/
theorem deadlocked_of_not_inOrder (w : World Shared Thread) (m : Move Proxy Event)
    (h : ¬ InOrder w m) : Deadlocked (program.advance w m) := by
  cases m with
  | spawn k => exact absurd trivial h
  | resume i e =>
    simp only [InOrder, not_forall] at h
    obtain ⟨t, ht, hb, hharm⟩ := h
    have hi := (List.getElem?_eq_some_iff.mp ht).1
    have hset : ∀ {s' : Shared} {place : Place}, move w.shared t e = some (s', place) →
        ∃ s₁, program.advance w (.resume i e) =
          { shared := s₁, tasks := w.tasks.set i { t with place := place } } := by
      intro s' place hm
      obtain ⟨s₁, hr⟩ := resume_of_move hb hm
      exact ⟨s₁, Program.advance_resume ht hr⟩
    have hself : ∀ {u : Thread}, (w.tasks.set i u)[i]? = some u := List.getElem?_set_self hi
    have hother : ∀ v ∈ w.tasks, v.place ≠ t.place →
        ∃ j : Nat, ∀ u, (w.tasks.set i u)[j]? = some v := by
      intro v hv hne
      obtain ⟨j, hj⟩ := List.mem_iff_getElem?.mp hv
      refine ⟨j, fun u => (List.getElem?_set_ne ?_).trans hj⟩
      rintro rfl
      exact hne (congrArg Thread.place (Option.some.inj (hj.symm.trans ht)))
    obtain ⟨p, place⟩ := t
    unfold Harmless at hharm
    split at hharm
    · case h_1 data hplace =>
      obtain rfl : place = .reading .checkingLocked := hplace
      obtain ⟨s₁, hadv⟩ := hset rfl
      rw [hadv]
      exact World.deadlocked_of_self hself rfl List.mem_cons_self
    · case h_2 q data hplace =>
      obtain rfl : place = .reading (.draining q) := hplace
      push Not at hharm
      obtain ⟨u, hu, rfl, q', hat⟩ := hharm
      obtain ⟨s₁, hadv⟩ := hset rfl
      obtain ⟨j, hj⟩ := hother _ hu (by rw [hat]; exact Place.noConfusion)
      rw [hadv]
      obtain ⟨p', place'⟩ := u
      obtain rfl : place' = .atDrain q' := hat
      apply World.deadlocked_of_two hself (hj _)
      · rfl
      · exact List.mem_cons_self
      · rfl
      · exact List.mem_cons_self
    · case h_3 q connections hplace =>
      obtain rfl : place = .inPool (q :: connections) := hplace
      push Not at hharm
      obtain ⟨u, hu, rfl, q', hat⟩ := hharm
      obtain ⟨s₁, hadv⟩ := hset rfl
      obtain ⟨j, hj⟩ := hother _ hu (by rw [hat]; exact Place.noConfusion)
      rw [hadv]
      obtain ⟨p', place'⟩ := u
      obtain rfl : place' = .atDrain q' := hat
      apply World.deadlocked_of_two hself (hj _)
      · rfl
      · exact List.mem_cons_self
      · rfl
      · exact List.mem_cons_self
    · case h_4 key hplace =>
      obtain rfl : place = .inLookup key := hplace
      push Not at hharm
      obtain ⟨entry, hget, hq, u, hu, hreaches⟩ := hharm
      have hm : ∃ s', move w.shared { proxy := p, place := .inLookup key } .runs =
          some (s', .atDrain entry.connection_ref) := by
        simp only [move, lookup]
        split
        · case h_1 entry' d hget' =>
          rw [hget'] at hget
          obtain rfl := Option.some.inj hget
          exact ⟨_, by rw [if_pos hq]⟩
        · case h_2 d hget' =>
          rw [hget'] at hget
          cases hget
      obtain ⟨s', hm⟩ := hm
      obtain ⟨s₁, hadv⟩ := hset hm
      obtain ⟨j, hj⟩ := hother _ hu fun hplace => by
        unfold Thread.Reaches at hreaches
        rw [hplace] at hreaches
        exact hreaches
      rw [hadv]
      apply World.deadlocked_of_two hself (hj _)
      · rfl
      · exact hreaches.waits.2.1
      · exact hreaches.waits.1
      · exact List.mem_cons_self
    · exact absurd trivial hharm

/-- No run of the threads comes into a deadlock just if every turn is harmless: no health
check of a command that is not cached reads an invalidation, none is read from a drained
connection while its own proxy's thread is about to drain, and the pool does not come to
disconnect that connection then, or the other way round. -/
theorem never_deadlocked_iff (cache : DefaultCache) (moves : List (Move Proxy Event)) :
    Each program.advance (fun w m => ¬ Deadlocked (program.advance w m)) (init cache) moves ↔
      Each program.advance InOrder (init cache) moves := by
  refine each_good_iff (I := Inv) ?_ ?_ ?_ (Each.trivial _ _)
  · intro w m hw _ hok
    have hnext := advance_inv w m hw hok
    exact ⟨hnext.not_deadlocked, hnext⟩
  · intro w m _ _ hgood
    by_contra hok
    exact hgood (deadlocked_of_not_inOrder w m hok)
  · exact ⟨List.Perm.refl _, List.nodup_nil, fun t ht => absurd ht List.not_mem_nil,
      fun t ht => absurd ht List.not_mem_nil⟩

/-- A thread sends a command that is not cached, and the health check on the way reads an
invalidation before the reply to its PING. -/
def invalidatedPing : List (Move Proxy Event) :=
  [.spawn 0, .resume 0 (.send_command { name := "SET", keys := none }),
    .resume 0 (.reads .nothing), .resume 0 .runs, .resume 0 .runs,
    .resume 0 (.reads (.push (some [.str "foo"])))]

/-- The thread waits for the lock it holds. -/
theorem invalidatedPing_deadlocks :
    ¬ Each program.advance (fun w m => ¬ Deadlocked (program.advance w m))
      (init { _cache := ∅, max_size := 128, allow_list := ["GET"] }) invalidatedPing := by
  rintro ⟨-, -, -, -, -, h, -⟩
  exact h (World.deadlocked_of_self (i := 0) rfl rfl List.mem_cons_self)

end RedisPy.CacheLocks
