import Mathlib.Data.List.Dedup
import Mathlib.Data.List.Perm.Basic
import RedisPy.Library.Course
import RedisPy.Spec.ConnectionPool

/-! The books that `ConnectionPool` keeps of its connections: what a call in order
leaves right, and what the others break. -/

namespace RedisPy

open Raising Course

section
variable {π β : Type}

theorem post_raises {r : Except Exc β} {s : Process π} {Q : β → Process π → Prop}
    {E : Exc → Process π → Prop} (hok : ∀ b, r = .ok b → Q b s) (herr : ∀ e, r = .error e → E e s) :
    Post ((raises r : PoolM π β).run s) Q E := by
  cases r with
  | ok b => exact hok b rfl
  | error e => exact herr e rfl

/-- Whether the connection is ready or not, nothing changes in the pool. -/
theorem ensureReady_keeps (env : Outcomes) (tolerant : Bool) (I : Process π → Prop) :
    Keeps I (ensureReady env tolerant : PoolM π Unit) := by
  have hraises : ∀ {β : Type} (r : Except Exc β), Keeps I (raises r : PoolM π β) :=
    fun r s hs => post_raises (fun _ _ => hs) fun _ _ => hs
  unfold ensureReady
  apply Keeps.bind (hraises _)
  intro _ s hs
  apply Post.tryCatch (F := fun _ => I)
  · apply Post.bind (hraises _ s hs)
    intro b s' hs'
    apply Post.ite
    · exact fun _ => hs'
    · exact fun _ => hs'
  · intro e s' hs'
    apply Post.ite
    · intro _
      apply Post.bind (hraises _ s' hs')
      intro _ s₁ hs₁
      apply Post.bind (hraises _ s₁ hs₁)
      intro b s₂ hs₂
      apply Post.ite
      · exact fun _ => hs₂
      · exact fun _ => hs₂
    · exact fun _ => hs'

/-- The connections that this process made itself and holds. -/
def Process.own (s : Process π) : List Connection := s.held.filter (·.pid = s.getpid)

end

namespace ConnectionPool

/-- The fork left the lock locked, and every call of the child gives up. -/
def Deadlocked (s : Process ConnectionPool) : Prop :=
  s.pool.pid ≠ s.getpid ∧ s.pool._fork_lock = true

instance (s : Process ConnectionPool) : Decidable (Deadlocked s) :=
  inferInstanceAs (Decidable (_ ∧ _))

/-- The live connections of the current process that are the pool's: idle ones
and ones that are held. -/
def live (s : Process ConnectionPool) : List Connection :=
  ((s.pool._available_connections ++ s.held).filter (·.pid = s.getpid)).dedup

/-- The books are right. -/
structure Accounted (s : Process ConnectionPool) : Prop where
  disjoint : ∀ c ∈ s.pool._available_connections, c ∉ s.pool._in_use_connections
  holders : s.held.Nodup
  count : s.pool._created_connections = (live s).length
  bounds : 0 ≤ s.pool._created_connections ∧ s.pool._created_connections ≤ s.pool.max_connections

/-- The state in which a call finds the pool once `_checkpid` has been passed. -/
def checked (s : Process ConnectionPool) : Process ConnectionPool :=
  if s.pool.pid = s.getpid then s else state (reset.run s)

theorem checkpid_run (s : Process ConnectionPool) (h : ¬ Deadlocked s) :
    _checkpid.run s = .ok () (checked s) := by
  unfold _checkpid checked
  by_cases hp : s.pool.pid = s.getpid
  · simp [hp]
  · have hl : s.pool._fork_lock = false := by simpa [Deadlocked, hp] using h
    simp [hp, hl, reset, state]

theorem checkpid_run_deadlocked {s : Process ConnectionPool} (h : Deadlocked s) :
    _checkpid.run s = .error { cls := .ChildDeadlockedError } s := by
  obtain ⟨hp, hl⟩ := h
  simp [_checkpid, hp, hl]

/-- What holds of the pool of this process while `held` are the connections it has
handed out, or is about to. -/
structure Tidy (s : Process ConnectionPool) (held : List Connection) : Prop where
  pid : s.pool.pid = s.getpid
  nodup : (s.pool._available_connections ++ held).Nodup
  made : ∀ c ∈ s.pool._available_connections ++ held, c.id < s.constructed
  idle : ∀ c ∈ s.pool._available_connections, c.pid = s.getpid
  inUse_nodup : s.pool._in_use_connections.Nodup
  inUse : ∀ c, c ∈ s.pool._in_use_connections ↔ c ∈ held ∧ c.pid = s.getpid
  count : s.pool._created_connections =
    ((s.pool._available_connections ++ held).filter (·.pid = s.getpid)).length
  le : s.pool._created_connections ≤ s.pool.max_connections

theorem Tidy.perm {s : Process ConnectionPool} {held held' : List Connection} (h : Tidy s held)
    (hp : held.Perm held') : Tidy s held' where
  pid := h.pid
  nodup := (hp.append_left _).nodup_iff.mp h.nodup
  made c hc := h.made c ((hp.append_left _).mem_iff.mpr hc)
  idle := h.idle
  inUse_nodup := h.inUse_nodup
  inUse c := by rw [h.inUse, hp.mem_iff]
  count := by rw [h.count, ((hp.append_left _).filter _).length_eq]
  le := h.le

theorem Tidy.holders {s : Process ConnectionPool} {held : List Connection} (h : Tidy s held)
    (now : List Connection) : Tidy { s with held := now } held :=
  ⟨h.pid, h.nodup, h.made, h.idle, h.inUse_nodup, h.inUse, h.count, h.le⟩

theorem Tidy.accounted {s : Process ConnectionPool} (h : Tidy s s.held) : Accounted s where
  disjoint c hc hu := (List.nodup_append.mp h.nodup).2.2 c hc c ((h.inUse c).mp hu).1 rfl
  holders := (List.nodup_append.mp h.nodup).2.1
  count := by rw [h.count, live, (h.nodup.filter _).dedup]
  bounds := ⟨by rw [h.count]; exact Int.natCast_nonneg _, h.le⟩

/-- What holds of the pool in every state of a course in order. -/
structure Inv (s : Process ConnectionPool) : Prop where
  held_nodup : s.held.Nodup
  held_made : ∀ c ∈ s.held, c.id < s.constructed
  held_pid : ∀ c ∈ s.held, c.pid ∈ s.getpid :: s.ancestors
  pool_pid : s.pool.pid ∈ s.getpid :: s.ancestors
  stale : s.pool.pid ≠ s.getpid → ∀ c ∈ s.held, c.pid ≠ s.getpid
  current : s.pool.pid = s.getpid → Tidy s s.held

/-- A pool that is reset is tidy if no connection of this process is held. -/
theorem tidy_reset {s : Process ConnectionPool} (hn : s.held.Nodup)
    (hm : ∀ c ∈ s.held, c.id < s.constructed) (hh : ∀ c ∈ s.held, c.pid ≠ s.getpid) :
    Tidy (state (reset.run s)) s.held where
  pid := rfl
  nodup := by simpa [reset, state] using hn
  made := by simpa [reset, state] using hm
  idle := by simp [reset, state]
  inUse_nodup := by simp [reset, state]
  inUse c := by simpa [reset, state] using hh c
  count := by
    change (0 : Int) = (s.held.filter (·.pid = s.getpid)).length
    rw [List.filter_eq_nil_iff.mpr (by simpa using hh)]
    rfl
  le := by simp [reset, state]

/-- The pool of this process is tidy, and what is held comes from this process
and its ancestors. -/
structure Kept (s : Process ConnectionPool) : Prop where
  tidy : Tidy s s.held
  held_pid : ∀ c ∈ s.held, c.pid ∈ s.getpid :: s.ancestors

/-- The same with a connection that is just being handed out or given back. -/
structure Pending (c : Connection) (s : Process ConnectionPool) : Prop where
  tidy : Tidy s (c :: s.held)
  pid : c.pid = s.getpid
  held_pid : ∀ c ∈ s.held, c.pid ∈ s.getpid :: s.ancestors

theorem Kept.inv {s : Process ConnectionPool} (h : Kept s) : Inv s where
  held_nodup := (List.nodup_append.mp h.tidy.nodup).2.1
  held_made c hc := h.tidy.made c (List.mem_append_right _ hc)
  held_pid := h.held_pid
  pool_pid := by simp [h.tidy.pid]
  stale hne := absurd h.tidy.pid hne
  current _ := h.tidy

theorem Inv.checked {s : Process ConnectionPool} (h : Inv s) : Kept (checked s) := by
  unfold ConnectionPool.checked
  by_cases hp : s.pool.pid = s.getpid
  · rw [if_pos hp]
    exact ⟨h.current hp, h.held_pid⟩
  · rw [if_neg hp]
    exact ⟨tidy_reset h.held_nodup h.held_made (h.stale hp), h.held_pid⟩

/-- The connection lies idle again. -/
def putBack (s : Process ConnectionPool) (c : Connection) : Process ConnectionPool :=
  { s with pool := { s.pool with
    _in_use_connections := s.pool._in_use_connections.erase c
    _available_connections := s.pool._available_connections ++ [c] } }

/-- The last of the idle connections is taken. -/
def taken (s : Process ConnectionPool) (idle : List Connection) (c : Connection) :
    Process ConnectionPool :=
  { s with pool := { s.pool with
    _available_connections := idle
    _in_use_connections := s.pool._in_use_connections.insert c } }

def extended (s : Process ConnectionPool) : Process ConnectionPool :=
  { s with
    constructed := s.constructed + 1
    pool := { s.pool with
      _created_connections := s.pool._created_connections + 1
      _in_use_connections := s.pool._in_use_connections.insert ⟨s.constructed, s.getpid⟩ } }

theorem release_run {s : Process ConnectionPool} {c : Connection} (hp : s.pool.pid = s.getpid)
    (hc : c.pid = s.getpid) :
    (release c).run s = .ok () (putBack s c) := by
  have hchecked : ConnectionPool.checked s = s := if_pos hp
  unfold release
  rw [EStateM.run_bind, checkpid_run s (fun hd => hd.1 hp), hchecked]
  simp [setPool, ownsConnection, hp, hc, putBack]

theorem Tidy.release {s : Process ConnectionPool} {held : List Connection} {c : Connection}
    (h : Tidy s (c :: held)) (hc : c.pid = s.getpid) : Tidy (putBack s c) held := by
  have hperm : (s.pool._available_connections ++ c :: held).Perm
      (s.pool._available_connections ++ [c] ++ held) := by simp
  refine ⟨h.pid, hperm.nodup_iff.mp h.nodup, fun d hd => h.made d (hperm.mem_iff.mpr hd), ?_,
    h.inUse_nodup.erase c, ?_, ?_, h.le⟩
  · intro d hd
    rcases List.mem_append.mp hd with hd | hd
    · exact h.idle d hd
    · rw [List.mem_singleton.mp hd]
      exact hc
  · intro d
    have hcd : c ∉ held := (List.nodup_cons.mp (List.nodup_append.mp h.nodup).2.1).1
    change d ∈ s.pool._in_use_connections.erase c ↔ _
    rw [h.inUse_nodup.mem_erase_iff, h.inUse, List.mem_cons]
    constructor
    · rintro ⟨hne, hd | hd, hpid⟩
      · exact absurd hd hne
      · exact ⟨hd, hpid⟩
    · rintro ⟨hd, hpid⟩
      exact ⟨fun he => hcd (he ▸ hd), .inr hd, hpid⟩
  · exact h.count.trans (congrArg _ (hperm.filter _).length_eq)

/-- An idle connection is about to be handed out. -/
theorem Tidy.pop {s : Process ConnectionPool} {held idle : List Connection} {c : Connection}
    (h : Tidy s held) (ha : s.pool._available_connections = idle ++ [c]) :
    Tidy (taken s idle c) (c :: held) := by
  have hperm : (s.pool._available_connections ++ held).Perm (idle ++ c :: held) := by
    rw [ha, List.append_assoc, List.singleton_append]
  have hc : c ∈ s.pool._available_connections := by simp [ha]
  refine ⟨h.pid, hperm.nodup_iff.mp h.nodup, fun d hd => h.made d (hperm.mem_iff.mpr hd),
    fun d hd => h.idle d (ha ▸ List.mem_append_left _ hd), h.inUse_nodup.insert, ?_, ?_, h.le⟩
  · intro d
    change d ∈ s.pool._in_use_connections.insert c ↔ _
    rw [List.mem_insert_iff, h.inUse, List.mem_cons, or_and_right]
    apply or_congr_left
    constructor
    · rintro rfl
      exact ⟨rfl, h.idle _ hc⟩
    · exact fun hd => hd.1
  · exact h.count.trans (congrArg _ (hperm.filter _).length_eq)

/-- A new connection is about to be handed out. -/
theorem Tidy.make {s : Process ConnectionPool} {held : List Connection} (h : Tidy s held)
    (ha : s.pool._available_connections = [])
    (hroom : s.pool._created_connections < s.pool.max_connections) :
    Tidy (extended s) (⟨s.constructed, s.getpid⟩ :: held) := by
  have hmade := h.made
  have hnodup := h.nodup
  have hcount := h.count
  rw [ha, List.nil_append] at hmade hnodup hcount
  have ha' : (extended s).pool._available_connections = [] := ha
  constructor
  · exact h.pid
  · rw [ha', List.nil_append]
    exact List.nodup_cons.mpr ⟨fun hc => absurd (hmade _ hc) (Nat.lt_irrefl _), hnodup⟩
  · intro c hc
    rw [ha', List.nil_append, List.mem_cons] at hc
    rcases hc with rfl | hc
    · exact Nat.lt_succ_self _
    · exact Nat.lt_succ_of_lt (hmade c hc)
  · exact h.idle
  · exact h.inUse_nodup.insert
  · intro d
    change d ∈ s.pool._in_use_connections.insert _ ↔ _
    rw [List.mem_insert_iff, h.inUse, List.mem_cons, or_and_right]
    apply or_congr_left
    constructor
    · rintro rfl
      exact ⟨rfl, rfl⟩
    · exact fun hd => hd.1
  · rw [ha', List.nil_append, List.filter_cons_of_pos (by simp [extended]), List.length_cons]
    change s.pool._created_connections + 1 = (((held.filter (·.pid = s.getpid)).length + 1 : Nat) : Int)
    omega
  · exact hroom

/-- The connection that is taken counts as handed out from here on. -/
theorem takeConnection_pending {s : Process ConnectionPool} {env : Outcomes} (h : Kept s)
    (hok : s.pool._available_connections ≠ [] ∨
      s.pool.max_connections ≤ s.pool._created_connections ∨ env.construct.isOk = true) :
    Post ((takeConnection env).run s) Pending (fun _ => Inv) := by
  rcases List.eq_nil_or_concat s.pool._available_connections with ha | ⟨idle, c, ha⟩
  · by_cases hfull : s.pool.max_connections ≤ s.pool._created_connections
    · have hrun : (takeConnection env).run s =
          .error { cls := .ConnectionError, msg := "Too many connections" } s := by
        simp [takeConnection, makeConnection, ha, hfull]
      rw [hrun]
      exact h.inv
    · cases hconstruct : env.construct with
      | error e => simp [ha, hfull, hconstruct, Except.isOk, Except.toBool] at hok
      | ok u =>
        have hrun : (takeConnection env).run s = .ok ⟨s.constructed, s.getpid⟩ (extended s) := by
          simp [takeConnection, makeConnection, construct, setPool, raises, ha, hfull, hconstruct,
            extended]
        rw [hrun]
        exact ⟨h.tidy.make ha (Int.not_le.mp hfull), rfl, h.held_pid⟩
  · rw [List.concat_eq_append] at ha
    have hrun : (takeConnection env).run s = .ok c (taken s idle c) := by
      simp [takeConnection, setPool, ha, taken]
    rw [hrun]
    exact ⟨h.tidy.pop ha, h.tidy.idle c (by simp [ha]), h.held_pid⟩

/-- A call is in order in this state. -/
def InOrder (s : Process ConnectionPool) : PoolCall → Prop
  | .get_connection env => Deadlocked s ∨ (checked s).pool._available_connections ≠ [] ∨
      (checked s).pool.max_connections ≤ (checked s).pool._created_connections ∨
      env.construct.isOk = true
  | .release c => Deadlocked s ∨ c.pid = s.getpid
  | .reset => ∀ c ∈ s.held, c.pid ≠ s.getpid
  | .disconnect => True
  | .fork _ _ => True

instance (s : Process ConnectionPool) : (i : PoolCall) → Decidable (InOrder s i)
  | .get_connection _ => inferInstanceAs (Decidable (_ ∨ _))
  | .release _ => inferInstanceAs (Decidable (_ ∨ _))
  | .reset => inferInstanceAs (Decidable (∀ c ∈ s.held, c.pid ≠ s.getpid))
  | .disconnect => isTrue trivial
  | .fork _ _ => isTrue trivial

theorem release_pending {s : Process ConnectionPool} {c : Connection} (h : Pending c s) :
    Post ((release c).run s) (fun _ => Kept) (fun _ => Inv) := by
  rw [release_run h.tidy.pid h.pid]
  exact ⟨h.tidy.release h.pid, h.held_pid⟩

/-- A connection that is not ready is given back. -/
theorem getConnection_pending {s : Process ConnectionPool} {env : Outcomes} (h : Inv s)
    (hd : ¬ Deadlocked s) (hok : InOrder s (.get_connection env)) :
    Post ((getConnection env).run s) Pending (fun _ => Inv) := by
  unfold getConnection
  apply Post.bind (Q := fun _ s' => s' = checked s)
  · rw [checkpid_run s hd]
    rfl
  rintro _ _ rfl
  apply Post.bind (takeConnection_pending h.checked (hok.resolve_left hd))
  intro c s₁ hc
  apply Post.get_bind
  apply Post.bind (Q := fun _ => Pending c)
  · apply Post.tryCatch (ensureReady_keeps env _ (Pending c) s₁ hc)
    intro e s₂ hs₂
    apply Post.bind (release_pending hs₂)
    exact fun _ _ => Kept.inv
  · exact fun _ _ hs₂ => hs₂

theorem getConnection_inv {s : Process ConnectionPool} {env : Outcomes} (h : Inv s)
    (hok : InOrder s (.get_connection env)) : Inv (step s (.get_connection env)) := by
  by_cases hd : Deadlocked s
  · have : step s (.get_connection env) = s := by
      simp [step, call, getConnection, checkpid_run_deadlocked hd, state]
    rw [this]
    exact h
  apply Post.state
  apply Post.bind (getConnection_pending h hd hok)
  intro c s₁ hc
  have hperm : (c :: s₁.held).Perm (s₁.held ++ [c]) := (List.perm_append_singleton c _).symm
  apply Kept.inv (s := { s₁ with held := s₁.held ++ [c] })
  constructor
  · exact (hc.tidy.perm hperm).holders _
  · intro d hd
    rcases List.mem_append.mp hd with hd | hd
    · exact hc.held_pid d hd
    · rw [List.mem_singleton.mp hd, hc.pid]
      exact List.mem_cons_self

/-- A connection that this process did not make, or one in a child that has not
noticed the fork, is no longer held. -/
theorem Inv.drop {s : Process ConnectionPool} {c : Connection} (h : Inv s)
    (hc : s.pool.pid ≠ s.getpid ∨ c.pid ≠ s.getpid) : Inv { s with held := s.held.erase c } where
  held_nodup := h.held_nodup.erase c
  held_made d hd := h.held_made d (List.mem_of_mem_erase hd)
  held_pid d hd := h.held_pid d (List.mem_of_mem_erase hd)
  pool_pid := h.pool_pid
  stale hne d hd := h.stale hne d (List.mem_of_mem_erase hd)
  current hp := by
    have htidy := h.current hp
    replace hc := hc.resolve_left (fun hne => hne hp)
    have hsub : (s.pool._available_connections ++ s.held.erase c).Sublist
        (s.pool._available_connections ++ s.held) := (List.erase_sublist).append_left _
    have hown : (s.held.erase c).filter (·.pid = s.getpid) = s.held.filter (·.pid = s.getpid) := by
      rw [← List.erase_filter, List.erase_of_not_mem (by simp [hc])]
    refine ⟨hp, htidy.nodup.sublist hsub, fun d hd => htidy.made d (hsub.subset hd), htidy.idle,
      htidy.inUse_nodup, ?_, ?_, htidy.le⟩
    · intro d
      change d ∈ s.pool._in_use_connections ↔ d ∈ s.held.erase c ∧ d.pid = s.getpid
      rw [htidy.inUse, h.held_nodup.mem_erase_iff]
      constructor
      · rintro ⟨hd, hpid⟩
        exact ⟨⟨fun he => hc (he ▸ hpid), hd⟩, hpid⟩
      · rintro ⟨⟨-, hd⟩, hpid⟩
        exact ⟨hd, hpid⟩
    · change s.pool._created_connections =
        ((s.pool._available_connections ++ s.held.erase c).filter (·.pid = s.getpid)).length
      rw [htidy.count, List.filter_append, List.filter_append, hown]

theorem release_inv {s : Process ConnectionPool} {c : Connection} (h : Inv s) (hc : c ∈ s.held)
    (hok : InOrder s (.release c)) : Inv (step s (.release c)) := by
  rcases hok with hd | hpid
  · have : step s (.release c) = { s with held := s.held.erase c } := by
      have hd' : Deadlocked { s with held := s.held.erase c } := hd
      simp [step, call, release, checkpid_run_deadlocked hd', state]
    rw [this]
    exact h.drop (.inl hd.1)
  · have hcur : s.pool.pid = s.getpid := Decidable.by_contra fun hne => h.stale hne c hc hpid
    apply Post.state
    apply Post.bind (Q := fun _ => Pending c)
    · exact ⟨((h.current hcur).perm (List.perm_cons_erase hc)).holders _, hpid,
        fun d hd => h.held_pid d (List.mem_of_mem_erase hd)⟩
    · intro _ s₁ hs₁
      exact (release_pending hs₁).mono (fun _ _ => Kept.inv) fun _ _ h => h

/-- A call in order keeps the books right. -/
theorem step_inv {s : Process ConnectionPool} {i : PoolCall} (h : Inv s) (ha : i.Allowed s)
    (hok : InOrder s i) : Inv (step s i) := by
  cases i with
  | get_connection env => exact getConnection_inv h hok
  | release c => exact release_inv h ha hok
  | disconnect =>
    by_cases hd : Deadlocked s
    · have : step s .disconnect = s := by
        simp [step, call, disconnect, checkpid_run_deadlocked hd, state]
      rw [this]
      exact h
    · have : step s .disconnect = checked s := by
        simp [step, call, disconnect, checkpid_run s hd, state]
      rw [this]
      exact h.checked.inv
  | reset => exact (Kept.mk (tidy_reset h.held_nodup h.held_made hok) h.held_pid).inv
  | fork pid locked =>
    obtain ⟨hpid, hanc⟩ := ha
    have hfresh : ∀ p ∈ s.getpid :: s.ancestors, p ≠ pid := by
      rintro p hp rfl
      exact (List.mem_cons.mp hp).elim hpid hanc
    constructor
    · exact h.held_nodup
    · exact h.held_made
    · exact fun c hc => List.mem_cons_of_mem _ (h.held_pid c hc)
    · exact List.mem_cons_of_mem _ h.pool_pid
    · exact fun _ c hc => hfresh c.pid (h.held_pid c hc)
    · exact fun hp => absurd hp (hfresh s.pool.pid h.pool_pid)

/-- The books are right whenever the pool is that of this process. -/
def Right (s : Process ConnectionPool) : Prop := s.pool.pid = s.getpid → Accounted s

theorem Inv.right {s : Process ConnectionPool} (h : Inv s) : Right s :=
  fun hp => (h.current hp).accounted

/-- A call that leaves the books right was in order. -/
theorem inOrder_of_right {s : Process ConnectionPool} {i : PoolCall} (h : Inv s)
    (hr : Right (step s i)) : InOrder s i := by
  cases i with
  | get_connection env =>
    by_contra hno
    obtain ⟨hd, ha, hfull, hconstruct⟩ : ¬ Deadlocked s ∧
        (checked s).pool._available_connections = [] ∧
        ¬ (checked s).pool.max_connections ≤ (checked s).pool._created_connections ∧
        env.construct.isOk = false := by simpa [InOrder, not_or] using hno
    obtain ⟨e, he⟩ : ∃ e, env.construct = .error e := by
      cases hc : env.construct with
      | error e => exact ⟨e, rfl⟩
      | ok u => simp [hc, Except.isOk, Except.toBool] at hconstruct
    have hstep : step s (.get_connection env) = { checked s with pool := { (checked s).pool with
        _created_connections := (checked s).pool._created_connections + 1 } } := by
      simp [step, call, getConnection, checkpid_run s hd, takeConnection, makeConnection, construct,
        setPool, raises, ha, hfull, he, state]
    rw [hstep] at hr
    have htidy := h.checked.tidy
    have hcount := (hr htidy.pid).count
    have hcount' := htidy.accounted.count
    change (checked s).pool._created_connections + 1 = ((live (checked s)).length : Int) at hcount
    omega
  | release c =>
    by_contra hno
    obtain ⟨hd, hpid⟩ : ¬ Deadlocked s ∧ c.pid ≠ s.getpid := by simpa [InOrder, not_or] using hno
    have hd' : ¬ Deadlocked { s with held := s.held.erase c } := hd
    have htidy := (h.drop (.inr hpid)).checked.tidy
    generalize hs₁ : ({ s with held := s.held.erase c } : Process ConnectionPool) = s₁ at hd' htidy
    have hgetpid : (checked s₁).getpid = s.getpid := by
      subst hs₁
      unfold checked
      split <;> rfl
    have howns : c.pid ≠ (checked s₁).pool.pid := by
      rwa [htidy.pid, hgetpid]
    have hstep : step s (.release c) = { checked s₁ with pool := { (checked s₁).pool with
        _in_use_connections := (checked s₁).pool._in_use_connections.erase c
        _created_connections := (checked s₁).pool._created_connections - 1 } } := by
      have hcall : (call (.release c)).run s = (release c).run s₁ := by
        rw [← hs₁]
        rfl
      unfold step
      rw [hcall]
      unfold release
      rw [EStateM.run_bind, checkpid_run s₁ hd']
      simp [setPool, ownsConnection, howns, state]
    rw [hstep] at hr
    have hcount := (hr htidy.pid).count
    have hcount' := htidy.accounted.count
    change (checked s₁).pool._created_connections - 1 = ((live (checked s₁)).length : Int) at hcount
    omega
  | reset =>
    intro c hc hpid
    have hcount := (hr rfl).count
    have hmem : c ∈ live (step s .reset) :=
      List.mem_dedup.mpr (List.mem_filter.mpr ⟨List.mem_append_right _ hc, decide_eq_true hpid⟩)
    have hpos := List.length_pos_of_mem hmem
    change (0 : Int) = _ at hcount
    omega
  | disconnect => trivial
  | fork pid locked => trivial

theorem init_inv (max_connections : Nat) (cache : Bool) (getpid : Nat) :
    Inv (init max_connections cache getpid) := by
  apply Kept.inv
  constructor
  · constructor
    case le => exact Int.natCast_nonneg _
    all_goals simp [init]
  · simp [init]

/-- The books are right throughout a course of calls just if every call is in order:
no constructor raises after it has been counted, no connection of another process is
given back, and there is no reset while a connection of this process is held. -/
theorem books_right_iff (max_connections : Nat) (cache : Bool) (getpid : Nat)
    (calls : List PoolCall)
    (h : Each step (fun s i => i.Allowed s) (init max_connections cache getpid) calls) :
    Each step (fun s i => Right (step s i)) (init max_connections cache getpid) calls ↔
      Each step InOrder (init max_connections cache getpid) calls := by
  apply each_good_iff (I := Inv) ?_ ?_ (init_inv _ _ _) h
  · intro s i hs ha hok
    have hinv := step_inv hs ha hok
    exact ⟨hinv.right, hinv⟩
  · exact fun s i hs _ hr => inOrder_of_right hs hr

/-- A connection is handed out, the process forks, and the child gives the connection back. -/
def forkedRelease : List PoolCall :=
  [.get_connection {}, .fork 2 false, .release ⟨0, 1⟩]

/-- The child's counter goes below zero. -/
theorem forkedRelease_wrong :
    Each step (fun s i => i.Allowed s) (init 10 false 1) forkedRelease ∧
      ¬ Each step (fun s i => Right (step s i)) (init 10 false 1) forkedRelease := by
  refine ⟨by decide +kernel, ?_⟩
  rintro ⟨-, -, h, -⟩
  exact absurd (h (by decide +kernel)).bounds.1 (by decide +kernel)

/-- In a child that uses connections of its own the books are right. -/
theorem books_right_forked :
    Each step (fun s i => Right (step s i)) (init 10 false 1)
      [.get_connection {}, .fork 2 false, .get_connection {}, .release ⟨1, 2⟩] :=
  (books_right_iff 10 false 1 _ (by decide +kernel)).mpr (by decide +kernel)

end ConnectionPool

end RedisPy
