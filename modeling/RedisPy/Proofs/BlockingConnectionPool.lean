import RedisPy.Proofs.ConnectionPool

/-! The slots of `BlockingConnectionPool`: every slot is an item of the queue or a
connection that this process holds. -/

namespace RedisPy

open Raising Course

theorem QueueClass.get_perm {α : Type} {q : QueueClass} {items rest : List α} {x : α}
    (h : q.get items = some (x, rest)) : (x :: rest).Perm items := by
  cases q with
  | LifoQueue =>
    rcases List.eq_nil_or_concat items with rfl | ⟨init, y, rfl⟩
    · cases h
    · simp only [QueueClass.get, List.concat_eq_append, List.getLast?_append, List.getLast?_singleton,
        Option.some_or, Option.map_some, List.dropLast_concat, Option.some.injEq,
        Prod.mk.injEq] at h
      obtain ⟨rfl, rfl⟩ := h
      rw [List.concat_eq_append]
      exact (List.perm_append_singleton y init).symm
  | Queue =>
    cases items with
    | nil => cases h
    | cons y items =>
      obtain ⟨rfl, rfl⟩ : y = x ∧ items = rest := by simpa [QueueClass.get] using h
      exact List.Perm.refl _

namespace BlockingConnectionPool

def Deadlocked (s : Process BlockingConnectionPool) : Prop :=
  s.pool.pid ≠ s.getpid ∧ s.pool._fork_lock = true

/-- The state in which a call finds the pool once `_checkpid` has been passed. -/
def checked (s : Process BlockingConnectionPool) : Process BlockingConnectionPool :=
  if s.pool.pid = s.getpid then s else state (reset.run s)

theorem checkpid_run (s : Process BlockingConnectionPool) (h : ¬ Deadlocked s) :
    _checkpid.run s = .ok () (checked s) := by
  unfold _checkpid checked
  by_cases hp : s.pool.pid = s.getpid
  · simp [hp]
  · have hl : s.pool._fork_lock = false := by simpa [Deadlocked, hp] using h
    simp [hp, hl, reset, state]

theorem checkpid_run_deadlocked {s : Process BlockingConnectionPool} (h : Deadlocked s) :
    _checkpid.run s = .error { cls := .ChildDeadlockedError } s := by
  obtain ⟨hp, hl⟩ := h
  simp [_checkpid, hp, hl]

theorem checked_getpid (s : Process BlockingConnectionPool) : (checked s).getpid = s.getpid := by
  unfold checked
  split <;> rfl

/-- No slot of the pool of this process is lost or doubled while it has handed out
`held`, or is about to. -/
structure Tidy (s : Process BlockingConnectionPool) (held : List Connection) : Prop where
  pid : s.pool.pid = s.getpid
  items : ∀ c, some c ∈ s.pool.pool → c.pid = s.getpid
  slots : s.pool.pool.length + (held.filter (·.pid = s.getpid)).length = s.pool.max_connections

structure Inv (s : Process BlockingConnectionPool) : Prop where
  held_pid : ∀ c ∈ s.held, c.pid ∈ s.getpid :: s.ancestors
  pool_pid : s.pool.pid ∈ s.getpid :: s.ancestors
  stale : s.pool.pid ≠ s.getpid → ∀ c ∈ s.held, c.pid ≠ s.getpid
  current : s.pool.pid = s.getpid → Tidy s s.held

structure Kept (s : Process BlockingConnectionPool) : Prop where
  tidy : Tidy s s.held
  held_pid : ∀ c ∈ s.held, c.pid ∈ s.getpid :: s.ancestors

/-- A connection is just being handed out or given back. -/
structure Pending (c : Connection) (s : Process BlockingConnectionPool) : Prop where
  tidy : Tidy s (c :: s.held)
  pid : c.pid = s.getpid
  held_pid : ∀ c ∈ s.held, c.pid ∈ s.getpid :: s.ancestors

theorem Kept.inv {s : Process BlockingConnectionPool} (h : Kept s) : Inv s where
  held_pid := h.held_pid
  pool_pid := by simp [h.tidy.pid]
  stale hne := absurd h.tidy.pid hne
  current _ := h.tidy

theorem tidy_reset {s : Process BlockingConnectionPool} (hh : ∀ c ∈ s.held, c.pid ≠ s.getpid) :
    Tidy (state (reset.run s)) s.held where
  pid := rfl
  items c hc := by
    have := List.eq_of_mem_replicate hc
    cases this
  slots := by
    change (List.replicate _ _).length + (s.held.filter (·.pid = s.getpid)).length = _
    rw [List.filter_eq_nil_iff.mpr (by simpa using hh), List.length_replicate]
    rfl

theorem Inv.checked {s : Process BlockingConnectionPool} (h : Inv s) : Kept (checked s) := by
  unfold BlockingConnectionPool.checked
  by_cases hp : s.pool.pid = s.getpid
  · rw [if_pos hp]
    exact ⟨h.current hp, h.held_pid⟩
  · rw [if_neg hp]
    exact ⟨tidy_reset (h.stale hp), h.held_pid⟩

/-- The item lies in the queue. -/
def queued (s : Process BlockingConnectionPool) (item : Option Connection) :
    Process BlockingConnectionPool :=
  { s with pool := { s.pool with pool := s.pool.pool ++ [item] } }

theorem putNowait_run (item : Option Connection) (s : Process BlockingConnectionPool) :
    (putNowait item).run s =
      if s.pool.max_connections ≤ s.pool.pool.length then .error { cls := .Full } s
      else .ok () (queued s item) := by
  unfold putNowait
  split <;> simp [*, setPool, queued]

/-- A connection of this process finds its slot free. -/
theorem release_run {s : Process BlockingConnectionPool} {c : Connection} (h : Pending c s) :
    (release c).run s = .ok () (queued s (some c)) := by
  have hchecked : BlockingConnectionPool.checked s = s := if_pos h.tidy.pid
  have hroom : ¬ s.pool.max_connections ≤ s.pool.pool.length := by
    have hslots := h.tidy.slots
    rw [List.filter_cons_of_pos (by simp [h.pid]), List.length_cons] at hslots
    omega
  unfold release
  rw [EStateM.run_bind, checkpid_run s (fun hd => hd.1 h.tidy.pid), hchecked]
  simp [h.tidy.pid, h.pid, putNowait_run, hroom]

theorem Pending.release {s : Process BlockingConnectionPool} {c : Connection} (h : Pending c s) :
    Kept (queued s (some c)) := by
  refine ⟨⟨h.tidy.pid, ?_, ?_⟩, h.held_pid⟩
  · intro d hd
    rcases List.mem_append.mp hd with hd | hd
    · exact h.tidy.items d hd
    · rw [Option.some.inj (List.mem_singleton.mp hd)]
      exact h.pid
  · have hslots := h.tidy.slots
    rw [List.filter_cons_of_pos (by simp [h.pid]), List.length_cons] at hslots
    change (s.pool.pool ++ [some c]).length + (s.held.filter (·.pid = s.getpid)).length =
      s.pool.max_connections
    rw [List.length_append, List.length_singleton]
    omega

/-- The next item is a placeholder. -/
def NextIsPlaceholder (s : Process BlockingConnectionPool) : Prop :=
  (s.pool.queue_class.get s.pool.pool).map Prod.fst = some none

/-- A call is in order in this state. -/
def InOrder (s : Process BlockingConnectionPool) : PoolCall → Prop
  | .get_connection env => Deadlocked s ∨ ¬ NextIsPlaceholder (checked s) ∨
      (s.pool.cache = false ∧ env.construct.isOk = true)
  | .release c => c.pid = s.getpid
  | .reset => ∀ c ∈ s.held, c.pid ≠ s.getpid
  | .disconnect => True
  | .fork _ _ => True

/-- The item has been taken, and its slot belongs to the caller. -/
structure Taken (item : Option Connection) (s : Process BlockingConnectionPool) : Prop where
  pid : s.pool.pid = s.getpid
  items : ∀ c, some c ∈ s.pool.pool → c.pid = s.getpid
  item : ∀ c, item = some c → c.pid = s.getpid
  slots : s.pool.pool.length + 1 + (s.held.filter (·.pid = s.getpid)).length =
    s.pool.max_connections
  held_pid : ∀ c ∈ s.held, c.pid ∈ s.getpid :: s.ancestors

/-- The queue without an item. -/
def dequeued (s : Process BlockingConnectionPool) (rest : List (Option Connection)) :
    Process BlockingConnectionPool :=
  { s with pool := { s.pool with pool := rest } }

theorem getItem_run (s : Process BlockingConnectionPool) :
    getItem.run s =
      match s.pool.queue_class.get s.pool.pool with
      | some (item, rest) => .ok item (dequeued s rest)
      | none => .error { cls := .ConnectionError, msg := "No connection available." } s := by
  unfold getItem
  simp only [EStateM.run_bind, EStateM.run_get]
  cases s.pool.queue_class.get s.pool.pool <;> rfl

theorem getItem_taken {s : Process BlockingConnectionPool} (h : Kept s) :
    Post (getItem.run s)
      (fun item s' => Taken item s' ∧ s'.pool.cache = s.pool.cache ∧
        (item = none → NextIsPlaceholder s))
      (fun _ => Inv) := by
  rw [getItem_run]
  cases hget : s.pool.queue_class.get s.pool.pool with
  | none => exact h.inv
  | some p =>
    obtain ⟨item, rest⟩ := p
    have hperm := QueueClass.get_perm hget
    refine ⟨⟨h.tidy.pid, fun c hc => ?_, fun c hc => ?_, ?_, h.held_pid⟩, rfl, ?_⟩
    · exact h.tidy.items c (hperm.mem_iff.mp (List.mem_cons_of_mem _ hc))
    · exact h.tidy.items c (hperm.mem_iff.mp (hc ▸ List.mem_cons_self))
    · change rest.length + 1 + (s.held.filter (·.pid = s.getpid)).length = s.pool.max_connections
      rw [← h.tidy.slots, ← hperm.length_eq]
      rfl
    · rintro rfl
      simp [NextIsPlaceholder, hget]

/-- The slot belongs to a connection that is about to be handed out. -/
theorem Taken.pending {s : Process BlockingConnectionPool} {item : Option Connection}
    {c : Connection} (h : Taken item s) (hc : c.pid = s.getpid) : Pending c s := by
  refine ⟨⟨h.pid, h.items, ?_⟩, hc, h.held_pid⟩
  have hslots := h.slots
  rw [List.filter_cons_of_pos (by simp [hc]), List.length_cons]
  omega

theorem makeConnection_pending {s : Process BlockingConnectionPool} {env : Outcomes}
    (h : Taken none s) (hcache : s.pool.cache = false) (hok : env.construct.isOk = true) :
    Post ((makeConnection env).run s) Pending (fun _ => Inv) := by
  cases hconstruct : env.construct with
  | error e => simp [hconstruct, Except.isOk, Except.toBool] at hok
  | ok u =>
    have hpending : Pending ⟨s.constructed, s.getpid⟩ s := h.pending rfl
    simp only [makeConnection, construct, raises, hconstruct, hcache, setPool, EStateM.run_bind,
      EStateM.run_pure, EStateM.run_get, EStateM.run_set]
    exact ⟨⟨hpending.tidy.pid, hpending.tidy.items, hpending.tidy.slots⟩, hpending.pid,
      hpending.held_pid⟩

/-- The constructor raises, or the lock that the cache needs is missing. -/
theorem makeConnection_raises {s : Process BlockingConnectionPool} {env : Outcomes}
    (h : ¬ (s.pool.cache = false ∧ env.construct.isOk = true)) :
    ∃ e s', (makeConnection env).run s = .error e s' ∧ s'.pool = s.pool ∧ s'.held = s.held ∧
      s'.getpid = s.getpid := by
  cases hconstruct : env.construct with
  | error e => exact ⟨e, s, by simp [makeConnection, construct, raises, hconstruct], rfl, rfl, rfl⟩
  | ok u =>
    have hcache : s.pool.cache = true := by simpa [hconstruct, Except.isOk, Except.toBool] using h
    refine ⟨noLock, { s with constructed := s.constructed + 1 }, ?_, rfl, rfl, rfl⟩
    simp only [makeConnection, construct, raises, hconstruct, hcache, EStateM.run_bind,
      EStateM.run_pure, EStateM.run_get, EStateM.run_set]
    rfl

theorem checked_cache (s : Process BlockingConnectionPool) :
    (checked s).pool.cache = s.pool.cache := by
  unfold checked
  split <;> rfl

/-- A connection that is not ready is given back. -/
theorem getConnection_pending {s : Process BlockingConnectionPool} {env : Outcomes} (h : Inv s)
    (hd : ¬ Deadlocked s) (hok : InOrder s (.get_connection env)) :
    Post ((getConnection env).run s) Pending (fun _ => Inv) := by
  replace hok := hok.resolve_left hd
  unfold getConnection
  apply Post.bind (Q := fun _ s' => s' = checked s)
  · rw [checkpid_run s hd]
    rfl
  rintro _ _ rfl
  apply Post.bind (Q := Pending)
  · apply Post.bind (getItem_taken h.checked)
    rintro (_ | c) s₁ ⟨htaken, hcache₁, hnext⟩
    · obtain ⟨hc, hconstruct⟩ := hok.resolve_left (fun hn => hn (hnext rfl))
      exact makeConnection_pending htaken (by rw [hcache₁, checked_cache, hc]) hconstruct
    · exact htaken.pending (htaken.item c rfl)
  intro c s₂ hc
  apply Post.bind (Q := fun _ => Pending c)
  · apply Post.tryCatch (ensureReady_keeps env _ (Pending c) s₂ hc)
    intro e s₃ hs₃
    apply Post.bind (Q := fun _ => Kept)
    · rw [release_run hs₃]
      exact hs₃.release
    · exact fun _ _ => Kept.inv
  · exact fun _ _ hs₃ => hs₃

theorem getConnection_inv {s : Process BlockingConnectionPool} {env : Outcomes} (h : Inv s)
    (hok : InOrder s (.get_connection env)) : Inv (step s (.get_connection env)) := by
  by_cases hd : Deadlocked s
  · have : step s (.get_connection env) = s := by
      simp [step, call, getConnection, checkpid_run_deadlocked hd, state]
    rw [this]
    exact h
  apply Post.state
  apply Post.bind (getConnection_pending h hd hok)
  intro c s₁ hc
  have hperm : (c :: s₁.held).Perm (s₁.held ++ [c]) := (List.perm_append_singleton c _).symm
  apply Kept.inv (s := { s₁ with held := s₁.held ++ [c] })
  refine ⟨⟨hc.tidy.pid, hc.tidy.items, ?_⟩, ?_⟩
  · rw [← hc.tidy.slots, (hperm.filter _).length_eq]
  · intro d hd
    rcases List.mem_append.mp hd with hd | hd
    · exact hc.held_pid d hd
    · rw [List.mem_singleton.mp hd, hc.pid]
      exact List.mem_cons_self

/-- A connection of this process is given back without an exception. -/
theorem release_inv {s : Process BlockingConnectionPool} {c : Connection} (h : Inv s)
    (hc : c ∈ s.held) (hpid : c.pid = s.getpid) :
    isOk ((call (.release c)).run s) = true ∧ Inv (step s (.release c)) := by
  have hcur : s.pool.pid = s.getpid := Decidable.by_contra fun hne => h.stale hne c hc hpid
  have hpending : Pending c { s with held := s.held.erase c } := by
    refine ⟨⟨hcur, (h.current hcur).items, ?_⟩, hpid, fun d hd => ?_⟩
    · rw [← (h.current hcur).slots, ((List.perm_cons_erase hc).filter _).length_eq]
    · exact h.held_pid d (List.mem_of_mem_erase hd)
  have hrun : (call (.release c)).run s = .ok () _ := release_run hpending
  unfold step
  rw [hrun]
  exact ⟨rfl, hpending.release.inv⟩

/-- A connection of another process takes up no slot. -/
theorem Inv.drop {s : Process BlockingConnectionPool} {c : Connection} (h : Inv s)
    (hc : c.pid ≠ s.getpid) : Inv { s with held := s.held.erase c } where
  held_pid d hd := h.held_pid d (List.mem_of_mem_erase hd)
  pool_pid := h.pool_pid
  stale hne d hd := h.stale hne d (List.mem_of_mem_erase hd)
  current hp := by
    refine ⟨hp, (h.current hp).items, ?_⟩
    change s.pool.pool.length + ((s.held.erase c).filter (·.pid = s.getpid)).length = _
    rw [← List.erase_filter, List.erase_of_not_mem (by simp [hc])]
    exact (h.current hp).slots

/-- What becomes of a connection of another process. -/
theorem release_foreign {s : Process BlockingConnectionPool} {c : Connection} (h : Inv s)
    (hd : ¬ Deadlocked s) (hc : c.pid ≠ s.getpid) :
    (release c).run s = (putNowait none).run (checked s) := by
  have hne : c.pid ≠ (checked s).pool.pid := by
    rwa [h.checked.tidy.pid, checked_getpid]
  unfold release
  rw [EStateM.run_bind, checkpid_run s hd]
  simp [hne]

/-- A call in order loses no slot. -/
theorem step_inv {s : Process BlockingConnectionPool} {i : PoolCall} (h : Inv s)
    (ha : i.Allowed s) (hok : InOrder s i) : Inv (step s i) := by
  cases i with
  | get_connection env => exact getConnection_inv h hok
  | release c => exact (release_inv h ha hok).2
  | disconnect =>
    by_cases hd : Deadlocked s
    · have : step s .disconnect = s := by
        simp [step, call, disconnect, checkpid_run_deadlocked hd, state]
      rw [this]
      exact h
    · have : step s .disconnect = checked s := by
        simp [step, call, disconnect, checkpid_run s hd, state]
      rw [this]
      exact h.checked.inv
  | reset => exact (Kept.mk (tidy_reset hok) h.held_pid).inv
  | fork pid locked =>
    obtain ⟨hpid, hanc⟩ := ha
    have hfresh : ∀ p ∈ s.getpid :: s.ancestors, p ≠ pid := by
      rintro p hp rfl
      exact (List.mem_cons.mp hp).elim hpid hanc
    constructor
    · exact fun c hc => List.mem_cons_of_mem _ (h.held_pid c hc)
    · exact List.mem_cons_of_mem _ h.pool_pid
    · exact fun _ c hc => hfresh c.pid (h.held_pid c hc)
    · exact fun hp => absurd hp (hfresh s.pool.pid h.pool_pid)

/-- Whenever the pool is that of this process, each of its slots is an item of the
queue or a connection of this process that is held. -/
def Conserved (s : Process BlockingConnectionPool) : Prop :=
  s.pool.pid = s.getpid → s.pool.pool.length + s.own.length = s.pool.max_connections

/-- The slots are conserved by the call, and it has not raised if it is a release. -/
def Good (s : Process BlockingConnectionPool) (i : PoolCall) : Prop :=
  Conserved (step s i) ∧ ∀ c, i = .release c → isOk ((call i).run s) = true

theorem Inv.conserved {s : Process BlockingConnectionPool} (h : Inv s) : Conserved s :=
  fun hp => (h.current hp).slots

/-- A call that loses no slot, nor raises where it should not, was in order. -/
theorem inOrder_of_good {s : Process BlockingConnectionPool} {i : PoolCall} (h : Inv s)
    (hg : Good s i) : InOrder s i := by
  cases i with
  | get_connection env =>
    by_contra hno
    obtain ⟨hd, hnext, hmake⟩ : ¬ Deadlocked s ∧ NextIsPlaceholder (checked s) ∧
        ¬ (s.pool.cache = false ∧ env.construct.isOk = true) := by
      simpa only [InOrder, not_or, not_not] using hno
    obtain ⟨rest, hget⟩ : ∃ rest, (checked s).pool.queue_class.get (checked s).pool.pool =
        some (none, rest) := by
      simpa [NextIsPlaceholder] using hnext
    rw [← checked_cache] at hmake
    obtain ⟨e, s₁, hrun, hpool, hheld, hgetpid⟩ :=
      makeConnection_raises (s := dequeued (checked s) rest) hmake
    have hstep : step s (.get_connection env) = s₁ := by
      simp [step, call, getConnection, takeConnection, checkpid_run s hd, getItem_run, hget, hrun,
        state]
    have htidy := h.checked.tidy
    have hslots := hg.1 (by rw [hstep, hpool, hgetpid]; exact htidy.pid)
    rw [hstep, Process.own, hpool, hheld, hgetpid] at hslots
    change rest.length + ((checked s).held.filter (·.pid = (checked s).getpid)).length =
      (checked s).pool.max_connections at hslots
    have hslots' := htidy.slots
    rw [← (QueueClass.get_perm hget).length_eq, List.length_cons] at hslots'
    omega
  | release c =>
    by_contra hpid
    obtain ⟨hconserved, hraise⟩ := hg
    replace hraise := hraise c rfl
    have hinv := h.drop hpid
    by_cases hd : Deadlocked { s with held := s.held.erase c }
    · have hrun : (call (.release c)).run s = .error { cls := .ChildDeadlockedError }
          { s with held := s.held.erase c } := by
        change (release c).run { s with held := s.held.erase c } = _
        unfold release
        rw [EStateM.run_bind, checkpid_run_deadlocked hd]
      rw [hrun] at hraise
      cases hraise
    have hrun : (call (.release c)).run s =
        (putNowait none).run (checked { s with held := s.held.erase c }) :=
      release_foreign hinv hd hpid
    have htidy := hinv.checked.tidy
    unfold step at hconserved
    rw [hrun, putNowait_run] at hconserved hraise
    split at hraise
    · cases hraise
    · rename_i hroom
      rw [if_neg hroom] at hconserved
      generalize checked { s with held := s.held.erase c } = s₁ at htidy hconserved
      have hslots := hconserved htidy.pid
      have hslots' := htidy.slots
      change (s₁.pool.pool ++ [none]).length + (s₁.held.filter (·.pid = s₁.getpid)).length =
        s₁.pool.max_connections at hslots
      rw [List.length_append, List.length_singleton] at hslots
      omega
  | reset =>
    have hslots := hg.1 rfl
    change (List.replicate s.pool.max_connections none).length + s.own.length =
      s.pool.max_connections at hslots
    have hown : s.own = [] := List.eq_nil_of_length_eq_zero (by rw [List.length_replicate] at hslots; omega)
    intro c hc hpid
    have hmem : c ∈ s.own := List.mem_filter.mpr ⟨hc, decide_eq_true hpid⟩
    rw [hown] at hmem
    cases hmem
  | disconnect => trivial
  | fork pid locked => trivial

theorem init_inv (max_connections : Nat) (cache : Bool) (queue_class : QueueClass) (getpid : Nat) :
    Inv (init max_connections cache queue_class getpid) := by
  apply Kept.inv
  constructor
  · constructor <;> simp [init]
  · simp [init]

/-- Every slot is accounted for and no release raises throughout a course of calls just
if every call is in order: where a placeholder is replaced there is no cache and the
constructor does not raise, no connection of another process is given back, and there
is no reset while a connection of this process is held. -/
theorem slots_conserved_iff (max_connections : Nat) (cache : Bool) (queue_class : QueueClass)
    (getpid : Nat) (calls : List PoolCall)
    (h : Each step (fun s i => i.Allowed s) (init max_connections cache queue_class getpid) calls) :
    Each step Good (init max_connections cache queue_class getpid) calls ↔
      Each step InOrder (init max_connections cache queue_class getpid) calls := by
  apply each_good_iff (I := Inv) ?_ ?_ (init_inv _ _ _ _) h
  · intro s i hs ha hok
    have hinv := step_inv hs ha hok
    refine ⟨⟨hinv.conserved, ?_⟩, hinv⟩
    rintro c rfl
    exact (release_inv hs ha hok).1
  · exact fun s i hs _ hg => inOrder_of_good hs hg

/-- With a cache the pool cannot make a connection, and the slot is lost. -/
theorem cached_slot_lost :
    ¬ Each step Good (init 1 true .LifoQueue 1) [.get_connection {}] := by
  rintro ⟨⟨h, -⟩, -⟩
  exact absurd (h (by decide +kernel)) (by decide +kernel)

/-- A connection that cannot be opened gives its slot back. -/
theorem slots_conserved_unopened :
    Each step Good (init 2 false .LifoQueue 1)
      [.get_connection { connect := .error { cls := .ConnectionError } }, .get_connection {},
        .fork 2 false, .disconnect] :=
  (slots_conserved_iff 2 false .LifoQueue 1 _ (by decide +kernel)).mpr
    ⟨.inr (.inr ⟨rfl, rfl⟩), .inr (.inr ⟨rfl, rfl⟩), trivial, trivial, trivial⟩

end BlockingConnectionPool

end RedisPy
