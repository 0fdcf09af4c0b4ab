import RedisPy.Library.Course
import RedisPy.Proofs.KeyInvalidation
import RedisPy.Spec.SharedCache

/-! When no proxy waits for a reply that it has not requested, and leaves none that it has. A
proxy decides twice by the shared cache, whether to send and whether to read, and what the
others do in between can make the decisions differ. -/

namespace RedisPy

namespace SharedCache

/-- The status of the entry of a key. -/
def statusOf (d : DefaultCache) (key : CacheKey) : Option CacheEntryStatus :=
  (d._cache.get? key).map CacheEntry.status

/-- Where `send_command` has returned and `read_response` is next, there is a valid entry, or
exactly one request of this proxy is outstanding. The entry is still there when its status and
its value are asked for. A proxy that waits has requested one reply, and otherwise it owes none. -/
def Matched (d : DefaultCache) (p : Proxy) : Prop :=
  match p.phase with
  | .sent (some key) =>
    statusOf d key = some .VALID ∧ p.owed = 0 ∨ statusOf d key ≠ some .VALID ∧ p.owed = 1
  | .sent none => p.owed = 1
  | .peeking key =>
    statusOf d key = some .VALID ∧ p.owed = 0 ∨ statusOf d key = some .IN_PROGRESS ∧ p.owed = 1
  | .valid key => statusOf d key = some .VALID ∧ p.owed = 0
  | .reading _ => p.owed = 1
  | _ => p.owed = 0

def Orderly (s : Pool) : Prop := ∀ conn, Matched s._cache (s.proxies conn)

/-- `send_command` has found an entry, which has not been read yet. -/
def Proxy.Found (p : Proxy) (key : CacheKey) : Prop :=
  (p.phase = .sent (some key) ∨ p.phase = .peeking key) ∧ p.owed = 0 ∨ p.phase = .valid key

/-- `send_command` has sent a request, and `read_response` has not turned to its reply yet. -/
def Proxy.Asked (p : Proxy) (key : CacheKey) : Prop :=
  (p.phase = .sent (some key) ∨ p.phase = .peeking key) ∧ p.owed ≠ 0

/-- The proxy has found the entry of the key. -/
def Proxy.Needs (p : Proxy) (key : CacheKey) : Prop := p.Found key ∨ p.phase = .peeking key

/-- The entries that an invalidation removes. -/
def Names : Invalidation → CacheKey → Prop
  | none, _ => True
  | some redis_keys, key => key.timesFound redis_keys ≠ 0

/-- What `set` evicts. -/
def evicted (d : DefaultCache) (entry : CacheEntry) : Option CacheKey :=
  if d.isCachable entry.cache_key ∧ d.max_size < (d.touch entry)._cache.items.length then
    (d.touch entry)._cache.items.head?.map CacheEntry.cache_key
  else none

/-- No entry is removed that a proxy has found. -/
def Spared (s : Pool) (key : CacheKey) : Prop := ∀ conn, ¬ (s.proxies conn).Needs key

/-- An invalidation that is handled removes no entry that a proxy has found. -/
def Harmless (s : Pool) (data : Invalidation) : Prop :=
  ∀ d', s._cache.invalidate data = (.ok (), d') → ∀ key, Names data key → Spared s key

/-- What a turn of the proxy of connection `conn` must not meet with. -/
def Allows (s : Pool) (conn : Nat) : Phase → Input → Prop
  -- `send_command` returns without a request: the entry that it found is valid
  | .found key, .runs =>
    ∀ entry, s._cache._cache.get? key = some entry → entry.connection_ref = conn → entry.status = .VALID
  | .draining key _, .quiet => statusOf s._cache key = some .VALID
  -- no reply is read from the connection of another
  | .draining _ connection_ref, .reply _ => (s.proxies connection_ref).owed = 0
  | .draining _ connection_ref, .error => (s.proxies connection_ref).owed = 0
  -- there is no valid entry yet when the request is sent
  | .sending key, .runs => statusOf s._cache key ≠ some .VALID
  -- nothing is removed, replaced or filled in that a proxy has decided by
  | .pending _, .push data => Harmless s data
  | .draining _ _, .push data => Harmless s data
  | .reading _, .push data => Harmless s data
  | .missed key, .runs =>
    (s._cache.isCachable key = true → ∀ other, ¬ (s.proxies other).Found key) ∧
      ∀ key', evicted s._cache (inProgress key conn) = some key' → Spared s key'
  | .answered (some key) .none, .runs => Spared s key
  | .marking entry response, .runs =>
    (s._cache.isCachable entry.cache_key = true →
        evicted s._cache (filled entry response) ≠ some entry.cache_key →
          ∀ other, ¬ (s.proxies other).Asked entry.cache_key) ∧
      ∀ key, evicted s._cache (filled entry response) = some key → Spared s key
  | _, _ => True

def Meets (s : Pool) (i : Nat × Input) : Prop := Allows s i.1 (s.proxies i.1).phase i.2

/-! ### The cache -/

variable {d d' : DefaultCache} {key key' : CacheKey} {entry : CacheEntry}

theorem statusOf_touch (d : DefaultCache) (entry : CacheEntry) (key : CacheKey) :
    statusOf (d.touch entry) key = if key = entry.cache_key then some entry.status else statusOf d key := by
  rw [statusOf, DefaultCache.touch, Keyed.get?_put]
  split
  · rfl
  · rename_i hne
    rw [Keyed.get?_erase_ne _ hne, statusOf]

theorem statusOf_get (d : DefaultCache) (key key' : CacheKey) :
    statusOf (d.get key').2 key = statusOf d key := by
  rw [DefaultCache.get]
  cases h : d._cache.get? key' with
  | none => rfl
  | some entry =>
    have hkey := Keyed.key_of_get? h
    change statusOf (d.touch entry) key = statusOf d key
    rw [statusOf_touch]
    split
    · rename_i heq
      rw [heq, hkey, statusOf, h]
      rfl
    · rfl

theorem statusOf_delete (d : DefaultCache) (key key' : CacheKey) :
    statusOf (d.deleteByCacheKey key') key = if key = key' then none else statusOf d key := by
  rw [statusOf, DefaultCache.deleteByCacheKey]
  split
  · rename_i heq
    rw [heq, Keyed.get?_erase_self]
    rfl
  · rename_i hne
    rw [Keyed.get?_erase_ne _ hne, statusOf]

theorem statusOf_evictNext (d : DefaultCache) (key : CacheKey) :
    statusOf d.evictNext key =
      if d._cache.items.head?.map CacheEntry.cache_key = some key then none else statusOf d key := by
  rw [DefaultCache.evictNext]
  cases h : d._cache.items with
  | nil => simp
  | cons entry l =>
    have hdelete := statusOf_delete d key entry.cache_key
    simp only [List.head?_cons, Option.map_some, Option.some.injEq, eq_comm (a := entry.cache_key)]
    exact hdelete

/-- `set` evicts an entry, sets its own and leaves the others. -/
theorem statusOf_set (d : DefaultCache) (entry : CacheEntry) (key : CacheKey) :
    statusOf (d.set entry) key =
      if evicted d entry = some key then none
      else if d.isCachable entry.cache_key = true ∧ key = entry.cache_key then some entry.status
      else statusOf d key := by
  by_cases hc : d.isCachable entry.cache_key = true
  · by_cases hsize : d.max_size < (d.touch entry)._cache.items.length
    · have hset : d.set entry = (d.touch entry).evictNext := by
        rw [DefaultCache.set, if_pos hc]
        exact if_pos hsize
      have hevicted : evicted d entry = (d.touch entry)._cache.items.head?.map CacheEntry.cache_key :=
        if_pos ⟨hc, hsize⟩
      simp only [hset, statusOf_evictNext, statusOf_touch, hevicted, hc, true_and]
    · have hset : d.set entry = d.touch entry := by
        rw [DefaultCache.set, if_pos hc]
        exact if_neg hsize
      have hevicted : evicted d entry = none := if_neg fun h => hsize h.2
      simp [hset, statusOf_touch, hevicted, hc]
  · have hset : d.set entry = d := by rw [DefaultCache.set, if_neg hc]
    have hevicted : evicted d entry = none := if_neg fun h => hc h.1
    simp [hset, hevicted, hc]

/-- An invalidation removes what it names, -/
theorem get?_invalidate {data : Invalidation} (h : d.invalidate data = (.ok (), d')) (key : CacheKey) :
    (Names data key ∧ d'._cache.get? key = none) ∨
      (¬ Names data key ∧ d'._cache.get? key = d._cache.get? key) := by
  cases data with
  | none =>
    cases h
    exact .inl ⟨trivial, rfl⟩
  | some redis_keys =>
    obtain ⟨hr, rfl⟩ := Prod.mk.inj h
    change (RedisPy.deleteByRedisKeys d._cache redis_keys).1.map (fun _ => ()) = .ok () at hr
    cases hok : (RedisPy.deleteByRedisKeys d._cache redis_keys).1 with
    | error e =>
      rw [hok] at hr
      cases hr
    | ok r =>
      have hget := get?_deleteByRedisKeys hok key
      by_cases hnames : key.timesFound redis_keys ≠ 0
      · rw [if_pos hnames] at hget
        exact .inl ⟨hnames, hget⟩
      · rw [if_neg hnames] at hget
        exact .inr ⟨hnames, hget⟩

/-- and nothing else. -/
theorem statusOf_invalidate {data : Invalidation} (h : d.invalidate data = (.ok (), d')) (key : CacheKey) :
    (Names data key ∧ statusOf d' key = none) ∨ (¬ Names data key ∧ statusOf d' key = statusOf d key) := by
  rcases get?_invalidate h key with ⟨hnames, hnone⟩ | ⟨hnot, hsame⟩
  · exact .inl ⟨hnames, by rw [statusOf, hnone]; rfl⟩
  · exact .inr ⟨hnot, by rw [statusOf, hsame, statusOf]⟩

/-! ### A turn of one proxy -/

/-- What becomes of an entry while a proxy has decided by it. -/
inductive Change (p : Proxy) (key : CacheKey) (before : Option CacheEntryStatus) :
    Option CacheEntryStatus → Prop where
  | same : Change p key before before
  | removed (h : ¬ p.Needs key) : Change p key before none
  | renewed (h : ¬ p.Found key) : Change p key before (some .IN_PROGRESS)
  | filled (h : ¬ p.Asked key) : Change p key before (some .VALID)

theorem Matched.changed {p : Proxy} (h : Matched d p)
    (hc : ∀ key, Change p key (statusOf d key) (statusOf d' key)) : Matched d' p := by
  obtain ⟨phase, owed⟩ := p
  cases phase with
  | sent key =>
    cases key with
    | none => exact h
    | some key =>
      have hkey := hc key
      simp only [Matched] at h ⊢
      generalize statusOf d' key = after at hkey ⊢
      cases hkey with
      | same => exact h
      | removed hn => simp_all [Proxy.Needs, Proxy.Found]
      | renewed hn => simp_all [Proxy.Found]
      | filled hn => simp_all [Proxy.Asked]
  | peeking key =>
    have hkey := hc key
    simp only [Matched] at h ⊢
    generalize statusOf d' key = after at hkey ⊢
    cases hkey with
    | same => exact h
    | removed hn => simp_all [Proxy.Needs, Proxy.Found]
    | renewed hn => simp_all [Proxy.Found]
    | filled hn => simp_all [Proxy.Asked]
  | valid key =>
    have hkey := hc key
    simp only [Matched] at h ⊢
    generalize statusOf d' key = after at hkey ⊢
    cases hkey with
    | same => exact h
    | removed hn => simp_all [Proxy.Needs, Proxy.Found]
    | renewed hn => simp_all [Proxy.Found]
    | filled hn => simp_all
  | _ => exact h

variable {conn : Nat} {phase : Phase} {input : Input} {t : Turn} {s : Pool}

theorem invalidation_some {data : Invalidation} (h : invalidation d phase data = some t) :
    d.invalidate data = (.ok (), t._cache) ∧ t = { _cache := t._cache, phase := phase } := by
  unfold invalidation at h
  split at h
  · rename_i hd
    cases h
    exact ⟨hd, rfl⟩
  · cases h

theorem statusOf_of_get {key' : CacheKey} {r : Option CacheEntry} (h : d.get key' = (r, d')) (key : CacheKey) :
    statusOf d' key = statusOf d key := by
  rw [← statusOf_get d key key', h]

theorem get?_of_get {r : Option CacheEntry} (h : d.get key = (r, d')) : d._cache.get? key = r := by
  rw [DefaultCache.get] at h
  split at h
  · rename_i hget
    rw [hget]
    exact (Prod.mk.inj h).1
  · rename_i hget
    rw [hget]
    exact (Prod.mk.inj h).1

theorem status_of_get {r : Option CacheEntry} (h : d.get key = (r, d')) :
    statusOf d' key = r.map CacheEntry.status := by
  rw [statusOf_of_get h, statusOf, get?_of_get h]

theorem startSending_cache (d : DefaultCache) (command : Command) :
    (startSending d command)._cache = d := by
  unfold startSending
  split
  · split <;> rfl
  · rfl

theorem startSending_replied (d : DefaultCache) (command : Command) :
    (startSending d command).replied = none := by
  unfold startSending
  split
  · split <;> rfl
  · rfl

/-- What a turn makes of the cache. -/
theorem turn_cache (h : turn d conn phase input = some t) :
    (∀ key, statusOf t._cache key = statusOf d key) ∨
      (∃ data, input = .push data ∧ d.invalidate data = (.ok (), t._cache)) ∨
      (∃ key, phase = .missed key ∧ input = .runs ∧ t._cache = d.set (inProgress key conn)) ∨
      (∃ key, phase = .answered (some key) .none ∧ input = .runs ∧ t._cache = d.deleteByCacheKey key) ∨
      ∃ entry response, phase = .marking entry response ∧ input = .runs ∧
        t._cache = d.set (filled entry response) := by
  unfold turn at h
  split at h
  -- the turns that leave the cache or only look an entry up, and the invalidations
  all_goals try (cases h; exact .inl fun _ => rfl)
  all_goals try exact .inr (.inl ⟨_, rfl, (invalidation_some h).1⟩)
  all_goals try (split at h <;> (cases h; exact .inl (statusOf_of_get (by assumption))))
  case h_5 command =>
    cases h
    exact .inl fun key => by rw [startSending_cache]
  case h_12 key =>
    cases h
    exact .inr (.inr (.inl ⟨key, rfl, rfl, rfl⟩))
  case h_17 key' =>
    cases h
    exact .inl fun key => statusOf_get d key key'
  case h_22 key =>
    cases h
    exact .inr (.inr (.inr (.inl ⟨key, rfl, rfl, rfl⟩)))
  case h_24 entry response =>
    cases h
    exact .inr (.inr (.inr (.inr ⟨entry, response, rfl, rfl, rfl⟩)))
  case h_25 => cases h

/-- A reply is read from the connection of the proxy, or while another's is drained. -/
theorem turn_replied (h : turn d conn phase input = some t) {other : Nat} (hr : t.replied = some other) :
    other = conn ∨ ∃ key, phase = .draining key other ∧ (input = .error ∨ ∃ v, input = .reply v) := by
  unfold turn at h
  split at h
  all_goals try (cases h; cases hr; done)
  all_goals try (cases h; cases hr; exact .inl rfl)
  all_goals try (split at h <;> (cases h; cases hr))
  all_goals try (rw [(invalidation_some h).2] at hr; cases hr)
  case h_5 =>
    cases h
    rw [startSending_replied] at hr
    cases hr
  case h_9 key _ v =>
    cases h
    cases hr
    exact .inr ⟨key, rfl, .inr ⟨v, rfl⟩⟩
  case h_10 key _ =>
    cases h
    cases hr
    exact .inr ⟨key, rfl, .inl rfl⟩
  case h_25 => cases h

/-- The proxy that takes the turn. -/
theorem turn_matched {owed : Nat} (hm : Allows s conn phase input) (hp : Matched s._cache ⟨phase, owed⟩)
    (h : turn s._cache conn phase input = some t) (hr : t.replied = some conn → owed ≠ 0) :
    Matched t._cache ⟨t.phase, settled t conn conn owed⟩ := by
  unfold turn at h
  split at h
  -- the turns that leave the cache, after which nothing is decided by it
  all_goals try (cases h; simp_all [Matched, settled, Allows]; done)
  -- the invalidations
  case h_2 =>
    rw [(invalidation_some h).2]
    exact hp
  case h_8 =>
    rw [(invalidation_some h).2]
    exact hp
  case h_18 =>
    rw [(invalidation_some h).2]
    exact hp
  -- the command is cached or not
  case h_5 =>
    cases h
    unfold startSending
    split
    · split <;> exact hp
    · have hp : owed = 0 := hp
      simp [Matched, settled, hp]
  -- the entries that are looked up
  case h_6 => split at h <;> (cases h; exact hp)
  case h_7 key =>
    split at h
    · cases h
      exact hp
    · rename_i entry d' hget
      cases h
      have hp : owed = 0 := hp
      split
      · simp [Matched, settled, hp]
      · rename_i hconn
        have hvalid := hm entry (get?_of_get hget) (not_not.mp hconn)
        have hstatus := status_of_get hget
        simp [Matched, settled, hp, hstatus, hvalid]
  case h_15 key =>
    split at h
    · rename_i d' hget
      cases h
      have hstatus := (statusOf_of_get hget key).symm.trans (status_of_get hget)
      simp_all [Matched, settled]
    · rename_i entry d' hget
      cases h
      have hstatus := (statusOf_of_get hget key).symm.trans (status_of_get hget)
      have hafter := status_of_get hget
      cases hs : entry.status <;> simp_all [Matched, settled]
  case h_16 key =>
    split at h
    · rename_i d' hget
      cases h
      have hstatus := (statusOf_of_get hget key).symm.trans (status_of_get hget)
      simp_all [Matched]
    · rename_i entry d' hget
      cases h
      have hstatus := (statusOf_of_get hget key).symm.trans (status_of_get hget)
      have hafter := status_of_get hget
      cases hs : entry.status <;> simp_all [Matched, settled]
  case h_23 => split at h <;> (cases h; exact hp)
  case h_25 => cases h

/-- Where an invalidation is read. -/
theorem turn_push {data : Invalidation} (h : turn d conn phase (.push data) = some t) :
    (∃ command, phase = .pending command) ∨ (∃ key connection_ref, phase = .draining key connection_ref) ∨
      ∃ key, phase = .reading key := by
  cases phase with
  | pending command => exact .inl ⟨command, rfl⟩
  | draining key connection_ref => exact .inr (.inl ⟨key, connection_ref, rfl⟩)
  | reading key => exact .inr (.inr ⟨key, rfl⟩)
  | sent key => cases key <;> cases h
  | answered key response =>
    cases key with
    | none => cases h
    | some key => cases response <;> cases h
  | _ => cases h

theorem allows_push {data : Invalidation} (hm : Allows s conn phase (.push data))
    (h : turn s._cache conn phase (.push data) = some t) : Harmless s data := by
  rcases turn_push h with ⟨_, rfl⟩ | ⟨_, _, rfl⟩ | ⟨_, rfl⟩ <;> exact hm

theorem allows_draining {connection_ref : Nat} (hm : Allows s conn phase input)
    (hphase : phase = .draining key connection_ref)
    (hinput : input = .error ∨ ∃ v, input = .reply v) : (s.proxies connection_ref).owed = 0 := by
  subst hphase
  obtain rfl | ⟨v, rfl⟩ := hinput
  · exact hm
  · exact hm

theorem turn_changes (hm : Allows s conn phase input) (h : turn s._cache conn phase input = some t)
    (other : Nat) (key : CacheKey) :
    Change (s.proxies other) key (statusOf s._cache key) (statusOf t._cache key) := by
  rcases turn_cache h with hsame | ⟨data, rfl, hd⟩ | ⟨key', rfl, rfl, hd⟩ | ⟨key', rfl, rfl, hd⟩ |
    ⟨entry, response, rfl, rfl, hd⟩
  · rw [hsame key]
    exact .same
  · rcases statusOf_invalidate hd key with ⟨hnames, hnone⟩ | ⟨-, hsame⟩
    · rw [hnone]
      exact .removed (allows_push hm h _ hd key hnames other)
    · rw [hsame]
      exact .same
  · rw [hd, statusOf_set]
    split
    · rename_i hev
      exact .removed (hm.2 key hev other)
    · split
      · rename_i hkey
        obtain ⟨hc, rfl⟩ := hkey
        exact .renewed (hm.1 hc other)
      · exact .same
  · rw [hd, statusOf_delete]
    split
    · rename_i heq
      exact .removed (heq ▸ hm other)
    · exact .same
  · rw [hd, statusOf_set]
    split
    · rename_i hev
      exact .removed (hm.2 key hev other)
    · split
      · rename_i hev hkey
        obtain ⟨hc, rfl⟩ := hkey
        exact .filled (hm.1 hc hev other)
      · exact .same

theorem settled_other {other owed : Nat} (hne : other ≠ conn) (hr : t.replied ≠ some other) :
    settled t conn other owed = owed := by
  simp [settled, hne, hr]

/-- The proxies after a turn that is taken. -/
theorem step_of_turn (h : turn s._cache conn (s.proxies conn).phase input = some t)
    (hr : ∀ other, t.replied = some other → (s.proxies other).owed ≠ 0) :
    step s (conn, input) =
      { _cache := t._cache
        proxies := fun other =>
          { phase := if other = conn then t.phase else (s.proxies other).phase
            owed := settled t conn other (s.proxies other).owed } } := by
  have hguard : (t.replied.any fun other => (s.proxies other).owed == 0) = false := by
    cases hreplied : t.replied with
    | none => rfl
    | some other => simpa using hr other hreplied
  simp only [step, h, hguard]
  rfl

/-- A turn that is not taken. -/
theorem step_of_none (h : turn s._cache conn (s.proxies conn).phase input = none) :
    step s (conn, input) = s := by
  simp only [step, h]

theorem step_of_unowed (h : turn s._cache conn (s.proxies conn).phase input = some t) {other : Nat}
    (hr : t.replied = some other) (howed : (s.proxies other).owed = 0) : step s (conn, input) = s := by
  simp [step, h, hr, howed]

theorem step_orderly (hs : Orderly s) (i : Nat × Input) (hm : Meets s i) : Orderly (step s i) := by
  obtain ⟨conn, input⟩ := i
  cases h : turn s._cache conn (s.proxies conn).phase input with
  | none => rwa [step_of_none h]
  | some t =>
    by_cases hread : ∀ other, t.replied = some other → (s.proxies other).owed ≠ 0
    · rw [step_of_turn h hread]
      intro other
      by_cases hown : other = conn
      · subst hown
        simp only [if_pos]
        exact turn_matched hm (hs _) h (hread _)
      · have hr : t.replied ≠ some other := by
          intro hr
          rcases turn_replied h hr with rfl | ⟨key, hphase, hinput⟩
          · exact hown rfl
          · exact hread other hr (allows_draining hm hphase hinput)
        simp only [if_neg hown, settled_other hown hr]
        exact (hs other).changed (turn_changes hm h other)
    · push Not at hread
      obtain ⟨other, hr, howed⟩ := hread
      rwa [step_of_unowed h hr howed]

/-! ### What goes wrong -/

theorem Matched.not_needs {p : Proxy} (h : Matched d p) (hd : statusOf d key = none) : ¬ p.Needs key := by
  obtain ⟨phase, owed⟩ := p
  rintro ((⟨rfl | rfl, rfl⟩ | rfl) | rfl) <;> simp [Matched, hd] at h

theorem Matched.not_found {p : Proxy} (h : Matched d p) (hd : statusOf d key ≠ some .VALID) :
    ¬ p.Found key := by
  obtain ⟨phase, owed⟩ := p
  rintro (⟨rfl | rfl, rfl⟩ | rfl) <;> simp [Matched, hd] at h

theorem Matched.not_asked {p : Proxy} (h : Matched d p) (hd : statusOf d key = some .VALID) :
    ¬ p.Asked key := by
  obtain ⟨phase, owed⟩ := p
  rintro ⟨rfl | rfl, howed⟩ <;> simp_all [Matched]

/-- A reply cannot be missing where one is owed. -/
theorem Matched.owed_of_less {p : Proxy} (h : Matched d p) {owed : Nat} (h' : Matched d ⟨p.phase, owed⟩)
    (hless : owed < p.owed) : False := by
  obtain ⟨phase, owed'⟩ := p
  cases phase with
  | sent key =>
    cases key with
    | none => simp_all [Matched]
    | some key =>
      rcases h with ⟨hv, ho⟩ | ⟨hv, ho⟩ <;> rcases h' with ⟨hv', ho'⟩ | ⟨hv', ho'⟩ <;> simp_all
  | peeking key =>
    rcases h with ⟨hv, ho⟩ | ⟨hv, ho⟩ <;> rcases h' with ⟨hv', ho'⟩ | ⟨hv', ho'⟩ <;> simp_all
  | _ => simp_all [Matched]

theorem other_matched (h : turn s._cache conn (s.proxies conn).phase input = some t)
    (hr : t.replied = none) (hs' : Orderly (step s (conn, input))) {other : Nat} (hne : other ≠ conn) :
    Matched t._cache (s.proxies other) := by
  have hnone (other : Nat) : t.replied ≠ some other := by simp [hr]
  have hother := hs' other
  rw [step_of_turn h fun other hr => absurd hr (hnone other)] at hother
  simp only [if_neg hne, settled_other hne (hnone other)] at hother
  exact hother

theorem own_matched (h : turn s._cache conn (s.proxies conn).phase input = some t)
    (hr : t.replied = none) (hs' : Orderly (step s (conn, input))) :
    Matched t._cache ⟨t.phase, settled t conn conn (s.proxies conn).owed⟩ := by
  have hown := hs' conn
  rw [step_of_turn h (by simp [hr])] at hown
  simpa only [if_pos] using hown

/-- A proxy that takes a turn has not returned from `send_command`. -/
theorem spared_of_matched (h : turn s._cache conn (s.proxies conn).phase input = some t)
    (hr : t.replied = none) (hs' : Orderly (step s (conn, input)))
    (hown : ¬ (s.proxies conn).Needs key) (hd : statusOf t._cache key = none) : Spared s key := by
  intro other
  by_cases hne : other = conn
  · rw [hne]
    exact hown
  · exact (other_matched h hr hs' hne).not_needs hd

theorem get_of_get? (h : d._cache.get? key = some entry) : d.get key = (some entry, d.touch entry) := by
  rw [DefaultCache.get, h]

/-- While another's connection is drained. -/
theorem drained_owed {connection_ref : Nat} (hs : Orderly s)
    (h : turn s._cache conn (s.proxies conn).phase input = some t)
    (hcache : t._cache = s._cache) (hsends : t.sends = false) (hr : t.replied = some connection_ref)
    (hown : (s.proxies conn).owed = 0) (hs' : Orderly (step s (conn, input))) :
    (s.proxies connection_ref).owed = 0 := by
  by_contra howed
  by_cases hne : connection_ref = conn
  · exact howed (hne ▸ hown)
  · have hother := hs' connection_ref
    rw [step_of_turn h fun other hother => by rwa [Option.some.inj (hr.symm.trans hother)] at howed] at hother
    simp only [if_neg hne, hcache] at hother
    refine (hs connection_ref).owed_of_less hother ?_
    simp [settled, hsends, hr]
    omega

theorem found_valid (hs : Orderly s) (hphase : (s.proxies conn).phase = .found key)
    (hs' : Orderly (step s (conn, .runs))) : Allows s conn (.found key) .runs := by
  intro entry hget href
  have hown := hs conn
  have h : turn s._cache conn (s.proxies conn).phase .runs =
      some { _cache := s._cache.touch entry, phase := .sent (some key) } := by
    rw [hphase]
    delta turn
    simp [get_of_get? hget, href]
  have hmatched := own_matched h rfl hs'
  have hstatus : statusOf (s._cache.touch entry) key = some entry.status := by
    rw [statusOf_touch, if_pos (Keyed.key_of_get? hget).symm]
  rw [Matched, hphase] at hown
  simpa [Matched, settled, hown, hstatus] using hmatched

theorem drained_valid {connection_ref : Nat} (hs : Orderly s)
    (hphase : (s.proxies conn).phase = .draining key connection_ref)
    (hs' : Orderly (step s (conn, .quiet))) : statusOf s._cache key = some .VALID := by
  have hown := hs conn
  have h : turn s._cache conn (s.proxies conn).phase .quiet =
      some { _cache := s._cache, phase := .sent (some key) } := by rw [hphase]; rfl
  have hmatched := own_matched h rfl hs'
  rw [Matched, hphase] at hown
  simpa [Matched, settled, hown] using hmatched

theorem sending_unfilled (hs : Orderly s) (hphase : (s.proxies conn).phase = .sending key)
    (hs' : Orderly (step s (conn, .runs))) : statusOf s._cache key ≠ some .VALID := by
  have hown := hs conn
  have h : turn s._cache conn (s.proxies conn).phase .runs =
      some { _cache := s._cache, phase := .sent (some key), sends := true } := by rw [hphase]; rfl
  have hmatched := own_matched h rfl hs'
  rw [Matched, hphase] at hown
  simpa [Matched, settled, hown] using hmatched

theorem push_harmless {data : Invalidation} (hown : ∀ key, ¬ (s.proxies conn).Needs key)
    (h : turn s._cache conn (s.proxies conn).phase (.push data) =
      invalidation s._cache (s.proxies conn).phase data)
    (hs' : Orderly (step s (conn, .push data))) : Harmless s data := by
  intro d' hd key hnames
  rw [invalidation, hd] at h
  refine spared_of_matched h rfl hs' (hown key) ?_
  rcases statusOf_invalidate hd key with ⟨-, hnone⟩ | ⟨hnot, -⟩
  · exact hnone
  · exact absurd hnames hnot

theorem missed_allows (hphase : (s.proxies conn).phase = .missed key)
    (hs' : Orderly (step s (conn, .runs))) : Allows s conn (.missed key) .runs := by
  have h : turn s._cache conn (s.proxies conn).phase .runs =
      some { _cache := s._cache.set (inProgress key conn), phase := .sending key } := by
    rw [hphase]
    rfl
  constructor
  · intro hc other
    by_cases hne : other = conn
    · simp [hne, Proxy.Found, hphase]
    · refine (other_matched h rfl hs' hne).not_found ?_
      have hkey : s._cache.isCachable (inProgress key conn).cache_key = true ∧
          key = (inProgress key conn).cache_key := ⟨hc, rfl⟩
      rw [statusOf_set, if_pos hkey]
      split <;> simp [inProgress]
  · intro key' hev
    refine spared_of_matched h rfl hs' (by simp [Proxy.Needs, Proxy.Found, hphase]) ?_
    rw [statusOf_set, if_pos hev]

theorem answered_spares (hphase : (s.proxies conn).phase = .answered (some key) .none)
    (hs' : Orderly (step s (conn, .runs))) : Spared s key := by
  have h : turn s._cache conn (s.proxies conn).phase .runs =
      some { _cache := s._cache.deleteByCacheKey key, phase := .idle } := by rw [hphase]; rfl
  refine spared_of_matched h rfl hs' (by simp [Proxy.Needs, Proxy.Found, hphase]) ?_
  rw [statusOf_delete, if_pos rfl]

theorem marking_allows {response : PyVal} (hphase : (s.proxies conn).phase = .marking entry response)
    (hs' : Orderly (step s (conn, .runs))) : Allows s conn (.marking entry response) .runs := by
  have h : turn s._cache conn (s.proxies conn).phase .runs =
      some { _cache := s._cache.set (filled entry response), phase := .idle } := by rw [hphase]; rfl
  constructor
  · intro hc hev other
    by_cases hne : other = conn
    · simp [hne, Proxy.Asked, hphase]
    · refine (other_matched h rfl hs' hne).not_asked ?_
      rw [statusOf_set, if_neg hev, if_pos ⟨hc, rfl⟩]
      rfl
  · intro key hev
    refine spared_of_matched h rfl hs' (by simp [Proxy.Needs, Proxy.Found, hphase]) ?_
    rw [statusOf_set, if_pos hev]

/-- Where all is in order after a turn, the turn has met with nothing. -/
theorem meets_of_orderly (hs : Orderly s) (i : Nat × Input) (hs' : Orderly (step s i)) : Meets s i := by
  obtain ⟨conn, input⟩ := i
  have hown := hs conn
  rw [Meets]
  cases hphase : (s.proxies conn).phase with
  | pending command =>
    cases input with
    | push data =>
      refine push_harmless ?_ (by rw [hphase]; rfl) hs'
      simp [Proxy.Needs, Proxy.Found, hphase]
    | _ => trivial
  | found key =>
    cases input with
    | runs => exact found_valid hs hphase hs'
    | _ => trivial
  | draining key connection_ref =>
    have howed : (s.proxies conn).owed = 0 := by rwa [Matched, hphase] at hown
    cases input with
    | push data =>
      refine push_harmless ?_ (by rw [hphase]; rfl) hs'
      simp [Proxy.Needs, Proxy.Found, hphase]
    | quiet => exact drained_valid hs hphase hs'
    | reply v => exact drained_owed hs (by rw [hphase]; rfl) rfl rfl rfl howed hs'
    | error => exact drained_owed hs (by rw [hphase]; rfl) rfl rfl rfl howed hs'
    | _ => trivial
  | missed key =>
    cases input with
    | runs => exact missed_allows hphase hs'
    | _ => trivial
  | sending key =>
    cases input with
    | runs => exact sending_unfilled hs hphase hs'
    | _ => trivial
  | reading key =>
    cases input with
    | push data =>
      refine push_harmless ?_ (by rw [hphase]; rfl) hs'
      simp [Proxy.Needs, Proxy.Found, hphase]
    | _ => trivial
  | answered key response =>
    cases input with
    | runs =>
      cases key with
      | none => trivial
      | some key =>
        cases response with
        | none => exact answered_spares hphase hs'
        | _ => trivial
    | _ => cases key <;> cases response <;> trivial
  | marking entry response =>
    cases input with
    | runs => exact marking_allows hphase hs'
    | _ => trivial
  | sent key => cases key <;> trivial
  | _ => trivial

/-- Whatever the order of the turns is, the proxies are in order after each of them exactly when
no turn meets with what a proxy has decided by. -/
theorem orderly_iff (cache : DefaultCache) (turns : List (Nat × Input)) :
    Course.Each step (fun s i => Orderly (step s i)) { _cache := cache } turns ↔
      Course.Each step Meets { _cache := cache } turns := by
  have hinit : Orderly { _cache := cache } := fun _ => rfl
  refine Course.each_good_iff (fun s i hs _ hm => ?_) (fun s i hs _ hs' => meets_of_orderly hs i hs') hinit
    (Course.Each.trivial _ turns)
  exact ⟨step_orderly hs i hm, step_orderly hs i hm⟩

/-- An empty cache for `GET`. -/
def emptyCache : DefaultCache where
  _cache := ∅
  max_size := 10000
  allow_list := ["GET"]

/-- Two proxies send `GET a`: the first misses and sends, the second finds the entry that is in
progress. -/
def sharedMiss : List (Nat × Input) :=
  [(0, .send_command ⟨"GET", some [.str "a"]⟩), (0, .quiet), (0, .runs), (0, .runs), (0, .runs),
    (1, .send_command ⟨"GET", some [.str "a"]⟩), (1, .quiet), (1, .runs), (1, .runs), (1, .quiet)]

/-- The second is about to read a reply that it has not requested. -/
theorem sharedMiss_not_orderly :
    ¬ Course.Each step (fun s i => Orderly (step s i)) { _cache := emptyCache } sharedMiss := by
  rintro ⟨-, -, -, -, -, -, -, -, -, h, -⟩
  rcases h 1 with ⟨hvalid, -⟩ | ⟨-, howed⟩
  · cases hvalid
  · cases howed

end SharedCache

end RedisPy
