import RedisPy.Spec.CacheEviction

/-! The cache refines the bounded map of the entries used last. Each method is told by what
it makes of the list of entries; the list then stays in the order of the map's times. -/

namespace RedisPy

namespace CacheOperation

/-- The items of the cache, its configuration left as it was. -/
structure Holds (d : DefaultCache) (l : List CacheEntry) (d' : DefaultCache) : Prop where
  items : d'._cache.items = l
  max_size : d'.max_size = d.max_size
  allow_list : d'.allow_list = d.allow_list

variable {d d' : DefaultCache}

/-- The entries with one moved to the end, or put there. -/
def latest (entry : CacheEntry) (l : List CacheEntry) : List CacheEntry :=
  l.filter (fun e => e.cache_key ≠ entry.cache_key) ++ [entry]

theorem items_touch (entry : CacheEntry) (d : DefaultCache) :
    (d.touch entry)._cache.items = latest entry d._cache.items := by
  refine Keyed.items_put_of_new ?_
  rw [Keyed.mem_keys_erase]
  exact fun h => h.2 rfl

theorem items_erase_head {e : CacheEntry} {l : List CacheEntry} (h : d._cache.items = e :: l) :
    (d._cache.erase e.cache_key).items = l := by
  have hnodup := d._cache.nodup
  rw [h, List.map_cons, List.nodup_cons] at hnodup
  change d._cache.items.filter (fun a => a.cache_key ≠ e.cache_key) = l
  rw [h, List.filter_cons_of_neg (by simp), List.filter_eq_self]
  intro a ha
  have hne : a.cache_key ≠ e.cache_key := fun he => hnodup.1 (he ▸ List.mem_map_of_mem ha)
  simpa using hne

theorem touch_run {key : CacheKey} {entry : CacheEntry} (h : d._cache.get? key = some entry) :
    (LRUPolicy.touch key).run d = .ok () (d.touch entry) := by
  simp only [LRUPolicy.touch, EStateM.run_bind, EStateM.run_get, h]
  rfl

theorem evictNext_run {e : CacheEntry} {l : List CacheEntry} (h : d._cache.items = e :: l) :
    LRUPolicy.evictNext.run d =
      .ok e.cache_key { d with _cache := d._cache.erase e.cache_key } := by
  simp only [LRUPolicy.evictNext, EStateM.run_bind, EStateM.run_get, h]
  rfl

theorem evictNext_run_nil (h : d._cache.items = []) :
    LRUPolicy.evictNext.run d = .error { cls := .KeyError, msg := "dictionary is empty" } d := by
  simp only [LRUPolicy.evictNext, EStateM.run_bind, EStateM.run_get, h]
  rfl

/-- An eviction drops the first entry, if there is one. -/
theorem holds_evictNext (d : DefaultCache) :
    Holds d (d._cache.items.drop 1) (after LRUPolicy.evictNext d) := by
  rw [after]
  cases h : d._cache.items with
  | nil =>
    rw [evictNext_run_nil h]
    exact ⟨h, rfl, rfl⟩
  | cons e l =>
    rw [evictNext_run h]
    exact ⟨items_erase_head h, rfl, rfl⟩

theorem holds_discard {l : List CacheEntry} (h : Holds d l (after LRUPolicy.evictNext d')) :
    Holds d l (after (do discard LRUPolicy.evictNext; pure true : CacheM Bool) d') := by
  have hrun : (do discard LRUPolicy.evictNext; pure true : CacheM Bool).run d' =
      match LRUPolicy.evictNext.run d' with
      | .ok _ s => .ok true s
      | .error e s => .error e s := by
    change EStateM.run ((fun _ => ()) <$> LRUPolicy.evictNext >>= fun _ => pure true) d' = _
    rw [EStateM.run_bind, Raising.run_map]
    cases LRUPolicy.evictNext.run d' <;> rfl
  rw [after] at h ⊢
  rw [hrun]
  cases hev : LRUPolicy.evictNext.run d' with
  | ok key s => rwa [hev] at h
  | error e s => rwa [hev] at h

theorem popMany_run (n : Nat) (h : n ≤ d._cache.items.length) :
    ∃ popped d', (LRUPolicy.popMany n).run d = .ok popped d' ∧
      Holds d (d._cache.items.drop n) d' := by
  induction n generalizing d with
  | zero => exact ⟨[], d, rfl, rfl, rfl, rfl⟩
  | succ n ih =>
    cases hl : d._cache.items with
    | nil => simp [hl] at h
    | cons e l =>
      have hnext := items_erase_head hl
      obtain ⟨popped, d', hrun, hitems, hmax, hallow⟩ :=
        ih (d := { d with _cache := d._cache.erase e.cache_key }) (by
          rw [hl, List.length_cons] at h
          rw [hnext]
          omega)
      refine ⟨e.cache_key :: popped, d', ?_, ?_, hmax, hallow⟩
      · rw [LRUPolicy.popMany, EStateM.run_bind, evictNext_run hl]
        simp only [EStateM.run_bind, hrun]
        rfl
      · rw [hitems, hnext, List.drop_succ_cons]

theorem holds_evictMany (count : Int) (d : DefaultCache) :
    Holds d (if count > d._cache.items.length then d._cache.items
      else d._cache.items.drop count.toNat) (after (LRUPolicy.evictMany count) d) := by
  have hrun : (LRUPolicy.evictMany count).run d =
      (if count > d._cache.items.length then
        throw { cls := .ValueError, msg := "Evictions count is above cache size" }
      else LRUPolicy.popMany count.toNat : CacheM (List CacheKey)).run d := rfl
  rw [after, hrun]
  split
  · exact ⟨rfl, rfl, rfl⟩
  · obtain ⟨popped, d', hpop, hd'⟩ := popMany_run (d := d) count.toNat (by omega)
    rw [hpop]
    exact hd'

/-- The cache after `self._cache[entry.cache_key] = entry`. -/
def stored (entry : CacheEntry) (d : DefaultCache) : DefaultCache :=
  { d with _cache := d._cache.put entry }

theorem latest_put (entry : CacheEntry) (d : DefaultCache) :
    latest entry (d._cache.put entry).items = latest entry d._cache.items := by
  refine congrArg (· ++ [entry]) ?_
  by_cases hkey : entry.cache_key ∈ d._cache.keys
  · have hitems : (d._cache.put entry).items = Keyed.replace CacheEntry.cache_key entry d._cache.items :=
      if_pos hkey
    have hold (b : CacheEntry) : (if b.cache_key = entry.cache_key then entry else b).cache_key =
        b.cache_key := by
      split
      · exact Eq.symm ‹_›
      · rfl
    rw [hitems, Keyed.replace, List.filter_map]
    refine (List.map_congr_left (g := id) fun b hb => ?_).trans ((List.map_id _).trans ?_)
    · have hne := (List.mem_filter.mp hb).2
      rw [Function.comp, hold] at hne
      exact if_neg (of_decide_eq_true hne)
    · refine List.filter_congr fun b _ => ?_
      rw [Function.comp, hold]
  · rw [Keyed.items_put_of_new hkey, List.filter_append]
    simp

/-- Storing an entry makes it the last, and beyond the size the first one goes. -/
theorem holds_set (entry : CacheEntry) (d : DefaultCache) :
    Holds d (if entry.cache_key.command ∈ d.allow_list then
        if d.max_size < (latest entry d._cache.items).length then
          (latest entry d._cache.items).drop 1
        else latest entry d._cache.items
      else d._cache.items) (after (CacheCalls.set entry) d) := by
  have hget : (d._cache.put entry).get? entry.cache_key = some entry := Keyed.get?_put_self _ _
  by_cases hallow : entry.cache_key.command ∈ d.allow_list
  · have hitems : ((stored entry d).touch entry)._cache.items = latest entry d._cache.items := by
      rw [items_touch, stored, latest_put]
    have hrun : (CacheCalls.set entry).run d =
        (if ((stored entry d).touch entry)._cache.items.length > d.max_size then do
            discard LRUPolicy.evictNext
            pure true
          else pure true : CacheM Bool).run ((stored entry d).touch entry) := by
      have hcach : d.isCachable entry.cache_key = true := decide_eq_true hallow
      have htouch := touch_run (d := stored entry d) hget
      simp only [CacheCalls.set, EStateM.run_bind, EStateM.run_get, hcach, Bool.not_true,
        Bool.false_eq_true, if_false, EStateM.run_modify]
      rw [stored] at htouch
      simp only [htouch]
      rfl
    rw [if_pos hallow, after, hrun, hitems]
    split
    · obtain ⟨hevict, hmax, hlist⟩ := holds_evictNext ((stored entry d).touch entry)
      rw [hitems] at hevict
      exact holds_discard ⟨hevict, hmax, hlist⟩
    · exact ⟨hitems, rfl, rfl⟩
  · have hcach : d.isCachable entry.cache_key = false := decide_eq_false hallow
    rw [if_neg hallow, after]
    simp only [CacheCalls.set, EStateM.run_bind, EStateM.run_get, hcach]
    exact ⟨rfl, rfl, rfl⟩

theorem get_run_none {key : CacheKey} (h : d._cache.get? key = none) :
    (CacheCalls.get key).run d = .ok none d := by
  simp only [CacheCalls.get, EStateM.run_bind, EStateM.run_get, h]
  rfl

theorem get_run_some {key : CacheKey} {entry : CacheEntry} (h : d._cache.get? key = some entry) :
    (CacheCalls.get key).run d = .ok (some entry) (d.touch entry) := by
  simp only [CacheCalls.get, EStateM.run_bind, EStateM.run_get, h, touch_run h]
  rfl

/-- A key without an entry is deleted already. -/
theorem items_erase_of_get?_eq_none {key : CacheKey} (h : d._cache.get? key = none) :
    (d._cache.erase key).items = d._cache.items := by
  rw [Keyed.erase_of_not_mem (Keyed.get?_eq_none.mp h)]

/-- Deleting an entry that has just been used. -/
theorem items_erase_touch {key : CacheKey} {entry : CacheEntry}
    (h : d._cache.get? key = some entry) :
    ((d.touch entry)._cache.erase key).items = (d._cache.erase key).items := by
  have hkey : entry.cache_key = key := Keyed.key_of_get? h
  change (d.touch entry)._cache.items.filter _ = d._cache.items.filter _
  rw [items_touch, latest, List.filter_append, List.filter_filter, hkey]
  simp [hkey]

theorem deleteByCacheKeys_run (cache_keys : List CacheKey) (d : DefaultCache) :
    ∃ response d', (CacheCalls.deleteByCacheKeys cache_keys).run d = .ok response d' ∧
      Holds d (d._cache.items.filter fun e => e.cache_key ∉ cache_keys) d' := by
  induction cache_keys generalizing d with
  | nil => exact ⟨[], d, rfl, by simp, rfl, rfl⟩
  | cons key cache_keys ih =>
    have hfilter : (d._cache.items.filter fun e => e.cache_key ∉ key :: cache_keys) =
        (d._cache.erase key).items.filter fun e => e.cache_key ∉ cache_keys := by
      change _ = (d._cache.items.filter _).filter _
      rw [List.filter_filter]
      refine List.filter_congr fun e _ => ?_
      simp [Bool.and_comm]
    cases hget : d._cache.get? key with
    | none =>
      obtain ⟨response, d', hrun, hitems, hmax, hallow⟩ := ih d
      refine ⟨false :: response, d', ?_, ?_, hmax, hallow⟩
      · rw [CacheCalls.deleteByCacheKeys, EStateM.run_bind, get_run_none hget]
        simp only [EStateM.run_bind, hrun]
        rfl
      · rw [hitems, hfilter, items_erase_of_get?_eq_none hget]
    | some entry =>
      obtain ⟨response, d', hrun, hitems, hmax, hallow⟩ :=
        ih { d.touch entry with _cache := (d.touch entry)._cache.erase key }
      refine ⟨true :: response, d', ?_, ?_, hmax, hallow⟩
      · rw [CacheCalls.deleteByCacheKeys, EStateM.run_bind, get_run_some hget]
        simp only [EStateM.run_bind, EStateM.run_modify, hrun]
        rfl
      · rw [hitems, hfilter, items_erase_touch hget]

/-- A call on the cache is told by the list of its entries. -/
def itemsAfter (d : DefaultCache) : CacheOperation → List CacheEntry
  | set entry =>
    if entry.cache_key.command ∈ d.allow_list then
      if d.max_size < (latest entry d._cache.items).length then
        (latest entry d._cache.items).drop 1
      else latest entry d._cache.items
    else d._cache.items
  | get key =>
    match d._cache.get? key with
    | none => d._cache.items
    | some entry => latest entry d._cache.items
  | deleteByCacheKeys cache_keys => d._cache.items.filter fun e => e.cache_key ∉ cache_keys
  | flush => []
  | evictNext => d._cache.items.drop 1
  | evictMany count =>
    if count > d._cache.items.length then d._cache.items else d._cache.items.drop count.toNat

theorem holds_perform (d : DefaultCache) (op : CacheOperation) :
    Holds d (itemsAfter d op) (perform d op) := by
  cases op with
  | set entry => exact holds_set entry d
  | get key =>
    rw [perform, itemsAfter, after]
    cases h : d._cache.get? key with
    | none =>
      rw [get_run_none h]
      exact ⟨rfl, rfl, rfl⟩
    | some entry =>
      rw [get_run_some h]
      exact ⟨items_touch entry d, rfl, rfl⟩
  | deleteByCacheKeys cache_keys =>
    obtain ⟨response, d', hrun, hd'⟩ := deleteByCacheKeys_run cache_keys d
    rw [perform, after, hrun]
    exact hd'
  | flush => exact ⟨rfl, rfl, rfl⟩
  | evictNext => exact holds_evictNext d
  | evictMany count => exact holds_evictMany count d

/-- The entries are those of the map, in its order, and no more than the size allows. -/
structure Refines (max_size : Nat) (allow_list : List String) (d : DefaultCache)
    (m : LruMap CacheEntry) : Prop where
  inOrder : LruMap.InOrder d._cache.items m
  bounded : d._cache.items.length ≤ max_size
  max_size : d.max_size = max_size
  allow_list : d.allow_list = allow_list

theorem inOrder_itemsAfter {m : LruMap CacheEntry} (h : LruMap.InOrder d._cache.items m)
    (op : CacheOperation) : LruMap.InOrder (itemsAfter d op) (refer d.max_size d.allow_list m op) := by
  cases op with
  | set entry =>
    rw [itemsAfter, refer]
    split
    · exact h.insert d.max_size entry
    · exact h
  | get key =>
    rw [itemsAfter, refer]
    cases hget : d._cache.get? key with
    | none =>
      refine h.touch_of_not_mem fun e he hkey => ?_
      exact Keyed.get?_eq_none.mp hget (hkey ▸ List.mem_map_of_mem he)
    | some entry =>
      have hkey : entry.cache_key = key := Keyed.key_of_get? hget
      have hmem : entry ∈ d._cache.items := Keyed.mem_of_get? hget
      rw [← hkey]
      exact h.touch hmem fun e he heq => List.inj_on_of_nodup_map d._cache.nodup he hmem heq
  | deleteByCacheKeys cache_keys => exact h.remove cache_keys
  | flush => exact LruMap.inOrder_empty
  | evictNext => exact h.evict 1
  | evictMany count =>
    rw [itemsAfter, refer, h.size_eq]
    split
    · exact h
    · exact h.evict count.toNat

theorem length_latest_le (entry : CacheEntry) (l : List CacheEntry) :
    (latest entry l).length ≤ l.length + 1 := by
  rw [latest, List.length_append, List.length_singleton]
  exact Nat.succ_le_succ (List.length_filter_le _ l)

theorem length_latest_of_mem {entry : CacheEntry} {l : List CacheEntry} (h : entry ∈ l) :
    (latest entry l).length ≤ l.length := by
  have hlt : (l.filter fun e => e.cache_key ≠ entry.cache_key).length < l.length :=
    List.length_filter_lt_length_iff_exists.mpr ⟨entry, h, by simp⟩
  rw [latest, List.length_append, List.length_singleton]
  exact hlt

theorem length_itemsAfter_le (h : d._cache.items.length ≤ d.max_size) (op : CacheOperation) :
    (itemsAfter d op).length ≤ d.max_size := by
  cases op with
  | set entry =>
    have hle := length_latest_le entry d._cache.items
    rw [itemsAfter]
    split
    · split
      · rw [List.length_drop]
        omega
      · omega
    · exact h
  | get key =>
    rw [itemsAfter]
    cases hget : d._cache.get? key with
    | none => exact h
    | some entry => exact (length_latest_of_mem (Keyed.mem_of_get? hget)).trans h
  | deleteByCacheKeys cache_keys => exact (List.length_filter_le _ _).trans h
  | flush => exact Nat.zero_le _
  | evictNext => exact (List.drop_sublist _ _).length_le.trans h
  | evictMany count =>
    rw [itemsAfter]
    split
    · exact h
    · exact (List.drop_sublist _ _).length_le.trans h

theorem refines_perform {max_size : Nat} {allow_list : List String} {m : LruMap CacheEntry}
    (h : Refines max_size allow_list d m) (op : CacheOperation) :
    Refines max_size allow_list (perform d op) (refer max_size allow_list m op) := by
  obtain ⟨hin, hle, rfl, rfl⟩ := h
  obtain ⟨hitems, hmax, hallow⟩ := holds_perform d op
  refine ⟨?_, ?_, hmax, hallow⟩
  · rw [hitems]
    exact inOrder_itemsAfter hin op
  · rw [hitems]
    exact length_itemsAfter_le hle op

theorem refines_foldl {max_size : Nat} {allow_list : List String} {m : LruMap CacheEntry}
    (h : Refines max_size allow_list d m) (ops : List CacheOperation) :
    Refines max_size allow_list (ops.foldl perform d) (ops.foldl (refer max_size allow_list) m) := by
  induction ops generalizing d m with
  | nil => exact h
  | cons op ops ih => exact ih (refines_perform h op)

end CacheOperation

/-- Over every run of calls, a cache is the bounded map of the entries used last. -/
theorem default_cache_refines_lru (max_size : Nat) (allow_list : List String)
    (ops : List CacheOperation) :
    let d := ops.foldl CacheOperation.perform ⟨∅, max_size, allow_list⟩
    LruMap.InOrder d._cache.items
      (ops.foldl (CacheOperation.refer max_size allow_list) LruMap.empty) ∧
    d._cache.items.length ≤ max_size := by
  have h := CacheOperation.refines_foldl (d := ⟨∅, max_size, allow_list⟩)
    ⟨LruMap.inOrder_empty, Nat.zero_le _, rfl, rfl⟩ ops
  exact ⟨h.inOrder, h.bounded⟩

end RedisPy
