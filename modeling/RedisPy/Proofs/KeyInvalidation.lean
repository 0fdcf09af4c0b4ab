import Mathlib
import RedisPy.Spec.KeyInvalidation

/-! What `delete_by_redis_keys` removes. The keys it collects are those of the entries found,
each as often as it is found, and it pops them all where no entry is found twice. -/

namespace RedisPy

variable {α : Type} {cache_key : α → CacheKey}

/-- A key is collected as often as it is found. -/
theorem count_collectKeys (cache : Keyed cache_key) {redis_keys : List KeyName}
    {keys_to_delete collected : List CacheKey} {response response' : List Bool}
    (h : collectKeys cache keys_to_delete response redis_keys = .ok (collected, response'))
    {key : CacheKey} (hkey : key ∈ cache.keys) :
    collected.count key = keys_to_delete.count key + key.timesFound redis_keys := by
  induction redis_keys generalizing keys_to_delete response with
  | nil =>
    cases h
    rfl
  | cons redis_key redis_keys ih =>
    unfold collectKeys at h
    cases hd : redis_key.decoded with
    | error e =>
      rw [hd] at h
      cases h
    | ok name =>
      simp only [hd] at h
      have hone : List.count key (cache.keys.filter fun key => name ∈ key.redis_keys) =
          if name ∈ key.redis_keys then 1 else 0 := by
        split
        · rename_i hm
          rw [List.count_filter (by simpa using hm)]
          exact List.count_eq_one_of_mem cache.nodup hkey
        · rename_i hm
          exact List.count_eq_zero.mpr fun hin => hm (by simpa using (List.mem_filter.mp hin).2)
      rw [ih h, List.count_append, hone, CacheKey.timesFound, CacheKey.timesFound,
        List.countP_cons, hd]
      simp only [decide_eq_true_eq]
      omega

/-- There is a `True` for each key collected. -/
theorem response_collectKeys (cache : Keyed cache_key) {redis_keys : List KeyName}
    {keys_to_delete collected : List CacheKey} {response response' : List Bool}
    (h : collectKeys cache keys_to_delete response redis_keys = .ok (collected, response'))
    (hr : response = keys_to_delete.map fun _ => true) : response' = collected.map fun _ => true := by
  induction redis_keys generalizing keys_to_delete response with
  | nil =>
    cases h
    exact hr
  | cons redis_key redis_keys ih =>
    unfold collectKeys at h
    cases hd : redis_key.decoded with
    | error e =>
      rw [hd] at h
      cases h
    | ok name =>
      simp only [hd] at h
      apply ih h
      rw [hr, List.map_append]

/-- What is collected is in the cache. -/
theorem mem_of_collectKeys (cache : Keyed cache_key) {redis_keys : List KeyName}
    {keys_to_delete collected : List CacheKey} {response response' : List Bool}
    (h : collectKeys cache keys_to_delete response redis_keys = .ok (collected, response'))
    (hk : ∀ key ∈ keys_to_delete, key ∈ cache.keys) : ∀ key ∈ collected, key ∈ cache.keys := by
  induction redis_keys generalizing keys_to_delete response with
  | nil =>
    cases h
    exact hk
  | cons redis_key redis_keys ih =>
    unfold collectKeys at h
    cases hd : redis_key.decoded with
    | error e =>
      rw [hd] at h
      cases h
    | ok name =>
      simp only [hd] at h
      apply ih h
      intro key hkey
      cases List.mem_append.mp hkey with
      | inl hkey => exact hk key hkey
      | inr hkey => exact List.mem_of_mem_filter hkey

/-- The collecting raises exactly at bytes that are no text. -/
theorem collectKeys_ok_iff (cache : Keyed cache_key) (redis_keys : List KeyName)
    (keys_to_delete : List CacheKey) (response : List Bool) :
    (∃ r, collectKeys cache keys_to_delete response redis_keys = .ok r) ↔
      ∀ b, .bytes b ∈ redis_keys → decodeText b ≠ none := by
  induction redis_keys generalizing keys_to_delete response with
  | nil => simp [collectKeys]
  | cons redis_key redis_keys ih =>
    unfold collectKeys
    cases redis_key with
    | str s => simp [KeyName.decoded, ih]
    | bytes b =>
      cases hb : decodeText b with
      | none =>
        simp only [KeyName.decoded, hb]
        constructor
        · rintro ⟨r, h⟩
          cases h
        · intro h
          exact absurd hb (h b List.mem_cons_self)
      | some s =>
        simp only [KeyName.decoded, hb, ih]
        constructor
        · intro h c hc
          cases List.mem_cons.mp hc with
          | inl hc =>
            cases hc
            simp [hb]
          | inr hc => exact h c hc
        · exact fun h c hc => h c (List.mem_cons_of_mem _ hc)

/-- The popping succeeds exactly on distinct keys of the cache, -/
theorem popKeys_ok_iff (cache : Keyed cache_key) (keys : List CacheKey) :
    (popKeys cache keys).1 = .ok () ↔ keys.Nodup ∧ ∀ key ∈ keys, key ∈ cache.keys := by
  induction keys generalizing cache with
  | nil => simp [popKeys]
  | cons key keys ih =>
    unfold popKeys
    by_cases hc : cache.contains key = true
    · rw [if_pos hc, ih, List.nodup_cons]
      have hin := Keyed.contains_iff.mp hc
      constructor
      · rintro ⟨hnodup, hkeys⟩
        refine ⟨⟨fun h => (Keyed.mem_keys_erase.mp (hkeys key h)).2 rfl, hnodup⟩, ?_⟩
        rintro k hk
        cases List.mem_cons.mp hk with
        | inl hk => exact hk ▸ hin
        | inr hk => exact (Keyed.mem_keys_erase.mp (hkeys k hk)).1
      · rintro ⟨⟨hnew, hnodup⟩, hkeys⟩
        refine ⟨hnodup, fun k hk => Keyed.mem_keys_erase.mpr ⟨hkeys k (List.mem_cons_of_mem _ hk), ?_⟩⟩
        rintro rfl
        exact hnew hk
    · rw [if_neg hc]
      constructor
      · intro h
        cases h
      · rintro ⟨-, hkeys⟩
        exact absurd (Keyed.contains_iff.mpr (hkeys key List.mem_cons_self)) hc

/-- and then the other entries stay, in their order. -/
theorem items_popKeys (cache : Keyed cache_key) {keys : List CacheKey}
    (h : (popKeys cache keys).1 = .ok ()) :
    (popKeys cache keys).2.items = cache.items.filter fun entry => cache_key entry ∉ keys := by
  induction keys generalizing cache with
  | nil => simp [popKeys]
  | cons key keys ih =>
    unfold popKeys at h ⊢
    by_cases hc : cache.contains key = true
    · rw [if_pos hc] at h ⊢
      rw [ih _ h, Keyed.erase, List.filter_filter]
      apply List.filter_congr
      intro entry _
      simp [Bool.and_comm]
    · rw [if_neg hc] at h
      cases h

/-- What the invalidation of the keys should come to. -/
def InvalidatesExactly (encode : String → Bytes) (cache : Keyed cache_key)
    (redis_keys : List KeyName) : Prop :=
  (deleteByRedisKeys cache redis_keys).1 = .ok (List.replicate
      (cache.items.countP fun entry => (cache_key entry).named encode redis_keys) true) ∧
    (deleteByRedisKeys cache redis_keys).2.items =
      cache.items.filter fun entry => !(cache_key entry).named encode redis_keys

/-- The entries and the keys for which `delete_by_redis_keys` is written. -/
structure Foreseen (encode : String → Bytes) (cache : Keyed cache_key)
    (redis_keys : List KeyName) : Prop where
  /-- Keys sent as bytes are UTF-8. -/
  decodes : ∀ b, .bytes b ∈ redis_keys → decodeText b ≠ none
  /-- No two of the keys find one entry. -/
  once : ∀ entry ∈ cache.items, (cache_key entry).timesFound redis_keys ≤ 1
  /-- An entry with the name of a key has the text of a key among its names, and conversely. -/
  spelled : ∀ entry ∈ cache.items,
    (cache_key entry).named encode redis_keys = true ↔ (cache_key entry).timesFound redis_keys ≠ 0

theorem mem_keys_of_mem_items {cache : Keyed cache_key} {entry : α} (h : entry ∈ cache.items) :
    cache_key entry ∈ cache.keys :=
  List.mem_map_of_mem h

/-- What was collected for these keys is what is found. -/
theorem mem_collectKeys_iff (cache : Keyed cache_key) {redis_keys : List KeyName}
    {collected : List CacheKey} {response : List Bool}
    (h : collectKeys cache [] [] redis_keys = .ok (collected, response)) {key : CacheKey}
    (hkey : key ∈ cache.keys) : key ∈ collected ↔ key.timesFound redis_keys ≠ 0 := by
  have hcount := count_collectKeys cache h hkey
  rw [List.count_nil, Nat.zero_add] at hcount
  rw [← hcount, Nat.ne_zero_iff_zero_lt, List.count_pos_iff]

theorem nodup_collectKeys_iff (cache : Keyed cache_key) {redis_keys : List KeyName}
    {collected : List CacheKey} {response : List Bool}
    (h : collectKeys cache [] [] redis_keys = .ok (collected, response)) :
    collected.Nodup ↔ ∀ entry ∈ cache.items, (cache_key entry).timesFound redis_keys ≤ 1 := by
  have hin := mem_of_collectKeys cache h (by simp)
  rw [List.nodup_iff_count_le_one]
  constructor
  · intro hle entry hentry
    have hcount := count_collectKeys cache h (mem_keys_of_mem_items hentry)
    rw [List.count_nil, Nat.zero_add] at hcount
    exact hcount ▸ hle (cache_key entry)
  · intro hle key
    by_cases hkey : key ∈ collected
    · obtain ⟨entry, hentry, rfl⟩ := List.mem_map.mp (hin key hkey)
      rw [count_collectKeys cache h (hin _ hkey), List.count_nil, Nat.zero_add]
      exact hle entry hentry
    · rw [List.count_eq_zero.mpr hkey]
      exact Nat.zero_le 1

/-- Distinct keys of a cache are counted by its entries. -/
theorem length_eq_countP (cache : Keyed cache_key) {keys : List CacheKey} (hnodup : keys.Nodup)
    (hin : ∀ key ∈ keys, key ∈ cache.keys) :
    keys.length = cache.items.countP fun entry => cache_key entry ∈ keys := by
  have hperm : keys.Perm (cache.keys.filter fun key => key ∈ keys) := by
    have hkeys : cache.keys.Nodup := cache.nodup
    rw [List.perm_ext_iff_of_nodup hnodup (hkeys.filter _)]
    intro key
    simp only [List.mem_filter, decide_eq_true_eq]
    exact ⟨fun h => ⟨hin key h, h⟩, And.right⟩
  rw [hperm.length_eq, ← List.countP_eq_length_filter, Keyed.keys, List.countP_map]
  rfl

/-- The call once its keys are collected. -/
theorem deleteByRedisKeys_of_collected {cache : Keyed cache_key} {redis_keys : List KeyName}
    {collected : List CacheKey} {response : List Bool}
    (h : collectKeys cache [] [] redis_keys = .ok (collected, response)) :
    (∀ r, (deleteByRedisKeys cache redis_keys).1 = .ok r ↔
      (popKeys cache collected).1 = .ok () ∧ r = collected.map fun _ => true) ∧
    (deleteByRedisKeys cache redis_keys).2 = (popKeys cache collected).2 := by
  have hresponse := response_collectKeys cache h rfl
  unfold deleteByRedisKeys
  simp only [h]
  rcases hp : popKeys cache collected with ⟨_ | _, d⟩
  · exact ⟨fun r => ⟨fun h => (by cases h), fun h => (by cases h.1)⟩, rfl⟩
  · refine ⟨fun r => ⟨fun h => ?_, fun h => ?_⟩, rfl⟩
    · cases h
      exact ⟨rfl, hresponse⟩
    · rw [h.2, ← hresponse]

theorem get?_popKeys (cache : Keyed cache_key) {keys : List CacheKey}
    (h : (popKeys cache keys).1 = .ok ()) (key : CacheKey) :
    (popKeys cache keys).2.get? key = if key ∈ keys then none else cache.get? key := by
  induction keys generalizing cache with
  | nil => rfl
  | cons key' keys ih =>
    unfold popKeys at h ⊢
    by_cases hc : cache.contains key' = true
    · rw [if_pos hc] at h ⊢
      rw [ih _ h]
      by_cases hkey : key = key'
      · subst hkey
        simp
      · simp [hkey, Keyed.get?_erase_ne]
    · rw [if_neg hc] at h
      cases h

/-- Where the call returns, the entries that the keys find are gone. -/
theorem get?_deleteByRedisKeys {cache : Keyed cache_key} {redis_keys : List KeyName} {r : List Bool}
    (h : (deleteByRedisKeys cache redis_keys).1 = .ok r) (key : CacheKey) :
    (deleteByRedisKeys cache redis_keys).2.get? key =
      if key.timesFound redis_keys ≠ 0 then none else cache.get? key := by
  cases hc : collectKeys cache [] [] redis_keys with
  | error e =>
    simp only [deleteByRedisKeys, hc] at h
    cases h
  | ok c =>
    obtain ⟨hresult, hcache⟩ := deleteByRedisKeys_of_collected hc
    rw [hcache, get?_popKeys cache ((hresult r).mp h).1]
    by_cases hkey : key ∈ cache.keys
    · simp only [mem_collectKeys_iff cache hc hkey]
    · simp [Keyed.get?_eq_none.mpr hkey]

/-- An invalidation removes the entries of the invalidated keys, and them alone, exactly for
foreseen ones. -/
theorem invalidatesExactly_iff (encode : String → Bytes) (cache : Keyed cache_key)
    (redis_keys : List KeyName) :
    InvalidatesExactly encode cache redis_keys ↔ Foreseen encode cache redis_keys := by
  constructor
  · rintro ⟨hok, hitems⟩
    have hcollected : ∃ r, collectKeys cache [] [] redis_keys = .ok r := by
      cases hc : collectKeys cache [] [] redis_keys with
      | error e =>
        simp only [deleteByRedisKeys, hc] at hok
        cases hok
      | ok r => exact ⟨r, rfl⟩
    have hdecodes := (collectKeys_ok_iff cache redis_keys [] []).mp hcollected
    obtain ⟨⟨collected, response⟩, hc⟩ := hcollected
    obtain ⟨hresult, hcache⟩ := deleteByRedisKeys_of_collected hc
    have hpop := ((hresult _).mp hok).1
    have hnodup := ((popKeys_ok_iff cache collected).mp hpop).1
    refine ⟨hdecodes, (nodup_collectKeys_iff cache hc).mp hnodup, fun entry hentry => ?_⟩
    rw [← mem_collectKeys_iff cache hc (mem_keys_of_mem_items hentry)]
    rw [hcache, items_popKeys cache hpop] at hitems
    -- the two filters agree on an entry of the cache
    have hmem := congrArg (entry ∈ ·) hitems
    simp only [List.mem_filter, hentry, true_and, decide_eq_true_eq, Bool.not_eq_true',
      eq_iff_iff] at hmem
    rw [← Bool.not_eq_false, ← not_iff_not, not_not]
    exact hmem.symm
  · rintro ⟨hdecodes, honce, hspelled⟩
    obtain ⟨⟨collected, response⟩, hc⟩ := (collectKeys_ok_iff cache redis_keys [] []).mpr hdecodes
    obtain ⟨hresult, hcache⟩ := deleteByRedisKeys_of_collected hc
    have hin := mem_of_collectKeys cache hc (by simp)
    have hnodup := (nodup_collectKeys_iff cache hc).mpr honce
    have hpop := (popKeys_ok_iff cache collected).mpr ⟨hnodup, hin⟩
    have hagree : ∀ entry ∈ cache.items,
        (cache_key entry).named encode redis_keys = decide (cache_key entry ∈ collected) := by
      intro entry hentry
      rw [Bool.eq_iff_iff, hspelled entry hentry, decide_eq_true_eq,
        mem_collectKeys_iff cache hc (mem_keys_of_mem_items hentry)]
    constructor
    · rw [hresult]
      refine ⟨hpop, ?_⟩
      rw [List.map_const', length_eq_countP cache hnodup hin]
      congr 1
      exact List.countP_congr fun entry hentry => by rw [hagree entry hentry]
    · rw [hcache, items_popKeys cache hpop]
      apply List.filter_congr
      intro entry hentry
      rw [hagree entry hentry, decide_not]

/-- One entry of two invalidated keys: it is popped twice. -/
theorem doublyNamed_invalidation :
    let key : CacheKey := { command := "MGET", redis_keys := [.str "foo", .str "bar"] }
    let cache : Dict CacheKey Bytes := (∅ : Dict CacheKey Bytes).put (key, [98])
    (deleteByRedisKeys cache [.bytes (encodeText "foo"), .bytes (encodeText "bar")]).1 =
        .error { cls := .KeyError } ∧
      ¬ InvalidatesExactly encodeText cache
        [.bytes (encodeText "foo"), .bytes (encodeText "bar")] := by
  refine ⟨rfl, fun h => ?_⟩
  cases h.1

end RedisPy
