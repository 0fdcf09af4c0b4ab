import RedisPy.Proofs.SharedCache
import RedisPy.Spec.CachedReads

/-! The turns of a caching connection whose server answers at moments of its own: what its
entries and the reply that is due have to do with the requests. -/

namespace RedisPy

namespace CachedReads

open SharedCache

variable {encode : String → Bytes} {answer : Nat → Request → PyVal} {w : World}

/-- The server invalidates one of the keys. -/
def Concerns (encode : String → Bytes) : Invalidation → CacheKey → Prop
  | none, _ => True
  | some redis_keys, key => key.named encode redis_keys = true

/-- The value is what the server answers to the request at some moment, which is not earlier than
any invalidation of its keys that has been processed. -/
def Fresh (encode : String → Bytes) (answer : Nat → Request → PyVal) (w : World) (r : Request)
    (v : PyVal) : Prop :=
  ∃ moment ≤ w.now, v = answer moment r ∧ ∀ p ∈ w.processed, Concerns encode p.2 r.key → p.1 ≤ moment

/-- What `read_response` returns is fresh. -/
def Answers (encode : String → Bytes) (answer : Nat → Request → PyVal) (w : World) (e : Event) : Prop :=
  ∀ v, returned w e = some v → Fresh encode answer w w.request v

/-- An entry that `send_command` finds is one for the same command with the same arguments, and
an invalidation that is processed finds the valid entries of the keys that it invalidates. -/
def Meets (encode : String → Bytes) (w : World) : Event → Prop
  | .runs => ∀ key, w.phase = .looking key → w._cache._cache.contains key = true →
      w.asked key = some w.request
  | .reads => ∀ moment data inFlight, w.inFlight = (moment, .push data) :: inFlight →
      (turn w._cache 0 w.phase (.push data)).isSome = true →
      ∀ key entry, w._cache._cache.get? key = some entry → entry.status = .VALID →
        Concerns encode data key → Names data key
  | _ => True

def Pushes (l : List (Nat × Frame)) : Prop := ∀ f ∈ l, ∃ data, f.2 = .push data

/-- No reply is due. -/
def Silent (w : World) : Prop := w.pending = [] ∧ Pushes w.inFlight

/-- One reply is due, to the command under way. -/
def Outstanding (answer : Nat → Request → PyVal) (w : World) : Prop :=
  (w.pending = [w.request] ∧ Pushes w.inFlight) ∨
    (w.pending = [] ∧ ∃ pre moment post,
      w.inFlight = pre ++ (moment, .reply (answer moment w.request)) :: post ∧ Pushes pre ∧ Pushes post)

/-- What holds in every phase. -/
structure Kept (encode : String → Bytes) (answer : Nat → Request → PyVal) (w : World) : Prop where
  own : ∀ key entry, w._cache._cache.get? key = some entry → entry.connection_ref = 0
  filled : ∀ key entry, w._cache._cache.get? key = some entry → entry.status = .VALID →
    ∃ r, w.asked key = some r ∧ r.key = key ∧ Fresh encode answer w r entry.cache_value
  past : ∀ f ∈ w.inFlight, f.1 ≤ w.now
  ordered : (w.inFlight.map Prod.fst).Pairwise (· ≤ ·)
  processed : ∀ p ∈ w.processed, p.1 ≤ w.now ∧ ∀ f ∈ w.inFlight, p.1 ≤ f.1

/-- The request under way is for the key, and was the last one that was sent under it. -/
def Current (w : World) (key : CacheKey) : Prop := w.request.key = key ∧ w.asked key = some w.request

/-- What holds in a phase. -/
def InPhase (encode : String → Bytes) (answer : Nat → Request → PyVal) (w : World) : Phase → Prop
  | .idle => Silent w
  | .pending command => Silent w ∧ w.request.command = command
  | .looking key => Silent w ∧ w.request.key = key
  | .found key => Silent w ∧ Current w key
  | .draining _ _ => False
  | .missed key => Silent w ∧ w.request.key = key ∧ statusOf w._cache key = none
  | .sending key => Silent w ∧ w.request.key = key ∧ statusOf w._cache key ≠ some .VALID
  | .sent none => Outstanding answer w
  | .sent (some key) =>
    Current w key ∧ (Silent w ∨ Outstanding answer w ∧ statusOf w._cache key ≠ some .VALID)
  | .peeking key =>
    Current w key ∧ statusOf w._cache key ≠ none ∧
      (Silent w ∨ Outstanding answer w ∧ statusOf w._cache key ≠ some .VALID)
  | .valid key => Current w key ∧ Silent w ∧ statusOf w._cache key = some .VALID
  | .reading key => (∀ k ∈ key, Current w k) ∧ (Silent w ∨ Outstanding answer w)
  | .answered key v => (∀ k ∈ key, Current w k) ∧ Silent w ∧ Fresh encode answer w w.request v
  | .marking entry v =>
    Current w entry.cache_key ∧ Silent w ∧ entry.connection_ref = 0 ∧ Fresh encode answer w w.request v

structure Sound (encode : String → Bytes) (answer : Nat → Request → PyVal) (w : World) : Prop extends Kept encode answer w where
  inPhase : InPhase encode answer w w.phase

theorem Sound.at {phase : Phase} (hs : Sound encode answer w) (hphase : w.phase = phase) : InPhase encode answer w phase :=
  hphase ▸ hs.inPhase

/-! ### The cache -/

section Cache

variable {d d' : DefaultCache} {key key' : CacheKey} {entry entry' : CacheEntry}

theorem get?_touch (d : DefaultCache) (entry : CacheEntry) (key : CacheKey) :
    (d.touch entry)._cache.get? key = if key = entry.cache_key then some entry else d._cache.get? key := by
  rw [DefaultCache.touch, Keyed.get?_put]
  split
  · rfl
  · rename_i hne
    exact Keyed.get?_erase_ne _ hne

theorem get?_get (d : DefaultCache) (key key' : CacheKey) :
    (d.get key').2._cache.get? key = d._cache.get? key := by
  rw [DefaultCache.get]
  cases h : d._cache.get? key' with
  | none => rfl
  | some entry =>
    change (d.touch entry)._cache.get? key = _
    rw [get?_touch]
    split
    · rename_i heq
      rw [heq, Keyed.key_of_get? h, h]
    · rfl

end Cache

/-! ### The server -/

theorem Fresh.mono {w' : World} {r : Request} {v : PyVal} (h : Fresh encode answer w r v)
    (hnow : w.now ≤ w'.now) (hp : w'.processed = w.processed) : Fresh encode answer w' r v := by
  obtain ⟨moment, hm, hv, hlast⟩ := h
  exact ⟨moment, hm.trans hnow, hv, by rwa [hp]⟩

theorem Kept.append (hk : Kept encode answer w) (pending : List Request) (frame : Frame) :
    Kept encode answer { w with pending := pending, inFlight := w.inFlight ++ [(w.now, frame)] } where
  own := hk.own
  filled := hk.filled
  past := by
    intro f hf
    rcases List.mem_append.mp hf with hf | hf
    · exact hk.past f hf
    · rw [List.mem_singleton.mp hf]
  ordered := by
    rw [List.map_append, List.pairwise_append]
    refine ⟨hk.ordered, List.pairwise_singleton _ _, ?_⟩
    intro m hm n hn
    obtain ⟨f, hf, rfl⟩ := List.mem_map.mp hm
    rw [List.mem_singleton.mp hn]
    exact hk.past f hf
  processed := by
    intro p hp
    refine ⟨(hk.processed p hp).1, fun f hf => ?_⟩
    rcases List.mem_append.mp hf with hf | hf
    · exact (hk.processed p hp).2 f hf
    · rw [List.mem_singleton.mp hf]
      exact (hk.processed p hp).1

/-- The entries are old, or as they should be. -/
theorem Kept.taken (hk : Kept encode answer w) {d : DefaultCache} (phase : Phase) (pending : List Request)
    (hd : ∀ key entry, d._cache.get? key = some entry → w._cache._cache.get? key = some entry ∨
      (entry.connection_ref = 0 ∧ (entry.status = .VALID →
        ∃ r, w.asked key = some r ∧ r.key = key ∧ Fresh encode answer w r entry.cache_value))) :
    Kept encode answer { w with _cache := d, phase := phase, pending := pending } where
  own := by
    intro key entry hget
    rcases hd key entry hget with hold | ⟨href, -⟩
    · exact hk.own key entry hold
    · exact href
  filled := by
    intro key entry hget hvalid
    rcases hd key entry hget with hold | ⟨-, hnew⟩
    · exact hk.filled key entry hold hvalid
    · exact hnew hvalid
  past := hk.past
  ordered := hk.ordered
  processed := hk.processed

theorem Kept.looked (hk : Kept encode answer w) (phase : Phase) (key : CacheKey) :
    Kept encode answer { w with _cache := (w._cache.get key).2, phase := phase } :=
  hk.taken phase w.pending fun key' entry hget => .inl (by rwa [get?_get] at hget)

section Turns

variable {key : CacheKey} {entry : CacheEntry} {v : PyVal}

end Turns

end CachedReads

end RedisPy
