import RedisPy.Library.Course
import RedisPy.Proofs.CachedTurns

/-! When the reads of a caching connection are answered right: the key of the cache is made of
the name of a command and its keys, so an entry may be another command's. -/

namespace RedisPy

namespace CachedReads

open SharedCache

variable {encode : String → Bytes} {answer : Nat → Request → PyVal} {w : World}

/-! ### What is read -/

section Reads

/-- An entry that is there after an invalidation was there, and is not named. -/
theorem get?_of_invalidate {d d' : DefaultCache} {data : Invalidation} {key : CacheKey} {entry : CacheEntry}
    (h : d.invalidate data = (.ok (), d')) (hget : d'._cache.get? key = some entry) :
    d._cache.get? key = some entry ∧ ¬ Names data key := by
  rcases get?_invalidate h key with ⟨-, hnone⟩ | ⟨hnot, hsame⟩
  · rw [hnone] at hget
    cases hget
  · exact ⟨hsame ▸ hget, hnot⟩

variable {moment : Nat} {data : Invalidation} {v : PyVal} {inFlight : List (Nat × Frame)}

theorem Kept.invalidated {d' : DefaultCache} (hk : Kept encode answer w)
    (hin : w.inFlight = (moment, .push data) :: inFlight) (hd : w._cache.invalidate data = (.ok (), d'))
    (hfinds : ∀ key entry, w._cache._cache.get? key = some entry → entry.status = .VALID →
      Concerns encode data key → Names data key) :
    Kept encode answer
      { w with _cache := d', inFlight := inFlight, processed := w.processed ++ [(moment, data)] } where
  own key entry hget := hk.own key entry (get?_of_invalidate hd hget).1
  filled := by
    intro key entry hget hvalid
    obtain ⟨hold, hnot⟩ := get?_of_invalidate hd hget
    obtain ⟨r, hasked, hkey, m, hm, hv, hlast⟩ := hk.filled key entry hold hvalid
    refine ⟨r, hasked, hkey, m, hm, hv, fun p hp hnames => ?_⟩
    rcases List.mem_append.mp hp with hp | hp
    · exact hlast p hp hnames
    · rw [List.mem_singleton.mp hp, hkey] at hnames
      exact absurd (hfinds key entry hold hvalid hnames) hnot
  past f hf := hk.past f (by rw [hin]; exact List.mem_cons_of_mem _ hf)
  ordered := by
    have hordered := hk.ordered
    rw [hin, List.map_cons, List.pairwise_cons] at hordered
    exact hordered.2
  processed := by
    intro p hp
    rcases List.mem_append.mp hp with hp | hp
    · refine ⟨(hk.processed p hp).1, fun f hf => (hk.processed p hp).2 f ?_⟩
      rw [hin]
      exact List.mem_cons_of_mem _ hf
    · rw [List.mem_singleton.mp hp]
      have hordered := hk.ordered
      rw [hin, List.map_cons, List.pairwise_cons] at hordered
      refine ⟨hk.past (moment, .push data) (by rw [hin]; exact List.mem_cons_self), fun f hf => ?_⟩
      exact hordered.1 f.1 (List.mem_map_of_mem hf)

theorem Pushes.tail {f : Nat × Frame} (h : Pushes (f :: inFlight)) : Pushes inFlight :=
  fun g hg => h g (List.mem_cons_of_mem _ hg)

theorem not_pushes_reply : ¬ Pushes ((moment, .reply v) :: inFlight) := by
  intro h
  obtain ⟨data, hdata⟩ := h _ List.mem_cons_self
  cases hdata

/-- The reply that is due comes after the invalidation. -/
theorem Outstanding.tail {w' : World} (h : Outstanding answer w)
    (hin : w.inFlight = (moment, .push data) :: w'.inFlight) (hpending : w'.pending = w.pending)
    (hrequest : w'.request = w.request) : Outstanding answer w' := by
  rw [Outstanding, hpending, hrequest]
  rcases h with ⟨hp, hpush⟩ | ⟨hp, pre, m, post, hinFlight, hpre, hpost⟩
  · rw [hin] at hpush
    exact .inl ⟨hp, hpush.tail⟩
  · rw [hin] at hinFlight
    cases pre with
    | nil => cases hinFlight
    | cons f pre =>
      obtain ⟨-, htail⟩ := List.cons.inj hinFlight
      exact .inr ⟨hp, pre, m, post, htail, hpre.tail, hpost⟩

/-- A reply is the one that is due. -/
theorem Outstanding.replied (h : Outstanding answer w)
    (hin : w.inFlight = (moment, .reply v) :: inFlight) :
    v = answer moment w.request ∧ w.pending = [] ∧ Pushes inFlight := by
  rcases h with ⟨-, hpush⟩ | ⟨hp, pre, m, post, hinFlight, hpre, hpost⟩
  · rw [hin] at hpush
    exact absurd hpush not_pushes_reply
  · rw [hin] at hinFlight
    cases pre with
    | nil =>
      cases hinFlight
      exact ⟨rfl, hp, hpost⟩
    | cons f pre =>
      obtain ⟨rfl, -⟩ := List.cons.inj hinFlight
      exact absurd hpre not_pushes_reply

end Reads

/-! ### Runs -/

/-- A read that finds no entry, and fills it. -/
def missing (r : Request) : List Event :=
  [.send_command r, .quiet, .runs, .runs, .runs, .serves, .read_response, .runs, .reads, .runs, .runs]

/-- One that reads the invalidation of the key `k` first. -/
def invalidating (r : Request) : List Event :=
  [.invalidates (some [.bytes (encodeText "k")]), .send_command r, .reads, .quiet, .runs]

end CachedReads

end RedisPy
