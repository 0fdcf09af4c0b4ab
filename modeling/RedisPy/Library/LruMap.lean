import Mathlib.Data.Set.Card

/-! A bounded map that keeps what was used last. Every entry has the time of its last use,
and what is dropped is what has been used longest ago. A list has the entries of such a
map in order when it holds them from the one used longest ago to the one used last. -/

universe u v

/-- The entries with the times of their last use; the times are before the clock. -/
structure LruMap (α : Type u) where
  clock : Nat
  held : Set (Nat × α)

namespace LruMap

variable {α : Type u} {κ : Type v} (key : α → κ)

def empty : LruMap α := ⟨0, ∅⟩

/-- The entry is used now, in the place of one with its key. -/
def use (e : α) (m : LruMap α) : LruMap α :=
  ⟨m.clock + 1, {p | p ∈ m.held ∧ key p.2 ≠ key e ∨ p = (m.clock, e)}⟩

/-- The entry of a key, if it has one, is used now. -/
def touch (k : κ) (m : LruMap α) : LruMap α :=
  ⟨m.clock + 1, {p | p ∈ m.held ∧ key p.2 ≠ k ∨
    p.1 = m.clock ∧ ∃ t, (t, p.2) ∈ m.held ∧ key p.2 = k}⟩

/-- The entries of some keys are gone. -/
def remove (ks : Set κ) (m : LruMap α) : LruMap α :=
  ⟨m.clock, {p | p ∈ m.held ∧ key p.2 ∉ ks}⟩

/-- The `n` entries used longest ago are gone: what stays has `n` older ones. -/
def evict (n : Nat) (m : LruMap α) : LruMap α :=
  ⟨m.clock, {p | p ∈ m.held ∧ n ≤ {q | q ∈ m.held ∧ q.1 < p.1}.ncard}⟩

noncomputable def size (m : LruMap α) : Nat := m.held.ncard

open Classical in
/-- An entry is stored; beyond the capacity the one used longest ago goes. -/
noncomputable def insert (capacity : Nat) (e : α) (m : LruMap α) : LruMap α :=
  if capacity < (m.use key e).size then (m.use key e).evict 1 else m.use key e

/-- The list holds the entries of the map in the order of their last use. -/
def InOrder (l : List α) (m : LruMap α) : Prop :=
  ∃ ps : List (Nat × α), ps.map Prod.snd = l ∧ ps.Pairwise (fun p q => p.1 < q.1) ∧
    (∀ p ∈ ps, p.1 < m.clock) ∧ ∀ p, p ∈ m.held ↔ p ∈ ps

variable {key} {l : List α} {m : LruMap α}

theorem inOrder_empty : InOrder [] (empty : LruMap α) :=
  ⟨[], rfl, List.Pairwise.nil, by simp, by simp [empty]⟩

theorem nodup_of_pairwise {ps : List (Nat × α)} (h : ps.Pairwise fun p q => p.1 < q.1) : ps.Nodup :=
  h.imp fun hlt he => absurd (congrArg Prod.fst he) (Nat.ne_of_lt hlt)

theorem ncard_of_nodup {β : Type u} {xs : List β} (h : xs.Nodup) : {x | x ∈ xs}.ncard = xs.length := by
  classical
  rw [← List.coe_toFinset, Set.ncard_coe_finset, List.toFinset_card_of_nodup h]

/-- The map has as many entries as the list. -/
theorem InOrder.size_eq (h : InOrder l m) : m.size = l.length := by
  obtain ⟨ps, rfl, hpw, -, hmem⟩ := h
  have hset : m.held = {p | p ∈ ps} := Set.ext hmem
  rw [size, hset, ncard_of_nodup (nodup_of_pairwise hpw), List.length_map]

section

variable [DecidableEq κ]

/-- The entries without those of a key. -/
theorem pairwise_filter_append {ps : List (Nat × α)} (hpw : ps.Pairwise fun p q => p.1 < q.1)
    (hlt : ∀ p ∈ ps, p.1 < m.clock) (f : Nat × α → Bool) (e : α) :
    (ps.filter f ++ [(m.clock, e)]).Pairwise fun p q => p.1 < q.1 := by
  refine List.pairwise_append.mpr ⟨hpw.filter f, List.pairwise_singleton _ _, ?_⟩
  intro p hp q hq
  rw [List.mem_singleton] at hq
  rw [hq]
  exact hlt p (List.mem_filter.mp hp).1

theorem map_filter_snd (ps : List (Nat × α)) (f : α → Bool) :
    (ps.filter fun p => f p.2).map Prod.snd = (ps.map Prod.snd).filter f := by
  rw [List.filter_map]
  rfl

theorem InOrder.use (h : InOrder l m) (e : α) :
    InOrder (l.filter (fun a => key a ≠ key e) ++ [e]) (m.use key e) := by
  obtain ⟨ps, rfl, hpw, hlt, hmem⟩ := h
  refine ⟨ps.filter (fun p => key p.2 ≠ key e) ++ [(m.clock, e)], ?_,
    pairwise_filter_append hpw hlt _ e, ?_, ?_⟩
  · rw [List.map_append, map_filter_snd ps fun a => key a ≠ key e]
    rfl
  · intro p hp
    rcases List.mem_append.mp hp with hp | hp
    · exact Nat.lt_succ_of_lt (hlt p (List.mem_filter.mp hp).1)
    · rw [List.mem_singleton.mp hp]
      exact Nat.lt_succ_self _
  · intro p
    simp [LruMap.use, hmem]

/-- Touching the entry of a key is using it again. -/
theorem InOrder.touch {e : α} (h : InOrder l m) (he : e ∈ l)
    (huniq : ∀ a ∈ l, key a = key e → a = e) :
    InOrder (l.filter (fun a => key a ≠ key e) ++ [e]) (m.touch key (key e)) := by
  have hsame : m.touch key (key e) = m.use key e := by
    obtain ⟨ps, rfl, -, -, hmem⟩ := h
    obtain ⟨q, hq, rfl⟩ := List.mem_map.mp he
    refine congrArg (LruMap.mk _) (Set.ext fun p => or_congr Iff.rfl ?_)
    constructor
    · rintro ⟨hclock, t, hp, hk⟩
      exact Prod.ext hclock (huniq p.2 (List.mem_map.mpr ⟨(t, p.2), (hmem _).mp hp, rfl⟩) hk)
    · rintro rfl
      exact ⟨rfl, q.1, (hmem _).mpr hq, rfl⟩
  rw [hsame]
  exact h.use e

omit [DecidableEq κ] in
/-- A key without an entry is not touched. -/
theorem InOrder.touch_of_not_mem {k : κ} (h : InOrder l m) (hk : ∀ a ∈ l, key a ≠ k) :
    InOrder l (m.touch key k) := by
  obtain ⟨ps, rfl, hpw, hlt, hmem⟩ := h
  refine ⟨ps, rfl, hpw, fun p hp => Nat.lt_succ_of_lt (hlt p hp), ?_⟩
  intro p
  constructor
  · rintro (⟨hp, -⟩ | ⟨-, t, hp, he⟩)
    · exact (hmem p).mp hp
    · exact absurd he (hk _ (List.mem_map.mpr ⟨(t, p.2), (hmem _).mp hp, rfl⟩))
  · intro hp
    exact .inl ⟨(hmem p).mpr hp, hk _ (List.mem_map_of_mem hp)⟩

theorem InOrder.remove (h : InOrder l m) (ks : List κ) :
    InOrder (l.filter fun a => key a ∉ ks) (m.remove key {k | k ∈ ks}) := by
  obtain ⟨ps, rfl, hpw, hlt, hmem⟩ := h
  refine ⟨ps.filter fun p => key p.2 ∉ ks, map_filter_snd ps fun a => key a ∉ ks, hpw.filter _,
    fun p hp => hlt p (List.mem_filter.mp hp).1, ?_⟩
  intro p
  simp [LruMap.remove, hmem]

end

/-- The entries older than one of the list are those before it. -/
theorem older_eq {as bs : List (Nat × α)} {p : Nat × α}
    (hpw : (as ++ p :: bs).Pairwise fun p q => p.1 < q.1) :
    {q | q ∈ as ++ p :: bs ∧ q.1 < p.1}.ncard = as.length := by
  obtain ⟨has, hbs, hcross⟩ := List.pairwise_append.mp hpw
  have hset : {q | q ∈ as ++ p :: bs ∧ q.1 < p.1} = {q | q ∈ as} := by
    ext q
    simp only [Set.mem_ofPred_eq, List.mem_append, List.mem_cons]
    constructor
    · rintro ⟨hq | rfl | hq, hlt⟩
      · exact hq
      · exact absurd hlt (Nat.lt_irrefl _)
      · exact absurd hlt (Nat.not_lt.mpr (Nat.le_of_lt (List.rel_of_pairwise_cons hbs hq)))
    · intro hq
      exact ⟨.inl hq, hcross q hq p List.mem_cons_self⟩
  rw [hset, ncard_of_nodup (nodup_of_pairwise has)]

/-- Evictions drop the head of the list. -/
theorem InOrder.evict (h : InOrder l m) (n : Nat) : InOrder (l.drop n) (m.evict n) := by
  obtain ⟨ps, rfl, hpw, hlt, hmem⟩ := h
  refine ⟨ps.drop n, List.map_drop, hpw.sublist (List.drop_sublist n ps),
    fun p hp => hlt p (List.mem_of_mem_drop hp), ?_⟩
  intro p
  have hset : {q | q ∈ m.held ∧ q.1 < p.1} = {q | q ∈ ps ∧ q.1 < p.1} := by
    ext q
    simp [hmem]
  change p ∈ m.held ∧ n ≤ {q | q ∈ m.held ∧ q.1 < p.1}.ncard ↔ p ∈ ps.drop n
  rw [hmem, hset]
  constructor
  · rintro ⟨hp, hn⟩
    obtain ⟨as, bs, rfl⟩ := List.append_of_mem hp
    rw [older_eq hpw] at hn
    rw [List.drop_append_of_le_length hn]
    exact List.mem_append_right _ List.mem_cons_self
  · intro hp
    obtain ⟨as, bs, hsplit⟩ := List.append_of_mem hp
    have hps : ps = (ps.take n ++ as) ++ p :: bs := by
      rw [List.append_assoc, ← hsplit, List.take_append_drop]
    refine ⟨List.mem_of_mem_drop hp, ?_⟩
    have hlen : n ≤ ps.length := by
      by_contra hgt
      rw [List.drop_eq_nil_of_le (by omega)] at hp
      exact List.not_mem_nil hp
    rw [hps] at hpw ⊢
    rw [older_eq hpw, List.length_append, List.length_take]
    omega

/-- Storing an entry in a full list drops its head. -/
theorem InOrder.insert [DecidableEq κ] (h : InOrder l m) (capacity : Nat) (e : α) :
    InOrder (if capacity < (l.filter (fun a => key a ≠ key e) ++ [e]).length
      then (l.filter (fun a => key a ≠ key e) ++ [e]).drop 1
      else l.filter (fun a => key a ≠ key e) ++ [e]) (m.insert key capacity e) := by
  have huse : InOrder (l.filter (fun a => key a ≠ key e) ++ [e]) (m.use key e) := h.use e
  rw [LruMap.insert, huse.size_eq]
  split
  · exact huse.evict 1
  · exact huse

end LruMap
