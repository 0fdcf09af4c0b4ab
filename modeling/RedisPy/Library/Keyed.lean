import Mathlib.Data.List.Basic
import Mathlib.Data.List.Nodup

/-! Insertion-ordered dictionaries whose entries are stored under a key of their
own. Storing over an entry keeps its place; a plain dictionary is the case of
pairs stored under their first component. -/

universe u v

/-- The entries in insertion order, no two under one key. -/
structure Keyed {α : Type u} {κ : Type v} (key : α → κ) where
  items : List α
  nodup : (items.map key).Nodup

/-- A dictionary of keys and values. -/
abbrev Dict (κ : Type u) (β : Type v) := Keyed (Prod.fst : κ × β → κ)

namespace Keyed

variable {α : Type u} {κ : Type v} {key : α → κ} [DecidableEq κ]

instance : EmptyCollection (Keyed key) := ⟨⟨[], List.nodup_nil⟩⟩

def keys (d : Keyed key) : List κ := d.items.map key

def get? (d : Keyed key) (k : κ) : Option α := d.items.find? (fun a => key a = k)

def contains (d : Keyed key) (k : κ) : Bool := (d.get? k).isSome

/-- Replace the entry of the same key, where it stands. -/
def replace (key : α → κ) (a : α) (l : List α) : List α :=
  l.map (fun b => if key b = key a then a else b)

theorem map_key_replace (a : α) (l : List α) : (replace key a l).map key = l.map key := by
  rw [replace, List.map_map]
  apply List.map_congr_left
  intro b _
  by_cases h : key b = key a <;> simp [h]

/-- `d[key a] = a`. -/
def put (d : Keyed key) (a : α) : Keyed key where
  items := if key a ∈ d.keys then replace key a d.items else d.items ++ [a]
  nodup := by
    split
    · rw [map_key_replace]
      exact d.nodup
    · rename_i h
      rw [List.map_append, List.nodup_append]
      refine ⟨d.nodup, List.nodup_singleton _, ?_⟩
      rintro k hk _ hk' rfl
      rw [List.map_singleton, List.mem_singleton] at hk'
      exact h (hk' ▸ hk)

/-- `d.pop(k, None)`. -/
def erase (d : Keyed key) (k : κ) : Keyed key where
  items := d.items.filter (fun a => key a ≠ k)
  nodup := d.nodup.sublist (List.filter_sublist.map key)

/-- Keep the entries whose key passes. -/
def restrict (d : Keyed key) (p : κ → Bool) : Keyed key where
  items := d.items.filter (fun a => p (key a))
  nodup := d.nodup.sublist (List.filter_sublist.map key)

@[simp] theorem get?_empty (k : κ) : (∅ : Keyed key).get? k = none := rfl

theorem mem_of_get? {d : Keyed key} {k : κ} {a : α} (h : d.get? k = some a) : a ∈ d.items :=
  List.mem_of_find?_eq_some h

theorem key_of_get? {d : Keyed key} {k : κ} {a : α} (h : d.get? k = some a) : key a = k := by
  simpa using List.find?_some h

theorem get?_of_mem {d : Keyed key} {a : α} (h : a ∈ d.items) : d.get? (key a) = some a := by
  obtain ⟨l, hl⟩ := d
  induction l with
  | nil => simp at h
  | cons b l ih =>
    rw [List.map_cons, List.nodup_cons] at hl
    rcases List.mem_cons.mp h with rfl | hm
    · simp [get?]
    · have hb : key b ≠ key a := fun he => hl.1 (he ▸ List.mem_map_of_mem hm)
      have := ih hl.2 hm
      simpa [get?, List.find?_cons, hb] using this

theorem get?_eq_some {d : Keyed key} {k : κ} {a : α} :
    d.get? k = some a ↔ a ∈ d.items ∧ key a = k :=
  ⟨fun h => ⟨mem_of_get? h, key_of_get? h⟩, fun ⟨hm, hk⟩ => hk ▸ get?_of_mem hm⟩

theorem get?_eq_none {d : Keyed key} {k : κ} : d.get? k = none ↔ k ∉ d.keys := by
  simp [get?, keys]

theorem contains_iff {d : Keyed key} {k : κ} : d.contains k = true ↔ k ∈ d.keys := by
  rw [contains, Option.isSome_iff_ne_none, ne_eq, get?_eq_none, not_not]

theorem mem_items_put {d : Keyed key} {a b : α} :
    b ∈ (d.put a).items ↔ b = a ∨ b ∈ d.items ∧ key b ≠ key a := by
  by_cases h : key a ∈ d.keys
  · simp only [put, if_pos h, replace, List.mem_map]
    constructor
    · rintro ⟨c, hc, rfl⟩
      by_cases hk : key c = key a
      · simp [hk]
      · simp [hk, hc]
    · rintro (rfl | ⟨hb, hk⟩)
      · obtain ⟨c, hc, hk⟩ := List.mem_map.mp h
        exact ⟨c, hc, by simp [hk]⟩
      · exact ⟨b, hb, by simp [hk]⟩
  · simp only [put, if_neg h, List.mem_append, List.mem_singleton]
    constructor
    · rintro (hb | rfl)
      · exact .inr ⟨hb, fun hk => h (hk ▸ List.mem_map_of_mem hb)⟩
      · exact .inl rfl
    · rintro (rfl | ⟨hb, -⟩)
      · exact .inr rfl
      · exact .inl hb

theorem mem_keys_put {d : Keyed key} {a : α} {k : κ} :
    k ∈ (d.put a).keys ↔ k = key a ∨ k ∈ d.keys := by
  simp only [keys, List.mem_map, mem_items_put]
  constructor
  · rintro ⟨b, rfl | ⟨hb, -⟩, rfl⟩
    · exact .inl rfl
    · exact .inr ⟨b, hb, rfl⟩
  · rintro (rfl | ⟨b, hb, rfl⟩)
    · exact ⟨a, .inl rfl, rfl⟩
    · by_cases h : key b = key a
      · exact ⟨a, .inl rfl, h.symm⟩
      · exact ⟨b, .inr ⟨hb, h⟩, rfl⟩

@[simp] theorem get?_put_self (d : Keyed key) (a : α) : (d.put a).get? (key a) = some a :=
  get?_eq_some.mpr ⟨mem_items_put.mpr (.inl rfl), rfl⟩

theorem get?_put_ne (d : Keyed key) {a : α} {k : κ} (h : k ≠ key a) :
    (d.put a).get? k = d.get? k := by
  apply Option.ext
  intro b
  rw [get?_eq_some, get?_eq_some, mem_items_put]
  constructor
  · rintro ⟨rfl | ⟨hb, -⟩, rfl⟩
    · exact absurd rfl h
    · exact ⟨hb, rfl⟩
  · rintro ⟨hb, rfl⟩
    exact ⟨.inr ⟨hb, h⟩, rfl⟩

theorem get?_put (d : Keyed key) (a : α) (k : κ) :
    (d.put a).get? k = if k = key a then some a else d.get? k := by
  split
  · rename_i h
    rw [h, get?_put_self]
  · rename_i h
    exact get?_put_ne d h

/-- What is stored last under its key stays. -/
theorem mem_items_foldl_put {l : List α} (hl : (l.map key).Nodup) {a : α} (ha : a ∈ l)
    (d : Keyed key) : a ∈ (l.foldl put d).items := by
  have keep : ∀ (l : List α) (d : Keyed key), a ∈ d.items → (∀ b ∈ l, key b ≠ key a) →
      a ∈ (l.foldl put d).items := by
    intro l
    induction l with
    | nil => exact fun d h _ => h
    | cons b l ih =>
      intro d h hne
      apply ih
      · exact mem_items_put.mpr (.inr ⟨h, (hne b (by simp)).symm⟩)
      · exact fun c hc => hne c (List.mem_cons_of_mem b hc)
  induction l generalizing d with
  | nil => simp at ha
  | cons b l ih =>
    rw [List.map_cons, List.nodup_cons] at hl
    rcases List.mem_cons.mp ha with rfl | ha
    · apply keep l (d.put a) (mem_items_put.mpr (.inl rfl))
      exact fun c hc hk => hl.1 (hk ▸ List.mem_map_of_mem hc)
    · exact ih hl.2 ha (d.put b)

theorem mem_items_erase {d : Keyed key} {k : κ} {b : α} :
    b ∈ (d.erase k).items ↔ b ∈ d.items ∧ key b ≠ k := by
  simp [erase]

theorem mem_keys_erase {d : Keyed key} {k k' : κ} :
    k ∈ (d.erase k').keys ↔ k ∈ d.keys ∧ k ≠ k' := by
  constructor
  · intro h
    obtain ⟨b, hb, rfl⟩ := List.mem_map.mp h
    rw [mem_items_erase] at hb
    exact ⟨List.mem_map_of_mem hb.1, hb.2⟩
  · rintro ⟨h, hne⟩
    obtain ⟨b, hb, rfl⟩ := List.mem_map.mp h
    exact List.mem_map_of_mem (mem_items_erase.mpr ⟨hb, hne⟩)

theorem erase_of_not_mem {d : Keyed key} {k : κ} (h : k ∉ d.keys) : d.erase k = d := by
  obtain ⟨l, hl⟩ := d
  have hall : l.filter (fun a => key a ≠ k) = l := by
    refine List.filter_eq_self.mpr fun a ha => decide_eq_true ?_
    rintro rfl
    exact h (List.mem_map_of_mem ha)
  simp only [erase, hall]

theorem length_items_erase_le (d : Keyed key) (k : κ) :
    (d.erase k).items.length ≤ d.items.length := List.length_filter_le _ _

/-- Only a key that is not there can be taken away without a loss. -/
theorem not_mem_of_length_erase {d : Keyed key} {k : κ}
    (h : (d.erase k).items.length = d.items.length) : k ∉ d.keys := by
  intro hk
  obtain ⟨a, ha, rfl⟩ := List.mem_map.mp hk
  have := List.length_filter_eq_length_iff.mp h a ha
  simp at this

@[simp] theorem get?_erase_self (d : Keyed key) (k : κ) : (d.erase k).get? k = none := by
  rw [get?_eq_none]
  intro h
  obtain ⟨b, hb, rfl⟩ := List.mem_map.mp h
  exact (mem_items_erase.mp hb).2 rfl

theorem get?_erase_ne (d : Keyed key) {k k' : κ} (h : k ≠ k') :
    (d.erase k').get? k = d.get? k := by
  apply Option.ext
  intro b
  rw [get?_eq_some, get?_eq_some, mem_items_erase]
  constructor
  · rintro ⟨⟨hb, -⟩, hk⟩
    exact ⟨hb, hk⟩
  · rintro ⟨hb, rfl⟩
    exact ⟨⟨hb, h⟩, rfl⟩

/-! ### Storing one after the other -/

theorem items_put_of_new {d : Keyed key} {a : α} (h : key a ∉ d.keys) :
    (d.put a).items = d.items ++ [a] := if_neg h

theorem length_items_put (d : Keyed key) (a : α) :
    (d.put a).items.length = if key a ∈ d.keys then d.items.length else d.items.length + 1 := by
  simp only [put]
  split
  · exact List.length_map _
  · exact List.length_append

theorem length_items_foldl_put_le (l : List α) (d : Keyed key) :
    (l.foldl put d).items.length ≤ d.items.length + l.length := by
  induction l generalizing d with
  | nil => exact Nat.le_refl _
  | cons a l ih =>
    have hnext := ih (d.put a)
    rw [length_items_put] at hnext
    rw [List.foldl_cons, List.length_cons]
    split at hnext <;> omega

/-- As many entries as there can be are the old ones and then the new ones. -/
theorem items_foldl_put_of_length {l : List α} {d : Keyed key}
    (h : (l.foldl put d).items.length = d.items.length + l.length) :
    (l.foldl put d).items = d.items ++ l := by
  induction l generalizing d with
  | nil => exact (List.append_nil _).symm
  | cons a l ih =>
    have hle := length_items_foldl_put_le l (d.put a)
    rw [length_items_put] at hle
    rw [List.foldl_cons, List.length_cons] at h
    by_cases hin : key a ∈ d.keys
    · rw [if_pos hin] at hle
      omega
    · have hput := items_put_of_new hin
      have hnext := ih (d := d.put a) (by rw [hput, List.length_append, List.length_singleton]; omega)
      rw [List.foldl_cons, hnext, hput, List.append_assoc, List.singleton_append]

theorem items_foldl_put_of_nodup {l : List α} {d : Keyed key} (h : (d.keys ++ l.map key).Nodup) :
    (l.foldl put d).items = d.items ++ l := by
  induction l generalizing d with
  | nil => exact (List.append_nil _).symm
  | cons a l ih =>
    rw [List.map_cons, List.append_cons] at h
    have hnew : key a ∉ d.keys := by
      intro hin
      have := (List.nodup_append.mp h).1
      exact (List.nodup_append.mp this).2.2 _ hin _ (List.mem_singleton_self _) rfl
    have hput := items_put_of_new hnew
    have hkeys : (d.put a).keys = d.keys ++ [key a] := by rw [keys, hput, List.map_append]; rfl
    rw [List.foldl_cons, ih (by rw [hkeys]; exact h), hput, List.append_assoc, List.singleton_append]

/-- Storing an entry that is there already changes nothing. -/
theorem put_of_mem {d : Keyed key} {a : α} (h : a ∈ d.items) : d.put a = d := by
  obtain ⟨l, hl⟩ := d
  have hin : key a ∈ keys ⟨l, hl⟩ := List.mem_map_of_mem h
  have hsame : replace key a l = l := by
    rw [replace]
    refine (List.map_congr_left fun b hb => ?_).trans (List.map_id l)
    by_cases hk : key b = key a
    · rw [if_pos hk]
      exact (List.inj_on_of_nodup_map hl hb h hk).symm
    · rw [if_neg hk]
      rfl
  simp only [put, if_pos hin, hsame]

theorem foldl_put_of_mem {l : List α} {d : Keyed key} (h : ∀ a ∈ l, a ∈ d.items) :
    l.foldl put d = d := by
  induction l with
  | nil => rfl
  | cons a l ih =>
    rw [List.foldl_cons, put_of_mem (h a List.mem_cons_self)]
    exact ih fun b hb => h b (List.mem_cons_of_mem a hb)

theorem get?_foldl_put_of_not_mem {k : κ} {l : List α} (h : ∀ a ∈ l, k ≠ key a) (d : Keyed key) :
    (l.foldl put d).get? k = d.get? k := by
  induction l generalizing d with
  | nil => rfl
  | cons a l ih =>
    rw [List.foldl_cons, ih fun b hb => h b (List.mem_cons_of_mem a hb)]
    exact get?_put_ne d (h a List.mem_cons_self)

/-- A stored key has one of the entries stored under it. -/
theorem exists_get?_foldl_put {k : κ} {l : List α} (h : ∃ a ∈ l, key a = k) (d : Keyed key) :
    ∃ a ∈ l, key a = k ∧ (l.foldl put d).get? k = some a := by
  induction l generalizing d with
  | nil => simp at h
  | cons a l ih =>
    rw [List.foldl_cons]
    by_cases hlater : ∃ b ∈ l, key b = k
    · obtain ⟨b, hb, hk, hget⟩ := ih hlater (d.put a)
      exact ⟨b, List.mem_cons_of_mem a hb, hk, hget⟩
    · obtain ⟨b, hb, rfl⟩ := h
      have hba : b = a := (List.mem_cons.mp hb).resolve_right fun hin => hlater ⟨b, hin, rfl⟩
      rw [hba] at hlater ⊢
      refine ⟨a, List.mem_cons_self, rfl, ?_⟩
      rw [get?_foldl_put_of_not_mem fun c hc he => hlater ⟨c, hc, he.symm⟩]
      exact get?_put_self d a

end Keyed
