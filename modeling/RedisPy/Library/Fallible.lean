import Mathlib.Data.List.Forall2

/-! Lists of computations that may fail, done one after the other. -/

namespace Fallible

universe u v w

variable {ε : Type u} {α : Type v} {β γ : Type w} {f : α → Except ε β} {x : α} {xs : List α}
  {ys : List β}

theorem bind_ok {m : Except ε β} {g : β → Except ε γ} {c : γ} (h : m >>= g = .ok c) :
    ∃ b, m = .ok b ∧ g b = .ok c := by
  cases m with
  | error e => cases h
  | ok b => exact ⟨b, rfl, h⟩

theorem map_ok {m : Except ε β} {g : β → γ} {c : γ} (h : m.map g = .ok c) :
    ∃ b, m = .ok b ∧ g b = c := by
  cases m with
  | error e => cases h
  | ok b => exact ⟨b, rfl, Except.ok.inj h⟩

theorem mapM_cons_ok (h : (x :: xs).mapM f = .ok ys) :
    ∃ y ys', f x = .ok y ∧ xs.mapM f = .ok ys' ∧ ys = y :: ys' := by
  rw [List.mapM_cons] at h
  obtain ⟨y, hy, h⟩ := bind_ok h
  obtain ⟨ys', hys, h⟩ := bind_ok h
  cases h
  exact ⟨y, ys', hy, hys, rfl⟩

/-- The results stand in the places of what they come from. -/
theorem mapM_ok_iff_forall₂ : xs.mapM f = .ok ys ↔ List.Forall₂ (fun x y => f x = .ok y) xs ys := by
  constructor
  · intro h
    induction xs generalizing ys with
    | nil =>
      cases h
      exact .nil
    | cons x xs ih =>
      obtain ⟨y, ys', hx, hxs, rfl⟩ := mapM_cons_ok h
      exact .cons hx (ih hxs)
  · intro h
    induction h with
    | nil => rfl
    | cons hx _ ih =>
      rw [List.mapM_cons, hx, ih]
      rfl

theorem exists_mapM_ok_iff : (∃ ys, xs.mapM f = .ok ys) ↔ ∀ x ∈ xs, ∃ y, f x = .ok y := by
  induction xs with
  | nil => exact iff_of_true ⟨[], rfl⟩ (by simp)
  | cons x xs ih =>
    constructor
    · rintro ⟨ys, h⟩ z hz
      obtain ⟨y, ys', hx, hxs, -⟩ := mapM_cons_ok h
      cases List.mem_cons.mp hz with
      | inl hz => exact ⟨y, hz ▸ hx⟩
      | inr hz => exact ih.mp ⟨ys', hxs⟩ z hz
    · intro h
      obtain ⟨y, hx⟩ := h x List.mem_cons_self
      obtain ⟨ys, hxs⟩ := ih.mpr fun z hz => h z (List.mem_cons_of_mem x hz)
      rw [List.mapM_cons, hx, hxs]
      exact ⟨y :: ys, rfl⟩

/-- All succeed with results of a kind exactly when each one does. -/
theorem exists_mapM_forall₂_iff {R : α → β → Prop} :
    (∃ ys, xs.mapM f = .ok ys ∧ List.Forall₂ R xs ys) ↔ ∀ x ∈ xs, ∃ y, f x = .ok y ∧ R x y := by
  constructor
  · rintro ⟨ys, hys, hR⟩
    have hall := mapM_ok_iff_forall₂.mp hys
    clear hys
    induction hall with
    | nil => simp
    | cons hx _ ih =>
      obtain ⟨hr, hR⟩ := List.forall₂_cons.mp hR
      intro x hx'
      rcases List.mem_cons.mp hx' with rfl | hx'
      · exact ⟨_, hx, hr⟩
      · exact ih hR x hx'
  · intro h
    induction xs with
    | nil => exact ⟨[], rfl, .nil⟩
    | cons x xs ih =>
      obtain ⟨y, hy, hr⟩ := h x List.mem_cons_self
      obtain ⟨ys, hys, hR⟩ := ih fun z hz => h z (List.mem_cons_of_mem x hz)
      refine ⟨y :: ys, ?_, .cons hr hR⟩
      rw [List.mapM_cons, hy, hys]
      rfl

theorem mapM_eq_ok_map {g : α → β} : xs.mapM f = .ok (xs.map g) ↔ ∀ x ∈ xs, f x = .ok (g x) := by
  rw [mapM_ok_iff_forall₂, List.forall₂_map_right_iff, List.forall₂_same]

theorem mapM_congr {g : α → Except ε β} (h : ∀ x ∈ xs, f x = g x) : xs.mapM f = xs.mapM g := by
  induction xs with
  | nil => rfl
  | cons x xs ih =>
    rw [List.mapM_cons, List.mapM_cons, h x List.mem_cons_self,
      ih fun y hy => h y (List.mem_cons_of_mem x hy)]

theorem length_of_mapM_ok (h : xs.mapM f = .ok ys) : ys.length = xs.length :=
  (mapM_ok_iff_forall₂.mp h).length_eq.symm

end Fallible
