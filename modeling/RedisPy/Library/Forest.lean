import Mathlib.Data.List.Basic
import Mathlib.Data.List.TakeWhile

/-! Ordered forests: their labels in pre-order with the depth of each, which tell the forest,
and what it does to them to append a child on the way down to the last label. -/

universe u v

/-- A list of trees: the first of them by its label and its children, and the others. -/
inductive Forest (α : Type u) where
  | nil
  | cons (label : α) (children next : Forest α)
  deriving Repr

namespace Forest

variable {α : Type u} {β : Type v}

def map (f : α → β) : Forest α → Forest β
  | nil => nil
  | cons a children next => cons (f a) (children.map f) (next.map f)

/-- The labels in pre-order. -/
def labels : Forest α → List α
  | nil => []
  | cons a children next => a :: (children.labels ++ next.labels)

/-- The labels in pre-order with their depths, which start at `d`. -/
def preorder (d : Nat) : Forest α → List (Nat × α)
  | nil => []
  | cons a children next => (d, a) :: (children.preorder (d + 1) ++ next.preorder d)

/-- The trees with one more, a leaf. -/
def concat (x : α) : Forest α → Forest α
  | nil => cons x nil nil
  | cons a children next => cons a children (next.concat x)

/-- A leaf appended to the children of the label that `p` picks. -/
def appendChild (p : α → Bool) (x : α) : Forest α → Forest α
  | nil => nil
  | cons a children next =>
    if p a then cons a (children.concat x) next
    else cons a (children.appendChild p x) (next.appendChild p x)

/-- The first tree that `p` picks by the label of its root. -/
def find? (p : α → Bool) : Forest α → Option (α × Forest α)
  | nil => none
  | cons a children next =>
    if p a then some (a, children)
    else (children.find? p).orElse fun _ => next.find? p

/-- The labels on the way down to the last one. -/
def spine : Forest α → List α
  | nil => []
  | cons a children nil => a :: children.spine
  | cons _ _ next => next.spine

/-! ### Pre-order -/

theorem map_snd_preorder (f : Forest α) (d : Nat) : (f.preorder d).map Prod.snd = f.labels := by
  induction f generalizing d with
  | nil => rfl
  | cons a children next ihc ihn => simp [preorder, labels, ihc, ihn]

theorem preorder_map (f : Forest α) (g : α → β) (d : Nat) :
    (f.map g).preorder d = (f.preorder d).map fun e => (e.1, g e.2) := by
  induction f generalizing d with
  | nil => rfl
  | cons a children next ihc ihn => simp [map, preorder, ihc, ihn]

theorem preorder_succ (f : Forest α) (d : Nat) :
    f.preorder (d + 1) = (f.preorder d).map fun e => (e.1 + 1, e.2) := by
  induction f generalizing d with
  | nil => rfl
  | cons a children next ihc ihn => simp [preorder, ihc, ihn]

theorem le_of_mem_preorder {f : Forest α} {d : Nat} {e : Nat × α} (h : e ∈ f.preorder d) :
    d ≤ e.1 := by
  induction f generalizing d with
  | nil => simp [preorder] at h
  | cons a children next ihc ihn =>
    simp only [preorder, List.mem_cons, List.mem_append] at h
    rcases h with rfl | h | h
    · exact Nat.le_refl d
    · exact Nat.le_of_succ_le (ihc h)
    · exact ihn h

/-- The children are what comes before the next label that is no deeper. -/
theorem takeWhile_preorder (children next : Forest α) (d : Nat) :
    (children.preorder (d + 1) ++ next.preorder d).takeWhile (fun e => d < e.1) =
      children.preorder (d + 1) := by
  have hdeep : ∀ e ∈ children.preorder (d + 1), decide (d < e.1) = true := fun e he =>
    decide_eq_true (le_of_mem_preorder he)
  rw [List.takeWhile_append_of_pos hdeep]
  cases next <;> simp [preorder]

/-- The labels with their depths tell the forest. -/
theorem preorder_injective {f g : Forest α} {d : Nat} (h : f.preorder d = g.preorder d) : f = g := by
  induction f generalizing g d with
  | nil =>
    cases g with
    | nil => rfl
    | cons b children next => simp [preorder] at h
  | cons a children next ihc ihn =>
    cases g with
    | nil => simp [preorder] at h
    | cons b children' next' =>
      simp only [preorder, List.cons.injEq, Prod.mk.injEq, true_and] at h
      obtain ⟨rfl, h⟩ := h
      have hchildren : children.preorder (d + 1) = children'.preorder (d + 1) := by
        rw [← takeWhile_preorder children next, h, takeWhile_preorder]
      rw [hchildren] at h
      rw [ihc hchildren, ihn (List.append_cancel_left h)]

/-! ### Appending a child -/

theorem preorder_concat (f : Forest α) (x : α) (d : Nat) :
    (f.concat x).preorder d = f.preorder d ++ [(d, x)] := by
  induction f with
  | nil => rfl
  | cons a children next _ ihn => simp [concat, preorder, ihn]

theorem spine_cons (a : α) (children : Forest α) {next : Forest α} (h : next ≠ nil) :
    (cons a children next).spine = next.spine := by
  cases next with
  | nil => exact absurd rfl h
  | cons => rfl

theorem concat_ne_nil (f : Forest α) (x : α) : f.concat x ≠ nil := by
  cases f <;> simp [concat]

theorem spine_concat (f : Forest α) (x : α) : (f.concat x).spine = [x] := by
  induction f with
  | nil => rfl
  | cons a children next _ ihn => rw [concat, spine_cons a children (concat_ne_nil next x), ihn]

theorem mem_labels_of_mem_spine {f : Forest α} {a : α} (h : a ∈ f.spine) : a ∈ f.labels := by
  induction f with
  | nil => simp [spine] at h
  | cons b children next ihc ihn =>
    by_cases hn : next = nil
    · subst hn
      simp only [spine, List.mem_cons] at h
      rcases h with rfl | h
      · simp [labels]
      · simp [labels, ihc h]
    · rw [spine_cons b children hn] at h
      simp [labels, ihn h]

theorem appendChild_of_not_mem {p : α → Bool} {f : Forest α} (h : ∀ a ∈ f.labels, p a = false)
    (x : α) : f.appendChild p x = f := by
  induction f with
  | nil => rfl
  | cons a children next ihc ihn =>
    simp only [labels, List.mem_cons, List.mem_append, forall_eq_or_imp] at h
    rw [appendChild, h.1, ihc fun b hb => h.2 b (.inl hb), ihn fun b hb => h.2 b (.inr hb)]
    rfl

theorem appendChild_ne_nil (p : α → Bool) (x : α) {f : Forest α} (h : f ≠ nil) :
    f.appendChild p x ≠ nil := by
  cases f with
  | nil => exact absurd rfl h
  | cons a children next =>
    rw [appendChild]
    split <;> simp

/-- A child of a label on the spine comes last, one deeper than the label; with its parent and
what is above it, it is the new spine. -/
theorem appendChild_spine {p : α → Bool} {f : Forest α} {before after : List α} {a : α}
    (hs : f.spine = before ++ a :: after) (hp : p a = true)
    (hu : f.labels.Pairwise fun b c => p b = false ∨ p c = false) (x : α) (d : Nat) :
    (f.appendChild p x).preorder d = f.preorder d ++ [(d + before.length + 1, x)] ∧
      (f.appendChild p x).spine = before ++ [a, x] := by
  induction f generalizing before d with
  | nil => simp [spine] at hs
  | cons b children next ihc ihn =>
    simp only [labels, List.pairwise_cons, List.pairwise_append, List.mem_append] at hu
    obtain ⟨hb, huc, hun, hcn⟩ := hu
    by_cases hn : next = nil
    · subst hn
      rw [spine] at hs
      cases before with
      | nil =>
        obtain ⟨rfl, -⟩ := List.cons.inj hs
        rw [appendChild, if_pos hp]
        simp [preorder, preorder_concat, spine, spine_concat]
      | cons b' before =>
        obtain ⟨rfl, htail⟩ := List.cons.inj hs
        have ha : a ∈ children.labels := mem_labels_of_mem_spine (by rw [htail]; simp)
        have hpb : p b = false := by simpa [hp] using hb a (.inl ha)
        obtain ⟨hpre, hspine⟩ := ihc htail huc (d + 1)
        rw [appendChild, hpb]
        constructor
        · simp [preorder, appendChild, hpre]
          omega
        · simp [appendChild, spine, hspine]
    · rw [spine_cons b children hn] at hs
      have ha : a ∈ next.labels := mem_labels_of_mem_spine (by rw [hs]; simp)
      have hpb : p b = false := by simpa [hp] using hb a (.inr ha)
      have hpc : ∀ c ∈ children.labels, p c = false := fun c hc => by simpa [hp] using hcn c hc a ha
      obtain ⟨hpre, hspine⟩ := ihn hs hun d
      rw [appendChild, hpb, appendChild_of_not_mem hpc]
      constructor
      · simp [preorder, hpre]
      · exact (spine_cons b children (appendChild_ne_nil p x hn)).trans hspine

/-! ### Finding a tree -/

/-- What is found is less than the whole. -/
theorem length_find? {p : α → Bool} {f : Forest α} {a : α} {children : Forest α}
    (h : f.find? p = some (a, children)) : children.labels.length < f.labels.length := by
  induction f with
  | nil => cases h
  | cons b cs next ihc ihn =>
    rw [find?] at h
    simp only [labels, List.length_cons, List.length_append]
    split at h
    next =>
      cases h
      omega
    next =>
      cases hc : cs.find? p with
      | some found =>
        rw [hc] at h
        cases h
        have := ihc hc
        omega
      | none =>
        rw [hc] at h
        have := ihn h
        omega

end Forest
