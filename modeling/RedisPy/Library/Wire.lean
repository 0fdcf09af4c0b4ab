import Mathlib.Data.List.Basic

/-! Logs of what is sent on several connections, and what it takes for a message to
come right after another one on the same connection. -/

namespace Wire

universe u v

variable {κ : Type u} {μ : Type v} [DecidableEq κ]

/-- Who sent what, in order. -/
abbrev Log (κ : Type u) (μ : Type v) := List (κ × μ)

/-- The last message on a connection. -/
def lastOn (k : κ) (w : Log κ μ) : Option μ := ((w.filter (·.1 = k)).getLast?).map Prod.snd

/-- Every `b` comes right after an `a` on its connection. -/
def Preceded (a b : μ) (w : Log κ μ) : Prop :=
  ∀ w₁ k w₂, w = w₁ ++ (k, b) :: w₂ → lastOn k w₁ = some a

variable {a b m : μ} {k k' : κ} {w w' : Log κ μ}

@[simp] theorem lastOn_concat : lastOn k (w ++ [(k, m)]) = some m := by
  simp [lastOn]

theorem lastOn_append_of_forall_ne (h : ∀ e ∈ w', e.1 ≠ k) : lastOn k (w ++ w') = lastOn k w := by
  have hnil : w'.filter (·.1 = k) = [] := by simpa using h
  rw [lastOn, List.filter_append, hnil, List.append_nil, lastOn]

theorem preceded_nil : Preceded a b ([] : Log κ μ) := by
  intro w₁ k w₂ h
  simp at h

theorem Preceded.concat (h : Preceded a b w) (hm : m = b → lastOn k w = some a) :
    Preceded a b (w ++ [(k, m)]) := by
  intro w₁ k' w₂ hw
  rcases List.eq_nil_or_concat w₂ with rfl | ⟨w₂', e, rfl⟩
  · obtain ⟨rfl, he⟩ := List.append_inj' hw rfl
    obtain ⟨rfl, rfl⟩ := Prod.mk.inj (List.singleton_inj.mp he)
    exact hm rfl
  · have hw' : w ++ [(k, m)] = (w₁ ++ (k', b) :: w₂') ++ [e] := by simpa using hw
    exact h w₁ k' w₂' (List.append_inj' hw' rfl).1

theorem Preceded.append (h : Preceded a b w) (hw' : ∀ e ∈ w', e.2 ≠ b) : Preceded a b (w ++ w') := by
  induction w' generalizing w with
  | nil => rwa [List.append_nil]
  | cons e w' ih =>
    rw [← List.singleton_append, ← List.append_assoc]
    apply ih
    · exact h.concat fun he => absurd he (hw' e List.mem_cons_self)
    · exact fun e he => hw' e (List.mem_cons_of_mem _ he)

end Wire
