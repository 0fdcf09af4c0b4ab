import Mathlib.Data.List.Basic
import RedisPy.Library.Raising

/-! Readers over a state that carries an unread stream. A stateful reader
consumes a list of tokens when, on every ready state whose stream starts with
them, it returns its value and leaves exactly the rest unread. The rules below
compose that along the reader's program text. -/

namespace Reading

universe u

variable {τ ε σ α β : Type u}

/-- What a reader's state says about its stream: which states are in order, and
what is still unread in them. -/
structure View (τ σ : Type u) where
  Ready : σ → Prop
  unread : σ → List τ

/-- `m` consumes exactly `ts`, in front of any rest, and returns `a`. -/
def Reads (V : View τ σ) (m : EStateM ε σ α) (ts : List τ) (a : α) : Prop :=
  ∀ s rest, V.Ready s → V.unread s = ts ++ rest →
    ∃ s', m.run s = .ok a s' ∧ V.Ready s' ∧ V.unread s' = rest

variable {V : View τ σ}

theorem Reads.pure (a : α) : Reads V (pure a : EStateM ε σ α) [] a :=
  fun s _ hs hu => ⟨s, rfl, hs, hu⟩

theorem Reads.bind {m : EStateM ε σ α} {f : α → EStateM ε σ β} {ts us : List τ} {a : α} {b : β}
    (hm : Reads V m ts a) (hf : Reads V (f a) us b) : Reads V (m >>= f) (ts ++ us) b := by
  intro s rest hs hu
  rw [List.append_assoc] at hu
  obtain ⟨s₁, h₁, hs₁, hu₁⟩ := hm s (us ++ rest) hs hu
  obtain ⟨s₂, h₂, hs₂, hu₂⟩ := hf s₁ rest hs₁ hu₁
  exact ⟨s₂, by rw [EStateM.run_bind, h₁]; exact h₂, hs₂, hu₂⟩

/-- A last step that consumes nothing. -/
theorem Reads.bind_pure {m : EStateM ε σ α} {f : α → EStateM ε σ β} {ts : List τ} {a : α} {b : β}
    (hm : Reads V m ts a) (hf : f a = Pure.pure b) : Reads V (m >>= f) ts b := by
  have h : Reads V (m >>= f) (ts ++ []) b := hm.bind (hf ▸ Reads.pure b)
  rwa [List.append_nil] at h

theorem Reads.congr {m m' : EStateM ε σ α} {ts : List τ} {a : α}
    (h : Reads V m ts a) (hm : m' = m) : Reads V m' ts a :=
  hm ▸ h

/-- Read `n` values one after another. -/
def readMany (m : EStateM ε σ α) : Nat → EStateM ε σ (List α)
  | 0 => Pure.pure []
  | n + 1 => do
    let a ← m
    let as ← readMany m n
    Pure.pure (a :: as)

/-- Consecutive encodings are read in order. -/
theorem Reads.readMany {γ : Type*} {m : EStateM ε σ α} (enc : γ → List τ) (val : γ → α)
    (xs : List γ) (h : ∀ x ∈ xs, Reads V m (enc x) (val x)) :
    Reads V (readMany m xs.length) (xs.flatMap enc) (xs.map val) := by
  induction xs with
  | nil => exact Reads.pure []
  | cons x xs ih =>
    have hx := h x (by simp)
    have hxs := ih (fun y hy => h y (by simp [hy]))
    exact hx.bind (hxs.bind_pure rfl)

/-- Read `n` rounds, each folding what it reads into an accumulator. -/
def readFold (step : β → EStateM ε σ β) : Nat → β → EStateM ε σ β
  | 0, acc => Pure.pure acc
  | n + 1, acc => do
    let acc ← step acc
    readFold step n acc

theorem Reads.readFold {γ : Type*} {step : β → EStateM ε σ β} (enc : γ → List τ) (fold : β → γ → β)
    (xs : List γ) (h : ∀ x ∈ xs, ∀ acc, Reads V (step acc) (enc x) (fold acc x)) (acc : β) :
    Reads V (readFold step xs.length acc) (xs.flatMap enc) (xs.foldl fold acc) := by
  induction xs generalizing acc with
  | nil => exact Reads.pure acc
  | cons x xs ih =>
    exact (h x (by simp) acc).bind (ih (fun y hy => h y (by simp [hy])) (fold acc x))

/-- The first component's view of the larger state. -/
def View.first (V : View τ σ) (ω : Type u) : View τ (σ × ω) where
  Ready s := V.Ready s.1
  unread s := V.unread s.1

theorem Reads.first {ω : Type u} {m : EStateM ε σ α} {ts : List τ} {a : α} (h : Reads V m ts a) :
    Reads (V.first ω) (Raising.first m) ts a := by
  rintro ⟨s, w⟩ rest hs hu
  obtain ⟨s', hr, hs', hu'⟩ := h s rest hs hu
  refine ⟨(s', w), ?_, hs', hu'⟩
  rw [Raising.run_first, hr]

end Reading
