import RedisPy.Library.Raising

/-! Courses of calls: a state that each call takes to the next one, and what it
takes for every call of a course to end well. Likewise the rounds of a loop. -/

namespace Course

universe u v

variable {σ : Type u} {ι : Type v}

/-- Every call of the course meets `p` in the state in which it is made. -/
def Each (step : σ → ι → σ) (p : σ → ι → Prop) : σ → List ι → Prop
  | _, [] => True
  | s, i :: is => p s i ∧ Each step p (step s i) is

variable {step : σ → ι → σ} {p q allowed good ok : σ → ι → Prop} {I : σ → Prop} {s : σ}
  {is js : List ι}

instance decidableEach [hp : ∀ s i, Decidable (p s i)] :
    (s : σ) → (is : List ι) → Decidable (Each step p s is)
  | _, [] => isTrue trivial
  | s, i :: is =>
    have := decidableEach (step s i) is
    inferInstanceAs (Decidable (p s i ∧ Each step p (step s i) is))

/-- If every call keeps the invariant, as long as it is in order, and ends well
just if it is in order, all calls of a course end well just if all are in order. -/
theorem each_good_iff (hkeep : ∀ s i, I s → allowed s i → ok s i → good s i ∧ I (step s i))
    (hbreak : ∀ s i, I s → allowed s i → good s i → ok s i) (hs : I s)
    (ha : Each step allowed s is) : Each step good s is ↔ Each step ok s is := by
  induction is generalizing s with
  | nil => exact Iff.rfl
  | cons i is ih =>
    obtain ⟨hi, ha⟩ := ha
    constructor
    · rintro ⟨hg, hgs⟩
      have hok := hbreak s i hs hi hg
      exact ⟨hok, (ih (hkeep s i hs hi hok).2 ha).mp hgs⟩
    · rintro ⟨hok, hoks⟩
      obtain ⟨hg, hinv⟩ := hkeep s i hs hi hok
      exact ⟨hg, (ih hinv ha).mpr hoks⟩

/-- If every call in order keeps the invariant and ends well, a course in order ends well. -/
theorem each_good (hkeep : ∀ s i, I s → ok s i → good s i ∧ I (step s i)) (hs : I s)
    (hok : Each step ok s is) : Each step good s is := by
  induction is generalizing s with
  | nil => trivial
  | cons i is ih =>
    obtain ⟨hg, hinv⟩ := hkeep s i hs hok.1
    exact ⟨hg, ih hinv hok.2⟩

/-- An invariant that every call in order keeps holds after every call. -/
theorem each_of_invariant (hkeep : ∀ s i, I s → allowed s i → ok s i → I (step s i))
    (hs : I s) (ha : Each step allowed s is) (hok : Each step ok s is) :
    Each step (fun s i => I (step s i)) s is := by
  induction is generalizing s with
  | nil => trivial
  | cons i is ih =>
    have hinv := hkeep s i hs ha.1 hok.1
    exact ⟨hinv, ih hinv ha.2 hok.2⟩

theorem Each.trivial (s : σ) (is : List ι) : Each step (fun _ _ => True) s is := by
  induction is generalizing s with
  | nil => exact True.intro
  | cons i is ih => exact ⟨True.intro, ih _⟩

theorem each_append : Each step p s (is ++ js) ↔ Each step p s is ∧ Each step p (is.foldl step s) js := by
  induction is generalizing s with
  | nil => exact (iff_of_eq (true_and _)).symm
  | cons i is ih => exact (and_congr_right fun _ => ih).trans (and_assoc).symm

theorem foldl_keeps (hkeep : ∀ s i, I s → I (step s i)) (hs : I s) : I (is.foldl step s) := by
  induction is generalizing s with
  | nil => exact hs
  | cons i is ih => exact ih (hkeep s i hs)

theorem Each.mono (hpq : ∀ s i, p s i → q s i) (h : Each step p s is) : Each step q s is := by
  induction is generalizing s with
  | nil => trivial
  | cons i is ih => exact ⟨hpq s i h.1, ih h.2⟩

section
open Raising

variable {ε τ α : Type u} {m : EStateM ε τ (Option α)} {f : Nat → EStateM ε τ α} {I r : τ → Prop}

/-- Every round of a loop that ends with the first response begins in a state that
meets `r`. -/
def EachRound (m : EStateM ε τ (Option α)) (r : τ → Prop) : Nat → τ → Prop
  | 0, _ => True
  | n + 1, s => r s ∧ ∀ s', m.run s = .ok none s' → EachRound m r n s'

theorem EachRound.next {n : Nat} {s s' : τ} (hr : r s) (hm : m.run s = .ok none s')
    (h : EachRound m r n s') : EachRound m r (n + 1) s := by
  refine ⟨hr, fun s'' hm' => ?_⟩
  obtain ⟨-, rfl⟩ := EStateM.Result.ok.inj (hm.symm.trans hm')
  exact h

theorem EachRound.last {n : Nat} {s s' : τ} {a : α} (hr : r s) (hm : m.run s = .ok (some a) s') :
    EachRound m r (n + 1) s :=
  ⟨hr, fun s'' hm' => by simp [hm] at hm'⟩

/-- An invariant that every round in order keeps holds when the loop is left. -/
theorem EachRound.keeps (hzero : ∀ s, I s → I (state ((f 0).run s)))
    (hsucc : ∀ n, f (n + 1) = m >>= fun response => response.elim (f n) pure)
    (hm : ∀ s, I s → r s → Post (m.run s) (fun _ => I) (fun _ => I)) {n : Nat} {s : τ}
    (h : EachRound m r n s) (hs : I s) : I (state ((f n).run s)) := by
  induction n generalizing s with
  | zero => exact hzero s hs
  | succ n ih =>
    have hround := hm s hs h.1
    rw [hsucc, EStateM.run_bind]
    cases hr : m.run s with
    | error e s' =>
      rw [hr] at hround
      exact hround
    | ok response s' =>
      rw [hr] at hround
      cases response with
      | some a => exact hround
      | none => exact ih (h.2 s' hr) hround

end

end Course
