import Mathlib.Data.List.Basic

/-! Tasks that share a state and take turns. Between two of its turns a task waits
for something from outside, and the others run. -/

namespace Interleave

variable {κ σ τ ι ρ : Type}

/-- What a task is when it is started, and what one turn makes of it and of the shared
state. A turn that cannot be taken is `none`. -/
structure Program (κ σ τ ι : Type) where
  start : κ → τ
  resume : σ → τ → ι → Option (σ × τ)

structure World (σ τ : Type) where
  shared : σ
  tasks : List τ

inductive Move (κ ι : Type) where
  | spawn (k : κ)
  | resume (i : Nat) (e : ι)

namespace Program

variable (p : Program κ σ τ ι)

/-- The world after a move; one that cannot be made changes nothing. -/
def advance (w : World σ τ) : Move κ ι → World σ τ
  | .spawn k => { w with tasks := w.tasks ++ [p.start k] }
  | .resume i e =>
    match w.tasks[i]? with
    | none => w
    | some t =>
      match p.resume w.shared t e with
      | none => w
      | some (s, t') => { shared := s, tasks := w.tasks.set i t' }

variable {p} {w : World σ τ} {i : Nat} {t t' : τ} {e : ι} {s : σ}

theorem advance_idle (h : w.tasks[i]? = none) : p.advance w (.resume i e) = w := by
  simp [advance, h]

theorem advance_stuck (h : w.tasks[i]? = some t) (hr : p.resume w.shared t e = none) :
    p.advance w (.resume i e) = w := by
  simp [advance, h, hr]

theorem advance_resume (h : w.tasks[i]? = some t) (hr : p.resume w.shared t e = some (s, t')) :
    p.advance w (.resume i e) = { shared := s, tasks := w.tasks.set i t' } := by
  simp [advance, h, hr]

/-- An invariant is kept if a new task and every turn that is taken keep it. -/
theorem advance_keeps {I : World σ τ → Prop} {ok : World σ τ → Move κ ι → Prop}
    (hspawn : ∀ w k, I w → I { w with tasks := w.tasks ++ [p.start k] })
    (hresume : ∀ w i e t s t', I w → ok w (.resume i e) → w.tasks[i]? = some t →
      p.resume w.shared t e = some (s, t') → I { shared := s, tasks := w.tasks.set i t' })
    (w : World σ τ) (m : Move κ ι) (hw : I w) (hok : ok w m) : I (p.advance w m) := by
  cases m with
  | spawn k => exact hspawn w k hw
  | resume i e =>
    cases ht : w.tasks[i]? with
    | none => rwa [advance_idle ht]
    | some t =>
      cases hr : p.resume w.shared t e with
      | none => rwa [advance_stuck ht hr]
      | some r =>
        obtain ⟨s, t'⟩ := r
        rw [advance_resume ht hr]
        exact hresume w i e t s t' hw hok ht hr

end Program

/-! ### What the tasks hold -/

namespace World

variable {held : τ → List ρ} {w : World σ τ} {i : Nat} {t t' : τ} {s : σ}

def holdings (held : τ → List ρ) (w : World σ τ) : List ρ := w.tasks.flatMap held

theorem holdings_spawn (h : held t = []) :
    holdings held { w with tasks := w.tasks ++ [t] } = w.holdings held := by
  simp [holdings, h]

/-- What the other tasks hold, which one task's turn leaves as it is. -/
def others (held : τ → List ρ) (w : World σ τ) (i : Nat) : List ρ :=
  (w.tasks.eraseIdx i).flatMap held

theorem holdings_perm (h : w.tasks[i]? = some t) :
    (w.holdings held).Perm (held t ++ w.others held i) := by
  obtain ⟨s, tasks⟩ := w
  simp only [holdings, others] at h ⊢
  induction tasks generalizing i with
  | nil => simp at h
  | cons u us ih =>
    cases i with
    | zero =>
      obtain rfl : u = t := by simpa using h
      exact List.Perm.refl _
    | succ i =>
      have hus := (ih (by simpa using h)).append_left (held u)
      rw [List.flatMap_cons, List.eraseIdx_cons_succ, List.flatMap_cons]
      refine hus.trans ?_
      rw [← List.append_assoc, ← List.append_assoc]
      exact List.perm_append_comm.append_right _

theorem holdings_set_perm (h : w.tasks[i]? = some t) :
    (holdings held { shared := s, tasks := w.tasks.set i t' }).Perm
      (held t' ++ w.others held i) := by
  have hi := (List.getElem?_eq_some_iff.mp h).1
  have hset : ({ shared := s, tasks := w.tasks.set i t' } : World σ τ).tasks[i]? = some t' := by
    simp [hi]
  have herase : others held ({ shared := s, tasks := w.tasks.set i t' } : World σ τ) i =
      w.others held i := by
    simp [others, List.eraseIdx_set_eq]
  exact herase ▸ holdings_perm hset

/-- What is held once is held by one task. -/
theorem holder_unique {j : Nat} {x : ρ} (h : (w.holdings held).Nodup) (ht : w.tasks[i]? = some t)
    (hu : w.tasks[j]? = some t') (hx : x ∈ held t) (hx' : x ∈ held t') : i = j := by
  by_contra hij
  have hnodup := (holdings_perm ht).nodup_iff.mp h
  have hothers : x ∈ w.others held i :=
    List.mem_flatMap.mpr ⟨t', List.mem_eraseIdx_iff_getElem?.mpr ⟨j, Ne.symm hij, hu⟩, hx'⟩
  exact (List.nodup_append.mp hnodup).2.2 x hx x hothers rfl

/-- Each of some tasks wants what one of them holds, be it itself. -/
def Deadlocked (held : τ → List ρ) (wants : τ → Option ρ) (w : World σ τ) : Prop :=
  ∃ is : List Nat, is ≠ [] ∧ ∀ i ∈ is, ∃ t x, w.tasks[i]? = some t ∧ wants t = some x ∧
    ∃ j ∈ is, ∃ u, w.tasks[j]? = some u ∧ x ∈ held u

theorem deadlocked_of_self {wants : τ → Option ρ} {x : ρ} (ht : w.tasks[i]? = some t)
    (hw : wants t = some x) (hx : x ∈ held t) : Deadlocked held wants w := by
  refine ⟨[i], List.cons_ne_nil i [], fun k hk => ?_⟩
  obtain rfl := List.mem_singleton.mp hk
  exact ⟨t, x, ht, hw, k, hk, t, ht, hx⟩

theorem deadlocked_of_two {wants : τ → Option ρ} {j : Nat} {x y : ρ} (ht : w.tasks[i]? = some t)
    (hu : w.tasks[j]? = some t') (hw : wants t = some x) (hx : x ∈ held t')
    (hw' : wants t' = some y) (hy : y ∈ held t) : Deadlocked held wants w := by
  refine ⟨[i, j], List.cons_ne_nil i [j], fun k hk => ?_⟩
  rcases List.mem_pair.mp hk with rfl | rfl
  · exact ⟨t, x, ht, hw, j, by simp, t', hu, hx⟩
  · exact ⟨t', y, hu, hw', i, by simp, t, ht, hy⟩

theorem holdings_nil (h : ∀ t ∈ w.tasks, held t = []) : w.holdings held = [] :=
  List.flatMap_eq_nil_iff.mpr h

end World

end Interleave
