import Mathlib.Data.List.Basic

/-! Mutual exclusion with expiry. What has been done to a lock is exclusive if it is
acquired only while nobody has it, and released only by the one who has. -/

namespace Exclusion

variable {ν : Type}

inductive Deed (ν : Type) where
  | acquired (who : ν)
  | released (who : ν)
  | expired
  deriving DecidableEq, Repr

/-- Who has the lock after one more deed, or `none` if the deed is not allowed. -/
def step [DecidableEq ν] : Option ν → Deed ν → Option (Option ν)
  | none, .acquired who => some (some who)
  | some holder, .released who => if who = holder then some none else none
  | some _, .expired => some none
  | _, _ => none

/-- Who has the lock after the deeds, when `holder` has it at first. -/
def holderAfter [DecidableEq ν] (holder : Option ν) (deeds : List (Deed ν)) : Option (Option ν) :=
  deeds.foldlM step holder

variable [DecidableEq ν] {holder holder' : Option ν} {who other : ν} {deeds : List (Deed ν)}

theorem holderAfter_append (holder : Option ν) (deeds deeds' : List (Deed ν)) :
    holderAfter holder (deeds ++ deeds') =
      (holderAfter holder deeds).bind fun h => holderAfter h deeds' := by
  rw [holderAfter, List.foldlM_append]
  rfl

theorem holderAfter_cons (d : Deed ν) :
    holderAfter holder (d :: deeds) = (step holder d).bind fun h => holderAfter h deeds := rfl

/-- One who has the lock keeps it until it releases it or it expires. -/
theorem held_or_mem (h : holderAfter (some who) deeds = some holder') :
    holder' = some who ∨ .released who ∈ deeds ∨ .expired ∈ deeds := by
  induction deeds with
  | nil => exact .inl (Option.some.inj h).symm
  | cons d deeds ih =>
    cases d with
    | acquired other => simp [holderAfter_cons, step] at h
    | released other =>
      by_cases hw : other = who
      · exact .inr (.inl (hw ▸ List.mem_cons_self))
      · simp [holderAfter_cons, step, hw] at h
    | expired => exact .inr (.inr List.mem_cons_self)

/-- Between two acquisitions the first holder releases the lock or it expires. -/
theorem released_between {before between rest : List (Deed ν)}
    (h : holderAfter holder (before ++ .acquired who :: (between ++ .acquired other :: rest)) ≠ none) :
    .released who ∈ between ∨ .expired ∈ between := by
  rw [holderAfter_append] at h
  cases hbefore : holderAfter holder before with
  | none => simp [hbefore] at h
  | some holder₁ =>
    cases holder₁ with
    | some who₁ => simp [hbefore, holderAfter_cons, step] at h
    | none =>
      rw [hbefore, Option.bind_some, holderAfter_cons] at h
      simp only [step, Option.bind_some, holderAfter_append] at h
      cases hbetween : holderAfter (some who) between with
      | none => simp [hbetween] at h
      | some holder₂ =>
        rcases held_or_mem hbetween with rfl | hmem
        · simp [hbetween, holderAfter_cons, step] at h
        · exact hmem

end Exclusion
