import Mathlib.Data.List.Basic

/-! Leases: things that are obtained from a pool, used, and given back to the
pool they came from. A history is clean when every lease in it is, one after
another: nothing is used or given back that is not on lease, and at the end
nothing is left out. -/

universe u

namespace Lease

variable {κ ρ : Type u}

inductive Event (κ ρ : Type u) where
  | obtained (c : κ) (p : ρ)
  | used (c : κ)
  | disconnected (c : κ)
  | released (c : κ) (p : ρ)
  deriving DecidableEq, Repr

variable [DecidableEq κ] [DecidableEq ρ]

/-- The leases that are open after one more event, or `none` if it breaks the rules. -/
def step (held : List (κ × ρ)) : Event κ ρ → Option (List (κ × ρ))
  | .obtained c p => if c ∈ held.map Prod.fst then none else some ((c, p) :: held)
  | .used c => if c ∈ held.map Prod.fst then some held else none
  | .disconnected c => if c ∈ held.map Prod.fst then some held else none
  | .released c p => if (c, p) ∈ held then some (held.erase (c, p)) else none

/-- The leases that are open after a history. -/
def held (es : List (Event κ ρ)) : Option (List (κ × ρ)) := es.foldlM step []

/-- Every lease is given back once, to its own pool, and nothing is touched off lease. -/
def Conserves (es : List (Event κ ρ)) : Prop := held es = some []

instance (es : List (Event κ ρ)) : Decidable (Conserves es) :=
  inferInstanceAs (Decidable (held es = some []))

theorem held_append (es es' : List (Event κ ρ)) :
    held (es ++ es') = (held es).bind fun h => es'.foldlM step h := by
  rw [held, List.foldlM_append]
  rfl

/-- A broken history stays broken. -/
theorem held_append_none {es : List (Event κ ρ)} (h : held es = none) (es' : List (Event κ ρ)) :
    held (es ++ es') = none := by
  rw [held_append, h]
  rfl

theorem held_concat (es : List (Event κ ρ)) (e : Event κ ρ) :
    held (es ++ [e]) = (held es).bind fun h => step h e := by
  rw [held_append]
  congr 1
  funext h
  simp [List.foldlM]

theorem held_obtained {es : List (Event κ ρ)} (h : held es = some []) (c : κ) (p : ρ) :
    held (es ++ [.obtained c p]) = some [(c, p)] := by
  simp [held_concat, h, step]

theorem held_used {es : List (Event κ ρ)} {c : κ} {p : ρ} (h : held es = some [(c, p)]) :
    held (es ++ [.used c]) = some [(c, p)] := by
  simp [held_concat, h, step]

theorem held_disconnected {es : List (Event κ ρ)} {c : κ} {p : ρ} (h : held es = some [(c, p)]) :
    held (es ++ [.disconnected c]) = some [(c, p)] := by
  simp [held_concat, h, step]

theorem held_released {es : List (Event κ ρ)} {c : κ} {p : ρ} (h : held es = some [(c, p)]) :
    held (es ++ [.released c p]) = some [] := by
  simp [held_concat, h, step]

/-- With nothing on lease, neither a release nor a disconnect is allowed. -/
theorem held_released_none {es : List (Event κ ρ)} (h : held es = some []) (c : κ) (p : ρ) :
    held (es ++ [.released c p]) = none := by
  simp [held_concat, h, step]

theorem held_disconnected_none {es : List (Event κ ρ)} (h : held es = some []) (c : κ) :
    held (es ++ [.disconnected c]) = none := by
  simp [held_concat, h, step]

/-! ### Any number of leases at once -/

section
omit [DecidableEq κ] [DecidableEq ρ]

def obtainedIn (es : List (Event κ ρ)) : List (κ × ρ) := es.filterMap fun
  | .obtained c p => some (c, p)
  | _ => none

def releasedIn (es : List (Event κ ρ)) : List (κ × ρ) := es.filterMap fun
  | .released c p => some (c, p)
  | _ => none

/-- Whatever was obtained has been given back once, to its own pool, and nothing else has. -/
def Returned (es : List (Event κ ρ)) : Prop := (obtainedIn es).Perm (releasedIn es)

instance (es : List (Event κ ρ)) : Decidable (Returned es) :=
  inferInstanceAs (Decidable (List.Perm _ _))

/-- Leases that are all taken before the first one is given back. -/
def takenThenGiven (taken given : List (κ × ρ)) : List (Event κ ρ) :=
  taken.map (fun x => .obtained x.1 x.2) ++ given.map fun x => .released x.1 x.2

theorem obtainedIn_takenThenGiven (taken given : List (κ × ρ)) :
    obtainedIn (takenThenGiven taken given) = taken := by
  have hgiven : obtainedIn (given.map fun x => .released x.1 x.2) = [] := by simp [obtainedIn]
  have htaken : obtainedIn (taken.map fun x => .obtained x.1 x.2) = taken := by
    simp [obtainedIn, List.filterMap_map]
  rw [takenThenGiven, obtainedIn, List.filterMap_append, ← obtainedIn, ← obtainedIn, htaken, hgiven,
    List.append_nil]

theorem releasedIn_takenThenGiven (taken given : List (κ × ρ)) :
    releasedIn (takenThenGiven taken given) = given := by
  have htaken : releasedIn (taken.map fun x => .obtained x.1 x.2) = [] := by simp [releasedIn]
  have hgiven : releasedIn (given.map fun x => .released x.1 x.2) = given := by
    simp [releasedIn, List.filterMap_map]
  rw [takenThenGiven, releasedIn, List.filterMap_append, ← releasedIn, ← releasedIn, htaken, hgiven,
    List.nil_append]

/-- When only some of them are given back, from the first one on, these must be all. -/
theorem returned_takenThenGiven_iff {taken given : List (κ × ρ)} (h : given <+: taken) :
    Returned (takenThenGiven taken given) ↔ given = taken := by
  rw [Returned, obtainedIn_takenThenGiven, releasedIn_takenThenGiven]
  constructor
  · exact fun hp => h.eq_of_length hp.length_eq.symm
  · rintro rfl
    exact List.Perm.refl _

end

end Lease
