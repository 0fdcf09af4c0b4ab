import Mathlib.Data.List.Basic
import Mathlib.Logic.Function.Basic

/-! Optimistic transactions: programs that read a store and then write to it, at once and only
if nothing that they watch has been written since. What such a program writes is what it would
write if all of it ran at the end. -/

namespace Optimistic

universe u v

variable {κ : Type u} {ν : Type v} [DecidableEq κ]

/-- A program: it reads, and what it does next may depend on what it has read. -/
inductive Body (κ : Type u) (ν : Type v) where
  | get (key : κ) (next : ν → Body κ ν)
  | done (sets : List (κ × ν))

/-- The store after the writes, one after another. -/
def write (sets : List (κ × ν)) (store : κ → ν) : κ → ν :=
  sets.foldl (fun store p => Function.update store p.1 p.2) store

/-- A watched key is written. -/
def Touches (watched : List κ) (sets : List (κ × ν)) : Prop := ∃ p ∈ sets, p.1 ∈ watched

instance (watched : List κ) (sets : List (κ × ν)) : Decidable (Touches watched sets) :=
  inferInstanceAs (Decidable (∃ p ∈ sets, p.1 ∈ watched))

theorem write_of_forall_ne {sets : List (κ × ν)} {key : κ} (h : ∀ p ∈ sets, p.1 ≠ key)
    (store : κ → ν) : write sets store key = store key := by
  unfold write
  induction sets generalizing store with
  | nil => rfl
  | cons p sets ih =>
    have hp : p.1 ≠ key := h p List.mem_cons_self
    rw [List.foldl_cons, ih fun q hq => h q (List.mem_cons_of_mem _ hq), Function.update_of_ne hp.symm]

theorem write_of_not_touches {watched : List κ} {sets : List (κ × ν)} (h : ¬ Touches watched sets)
    (store : κ → ν) {key : κ} (hkey : key ∈ watched) : write sets store key = store key :=
  write_of_forall_ne (fun p hp heq => h ⟨p, hp, heq ▸ hkey⟩) store

namespace Body

/-- What the program writes, if it reads all of it from one store. -/
def sets (store : κ → ν) : Body κ ν → List (κ × ν)
  | get key next => (next (store key)).sets store
  | done sets => sets

/-- It reads nothing but what is watched, whatever it finds. -/
def Within (watched : List κ) : Body κ ν → Prop
  | get key next => key ∈ watched ∧ ∀ v, (next v).Within watched
  | done _ => True

/-- The program as one step. -/
def apply (body : Body κ ν) (store : κ → ν) : κ → ν := write (body.sets store) store

omit [DecidableEq κ] in
theorem sets_congr {watched : List κ} {body : Body κ ν} (h : body.Within watched)
    {store store' : κ → ν} (hsame : ∀ key ∈ watched, store' key = store key) :
    body.sets store' = body.sets store := by
  induction body with
  | get key next ih =>
    obtain ⟨hkey, hnext⟩ := h
    rw [sets, sets, hsame key hkey]
    exact ih _ (hnext _)
  | done sets => rfl

end Body

/-- In the middle of the program `whole`, with `rest` still to do and nothing that is watched
written since: it comes to the same as from the beginning. -/
structure Faithful (watched : List κ) (whole rest : Body κ ν) (dirty : Bool) (store : κ → ν) : Prop where
  within : rest.Within watched
  same : dirty = false → rest.sets store = whole.sets store

namespace Faithful

variable {watched : List κ} {whole rest : Body κ ν} {dirty : Bool} {store : κ → ν}

omit [DecidableEq κ] in
theorem start (h : whole.Within watched) (store : κ → ν) : Faithful watched whole whole false store :=
  ⟨h, fun _ => rfl⟩

omit [DecidableEq κ] in
theorem read {key : κ} {next : ν → Body κ ν} (h : Faithful watched whole (.get key next) dirty store) :
    Faithful watched whole (next (store key)) dirty store :=
  ⟨h.within.2 _, h.same⟩

/-- Somebody else writes. -/
theorem written (h : Faithful watched whole rest dirty store) (hwhole : whole.Within watched)
    (sets : List (κ × ν)) :
    Faithful watched whole rest (dirty || decide (Touches watched sets)) (write sets store) := by
  refine ⟨h.within, fun hclean => ?_⟩
  obtain ⟨hdirty, htouches⟩ := Bool.or_eq_false_iff.mp hclean
  have hsame : ∀ key ∈ watched, write sets store key = store key := fun key hkey =>
    write_of_not_touches (of_decide_eq_false htouches) store hkey
  rw [Body.sets_congr h.within hsame, Body.sets_congr hwhole hsame]
  exact h.same hdirty

end Faithful

end Optimistic
