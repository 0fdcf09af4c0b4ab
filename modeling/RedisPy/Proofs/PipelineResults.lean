import Mathlib.Data.List.Pairwise
import RedisPy.Proofs.PipelineGroups

/-! The results of the sync `ClusterPipeline` beside those of `execute_command`. The
callbacks are applied to every result once more: to what `execute_command` has decoded
already, and to the exceptions. -/

namespace RedisPy

open Raising PipelineAttempt

namespace ClusterPipeline

variable {ρ κ α : Type} {args : Nat → List String}
  {callbacks : Nat → Option (ResponseCallback α)} {a : PipelineAttempt ρ κ α} {k : Nat}
  {s : Applications α × PipelineBook ρ κ α}

/-- What the callback of a command is applied to in attempt `k`. -/
def noted (k p : Nat) (rs : List (PipelineResult α)) : List ((Nat × Nat) × PipelineResult α) :=
  rs.map fun r => ((k, p), r)

/-- The callbacks' record grows by what is done in attempt `k`. -/
structure Grows (k : Nat) (s s' : Applications α × PipelineBook ρ κ α)
    (more : List ((Nat × Nat) × PipelineResult α)) : Prop where
  attempt : s'.1.attempt = s.1.attempt
  applied : s'.1.applied = s.1.applied ++ more
  mine : ∀ x ∈ more, x.1.1 = k

theorem Grows.refl (s : Applications α × PipelineBook ρ κ α) : Grows k s s [] :=
  ⟨rfl, (List.append_nil _).symm, fun _ h => (nomatch h)⟩

theorem Grows.trans {s' s'' : Applications α × PipelineBook ρ κ α}
    {xs ys : List ((Nat × Nat) × PipelineResult α)} (h : Grows k s s' xs) (h' : Grows k s' s'' ys) :
    Grows k s s'' (xs ++ ys) where
  attempt := h'.attempt.trans h.attempt
  applied := by rw [h'.applied, h.applied, List.append_assoc]
  mine x hx := (List.mem_append.mp hx).elim (h.mine x) (h'.mine x)

/-! ### One command -/

/-- The results after one command has come to `r`. -/
structure Settled (p : Nat) (r : PipelineResult α) (s s' : Applications α × PipelineBook ρ κ α) :
    Prop where
  result : s'.2.results p = r
  others : ∀ q, q ≠ p → s'.2.results q = s.2.results q

/-- The results after the exchange. -/
def Answered (a : PipelineAttempt ρ κ α) (groups : List (List Nat)) (n : Nat)
    (results : Nat → PipelineResult α) : Prop :=
  ∀ p < n, (a.Retried groups p ∧ allowsRetry (results p) = true) ∨
    (¬ a.Retried groups p ∧ allowsRetry (results p) = false ∧ results p = a.reply p)

/-- A command belongs to one node. -/
theorem eq_of_mem_groups {groups : List (List Nat)} (hnodup : groups.flatten.Nodup) {ps qs : List Nat}
    {p : Nat} (hps : ps ∈ groups) (hqs : qs ∈ groups) (hp : p ∈ ps) (hq : p ∈ qs) : qs = ps := by
  by_contra hne
  have hdisjoint := (List.nodup_flatten.mp hnodup).2
  have : Std.Symm (List.Disjoint (α := Nat)) := ⟨fun _ _ => List.disjoint_symm⟩
  exact hdisjoint.forall hqs hps hne hq hp

theorem Grows.of_eq {s' : Applications α × PipelineBook ρ κ α} (h : s'.1 = s.1) : Grows k s s' [] :=
  ⟨by rw [h], by rw [h, List.append_nil], fun _ h => (nomatch h)⟩

/-- One node, with the reply to its command and to its second execution. -/
def oneNode (reply executed : Except Exc (Option Nat)) : PipelineAttempt Nat Nat Nat where
  targets _ := .ok [⟨0, "10.0.0.1", 7000⟩]
  redis _ := .ok 0
  connection _ := .ok 0
  reply _ := reply
  executed _ := executed
  insisted _ := executed

end ClusterPipeline

end RedisPy
