import RedisPy.Spec.CommandRouting
import Mathlib.Tactic.Basic

/-! The keys of a command whose positions are fixed: the arguments at `first`, `first + step`
and so on, up to `last`. -/

namespace RedisPy

namespace CommandRouting

/-- The last position, counted from the end when it is negative. -/
def lastPosition (q : KeyPositions) (args : List Arg) : Int :=
  if q.last_key_pos < 0 then args.length + q.last_key_pos else q.last_key_pos

/-- The positions say of a command whose name has `k` words that it has keys. -/
structure Fits (q : KeyPositions) (k : Nat) : Prop where
  after : (k : Int) ≤ q.first_key_pos
  step_pos : 0 < q.step_count
  first_le : 0 ≤ q.last_key_pos → q.first_key_pos ≤ q.last_key_pos

/-- The arguments are long enough for the positions. -/
structure Selects (q : KeyPositions) (k : Nat) (args : List Arg) : Prop extends Fits q k where
  first_le_last : q.first_key_pos ≤ lastPosition q args
  last_lt : lastPosition q args < args.length

/-- The arguments at the positions `first`, `first + step`, ... up to `last`. -/
def selected (q : KeyPositions) (args : List Arg) : List Arg :=
  (List.range (((lastPosition q args - q.first_key_pos) / q.step_count).toNat + 1)).filterMap
    fun k : Nat => args[(q.first_key_pos + k * q.step_count).toNat]?

theorem mapM_eq_filterMap {α β : Type} {f : α → Except Exc β} {g : α → Option β} {l : List α}
    (h : ∀ a ∈ l, ∃ b, f a = .ok b ∧ g a = some b) : l.mapM f = .ok (l.filterMap g) := by
  induction l with
  | nil => rfl
  | cons a l ih =>
    obtain ⟨b, hf, hg⟩ := h a (by simp)
    rw [List.mapM_cons, hf, ih fun a ha => h a (by simp [ha]), List.filterMap_cons_some hg]
    rfl

theorem argAt_eq {args : List Arg} {pos : Int} (h0 : 0 ≤ pos) {a : Arg}
    (ha : args[pos.toNat]? = some a) : argAt args pos = .ok a := by
  have hneg : ¬ pos < 0 := by omega
  simp only [argAt, if_neg hneg, ha]

theorem lastPosition_eq (q : KeyPositions) (args : List Arg) :
    (if q.last_key_pos < 0 then (args.length : Int) - q.last_key_pos.natAbs else q.last_key_pos) =
      lastPosition q args := by
  rw [lastPosition]
  split <;> omega

/-- How many positions there are. -/
theorem count_eq {first last step : Int} (hstep : 0 < step) (hle : first ≤ last) :
    ((last + 1 - first + step - 1) / step).toNat = ((last - first) / step).toNat + 1 := by
  have hsum : last + 1 - first + step - 1 = last - first + step := by omega
  have hnonneg : 0 ≤ (last - first) / step := Int.ediv_nonneg (by omega) (by omega)
  rw [hsum, Int.add_ediv_of_dvd_right (Int.dvd_refl step), Int.ediv_self (by omega)]
  omega

variable {q : KeyPositions} {k : Nat} {args : List Arg}

theorem Selects.ops_ne_nil {name ops : List Arg} (h : Selects q name.length (name ++ ops)) :
    ops ≠ [] := by
  rintro rfl
  have hafter := h.after
  have hfirst := h.first_le_last
  have hlast := h.last_lt
  rw [List.append_nil] at hfirst hlast
  omega

/-- Every position is one of the arguments. -/
theorem Selects.exists_arg (h : Selects q k args) {i : Nat}
    (hi : i < ((lastPosition q args - q.first_key_pos) / q.step_count).toNat + 1) :
    0 ≤ q.first_key_pos + i * q.step_count ∧
      ∃ a, args[(q.first_key_pos + i * q.step_count).toNat]? = some a := by
  have hstep := h.step_pos
  have hafter := h.after
  have hlt := h.last_lt
  have hprod : (i : Int) * q.step_count ≤ lastPosition q args - q.first_key_pos := by
    have hfirst := h.first_le_last
    have hcount : 0 ≤ (lastPosition q args - q.first_key_pos) / q.step_count :=
      Int.ediv_nonneg (by omega) (by omega)
    have hdiv : (i : Int) ≤ (lastPosition q args - q.first_key_pos) / q.step_count := by omega
    exact (Int.le_ediv_iff_mul_le hstep).mp hdiv
  have hnonneg : 0 ≤ (i : Int) * q.step_count := Int.mul_nonneg (by omega) (by omega)
  exact ⟨by omega, _, List.getElem?_eq_getElem (by omega)⟩

/-- The code takes the arguments at the positions. -/
theorem keysAt_eq (h : Selects q k args) : keysAt q args = .ok (selected q args) := by
  have hstep := h.step_pos
  simp only [keysAt, lastPosition_eq, pyRange, if_neg (show ¬ q.step_count = 0 by omega), if_pos hstep,
    count_eq hstep h.first_le_last, bind, Except.bind]
  rw [List.mapM_map, selected]
  refine mapM_eq_filterMap fun i hi => ?_
  obtain ⟨h0, a, ha⟩ := h.exists_arg (List.mem_range.mp hi)
  exact ⟨a, argAt_eq h0 ha, ha⟩

theorem head?_filterMap_range {α : Type} {f : Nat → Option α} {a : α} (h : f 0 = some a) (m : Nat) :
    ((List.range (m + 1)).filterMap f).head? = some a := by
  rw [List.range_succ_eq_map, List.filterMap_cons_some h, List.head?_cons]

theorem head?_selected (h : Selects q k args) : (selected q args).head? = args[q.first_key_pos.toNat]? := by
  obtain ⟨-, a, ha⟩ := h.exists_arg (Nat.succ_pos _)
  have hfirst : q.first_key_pos + (0 : Nat) * q.step_count = q.first_key_pos := by omega
  rw [selected, head?_filterMap_range ha, ← ha, hfirst]

/-- As many arguments as the positions ask for. -/
def enough (f : Nat → Arg) (q : KeyPositions) : List Arg :=
  (List.range (q.first_key_pos.toNat + q.last_key_pos.natAbs + 1)).map f

theorem length_enough (f : Nat → Arg) (q : KeyPositions) :
    (enough f q).length = q.first_key_pos.toNat + q.last_key_pos.natAbs + 1 := by
  simp [enough]

theorem enough_ne_nil (f : Nat → Arg) (q : KeyPositions) : enough f q ≠ [] := by simp [enough]

theorem getElem?_enough (f : Nat → Arg) {q : KeyPositions} {i : Nat} (hi : i ≤ q.first_key_pos.toNat) :
    (enough f q)[i]? = some (f i) := by
  have hlt : i < q.first_key_pos.toNat + q.last_key_pos.natAbs + 1 := by omega
  rw [enough, List.getElem?_map, List.getElem?_range hlt]
  rfl

theorem Fits.mono (h : Fits q k) {k' : Nat} (hk : k' ≤ k) : Fits q k' := by
  have hafter := h.after
  exact ⟨by omega, h.step_pos, h.first_le⟩

theorem Fits.selects (h : Fits q k) {name : List Arg} (hlen : name.length = k) (f : Nat → Arg) :
    Selects q k (name ++ enough f q) := by
  have hafter := h.after
  have hle := h.first_le
  have hlength : (name ++ enough f q).length =
      k + (q.first_key_pos.toNat + q.last_key_pos.natAbs + 1) := by
    rw [List.length_append, hlen, length_enough]
  refine ⟨h, ?_, ?_⟩
  · rw [lastPosition, hlength]
    split <;> omega
  · rw [lastPosition, hlength]
    split <;> omega

/-- The first key, when there are enough arguments. -/
theorem Fits.head?_enough {name : List Arg} (h : Fits q name.length) (f : Nat → Arg) :
    (selected q (name ++ enough f q)).head? = some (f (q.first_key_pos.toNat - name.length)) := by
  have hafter := h.after
  rw [head?_selected (h.selects rfl f), List.getElem?_append_right (by omega), getElem?_enough f (by omega)]

end CommandRouting

end RedisPy
