import Mathlib
import RedisPy.Spec.Retry

/-! `call_with_retry` keeps to its budget, and raises nothing of its own as long as no `int` of
the backoff is too large for a float. -/

namespace RedisPy

variable {F α : Type} {A : FloatArith F}

theorem roundsTo_le (n k : Nat) : roundsTo n k ≤ 2 ^ n := by
  rw [roundsTo]
  exact Nat.sub_le ..

theorem two_pow_lt_roundsTo {m n k : Nat} (hm : m < n) (hk : k + 1 < n) : 2 ^ m < roundsTo n k := by
  obtain ⟨n, rfl⟩ := Nat.exists_eq_succ_of_ne_zero (Nat.ne_zero_of_lt hm)
  have hle : 2 ^ m ≤ 2 ^ n := Nat.pow_le_pow_right (by decide) (Nat.le_of_lt_succ hm)
  have hlt : 2 ^ k < 2 ^ n := Nat.pow_lt_pow_right (by decide) (Nat.lt_of_succ_lt_succ hk)
  rw [roundsTo, Nat.pow_succ]
  omega

theorem two_pow_lt_floatLimit {n : Nat} (h : n < 1024) : 2 ^ n < floatLimit :=
  two_pow_lt_roundsTo h (by decide)

theorem floatLimit_le : floatLimit ≤ 2 ^ 1024 := roundsTo_le ..

theorem fitsFloat_of_le {i : Int} (h : i.natAbs ≤ 3) : FitsFloat i :=
  calc i.natAbs ≤ 3 := h
    _ < 2 ^ 2 := by decide
    _ < floatLimit := two_pow_lt_floatLimit (by decide)

/-- Of the powers of two a float holds those below `2 ** 1024`. -/
theorem fitsFloat_two_pow (n : Nat) : FitsFloat (2 ^ n) ↔ n < 1024 := by
  have habs : ((2 : Int) ^ n).natAbs = 2 ^ n := by rw [Int.natAbs_pow]; rfl
  unfold FitsFloat
  rw [habs]
  constructor
  · intro h
    exact (Nat.pow_lt_pow_iff_right (by decide)).mp (Nat.lt_of_lt_of_le h floatLimit_le)
  · exact two_pow_lt_floatLimit

namespace PyNum

variable {a b c : PyNum F} {r : F}

/-- Every `int` that `random.uniform(a, b)` converts fits a float. -/
def SpreadFits : PyNum F → PyNum F → Prop
  | int i, int j => FitsFloat i ∧ FitsFloat (j - i)
  | int i, float _ => FitsFloat i
  | float _, int j => FitsFloat j
  | float _, float _ => True

theorem toFloat_int {i : Int} (h : FitsFloat i) : toFloat A (int i) = .ok (A.ofInt i) := if_pos h

theorem arith_int (f : Int → Int → Int) (g : F → F → F) (i j : Int) :
    arith A f g (int i) (int j) = .ok (int (f i j)) := rfl

theorem arith_float (f : Int → Int → Int) (g : F → F → F) (x y : F) :
    arith A f g (float x) (float y) = .ok (float (g x y)) := rfl

/-- Where one operand is a float the other one is converted. -/
theorem arith_int_float (f : Int → Int → Int) (g : F → F → F) (i : Int) (y : F) :
    arith A f g (int i) (float y) = (toFloat A (int i)).map fun x => float (g x y) := by
  rw [arith]
  · cases toFloat A (int i) <;> rfl
  · intro _ _ _ h
    cases h

theorem arith_float_int (f : Int → Int → Int) (g : F → F → F) (x : F) (j : Int) :
    arith A f g (float x) (int j) = (toFloat A (int j)).map fun y => float (g x y) := by
  rw [arith]
  · cases toFloat A (int j) <;> rfl
  · intro _ _ h
    cases h

theorem uniform_ok_iff : (∃ c, uniform A a b r = .ok c) ↔ SpreadFits a b := by
  simp only [uniform, sub, mul, add]
  cases a with
  | int i =>
    cases b with
    | int j =>
      by_cases hj : FitsFloat (j - i) <;> by_cases hi : FitsFloat i <;>
        simp [arith_int, arith_int_float, toFloat, SpreadFits, hi, hj, bind, Except.bind, Except.map]
    | float y =>
      by_cases hi : FitsFloat i <;>
        simp [arith_float, arith_float_int, arith_int_float, toFloat, SpreadFits, hi, bind,
          Except.bind, Except.map]
  | float x =>
    cases b with
    | int j =>
      by_cases hj : FitsFloat j <;>
        simp [arith_float, arith_int_float, toFloat, SpreadFits, hj, bind, Except.bind, Except.map]
    | float y => simp [arith_float, SpreadFits, bind, Except.bind]

end PyNum

namespace Backoff

variable {cap base : PyNum F} {n : Nat} {r : F}

/-- `base * 2**failures`, for a float as long as the power fits one. -/
def scaled (A : FloatArith F) (base : PyNum F) (n : Nat) : PyNum F :=
  match base with
  | .int i => .int (i * 2 ^ n)
  | .float x => .float (A.mul x (A.ofInt (2 ^ n)))

/-- `previous_backoff * 3` -/
def tripled (A : FloatArith F) : PyNum F → PyNum F
  | .int i => .int (i * 3)
  | .float x => .float (A.mul x (A.ofInt 3))

/-- A float base is multiplied by less than `2 ** 1024`. -/
def PowerFits (base : PyNum F) (n : Nat) : Prop :=
  match base with
  | .int _ => True
  | .float _ => n < 1024

/-- The half of it fits a float. -/
def HalfFits : PyNum F → Prop
  | .int i => i.natAbs < 2 * floatLimit
  | .float _ => True

/-- No `int` that `compute` converts, in the state before it, is too large for a float. -/
def Fits (A : FloatArith F) (b : Backoff F) (n : Nat) : Prop :=
  match b with
  | ConstantBackoff _ => True
  | ExponentialBackoff _ base => PowerFits base n
  | FullJitterBackoff cap base =>
    PowerFits base n ∧ PyNum.SpreadFits (.int 0) (PyNum.min A cap (scaled A base n))
  | EqualJitterBackoff cap base => PowerFits base n ∧ HalfFits (PyNum.min A cap (scaled A base n))
  | DecorrelatedJitterBackoff _ base previous_backoff =>
    PyNum.SpreadFits base (PyNum.max A base (tripled A previous_backoff))

theorem capped_of_powerFits (h : PowerFits base n) :
    capped A cap base n = .ok (PyNum.min A cap (scaled A base n)) := by
  cases base with
  | int i => rfl
  | float x =>
    rw [capped, PyNum.mul, PyNum.arith_float_int, PyNum.toFloat_int ((fitsFloat_two_pow n).mpr h)]
    rfl

theorem capped_of_not_powerFits (h : ¬ PowerFits base n) : ∃ e, capped A cap base n = .error e := by
  cases base with
  | int i => exact absurd trivial h
  | float x =>
    rw [capped, PyNum.mul, PyNum.arith_float_int, PyNum.toFloat,
      if_neg (mt (fitsFloat_two_pow n).mp h)]
    exact ⟨_, rfl⟩

/-- Tripling converts nothing but the 3. -/
theorem mul_three (previous : PyNum F) :
    PyNum.mul A previous (.int 3) = .ok (tripled A previous) := by
  cases previous with
  | int i => rfl
  | float x =>
    rw [PyNum.mul, PyNum.arith_float_int, PyNum.toFloat_int (fitsFloat_of_le (by decide))]
    rfl

/-- The half of a number is a float, if it fits one. -/
theorem half_of_fits {m : PyNum F} (h : HalfFits m) : ∃ x, PyNum.half A m = .ok (.float x) := by
  cases m with
  | int i => exact ⟨_, if_pos h⟩
  | float x => exact ⟨_, rfl⟩

theorem half_of_not_fits {m : PyNum F} (h : ¬ HalfFits m) : ∃ e, PyNum.half A m = .error e := by
  cases m with
  | int i => exact ⟨_, if_neg h⟩
  | float x => exact absurd trivial h

/-- A jitter below a float is a float. -/
theorem uniform_zero_float (x : F) : ∃ y, PyNum.uniform A (.int 0) (.float x) r = .ok (.float y) := by
  simp only [PyNum.uniform, PyNum.sub, PyNum.mul, PyNum.add, PyNum.arith_float_int,
    PyNum.arith_int_float, PyNum.arith_float, PyNum.toFloat_int (fitsFloat_of_le (i := 0) (by decide)),
    Except.map, bind, Except.bind]
  exact ⟨_, rfl⟩

/-- The arithmetic of a backoff raises exactly where an `int` does not fit. -/
theorem compute_ok_iff (b : Backoff F) :
    (∃ result, b.compute A n r = .ok result) ↔ b.Fits A n := by
  have hpower : ∀ {cap base : PyNum F} {α : Type} (f : PyNum F → Except Exc α),
      (∃ result, (capped A cap base n >>= f) = .ok result) ↔
        PowerFits base n ∧ ∃ result, f (PyNum.min A cap (scaled A base n)) = .ok result := by
    intro cap base α f
    by_cases h : PowerFits base n
    · rw [capped_of_powerFits h]
      exact (and_iff_right h).symm
    · obtain ⟨e, he⟩ : ∃ e, capped A cap base n = .error e := capped_of_not_powerFits h
      rw [he]
      exact iff_of_false (by rintro ⟨_, ⟨⟩⟩) (fun h' => h h'.1)
  have hmap : ∀ {β γ : Type} (m : Except Exc β) (f : β → γ),
      (∃ result, (m >>= fun a => Except.ok (f a)) = .ok result) ↔ ∃ a, m = .ok a := by
    intro β γ m f
    cases m with
    | error e => exact iff_of_false (by rintro ⟨_, ⟨⟩⟩) (by rintro ⟨_, ⟨⟩⟩)
    | ok a => exact iff_of_true ⟨_, rfl⟩ ⟨_, rfl⟩
  cases b with
  | ConstantBackoff backoff => exact iff_of_true ⟨_, rfl⟩ trivial
  | ExponentialBackoff cap base =>
    refine (hpower _).trans ?_
    exact and_iff_left ⟨_, rfl⟩
  | FullJitterBackoff cap base =>
    refine (hpower _).trans (and_congr_right fun _ => ?_)
    exact (hmap _ _).trans PyNum.uniform_ok_iff
  | EqualJitterBackoff cap base =>
    refine (hpower _).trans (and_congr_right fun _ => ?_)
    generalize PyNum.min A cap (scaled A base n) = m
    by_cases h : HalfFits m
    · obtain ⟨temp, hm⟩ := half_of_fits (A := A) h
      obtain ⟨jitter, hj⟩ := uniform_zero_float (A := A) (r := r) temp
      rw [hm]
      simp only [bind, Except.bind, hj, PyNum.add, PyNum.arith_float]
      exact iff_of_true ⟨_, rfl⟩ h
    · obtain ⟨e, hm⟩ := half_of_not_fits (A := A) h
      rw [hm]
      exact iff_of_false (by rintro ⟨_, ⟨⟩⟩) h
  | DecorrelatedJitterBackoff cap base previous_backoff =>
    simp only [compute, mul_three]
    exact (hmap _ _).trans PyNum.uniform_ok_iff

end Backoff

namespace Retry

variable (A) (R : Retry F) (world : RetryWorld F α)

/-- The `n`-th call fails with a supported error, `fail` returns, and the budget allows for
another call. -/
def GoesOn (n : Nat) : Prop :=
  ∃ e, world.op n = .error e ∧ R.supports e = true ∧ world.fail n = .ok () ∧
    (R._retries < 0 ∨ (n + 1 : Int) ≤ R._retries)

/-- What the loop ends with if its last call is the `n`-th one: its result, and the error that
`fail` was called with last. -/
inductive EndsWith (n : Nat) : Except Exc α → List Exc → Prop
  | returns {a} (h : world.op n = .ok a) : EndsWith n (.ok a) []
  | unsupported {e} (h : world.op n = .error e) (hs : R.supports e = false) : EndsWith n (.error e) []
  | failRaises {e e'} (h : world.op n = .error e) (hs : R.supports e = true)
      (hf : world.fail n = .error e') : EndsWith n (.error e') [e]
  | spent {e} (h : world.op n = .error e) (hs : R.supports e = true) (hf : world.fail n = .ok ())
      (hk : 0 ≤ R._retries) (hn : R._retries < n + 1) : EndsWith n (.error e) [e]

/-- The errors of the first `n` calls. -/
def errors (n : Nat) : List Exc := (List.range n).filterMap fun i =>
  match world.op i with
  | .error e => some e
  | .ok _ => none

/-- The run ends with its first call that is not to be retried, and `fail` was called with the
error of each supported failure. -/
def Accords (run : RetryRun α) : Prop :=
  ∃ n failed, (∀ i < n, R.GoesOn world i) ∧ R.EndsWith world n run.result failed ∧
    run.calls = n + 1 ∧ run.failed = errors world n ++ failed

/-- The runs are those that accord with the outcomes of the calls, and a budget ends them. -/
def Obeys : Prop :=
  (∀ fuel run, R.callWithRetry A world fuel = some run → R.Accords world run) ∧
  (∀ run, R.Accords world run → ∃ fuel, R.callWithRetry A world fuel = some run) ∧
  (0 ≤ R._retries → ∃ fuel run, R.callWithRetry A world fuel = some run ∧
    (run.calls : Int) ≤ R._retries + 1)

/-- The backoff after `n` failures. -/
def backoffAfter : Nat → Backoff F
  | 0 => R._backoff.reset
  | n + 1 =>
    match (backoffAfter n).compute A (n + 1) (world.random n) with
    | .ok (_, b) => b
    | .error _ => backoffAfter n

/-- After the failure of the `n`-th call no `int` is too large, and `sleep` returns. -/
def Waits (n : Nat) : Prop :=
  (R.backoffAfter A world n).Fits A (n + 1) ∧
    ∀ backoff b, (R.backoffAfter A world n).compute A (n + 1) (world.random n) = .ok (backoff, b) →
      A.lt (.int 0) backoff = true → world.sleep n backoff = .ok ()

variable {A R world} {n : Nat}

theorem wait_of_waits (h : R.Waits A world n) :
    wait A world (R.backoffAfter A world n) n = .ok (R.backoffAfter A world (n + 1)) := by
  obtain ⟨⟨backoff, b⟩, hc⟩ := (Backoff.compute_ok_iff (r := world.random n) _).mpr h.1
  rw [wait, backoffAfter, hc]
  by_cases hpos : A.lt (.int 0) backoff = true
  · simp only [if_pos hpos, h.2 backoff b hc hpos]
  · simp only [if_neg hpos]

theorem wait_of_not_waits (h : ¬ R.Waits A world n) :
    ∃ e, wait A world (R.backoffAfter A world n) n = .error e := by
  rw [wait]
  cases hc : (R.backoffAfter A world n).compute A (n + 1) (world.random n) with
  | error e => exact ⟨e, rfl⟩
  | ok result =>
    obtain ⟨backoff, b⟩ := result
    have hfits := (Backoff.compute_ok_iff _).mp ⟨_, hc⟩
    by_cases hpos : A.lt (.int 0) backoff = true
    · cases hsleep : world.sleep n backoff with
      | error e => exact ⟨e, by simp only [if_pos hpos, hsleep]⟩
      | ok u =>
        refine absurd ⟨hfits, fun backoff' b' hc' _ => ?_⟩ h
        rw [hc] at hc'
        cases hc'
        exact hsleep
    · refine absurd ⟨hfits, fun backoff' b' hc' hpos' => ?_⟩ h
      rw [hc] at hc'
      cases hc'
      exact absurd hpos' hpos

theorem EndsWith.not_goesOn {result : Except Exc α} {failed : List Exc}
    (h : R.EndsWith world n result failed) : ¬ R.GoesOn world n := by
  rintro ⟨e, he, hs, hf, hk⟩
  cases h with
  | returns h => simp [h] at he
  | unsupported h hs' =>
    rw [h] at he
    cases he
    simp [hs] at hs'
  | failRaises h hs' hf' => simp [hf] at hf'
  | spent h hs' hf' hk' hn => omega

theorem errors_succ {e : Exc} (h : world.op n = .error e) :
    errors world (n + 1) = errors world n ++ [e] := by
  rw [errors, List.range_succ, List.filterMap_append, ← errors]
  simp [h]

/-- A call that is not to be retried ends the loop. -/
theorem loop_ends (h : ¬ R.GoesOn world n) (b : Backoff F) (l : List Exc) (fuel : Nat) :
    ∃ result failed, R.EndsWith world n result failed ∧ R.loop A world b n l (fuel + 1) =
      some { result := result, calls := n + 1, failed := l ++ failed } := by
  cases hop : world.op n with
  | ok a => exact ⟨_, _, .returns hop, by simp [loop, hop]⟩
  | error e =>
    cases hs : R.supports e with
    | false => exact ⟨_, _, .unsupported hop hs, by simp [loop, hop, hs]⟩
    | true =>
      cases hf : world.fail n with
      | error e' => exact ⟨_, _, .failRaises hop hs hf, by simp [loop, hop, hs, hf]⟩
      | ok u =>
        have hk : 0 ≤ R._retries ∧ R._retries < n + 1 := by
          by_contra hk
          exact h ⟨e, hop, hs, hf, by omega⟩
        refine ⟨_, _, .spent hop hs hf hk.1 hk.2, ?_⟩
        simp only [loop, hop, hs, hf]
        simp [hk.1, hk.2]

/-- One that is to be retried leads to the next call after the wait, -/
theorem loop_waits (h : R.GoesOn world n) (hw : R.Waits A world n) (fuel : Nat) :
    R.loop A world (R.backoffAfter A world n) n (errors world n) (fuel + 1) =
      R.loop A world (R.backoffAfter A world (n + 1)) (n + 1) (errors world (n + 1)) fuel := by
  obtain ⟨e, hop, hs, hf, hk⟩ := h
  have hbudget : ¬ (R._retries ≥ 0 ∧ (n + 1 : Int) > R._retries) := by omega
  rw [errors_succ hop, loop]
  simp only [hop, hs, hf, if_true, if_neg hbudget, wait_of_waits hw]

/-- and one whose wait raises ends the loop all the same. -/
theorem loop_breaks (h : R.GoesOn world n) (hw : ¬ R.Waits A world n) (fuel : Nat) :
    ∃ run, R.loop A world (R.backoffAfter A world n) n (errors world n) (fuel + 1) = some run ∧
      run.calls = n + 1 := by
  obtain ⟨e, hop, hs, hf, hk⟩ := h
  obtain ⟨e', he'⟩ := wait_of_not_waits hw
  have hbudget : ¬ (R._retries ≥ 0 ∧ (n + 1 : Int) > R._retries) := by omega
  refine ⟨{ result := .error e', calls := n + 1, failed := errors world n ++ [e] }, ?_, rfl⟩
  rw [loop]
  simp only [hop, hs, hf, if_true, if_neg hbudget, he']

/-- The loop gets to the `n`-th call if the ones before are to be retried. -/
theorem loop_reaches (h : ∀ i < n, R.GoesOn world i ∧ R.Waits A world i) (fuel : Nat) :
    R.callWithRetry A world (n + fuel) =
      R.loop A world (R.backoffAfter A world n) n (errors world n) fuel := by
  induction n generalizing fuel with
  | zero => rw [Nat.zero_add]; rfl
  | succ n ih =>
    obtain ⟨hgoes, hwaits⟩ := h n n.lt_succ_self
    rw [Nat.add_right_comm, Nat.add_assoc, ih fun i hi => h i (Nat.lt_succ_of_lt hi),
      loop_waits hgoes hwaits]

theorem EndsWith.unique {result result' : Except Exc α} {failed failed' : List Exc}
    (h : R.EndsWith world n result failed) (h' : R.EndsWith world n result' failed') :
    result = result' ∧ failed = failed' := by
  cases h <;> cases h' <;> simp_all

variable (world) in
/-- Within a budget some call is not to be retried. -/
theorem exists_not_goesOn (h : 0 ≤ R._retries) :
    ∃ n : Nat, (n : Int) ≤ R._retries ∧ (∀ i < n, R.GoesOn world i) ∧ ¬ R.GoesOn world n := by
  classical
  have hlast : ¬ R.GoesOn world R._retries.toNat := by
    rintro ⟨e, -, -, -, hk⟩
    omega
  have hex : ∃ n, ¬ R.GoesOn world n := ⟨_, hlast⟩
  refine ⟨Nat.find hex, ?_, fun i hi => not_not.mp (Nat.find_min hex hi), Nat.find_spec hex⟩
  have := Nat.find_le (h := hex) hlast
  omega

/-- A wait that raises ends the loop after a call that is to be retried. -/
theorem waits_of_obeys (h : R.Obeys A world) (hgoes : ∀ i ≤ n, R.GoesOn world i) :
    R.Waits A world n := by
  induction n using Nat.strong_induction_on with
  | _ n ih =>
    by_contra hw
    have hreach : ∀ i < n, R.GoesOn world i ∧ R.Waits A world i := fun i hi =>
      ⟨hgoes i (Nat.le_of_lt hi), ih i hi fun j hj => hgoes j (Nat.le_trans hj (Nat.le_of_lt hi))⟩
    obtain ⟨run, hrun, hcalls⟩ := loop_breaks (hgoes n le_rfl) hw 0
    rw [← loop_reaches hreach] at hrun
    obtain ⟨m, failed, -, hends, hm, -⟩ := h.1 _ _ hrun
    obtain rfl : m = n := by omega
    exact hends.not_goesOn (hgoes m le_rfl)

/-- The loop keeps to its budget and raises what the operation or `fail` raised, and nothing
else, exactly if after each failure that is to be retried no `int` of the backoff is too
large for a float and `sleep` returns. -/
theorem obeys_iff (A : FloatArith F) (R : Retry F) (world : RetryWorld F α) :
    R.Obeys A world ↔ ∀ n, (∀ i ≤ n, R.GoesOn world i) → R.Waits A world n := by
  constructor
  · exact fun h n => waits_of_obeys h
  · intro hwaits
    have hreach : ∀ {n}, (∀ i < n, R.GoesOn world i) → ∀ i < n, R.GoesOn world i ∧ R.Waits A world i :=
      fun h i hi => ⟨h i hi, hwaits i fun j hj => h j (Nat.lt_of_le_of_lt hj hi)⟩
    have hends : ∀ {n}, (∀ i < n, R.GoesOn world i) → ¬ R.GoesOn world n → ∀ fuel,
        ∃ run, R.callWithRetry A world (n + (fuel + 1)) = some run ∧ R.Accords world run ∧
          run.calls = n + 1 := by
      intro n h hn fuel
      obtain ⟨result, failed, he, hl⟩ := loop_ends (A := A) hn
        (R.backoffAfter A world n) (errors world n) fuel
      rw [← loop_reaches (hreach h)] at hl
      exact ⟨_, hl, ⟨n, failed, h, he, rfl, rfl⟩, rfl⟩
    refine ⟨fun fuel run hrun => ?_, ?_, ?_⟩
    · by_cases hall : ∀ i < fuel, R.GoesOn world i
      · -- the fuel is out before a call ends the loop
        have := loop_reaches (hreach hall) 0
        rw [Nat.add_zero, hrun] at this
        cases this
      · classical
        have hex : ∃ n, ¬ R.GoesOn world n := by
          by_contra hno
          exact hall fun i _ => not_not.mp fun hi => hno ⟨i, hi⟩
        have hlt : Nat.find hex < fuel := by
          by_contra hle
          exact hall fun i hi => not_not.mp (Nat.find_min hex (by omega))
        obtain ⟨run', hrun', haccords, -⟩ := hends (fun i hi => not_not.mp (Nat.find_min hex hi))
          (Nat.find_spec hex) (fuel - Nat.find hex - 1)
        have hfuel : Nat.find hex + (fuel - Nat.find hex - 1 + 1) = fuel := by omega
        rw [hfuel, hrun] at hrun'
        cases hrun'
        exact haccords
    · rintro ⟨result, calls, failed⟩ ⟨n, last, hgoes, he, rfl, rfl⟩
      obtain ⟨result', last', he', hl⟩ := loop_ends (A := A) he.not_goesOn
        (R.backoffAfter A world n) (errors world n) 0
      obtain ⟨rfl, rfl⟩ := he.unique he'
      rw [← loop_reaches (hreach hgoes)] at hl
      exact ⟨_, hl⟩
    · intro hk
      obtain ⟨n, hn, hgoes, hstop⟩ := exists_not_goesOn world hk
      obtain ⟨run, hrun, -, hcalls⟩ := hends hgoes hstop 0
      exact ⟨_, run, hrun, by omega⟩

/-- Exponential backoff with a float base lasts for 1023 failures. -/
theorem failures_lt_of_obeys {cap : PyNum F} {base : F} (h : R.Obeys A world)
    (hb : R._backoff = .ExponentialBackoff cap (.float base)) (hgoes : ∀ i ≤ n, R.GoesOn world i) :
    n + 1 < 1024 := by
  have hbackoff : ∀ n, R.backoffAfter A world n = .ExponentialBackoff cap (.float base) := by
    intro n
    induction n with
    | zero =>
      rw [backoffAfter, hb]
      rfl
    | succ n ih =>
      rw [backoffAfter, ih]
      cases hc : Backoff.capped A cap (.float base) (n + 1) <;> simp [Backoff.compute, hc, bind, Except.bind, pure, Except.pure]
  have hfits := (waits_of_obeys h hgoes).1
  rw [hbackoff] at hfits
  exact hfits

/-- Exact numbers for floats -/
def exactArith : FloatArith Rat where
  ofInt := fun i => i
  add := (· + ·)
  sub := (· - ·)
  mul := (· * ·)
  div := (· / ·)
  divInt := fun i j => i / j
  lt := fun a b => (a.value < b.value : Bool)

/-- With no bound on the retries, and a server that is back after 1024 failures, it is the last
backoff that raises. -/
theorem unbounded_retry_overflows :
    let R : Retry Rat :=
      { _backoff := .ExponentialBackoff (.float (64 / 125)) (.float (1 / 125)), _retries := -1 }
    let world : RetryWorld Rat Nat :=
      { op := fun i => if i < 1024 then .error { cls := .ConnectionError } else .ok i
        random := fun _ => 0 }
    ¬ R.Obeys exactArith world := by
  intro R world h
  have hgoes : ∀ i ≤ 1023, R.GoesOn world i := fun i hi =>
    ⟨{ cls := .ConnectionError }, if_pos (Nat.lt_succ_of_le hi), by decide, rfl, .inl (by decide)⟩
  have hlt := failures_lt_of_obeys h rfl hgoes
  omega

end Retry

end RedisPy
