import RedisPy.Spec.PipelineRounds
import RedisPy.Spec.ClusterPipeline
import Mathlib.Order.Basic
import Mathlib.Tactic.Basic

/-! How many rounds a cluster pipeline performs, and what it raises in the end. Both loops
stop at the first round that is not tried again; they differ in what they try again and in
how often. -/

namespace RedisPy

namespace PipelineRounds

variable {R : Type} {rounds : Nat → Round R} {n : Nat}

/-- The round fails with an instance of one of the errors that are retried, wherever it is raised. -/
def Round.FailsRetryably (r : Round R) : Prop :=
  ∃ e, r.outcome = .error e ∧ e.isinstanceAny ERRORS_ALLOW_RETRY = true

def Round.TimesOut (r : Round R) : Prop := ∃ e, r.outcome = .error e ∧ e.isinstance .TimeoutError = true

/-- `_execute` fails with an error whose class is itself one of those that are retried. -/
def Round.TriedAgain (r : Round R) : Prop :=
  r.initializes = .ok () ∧ ∃ e, r.executes = .error e ∧ e.cls ∈ ERRORS_ALLOW_RETRY

/-- And closing the client raises nothing. -/
def Round.Passed (r : Round R) : Prop := r.TriedAgain ∧ r.closes = .ok ()

/-- The synchronous client goes on after the round, if it may. -/
def Round.Caught (r : Round R) : Prop := ∃ e, r.outcome = .error e ∧ caught e = true

/-- At least one round and at most `n + 1`; the results of the first one that succeeds, or the
exception of the last one performed. -/
structure RoundLaw (n : Nat) (rounds : Nat → Round R) (run : Except Exc R × Nat) : Prop where
  positive : 1 ≤ run.2
  bounded : run.2 ≤ n + 1
  faithful : run.1 = (rounds (run.2 - 1)).outcome
  earlier : ∀ i < run.2 - 1, ∃ e, (rounds i).outcome = .error e

/-- The law in both clients, with the same number of rounds when all fail with a retryable
error. -/
def RetryLaws (n : Nat) (rounds : Nat → Round R) : Prop :=
  RoundLaw n rounds (asyncExecute n rounds) ∧ RoundLaw n rounds (syncSend n rounds) ∧
    ((∀ i ≤ n, (rounds i).FailsRetryably) → (asyncExecute n rounds).2 = (syncSend n rounds).2)

/-- There is a round to perform, closing the client raises nothing of its own after one that
is tried again, and if all rounds fail with a retryable error, the first of them that times out
comes before the `n`-th, with none before it of a subclass, in `initialize` or with trouble in
closing, and is such a round itself if it is not the one before the `n`-th. -/
structure RetryCondition (n : Nat) (rounds : Nat → Round R) : Prop where
  positive : 1 ≤ n
  closing : ∀ i < n, (∀ j < i, (rounds j).Passed) → (rounds i).TriedAgain →
    ∀ e, (rounds i).closes = .error e → (rounds i).executes = .error e
  together : (∀ i ≤ n, (rounds i).FailsRetryably) → ∃ i < n,
    (∀ j < i, (rounds j).Passed ∧ ¬ (rounds j).TimesOut) ∧ (rounds i).TimesOut ∧
      (i + 1 = n ∨ ¬ (rounds i).Passed)

section Outcomes

theorem outcome_of_triedAgain {r : Round R} (h : r.TriedAgain) :
    ∃ e, r.outcome = .error e ∧ r.executes = .error e := by
  obtain ⟨hinit, e, he, -⟩ := h
  exact ⟨e, by rw [Round.outcome, hinit, he]; rfl, he⟩

theorem caught_iff_of_retryable {e : Exc} (h : e.isinstanceAny ERRORS_ALLOW_RETRY = true) :
    caught e = true ↔ ¬ e.isinstance .TimeoutError = true := by
  obtain ⟨cls, msg, redirect⟩ := e
  revert h
  cases cls <;> simp +decide [ERRORS_ALLOW_RETRY, caught, Exc.isinstanceAny, Exc.isinstance, ExcClass.isSubclass, ExcClass.mro]

/-- Of the retryable errors, the synchronous client does not catch the timeouts. -/
theorem caught_iff_not_timesOut {r : Round R} (h : r.FailsRetryably) : r.Caught ↔ ¬ r.TimesOut := by
  obtain ⟨e, hout, hretry⟩ := h
  have hcaught : r.Caught ↔ caught e = true := by
    refine ⟨fun ⟨e', hout', hc⟩ => ?_, fun hc => ⟨e, hout, hc⟩⟩
    rw [hout] at hout'
    cases hout'
    exact hc
  have htimes : r.TimesOut ↔ e.isinstance .TimeoutError = true := by
    refine ⟨fun ⟨e', hout', hc⟩ => ?_, fun hc => ⟨e, hout, hc⟩⟩
    rw [hout] at hout'
    cases hout'
    exact hc
  rw [hcaught, htimes, caught_iff_of_retryable hretry]

/-- What a run ends with when a round is its last: an error of closing the client after a round
that would be tried again, else the outcome of the round. -/
structure Round.Ends (r : Round R) (result : Except Exc R) : Prop where
  closed : r.TriedAgain → ∀ e, r.closes = .error e → result = .error e
  plain : (r.TriedAgain → r.closes = .ok ()) → result = r.outcome

end Outcomes

section Async

/-- A round that the loop does not go on after is its last. -/
theorem asyncLoop_ends {performed : Nat} (exception : Option Exc) (left : Nat)
    (h : ¬ (rounds performed).Passed) :
    ∃ result, asyncLoop rounds exception performed (left + 1) = (result, performed + 1) ∧
      (rounds performed).Ends result := by
  rw [asyncLoop]
  cases hinit : (rounds performed).initializes with
  | error e =>
    refine ⟨.error e, rfl, fun hf => ?_, fun _ => ?_⟩
    · rw [hf.1] at hinit
      cases hinit
    · rw [Round.outcome, hinit]
      rfl
  | ok u =>
    cases hexec : (rounds performed).executes with
    | ok results =>
      refine ⟨.ok results, rfl, fun hf => ?_, fun _ => ?_⟩
      · obtain ⟨-, e, he, -⟩ := hf
        rw [he] at hexec
        cases hexec
      · rw [Round.outcome, hinit, hexec]
        rfl
    | error e =>
      by_cases hretry : e.cls ∈ ERRORS_ALLOW_RETRY
      · have hfails : (rounds performed).TriedAgain := ⟨hinit, e, hexec, hretry⟩
        cases hclose : (rounds performed).closes with
        | ok _ => exact absurd ⟨hfails, hclose⟩ h
        | error e' =>
          refine ⟨.error e', by simp [hretry], fun _ e'' he'' => ?_, fun hok => ?_⟩
          · rw [hclose] at he''
            cases he''
            rfl
          · rw [hok hfails] at hclose
            cases hclose
      · refine ⟨.error e, by simp [hretry], fun hf => ?_, fun _ => ?_⟩
        · obtain ⟨-, e', he', hr'⟩ := hf
          rw [he'] at hexec
          cases hexec
          exact absurd hr' hretry
        · rw [Round.outcome, hinit, hexec]
          rfl

/-- The asynchronous loop stops at the first round it does not go on after, or at the last. -/
theorem asyncLoop_stops (performed : Nat) {i left : Nat} (exception : Option Exc) (hi : i < left)
    (hbefore : ∀ j < i, (rounds (performed + j)).Passed)
    (hstop : (rounds (performed + i)).Passed → i + 1 = left) :
    ∃ result, asyncLoop rounds exception performed left = (result, performed + i + 1) ∧
      (rounds (performed + i)).Ends result := by
  induction left generalizing i performed exception with
  | zero => omega
  | succ left ih =>
    by_cases hpassed : (rounds performed).Passed
    · obtain ⟨⟨hinit, e, he, hretry⟩, hclose⟩ := hpassed
      have hstep : asyncLoop rounds exception performed (left + 1) =
          asyncLoop rounds (some e) (performed + 1) left := by
        rw [asyncLoop, hinit, he]
        simp only [hretry, if_true, hclose]
      cases i with
      | zero =>
        obtain rfl : left = 0 := by
          have := hstop ⟨⟨hinit, e, he, hretry⟩, hclose⟩
          omega
        rw [hstep]
        refine ⟨.error e, rfl, ?_, ?_⟩
        · intro _ e' he'
          rw [Nat.add_zero, hclose] at he'
          cases he'
        · intro _
          rw [Nat.add_zero, Round.outcome, hinit, he]
          rfl
      | succ i =>
        have hplace (j : Nat) : performed + 1 + j = performed + (j + 1) := by omega
        obtain ⟨result, hrun, hends⟩ := ih (performed + 1) (some e) (i := i) (by omega)
          (fun j hj => by rw [hplace]; exact hbefore (j + 1) (by omega))
          (fun h => by
            rw [hplace] at h
            have := hstop h
            omega)
        rw [hplace] at hrun hends
        exact ⟨result, by rw [hstep, hrun], hends⟩
    · obtain rfl : i = 0 := by
        by_contra hne
        exact hpassed (hbefore 0 (by omega))
      rw [Nat.add_zero]
      exact asyncLoop_ends exception left hpassed

end Async

section Sync

/-- The synchronous loop stops at the first round it does not catch, or at the last. -/
theorem syncLoop_stops (performed : Nat) {i left : Nat} (hi : i ≤ left)
    (hbefore : ∀ j < i, (rounds (performed + j)).Caught)
    (hstop : (rounds (performed + i)).Caught → i = left) :
    syncLoop rounds performed left = ((rounds (performed + i)).outcome, performed + i + 1) := by
  induction left generalizing i performed with
  | zero =>
    obtain rfl : i = 0 := by omega
    rfl
  | succ left ih =>
    rw [syncLoop]
    cases i with
    | zero =>
      have hnot : ¬ (rounds performed).Caught := fun h => absurd (hstop h) (by omega)
      rw [Nat.add_zero]
      cases hout : (rounds performed).outcome with
      | ok results => rfl
      | error e =>
        have hc : ¬ caught e = true := fun hc => hnot ⟨e, hout, hc⟩
        simp only [hc]
        rfl
    | succ i =>
      obtain ⟨e, hout, hc⟩ := hbefore 0 (by omega)
      rw [Nat.add_zero] at hout
      have hnext := ih (performed + 1) (i := i) (by omega)
        (fun j hj => by
          have := hbefore (j + 1) (by omega)
          rwa [← Nat.add_assoc, Nat.add_right_comm] at this)
        (fun h => by
          rw [Nat.add_right_comm, Nat.add_assoc] at h
          have := hstop h
          omega)
      rw [hout]
      simp only [hc, if_true, hnext]
      rw [Nat.add_right_comm, Nat.add_assoc performed i 1]

end Sync

section Laws

/-- The first of some numbers below a bound, or the bound. -/
theorem exists_first (p : Nat → Prop) (m : Nat) : ∃ i ≤ m, (∀ j < i, p j) ∧ (p i → i = m) := by
  induction m with
  | zero => exact ⟨0, Nat.le_refl 0, by simp, fun _ => rfl⟩
  | succ m ih =>
    obtain ⟨i, hi, hbefore, hstop⟩ := ih
    by_cases hp : p i
    · obtain rfl := hstop hp
      refine ⟨i + 1, Nat.le_refl _, fun j hj => ?_, fun _ => rfl⟩
      rcases Nat.lt_succ_iff_lt_or_eq.mp hj with hj | rfl
      · exact hbefore j hj
      · exact hp
    · exact ⟨i, by omega, hbefore, fun h => absurd h hp⟩

/-- The run of the asynchronous client. -/
theorem exists_asyncExecute (rounds : Nat → Round R) (hn : 1 ≤ n) :
    ∃ i < n, ∃ result, (∀ j < i, (rounds j).Passed) ∧ ((rounds i).Passed → i + 1 = n) ∧
      asyncExecute n rounds = (result, i + 1) ∧ (rounds i).Ends result := by
  obtain ⟨i, hi, hbefore, hstop⟩ := exists_first (fun j => (rounds j).Passed) (n - 1)
  have hlast : (rounds i).Passed → i + 1 = n := fun h => by
    have := hstop h
    omega
  obtain ⟨result, hrun, hends⟩ := asyncLoop_stops 0 none (by omega : i < n)
    (by simpa using hbefore) (by simpa using hlast)
  rw [Nat.zero_add] at hrun hends
  exact ⟨i, by omega, result, hbefore, hlast, hrun, hends⟩

/-- The run of the synchronous client. -/
theorem exists_syncSend (rounds : Nat → Round R) (n : Nat) :
    ∃ i ≤ n, (∀ j < i, (rounds j).Caught) ∧ ((rounds i).Caught → i = n) ∧
      syncSend n rounds = ((rounds i).outcome, i + 1) := by
  obtain ⟨i, hi, hbefore, hstop⟩ := exists_first (fun j => (rounds j).Caught) n
  have hrun := syncLoop_stops 0 hi (by simpa using hbefore) (by simpa using hstop)
  rw [Nat.zero_add] at hrun
  exact ⟨i, hi, hbefore, hstop, hrun⟩

/-- The synchronous client always obeys the law. -/
theorem syncSend_law (n : Nat) (rounds : Nat → Round R) : RoundLaw n rounds (syncSend n rounds) := by
  obtain ⟨i, hi, hbefore, -, hrun⟩ := exists_syncSend rounds n
  rw [hrun]
  refine ⟨by simp, by simpa using hi, rfl, ?_⟩
  intro j hj
  obtain ⟨e, he, -⟩ := hbefore j hj
  exact ⟨e, he⟩

/-- The asynchronous client obeys it when it has a round to perform and closing raises
nothing of its own. -/
theorem asyncExecute_law_iff :
    RoundLaw n rounds (asyncExecute n rounds) ↔ 1 ≤ n ∧
      ∀ i < n, (∀ j < i, (rounds j).Passed) → (rounds i).TriedAgain →
        ∀ e, (rounds i).closes = .error e → (rounds i).executes = .error e := by
  constructor
  · intro h
    have hn : 1 ≤ n := by
      by_contra hlt
      obtain rfl : n = 0 := by omega
      exact absurd h.positive (by simp [asyncExecute, asyncLoop])
    refine ⟨hn, ?_⟩
    intro i hi hbefore hfails e hclose
    have hnot : ¬ (rounds i).Passed := fun hp => by
      rw [hp.2] at hclose
      cases hclose
    obtain ⟨result, hrun, hends⟩ := asyncLoop_stops 0 none hi
      (by simpa using hbefore) (by simpa using fun hp => absurd hp hnot)
    rw [Nat.zero_add] at hrun hends
    have hfaith := h.faithful
    change asyncExecute n rounds = _ at hrun
    rw [hrun, hends.closed hfails e hclose, Nat.add_sub_cancel] at hfaith
    obtain ⟨e', hout, hexec⟩ := outcome_of_triedAgain hfails
    rw [hexec, ← hout]
    exact hfaith.symm
  · rintro ⟨hn, hclosing⟩
    obtain ⟨i, hi, result, hbefore, -, hrun, hends⟩ := exists_asyncExecute rounds hn
    rw [hrun]
    refine ⟨by simp, by simp; omega, ?_, ?_⟩
    · change result = (rounds i).outcome
      by_cases hfails : (rounds i).TriedAgain
      · cases hclose : (rounds i).closes with
        | ok _ => exact hends.plain fun _ => hclose
        | error e =>
          obtain ⟨e', hout, hexec⟩ := outcome_of_triedAgain hfails
          rw [hends.closed hfails e hclose, hout, ← hexec]
          exact (hclosing i hi hbefore hfails e hclose).symm
      · exact hends.plain fun hf => absurd hf hfails
    · intro j hj
      obtain ⟨e, he, -⟩ := outcome_of_triedAgain (hbefore j hj).1
      exact ⟨e, he⟩

/-- Exactly when the two clients keep to the law and agree. -/
theorem retry_laws_iff (n : Nat) (rounds : Nat → Round R) :
    RetryLaws n rounds ↔ RetryCondition n rounds := by
  constructor
  · rintro ⟨hasync, -, hsame⟩
    obtain ⟨hn, hclosing⟩ := asyncExecute_law_iff.mp hasync
    refine ⟨hn, hclosing, ?_⟩
    intro hall
    have heq := hsame hall
    obtain ⟨i, hi, result, hbefore, hlast, hrun, -⟩ := exists_asyncExecute rounds hn
    obtain ⟨k, -, hcaught, hstop, hsync⟩ := exists_syncSend rounds n
    rw [hrun, hsync] at heq
    obtain rfl : i = k := by simpa using heq
    refine ⟨i, hi, fun j hj => ⟨hbefore j hj, ?_⟩, ?_, ?_⟩
    · exact (caught_iff_not_timesOut (hall j (by omega))).mp (hcaught j hj)
    · by_contra hnot
      have := hstop ((caught_iff_not_timesOut (hall i (by omega))).mpr hnot)
      omega
    · by_cases hpassed : (rounds i).Passed
      · exact .inl (hlast hpassed)
      · exact .inr hpassed
  · rintro ⟨hn, hclosing, htogether⟩
    refine ⟨asyncExecute_law_iff.mpr ⟨hn, hclosing⟩, syncSend_law n rounds, ?_⟩
    intro hall
    obtain ⟨i, hi, hboth, htimes, hlast⟩ := htogether hall
    have hcaught : ∀ j < i, (rounds j).Caught := fun j hj =>
      (caught_iff_not_timesOut (hall j (by omega))).mpr (hboth j hj).2
    have hnot : ¬ (rounds i).Caught := fun hc =>
      (caught_iff_not_timesOut (hall i (by omega))).mp hc htimes
    obtain ⟨result, hrun, -⟩ := asyncLoop_stops 0 none hi
      (by simpa using fun j hj => (hboth j hj).1) (by simpa using hlast.resolve_right ∘ not_not_intro)
    have hsync := syncLoop_stops 0 (Nat.le_of_lt hi) (by simpa using hcaught)
      (by simpa using fun hc => absurd hc hnot)
    rw [asyncExecute, syncSend, hrun, hsync]

end Laws

section Model

variable {σ ρ κ α : Type} [DecidableEq ρ]

/-- What a program comes to. -/
def outcomeOf {τ β : Type} : EStateM.Result Exc τ β → Except Exc β
  | .ok b _ => .ok b
  | .error e _ => .error e

/-- The later rounds of a run, seen from its second one. -/
theorem syncLoop_shift (rounds : Nat → Round R) (performed left : Nat) :
    (syncLoop rounds (performed + 1) left).1 =
      (syncLoop (fun i => rounds (i + 1)) performed left).1 := by
  induction left generalizing performed with
  | zero => rfl
  | succ left ih =>
    rw [syncLoop, syncLoop]
    cases (rounds (performed + 1)).outcome with
    | ok results => rfl
    | error e =>
      by_cases hc : caught e = true
      · simp only [hc, if_true]
        exact ih (performed + 1)
      · simp only [hc]
        rfl

variable (ops : Nat → ClusterPipeline.Ops σ ρ κ α) (stack : List Nat) (raise_on_error : Bool)

/-- What the modelled pipeline has come to before its `i`-th attempt of `n + 1`. -/
def stateBefore (n : Nat) (s : σ × PipelineBook ρ κ α) : Nat → σ × PipelineBook ρ κ α
  | 0 => s
  | i + 1 => Raising.state ((ClusterPipeline._sendClusterCommands (ops (n - i)) stack
      raise_on_error).run (stateBefore n s i))

/-- Its attempts, as rounds. -/
def attemptRounds (n : Nat) (s : σ × PipelineBook ρ κ α) (i : Nat) :
    Round (List (PipelineResult α)) where
  executes := outcomeOf ((ClusterPipeline._sendClusterCommands (ops (n - i)) stack
    raise_on_error).run (stateBefore ops stack raise_on_error n s i))

omit [DecidableEq ρ] in
theorem attemptRounds_succ (n : Nat) (s : σ × PipelineBook ρ κ α) (i : Nat) :
    attemptRounds ops stack raise_on_error (n + 1) s (i + 1) =
      attemptRounds ops stack raise_on_error n
        (stateBefore ops stack raise_on_error (n + 1) s 1) i := by
  have hstate : stateBefore ops stack raise_on_error (n + 1) s (i + 1) =
      stateBefore ops stack raise_on_error n
        (stateBefore ops stack raise_on_error (n + 1) s 1) i := by
    induction i with
    | zero => rfl
    | succ i ih =>
      rw [stateBefore, ih, Nat.succ_sub_succ]
      rfl
  rw [attemptRounds, attemptRounds, hstate, Nat.succ_sub_succ]

omit [DecidableEq ρ] in
/-- The modelled pipeline is the loop over its attempts. -/
theorem sendAttempts_rounds (n : Nat) (s : σ × PipelineBook ρ κ α) :
    outcomeOf ((ClusterPipeline.sendAttempts ops stack raise_on_error n).run s) =
      (syncSend n (attemptRounds ops stack raise_on_error n s)).1 := by
  induction n generalizing s with
  | zero => rfl
  | succ n ih =>
    have hlater : (fun i => attemptRounds ops stack raise_on_error (n + 1) s (i + 1)) =
        attemptRounds ops stack raise_on_error n
          (stateBefore ops stack raise_on_error (n + 1) s 1) :=
      funext fun i => attemptRounds_succ ops stack raise_on_error n s i
    have hnext := ih (stateBefore ops stack raise_on_error (n + 1) s 1)
    rw [syncSend, ← hlater, ← syncLoop_shift] at hnext
    rw [ClusterPipeline.sendAttempts, syncSend, syncLoop, Raising.run_tryCatch]
    have hout : (attemptRounds ops stack raise_on_error (n + 1) s 0).outcome =
        outcomeOf ((ClusterPipeline._sendClusterCommands (ops (n + 1)) stack raise_on_error).run s) :=
      rfl
    have hstate : stateBefore ops stack raise_on_error (n + 1) s 1 = Raising.state
        ((ClusterPipeline._sendClusterCommands (ops (n + 1)) stack raise_on_error).run s) := rfl
    rw [hout]
    rw [hstate] at hnext
    cases hrun : (ClusterPipeline._sendClusterCommands (ops (n + 1)) stack raise_on_error).run s with
    | ok results s' => rfl
    | error e s' =>
      rw [hrun] at hnext
      by_cases hc : caught e = true
      · have hin : e.isinstanceAny [.ClusterDownError, .ConnectionError] = true := hc
        simp only [outcomeOf, hc, hin, if_true]
        exact hnext
      · have hin : ¬ e.isinstanceAny [.ClusterDownError, .ConnectionError] = true := hc
        simp only [outcomeOf, hc, hin]
        rfl

end Model

/-- No attempts: a round that would succeed is not performed. -/
theorem no_attempts_raises : ¬ RetryLaws 0 (fun _ => ({ executes := .ok 5 } : Round Nat)) := by
  rintro ⟨h, -, -⟩
  exact absurd h.positive (by decide)

end PipelineRounds

end RedisPy
