import Mathlib
import RedisPy.Library.Course
import RedisPy.Spec.Sentinel

/-! What becomes of the list of sentinels while masters are discovered. -/

namespace RedisPy

open Course

variable {κ : Type}

namespace Sentinel

variable (S : Sentinel κ)

/-- The swap loses nothing exactly if the sentinel still stands where it was read. -/
theorem putFirst_perm_iff {sentinel_no : Nat} (sentinel : κ)
    (hlt : sentinel_no < S.sentinels.length) :
    (S.putFirst sentinel_no sentinel).sentinels.Perm S.sentinels ↔
      sentinel_no = 0 ∨ S.sentinels[sentinel_no]? = some sentinel := by
  obtain ⟨sentinels, _, _, _⟩ := S
  cases sentinels with
  | nil => exact absurd hlt (Nat.not_lt_zero _)
  | cons first rest =>
    cases sentinel_no with
    | zero => simp [putFirst]
    | succ k =>
      have hk : k < rest.length := Nat.lt_of_succ_lt_succ hlt
      have hset := List.set_perm_cons_eraseIdx hk first
      have hrest := List.getElem_cons_eraseIdx_perm hk
      simp only [putFirst, List.set_cons_zero, List.set_cons_succ, Nat.succ_ne_zero, false_or,
        List.getElem?_cons_succ, List.getElem?_eq_getElem hk, Option.some.injEq]
      have hleft := (hset.cons sentinel).trans (.swap ..)
      have hright := (hrest.cons first).symm
      rw [hleft.congr_left, hright.congr_right, List.perm_cons, ← Multiset.coe_eq_coe,
        ← Multiset.cons_coe, ← Multiset.cons_coe, Multiset.cons_inj_left]
      exact eq_comm

@[simp] theorem length_putFirst (sentinel_no : Nat) (sentinel : κ) :
    (S.putFirst sentinel_no sentinel).sentinels.length = S.sentinels.length := by
  unfold putFirst
  cases h : S.sentinels with
  | nil => exact congrArg _ h
  | cons first rest => simp

/-- A call of `redis/sentinel.py` reads the list that it reorders. -/
theorem discoverFrom_perm (service_name : String) (ask : Nat → SentinelMasters)
    {passed sentinels : List κ} (collected_errors : List String)
    (h : S.sentinels = passed ++ sentinels) :
    (S.discoverFrom service_name ask passed.length collected_errors sentinels).2.sentinels.Perm
      S.sentinels := by
  induction sentinels generalizing passed collected_errors with
  | nil => exact .refl _
  | cons sentinel sentinels ih =>
    have hpassed : S.sentinels = (passed ++ [sentinel]) ++ sentinels := by simp [h]
    have hnext := fun collected_errors => ih collected_errors hpassed
    rw [List.length_append, List.length_singleton] at hnext
    unfold discoverFrom
    split
    · split
      · exact hnext _
      · exact .refl _
    · split
      · apply (putFirst_perm_iff S sentinel (by simp [h])).mpr
        right
        simp [h]
      · exact hnext _

theorem discoverMaster_perm (service_name : String) (ask : Nat → SentinelMasters) :
    (S.discoverMaster service_name ask).2.sentinels.Perm S.sentinels :=
  S.discoverFrom_perm service_name ask [] (List.nil_append _).symm

/-- One call after the other. -/
def discoverEach (calls : List (String × (Nat → SentinelMasters))) : Sentinel κ :=
  calls.foldl (fun S call => (S.discoverMaster call.1 call.2).2) S

theorem discoverEach_perm (calls : List (String × (Nat → SentinelMasters))) :
    (S.discoverEach calls).sentinels.Perm S.sentinels := by
  apply foldl_keeps (I := fun T : Sentinel κ => T.sentinels.Perm S.sentinels)
  · exact fun T call h => (T.discoverMaster_perm call.1 call.2).trans h
  · exact .refl _

end Sentinel

namespace Discovery

open Interleave

/-- A call that waits has read its sentinel from the list. -/
def InBounds (n : Nat) : Discovery κ → Prop
  | asking _ sentinel_no _ _ => sentinel_no < n
  | _ => True

theorem inBounds_next (S : Sentinel κ) (service_name : String) (sentinel_no : Nat)
    (collected_errors : List String) :
    InBounds S.sentinels.length (next S service_name sentinel_no collected_errors) := by
  unfold next
  split
  · rename_i h
    exact (List.getElem?_eq_some_iff.mp h).1
  · trivial

/-- Where the turn swaps, the sentinel that answered stands where it was read, or at the top. -/
def InPlace (S : Sentinel κ) : Discovery κ → DiscoveryTurn → Prop
  | asking service_name sentinel_no sentinel _, .answered (.ok masters) =>
    (S.masterIn service_name masters).isSome → sentinel_no = 0 ∨ S.sentinels[sentinel_no]? = some sentinel
  | _, _ => True

/-- A turn keeps the sentinels just if it finds its own in place, and it always keeps
their number. -/
theorem resume_spec {S S' : Sentinel κ} {t t' : Discovery κ} {e : DiscoveryTurn}
    (h : resume S t e = some (S', t')) (ht : InBounds S.sentinels.length t) :
    (S'.sentinels.Perm S.sentinels ↔ InPlace S t e) ∧ S'.sentinels.length = S.sentinels.length ∧
      InBounds S'.sentinels.length t' := by
  unfold resume at h
  split at h
  · cases h
    exact ⟨iff_of_true (.refl _) trivial, rfl, inBounds_next ..⟩
  · split at h
    · cases h
      exact ⟨iff_of_true (.refl _) trivial, rfl, inBounds_next ..⟩
    · cases h
      exact ⟨iff_of_true (.refl _) trivial, rfl, trivial⟩
  · rename_i service_name sentinel_no sentinel collected_errors masters
    cases hm : S.masterIn service_name masters with
    | some state =>
      simp only [hm] at h
      cases h
      refine ⟨?_, S.length_putFirst .., trivial⟩
      rw [S.putFirst_perm_iff sentinel ht]
      simp [InPlace, hm]
    | none =>
      simp only [hm] at h
      cases h
      refine ⟨iff_of_true (.refl _) ?_, rfl, inBounds_next ..⟩
      simp [InPlace, hm]
  · cases h

/-- The move does not swap, or finds its sentinel in place. -/
def MoveInPlace (w : SentinelWorld κ) : DiscoveryMove → Prop
  | .spawn _ => True
  | .resume i e => ∀ t, w.tasks[i]? = some t → InPlace w.shared t e

/-- The sentinels are those that were configured. -/
def KeepsAll (configured : List κ) (w : SentinelWorld κ) : Prop :=
  w.shared.sentinels.Perm configured

/-- What holds between the turns as long as no sentinel is lost. -/
def Intact (configured : List κ) (w : SentinelWorld κ) : Prop :=
  KeepsAll configured w ∧ ∀ t ∈ w.tasks, InBounds w.shared.sentinels.length t

theorem advance_keepsAll_iff {configured : List κ} {w : SentinelWorld κ} (m : DiscoveryMove)
    (h : Intact configured w) :
    (KeepsAll configured ((program κ).advance w m) ↔ MoveInPlace w m) ∧
      ∀ t ∈ ((program κ).advance w m).tasks,
        InBounds ((program κ).advance w m).shared.sentinels.length t := by
  obtain ⟨hall, hbounds⟩ := h
  cases m with
  | spawn service_name =>
    refine ⟨iff_of_true hall trivial, fun t ht => ?_⟩
    cases List.mem_append.mp ht with
    | inl ht => exact hbounds t ht
    | inr ht =>
      obtain rfl := List.mem_singleton.mp ht
      trivial
  | resume i e =>
    cases ht : w.tasks[i]? with
    | none =>
      rw [Program.advance_idle ht]
      exact ⟨iff_of_true hall fun t h => by simp [ht] at h, hbounds⟩
    | some t =>
      have hplace : MoveInPlace w (.resume i e) ↔ InPlace w.shared t e := by
        simp [MoveInPlace, ht]
      rw [hplace]
      cases hr : (program κ).resume w.shared t e with
      | none =>
        rw [Program.advance_stuck ht hr]
        refine ⟨iff_of_true hall ?_, hbounds⟩
        -- a turn that swaps can be taken
        cases t with
        | asking service_name sentinel_no sentinel collected_errors =>
          cases e with
          | starts => trivial
          | answered masters =>
            cases masters with
            | error e => trivial
            | ok masters =>
              simp only [program, resume] at hr
              split at hr
              · cases hr
              · cases hr
        | _ => trivial
      | some r =>
        obtain ⟨S', t'⟩ := r
        obtain ⟨hperm, hlength, hnew⟩ := resume_spec hr (hbounds t (List.mem_of_getElem? ht))
        rw [Program.advance_resume ht hr]
        constructor
        · rw [← hperm]
          exact hall.congr_right S'.sentinels |>.symm
        · intro u hu
          cases List.mem_or_eq_of_mem_set hu with
          | inl hu => exact hlength ▸ hbounds u hu
          | inr hu => exact hu ▸ hnew

/-- In a run of concurrent calls no sentinel is ever lost or doubled exactly if each call that
swaps finds its sentinel in place. One call after the other never loses any. -/
theorem keepsAll_iff (S : Sentinel κ) (moves : List DiscoveryMove) :
    (Each (program κ).advance (fun w m => KeepsAll S.sentinels ((program κ).advance w m))
        { shared := S, tasks := [] } moves ↔
      Each (program κ).advance MoveInPlace { shared := S, tasks := [] } moves) ∧
    ∀ calls, (S.discoverEach calls).sentinels.Perm S.sentinels := by
  refine ⟨?_, S.discoverEach_perm⟩
  refine each_good_iff (I := Intact S.sentinels) ?_ ?_ ?_ (Each.trivial _ _)
  · intro w m hw _ hok
    obtain ⟨hiff, hbounds⟩ := advance_keepsAll_iff m hw
    exact ⟨hiff.mpr hok, hiff.mpr hok, hbounds⟩
  · intro w m hw _ hgood
    exact (advance_keepsAll_iff m hw).1.mp hgood
  · exact ⟨.refl _, by simp⟩

/-- Two calls for whom the first of two sentinels is down: the other answers both, and the
second answer puts it in both places. -/
theorem sentinel_lost :
    let state : MasterState :=
      { is_master := true
        is_sdown := false
        is_odown := false
        num_other_sentinels := 1
        ip := "10.0.0.1"
        port := 6379 }
    let down : DiscoveryTurn := .answered (.error { cls := .ConnectionError })
    let up : DiscoveryTurn := .answered (.ok [("mymaster", state)])
    let S : Sentinel Nat := { sentinels := [1, 2] }
    (([.spawn "mymaster", .spawn "mymaster", .resume 0 .starts, .resume 1 .starts, .resume 0 down,
        .resume 1 down, .resume 0 up, .resume 1 up] : List DiscoveryMove).foldl
        (program Nat).advance { shared := S, tasks := [] }).shared.sentinels = [2, 2] ∧
      ¬ ([2, 2] : List Nat).Perm S.sentinels := by
  decide

end Discovery

end RedisPy
