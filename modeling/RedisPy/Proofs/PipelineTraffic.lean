import RedisPy.Proofs.PipelineRecord
import RedisPy.Proofs.PipelineResults

/-! A value that the sync `ClusterPipeline` has read: whether its command is sent again, and
whether the value is in the list. -/

namespace RedisPy

open Raising PipelineAttempt

namespace ClusterPipeline

variable {ρ κ α : Type} {args : Nat → List String}
  {callbacks : Nat → Option (ResponseCallback α)} {a : PipelineAttempt ρ κ α} {k : Nat}
  {steps : Nat → List (Step α)} {s : (Applications α × List (Deed α)) × PipelineBook ρ κ α}

/-! ### The replies -/

/-- One of the values that are read from a node. -/
def ReadFrom (a : PipelineAttempt ρ κ α) (ps : List Nat) (d : Deed α) : Prop :=
  ∃ p ∈ a.readIn ps, ∃ v, a.reply p = .ok v ∧ d = .reads p v

/-- One of the values that are read from the nodes to which the commands could be written. -/
def Replied (a : PipelineAttempt ρ κ α) (groups : List (List Nat)) (d : Deed α) : Prop :=
  ∃ ps ∈ groups, a.writing ps = .ok false ∧ ReadFrom a ps d

/-- What an exchange adds to the record: all that is sent comes before all that is read. -/
def Exchanged (a : PipelineAttempt ρ κ α) (groups : List (List Nat)) (l l' : List (Deed α)) : Prop :=
  ∃ sent read, l' = l ++ sent ++ read ∧ (∀ d ∈ sent, ∃ p, d = .sends p) ∧
    ∀ d ∈ read, Replied a groups d

/-- What executing these commands anew adds to the record. -/
def anew (steps : Nat → List (Step α)) (ps : List Nat) : List (Deed α) :=
  ps.flatMap fun p => (steps p).map (Step.of p)

/-- The commands that have been executed anew, when it comes to that. -/
def Anew (a : PipelineAttempt ρ κ α) (steps : Nat → List (Step α)) (groups : List (List Nat)) (n : Nat)
    (l l' : List (Deed α)) : Prop :=
  ∃ qs, qs.Sublist (a.again groups n) ∧ l' = l ++ anew steps qs

/-- What an attempt adds to the record. -/
def Attempted (a : PipelineAttempt ρ κ α) (steps : Nat → List (Step α)) (args : Nat → List String)
    (n : Nat) (l l' : List (Deed α)) : Prop :=
  ∃ l₁, Exchanged a (a.groups args n) l l₁ ∧ Anew a steps (a.groups args n) n l₁ l'

theorem groups_perm (a : PipelineAttempt ρ κ α) (args : Nat → List String) (n : Nat) :
    a.groups args n = [] ∨ (a.groups args n).flatten.Perm (List.range n) := by
  unfold PipelineAttempt.groups
  cases hgrouped : a.grouped args (List.range n) ∅ false with
  | error e => exact .inl rfl
  | ok res =>
    obtain ⟨nodes, is_default_node⟩ := res
    have := grouped_perm hgrouped
    rw [commandsOf, List.flatMap_def] at this
    exact .inr this

theorem lt_of_mem_groups {n p : Nat} {ps : List Nat} (hps : ps ∈ a.groups args n) (hp : p ∈ ps) :
    p < n := by
  rcases groups_perm a args n with hnil | hperm
  · rw [hnil] at hps
    exact absurd hps List.not_mem_nil
  · exact List.mem_range.mp (hperm.mem_iff.mp (List.mem_flatten.mpr ⟨ps, hps, hp⟩))

theorem groups_nodup (a : PipelineAttempt ρ κ α) (args : Nat → List String) (n : Nat) :
    (a.groups args n).flatten.Nodup := by
  rcases groups_perm a args n with hnil | hperm
  · rw [hnil]
    exact List.nodup_nil
  · exact hperm.nodup_iff.mpr List.nodup_range

theorem mem_of_mem_readIn {ps : List Nat} {p : Nat} (h : p ∈ a.readIn ps) : p ∈ ps := by
  induction ps with
  | nil => exact absurd h List.not_mem_nil
  | cons q ps ih =>
    unfold PipelineAttempt.readIn at h
    split at h
    · exact (List.mem_cons.mp h).elim (fun heq => heq ▸ List.mem_cons_self)
        fun h => List.mem_cons_of_mem _ (ih h)
    · split at h
      · exact absurd h List.not_mem_nil
      · exact List.mem_cons_of_mem _ (ih h)

theorem mem_anew {ps : List Nat} {d : Deed α} (h : d ∈ anew steps ps) :
    ∃ p ∈ ps, ∃ step ∈ steps p, step.of p = d := by
  obtain ⟨p, hp, hd⟩ := List.mem_flatMap.mp h
  obtain ⟨step, hstep, rfl⟩ := List.mem_map.mp hd
  exact ⟨p, hp, step, hstep, rfl⟩

theorem sends_mem_anew {ps : List Nat} {p : Nat} (h : .sends p ∈ anew steps ps) : p ∈ ps := by
  obtain ⟨q, hq, step, -, hd⟩ := mem_anew h
  cases step with
  | sends =>
    cases hd
    exact hq
  | reads v => exact nomatch hd

theorem reads_mem_anew {ps : List Nat} {p : Nat} {v : Option α} (h : .reads p v ∈ anew steps ps) :
    p ∈ ps ∧ .reads v ∈ steps p := by
  obtain ⟨q, hq, step, hstep, hd⟩ := mem_anew h
  cases step with
  | sends => exact nomatch hd
  | reads w =>
    cases hd
    exact ⟨hq, hstep⟩

/-- A command whose reply has been read from its own node is not executed anew. -/
theorem not_retried_of_replied {n p : Nat} {v : Option α} (hunbroken : a.Unbroken args n)
    (h : Replied a (a.groups args n) (.reads p v)) :
    p < n ∧ a.reply p = .ok v ∧ ¬ a.Retried (a.groups args n) p := by
  obtain ⟨ps, hps, hwriting, q, hq, w, hreply, hd⟩ := h
  cases hd
  have hmem := mem_of_mem_readIn hq
  refine ⟨lt_of_mem_groups hps hmem, hreply, ?_⟩
  rintro (⟨qs, hqs, hp, hlost⟩ | hallows)
  · rw [eq_of_mem_groups (groups_nodup a args n) hps hqs hmem hp] at hlost
    rw [hunbroken ps hps hlost hwriting] at hq
    exact absurd hq List.not_mem_nil
  · rw [hreply] at hallows
    exact nomatch hallows

theorem retried_of_mem_again {groups : List (List Nat)} {n p : Nat} (h : p ∈ a.again groups n) :
    p < n ∧ a.Retried groups p := by
  obtain ⟨hp, hretried⟩ := List.mem_filter.mp h
  exact ⟨List.mem_range.mp hp, of_decide_eq_true hretried⟩

/-- No value has been read. -/
def Unread (l : List (Deed α)) : Prop := ∀ p v, Deed.reads p v ∉ l

theorem Attempted.unread {n : Nat} {l l' : List (Deed α)} (h : Attempted a steps args n l l')
    (hnothing : a.ReadsNothing steps args n) (hl : Unread l) : Unread l' := by
  obtain ⟨_, ⟨sent, read, rfl, hsent, hread⟩, qs, hqs, rfl⟩ := h
  intro p v hmem
  rcases List.mem_append.mp hmem with hmem | hmem
  · rcases List.mem_append.mp hmem with hmem | hmem
    · rcases List.mem_append.mp hmem with hmem | hmem
      · exact hl p v hmem
      · obtain ⟨q, hq⟩ := hsent _ hmem
        exact nomatch hq
    · obtain ⟨ps, hps, hwriting, q, hq, -⟩ := hread _ hmem
      rw [hnothing.1 ps hps hwriting] at hq
      exact absurd hq List.not_mem_nil
  · obtain ⟨hp, hstep⟩ := reads_mem_anew hmem
    obtain ⟨hlt, hretried⟩ := retried_of_mem_again (hqs.subset hp)
    exact hnothing.2 p hlt hretried v hstep

theorem notResent_anew {n : Nat} {groups : List (List Nat)} {qs : List Nat}
    (hqs : qs.Sublist (a.again groups n)) (honce : ∀ p < n, a.Retried groups p → a.Once steps p) :
    NotResent (anew steps qs) := by
  have hnodup : qs.Nodup := (List.nodup_range.filter _).sublist hqs
  refine List.pairwise_flatMap.mpr ⟨fun p hp => ?_, hnodup.imp ?_⟩
  · obtain ⟨hlt, hretried⟩ := retried_of_mem_again (hqs.subset hp)
    refine List.pairwise_map.mpr ((honce p hlt hretried).1.imp ?_)
    rintro x y hxy q v hx hy
    refine hxy ?_ ?_
    · rintro rfl
      exact nomatch hx
    · cases y with
      | sends => rfl
      | reads w => exact nomatch hy
  · rintro p p' hne x hx y hy q v rfl rfl
    obtain ⟨step, -, hstep⟩ := List.mem_map.mp hx
    obtain ⟨step', -, hstep'⟩ := List.mem_map.mp hy
    cases step <;> cases hstep
    cases step' <;> cases hstep'
    exact hne rfl

theorem Attempted.kept {n : Nat} {l l' : List (Deed α)} (h : Attempted a steps args n l l')
    (callbacks : Nat → Option (ResponseCallback α)) (hunbroken : a.Unbroken args n)
    (honce : ∀ p < n, a.Retried (a.groups args n) p → a.Once steps p) (hl : Unread l) :
    NotResent l' ∧ ∀ p v, .reads p v ∈ l' →
      p < n ∧ Made (callbacks p) (a.processed p) v (a.listed args callbacks n p) := by
  obtain ⟨_, ⟨sent, read, rfl, hsent, hread⟩, qs, hqs, rfl⟩ := h
  have hbefore : Unread (l ++ sent) := by
    intro p v hmem
    rcases List.mem_append.mp hmem with hmem | hmem
    · exact hl p v hmem
    · obtain ⟨q, hq⟩ := hsent _ hmem
      exact nomatch hq
  constructor
  · refine List.pairwise_append.mpr ⟨List.pairwise_append.mpr ⟨?_, ?_, ?_⟩,
      notResent_anew hqs honce, ?_⟩
    · refine List.pairwise_of_forall_mem_list ?_
      rintro d hd d' - p v rfl
      exact absurd hd (hbefore p v)
    · refine List.pairwise_of_forall_mem_list ?_
      rintro d - d' hd' p v - rfl
      obtain ⟨ps, -, -, q, -, w, -, hq⟩ := hread _ hd'
      exact nomatch hq
    · rintro d hd d' - p v rfl
      exact absurd hd (hbefore p v)
    · rintro d hd d' hd' p v rfl rfl
      rcases List.mem_append.mp hd with hd | hd
      · exact hbefore p v hd
      · have hagain := retried_of_mem_again (hqs.subset (sends_mem_anew hd'))
        exact (not_retried_of_replied hunbroken (hread _ hd)).2.2 hagain.2
  · intro p v hmem
    rcases List.mem_append.mp hmem with hmem | hmem
    · rcases List.mem_append.mp hmem with hmem | hmem
      · exact absurd hmem (hbefore p v)
      · obtain ⟨hlt, hreply, hretried⟩ := not_retried_of_replied hunbroken (hread _ hmem)
        refine ⟨hlt, .inl ?_⟩
        rw [PipelineAttempt.listed, PipelineAttempt.result, if_neg hretried, hreply]
    · obtain ⟨hp, hstep⟩ := reads_mem_anew hmem
      obtain ⟨hlt, hretried⟩ := retried_of_mem_again (hqs.subset hp)
      refine ⟨hlt, .inr ?_⟩
      rw [PipelineAttempt.listed, PipelineAttempt.result, if_pos hretried,
        (honce p hlt hretried).2 v hstep]

/-! ### All attempts -/

end ClusterPipeline

end RedisPy
