import RedisPy.Library.Course
import RedisPy.Spec.PipelineRouting

/-! When every transmission of a command of a pipeline goes to a node that
`execute_command` could choose for it. -/

namespace RedisPy

namespace PipelineRouting

open Course

variable {ν : Type} {asyncio : Bool} {c : CommandRoute} {passed : Option (TargetNodes ν)}
  {q : QueuedCommand ν} {t : SlotTopology ν} {n : ν}

/-- The transmission goes where `execute_command` could send the command. -/
def Routed (asyncio : Bool) (c : CommandRoute) (passed : Option (TargetNodes ν)) (q : QueuedCommand ν)
    (i : Try × SlotTopology ν) : Prop :=
  ∀ n ∈ sentTo asyncio c q i, n ∈ couldChoose asyncio c passed i.2

/-- An option that changes nothing: none is passed; or, in the asyncio client, a value
that is not true, or the flag that the command has of its own. -/
def Idle (asyncio : Bool) (c : CommandRoute) : Option (TargetNodes ν) → Prop
  | none => True
  | some passed =>
    asyncio = true ∧ (passed.truthy = false ∨ (passed.isNodesFlag = true ∧ passed.flag = c.flag))

/-- A value that is not true is none to a pipeline, but not to `execute_command` of the
sync client. -/
def Plain (asyncio : Bool) : Option (TargetNodes ν) → Prop
  | none => True
  | some passed => asyncio = true ∨ passed.truthy = true

/-- The option of the caller is still there, or it does not matter. -/
def Remembers (asyncio : Bool) (c : CommandRoute) (passed : Option (TargetNodes ν)) (q : QueuedCommand ν) : Prop :=
  Idle asyncio c passed ∨ (q.target_nodes = passed ∧ Plain asyncio passed)

/-- What the pipeline makes of the options, `execute_command` makes of them too. -/
theorem pipelineTargets_subset (h : Plain asyncio passed) {ns : List ν}
    (hn : .ok ns ∈ pipelineTargets asyncio t c passed) : .ok ns ∈ executeTargets asyncio t c passed := by
  cases passed with
  | none => exact hn
  | some v =>
    cases asyncio with
    | false =>
      have ht : v.truthy = true := h.resolve_left Bool.false_ne_true
      cases v with
      | str s => simp [pipelineTargets, ht] at hn
      | list nodes => simpa [pipelineTargets, executeTargets, ht, TargetNodes.isNodesFlag] using hn
      | node n => simpa [pipelineTargets, executeTargets, ht, TargetNodes.isNodesFlag] using hn
      | dict nodes =>
        simp only [pipelineTargets, ht, List.mem_singleton] at hn
        split at hn
        · obtain rfl := Except.ok.inj hn
          simp [executeTargets, TargetNodes.isNodesFlag, TargetNodes.parseTargetNodes]
        · cases hn
      | other b => simpa [pipelineTargets, executeTargets, ht, TargetNodes.isNodesFlag] using hn
    | true =>
      cases ht : v.truthy with
      | false => simpa [pipelineTargets, executeTargets, ht] using hn
      | true =>
        cases hf : v.isNodesFlag with
        | false => simpa [pipelineTargets, executeTargets, ht, hf] using hn
        | true => simpa [pipelineTargets, executeTargets, ht, hf] using hn

/-- Without an option that changes nothing, the nodes are the same. -/
theorem executeTargets_idle (h : Idle asyncio c passed) :
    executeTargets asyncio t c passed = executeTargets asyncio t c none := by
  cases passed with
  | none => rfl
  | some v =>
    obtain ⟨rfl, ht | ⟨hf, hflag⟩⟩ := h
    · simp [executeTargets, ht]
    · cases ht : v.truthy with
      | false => simp [executeTargets, ht]
      | true =>
        have hd : _determineNodes true t c v.flag = _determineNodes true t c none := by
          rw [hflag]
          cases hc : c.flag with
          | none => rfl
          | some f => simp only [_determineNodes, hc, Option.or]
        simp [executeTargets, ht, hf, hd]

theorem mem_couldChoose {ns : List ν} (h : .ok ns ∈ executeTargets asyncio t c passed) (hn : n ∈ ns) :
    n ∈ couldChoose asyncio c passed t :=
  List.mem_flatMap.mpr ⟨.ok ns, h, hn⟩

/-- What is sent with the options that are left is what `execute_command` sends with them. -/
theorem sentTo_couldChoose (h : Plain asyncio q.target_nodes) {k : Try}
    (hn : n ∈ sentTo asyncio c q (k, t)) : n ∈ couldChoose asyncio c q.target_nodes t := by
  cases k with
  | alone => exact hn
  | grouped =>
    obtain ⟨o, ho, hone⟩ := List.mem_filterMap.mp hn
    rcases o with e | _ | ⟨m, _ | _⟩
    · simp [onlyOne, Except.toOption] at hone
    · simp [onlyOne, Except.toOption] at hone
    · obtain rfl : m = n := by simpa [onlyOne, Except.toOption] using hone
      exact mem_couldChoose (pipelineTargets_subset h ho) List.mem_cons_self
    · simp [onlyOne, Except.toOption] at hone

/-- The options that are left are those of the caller, or none. -/
def Popped (passed : Option (TargetNodes ν)) (q : QueuedCommand ν) : Prop :=
  q.target_nodes = passed ∨ q.target_nodes = none

theorem step_popped (h : Popped passed q) (i : Try × SlotTopology ν) : Popped passed (step q i) := by
  obtain ⟨k, t⟩ := i
  cases k with
  | grouped => exact .inr rfl
  | alone => exact h

theorem routed_of_remembers (h : Popped passed q) (hr : Remembers asyncio c passed q)
    (i : Try × SlotTopology ν) : Routed asyncio c passed q i := by
  obtain ⟨k, t⟩ := i
  intro n hn
  rcases hr with hidle | ⟨hq, hplain⟩
  · have hplain : Plain asyncio q.target_nodes := by
      rcases h with hq | hq
      · rw [hq]
        cases passed with
        | none => trivial
        | some v => exact .inl hidle.1
      · rw [hq]
        trivial
    have hsame : executeTargets asyncio t c q.target_nodes = executeTargets asyncio t c passed := by
      rcases h with hq | hq
      · rw [hq]
      · rw [hq, executeTargets_idle hidle]
    have := sentTo_couldChoose hplain hn
    rwa [couldChoose, hsame] at this
  · have := sentTo_couldChoose (hq ▸ hplain) hn
    rwa [hq] at this

/-- In every history of transmissions, whatever the topology at each of them, the command
goes where `execute_command` could send it as long as its options are remembered. -/
theorem routed_of_each_remembers (asyncio : Bool) (c : CommandRoute) (passed : Option (TargetNodes ν))
    (tries : List (Try × SlotTopology ν))
    (h : Each step (fun q _ => Remembers asyncio c passed q) ⟨passed⟩ tries) :
    Each step (Routed asyncio c passed) ⟨passed⟩ tries := by
  have hall : ∀ tries q, Popped passed q → Each step (fun q _ => Remembers asyncio c passed q) q tries →
      Each step (Routed asyncio c passed) q tries := by
    intro tries
    induction tries with
    | nil => exact fun _ _ _ => trivial
    | cons i tries ih =>
      intro q hq ⟨hr, hrest⟩
      exact ⟨routed_of_remembers hq hr i, ih (step q i) (step_popped hq i) hrest⟩
  exact hall tries ⟨passed⟩ (.inl rfl) h

/-- Two nodes, the first of which has the slot of the command. -/
def twoNodes : SlotTopology Nat where
  primaries := [0, 1]
  replicas := []
  nodes := [0, 1]
  default_node := 0
  slot := .ok [0]

/-- A command without options that is tried again, and one for a named node that is not. -/
theorem routed_twice :
    Each step (Routed (ν := Nat) false {} none) ⟨none⟩ [(.grouped, twoNodes), (.alone, twoNodes)] ∧
    Each step (Routed false {} (some (.node 1))) ⟨some (.node 1)⟩ [(.grouped, twoNodes)] :=
  ⟨routed_of_each_remembers false {} none _ ⟨.inl trivial, .inl trivial, trivial⟩,
    routed_of_each_remembers false {} (some (.node 1)) _ ⟨.inr ⟨rfl, .inr rfl⟩, trivial⟩⟩

/-- The named node is forgotten when the command is tried again, by the sync client and
by the asyncio client. -/
theorem not_routed_twice :
    ¬ Each step (Routed false {} (some (.node 1))) ⟨some (.node 1)⟩
      [(.grouped, twoNodes), (.alone, twoNodes)] ∧
    ¬ Each step (Routed true {} (some (.node 1))) ⟨some (.node 1)⟩
      [(.grouped, twoNodes), (.alone, twoNodes)] := by
  constructor
  · intro ⟨_, halone, _⟩
    have h0 : 0 ∈ couldChoose false {} (some (.node 1)) twoNodes := halone _ (by decide)
    exact absurd h0 (by decide)
  · intro ⟨_, halone, _⟩
    have h0 : 0 ∈ couldChoose true {} (some (.node 1)) twoNodes := halone _ (by decide)
    exact absurd h0 (by decide)

end PipelineRouting

end RedisPy
