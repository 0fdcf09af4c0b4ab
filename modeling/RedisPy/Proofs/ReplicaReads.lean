import Mathlib.Data.List.Rotate
import RedisPy.Library.Course
import RedisPy.Proofs.SlotLookup

/-! Slot lookups without a pending redirection: what `get_node_from_slot` returns for a
slot, and how the load balancer goes round the nodes of a primary. -/

namespace RedisPy

open NodesManager Raising Course

/-- A lookup; or what others do to the tables between two lookups. -/
inductive SlotCall where
  /-- `draw` is what `random.randint` draws from. -/
  | get_node_from_slot (slot : Int) (read_from_replicas : Bool) (server_type : Option ServerType)
      (draw : Nat)
  | changes (slots_cache : Dict Int Ref) (lists : Heap (List ClusterNode))
  /-- `read_load_balancer.reset()`, which `initialize` calls. -/
  | reset

def randint (draw a b : Nat) : Nat := a + draw % (b + 1 - a)

namespace NodesManager

/-- The index of the next replica read for a primary. -/
def counter (nm : NodesManager) (primary : String) : Nat :=
  ((nm.read_load_balancer.primary_to_idx.get? primary).map Prod.snd).getD nm.read_load_balancer.start_index

/-- The load balancer has gone one step further round `n` nodes. -/
def turned (nm : NodesManager) (primary : String) (n : Nat) : NodesManager :=
  { nm with read_load_balancer := (nm.read_load_balancer.getServerIndex primary n).2 }

variable {nm : NodesManager} {primary : String} {n : Nat}

theorem getServerIndex_fst (nm : NodesManager) (primary : String) (n : Nat) :
    (nm.read_load_balancer.getServerIndex primary n).1 = nm.counter primary := rfl

theorem counter_turned_self (nm : NodesManager) (primary : String) (n : Nat) :
    (nm.turned primary n).counter primary = (nm.counter primary + 1) % n := by
  have hget := Keyed.get?_put_self nm.read_load_balancer.primary_to_idx
    (primary, (nm.counter primary + 1) % n)
  simp only [counter, turned, LoadBalancer.getServerIndex] at hget ⊢
  rw [hget]
  rfl

theorem counter_turned_ne {other : String} (h : other ≠ primary) :
    (nm.turned primary n).counter other = nm.counter other := by
  have hget := Keyed.get?_put_ne nm.read_load_balancer.primary_to_idx
    (a := (primary, (nm.counter primary + 1) % n)) h
  simp only [counter, turned, LoadBalancer.getServerIndex] at hget ⊢
  rw [hget]

end NodesManager

namespace Variant

variable {c : Variant} {nm : NodesManager} {slot : Int} {read_from_replicas : Bool}
  {server_type : Option ServerType} {draw : Nat} {p : ClusterNode} {rs : List ClusterNode}

def lookup (c : Variant) (nm : NodesManager) (slot : Int) (read_from_replicas : Bool)
    (server_type : Option ServerType) (draw : Nat) : EStateM.Result Exc NodesManager ClusterNode :=
  (c.getNodeFromSlot slot read_from_replicas server_type (randint draw)).run nm

def step (c : Variant) (nm : NodesManager) : SlotCall → NodesManager
  | .get_node_from_slot slot read_from_replicas server_type draw =>
    state (c.lookup nm slot read_from_replicas server_type draw)
  | .changes slots_cache lists => { nm with slots_cache := slots_cache, lists := lists }
  | .reset => { nm with read_load_balancer := nm.read_load_balancer.reset }

/-- What the end of the nodes raises in a replica read. -/
def pastTheEnd (nm : NodesManager) (slot : Int) : Variant → Exc
  | sync => { cls := .IndexError, msg := "list index out of range" }
  | asyncio => slotNotCovered slot nm.require_full_coverage

theorem lookup_replica (hm : nm.moved_exception = none) (hs : nm.slotNodes slot = some (p :: rs)) :
    c.lookup nm slot true server_type draw =
      match (p :: rs)[nm.counter p.name]? with
      | some n => .ok n (nm.turned p.name (rs.length + 1))
      | none => .error (c.pastTheEnd nm slot) (nm.turned p.name (rs.length + 1)) := by
  cases c with
  | sync =>
    simp only [lookup, getNodeFromSlot, Sync.NodesManager.getNodeFromSlot, applyMoved, EStateM.run_bind,
      EStateM.run_get, hm, Option.isSome_none, Bool.false_eq_true, if_false, EStateM.run_pure,
      Sync.NodesManager.pickNode, hs, Option.getD_some, List.length_cons, Nat.succ_ne_zero, if_true, item,
      List.getElem?_cons_zero, EStateM.run_set, getServerIndex_fst, turned]
    cases (p :: rs)[nm.counter p.name]? <;> rfl
  | asyncio =>
    obtain ⟨entry, hentry, hread⟩ := Option.map_eq_some_iff.mp hs
    simp only [lookup, getNodeFromSlot, Asyncio.NodesManager.getNodeFromSlot, applyMoved, EStateM.run_bind,
      EStateM.run_get, hm, Option.isSome_none, Bool.false_eq_true, if_false, EStateM.run_pure,
      Asyncio.NodesManager.pickNode, run_slotRef nm slot hentry, hread, if_true, EStateM.run_set,
      getServerIndex_fst, turned]
    cases (p :: rs)[nm.counter p.name]? <;> rfl

/-- Any other lookup of a covered slot reads one of its nodes. -/
theorem lookup_covered (hm : nm.moved_exception = none) (hs : nm.slotNodes slot = some (p :: rs)) :
    ∃ n ∈ p :: rs, c.lookup nm slot false server_type draw = .ok n nm := by
  cases c with
  | sync =>
    simp only [lookup, getNodeFromSlot, Sync.NodesManager.getNodeFromSlot, applyMoved, EStateM.run_bind,
      EStateM.run_get, hm, Option.isSome_none, Bool.false_eq_true, if_false, EStateM.run_pure,
      Sync.NodesManager.pickNode, hs, Option.getD_some, List.length_cons, Nat.succ_ne_zero]
    split_ifs with hprimary
    · exact ⟨p, List.mem_cons_self, rfl⟩
    · have hlen : ¬ rs.length + 1 = 1 := fun h => hprimary (.inr (.inr h))
      have hlt : randint draw 1 (rs.length + 1 - 1) < (p :: rs).length := by
        have hmod := Nat.mod_lt draw (show 0 < rs.length by omega)
        simp only [randint, List.length_cons]
        simp only [Nat.add_sub_cancel] at hmod ⊢
        omega
      exact ⟨_, List.getElem_mem hlt, by simp only [item, List.getElem?_eq_getElem hlt]; rfl⟩
  | asyncio =>
    obtain ⟨entry, hentry, hread⟩ := Option.map_eq_some_iff.mp hs
    refine ⟨p, List.mem_cons_self, ?_⟩
    simp only [lookup, getNodeFromSlot, Asyncio.NodesManager.getNodeFromSlot, applyMoved, EStateM.run_bind,
      EStateM.run_get, hm, Option.isSome_none, Bool.false_eq_true, if_false, EStateM.run_pure,
      Asyncio.NodesManager.pickNode, run_slotRef nm slot hentry, hread]

/-- A slot whose list is missing or empty raises; the asyncio client has no word for a
missing one. -/
theorem lookup_uncovered (hm : nm.moved_exception = none) (hs : ∀ p rs, nm.slotNodes slot ≠ some (p :: rs)) :
    ∃ e, c.lookup nm slot read_from_replicas server_type draw = .error e nm ∧
      (e.cls = .SlotNotCoveredError ↔ (c = asyncio → (nm.slots_cache.get? slot).isSome = true)) := by
  cases c with
  | sync =>
    have hnil : (nm.slotNodes slot).getD [] = [] := by
      cases h : nm.slotNodes slot with
      | none => rfl
      | some nodes =>
        cases nodes with
        | nil => rfl
        | cons p rs => exact absurd h (hs p rs)
    refine ⟨slotNotCovered slot nm.require_full_coverage, ?_, by simp [slotNotCovered]⟩
    simp [lookup, getNodeFromSlot, Sync.NodesManager.getNodeFromSlot, applyMoved, hm,
      Sync.NodesManager.pickNode, hnil]
  | asyncio =>
    cases hentry : nm.slots_cache.get? slot with
    | none =>
      refine ⟨{ cls := .KeyError, msg := toString slot }, ?_, by simp⟩
      simp [lookup, getNodeFromSlot, Asyncio.NodesManager.getNodeFromSlot, applyMoved, hm,
        Asyncio.NodesManager.pickNode, slotRef, hentry]
    | some entry =>
      have hnil : nm.lists.read entry.2 = [] := by
        cases hread : nm.lists.read entry.2 with
        | nil => rfl
        | cons p rs => exact absurd (by simp [slotNodes, hentry, hread]) (hs p rs)
      refine ⟨slotNotCovered slot nm.require_full_coverage, ?_, by simp [slotNotCovered]⟩
      simp [lookup, getNodeFromSlot, Asyncio.NodesManager.getNodeFromSlot, applyMoved, hm,
        Asyncio.NodesManager.pickNode, run_slotRef nm slot hentry, hnil]

/-! ### Courses of lookups -/

/-- A lookup returns a node of the slot's own list, or raises that the slot is not covered. -/
def Answers (c : Variant) (nm : NodesManager) : SlotCall → Prop
  | .get_node_from_slot slot read_from_replicas server_type draw =>
    match nm.slotNodes slot with
    | some (p :: rs) =>
      ∃ n ∈ p :: rs, ∃ nm', c.lookup nm slot read_from_replicas server_type draw = .ok n nm'
    | _ =>
      ∃ e nm', c.lookup nm slot read_from_replicas server_type draw = .error e nm' ∧
        e.cls = .SlotNotCoveredError
  | _ => True

/-- The slot has a list object, in the asyncio client; and the index of a replica read is
within the slot's list. -/
def InRange (c : Variant) (nm : NodesManager) : SlotCall → Prop
  | .get_node_from_slot slot read_from_replicas _ _ =>
    (c = asyncio → (nm.slots_cache.get? slot).isSome = true) ∧
      (read_from_replicas = true → ∀ p rs, nm.slotNodes slot = some (p :: rs) →
        nm.counter p.name < (p :: rs).length)
  | _ => True

theorem answers_iff (hm : nm.moved_exception = none) (call : SlotCall) :
    c.Answers nm call ↔ c.InRange nm call := by
  cases call with
  | get_node_from_slot slot read_from_replicas server_type draw =>
    by_cases hs : ∃ p rs, nm.slotNodes slot = some (p :: rs)
    · obtain ⟨p, rs, hs⟩ := hs
      have hsome : (nm.slots_cache.get? slot).isSome = true := by
        obtain ⟨entry, hentry, -⟩ := Option.map_eq_some_iff.mp hs
        simp [hentry]
      simp only [Answers, InRange, hs, hsome, implies_true, true_and]
      cases read_from_replicas with
      | false =>
        obtain ⟨n, hn, hrun⟩ : ∃ n ∈ p :: rs, c.lookup nm slot false server_type draw = .ok n nm :=
          lookup_covered hm hs
        exact ⟨fun _ h => by simp at h, fun _ => ⟨n, hn, nm, hrun⟩⟩
      | true =>
        rw [lookup_replica hm hs]
        constructor
        · rintro ⟨n, -, nm', hrun⟩ - p' rs' heq
          obtain ⟨rfl, rfl⟩ := List.cons.inj (Option.some.inj heq)
          by_contra hge
          rw [List.getElem?_eq_none (Nat.le_of_not_lt hge)] at hrun
          cases hrun
        · intro hlt
          have hlt := hlt rfl p rs rfl
          exact ⟨_, List.getElem_mem hlt, _, by rw [List.getElem?_eq_getElem hlt]⟩
    · have hs' : ∀ p rs, nm.slotNodes slot ≠ some (p :: rs) := fun p rs h => hs ⟨p, rs, h⟩
      obtain ⟨e, hrun, hiff⟩ :
          ∃ e, c.lookup nm slot read_from_replicas server_type draw = .error e nm ∧ _ :=
        lookup_uncovered hm hs'
      have hrange : c.InRange nm (.get_node_from_slot slot read_from_replicas server_type draw) ↔
          (c = asyncio → (nm.slots_cache.get? slot).isSome = true) :=
        ⟨And.left, fun h => ⟨h, fun _ p rs heq => absurd heq (hs' p rs)⟩⟩
      rw [hrange, ← hiff]
      simp only [Answers]
      constructor
      · rintro ⟨e', nm', hrun', hcls⟩
        obtain ⟨rfl, -⟩ := EStateM.Result.error.inj (hrun.symm.trans hrun')
        exact hcls
      · exact fun hcls => ⟨e, nm, hrun, hcls⟩
  | _ => exact Iff.rfl

theorem step_moved (hm : nm.moved_exception = none) (call : SlotCall) :
    (c.step nm call).moved_exception = none := by
  cases call with
  | get_node_from_slot slot read_from_replicas server_type draw =>
    by_cases hs : ∃ p rs, nm.slotNodes slot = some (p :: rs)
    · obtain ⟨p, rs, hs⟩ := hs
      cases read_from_replicas with
      | false =>
        obtain ⟨n, hn, hrun⟩ : ∃ n ∈ p :: rs, c.lookup nm slot false server_type draw = .ok n nm :=
          lookup_covered hm hs
        simp only [step, hrun, state, hm]
      | true =>
        simp only [step, lookup_replica hm hs]
        cases (p :: rs)[nm.counter p.name]? <;> exact hm
    · obtain ⟨e, hrun, -⟩ :
          ∃ e, c.lookup nm slot read_from_replicas server_type draw = .error e nm ∧ _ :=
        lookup_uncovered hm fun p rs h => hs ⟨p, rs, h⟩
      simp only [step, hrun, state, hm]
  | changes slots_cache lists => exact hm
  | reset => exact hm

/-- The call is a replica read of a slot of the primary `name`. -/
def ReadsReplica (nm : NodesManager) (name : String) : SlotCall → Bool
  | .get_node_from_slot slot true _ _ => (nm.slotNodes slot).any fun nodes => nodes.head?.any (·.name == name)
  | _ => false

/-- What a lookup comes to -/
def outcome (c : Variant) (nm : NodesManager) : SlotCall → Except Exc ClusterNode
  | .get_node_from_slot slot read_from_replicas server_type draw =>
    match c.lookup nm slot read_from_replicas server_type draw with
    | .ok n _ => .ok n
    | .error e _ => .error e
  | _ => .error { cls := .AttributeError }

/-- What the replica reads of a primary come to in a course of calls. -/
def replicaReads (c : Variant) (name : String) : NodesManager → List SlotCall → List (Except Exc ClusterNode)
  | _, [] => []
  | nm, call :: calls =>
    (if ReadsReplica nm name call then [c.outcome nm call] else []) ++
      replicaReads c name (c.step nm call) calls

/-- The slots of the primary that are read have `nodes`, and the balancer is not reset. -/
def Serves (nodes : List ClusterNode) (name : String) (nm : NodesManager) : SlotCall → Prop
  | .get_node_from_slot slot true server_type draw =>
    ReadsReplica nm name (.get_node_from_slot slot true server_type draw) = true →
      nm.slotNodes slot = some nodes
  | .reset => False
  | _ => True

/-- The slots of the primary that are read have the same nodes, in some order. -/
def SameNodes (nodes : List ClusterNode) (name : String) (nm : NodesManager) : SlotCall → Prop
  | .get_node_from_slot slot true server_type draw =>
    ReadsReplica nm name (.get_node_from_slot slot true server_type draw) = true →
      ∃ nodes', nm.slotNodes slot = some nodes' ∧ nodes'.Perm nodes
  | .reset => False
  | _ => True

/-- As many replica reads as the primary has nodes return each of them once, wherever in
the course they stand. -/
def Fair (c : Variant) (nm : NodesManager) (calls : List SlotCall) : Prop :=
  ∀ before window after name nodes, calls = before ++ window ++ after →
    Each c.step (SameNodes nodes name) (before.foldl c.step nm) window →
    (replicaReads c name (before.foldl c.step nm) window).length = nodes.length →
    (replicaReads c name (before.foldl c.step nm) window).Perm (nodes.map .ok)

/-- So many reads in a row find the nodes in one order. -/
def Steady (c : Variant) (nm : NodesManager) (calls : List SlotCall) : Prop :=
  ∀ before window after name nodes, calls = before ++ window ++ after →
    Each c.step (SameNodes nodes name) (before.foldl c.step nm) window →
    (replicaReads c name (before.foldl c.step nm) window).length = nodes.length →
    ∃ nodes', Each c.step (Serves nodes' name) (before.foldl c.step nm) window

/-- The order that is found is one of the nodes. -/
theorem perm_of_serves {name : String} {nodes nodes' : List ClusterNode} {calls : List SlotCall}
    (hsame : Each c.step (SameNodes nodes name) nm calls)
    (hserves : Each c.step (Serves nodes' name) nm calls) (hreads : replicaReads c name nm calls ≠ []) :
    nodes'.Perm nodes := by
  induction calls generalizing nm with
  | nil => exact absurd rfl hreads
  | cons call calls ih =>
    cases hread : ReadsReplica nm name call with
    | false =>
      refine ih hsame.2 hserves.2 ?_
      simpa [replicaReads, hread] using hreads
    | true =>
      cases call with
      | get_node_from_slot slot read_from_replicas server_type draw =>
        cases read_from_replicas with
        | false => simp [ReadsReplica] at hread
        | true =>
          obtain ⟨nodes'', hnodes, hperm⟩ := hsame.1 hread
          rw [hserves.1 hread, Option.some_inj] at hnodes
          exact hnodes ▸ hperm
      | changes slots_cache lists => simp [ReadsReplica] at hread
      | reset => simp [ReadsReplica] at hread

/-- The balancer's place after a call that is no replica read of the primary. -/
theorem counter_step (hm : nm.moved_exception = none) {name : String} {nodes : List ClusterNode}
    {call : SlotCall} (hserves : Serves nodes name nm call) (hread : ReadsReplica nm name call = false) :
    (c.step nm call).counter name = nm.counter name := by
  cases call with
  | get_node_from_slot slot read_from_replicas server_type draw =>
    by_cases hs : ∃ p rs, nm.slotNodes slot = some (p :: rs)
    · obtain ⟨p, rs, hs⟩ := hs
      cases read_from_replicas with
      | false =>
        obtain ⟨n, hn, hrun⟩ : ∃ n ∈ p :: rs, c.lookup nm slot false server_type draw = .ok n nm :=
          lookup_covered hm hs
        simp only [step, hrun, state]
      | true =>
        have hne : name ≠ p.name := by
          rintro rfl
          simp [ReadsReplica, hs] at hread
        simp only [step, lookup_replica hm hs]
        cases (p :: rs)[nm.counter p.name]? <;> exact counter_turned_ne hne
    · obtain ⟨e, hrun, -⟩ :
          ∃ e, c.lookup nm slot read_from_replicas server_type draw = .error e nm ∧ _ :=
        lookup_uncovered hm fun p rs h => hs ⟨p, rs, h⟩
      simp only [step, hrun, state]
  | changes slots_cache lists => rfl
  | reset => exact hserves.elim

/-- A replica read within range returns the node whose turn it is. -/
theorem outcome_replica (hm : nm.moved_exception = none) {name : String} {nodes : List ClusterNode}
    {call : SlotCall} (hserves : Serves nodes name nm call) (hread : ReadsReplica nm name call = true)
    (hrange : c.InRange nm call) :
    ∃ hlt : nm.counter name < nodes.length, c.outcome nm call = .ok nodes[nm.counter name] ∧
      (c.step nm call).counter name = (nm.counter name + 1) % nodes.length := by
  cases call with
  | get_node_from_slot slot read_from_replicas server_type draw =>
    cases read_from_replicas with
    | false => simp [ReadsReplica] at hread
    | true =>
      have hs := hserves hread
      cases nodes with
      | nil => simp [ReadsReplica, hs] at hread
      | cons p rs =>
        obtain rfl : p.name = name := by simpa [ReadsReplica, hs] using hread
        have hlt := hrange.2 rfl p rs hs
        have hget := List.getElem?_eq_getElem hlt
        refine ⟨hlt, ?_, ?_⟩
        · simp only [outcome, lookup_replica hm hs, hget]
        · simp only [step, lookup_replica hm hs, hget, state]
          exact counter_turned_self nm p.name _
  | changes slots_cache lists => simp [ReadsReplica] at hread
  | reset => simp [ReadsReplica] at hread

/-- The replica reads of a primary go round its nodes. -/
theorem replicaReads_eq (hm : nm.moved_exception = none) {name : String} {nodes : List ClusterNode}
    {calls : List SlotCall} (hserves : Each c.step (Serves nodes name) nm calls)
    (hrange : Each c.step c.InRange nm calls) (k : Nat)
    (hk : (replicaReads c name nm calls)[k]? ≠ none) :
    (replicaReads c name nm calls)[k]? = (nodes.rotate (nm.counter name))[k % nodes.length]?.map .ok := by
  induction calls generalizing nm k with
  | nil => simp [replicaReads] at hk
  | cons call calls ih =>
    cases hread : ReadsReplica nm name call with
    | false =>
      simp only [replicaReads, hread, Bool.false_eq_true, if_false, List.nil_append] at hk ⊢
      rw [ih (step_moved hm call) hserves.2 hrange.2 k hk, counter_step hm hserves.1 hread]
    | true =>
      obtain ⟨hlt, hout, hcounter⟩ := outcome_replica hm hserves.1 hread hrange.1
      have hpos : 0 < nodes.length := Nat.zero_lt_of_lt hlt
      simp only [replicaReads, hread, if_true, List.singleton_append] at hk ⊢
      cases k with
      | zero =>
        rw [List.getElem?_cons_zero, hout, Nat.zero_mod, List.getElem?_rotate hpos, Nat.zero_add,
          Nat.mod_eq_of_lt hlt, List.getElem?_eq_getElem hlt]
        rfl
      | succ k =>
        rw [List.getElem?_cons_succ] at hk ⊢
        rw [ih (step_moved hm call) hserves.2 hrange.2 k hk, hcounter,
          List.getElem?_rotate (Nat.mod_lt _ hpos), List.getElem?_rotate (Nat.mod_lt _ hpos)]
        congr 2
        simp only [Nat.mod_add_mod, Nat.add_mod_mod]
        congr 1
        omega

/-- Within range, as many reads of one order as it has nodes go through it once. -/
theorem replicaReads_perm (hm : nm.moved_exception = none) {name : String} {nodes : List ClusterNode}
    {calls : List SlotCall} (hserves : Each c.step (Serves nodes name) nm calls)
    (hrange : Each c.step c.InRange nm calls)
    (hlen : (replicaReads c name nm calls).length = nodes.length) :
    (replicaReads c name nm calls).Perm (nodes.map .ok) := by
  have hreads : replicaReads c name nm calls = (nodes.rotate (nm.counter name)).map .ok := by
    apply List.ext_getElem?
    intro k
    by_cases hk : k < nodes.length
    · have hne : (replicaReads c name nm calls)[k]? ≠ none := by
        simp [hlen, hk]
      rw [replicaReads_eq hm hserves hrange k hne, Nat.mod_eq_of_lt hk, List.getElem?_map]
    · rw [List.getElem?_eq_none (by omega), List.getElem?_eq_none (by simp; omega)]
  rw [hreads]
  exact (List.rotate_perm nodes _).map _

/-- A course of lookups, begun with no redirection pending, is answered just if every lookup is in
range; and then it is fair if reads in a row find the nodes of their primary in one order. -/
theorem answers_fair_iff (c : Variant) (nm : NodesManager) (calls : List SlotCall)
    (hm : nm.moved_exception = none) :
    (Each c.step c.Answers nm calls ↔ Each c.step c.InRange nm calls) ∧
      (Each c.step c.InRange nm calls → Steady c nm calls →
        Each c.step c.Answers nm calls ∧ Fair c nm calls) := by
  have hiff : Each c.step c.Answers nm calls ↔ Each c.step c.InRange nm calls :=
    each_good_iff (I := fun nm => nm.moved_exception = none)
      (fun nm call hm _ hok => ⟨(answers_iff hm call).mpr hok, step_moved hm call⟩)
      (fun nm call hm _ hgood => (answers_iff hm call).mp hgood) hm (Each.trivial nm calls)
  refine ⟨hiff, fun hrange hsteady => ⟨hiff.mpr hrange, ?_⟩⟩
  rintro before window after name nodes hcalls hsame hlen
  obtain ⟨nodes', hserves⟩ := hsteady before window after name nodes hcalls hsame hlen
  rw [hcalls] at hrange
  have hwindow := (each_append.mp (each_append.mp hrange).1).2
  have hmoved : (before.foldl c.step nm).moved_exception = none :=
    foldl_keeps (I := fun nm : NodesManager => nm.moved_exception = none)
      (fun nm call hm => step_moved hm call) hm
  cases hreads : replicaReads c name (before.foldl c.step nm) window with
  | nil =>
    rw [hreads] at hlen
    rw [List.length_eq_zero_iff.mp hlen.symm]
    exact .nil
  | cons r rs =>
    have hperm : nodes'.Perm nodes := perm_of_serves hsame hserves (by simp [hreads])
    rw [← hperm.length_eq] at hlen
    rw [← hreads]
    exact (replicaReads_perm hmoved hserves hwindow hlen).trans (hperm.map _)

theorem step_slotNodes (hm : nm.moved_exception = none) :
    (c.step nm (.get_node_from_slot slot read_from_replicas server_type draw)).slotNodes = nm.slotNodes := by
  by_cases hs : ∃ p rs, nm.slotNodes slot = some (p :: rs)
  · obtain ⟨p, rs, hs⟩ := hs
    cases read_from_replicas with
    | false =>
      obtain ⟨n, hn, hrun⟩ : ∃ n ∈ p :: rs, c.lookup nm slot false server_type draw = .ok n nm :=
        lookup_covered hm hs
      simp only [step, hrun, state]
    | true =>
      simp only [step, lookup_replica hm hs]
      cases (p :: rs)[nm.counter p.name]? <;> rfl
  · obtain ⟨e, hrun, -⟩ :
        ∃ e, c.lookup nm slot read_from_replicas server_type draw = .error e nm ∧ _ :=
      lookup_uncovered hm fun p rs h => hs ⟨p, rs, h⟩
    simp only [step, hrun, state]

/-- All calls are lookups of some slots. -/
def Lookups (slots : List Int) (calls : List SlotCall) : Prop :=
  ∀ call ∈ calls, ∃ slot ∈ slots, ∃ read_from_replicas server_type draw,
    call = .get_node_from_slot slot read_from_replicas server_type draw

theorem foldl_slotNodes {slots : List Int} {calls : List SlotCall} (hcalls : Lookups slots calls)
    (hm : nm.moved_exception = none) :
    (calls.foldl c.step nm).moved_exception = none ∧ (calls.foldl c.step nm).slotNodes = nm.slotNodes := by
  induction calls generalizing nm with
  | nil => exact ⟨hm, rfl⟩
  | cons call calls ih =>
    obtain ⟨slot, -, r, t, d, rfl⟩ := hcalls call List.mem_cons_self
    have h := ih (fun call h => hcalls call (.tail _ h))
      (step_moved (c := c) hm (.get_node_from_slot slot r t d))
    exact ⟨h.1, h.2.trans (step_slotNodes hm)⟩

/-- If the nodes of a primary have one order in the tables, lookups find them in it. -/
theorem serves_of_sameNodes {slots : List Int} {calls : List SlotCall} {name : String}
    {nodes nodes' : List ClusterNode} (hcalls : Lookups slots calls) (hm : nm.moved_exception = none)
    (horder : ∀ slot ∈ slots, ∀ found, nm.slotNodes slot = some found → found.Perm nodes → found = nodes')
    (hsame : Each c.step (SameNodes nodes name) nm calls) : Each c.step (Serves nodes' name) nm calls := by
  induction calls generalizing nm with
  | nil => trivial
  | cons call calls ih =>
    obtain ⟨slot, hslot, r, t, d, rfl⟩ := hcalls call List.mem_cons_self
    have hslots : (c.step nm (.get_node_from_slot slot r t d)).slotNodes = nm.slotNodes := step_slotNodes hm
    refine ⟨?_, ih (fun call h => hcalls call (.tail _ h)) (step_moved hm _) ?_ hsame.2⟩
    · cases r with
      | false => trivial
      | true =>
        intro hread
        obtain ⟨found, hfound, hperm⟩ := hsame.1 hread
        rw [hfound, horder slot hslot found hfound hperm]
    · rw [hslots]
      exact horder

/-- Lookups in tables that stay are steady where the lists with the same nodes have one order. -/
theorem steady_of_ordered {calls : List SlotCall} {slots : List Int} (hm : nm.moved_exception = none)
    (hcalls : Lookups slots calls)
    (horder : ∀ slot ∈ slots, ∀ slot' ∈ slots, ∀ nodes nodes', nm.slotNodes slot = some nodes →
      nm.slotNodes slot' = some nodes' → nodes.Perm nodes' → nodes = nodes') :
    Steady c nm calls := by
  rintro before window after name nodes rfl hsame -
  have hbefore : Lookups slots before := fun call h => hcalls call (by simp [h])
  obtain ⟨hmoved, hkept⟩ := foldl_slotNodes (c := c) hbefore hm
  have hwindow : Lookups slots window := fun call h => hcalls call (by simp [h])
  by_cases hfound : ∃ slot ∈ slots, ∃ nodes', nm.slotNodes slot = some nodes' ∧ nodes'.Perm nodes
  · obtain ⟨slot, hslot, nodes', hnodes, hperm⟩ := hfound
    refine ⟨nodes', serves_of_sameNodes hwindow hmoved ?_ hsame⟩
    intro slot' hslot' found hfound hperm'
    rw [hkept] at hfound
    exact horder slot' hslot' slot hslot found nodes' hfound hnodes (hperm'.trans hperm.symm)
  · refine ⟨[], serves_of_sameNodes hwindow hmoved ?_ hsame⟩
    intro slot hslot found hnodes hperm
    rw [hkept] at hnodes
    exact absurd ⟨slot, hslot, found, hnodes, hperm⟩ hfound

/-- One primary serves slot 0 with two replicas, and slot 1 with one. -/
def twoRanges : NodesManager where
  lists := ⟨fun r => if r = 0 then [⟨0, "10.0.0.1", 7000⟩, ⟨1, "10.0.0.2", 7000⟩, ⟨2, "10.0.0.3", 7000⟩]
    else [⟨0, "10.0.0.1", 7000⟩, ⟨1, "10.0.0.2", 7000⟩], 2⟩
  slots_cache := ((∅ : Dict Int Ref).put (0, 0)).put (1, 1)

def replicaRead (slot : Int) : SlotCall := .get_node_from_slot slot true none 0

/-- One primary serves slot 0 and slot 1 with the same two replicas, in another order. -/
def turnedRanges : NodesManager where
  lists := ⟨fun r => if r = 0 then [⟨0, "10.0.0.1", 7000⟩, ⟨1, "10.0.0.2", 7000⟩, ⟨2, "10.0.0.3", 7000⟩]
    else [⟨0, "10.0.0.1", 7000⟩, ⟨2, "10.0.0.3", 7000⟩, ⟨1, "10.0.0.2", 7000⟩], 2⟩
  slots_cache := ((∅ : Dict Int Ref).put (0, 0)).put (1, 1)

/-- The balancer's place in the longer list is past the end of the shorter one; and where the lists
are of one length, the last replica is read twice. -/
theorem twoRanges_not_answered :
    (¬ Each sync.step sync.Answers twoRanges [replicaRead 0, replicaRead 0, replicaRead 1]) ∧
      (¬ Each asyncio.step asyncio.Answers twoRanges [replicaRead 0, replicaRead 0, replicaRead 1]) ∧
      ¬ Fair sync turnedRanges [replicaRead 0, replicaRead 1, replicaRead 0] := by
  refine ⟨?_, ?_, ?_⟩
  · rintro ⟨-, -, h, -⟩
    exact absurd (((answers_iff rfl _).mp h).2 rfl _ _ rfl) (by decide)
  · rintro ⟨-, -, h, -⟩
    exact absurd (((answers_iff rfl _).mp h).2 rfl _ _ rfl) (by decide)
  · intro h
    have hfair := h [] [replicaRead 0, replicaRead 1, replicaRead 0] [] "10.0.0.1:7000"
      [⟨0, "10.0.0.1", 7000⟩, ⟨1, "10.0.0.2", 7000⟩, ⟨2, "10.0.0.3", 7000⟩] rfl
      ⟨fun _ => ⟨_, rfl, by decide⟩, fun _ => ⟨_, rfl, by decide⟩, fun _ => ⟨_, rfl, by decide⟩, trivial⟩
      (by decide)
    exact absurd (hfair.symm.nodup (by decide)) (by decide)

/-- Three reads of slot 0 go round its three nodes. -/
theorem answers_fair_twoRanges :
    Each sync.step sync.Answers twoRanges [replicaRead 0, replicaRead 0, replicaRead 0] ∧
      Fair sync twoRanges [replicaRead 0, replicaRead 0, replicaRead 0] := by
  refine (answers_fair_iff sync twoRanges _ rfl).2 ⟨⟨nofun, ?_⟩, ⟨nofun, ?_⟩, ⟨nofun, ?_⟩, trivial⟩ ?_
  case refine_4 =>
    have hcalls : Lookups [0] (List.replicate 3 (replicaRead 0)) := fun call hcall =>
      ⟨0, List.mem_singleton.mpr rfl, true, none, 0, List.eq_of_mem_replicate hcall⟩
    refine steady_of_ordered rfl hcalls ?_
    · intro slot hslot slot' hslot' nodes nodes' hnodes hnodes' _
      rw [List.mem_singleton.mp hslot] at hnodes
      rw [List.mem_singleton.mp hslot', hnodes] at hnodes'
      exact Option.some_inj.mp hnodes'
  all_goals
    intro _ p rs h
    obtain ⟨rfl, rfl⟩ := List.cons.inj (Option.some.inj h)
    decide

end Variant

end RedisPy
