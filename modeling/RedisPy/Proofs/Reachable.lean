import RedisPy.Proofs.MovedSlots

/-! The states a `NodesManager` gets into, and that they are all in order. -/

namespace RedisPy

open NodesManager Raising

/-! ### Lookups -/

section
variable {I : NodesManager → Prop}

theorem item_keeps (nodes : List ClusterNode) (i : Nat) : Keeps I (item nodes i) := by
  unfold item
  split
  · exact Keeps.pure _
  · exact Keeps.throw _

theorem slotRef_keeps (slot : Int) : Keeps I (slotRef slot) := by
  apply Keeps.bind Keeps.get
  intro nm
  split
  · exact Keeps.pure _
  · exact Keeps.throw _

/-- What does not speak of the load balancer outlasts the choice of a node. -/
theorem sync_pickNode_keeps (slot : Int) (read_from_replicas : Bool)
    (server_type : Option ServerType) (randint : Nat → Nat → Nat)
    (hlb : ∀ nm lb, I nm → I { nm with read_load_balancer := lb }) :
    Keeps I (Sync.NodesManager.pickNode slot read_from_replicas server_type randint) := by
  intro nm h
  unfold Sync.NodesManager.pickNode
  apply Post.get_bind
  apply Post.ite
  · exact fun _ => h
  intro _
  apply Post.ite
  · intro _
    apply Post.bind (item_keeps _ 0 nm h)
    intro primary nm' _
    exact item_keeps _ _ _ (hlb nm _ h)
  · exact fun _ => Keeps.ite (item_keeps _ _) (item_keeps _ _) nm h

theorem asyncio_pickNode_keeps (slot : Int) (read_from_replicas : Bool)
    (hlb : ∀ nm lb, I nm → I { nm with read_load_balancer := lb }) :
    Keeps I (Asyncio.NodesManager.pickNode slot read_from_replicas) := by
  intro nm h
  unfold Asyncio.NodesManager.pickNode
  apply Post.get_bind
  apply Post.bind (slotRef_keeps slot nm h)
  intro r nm' h'
  split
  · exact h'
  · apply Post.ite
    · intro _
      apply Post.bind (Q := fun _ nm₂ => I nm₂) (Post.set (hlb nm _ h))
      intro _ nm₂ h₂
      split
      · exact h₂
      · exact h₂
    · exact fun _ => h'

theorem getNodeFromSlot_keeps (c : Variant) (slot : Int) (read_from_replicas : Bool)
    (server_type : Option ServerType) (randint : Nat → Nat → Nat)
    (hmoved : Keeps I (applyMoved c.updateMovedSlots))
    (hlb : ∀ nm lb, I nm → I { nm with read_load_balancer := lb }) :
    Keeps I (c.getNodeFromSlot slot read_from_replicas server_type randint) := by
  cases c with
  | sync =>
    exact Keeps.bind hmoved fun _ =>
      sync_pickNode_keeps slot read_from_replicas server_type randint hlb
  | asyncio => exact Keeps.bind hmoved fun _ => asyncio_pickNode_keeps slot read_from_replicas hlb

end

/-! ### The states -/

/-- The states of a manager whose methods are called in any order, with any
answers of the cluster, and go on being used after they have raised. -/
inductive Reachable (c : Variant) : NodesManager → Prop
  | init (settings : Settings) (startup_nodes : List (String × Int)) :
      Reachable c (NodesManager.init settings startup_nodes)
  | initializeNodes {nm : NodesManager} (h : Reachable c nm) (cluster_slots : ClusterSlots) :
      Reachable c (state ((c.initializeNodes cluster_slots).run nm))
  | updateMovedException {nm : NodesManager} (h : Reachable c nm) (e : Redirect) :
      Reachable c { nm with moved_exception := some e }
  | getNodeFromSlot {nm : NodesManager} (h : Reachable c nm) (slot : Int)
      (read_from_replicas : Bool) (server_type : Option ServerType) (randint : Nat → Nat → Nat) :
      Reachable c (state ((c.getNodeFromSlot slot read_from_replicas server_type randint).run nm))
  | popStartupNode {nm : NodesManager} (h : Reachable c nm) (name : String) :
      Reachable c (state ((popStartupNode name).run nm))

theorem init_wf (settings : Settings) (startup_nodes : List (String × Int)) :
    (NodesManager.init settings startup_nodes).Wf where
  slots entry he := absurd he (by simp [init, EmptyCollection.emptyCollection])
  nodes entry he := absurd he (by simp [init, EmptyCollection.emptyCollection])
  dicts r := by
    by_cases hr : r = 1
    · simp only [init, Heap.read, if_pos hr]
      apply @made_foldl_put (NodesManager.init settings startup_nodes) _ _ (made_nil _)
      intro n hn
      obtain ⟨i, hi, rfl⟩ := List.mem_mapIdx.mp hn
      exact ⟨by simpa [init] using hi, settings.resolveHost_idem _⟩
    · simp only [init, Heap.read, if_neg hr]
      exact made_nil _

theorem updateMovedSlots_wf (c : Variant) (nm : NodesManager) (hwf : nm.Wf) :
    (state (c.updateMovedSlots.run nm)).Wf := by
  cases he : nm.moved_exception with
  | some e => exact (updateMovedSlots_cases c nm e he).wf hwf
  | none =>
    have hrun : state (c.updateMovedSlots.run nm) = nm := by
      rw [updateMovedSlots_eq]
      simp [NodesManager.updateMovedSlots, he, state]
    rwa [hrun]

theorem updateMovedSlots_post (c : Variant) (nm : NodesManager) (hwf : nm.Wf) :
    Post (c.updateMovedSlots.run nm) (fun _ nm' => nm'.Wf) (fun _ nm' => nm'.Wf) := by
  have h := updateMovedSlots_wf c nm hwf
  cases hr : c.updateMovedSlots.run nm <;> rw [hr] at h <;> exact h

theorem applyMoved_wf (c : Variant) (nm : NodesManager) (hwf : nm.Wf) :
    Post ((applyMoved c.updateMovedSlots).run nm) (fun _ nm' => nm'.Wf) (fun _ nm' => nm'.Wf) := by
  unfold applyMoved
  apply Post.get_bind
  apply Post.ite
  · exact fun _ => updateMovedSlots_post c nm hwf
  · exact fun _ => hwf

theorem getNodeFromSlot_wf (c : Variant) (slot : Int) (read_from_replicas : Bool)
    (server_type : Option ServerType) (randint : Nat → Nat → Nat) (nm : NodesManager)
    (hwf : nm.Wf) :
    Post ((c.getNodeFromSlot slot read_from_replicas server_type randint).run nm)
      (fun _ nm' => nm'.Wf) (fun _ nm' => nm'.Wf) :=
  getNodeFromSlot_keeps c slot read_from_replicas server_type randint (applyMoved_wf c)
    (fun _ _ h => h.same rfl rfl rfl rfl rfl) nm hwf

/-- Every reachable state is in order. -/
theorem reachable_wf {c : Variant} {nm : NodesManager} (h : Reachable c nm) : nm.Wf := by
  induction h with
  | init settings startup_nodes => exact init_wf settings startup_nodes
  | @initializeNodes nm _ cluster_slots ih =>
    exact ((initializeNodes_spec c cluster_slots _ ih (truthful_trivial _ cluster_slots)).mono
      (fun _ _ h => h.wf) fun _ _ h => h.1).state
  | updateMovedException _ e ih => exact ih.same rfl rfl rfl rfl rfl
  | getNodeFromSlot _ slot read_from_replicas server_type randint ih =>
    exact (getNodeFromSlot_wf c slot read_from_replicas server_type randint _ ih).state
  | popStartupNode _ name ih =>
    exact ih.writeDict _ fun n hn => ih.dicts _ n (Keyed.mem_items_erase.mp hn).1

/-! ### A cluster of one shard -/

/-- Two nodes serve the slots 0 and 1. -/
def oneShard : ClusterSlots := fun _ =>
  .ok [{ start := 0, stop := 1, primary := ("10.0.0.1", 7000), replicas := [("10.0.0.2", 7000)] }]

def freshManager : NodesManager := NodesManager.init {} [("10.0.0.1", 7000)]

/-- The manager that has been told of the shard. -/
def shardManager (c : Variant) : NodesManager :=
  state ((c.initializeNodes oneShard).run freshManager)

theorem shardManager_ok (c : Variant) :
    (c.initializeNodes oneShard).run freshManager = .ok () (shardManager c) := by
  apply eq_ok_of_isOk
  cases c <;> decide +kernel

theorem shardManager_reachable (c : Variant) : Reachable c (shardManager c) :=
  (Reachable.init {} _).initializeNodes oneShard

end RedisPy
