import RedisPy.Library.Course
import RedisPy.Spec.TopologyCalls
import RedisPy.Proofs.TopologyFrame

/-! Whether the startup nodes can run dry: each failed connection takes one away,
and only an `initialize` that succeeds puts nodes back. -/

namespace RedisPy

open NodesManager Raising Course

/-! ### What asking for the topology comes to -/

/-- The node tells of no slot: an empty answer, or none. -/
def TellsNothing (cluster_slots : ClusterSlots) (n : ClusterNode) : Prop :=
  askClusterSlots cluster_slots n = .ok [] ∨
    ∃ e, askClusterSlots cluster_slots n = .error e ∧ e.isinstance .Exception = true

/-- No startup node tells of a slot, though one does answer. -/
def NothingTold (cluster_slots : ClusterSlots) (ns : List ClusterNode) : Prop :=
  (∀ n ∈ ns, TellsNothing cluster_slots n) ∧ ∃ n ∈ ns, askClusterSlots cluster_slots n = .ok []

/-- The nodes of the new topology are never thrown away. -/
theorem fillSlots_nodes (h : ClusterNode) (r : Ref) (is : List Int) (tmp : Tmp)
    (nm : NodesManager) :
    Post ((fillSlots h r is tmp).run nm) (fun tmp' _ => tmp'.nodes = tmp.nodes) fun _ _ => True := by
  induction is generalizing tmp nm with
  | nil => exact rfl
  | cons i is ih =>
    unfold fillSlots
    split
    · exact ih { tmp with slots := tmp.slots.put (i, r) } nm
    · apply Post.get_bind
      apply Post.bind (Q := fun _ _ => True)
      · unfold item
        split <;> trivial
      · intro tmp_slot nm' _
        apply Post.ite
        · intro _
          apply Post.ite
          · exact fun _ => trivial
          · exact fun _ => ih { tmp with disagreements := _ } nm'
        · exact fun _ => ih tmp nm'

theorem addRange_nodes (c : Variant) (nm : NodesManager) (n : ClusterNode) (e : SlotRange)
    (tmp : Tmp) (hwf : nm.Wf) (hn : Made nm tmp.nodes.items) :
    Post ((addRange c.getOrCreateClusterNode n e tmp).run nm)
      (fun tmp' _ => tmp'.nodes.items ≠ []) fun _ _ => True := by
  obtain ⟨h, nodes₁, nm₁, hrun₁, h₁⟩ :=
    nodeOf_spec c nm (nm.remapHostPort (primaryAddr n e)) .PRIMARY tmp.nodes hwf hn
  obtain ⟨tl, nodes₂, nm₂, hrun₂, -, -, -, hk₂, -⟩ :=
    addReplicas_spec c nm₁ e.replicas nodes₁ (h₁.ext.wf hwf) h₁.made
  simp only [addRange, EStateM.run_bind, EStateM.run_get, hrun₁, hrun₂, EStateM.run_modify]
  apply (fillSlots_nodes h _ (slotsOf e) _ _).mono
  · rintro tmp' _ htmp hnil
    obtain ⟨m, hm, -⟩ := List.mem_map.mp (hk₂ h.name ((h₁.keys _).mpr (.inl rfl)))
    rw [htmp] at hnil
    exact List.not_mem_nil (hnil ▸ hm)
  · exact fun _ _ _ => trivial

theorem addRanges_nodes (c : Variant) (nm : NodesManager) (n : ClusterNode) (es : List SlotRange)
    (tmp : Tmp) (hwf : nm.Wf) (hb : Building (fun _ _ => True) (fun _ => False) nm tmp) :
    Post ((addRanges c.getOrCreateClusterNode n es tmp).run nm)
      (fun tmp' _ => tmp'.nodes.items = [] → es = [] ∧ tmp.nodes.items = []) fun _ _ => True := by
  induction es generalizing nm tmp with
  | nil => exact fun h => ⟨rfl, h⟩
  | cons e es ih =>
    unfold addRanges
    have ht : Tells (fun _ _ => True) (fun _ => False) nm.toSettings n e :=
      ⟨fun _ _ => trivial, fun _ _ => id⟩
    apply Post.bind (((addRange_spec c nm n e tmp hwf hb ht).and
      (addRange_nodes c nm n e tmp hwf hb.nodes)).mono (fun _ _ h => h) fun _ _ _ => trivial)
    rintro tmp₁ nm₁ ⟨⟨he, hb₁, -⟩, hne⟩
    apply (ih nm₁ tmp₁ (he.wf hwf) hb₁).mono
    · exact fun tmp₂ _ h₂ hnil => absurd (h₂ hnil).2 hne
    · exact fun _ _ _ => trivial

/-- Without nodes no slot is covered. -/
theorem Building.not_covered {P : Int → String → Prop} {master : String → Prop} {nm : NodesManager}
    {tmp : Tmp} (hb : Building P master nm tmp) (h : tmp.nodes.items = []) :
    checkSlotsCoverage tmp.slots = false := by
  rw [Bool.eq_false_iff]
  intro hc
  obtain ⟨entry, hentry, -⟩ := List.mem_map.mp (checkSlotsCoverage_iff.mp hc 0 (by decide))
  obtain ⟨-, p, tl, -, -, -, hkey⟩ := hb.slots entry hentry
  simp [Keyed.keys, h] at hkey

theorem loneHost_nil {c : Variant} {count : Nat} {n : ClusterNode} {reply reply' : List SlotRange}
    (h : c.loneHost count n reply = .ok reply') (hnil : reply' = []) : reply = [] := by
  rcases loneHost_ok h with rfl | ⟨e, -, rfl, -⟩
  · exact hnil
  · cases hnil

/-- The loop comes out without a node only when nothing was told. -/
theorem scanStartupNodes_nodes (c : Variant) (cluster_slots : ClusterSlots) (nm : NodesManager)
    (count : Nat) (ns : List ClusterNode) (tmp : Tmp) (reachable : Bool) (exception : Option Exc)
    (hwf : nm.Wf) (hb : Building (fun _ _ => True) (fun _ => False) nm tmp) :
    Post ((scanStartupNodes c.getOrCreateClusterNode c.loneHost count cluster_slots c.connect ns tmp
        reachable exception).run nm)
      (fun res _ => res.1.nodes.items = [] → tmp.nodes.items = [] ∧
        (∀ n ∈ ns, TellsNothing cluster_slots n) ∧
        (res.2.1 = true → reachable = true ∨ ∃ n ∈ ns, askClusterSlots cluster_slots n = .ok []))
      fun _ _ => True := by
  induction ns generalizing nm tmp reachable exception with
  | nil => exact fun hnil => ⟨hnil, by simp, .inl⟩
  | cons n ns ih =>
    unfold scanStartupNodes
    obtain ⟨nm₁, hrun₁, h₁⟩ := connect_spec c nm n
    have hwf₁ := h₁.ext.wf hwf
    simp only [EStateM.run_bind, hrun₁]
    cases hask : askClusterSlots cluster_slots n with
    | error e =>
      apply Post.ite
      · intro hexc
        apply (ih nm₁ tmp reachable (some e) hwf₁ (hb.connected h₁)).mono
        · intro res _ h hnil
          obtain ⟨htmp, hall, hex⟩ := h hnil
          refine ⟨htmp, List.forall_mem_cons.mpr ⟨.inr ⟨e, hask, hexc⟩, hall⟩, fun hr => ?_⟩
          exact (hex hr).imp id fun ⟨m, hm, hask'⟩ => ⟨m, List.mem_cons_of_mem n hm, hask'⟩
        · exact fun _ _ _ => trivial
      · exact fun _ => trivial
    | ok reply =>
      dsimp only
      cases hlone : c.loneHost count n reply with
      | error e => trivial
      | ok reply' =>
        have ht : ∀ e ∈ reply', Tells (fun _ _ => True) (fun _ => False) nm₁.toSettings n e :=
          fun _ _ => ⟨fun _ _ => trivial, fun _ _ => id⟩
        apply Post.bind (((addRanges_spec c nm₁ n reply' tmp hwf₁ (hb.connected h₁) ht).and
          (addRanges_nodes c nm₁ n reply' tmp hwf₁ (hb.connected h₁))).mono (fun _ _ h => h)
          fun _ _ _ => trivial)
        rintro tmp₂ nm₂ ⟨⟨he₂, hb₂, -⟩, hempty⟩
        apply Post.ite
        · intro hfull hnil
          rw [hb₂.not_covered hnil] at hfull
          cases hfull
        · intro _
          apply (ih nm₂ tmp₂ true exception (he₂.wf hwf₁) hb₂).mono
          · intro res _ h hnil
            obtain ⟨htmp₂, hall, -⟩ := h hnil
            obtain ⟨hreply', htmp⟩ := hempty htmp₂
            have hnone : askClusterSlots cluster_slots n = .ok [] :=
              hask.trans (congrArg Except.ok (loneHost_nil hlone hreply'))
            exact ⟨htmp, List.forall_mem_cons.mpr ⟨.inl hnone, hall⟩,
              fun _ => .inr ⟨n, List.mem_cons_self, hnone⟩⟩
          · exact fun _ _ _ => trivial

/-- When nothing is told, the loop comes out with nothing. -/
theorem scanStartupNodes_of_nothing (c : Variant) (cluster_slots : ClusterSlots)
    (count : Nat) (nm : NodesManager) (ns : List ClusterNode) (reachable : Bool)
    (exception : Option Exc) (h : ∀ n ∈ ns, TellsNothing cluster_slots n)
    (hex : reachable = true ∨ ∃ n ∈ ns, askClusterSlots cluster_slots n = .ok []) :
    ∃ exception' nm', (scanStartupNodes c.getOrCreateClusterNode c.loneHost count cluster_slots
        c.connect ns {} reachable exception).run nm = .ok ({}, true, false, exception') nm' ∧
      Connected nm nm' := by
  induction ns generalizing nm reachable exception with
  | nil =>
    obtain rfl : reachable = true := by simpa using hex
    exact ⟨exception, nm, rfl, .refl nm, rfl⟩
  | cons n ns ih =>
    obtain ⟨hn, hns⟩ := List.forall_mem_cons.mp h
    obtain ⟨nm₁, hrun₁, h₁⟩ := connect_spec c nm n
    unfold scanStartupNodes
    simp only [EStateM.run_bind, hrun₁]
    rcases hn with hok | ⟨e, herr, hexc⟩
    · obtain ⟨exception', nm', hrun, h'⟩ := ih nm₁ true exception hns (.inl rfl)
      refine ⟨exception', nm', ?_, h₁.ext.trans h'.ext, h'.server_type.trans h₁.server_type⟩
      have hlone : c.loneHost count n [] = .ok [] := by cases c <;> rfl
      simp only [hok, hlone, addRanges, EStateM.run_bind, EStateM.run_pure]
      rw [if_neg (by simp [checkSlotsCoverage_empty])]
      exact hrun
    · have hex' : reachable = true ∨ ∃ m ∈ ns, askClusterSlots cluster_slots m = .ok [] := by
        refine hex.imp id ?_
        rintro ⟨m, _ | ⟨_, hm⟩, hask⟩
        · rw [herr] at hask
          cases hask
        · exact ⟨m, hm, hask⟩
      obtain ⟨exception', nm', hrun, h'⟩ := ih nm₁ reachable (some e) hns hex'
      refine ⟨exception', nm', ?_, h₁.ext.trans h'.ext, h'.server_type.trans h₁.server_type⟩
      simp only [herr, hexc, if_true]
      exact hrun

/-- How a call of `initialize` comes out: it stops before anything is installed, or
it installs what the loop has gathered. -/
inductive Asked (c : Variant) (cluster_slots : ClusterSlots) (nm : NodesManager) :
    EStateM.Result Exc NodesManager Unit → Prop
  | stopped (err : Exc) {nm' : NodesManager} (ext : Extends nm nm')
      (told : NothingTold cluster_slots nm.startupNodes.items → nm.require_full_coverage = true) :
      Asked c cluster_slots nm (.error err nm')
  | installed {tmp : Tmp} {nm' : NodesManager} (ext : Extends nm nm')
      (building : Building (fun _ _ => True) (fun _ => False) nm' tmp)
      (told : tmp.nodes.items = [] ↔ NothingTold cluster_slots nm.startupNodes.items)
      (covered : checkSlotsCoverage tmp.slots = true ∨ nm.require_full_coverage = false)
      (startup : nm.startupNodes.items ≠ []) :
      Asked c cluster_slots nm ((c.install tmp.nodes tmp.slots).run nm')

theorem initializeNodes_asked (c : Variant) (cluster_slots : ClusterSlots) (nm : NodesManager)
    (hwf : nm.Wf) : Asked c cluster_slots nm ((c.initializeNodes cluster_slots).run nm) := by
  obtain ⟨nm₀, hnm₀⟩ : ∃ nm₀ : NodesManager,
      nm₀ = { nm with read_load_balancer := nm.read_load_balancer.reset } := ⟨_, rfl⟩
  have he₀ : Extends nm nm₀ := by
    rw [hnm₀]
    exact ⟨Nat.le_refl _, Nat.le_refl _, fun _ _ => rfl, rfl, rfl, rfl, rfl, rfl⟩
  have hstart : nm₀.startupNodes = nm.startupNodes := by
    rw [hnm₀]
    rfl
  have hscan := scanStartupNodes_spec c nm₀.startupNodes.items.length cluster_slots nm₀ nm₀.startupNodes.items {} false none
    (he₀.wf hwf) (truthful_trivial _ cluster_slots)
    ⟨⟨made_nil nm₀, fun n hn => absurd hn (by simp [EmptyCollection.emptyCollection]),
      fun n hn => absurd hn (by simp [EmptyCollection.emptyCollection])⟩, by simp,
      checkSlotsCoverage_empty.symm⟩
  have hnodes := scanStartupNodes_nodes c cluster_slots nm₀ nm₀.startupNodes.items.length nm₀.startupNodes.items {} false none
    (he₀.wf hwf) ⟨made_nil nm₀, fun n hn => absurd hn (by simp [EmptyCollection.emptyCollection]),
      fun n hn => absurd hn (by simp [EmptyCollection.emptyCollection])⟩
  have hnothing : NothingTold cluster_slots nm.startupNodes.items → _ := fun h =>
    scanStartupNodes_of_nothing c cluster_slots nm.startupNodes.items.length nm₀
      nm.startupNodes.items false none h.1 (.inr h.2)
  rw [initializeNodes_eq]
  unfold initializeWith
  simp only [EStateM.run_bind, EStateM.run_modify, EStateM.run_get]
  rw [← hnm₀, hstart]
  rw [hstart] at hscan hnodes
  cases hr : (scanStartupNodes c.getOrCreateClusterNode c.loneHost nm.startupNodes.items.length
    cluster_slots c.connect nm.startupNodes.items {} false none).run nm₀ with
  | error err nm₁ =>
    rw [hr] at hscan
    refine .stopped err (he₀.trans hscan.1) fun h => ?_
    obtain ⟨_, _, hr', -⟩ := hnothing h
    rw [hr] at hr'
    cases hr'
  | ok res nm₁ =>
    obtain ⟨tmp, reachable, fully_covered, exception⟩ := res
    rw [hr] at hscan hnodes
    obtain ⟨he, hsc, hnil, -⟩ := hscan
    have he₁ := he₀.trans he
    have hfull := hsc.fully_covered
    dsimp only at hfull hnil
    have htold : NothingTold cluster_slots nm.startupNodes.items →
        tmp = {} ∧ reachable = true ∧ fully_covered = false := by
      intro h
      obtain ⟨_, _, hr', -⟩ := hnothing h
      rw [hr] at hr'
      cases hr'
      exact ⟨rfl, rfl, rfl⟩
    cases reachable with
    | false => exact .stopped _ he₁ fun h => absurd (htold h).2.1 (by simp)
    | true =>
      obtain ⟨nm₂, hrun₂, h₂⟩ := createRedisConnections_spec c nm₁ tmp.nodes
      have he₂ := he₁.trans h₂.ext
      simp only [Bool.not_true, Bool.false_eq_true, if_false, EStateM.run_bind, hrun₂,
        EStateM.run_get]
      by_cases hu : (!fully_covered && nm₂.require_full_coverage) = true
      · rw [if_pos hu]
        rw [he₂.settings, Bool.and_eq_true] at hu
        exact .stopped _ he₂ fun _ => hu.2
      · rw [if_neg hu]
        rw [he₂.settings, hfull] at hu
        refine .installed he₂ (hsc.building.connected h₂) ⟨fun h => ?_, fun h => ?_⟩ ?_ ?_
        · obtain ⟨-, hall, hex⟩ := hnodes h
          exact ⟨hall, (hex rfl).resolve_left (by simp)⟩
        · rw [(htold h).1]
          rfl
        · cases hc : checkSlotsCoverage tmp.slots with
          | true => exact .inl rfl
          | false => exact .inr (by simpa [hc] using hu)
        · intro h
          exact absurd (hnil h) (by simp)

/-! ### The startup nodes -/

/-- Both dictionaries exist, and there is a startup node. -/
structure NodesManager.Rooted (nm : NodesManager) : Prop where
  startup_nodes : nm.startup_nodes < nm.dicts.next
  nodes_cache : nm.nodes_cache < nm.dicts.next
  nonempty : nm.startupNodes.items ≠ []

theorem NodesManager.Rooted.same {nm nm' : NodesManager} (h : nm.Rooted)
    (hd : nm'.dicts = nm.dicts) (hs : nm'.startup_nodes = nm.startup_nodes)
    (hc : nm'.nodes_cache = nm.nodes_cache) : nm'.Rooted := by
  refine ⟨?_, ?_, ?_⟩
  · rw [hs, hd]
    exact h.startup_nodes
  · rw [hc, hd]
    exact h.nodes_cache
  · rw [startupNodes, hs, hd]
    exact h.nonempty

theorem Extends.rooted {nm nm' : NodesManager} (he : Extends nm nm') (h : nm.Rooted) : nm'.Rooted :=
  h.same he.dicts he.startup_nodes he.nodes_cache

/-- A dictionary that is not empty is stored in the place of `nodes_cache`. -/
theorem setNodesCache_rooted {nodes : Nodes} {n : ClusterNode} (hn : n ∈ nodes.items) :
    Keeps Rooted (setNodesCache nodes) := by
  apply Keeps.modify
  intro nm h
  refine ⟨h.startup_nodes, h.nodes_cache, ?_⟩
  change ((nm.dicts.write nm.nodes_cache nodes).read nm.startup_nodes).items ≠ []
  by_cases hr : nm.startup_nodes = nm.nodes_cache
  · rw [hr, Heap.read_write_self]
    exact List.ne_nil_of_mem hn
  · rw [Heap.read_write_ne _ _ hr]
    exact h.nonempty

theorem addNode_rooted (c : Variant) (n : ClusterNode) : Keeps Rooted (c.addNode n) := by
  cases c with
  | sync =>
    apply Keeps.bind Keeps.get
    exact fun nm => setNodesCache_rooted (Keyed.mem_items_put.mpr (.inl rfl))
  | asyncio =>
    apply Keeps.bind Keeps.get
    exact fun nm => setNodesCache_rooted
      (mem_setNodes (Keyed.mem_items_put.mpr (.inl (rfl : n = n))) false)

theorem setServerType_rooted (n : ClusterNode) (t : ServerType) :
    Keeps Rooted (setServerType n t) := Keeps.modify fun _ h => h.same rfl rfl rfl

theorem getNode_rooted (c : Variant) (host : String) (port : Int) :
    Keeps Rooted (c.getNode host port) := by
  cases c with
  | sync =>
    unfold Variant.getNode Sync.NodesManager.getNode
    apply Keeps.ite
    · exact Keeps.bind Keeps.get fun _ => Keeps.pure _
    · exact Keeps.pure _
  | asyncio =>
    unfold Variant.getNode Asyncio.NodesManager.getNode
    apply Keeps.ite
    · exact Keeps.bind Keeps.get fun _ => Keeps.pure _
    · exact Keeps.throw _

theorem redirectedNode_rooted (c : Variant) (e : Redirect) :
    Keeps Rooted (redirectedNode c.getNode c.addNode e) := by
  apply Keeps.bind (getNode_rooted c e.host e.port)
  intro known
  cases known with
  | some n =>
    apply Keeps.bind Keeps.get
    intro nm
    apply Keeps.ite
    · exact Keeps.bind (setServerType_rooted n _) fun _ => Keeps.pure _
    · exact Keeps.pure _
  | none =>
    apply Keeps.bind (m := newClusterNode e.host e.port .PRIMARY)
    · intro nm h
      obtain ⟨n, nm', hrun, hext, -⟩ := newClusterNode_spec nm e.host e.port .PRIMARY
      rw [hrun]
      exact hext.rooted h
    · exact fun n => Keeps.bind (addNode_rooted c n) fun _ => Keeps.pure _

theorem failover_rooted (r : Ref) (x : ClusterNode) : Keeps Rooted (failover r x) := by
  apply Keeps.bind Keeps.get
  intro nm
  apply Keeps.bind (item_keeps _ 0)
  intro old_primary
  apply Keeps.bind (setServerType_rooted old_primary .REPLICA)
  intro _
  apply Keeps.bind (Keeps.modify fun _ h => h.same rfl rfl rfl)
  intro _
  apply Keeps.bind Keeps.get
  exact fun _ => Keeps.ite (Keeps.modify fun _ h => h.same rfl rfl rfl) (Keeps.pure _)

theorem updateMovedSlots_rooted (c : Variant) : Keeps Rooted c.updateMovedSlots := by
  rw [updateMovedSlots_eq]
  apply Keeps.bind Keeps.get
  intro nm
  split
  · exact Keeps.throw _
  · rename_i e _
    apply Keeps.bind (redirectedNode_rooted c e)
    intro x
    apply Keeps.bind (slotRef_keeps e.slot_id)
    intro r
    apply Keeps.bind Keeps.get
    intro nm'
    apply Keeps.ite
    · exact Keeps.bind (failover_rooted r x) fun _ => Keeps.modify fun _ h => h.same rfl rfl rfl
    · exact Keeps.bind (Keeps.modify fun _ h => h.same rfl rfl rfl)
        fun _ => Keeps.modify fun _ h => h.same rfl rfl rfl

theorem getNodeFromSlot_rooted (c : Variant) (slot : Int) (read_from_replicas : Bool)
    (server_type : Option ServerType) (randint : Nat → Nat → Nat) :
    Keeps Rooted (c.getNodeFromSlot slot read_from_replicas server_type randint) := by
  have hmoved : Keeps Rooted (applyMoved c.updateMovedSlots) :=
    Keeps.bind Keeps.get fun _ => Keeps.ite (updateMovedSlots_rooted c) (Keeps.pure _)
  exact getNodeFromSlot_keeps c slot read_from_replicas server_type randint hmoved
    fun _ _ h => h.same rfl rfl rfl

/-! ### Asking for the topology -/

theorem setNodes_empty (old : Nodes) {new : Nodes} (h : new.items = []) :
    (Asyncio.NodesManager.setNodes old new true).items = [] := by
  have hc : ∀ name, new.contains name = false := fun name => by
    rw [Keyed.contains, Keyed.get?, h]
    rfl
  simp [Asyncio.NodesManager.setNodes, h, Keyed.restrict, hc]

theorem firstPrimary_nonempty (nm : NodesManager) :
    Post (firstPrimary.run nm) (fun _ nm' => nm' = nm ∧ nm.nodesCache.items ≠ [])
      (fun _ nm' => nm' = nm) := by
  simp only [firstPrimary, EStateM.run_bind, EStateM.run_get, item]
  cases h : (nm.getNodesByServerType .PRIMARY)[0]? with
  | none => exact rfl
  | some n =>
    exact ⟨rfl, List.ne_nil_of_mem (List.mem_of_mem_filter (List.mem_of_getElem? h))⟩

/-- The sync client drops no startup node before it knows a primary. -/
theorem install_rooted_sync (nodes : Nodes) (slots : Dict Int Ref) :
    Keeps Rooted (Sync.NodesManager.install nodes slots) := by
  unfold Sync.NodesManager.install
  apply Keeps.bind
  · apply Keeps.modify
    intro nm h
    refine ⟨h.startup_nodes.trans (Nat.lt_succ_self _), Nat.lt_succ_self _, ?_⟩
    change ((nm.dicts.alloc nodes).2.read nm.startup_nodes).items ≠ []
    rw [Heap.read_alloc_of_lt _ _ h.startup_nodes]
    exact h.nonempty
  · intro _ nm h
    apply Post.bind ((firstPrimary_nonempty nm).mono (fun _ _ h => h)
      fun _ _ (h' : _ = nm) => h'.symm ▸ h)
    rintro n nm' ⟨hnm, hne⟩
    rw [hnm]
    apply Post.modify
    by_cases hd : nm.dynamic_startup_nodes = true
    · refine ⟨?_, h.nodes_cache, ?_⟩
      · dsimp only
        rw [if_pos hd]
        exact h.nodes_cache
      · dsimp only [startupNodes]
        rw [if_pos hd]
        exact hne
    · exact h.same rfl (if_neg hd) rfl

/-- The asyncio client's dictionaries stay the objects they were, and its startup
nodes are filled with whatever it was told. -/
structure Refilled (nm nm' : NodesManager) (nodes : Nodes) : Prop where
  startup_nodes : nm'.startup_nodes = nm.startup_nodes
  nodes_cache : nm'.nodes_cache = nm.nodes_cache
  next : nm'.dicts.next = nm.dicts.next
  empty : nm'.startupNodes.items = [] ↔ nodes.items = []

theorem setNodes_eq_nil (old new : Nodes) :
    (Asyncio.NodesManager.setNodes old new true).items = [] ↔ new.items = [] := by
  constructor
  · intro h
    by_contra hne
    obtain ⟨n, hn⟩ := List.exists_mem_of_ne_nil _ hne
    exact List.not_mem_nil (h ▸ mem_setNodes hn true)
  · exact setNodes_empty old

theorem install_refilled (nm : NodesManager) (nodes : Nodes) (slots : Dict Int Ref) :
    Post ((Asyncio.NodesManager.install nodes slots).run nm)
      (fun _ nm' => Refilled nm nm' nodes ∧ nodes.items ≠ [])
      (fun _ nm' => Refilled nm nm' nodes) := by
  unfold Asyncio.NodesManager.install setNodesCache
  apply Post.bind (Q := fun _ nm₁ => nm₁ = { nm with slots_cache := slots })
  · exact Post.modify rfl
  rintro _ _ rfl
  apply Post.get_bind
  simp only [EStateM.run_bind, EStateM.run_modify]
  apply Post.bind (Q := fun _ nm₁ => Refilled nm nm₁ nodes ∧ nodes.items ≠ [])
  · apply (firstPrimary_nonempty _).mono
    · rintro _ _ ⟨rfl, hne⟩
      refine ⟨⟨rfl, rfl, rfl, ?_⟩, fun hnil => hne ?_⟩
      · simp only [startupNodes, nodesCache, Heap.read_write_self, setNodes_eq_nil]
      · -- the dictionary of the startup nodes may be `nodes_cache` itself
        by_cases hr : nm.nodes_cache = nm.startup_nodes
        · simp only [nodesCache, hr, Heap.read_write_self, setNodes_eq_nil, hnil]
        · simp only [nodesCache, Heap.read_write_ne _ _ hr, Heap.read_write_self, setNodes_eq_nil,
            hnil]
    · rintro _ _ rfl
      refine ⟨rfl, rfl, rfl, ?_⟩
      simp only [startupNodes, nodesCache, Heap.read_write_self, setNodes_eq_nil]
  · exact fun _ nm₁ h =>
      Post.modify ⟨⟨h.1.startup_nodes, h.1.nodes_cache, h.1.next, h.1.empty⟩, h.2⟩

/-- `initialize` leaves no startup node only in the asyncio client, when nothing is
told and that is enough. -/
theorem initializeNodes_rooted (c : Variant) (cluster_slots : ClusterSlots) (nm : NodesManager)
    (hwf : nm.Wf) (h : nm.Rooted) (hok : c = .asyncio → nm.require_full_coverage = false →
      ¬ NothingTold cluster_slots nm.startupNodes.items) :
    (state ((c.initializeNodes cluster_slots).run nm)).Rooted := by
  have hasked := initializeNodes_asked c cluster_slots nm hwf
  generalize (c.initializeNodes cluster_slots).run nm = r at hasked ⊢
  cases hasked with
  | stopped err ext told => exact ext.rooted h
  | @installed tmp nm' ext building told covered startup =>
    have h' := ext.rooted h
    cases c with
    | sync => exact (install_rooted_sync tmp.nodes tmp.slots nm' h').state
    | asyncio =>
      have hr : Refilled nm' (state ((Asyncio.NodesManager.install tmp.nodes tmp.slots).run nm'))
          tmp.nodes :=
        ((install_refilled nm' tmp.nodes tmp.slots).mono (fun _ _ h => h.1) fun _ _ h => h).state
      refine ⟨?_, ?_, ?_⟩
      · exact (hr.startup_nodes.trans_lt h'.startup_nodes).trans_eq hr.next.symm
      · exact (hr.nodes_cache.trans_lt h'.nodes_cache).trans_eq hr.next.symm
      · intro hnil
        have hempty := hr.empty.mp hnil
        rcases covered with hcov | hcov
        · rw [building.not_covered hempty] at hcov
          cases hcov
        · exact hok rfl hcov (told.mp hempty)

/-- Without startup nodes `initialize` gets none. -/
theorem initializeNodes_of_empty (c : Variant) (cluster_slots : ClusterSlots) (nm : NodesManager)
    (hwf : nm.Wf) (h : nm.startupNodes.items = []) :
    (state ((c.initializeNodes cluster_slots).run nm)).startupNodes.items = [] := by
  have hasked := initializeNodes_asked c cluster_slots nm hwf
  generalize (c.initializeNodes cluster_slots).run nm = r at hasked ⊢
  cases hasked with
  | stopped err ext told =>
    dsimp only [state]
    rw [startupNodes, ext.dicts, ext.startup_nodes]
    exact h
  | installed ext building told covered startup => exact absurd h startup

/-- Told nothing, where that is enough, the asyncio client is left without startup
nodes, and raises for want of a primary. -/
theorem initializeNodes_of_nothing (cluster_slots : ClusterSlots) (nm : NodesManager) (hwf : nm.Wf)
    (hreq : nm.require_full_coverage = false)
    (h : NothingTold cluster_slots nm.startupNodes.items) :
    Post ((Variant.asyncio.initializeNodes cluster_slots).run nm) (fun _ _ => False)
      (fun _ nm' => nm'.startupNodes.items = []) := by
  have hasked := initializeNodes_asked .asyncio cluster_slots nm hwf
  generalize (Variant.asyncio.initializeNodes cluster_slots).run nm = r at hasked ⊢
  cases hasked with
  | stopped err ext told => exact absurd (told h) (by simp [hreq])
  | @installed tmp nm' ext building told covered startup =>
    apply (install_refilled nm' tmp.nodes tmp.slots).mono
    · exact fun _ _ hr => hr.2 (told.mpr h)
    · exact fun _ _ hr => hr.empty.mpr (told.mpr h)

/-! ### Runs -/

/-- Every node answers, with all slots and always the same primaries. -/
structure Responsive (s : Settings) (cluster_slots : ClusterSlots) (P : Int → String → Prop)
    (master : String → Prop) : Prop where
  answers : ¬ Silent cluster_slots
  truthful : Truthful P (fun i => 0 ≤ i ∧ i < REDIS_CLUSTER_HASH_SLOTS) master s cluster_slots
  agree : ∀ i x y, P i x → P i y → x = y
  masters : ∀ i x, P i x → master x

/-- There are startup nodes, and once all nodes are reachable `initialize` succeeds. -/
structure Recoverable (c : Variant) (nm : NodesManager) : Prop where
  nonempty : nm.startupNodes.items ≠ []
  recovers : ∀ P master cluster_slots, Responsive nm.toSettings cluster_slots P master →
    ∃ nm', (c.initializeNodes cluster_slots).run nm = .ok () nm'

theorem recoverable_of_rooted (c : Variant) {nm : NodesManager} (hwf : nm.Wf) (h : nm.Rooted) :
    Recoverable c nm := by
  refine ⟨h.nonempty, fun P master cluster_slots hh => ?_⟩
  have hspec := initializeNodes_spec c cluster_slots nm hwf hh.truthful
  cases hr : (c.initializeNodes cluster_slots).run nm with
  | ok _ nm' => exact ⟨nm', rfl⟩
  | error err nm' =>
    rw [hr] at hspec
    cases hspec.2.2 with
    | disagree hd =>
      obtain ⟨-, i, x, y, hx, hy, hne⟩ := hd
      exact absurd (hh.agree i x y hx hy) hne
    | silent hs => exact absurd hs hh.answers
    | noStartup _ hnil => exact absurd hnil h.nonempty
    | uncovered _ _ i hi hC => exact absurd ⟨Int.natCast_nonneg i, by exact_mod_cast hi⟩ hC
    | noPrimary _ hno =>
      obtain ⟨x, hx, hm⟩ := hno 0 ⟨le_refl _, by decide⟩
      exact absurd (hh.masters 0 x hx) hm

/-- What keeps a call from taking the last startup node away. -/
def LeavesStartupNode (c : Variant) (nm : NodesManager) : TopologyCall → Prop
  | .connectionFailed target_node _ => ∃ n ∈ nm.startupNodes.items, n.name ≠ target_node.name
  | .initializeClient cluster_slots _ => c = .asyncio → nm.require_full_coverage = false →
      ¬ NothingTold cluster_slots nm.startupNodes.items
  | _ => True

/-- In order, and with startup nodes. -/
structure Stocked (nm : NodesManager) : Prop where
  wf : nm.Wf
  rooted : nm.Rooted

theorem popStartupNode_stocked {nm : NodesManager} {name : String} (h : Stocked nm)
    (hleft : ∃ n ∈ nm.startupNodes.items, n.name ≠ name) :
    Stocked (state ((popStartupNode name).run nm)) := by
  obtain ⟨n, hn, hne⟩ := hleft
  refine ⟨h.wf.writeDict _ fun n hn => h.wf.dicts _ n (Keyed.mem_items_erase.mp hn).1,
    h.rooted.startup_nodes, h.rooted.nodes_cache, ?_⟩
  change ((nm.dicts.write nm.startup_nodes (nm.startupNodes.erase name)).read
    nm.startup_nodes).items ≠ []
  rw [Heap.read_write_self]
  exact List.ne_nil_of_mem (Keyed.mem_items_erase.mpr ⟨hn, hne⟩)

theorem popStartupNode_empty {nm : NodesManager} {name : String}
    (h : ¬ ∃ n ∈ nm.startupNodes.items, n.name ≠ name) :
    (state ((popStartupNode name).run nm)).startupNodes.items = [] := by
  change ((nm.dicts.write nm.startup_nodes (nm.startupNodes.erase name)).read
    nm.startup_nodes).items = []
  rw [Heap.read_write_self, List.eq_nil_iff_forall_not_mem]
  exact fun n hn => h ⟨n, Keyed.mem_items_erase.mp hn⟩

theorem popStartupNode_wf {nm : NodesManager} (name : String) (hwf : nm.Wf) :
    (state ((popStartupNode name).run nm)).Wf :=
  hwf.writeDict _ fun n hn => hwf.dicts _ n (Keyed.mem_items_erase.mp hn).1

/-- What a client leaves behind has the startup nodes that `NodesManager` left. -/
theorem initializeClient_state (c : Variant) (cluster_slots : ClusterSlots)
    (parser_setup : Option Exc) (nm : NodesManager) :
    state ((c.initializeClient cluster_slots parser_setup).run nm) =
        state ((c.initializeNodes cluster_slots).run nm) ∨
      state ((c.initializeClient cluster_slots parser_setup).run nm) =
        { state ((c.initializeNodes cluster_slots).run nm) with default_node := none } := by
  cases c with
  | sync => exact .inl rfl
  | asyncio =>
    simp only [Variant.initializeClient, Variant.initializeNodes, run_tryCatch, EStateM.run_bind]
    cases (Asyncio.NodesManager.initializeNodes cluster_slots).run nm with
    | error e nm' => exact .inr rfl
    | ok _ nm' =>
      cases parser_setup with
      | none => exact .inl rfl
      | some e => exact .inr rfl

theorem Stocked.close {nm : NodesManager} (h : Stocked nm) :
    Stocked { nm with default_node := none } :=
  ⟨h.wf.same rfl rfl rfl rfl rfl, h.rooted.same rfl rfl rfl⟩

theorem TopologyCall.step_lookup (c : Variant) (nm : NodesManager) (slot : Int)
    (read_from_replicas : Bool) (server_type : Option ServerType) (randint : Nat → Nat → Nat) :
    step c nm (.lookup slot read_from_replicas server_type randint) =
      state ((c.getNodeFromSlot slot read_from_replicas server_type randint).run nm) := by
  simp only [step, run, EStateM.run_bind]
  cases (c.getNodeFromSlot slot read_from_replicas server_type randint).run nm <;> rfl

theorem step_stocked (c : Variant) (nm : NodesManager) (call : TopologyCall) (h : Stocked nm)
    (hok : LeavesStartupNode c nm call) : Stocked (call.step c nm) := by
  cases call with
  | lookup slot read_from_replicas server_type randint =>
    rw [TopologyCall.step_lookup]
    exact ⟨(getNodeFromSlot_wf c slot read_from_replicas server_type randint nm h.wf).state,
      (getNodeFromSlot_rooted c slot read_from_replicas server_type randint nm h.rooted).state⟩
  | moved e => exact ⟨h.wf.same rfl rfl rfl rfl rfl, h.rooted.same rfl rfl rfl⟩
  | close => exact h.close
  | initializeClient cluster_slots parser_setup =>
    have hs : Stocked (state ((c.initializeNodes cluster_slots).run nm)) :=
      ⟨initializeNodes_wf c cluster_slots nm h.wf,
        initializeNodes_rooted c cluster_slots nm h.wf h.rooted hok⟩
    unfold TopologyCall.step TopologyCall.run
    rcases initializeClient_state c cluster_slots parser_setup nm with he | he
    · rw [he]
      exact hs
    · rw [he]
      exact hs.close
  | connectionFailed target_node cluster_slots =>
    have hpop := popStartupNode_stocked h hok
    cases c with
    | asyncio => exact hpop.close
    | sync =>
      have hdrop : Stocked (state ((dropRedisConnection target_node).run
          (state ((popStartupNode target_node.name).run nm)))) :=
        ⟨hpop.wf.same rfl rfl rfl rfl rfl, hpop.rooted.same rfl rfl rfl⟩
      exact ⟨initializeNodes_wf .sync cluster_slots _ hdrop.wf,
        initializeNodes_rooted .sync cluster_slots _ hdrop.wf hdrop.rooted (by simp)⟩

theorem step_dry (c : Variant) (nm : NodesManager) (call : TopologyCall) (h : Stocked nm)
    (hok : ¬ LeavesStartupNode c nm call) : (call.step c nm).startupNodes.items = [] := by
  cases call with
  | lookup => exact absurd trivial hok
  | moved => exact absurd trivial hok
  | close => exact absurd trivial hok
  | initializeClient cluster_slots parser_setup =>
    obtain ⟨rfl, hreq, htold⟩ : c = .asyncio ∧ nm.require_full_coverage = false ∧
        NothingTold cluster_slots nm.startupNodes.items := by
      simpa only [LeavesStartupNode, not_forall, not_not, exists_prop] using hok
    have hempty := ((initializeNodes_of_nothing cluster_slots nm h.wf hreq htold).mono
      (fun _ nm' => False.elim (C := nm'.startupNodes.items = [])) fun _ _ h => h).state
    rcases initializeClient_state .asyncio cluster_slots parser_setup nm with he | he
    · exact (congrArg (fun nm' => nm'.startupNodes.items) he).trans hempty
    · exact (congrArg (fun nm' => nm'.startupNodes.items) he).trans hempty
  | connectionFailed target_node cluster_slots =>
    have hpop := popStartupNode_empty hok
    cases c with
    | asyncio => exact hpop
    | sync =>
      have hwf : NodesManager.Wf (state ((dropRedisConnection target_node).run
          (state ((popStartupNode target_node.name).run nm)))) :=
        (popStartupNode_wf _ h.wf).same rfl rfl rfl rfl rfl
      exact initializeNodes_of_empty .sync cluster_slots _ hwf hpop

/-- The first `initialize` that succeeds leaves startup nodes behind. -/
theorem init_stocked (c : Variant) (settings : Settings) (startup_nodes : List (String × Int))
    (cluster_slots : ClusterSlots) (nm : NodesManager)
    (h : (c.initializeNodes cluster_slots).run (NodesManager.init settings startup_nodes) =
      .ok () nm) : Stocked nm := by
  have hwf := init_wf settings startup_nodes
  have hspec := initializeNodes_spec c cluster_slots _ hwf (truthful_trivial _ cluster_slots)
  rw [h] at hspec
  have hrooted : Rooted (NodesManager.init settings startup_nodes) :=
    ⟨by simp [NodesManager.init], by simp [NodesManager.init], hspec.startup⟩
  refine ⟨hspec.wf, ?_⟩
  have hnm : nm = state ((c.initializeNodes cluster_slots).run
      (NodesManager.init settings startup_nodes)) := by rw [h]; rfl
  rw [hnm]
  apply initializeNodes_rooted c cluster_slots _ hwf hrooted
  rintro rfl hreq htold
  have hraises := initializeNodes_of_nothing cluster_slots _ hwf hreq htold
  rw [h] at hraises
  exact hraises

/-- Startup nodes are left after every call just if no failed connection and no empty
topology takes the last of them. -/
theorem recoverable_iff (c : Variant) (settings : Settings) (startup_nodes : List (String × Int))
    (cluster_slots : ClusterSlots) (nm : NodesManager)
    (h : (c.initializeNodes cluster_slots).run (NodesManager.init settings startup_nodes) =
      .ok () nm) (calls : List TopologyCall) :
    Each (TopologyCall.step c) (fun nm call => Recoverable c (call.step c nm)) nm calls ↔
      Each (TopologyCall.step c) (LeavesStartupNode c) nm calls := by
  refine each_good_iff (I := Stocked) ?_ ?_ ?_ (Each.trivial nm calls)
  · intro nm call hs _ hok
    have hs' := step_stocked c nm call hs hok
    exact ⟨recoverable_of_rooted c hs'.wf hs'.rooted, hs'⟩
  · intro nm call hs _ hgood
    by_contra hok
    exact hgood.nonempty (step_dry c nm call hs hok)
  · exact init_stocked c settings startup_nodes cluster_slots nm h

/-- A replica is left when the primary's connection fails. -/
theorem recoverable_oneShard :
    Each (TopologyCall.step .sync) (fun nm call => Recoverable .sync (call.step .sync nm))
      (shardManager .sync)
      [.connectionFailed { id := 1, host := "10.0.0.1", port := 7000 } oneShard] := by
  apply (recoverable_iff .sync {} [("10.0.0.1", 7000)] oneShard (shardManager .sync)
    (shardManager_ok .sync) _).mpr
  refine ⟨?_, trivial⟩
  change ∃ n ∈ (shardManager .sync).startupNodes.items, n.name ≠ _
  decide +kernel

/-- One node serves the slots 0 and 1. -/
def loneNode : ClusterSlots := fun _ =>
  .ok [{ start := 0, stop := 1, primary := ("10.0.0.1", 7000), replicas := [] }]

def loneManager (c : Variant) : NodesManager :=
  state ((c.initializeNodes loneNode).run freshManager)

def loneNodeFailed : TopologyCall :=
  .connectionFailed { id := 1, host := "10.0.0.1", port := 7000 } loneNode

/-- One failed connection to the only node, and no `initialize` succeeds again. -/
theorem loneNode_runs_dry :
    (∀ c : Variant, (c.initializeNodes loneNode).run freshManager = .ok () (loneManager c)) ∧
      ∀ c : Variant, ¬ Each (TopologyCall.step c) (fun nm call => Recoverable c (call.step c nm))
        (loneManager c) [loneNodeFailed] := by
  constructor
  · intro c
    apply eq_ok_of_isOk
    cases c <;> decide +kernel
  · intro c h
    apply h.1.nonempty
    cases c <;> decide +kernel

end RedisPy
