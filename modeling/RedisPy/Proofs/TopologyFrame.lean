import RedisPy.Proofs.Reachable

/-! What asking for the topology leaves alone until the new one is installed: it
makes nodes and lists, types nodes and gives them clients, and nothing more. -/

namespace RedisPy

open NodesManager Raising

/-- The fact does not look at what building a topology changes. -/
structure Untouched (I : NodesManager → Prop) : Prop where
  nodes : ∀ nm f n, I nm → I { nm with server_type := f, nextNode := n }
  lists : ∀ nm l, I nm → I { nm with lists := l }
  connections : ∀ nm f, I nm → I { nm with redis_connection := f }

theorem untouched_moved (m : Option Redirect) : Untouched fun nm => nm.moved_exception = m :=
  ⟨fun _ _ _ h => h, fun _ _ h => h, fun _ _ h => h⟩

theorem untouched_default (n : Option ClusterNode) : Untouched fun nm => nm.default_node = n :=
  ⟨fun _ _ _ h => h, fun _ _ h => h, fun _ _ h => h⟩

variable {I : NodesManager → Prop}

theorem setServerType_untouched (hI : Untouched I) (n : ClusterNode) (t : ServerType) :
    Keeps I (setServerType n t) := Keeps.modify fun nm h => hI.nodes nm _ nm.nextNode h

theorem newClusterNode_untouched (hI : Untouched I) (host : String) (port : Int) (t : ServerType) :
    Keeps I (newClusterNode host port t) := fun nm h => hI.nodes nm _ _ h

theorem getOrCreateClusterNode_untouched (hI : Untouched I) (c : Variant) (a : String × Int)
    (role : ServerType) (nodes : Nodes) : Keeps I (c.getOrCreateClusterNode a role nodes) := by
  cases c with
  | sync =>
    unfold Variant.getOrCreateClusterNode Sync.NodesManager.getOrCreateClusterNode
    dsimp only
    split
    · exact Keeps.pure _
    · apply Keeps.bind Keeps.get
      intro nm
      have hrest : ∀ n, Keeps I (do
          if (← get).server_type n ≠ some role then setServerType n role
          return (n, nodes.put n) : M (ClusterNode × Nodes)) := by
        intro n
        apply Keeps.bind Keeps.get
        intro nm'
        apply Keeps.ite
        · exact Keeps.bind (setServerType_untouched hI n role) fun _ => Keeps.pure _
        · exact Keeps.pure _
      split
      · exact hrest _
      · exact Keeps.bind (newClusterNode_untouched hI a.1 a.2 role) hrest
  | asyncio =>
    unfold Variant.getOrCreateClusterNode Asyncio.NodesManager.getOrCreateClusterNode
    dsimp only
    split
    · exact Keeps.pure _
    · exact Keeps.bind (newClusterNode_untouched hI a.1 a.2 role) fun _ => Keeps.pure _

theorem addReplicas_untouched (hI : Untouched I) (c : Variant)
    (addrs : List (Option String × Int)) (nodes : Nodes) : Keeps I (addReplicas c.getOrCreateClusterNode addrs nodes) := by
  induction addrs generalizing nodes with
  | nil => exact Keeps.pure _
  | cons a addrs ih =>
    apply Keeps.bind Keeps.get
    intro nm
    apply Keeps.bind (getOrCreateClusterNode_untouched hI c _ _ nodes)
    rintro ⟨n, nodes₁⟩
    exact Keeps.bind (ih nodes₁) fun _ => Keeps.pure _

theorem fillSlots_untouched (h : ClusterNode) (r : Ref) (is : List Int) (tmp : Tmp) :
    Keeps I (fillSlots h r is tmp) := by
  induction is generalizing tmp with
  | nil => exact Keeps.pure _
  | cons i is ih =>
    unfold fillSlots
    split
    · exact ih _
    · apply Keeps.bind Keeps.get
      intro nm
      apply Keeps.bind (item_keeps _ 0)
      intro tmp_slot
      apply Keeps.ite
      · apply Keeps.ite
        · exact Keeps.throw _
        · exact ih _
      · exact ih tmp

theorem addRange_untouched (hI : Untouched I) (c : Variant) (n : ClusterNode) (e : SlotRange)
    (tmp : Tmp) : Keeps I (addRange c.getOrCreateClusterNode n e tmp) := by
  apply Keeps.bind Keeps.get
  intro nm
  apply Keeps.bind (getOrCreateClusterNode_untouched hI c _ _ tmp.nodes)
  rintro ⟨target_node, nodes₁⟩
  apply Keeps.bind (addReplicas_untouched hI c e.replicas nodes₁)
  rintro ⟨replica_nodes, nodes₂⟩
  apply Keeps.bind Keeps.get
  intro nm'
  apply Keeps.bind (Keeps.modify fun nm'' h => hI.lists nm'' _ h)
  exact fun _ => fillSlots_untouched _ _ _ _

theorem addRanges_untouched (hI : Untouched I) (c : Variant) (n : ClusterNode)
    (es : List SlotRange) (tmp : Tmp) : Keeps I (addRanges c.getOrCreateClusterNode n es tmp) := by
  induction es generalizing tmp with
  | nil => exact Keeps.pure _
  | cons e es ih => exact Keeps.bind (addRange_untouched hI c n e tmp) ih

theorem connect_untouched (hI : Untouched I) (c : Variant) (n : ClusterNode) :
    Keeps I (c.connect n) := by
  cases c with
  | sync => exact Keeps.modify fun nm h => hI.connections nm _ h
  | asyncio => exact Keeps.pure _

theorem createRedisConnections_untouched (hI : Untouched I) (c : Variant) (nodes : Nodes) :
    Keeps I (c.createRedisConnections nodes) := by
  cases c with
  | asyncio => exact Keeps.pure _
  | sync =>
    change Keeps I (forM nodes.items Sync.NodesManager.createRedisConnection)
    induction nodes.items with
    | nil => exact Keeps.pure _
    | cons n ns ih =>
      rw [List.forM_cons]
      exact Keeps.bind (connect_untouched hI .sync n) fun _ => ih

theorem scanStartupNodes_untouched (hI : Untouched I) (c : Variant) (count : Nat)
    (cluster_slots : ClusterSlots) (ns : List ClusterNode) (tmp : Tmp) (reachable : Bool)
    (exception : Option Exc) :
    Keeps I (scanStartupNodes c.getOrCreateClusterNode c.loneHost count cluster_slots c.connect ns
      tmp reachable exception) := by
  induction ns generalizing tmp reachable exception with
  | nil => exact Keeps.pure _
  | cons n ns ih =>
    apply Keeps.bind (connect_untouched hI c n)
    intro _
    split
    · apply Keeps.ite
      · exact ih _ _ _
      · exact Keeps.throw _
    · split
      · exact Keeps.throw _
      · apply Keeps.bind (addRanges_untouched hI c n _ tmp)
        intro tmp'
        apply Keeps.ite
        · exact Keeps.pure _
        · exact ih _ _ _

theorem initializeNodes_wf (c : Variant) (cluster_slots : ClusterSlots) (nm : NodesManager)
    (hwf : nm.Wf) : (state ((c.initializeNodes cluster_slots).run nm)).Wf :=
  ((initializeNodes_spec c cluster_slots nm hwf (truthful_trivial _ cluster_slots)).mono
    (fun _ _ h => h.wf) fun _ _ h => h.1).state

/-- An `initialize` that raises for another reason than the want of a primary has
installed nothing. -/
theorem initializeNodes_untouched (hI : Untouched I) (c : Variant) (cluster_slots : ClusterSlots)
    (nm : NodesManager) (hwf : nm.Wf)
    (h : I { nm with read_load_balancer := nm.read_load_balancer.reset }) :
    Post ((c.initializeNodes cluster_slots).run nm) (fun _ _ => True)
      (fun err nm' => err.cls = .IndexError ∨ Extends nm nm' ∧ I nm') := by
  rw [initializeNodes_eq]
  unfold initializeWith
  have he₀ : Extends nm { nm with read_load_balancer := nm.read_load_balancer.reset } :=
    ⟨Nat.le_refl _, Nat.le_refl _, fun _ _ => rfl, rfl, rfl, rfl, rfl, rfl⟩
  apply Post.bind (Q := fun _ nm₁ =>
    nm₁ = { nm with read_load_balancer := nm.read_load_balancer.reset })
  · exact Post.modify rfl
  rintro _ _ rfl
  apply Post.get_bind
  have hscan := scanStartupNodes_spec c nm.startupNodes.items.length cluster_slots _ nm.startupNodes.items {} false none
    (he₀.wf hwf) (truthful_trivial _ cluster_slots) ⟨⟨made_nil _, fun n hn => absurd hn (by simp [EmptyCollection.emptyCollection]),
      fun n hn => absurd hn (by simp [EmptyCollection.emptyCollection])⟩, by simp,
      checkSlotsCoverage_empty.symm⟩
  apply Post.bind ((hscan.and (scanStartupNodes_untouched hI c _ cluster_slots _ {} false none _
    h)).mono (fun _ _ h => h) fun _ _ h => .inr ⟨he₀.trans h.1.1, h.2⟩)
  rintro ⟨tmp, reachable, fully_covered, exception⟩ nm₁ ⟨⟨he, hsc, -⟩, h₁⟩
  have he₁ := he₀.trans he
  apply Post.ite
  · exact fun _ => .inr ⟨he₁, h₁⟩
  intro _
  obtain ⟨nm₂, hrun₂, h₂⟩ := createRedisConnections_spec c nm₁ tmp.nodes
  have hI₂ := createRedisConnections_untouched hI c tmp.nodes nm₁ h₁
  rw [hrun₂] at hI₂
  have he₂ := he₁.trans h₂.ext
  simp only [EStateM.run_bind, hrun₂, EStateM.run_get]
  apply Post.ite
  · exact fun _ => .inr ⟨he₂, hI₂⟩
  intro _
  apply (install_spec c nm₂ tmp (he₂.wf hwf) (hsc.building.connected h₂)).mono
  · exact fun _ _ _ => trivial
  · exact fun _ _ h => .inl h.2.1

end RedisPy
