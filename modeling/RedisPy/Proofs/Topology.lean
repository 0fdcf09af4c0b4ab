import RedisPy.Proofs.WellFormed

/-! What `initialize` builds: every list object it makes is new, so the old
topology stays as it was until the new one is installed, and the new one speaks of
new list objects only. From what the answers say of the slots follows what the
new table says, and when there is one. -/

namespace RedisPy

open NodesManager Raising

/-- What building a topology keeps of the state it starts from. -/
structure Extends (nm nm' : NodesManager) : Prop where
  nextNode : nm.nextNode ≤ nm'.nextNode
  nextList : nm.lists.next ≤ nm'.lists.next
  lists : ∀ r < nm.lists.next, nm'.lists.read r = nm.lists.read r
  dicts : nm'.dicts = nm.dicts
  nodes_cache : nm'.nodes_cache = nm.nodes_cache
  startup_nodes : nm'.startup_nodes = nm.startup_nodes
  slots_cache : nm'.slots_cache = nm.slots_cache
  settings : nm'.toSettings = nm.toSettings

theorem Extends.refl (nm : NodesManager) : Extends nm nm :=
  ⟨Nat.le_refl _, Nat.le_refl _, fun _ _ => rfl, rfl, rfl, rfl, rfl, rfl⟩

theorem Extends.trans {a b c : NodesManager} (h : Extends a b) (h' : Extends b c) : Extends a c where
  nextNode := h.nextNode.trans h'.nextNode
  nextList := h.nextList.trans h'.nextList
  lists r hr := (h'.lists r (hr.trans_le h.nextList)).trans (h.lists r hr)
  dicts := h'.dicts.trans h.dicts
  nodes_cache := h'.nodes_cache.trans h.nodes_cache
  startup_nodes := h'.startup_nodes.trans h.startup_nodes
  slots_cache := h'.slots_cache.trans h.slots_cache
  settings := h'.settings.trans h.settings

theorem Extends.isNode {nm nm' : NodesManager} {n : ClusterNode} (he : Extends nm nm')
    (h : nm.IsNode n) : nm'.IsNode n :=
  ⟨h.id.trans_le he.nextNode, by rw [he.settings, h.host]⟩

theorem Made.extends {nm nm' : NodesManager} {ns : List ClusterNode} (h : Made nm ns)
    (he : Extends nm nm') : Made nm' ns := fun n hn => he.isNode (h n hn)

theorem Extends.wf {nm nm' : NodesManager} (h : Extends nm nm') (hwf : nm.Wf) : nm'.Wf where
  slots entry he := by
    rw [h.slots_cache] at he
    exact (hwf.slots entry he).trans_le h.nextList
  nodes entry he := by
    rw [h.slots_cache] at he
    rw [h.lists _ (hwf.slots entry he)]
    exact (hwf.nodes entry he).extends h
  dicts r := by
    rw [h.dicts]
    exact (hwf.dicts r).extends h

theorem setServerType_extends (nm : NodesManager) (n : ClusterNode) (t : ServerType) :
    Extends nm { nm with server_type := Function.update nm.server_type n (some t) } :=
  ⟨Nat.le_refl _, Nat.le_refl _, fun _ _ => rfl, rfl, rfl, rfl, rfl, rfl⟩

theorem newClusterNode_spec (nm : NodesManager) (host : String) (port : Int) (role : ServerType) :
    ∃ n nm', (newClusterNode host port role).run nm = .ok n nm' ∧ Extends nm nm' ∧
      nm'.lists = nm.lists ∧ n.id = nm.nextNode ∧ nm'.IsNode n ∧
      n.name = getNodeName (nm.resolveHost host) port ∧ nm'.server_type n = some role ∧
      ∀ m, m ≠ n → nm'.server_type m = nm.server_type m :=
  ⟨_, _, rfl, ⟨Nat.le_succ _, Nat.le_refl _, fun _ _ => rfl, rfl, rfl, rfl, rfl, rfl⟩,
    rfl, rfl, ⟨Nat.lt_succ_self _, nm.resolveHost_idem host⟩, rfl, by simp,
    fun _ hm => Function.update_of_ne hm ..⟩

/-! ### The nodes of the new topology -/

/-- The nodes that bear a master's name are primaries. -/
def Masters (master : String → Prop) (nm : NodesManager) (nodes : Nodes) : Prop :=
  ∀ n ∈ nodes.items, master n.name → nm.server_type n = some .PRIMARY

/-- How `n` is found or made for the address `a` in the new dictionary. -/
structure NodeFor (nm nm' : NodesManager) (a : String × Int) (role : ServerType)
    (nodes nodes' : Nodes) (n : ClusterNode) : Prop where
  ext : Extends nm nm'
  isNode : nm'.IsNode n
  made : Made nm' nodes'.items
  name : n.name = getNodeName (nm.resolveHost a.1) a.2
  keys : ∀ k, k ∈ nodes'.keys ↔ k = n.name ∨ k ∈ nodes.keys
  types : ∀ m ∈ nodes'.items, m ∈ nodes.items ∧ nm'.server_type m = nm.server_type m ∨
    m.name = n.name ∧ nm'.server_type m = some role

theorem NodeFor.masters {nm nm' : NodesManager} {a : String × Int} {role : ServerType}
    {nodes nodes' : Nodes} {n : ClusterNode} {master : String → Prop}
    (h : NodeFor nm nm' a role nodes nodes' n) (hm : Masters master nm nodes)
    (hrole : role = .PRIMARY ∨ ¬ master n.name) : Masters master nm' nodes' := by
  intro m hmem hmaster
  rcases h.types m hmem with ⟨hold, ht⟩ | ⟨hname, ht⟩
  · exact ht.trans (hm m hold hmaster)
  · rcases hrole with rfl | hn
    · exact ht
    · exact absurd (hname ▸ hmaster) hn

/-- A node is stored in the new dictionary. -/
theorem nodeFor_put {nm nm' : NodesManager} {a : String × Int} {role : ServerType} {nodes : Nodes}
    {n : ClusterNode} (hext : Extends nm nm') (hnode : nm'.IsNode n) (hn : Made nm nodes.items)
    (hname : n.name = getNodeName (nm.resolveHost a.1) a.2)
    (hst : ∀ m, m ≠ n → nm'.server_type m = nm.server_type m)
    (hrole : nm'.server_type n = some role) : NodeFor nm nm' a role nodes (nodes.put n) n where
  ext := hext
  isNode := hnode
  made := (hn.extends hext).put hnode
  name := hname
  keys k := Keyed.mem_keys_put
  types m hm := by
    rcases Keyed.mem_items_put.mp hm with rfl | ⟨hm, hne⟩
    · exact .inr ⟨rfl, hrole⟩
    · exact .inl ⟨hm, hst m fun h => hne (h ▸ rfl)⟩

/-- Both variants find or make a node for the address. -/
theorem nodeOf_spec (c : Variant) (nm : NodesManager) (a : String × Int) (role : ServerType)
    (nodes : Nodes) (hwf : nm.Wf) (hn : Made nm nodes.items) :
    ∃ n nodes' nm', (c.getOrCreateClusterNode a role nodes).run nm = .ok (n, nodes') nm' ∧
      NodeFor nm nm' a role nodes nodes' n := by
  obtain ⟨n₀, nm₀, hrun, hext, -, -, hnode, hname, ht, hst⟩ :=
    newClusterNode_spec nm a.1 a.2 role
  have hnew : NodeFor nm nm₀ a role nodes (nodes.put n₀) n₀ :=
    nodeFor_put hext hnode hn hname hst ht
  cases hk : nodes.get? (getNodeName a.1 a.2) with
  | some n =>
    have hmem := Keyed.mem_of_get? hk
    have hname := (hn n hmem).name_eq (Keyed.key_of_get? hk)
    have hkey : n.name ∈ nodes.keys := List.mem_map_of_mem hmem
    cases c with
    | sync =>
      refine ⟨n, nodes, nm, ?_, .refl nm, hn n hmem, hn, hname, fun k => ?_, fun m hm => .inl ⟨hm, rfl⟩⟩
      · simp [Variant.getOrCreateClusterNode, Sync.NodesManager.getOrCreateClusterNode, hk]
      · exact ⟨.inr, fun h => h.elim (fun h => h ▸ hkey) id⟩
    | asyncio =>
      refine ⟨n, nodes.put n, nm, ?_, .refl nm, hn n hmem, hn.put (hn n hmem), hname,
        fun k => Keyed.mem_keys_put, fun m hm => .inl ⟨?_, rfl⟩⟩
      · simp [Variant.getOrCreateClusterNode, Asyncio.NodesManager.getOrCreateClusterNode, hk]
      · rcases Keyed.mem_items_put.mp hm with rfl | ⟨hm, -⟩
        · exact hmem
        · exact hm
  | none =>
    cases c with
    | asyncio =>
      refine ⟨n₀, nodes.put n₀, nm₀, ?_, hnew⟩
      simp only [Variant.getOrCreateClusterNode, Asyncio.NodesManager.getOrCreateClusterNode, hk,
        EStateM.run_bind, hrun, EStateM.run_pure]
    | sync =>
      cases hr : Sync.NodesManager.reusableNode nm (getNodeName a.1 a.2) with
      | some n =>
        obtain ⟨hmem, hkey⟩ := Keyed.get?_eq_some.mp (Option.filter_eq_some_iff.mp hr).1
        have hnode : nm.IsNode n := hwf.dicts nm.nodes_cache n hmem
        have hname := hnode.name_eq hkey
        by_cases ht : nm.server_type n = some role
        · refine ⟨n, nodes.put n, nm, ?_,
            nodeFor_put (.refl nm) hnode hn hname (fun _ _ => rfl) ht⟩
          simp [Variant.getOrCreateClusterNode, Sync.NodesManager.getOrCreateClusterNode, hk, hr, ht]
        · have hext := setServerType_extends nm n role
          refine ⟨n, nodes.put n, _, ?_, nodeFor_put hext (hext.isNode hnode) hn hname
            (fun m hm => Function.update_of_ne hm ..) (Function.update_self ..)⟩
          simp [Variant.getOrCreateClusterNode, Sync.NodesManager.getOrCreateClusterNode, hk, hr,
            ht, setServerType]
      | none =>
        refine ⟨n₀, nodes.put n₀, nm₀, ?_, hnew⟩
        simp only [Variant.getOrCreateClusterNode, Sync.NodesManager.getOrCreateClusterNode, hk,
          EStateM.run_bind, EStateM.run_get, hr, hrun]
        simp [ht]

theorem addReplicas_spec (c : Variant) (nm : NodesManager) (addrs : List (Option String × Int))
    (nodes : Nodes) (hwf : nm.Wf) (hn : Made nm nodes.items) :
    ∃ ns nodes' nm', (addReplicas c.getOrCreateClusterNode addrs nodes).run nm = .ok (ns, nodes') nm' ∧
      Extends nm nm' ∧ Made nm' ns ∧ Made nm' nodes'.items ∧ (∀ k ∈ nodes.keys, k ∈ nodes'.keys) ∧
      ∀ master : String → Prop, (∀ a ∈ addrs, ¬ master (nm.storedName (replyAddr a))) →
        Masters master nm nodes → Masters master nm' nodes' := by
  induction addrs generalizing nm nodes with
  | nil => exact ⟨[], nodes, nm, rfl, .refl nm, made_nil nm, hn, fun _ h => h, fun _ _ h => h⟩
  | cons a addrs ih =>
    obtain ⟨n, nodes₁, nm₁, hrun, h₁⟩ :=
      nodeOf_spec c nm (nm.remapHostPort (replyAddr a)) .REPLICA nodes hwf hn
    obtain ⟨ns, nodes₂, nm₂, hrun₂, he₂, hns, hn₂, hk₂, hm₂⟩ :=
      ih nm₁ nodes₁ (h₁.ext.wf hwf) h₁.made
    refine ⟨n :: ns, nodes₂, nm₂, ?_, h₁.ext.trans he₂, (he₂.isNode h₁.isNode |> hns.cons), hn₂,
      fun k hk => hk₂ k ((h₁.keys k).mpr (.inr hk)), fun master hrep hm => ?_⟩
    · simp only [addReplicas, EStateM.run_bind, EStateM.run_get, hrun, hrun₂, EStateM.run_pure]
    · apply hm₂ master
      · rw [h₁.ext.settings]
        exact fun a' ha' => hrep a' (List.mem_cons_of_mem a ha')
      · exact h₁.masters hm (.inr (h₁.name ▸ hrep a List.mem_cons_self))

/-! ### The slots of the new topology -/

/-- What holds of the topology under construction: `P` is what the name of each
slot's primary is known to satisfy. -/
structure Building (P : Int → String → Prop) (master : String → Prop) (nm : NodesManager) (tmp : Tmp) :
    Prop where
  nodes : Made nm tmp.nodes.items
  masters : Masters master nm tmp.nodes
  slots : ∀ entry ∈ tmp.slots.items, entry.2 < nm.lists.next ∧
    ∃ h tl, nm.lists.read entry.2 = h :: tl ∧ Made nm (h :: tl) ∧ P entry.1 h.name ∧
      h.name ∈ tmp.nodes.keys

/-- Other dictionaries that keep the keys do as well. -/
theorem Building.extends {P : Int → String → Prop} {master : String → Prop} {nm nm' : NodesManager}
    {tmp : Tmp} {nodes : Nodes} (h : Building P master nm tmp) (he : Extends nm nm')
    (hn : Made nm' nodes.items) (hm : Masters master nm' nodes)
    (hk : ∀ k ∈ tmp.nodes.keys, k ∈ nodes.keys) :
    Building P master nm' { tmp with nodes := nodes } where
  nodes := hn
  masters := hm
  slots entry hentry := by
    obtain ⟨hlt, p, tl, hr, hmade, hP, hkey⟩ := h.slots entry hentry
    exact ⟨hlt.trans_le he.nextList, p, tl, (he.lists _ hlt).trans hr, hmade.extends he, hP,
      hk _ hkey⟩

/-- Raised when two nodes are told to be the primary of one slot. -/
def Disagree (P : Int → String → Prop) (err : Exc) : Prop :=
  err.cls = .RedisClusterException ∧ ∃ i x y, P i x ∧ P i y ∧ x ≠ y

/-- Slots that are given the list object `r` read the primary that stands first in it. -/
theorem fillSlots_spec {P : Int → String → Prop} {master : String → Prop} {nm : NodesManager}
    {h : ClusterNode} {tl : List ClusterNode} {r : Ref} (hr : nm.lists.read r = h :: tl)
    (hlt : r < nm.lists.next) (hmade : Made nm (h :: tl)) (is : List Int)
    (hP : ∀ i ∈ is, P i h.name) (tmp : Tmp) (hkey : h.name ∈ tmp.nodes.keys)
    (hb : Building P master nm tmp) :
    Post ((fillSlots h r is tmp).run nm)
      (fun tmp' nm' => nm' = nm ∧ Building P master nm tmp' ∧
        ∀ i, i ∈ tmp'.slots.keys ↔ i ∈ tmp.slots.keys ∨ i ∈ is)
      (fun err nm' => nm' = nm ∧ Disagree P err) := by
  induction is generalizing tmp with
  | nil => exact ⟨rfl, hb, by simp⟩
  | cons i is ih =>
    have ih' := ih fun j hj => hP j (List.mem_cons_of_mem _ hj)
    unfold fillSlots
    cases hi : tmp.slots.get? i with
    | none =>
      have hb' : Building P master nm { tmp with slots := tmp.slots.put (i, r) } := by
        refine ⟨hb.nodes, hb.masters, fun entry he => ?_⟩
        rcases Keyed.mem_items_put.mp he with rfl | ⟨he, -⟩
        · exact ⟨hlt, h, tl, hr, hmade, hP i (by simp), hkey⟩
        · exact hb.slots entry he
      apply (ih' { tmp with slots := tmp.slots.put (i, r) } hkey hb').mono
      · rintro tmp' nm' ⟨rfl, hb'', hkeys⟩
        refine ⟨rfl, hb'', fun j => ?_⟩
        rw [hkeys, Keyed.mem_keys_put, List.mem_cons]
        tauto
      · exact fun _ _ h => h
    | some entry =>
      have hmem := Keyed.mem_of_get? hi
      have hslot : entry.1 = i := Keyed.key_of_get? hi
      have hslots : ∀ j, j ∈ tmp.slots.keys ∨ j ∈ is ↔ j ∈ tmp.slots.keys ∨ j ∈ i :: is := by
        intro j
        have : i ∈ tmp.slots.keys := hslot ▸ List.mem_map_of_mem hmem
        rw [List.mem_cons]
        constructor
        · tauto
        · rintro (h | rfl | h) <;> tauto
      obtain ⟨-, p, tl', hp, -, hPp, -⟩ := hb.slots entry hmem
      have hitem : (item (nm.lists.read entry.2) 0).run nm = .ok p nm := by simp [item, hp]
      simp only [EStateM.run_bind, EStateM.run_get, hitem, ← hslots]
      split
      · rename_i hne
        apply Post.ite
        · exact fun _ => ⟨rfl, rfl, i, p.name, h.name, hslot ▸ hPp, hP i (by simp), hne⟩
        · exact fun _ => ih' { tmp with disagreements := _ } hkey ⟨hb.nodes, hb.masters, hb.slots⟩
      · exact ih' tmp hkey hb

theorem alloc_extends (nm : NodesManager) (nodes : List ClusterNode) :
    Extends nm { nm with lists := (nm.lists.alloc nodes).2 } :=
  ⟨Nat.le_refl _, Nat.le_succ _, fun _ hr => Heap.read_alloc_of_lt nm.lists nodes hr,
    rfl, rfl, rfl, rfl, rfl⟩

/-- What an entry of a reply tells of its slots, and of who is no master. -/
structure Tells (P : Int → String → Prop) (master : String → Prop) (s : Settings)
    (startup_node : ClusterNode) (e : SlotRange) : Prop where
  primary : ∀ i ∈ slotsOf e, P i (s.storedName (primaryAddr startup_node e))
  replicas : ∀ a ∈ e.replicas, ¬ master (s.storedName (replyAddr a))

theorem addRange_spec {P : Int → String → Prop} {master : String → Prop} (c : Variant)
    (nm : NodesManager) (n : ClusterNode) (e : SlotRange) (tmp : Tmp) (hwf : nm.Wf)
    (hb : Building P master nm tmp) (ht : Tells P master nm.toSettings n e) :
    Post ((addRange c.getOrCreateClusterNode n e tmp).run nm)
      (fun tmp' nm' => Extends nm nm' ∧ Building P master nm' tmp' ∧
        ∀ i, i ∈ tmp'.slots.keys ↔ i ∈ tmp.slots.keys ∨ i ∈ slotsOf e)
      (fun err nm' => Extends nm nm' ∧ Disagree P err) := by
  obtain ⟨h, nodes₁, nm₁, hrun₁, h₁⟩ :=
    nodeOf_spec c nm (nm.remapHostPort (primaryAddr n e)) .PRIMARY tmp.nodes hwf hb.nodes
  obtain ⟨tl, nodes₂, nm₂, hrun₂, he₂, htl, hn₂, hk₂, hm₂⟩ :=
    addReplicas_spec c nm₁ e.replicas nodes₁ (h₁.ext.wf hwf) h₁.made
  have he₃ := alloc_extends nm₂ (h :: tl)
  have he := (h₁.ext.trans he₂).trans he₃
  have hmasters : Masters master nm₂ nodes₂ :=
    hm₂ master (by rw [h₁.ext.settings]; exact ht.replicas) (h₁.masters hb.masters (.inl rfl))
  have hb' : Building P master { nm₂ with lists := (nm₂.lists.alloc (h :: tl)).2 }
      { tmp with nodes := nodes₂ } :=
    hb.extends he (hn₂.extends he₃) hmasters
      fun k hk => hk₂ k ((h₁.keys k).mpr (.inr hk))
  simp only [addRange, EStateM.run_bind, EStateM.run_get, hrun₁, hrun₂, EStateM.run_modify]
  apply (fillSlots_spec (Heap.read_alloc_self nm₂.lists (h :: tl)) (Nat.lt_succ_self _)
    ((htl.cons (he₂.isNode h₁.isNode)).extends he₃) (slotsOf e)
    (fun i hi => h₁.name ▸ ht.primary i hi) _ (hk₂ _ ((h₁.keys _).mpr (.inl rfl))) hb').mono
  · rintro tmp' nm' ⟨rfl, hb'', hkeys⟩
    exact ⟨he, hb'', hkeys⟩
  · rintro _ nm' ⟨rfl, hd⟩
    exact ⟨he, hd⟩

theorem addRanges_spec {P : Int → String → Prop} {master : String → Prop} (c : Variant)
    (nm : NodesManager) (n : ClusterNode) (es : List SlotRange) (tmp : Tmp) (hwf : nm.Wf)
    (hb : Building P master nm tmp) (ht : ∀ e ∈ es, Tells P master nm.toSettings n e) :
    Post ((addRanges c.getOrCreateClusterNode n es tmp).run nm)
      (fun tmp' nm' => Extends nm nm' ∧ Building P master nm' tmp' ∧
        ∀ i, i ∈ tmp'.slots.keys ↔ i ∈ tmp.slots.keys ∨ ∃ e ∈ es, i ∈ slotsOf e)
      (fun err nm' => Extends nm nm' ∧ Disagree P err) := by
  induction es generalizing nm tmp with
  | nil => exact ⟨.refl nm, hb, by simp⟩
  | cons e es ih =>
    unfold addRanges
    apply Post.bind (addRange_spec c nm n e tmp hwf hb (ht e (by simp)))
    rintro tmp₁ nm₁ ⟨he, hb₁, hkeys₁⟩
    have ht₁ : ∀ e' ∈ es, Tells P master nm₁.toSettings n e' := by
      rw [he.settings]
      exact fun e' h' => ht e' (List.mem_cons_of_mem e h')
    apply (ih nm₁ tmp₁ (he.wf hwf) hb₁ ht₁).mono
    · rintro tmp₂ nm₂ ⟨he₂, hb₂, hkeys₂⟩
      refine ⟨he.trans he₂, hb₂, fun i => ?_⟩
      rw [hkeys₂, hkeys₁, or_assoc]
      simp
    · exact fun _ nm₂ h₂ => ⟨he.trans h₂.1, h₂.2⟩

/-! ### The loop over the startup nodes -/

/-- Clients are made for nodes, and nothing else changes. -/
structure Connected (nm nm' : NodesManager) : Prop where
  ext : Extends nm nm'
  server_type : nm'.server_type = nm.server_type

theorem Building.connected {P : Int → String → Prop} {master : String → Prop} {nm nm' : NodesManager}
    {tmp : Tmp} (h : Building P master nm tmp) (hc : Connected nm nm') : Building P master nm' tmp :=
  h.extends hc.ext (h.nodes.extends hc.ext)
    (fun n hn hm => hc.server_type ▸ h.masters n hn hm) fun _ hk => hk

theorem connect_spec (c : Variant) (nm : NodesManager) (n : ClusterNode) :
    ∃ nm', (c.connect n).run nm = .ok () nm' ∧ Connected nm nm' := by
  cases c with
  | sync =>
    exact ⟨_, rfl, ⟨Nat.le_refl _, Nat.le_refl _, fun _ _ => rfl, rfl, rfl, rfl, rfl, rfl⟩, rfl⟩
  | asyncio => exact ⟨nm, rfl, .refl nm, rfl⟩

theorem createRedisConnections_spec (c : Variant) (nm : NodesManager) (nodes : Nodes) :
    ∃ nm', (c.createRedisConnections nodes).run nm = .ok () nm' ∧ Connected nm nm' := by
  cases c with
  | asyncio => exact ⟨nm, rfl, .refl nm, rfl⟩
  | sync =>
    obtain ⟨items, nodup⟩ := nodes
    simp only [Variant.createRedisConnections, Sync.NodesManager.createRedisConnections]
    clear nodup
    induction items generalizing nm with
    | nil => exact ⟨nm, rfl, .refl nm, rfl⟩
    | cons n ns ih =>
      obtain ⟨nm₁, hrun₁, h₁⟩ := connect_spec .sync nm n
      obtain ⟨nm₂, hrun₂, h₂⟩ := ih nm₁
      refine ⟨nm₂, ?_, h₁.ext.trans h₂.ext, h₂.server_type.trans h₁.server_type⟩
      rw [List.forM_cons, EStateM.run_bind,
        show (Sync.NodesManager.createRedisConnection n).run nm = _ from hrun₁]
      exact hrun₂

/-- What the answers of the startup nodes say: of each slot in `C` that `P` holds
of its primary, and no master among the replicas. -/
structure Truthful (P : Int → String → Prop) (C : Int → Prop) (master : String → Prop)
    (s : Settings) (cluster_slots : ClusterSlots) : Prop where
  tells : ∀ n reply, cluster_slots n = .ok reply → ∀ e ∈ reply, Tells P master s n e
  unknown : ∀ n reply, cluster_slots n = .ok reply → ∀ e ∈ reply, e.primary.1 = none →
    Tells P master s n (e.setHost n.host)
  covers : ∀ n reply, cluster_slots n = .ok reply → ∀ i, C i → ∃ e ∈ reply, i ∈ slotsOf e

/-- Nothing is known of the answers. -/
theorem truthful_trivial (s : Settings) (cluster_slots : ClusterSlots) :
    Truthful (fun _ _ => True) (fun _ => False) (fun _ => False) s cluster_slots :=
  ⟨fun _ _ _ _ _ => ⟨fun _ _ => trivial, fun _ _ => id⟩,
    fun _ _ _ _ _ _ => ⟨fun _ _ => trivial, fun _ _ => id⟩, fun _ _ _ _ h => h.elim⟩

/-- A startup node does not answer, or with one range whose primary has no host. -/
def Silent (cluster_slots : ClusterSlots) : Prop :=
  ∃ n, (∃ e, cluster_slots n = .error e) ∨ ∃ e, cluster_slots n = .ok [e] ∧ e.primary.1 = none

theorem askClusterSlots_ok {cluster_slots : ClusterSlots} {n : ClusterNode} {reply : List SlotRange}
    (h : askClusterSlots cluster_slots n = .ok reply) : cluster_slots n = .ok reply := by
  unfold askClusterSlots at h
  split at h
  · rename_i hr
    rwa [hr]
  · split at h <;> cases h

theorem askClusterSlots_error {cluster_slots : ClusterSlots} {n : ClusterNode} {e : Exc}
    (h : askClusterSlots cluster_slots n = .error e) : Silent cluster_slots := by
  unfold askClusterSlots at h
  split at h
  · cases h
  · exact ⟨n, .inl ⟨_, ‹_›⟩⟩

theorem loneHost_error {c : Variant} {count : Nat} {n : ClusterNode} {reply : List SlotRange}
    {err : Exc} (h : c.loneHost count n reply = .error err) :
    err.cls = .TypeError ∧ c = .sync ∧ ∃ e, reply = [e] ∧ e.primary.1 = none := by
  match c, reply with
  | .sync, [e] =>
    cases hp : e.primary.1 with
    | none =>
      simp only [Variant.loneHost, Sync.NodesManager.loneHost, hp] at h
      obtain rfl := Except.error.inj h
      exact ⟨rfl, rfl, e, rfl, hp⟩
    | some host => simp [Variant.loneHost, Sync.NodesManager.loneHost, hp] at h
  | .sync, [] => cases h
  | .sync, _ :: _ :: _ => cases h
  | .asyncio, [] => cases h
  | .asyncio, [_] => cases h
  | .asyncio, _ :: _ :: _ => cases h

/-- A reply is worked through as it is, or as told by the node that has sent it. -/
theorem loneHost_ok {c : Variant} {count : Nat} {n : ClusterNode} {reply reply' : List SlotRange}
    (h : c.loneHost count n reply = .ok reply') : reply' = reply ∨
      ∃ e, reply = [e] ∧ reply' = [e.setHost n.host] ∧
        (e.primary.1 = none ∨ e.primary.1 = some "") := by
  match c, reply with
  | .sync, [e] =>
    cases hp : e.primary.1 with
    | none => simp [Variant.loneHost, Sync.NodesManager.loneHost, hp] at h
    | some host =>
      simp only [Variant.loneHost, Sync.NodesManager.loneHost, hp] at h
      obtain rfl := Except.ok.inj h
      split
      · rename_i hc
        have hempty : host = "" := by simpa using hc.1
        exact .inr ⟨e, rfl, rfl, .inr (hempty ▸ hp)⟩
      · exact .inl rfl
  | .asyncio, [e] =>
    simp only [Variant.loneHost, Asyncio.NodesManager.loneHost] at h
    obtain rfl := Except.ok.inj h
    split
    · rename_i hc
      exact .inr ⟨e, rfl, rfl, hc.1⟩
    · exact .inl rfl
  | .sync, [] => exact .inl (Except.ok.inj h).symm
  | .sync, _ :: _ :: _ => exact .inl (Except.ok.inj h).symm
  | .asyncio, [] => exact .inl (Except.ok.inj h).symm
  | .asyncio, _ :: _ :: _ => exact .inl (Except.ok.inj h).symm

@[simp] theorem slotsOf_setHost (e : SlotRange) (host : String) :
    slotsOf (e.setHost host) = slotsOf e := rfl

theorem loneHost_slots {c : Variant} {count : Nat} {n : ClusterNode} {reply reply' : List SlotRange}
    (h : c.loneHost count n reply = .ok reply') (i : Int) :
    (∃ e ∈ reply', i ∈ slotsOf e) ↔ ∃ e ∈ reply, i ∈ slotsOf e := by
  rcases loneHost_ok h with rfl | ⟨e, rfl, rfl, -⟩
  · exact Iff.rfl
  · simp

/-- A host that is left out is that of the node that answers. -/
theorem primaryAddr_setHost {n : ClusterNode} {e : SlotRange} (h : e.primary.1 = some "") :
    primaryAddr n (e.setHost n.host) = primaryAddr n e := by
  rw [primaryAddr, primaryAddr, if_pos h]
  unfold SlotRange.setHost replyAddr
  dsimp only
  split <;> rfl

theorem Truthful.read {P : Int → String → Prop} {C : Int → Prop} {master : String → Prop}
    {s : Settings} {cluster_slots : ClusterSlots} {c : Variant} {count : Nat} {n : ClusterNode}
    {reply reply' : List SlotRange} (ht : Truthful P C master s cluster_slots)
    (hreply : cluster_slots n = .ok reply) (h : c.loneHost count n reply = .ok reply') :
    ∀ e ∈ reply', Tells P master s n e := by
  rcases loneHost_ok h with rfl | ⟨e, rfl, rfl, hnone | hempty⟩
  · exact ht.tells n _ hreply
  · intro e' he'
    rw [List.mem_singleton.mp he']
    exact ht.unknown n _ hreply e List.mem_cons_self hnone
  · intro e' he'
    rw [List.mem_singleton.mp he']
    obtain ⟨hprimary, hreplicas⟩ := ht.tells n _ hreply e List.mem_cons_self
    exact ⟨(primaryAddr_setHost hempty).symm ▸ hprimary, hreplicas⟩

/-- The new topology as the loop leaves it. -/
structure Scanned (P : Int → String → Prop) (C : Int → Prop) (master : String → Prop)
    (nm : NodesManager) (tmp : Tmp) (reachable fully_covered : Bool) : Prop where
  building : Building P master nm tmp
  covers : reachable = true → ∀ i, C i → i ∈ tmp.slots.keys
  fully_covered : fully_covered = checkSlotsCoverage tmp.slots

theorem scanStartupNodes_spec {P : Int → String → Prop} {C : Int → Prop} {master : String → Prop}
    (c : Variant) (count : Nat) (cluster_slots : ClusterSlots) (nm : NodesManager)
    (ns : List ClusterNode) (tmp : Tmp) (reachable : Bool) (exception : Option Exc) (hwf : nm.Wf)
    (ht : Truthful P C master nm.toSettings cluster_slots)
    (hb : Scanned P C master nm tmp reachable false) :
    Post ((scanStartupNodes c.getOrCreateClusterNode c.loneHost count cluster_slots c.connect ns tmp
        reachable exception).run nm)
      (fun res nm' => Extends nm nm' ∧ Scanned P C master nm' res.1 res.2.1 res.2.2.1 ∧
        (ns = [] → res.2.1 = reachable) ∧ (ns ≠ [] → res.2.1 = true ∨ Silent cluster_slots))
      (fun err nm' => Extends nm nm' ∧ (Disagree P err ∨ Silent cluster_slots)) := by
  induction ns generalizing nm tmp reachable exception with
  | nil => exact ⟨.refl nm, hb, fun _ => rfl, fun h => absurd rfl h⟩
  | cons n ns ih =>
    unfold scanStartupNodes
    obtain ⟨nm₁, hrun₁, h₁⟩ := connect_spec c nm n
    have ht₁ : Truthful P C master nm₁.toSettings cluster_slots := h₁.ext.settings ▸ ht
    simp only [EStateM.run_bind, hrun₁]
    cases hask : askClusterSlots cluster_slots n with
    | error e =>
      have hsilent := askClusterSlots_error hask
      apply Post.ite
      · intro _
        apply (ih nm₁ tmp reachable (some e) (h₁.ext.wf hwf) ht₁
          ⟨hb.building.connected h₁, hb.covers, hb.fully_covered⟩).mono
        · rintro res nm₂ ⟨he₂, h₂, -⟩
          exact ⟨h₁.ext.trans he₂, h₂, by simp, fun _ => .inr hsilent⟩
        · exact fun _ nm₂ h₂ => ⟨h₁.ext.trans h₂.1, h₂.2⟩
      · exact fun _ => ⟨h₁.ext, .inr hsilent⟩
    | ok reply =>
      have hreply := askClusterSlots_ok hask
      dsimp only
      cases hlone : c.loneHost count n reply with
      | error e =>
        obtain ⟨-, -, e', rfl, hnone⟩ := loneHost_error hlone
        exact ⟨h₁.ext, .inr ⟨n, .inr ⟨e', hreply, hnone⟩⟩⟩
      | ok reply' =>
        apply Post.bind ((addRanges_spec c nm₁ n reply' tmp (h₁.ext.wf hwf)
          (hb.building.connected h₁) (ht₁.read hreply hlone)).mono (fun _ _ h => h)
            fun _ nm₂ h₂ => ⟨h₁.ext.trans h₂.1, .inl h₂.2⟩)
        rintro tmp₂ nm₂ ⟨he₂, hb₂, hkeys⟩
        have he₁₂ := h₁.ext.trans he₂
        have hC₂ : ∀ i, C i → i ∈ tmp₂.slots.keys := fun i hi =>
          (hkeys i).mpr (.inr ((loneHost_slots hlone i).mpr (ht.covers n reply hreply i hi)))
        apply Post.ite
        · exact fun hfull => ⟨he₁₂, ⟨hb₂, fun _ => hC₂, hfull.symm⟩, by simp, fun _ => .inl rfl⟩
        · intro hfull
          have hsc₂ : Scanned P C master nm₂ tmp₂ true false :=
            ⟨hb₂, fun _ => hC₂, by simpa using hfull⟩
          apply (ih nm₂ tmp₂ true exception (he₁₂.wf hwf) (he₂.settings ▸ ht₁) hsc₂).mono
          · rintro res nm₃ ⟨he₃, h₃, hnil, hcons⟩
            refine ⟨he₁₂.trans he₃, h₃, by simp, fun _ => ?_⟩
            by_cases hns : ns = []
            · exact .inl (hnil hns)
            · exact hcons hns
          · exact fun _ nm₃ h₃ => ⟨he₁₂.trans h₃.1, h₃.2⟩

/-! ### The installation -/

/-- `nm'` holds the new slot table over the lists of `nm`. -/
structure Installed (nm nm' : NodesManager) (tmp : Tmp) : Prop where
  wf : nm'.Wf
  slots_cache : nm'.slots_cache = tmp.slots
  lists : nm'.lists = nm.lists
  server_type : nm'.server_type = nm.server_type
  settings : nm'.toSettings = nm.toSettings

/-- The new slot table is in order. -/
theorem Building.wf {P : Int → String → Prop} {master : String → Prop} {nm : NodesManager} {tmp : Tmp}
    (hb : Building P master nm tmp) (hwf : nm.Wf) :
    NodesManager.Wf { nm with slots_cache := tmp.slots } where
  slots entry he := (hb.slots entry he).1
  nodes entry he := by
    obtain ⟨-, h, tl, hr, hmade, -⟩ := hb.slots entry he
    change Made _ (nm.lists.read entry.2)
    rw [hr]
    exact fun n hn => ⟨(hmade n hn).id, (hmade n hn).host⟩
  dicts r n hn := ⟨(hwf.dicts r n hn).id, (hwf.dicts r n hn).host⟩

theorem firstPrimary_spec (nm : NodesManager) :
    Post (firstPrimary.run nm) (fun _ nm' => nm' = nm)
      (fun err nm' => nm' = nm ∧ err.cls = .IndexError ∧
        ∀ n ∈ nm.nodesCache.items, nm.server_type n ≠ some .PRIMARY) := by
  simp only [firstPrimary, EStateM.run_bind, EStateM.run_get, item]
  cases h : (nm.getNodesByServerType .PRIMARY)[0]? with
  | some n => exact rfl
  | none =>
    have hnil : nm.getNodesByServerType .PRIMARY = [] := by simpa using h
    refine ⟨rfl, rfl, fun n hn ht => ?_⟩
    have : n ∈ nm.getNodesByServerType .PRIMARY := List.mem_filter.mpr ⟨hn, by simpa using ht⟩
    rw [hnil] at this
    cases this

/-- Installed, with the new nodes in `nodes_cache`. -/
def Filled (nm nm' : NodesManager) (tmp : Tmp) : Prop :=
  Installed nm nm' tmp ∧ ∀ n ∈ tmp.nodes.items, n ∈ nm'.nodesCache.items

theorem Filled.firstPrimary {nm nm₁ : NodesManager} {tmp : Tmp} (h : Filled nm nm₁ tmp) :
    Post (firstPrimary.run nm₁) (fun _ nm₂ => Installed nm nm₂ tmp)
      (fun err nm₂ => Installed nm nm₂ tmp ∧ err.cls = .IndexError ∧
        ∀ n ∈ tmp.nodes.items, nm.server_type n ≠ some .PRIMARY) := by
  apply (firstPrimary_spec nm₁).mono
  · rintro n _ rfl
    exact h.1
  · rintro _ _ ⟨rfl, hcls, hno⟩
    exact ⟨h.1, hcls, fun n hn => h.1.server_type ▸ hno n (h.2 n hn)⟩

theorem mem_setNodes {old new : Nodes} {n : ClusterNode} (h : n ∈ new.items) (b : Bool) :
    n ∈ (Asyncio.NodesManager.setNodes old new b).items :=
  Keyed.mem_items_foldl_put new.nodup h _

theorem install_spec {P : Int → String → Prop} {master : String → Prop} (c : Variant)
    (nm : NodesManager) (tmp : Tmp) (hwf : nm.Wf) (hb : Building P master nm tmp) :
    Post ((c.install tmp.nodes tmp.slots).run nm)
      (fun _ nm' => Installed nm nm' tmp ∧ nm'.moved_exception = none)
      (fun err nm' => Installed nm nm' tmp ∧ err.cls = .IndexError ∧
        ∀ n ∈ tmp.nodes.items, nm.server_type n ≠ some .PRIMARY) := by
  have hwf₀ := hb.wf hwf
  have hnodes : Made { nm with slots_cache := tmp.slots } tmp.nodes.items :=
    fun n hn => ⟨(hb.nodes n hn).id, (hb.nodes n hn).host⟩
  cases c with
  | sync =>
    unfold Variant.install Sync.NodesManager.install
    have hread : (nm.dicts.alloc tmp.nodes).2.read nm.dicts.next = tmp.nodes :=
      Heap.read_alloc_self nm.dicts tmp.nodes
    apply Post.bind (Q := fun _ nm₁ => Filled nm nm₁ tmp)
    · apply Post.modify
      refine ⟨⟨hwf₀.dicts_write hnodes rfl rfl rfl rfl fun r => ?_, rfl, rfl,
        rfl, rfl⟩, fun n hn => ?_⟩
      · by_cases hr : r = nm.dicts.next
        · exact .inr (hr ▸ hread)
        · exact .inl (by simp [Heap.read, Heap.alloc, hr])
      · rw [nodesCache, Heap.alloc_fst, hread]
        exact hn
    · intro _ nm₁ h₁
      apply Post.bind h₁.firstPrimary
      intro n nm₂ h₂
      exact Post.modify ⟨⟨h₂.wf.same rfl rfl rfl rfl rfl, h₂.slots_cache,
        h₂.lists, h₂.server_type, h₂.settings⟩, rfl⟩
  | asyncio =>
    unfold Variant.install Asyncio.NodesManager.install setNodesCache
    apply Post.bind (Q := fun _ nm₁ => nm₁ = { nm with slots_cache := tmp.slots })
    · exact Post.modify rfl
    rintro _ _ rfl
    apply Post.get_bind
    apply Post.bind (Q := fun _ nm₂ => Filled nm nm₂ tmp)
    · refine Post.modify ⟨⟨hwf₀.writeDict _ (made_setNodes true (hwf₀.dicts _) hnodes), rfl, rfl, rfl,
        rfl⟩, fun n hn => ?_⟩
      rw [nodesCache, Heap.read_write_self]
      exact mem_setNodes hn true
    rintro _ nm₂ ⟨h₂, hn₂⟩
    apply Post.bind (Q := fun _ nm₃ => Filled nm nm₃ tmp)
    · refine Post.modify ⟨⟨h₂.wf.writeDict _ (made_setNodes true (h₂.wf.dicts _) (h₂.wf.dicts _)),
        h₂.slots_cache, h₂.lists, h₂.server_type, h₂.settings⟩, fun n hn => ?_⟩
      -- the dictionary of the startup nodes may be `nodes_cache` itself
      by_cases hr : nm₂.nodes_cache = nm₂.startup_nodes
      · rw [nodesCache, hr, Heap.read_write_self]
        exact mem_setNodes (hn₂ n hn) true
      · rw [nodesCache, Heap.read_write_ne _ _ hr]
        exact hn₂ n hn
    intro _ nm₃ h₃
    apply Post.bind h₃.firstPrimary
    intro n nm₄ h₄
    exact Post.modify ⟨⟨h₄.wf.same rfl rfl rfl rfl rfl, h₄.slots_cache,
      h₄.lists, h₄.server_type, h₄.settings⟩, rfl⟩

/-! ### The whole call -/

theorem checkSlotsCoverage_iff {slots : Dict Int Ref} :
    checkSlotsCoverage slots = true ↔ ∀ i < REDIS_CLUSTER_HASH_SLOTS, (i : Int) ∈ slots.keys := by
  simp [checkSlotsCoverage, Keyed.contains_iff]

theorem checkSlotsCoverage_empty : checkSlotsCoverage ∅ = false := by
  rw [Bool.eq_false_iff]
  intro h
  have := checkSlotsCoverage_iff.mp h 0 (by decide)
  simp [Keyed.keys, EmptyCollection.emptyCollection] at this

theorem isSome_slotNodes {nm : NodesManager} {i : Int} :
    (nm.slotNodes i).isSome ↔ i ∈ nm.slots_cache.keys := by
  rw [slotNodes, Option.isSome_map]
  exact Keyed.contains_iff

/-- What `initialize` leaves behind when it raises nothing. -/
structure Initialized (P : Int → String → Prop) (C : Int → Prop) (nm nm' : NodesManager) : Prop where
  wf : nm'.Wf
  settings : nm'.toSettings = nm.toSettings
  moved : nm'.moved_exception = none
  primary : ∀ i nodes, nm'.slotNodes i = some nodes → ∃ h tl, nodes = h :: tl ∧ P i h.name
  covers : ∀ i, C i → (nm'.slotNodes i).isSome
  startup : nm.startupNodes.items ≠ []
  full : nm.require_full_coverage = true →
    ∀ i < REDIS_CLUSTER_HASH_SLOTS, (nm'.slotNodes (i : Int)).isSome

inductive Failure (P : Int → String → Prop) (C : Int → Prop) (master : String → Prop)
    (nm : NodesManager) (cluster_slots : ClusterSlots) (err : Exc) : Prop
  | disagree (h : Disagree P err)
  | silent (h : Silent cluster_slots)
  | noStartup (hcls : err.cls = .RedisClusterException) (h : nm.startupNodes.items = [])
  | uncovered (hcls : err.cls = .RedisClusterException) (h : nm.require_full_coverage = true)
      (i : Nat) (hi : i < REDIS_CLUSTER_HASH_SLOTS) (hC : ¬ C i)
  | noPrimary (hcls : err.cls = .IndexError) (h : ∀ i, C i → ∃ x, P i x ∧ ¬ master x)

theorem Building.noPrimary {P : Int → String → Prop} {master : String → Prop} {nm : NodesManager}
    {tmp : Tmp} (hb : Building P master nm tmp)
    (hno : ∀ n ∈ tmp.nodes.items, nm.server_type n ≠ some .PRIMARY) {i : Int}
    (hi : i ∈ tmp.slots.keys) : ∃ x, P i x ∧ ¬ master x := by
  obtain ⟨entry, hentry, rfl⟩ := List.mem_map.mp hi
  obtain ⟨-, h, tl, -, -, hP, hkey⟩ := hb.slots entry hentry
  obtain ⟨n, hn, hname⟩ := List.mem_map.mp hkey
  refine ⟨h.name, hP, fun hm => hno n hn ?_⟩
  exact hb.masters n hn (hname ▸ hm)

theorem initializeNodes_eq (c : Variant) :
    c.initializeNodes =
      initializeWith c.getOrCreateClusterNode c.loneHost c.connect c.createRedisConnections
        c.install := by
  cases c <;> rfl

/-- What `initialize` does of what the startup nodes tell. -/
theorem initializeNodes_spec {P : Int → String → Prop} {C : Int → Prop} {master : String → Prop}
    (c : Variant) (cluster_slots : ClusterSlots) (nm : NodesManager) (hwf : nm.Wf)
    (ht : Truthful P C master nm.toSettings cluster_slots) :
    Post ((c.initializeNodes cluster_slots).run nm) (fun _ nm' => Initialized P C nm nm')
      (fun err nm' => nm'.Wf ∧ nm'.toSettings = nm.toSettings ∧
        Failure P C master nm cluster_slots err) := by
  rw [initializeNodes_eq]
  unfold initializeWith
  let nm₀ : NodesManager := { nm with read_load_balancer := nm.read_load_balancer.reset }
  have he₀ : Extends nm nm₀ :=
    ⟨Nat.le_refl _, Nat.le_refl _, fun _ _ => rfl, rfl, rfl, rfl, rfl, rfl⟩
  have hempty : Scanned P C master nm₀ {} false false :=
    ⟨⟨made_nil nm₀, fun n hn => absurd hn (by simp [EmptyCollection.emptyCollection]),
      fun n hn => absurd hn (by simp [EmptyCollection.emptyCollection])⟩, by simp,
      checkSlotsCoverage_empty.symm⟩
  apply Post.bind (Q := fun _ nm₁ => nm₁ = nm₀)
  · exact Post.modify rfl
  rintro _ _ rfl
  apply Post.get_bind
  apply Post.bind ((scanStartupNodes_spec c _ cluster_slots nm₀ nm₀.startupNodes.items {} false none
    (he₀.wf hwf) ht hempty).mono (fun _ _ h => h) _)
  swap
  · rintro _ nm₁ ⟨he, hd⟩
    exact ⟨(he₀.trans he).wf hwf, (he₀.trans he).settings, hd.elim .disagree .silent⟩
  rintro ⟨tmp, reachable, fully_covered, exception⟩ nm₁ ⟨he, hscan, hnil, hcons⟩
  have he₁ := he₀.trans he
  apply Post.ite
  · intro hr
    refine ⟨he₁.wf hwf, he₁.settings, ?_⟩
    by_cases hns : nm₀.startupNodes.items = []
    · exact .noStartup rfl hns
    · exact (hcons hns).elim (fun h => absurd h (by simpa using hr)) .silent
  intro hr
  have hreach : reachable = true := by simpa using hr
  have hC := hscan.covers hreach
  have hns : nm.startupNodes.items ≠ [] := by
    intro h
    have := hnil h
    simp_all
  obtain ⟨nm₂, hrun₂, h₂⟩ := createRedisConnections_spec c nm₁ tmp.nodes
  have he₂ := he₁.trans h₂.ext
  have hb₂ := hscan.building.connected h₂
  have hfull := hscan.fully_covered
  dsimp only at hfull
  simp only [EStateM.run_bind, hrun₂, EStateM.run_get]
  apply Post.ite
  · intro hu
    simp only [he₂.settings, hfull, Bool.and_eq_true, Bool.not_eq_true'] at hu
    refine ⟨he₂.wf hwf, he₂.settings, ?_⟩
    obtain ⟨i, hi, hnot⟩ : ∃ i < REDIS_CLUSTER_HASH_SLOTS, (i : Int) ∉ tmp.slots.keys := by
      by_contra hall
      push Not at hall
      rw [checkSlotsCoverage_iff.mpr hall] at hu
      exact absurd hu.1 (by simp)
    exact .uncovered rfl hu.2 i hi fun h => hnot (hC i h)
  intro hu
  apply (install_spec c nm₂ tmp (he₂.wf hwf) hb₂).mono
  · rintro _ nm₃ ⟨h₃, hm⟩
    have hkeys : ∀ i, (nm₃.slotNodes i).isSome ↔ i ∈ tmp.slots.keys :=
      fun i => h₃.slots_cache ▸ isSome_slotNodes
    refine ⟨h₃.wf, h₃.settings.trans he₂.settings, hm, fun i nodes hi => ?_,
      fun i hi => (hkeys i).mpr (hC i hi), hns, fun hreq i hi => ?_⟩
    · obtain ⟨entry, hentry, rfl⟩ := Option.map_eq_some_iff.mp hi
      obtain ⟨hmem, rfl⟩ := Keyed.get?_eq_some.mp (h₃.slots_cache ▸ hentry)
      obtain ⟨-, h, tl, hread, -, hP, -⟩ := hb₂.slots entry hmem
      exact ⟨h, tl, h₃.lists ▸ hread, hP⟩
    · have hcov : checkSlotsCoverage tmp.slots = true := by
        simpa [he₂.settings, hfull, hreq] using hu
      exact (hkeys i).mpr (checkSlotsCoverage_iff.mp hcov i hi)
  · rintro _ nm₃ ⟨h₃, hcls, hno⟩
    exact ⟨h₃.wf, h₃.settings.trans he₂.settings,
      .noPrimary hcls fun i hi => hb₂.noPrimary hno (hC i hi)⟩

end RedisPy
