import RedisPy.Proofs.TopologyFrame

/-! What the answers to `CLUSTER SLOTS` come to, told in names alone: who is announced
in which role first, who is the first primary of each slot, how often the startup nodes
disagree. The loop of the sync `initialize` does what the survey says. -/

namespace RedisPy

open NodesManager Raising

/-- What has been announced so far. -/
structure Survey where
  /-- The startup nodes asked. -/
  asked : List ClusterNode := []
  /-- The entries of their replies, each with the node that sent it. -/
  ranges : List (ClusterNode × SlotRange) := []
  /-- The role in which each node was announced first. -/
  roles : Dict String ServerType := ∅
  /-- A node of the old topology that is kept was announced in another role than its own. -/
  clash : Bool := false
  disagreements : Nat := 0
  /-- The entries, each with the role that its primary has: the first announced. -/
  leads : List (SlotRange × ServerType) := []

namespace Survey

/-- The node of the old topology that is kept for an address: it has a client. -/
def kept (nm : NodesManager) (s : Survey) (name : String) : Option ClusterNode :=
  (nm.nodesCache.get? name).filter fun n => nm.redis_connection n || n ∈ s.asked

def announce (nm : NodesManager) (role : ServerType) (s : Survey) (a : String × Int) : Survey :=
  let name := getNodeName (nm.remapHostPort a).1 (nm.remapHostPort a).2
  if s.roles.contains name then s
  else
    { s with
      roles := s.roles.put (nm.storedName a, role)
      clash := s.clash || (s.kept nm name).any fun n => nm.server_type n ≠ some role }

/-- The role of the node stored for an address that is announced in `role`. -/
def roleOf (nm : NodesManager) (role : ServerType) (s : Survey) (a : String × Int) : ServerType :=
  match s.roles.get? (getNodeName (nm.remapHostPort a).1 (nm.remapHostPort a).2) with
  | some entry => entry.2
  | none => role

/-- The role of the primary first announced for a slot. -/
def headRole (leads : List (SlotRange × ServerType)) (i : Int) : Option ServerType :=
  (leads.find? fun r => i ∈ slotsOf r.1).map Prod.snd

/-- The name of the primary first announced for a slot. -/
def owner (nm : NodesManager) (ranges : List (ClusterNode × SlotRange)) (i : Int) : Option String :=
  (ranges.find? fun r => i ∈ slotsOf r.2).map fun r => nm.storedName (primaryAddr r.1 r.2)

/-- The slots of an entry that have another primary already. -/
def disputed (nm : NodesManager) (s : Survey) (n : ClusterNode) (e : SlotRange) : List Int :=
  (slotsOf e).filter fun i =>
    (owner nm s.ranges i).any fun name => name ≠ nm.storedName (primaryAddr n e)

/-- One entry of a reply of `n`. -/
def range (nm : NodesManager) (n : ClusterNode) (s : Survey) (e : SlotRange) : Survey :=
  { (e.replicas.map replyAddr).foldl (announce nm .REPLICA)
      (s.announce nm .PRIMARY (primaryAddr n e)) with
    ranges := s.ranges ++ [(n, e)]
    disagreements := s.disagreements + (s.disputed nm n e).length
    leads := s.leads ++ [(e, s.roleOf nm .PRIMARY (primaryAddr n e))] }

/-- A reply of `n`, as far as the entry that makes the sixth disagreement. -/
def reply (nm : NodesManager) (n : ClusterNode) : List SlotRange → Survey → Survey × Bool
  | [], s => (s, true)
  | e :: es, s =>
    let s := s.range nm n e
    if 5 < s.disagreements then (s, false) else reply nm n es s

def covered (nm : NodesManager) (s : Survey) : Bool :=
  (List.range' 0 REDIS_CLUSTER_HASH_SLOTS).all fun i => (owner nm s.ranges i).isSome

end Survey

inductive Verdict where
  /-- Asking a node raised what is no `Exception`. -/
  | raised
  /-- A reply has one range, whose primary has no host. -/
  | nameless (s : Survey)
  /-- The startup nodes could not agree. -/
  | disagreed (s : Survey)
  | surveyed (s : Survey) (reachable fully_covered : Bool)

/-- The survey of the startup nodes, `count` in all. -/
def survey (nm : NodesManager) (cluster_slots : ClusterSlots) (count : Nat) :
    List ClusterNode → Survey → Bool → Verdict
  | [], s, reachable => .surveyed s reachable false
  | n :: ns, s, reachable =>
    let s := { s with asked := s.asked ++ [n] }
    match askClusterSlots cluster_slots n with
    | .error e =>
      if e.isinstance .Exception then survey nm cluster_slots count ns s reachable else .raised
    | .ok reply =>
      match Sync.NodesManager.loneHost count n reply with
      | .error _ => .nameless s
      | .ok reply =>
        match s.reply nm n reply with
        | (s, false) => .disagreed s
        | (s, true) =>
          if s.covered nm then .surveyed s true true else survey nm cluster_slots count ns s true

/-! ### What the loop has built, and what the survey says -/

/-- The nodes of the new topology are those announced, in the roles announced first, and
the old nodes have their types but for the clashes. -/
structure Announced (nm nm' : NodesManager) (nodes : Nodes) (s : Survey) : Prop where
  ext : Extends nm nm'
  connections : ∀ n, nm'.redis_connection n = (nm.redis_connection n || decide (n ∈ s.asked))
  made : Made nm' nodes.items
  keys : ∀ k, k ∈ nodes.keys ↔ k ∈ s.roles.keys
  types : ∀ n ∈ nodes.items, ∃ role, (n.name, role) ∈ s.roles.items ∧ nm'.server_type n = some role
  fresh : ∀ n ∈ nm.nodesCache.items, n.name ∉ s.roles.keys → nm'.server_type n = nm.server_type n
  others : ∀ n, nm.IsNode n → n ∉ nm.nodesCache.items → nm'.server_type n = nm.server_type n
  clash : s.clash = true ↔ ∃ n ∈ nm.nodesCache.items, nm'.server_type n ≠ nm.server_type n

theorem Announced.reusable {nm nm' : NodesManager} {nodes : Nodes} {s : Survey} (name : String)
    (h : Announced nm nm' nodes s) : Sync.NodesManager.reusableNode nm' name = s.kept nm name := by
  have hcache : nm'.nodesCache = nm.nodesCache := by
    rw [nodesCache, nodesCache, h.ext.dicts, h.ext.nodes_cache]
  unfold Sync.NodesManager.reusableNode Survey.kept
  rw [hcache]
  congr 1
  funext n
  exact h.connections n

/-- A node that is stored for an address: the old one that is kept, or a new one. -/
theorem Announced.put {nm nm' nm'' : NodesManager} {nodes : Nodes} {s : Survey} {a : String × Int}
    {role : ServerType} {n : ClusterNode} (hwf : nm.Wf) (h : Announced nm nm' nodes s)
    (hname : getNodeName (nm.remapHostPort a).1 (nm.remapHostPort a).2 ∉ s.roles.keys)
    (hext : Extends nm' nm'') (hconn : nm''.redis_connection = nm'.redis_connection)
    (hnode : nm''.IsNode n) (hn : n.name = nm.storedName a) (hrole : nm''.server_type n = some role)
    (hst : ∀ m, m ≠ n → nm''.server_type m = nm'.server_type m)
    (hkept : s.kept nm (getNodeName (nm.remapHostPort a).1 (nm.remapHostPort a).2) = some n ∨
      s.kept nm (getNodeName (nm.remapHostPort a).1 (nm.remapHostPort a).2) = none ∧ ¬ nm.IsNode n) :
    Announced nm nm'' (nodes.put n) (s.announce nm role a) := by
  have hcontains : s.roles.contains (getNodeName (nm.remapHostPort a).1 (nm.remapHostPort a).2) =
      false := by
    rw [Bool.eq_false_iff]
    exact fun hc => hname (Keyed.contains_iff.mp hc)
  have hold : ∀ m ∈ nm.nodesCache.items, m = n →
      n.name = getNodeName (nm.remapHostPort a).1 (nm.remapHostPort a).2 := by
    rintro m hm rfl
    rcases hkept with hk | ⟨-, hno⟩
    · exact Keyed.key_of_get? (Option.filter_eq_some_iff.mp hk).1
    · exact absurd (hwf.dicts _ m hm) hno
  have hfresh : ∀ m ∈ nm.nodesCache.items, m = n → nm'.server_type n = nm.server_type n := by
    rintro m hm rfl
    exact h.fresh m hm fun hin => hname (hold m hm rfl ▸ hin)
  simp only [Survey.announce, hcontains, Bool.false_eq_true, if_false]
  refine ⟨h.ext.trans hext, ?_, (h.made.extends hext).put hnode, ?_, ?_, ?_, ?_, ?_⟩
  · intro m
    rw [hconn]
    exact h.connections m
  · intro k
    rw [Keyed.mem_keys_put, Keyed.mem_keys_put, h.keys, hn]
  · intro m hm
    rcases Keyed.mem_items_put.mp hm with rfl | ⟨hm, hne⟩
    · exact ⟨role, Keyed.mem_items_put.mpr (.inl (Prod.ext hn rfl)), hrole⟩
    · obtain ⟨role', hr, ht⟩ := h.types m hm
      refine ⟨role', Keyed.mem_items_put.mpr (.inr ⟨hr, fun he => hne (he.trans hn.symm)⟩), ?_⟩
      exact (hst m fun he => hne (he ▸ rfl)).trans ht
  · intro m hm hnot
    rw [Keyed.mem_keys_put, not_or] at hnot
    exact (hst m fun he => hnot.1 (he ▸ hn)).trans (h.fresh m hm hnot.2)
  · intro m hm hnot
    refine (hst m fun he => ?_).trans (h.others m hm hnot)
    subst he
    rcases hkept with hk | ⟨-, hno⟩
    · exact hnot (Keyed.mem_of_get? (Option.filter_eq_some_iff.mp hk).1)
    · exact hno hm
  · rw [Bool.or_eq_true, h.clash]
    constructor
    · rintro (⟨m, hm, hd⟩ | hany)
      · refine ⟨m, hm, fun he => hd ?_⟩
        by_cases hmn : m = n
        · rw [hmn]
          exact hfresh m hm hmn
        · exact (hst m hmn).symm.trans he
      · rcases hkept with hk | ⟨hk, -⟩
        · rw [hk, Option.any_some, decide_eq_true_eq] at hany
          exact ⟨n, Keyed.mem_of_get? (Option.filter_eq_some_iff.mp hk).1,
            fun he => hany (he.symm.trans hrole)⟩
        · rw [hk] at hany
          cases hany
    · rintro ⟨m, hm, hd⟩
      by_cases hmn : m = n
      · right
        have hk : s.kept nm (getNodeName (nm.remapHostPort a).1 (nm.remapHostPort a).2) = some n := by
          rcases hkept with hk | ⟨-, hno⟩
          · exact hk
          · exact absurd (hwf.dicts _ m hm) (hmn ▸ hno)
        rw [hk, Option.any_some, decide_eq_true_eq]
        intro he
        rw [hmn] at hd
        exact hd (hrole.trans he.symm)
      · exact .inl ⟨m, hm, fun he => hd ((hst m hmn).trans he)⟩

/-- The nodes announced so far keep their types. -/
def Settled (s : Survey) (nm nm' : NodesManager) : Prop :=
  ∀ m, nm.IsNode m → m.name ∈ s.roles.keys → nm'.server_type m = nm.server_type m

/-- The node found or made for an address is among the new nodes, in its first role. -/
structure Placed (nm nm' : NodesManager) (nodes : Nodes) (s : Survey) (a : String × Int)
    (role : ServerType) (n : ClusterNode) : Prop where
  isNode : nm'.IsNode n
  name : n.name = nm.storedName a
  stored : n ∈ nodes.items
  type : nm'.server_type n = some (s.roleOf nm role a)

theorem Survey.announce_keys (nm : NodesManager) (role : ServerType) (s : Survey) (a : String × Int)
    {k : String} (hk : k ∈ s.roles.keys) : k ∈ (s.announce nm role a).roles.keys := by
  unfold announce
  dsimp only
  split
  · exact hk
  · exact Keyed.mem_keys_put.mpr (.inr hk)

/-- A node is found or made for an address as the survey notes it. -/
theorem announce_spec {nm nm' : NodesManager} {nodes : Nodes} {s : Survey} (a : String × Int)
    (role : ServerType) (hwf : nm.Wf) (h : Announced nm nm' nodes s) :
    ∃ n nodes' nm'', (Sync.NodesManager.getOrCreateClusterNode (nm'.remapHostPort a) role nodes).run nm' =
        .ok (n, nodes') nm'' ∧ Extends nm' nm'' ∧ Placed nm nm'' nodes' s a role n ∧
      Settled s nm' nm'' ∧ Announced nm nm'' nodes' (s.announce nm role a) := by
  have hset := h.ext.settings
  have hremap : nm'.remapHostPort a = nm.remapHostPort a := by rw [hset]
  have hstored : ∀ n : ClusterNode, n.name = getNodeName (nm'.resolveHost (nm.remapHostPort a).1)
      (nm.remapHostPort a).2 → n.name = nm.storedName a := fun n hn => by
    rw [hn, hset]
    rfl
  rw [hremap]
  cases hk : nodes.get? (getNodeName (nm.remapHostPort a).1 (nm.remapHostPort a).2) with
  | some n =>
    have hmem := Keyed.mem_of_get? hk
    have hin : getNodeName (nm.remapHostPort a).1 (nm.remapHostPort a).2 ∈ s.roles.keys :=
      (h.keys _).mp (Keyed.key_of_get? hk ▸ List.mem_map_of_mem hmem)
    have hrole : nm'.server_type n = some (s.roleOf nm role a) := by
      obtain ⟨first, hfirst, ht⟩ := h.types n hmem
      have hget : s.roles.get? n.name = some (n.name, first) := Keyed.get?_of_mem hfirst
      rw [ht, Survey.roleOf, ← Keyed.key_of_get? hk, hget]
    refine ⟨n, nodes, nm', ?_, .refl nm', ⟨h.made n hmem,
      hstored n ((h.made n hmem).name_eq (Keyed.key_of_get? hk)), hmem, hrole⟩, fun _ _ _ => rfl, ?_⟩
    · simp [Sync.NodesManager.getOrCreateClusterNode, hk]
    · rwa [Survey.announce, if_pos (Keyed.contains_iff.mpr hin)]
  | none =>
    have hnot : getNodeName (nm.remapHostPort a).1 (nm.remapHostPort a).2 ∉ s.roles.keys :=
      fun hin => Keyed.get?_eq_none.mp hk ((h.keys _).mpr hin)
    have hfirst : s.roleOf nm role a = role := by
      rw [Survey.roleOf, Keyed.get?_eq_none.mpr hnot]
    have hstays : ∀ n : ClusterNode, n.name = getNodeName (nm.remapHostPort a).1 (nm.remapHostPort a).2 →
        ∀ m : ClusterNode, m.name ∈ s.roles.keys → m ≠ n := by
      intro n hn m hm he
      exact hnot (hn ▸ he ▸ hm)
    have hkept := h.reusable (getNodeName (nm.remapHostPort a).1 (nm.remapHostPort a).2)
    cases hr : Sync.NodesManager.reusableNode nm'
      (getNodeName (nm.remapHostPort a).1 (nm.remapHostPort a).2) with
    | some n =>
      rw [hr] at hkept
      obtain ⟨hmem, hkey⟩ := Keyed.get?_eq_some.mp (Option.filter_eq_some_iff.mp hr).1
      have hnode : nm'.IsNode n := (h.ext.wf hwf).dicts nm'.nodes_cache n hmem
      have hname := hstored n (hnode.name_eq hkey)
      by_cases ht : nm'.server_type n = some role
      · refine ⟨n, nodes.put n, nm', ?_, .refl nm',
          ⟨hnode, hname, Keyed.mem_items_put.mpr (.inl rfl), by rw [hfirst]; exact ht⟩, fun _ _ _ => rfl,
          h.put hwf hnot (.refl nm') rfl hnode hname ht (fun _ _ => rfl) (.inl hkept.symm)⟩
        simp [Sync.NodesManager.getOrCreateClusterNode, hk, hr, ht]
      · have hext := setServerType_extends nm' n role
        refine ⟨n, nodes.put n, _, ?_, hext, ⟨hext.isNode hnode, hname,
          Keyed.mem_items_put.mpr (.inl rfl), by rw [hfirst]; exact Function.update_self ..⟩,
          fun m _ hm => Function.update_of_ne (hstays n hkey m hm) .., h.put hwf hnot hext rfl (hext.isNode hnode) hname (Function.update_self ..)
            (fun m hm => Function.update_of_ne hm ..) (.inl hkept.symm)⟩
        simp [Sync.NodesManager.getOrCreateClusterNode, hk, hr, ht, setServerType]
    | none =>
      rw [hr] at hkept
      obtain ⟨n, nm'', hrun, hext, -, hid, hnode, hname, ht, hst⟩ :=
        newClusterNode_spec nm' (nm.remapHostPort a).1 (nm.remapHostPort a).2 role
      have hconn : nm''.redis_connection = nm'.redis_connection := by
        cases hrun
        rfl
      have hnew : ¬ nm.IsNode n := fun hold => by
        have := hold.id
        have := h.ext.nextNode
        omega
      refine ⟨n, nodes.put n, nm'', ?_, hext, ⟨hnode, hstored n hname,
        Keyed.mem_items_put.mpr (.inl rfl), by rw [hfirst]; exact ht⟩, fun m hm _ => hst m fun he => ?_,
        h.put hwf hnot hext hconn hnode (hstored n hname) ht hst (.inr ⟨hkept.symm, hnew⟩)⟩
      · simp only [Sync.NodesManager.getOrCreateClusterNode, hk, EStateM.run_bind, EStateM.run_get,
          hr, hrun]
        simp [ht]
      · have := hm.id
        rw [he, hid] at this
        exact absurd this (Nat.lt_irrefl _)

theorem addReplicas_announced {nm nm' : NodesManager} {nodes : Nodes} {s : Survey}
    (addrs : List (Option String × Int)) (hwf : nm.Wf) (h : Announced nm nm' nodes s) :
    ∃ ns nodes' nm'', (addReplicas Sync.NodesManager.getOrCreateClusterNode addrs nodes).run nm' =
        .ok (ns, nodes') nm'' ∧ Extends nm' nm'' ∧ Settled s nm' nm'' ∧
      (∀ k ∈ s.roles.keys, k ∈ nodes'.keys) ∧ (∀ n ∈ ns, n.name ∈ nodes'.keys) ∧
      Announced nm nm'' nodes' ((addrs.map replyAddr).foldl (Survey.announce nm .REPLICA) s) := by
  induction addrs generalizing nm' nodes s with
  | nil =>
    exact ⟨[], nodes, nm', rfl, .refl nm', fun _ _ _ => rfl, fun k => (h.keys k).mpr,
      fun _ hn => absurd hn (by simp), h⟩
  | cons a addrs ih =>
    obtain ⟨n, nodes₁, nm₁, hrun, he, hn, hset, h₁⟩ :=
      announce_spec (replyAddr a) .REPLICA hwf h
    obtain ⟨ns, nodes₂, nm₂, hrun₂, he₂, hset₂, hkeys, hstored, h₂⟩ := ih h₁
    have hkey : n.name ∈ nodes₂.keys :=
      hkeys _ ((h₁.keys _).mp (List.mem_map_of_mem hn.stored))
    refine ⟨n :: ns, nodes₂, nm₂, ?_, he.trans he₂, fun m hm hk => ?_,
      fun k hk => hkeys k (s.announce_keys nm .REPLICA (replyAddr a) hk),
      List.forall_mem_cons.mpr ⟨hkey, hstored⟩, h₂⟩
    · simp only [addReplicas, EStateM.run_bind, EStateM.run_get, hrun, hrun₂, EStateM.run_pure]
    · exact (hset₂ m (he.isNode hm) (s.announce_keys nm .REPLICA (replyAddr a) hk)).trans (hset m hm hk)

/-! ### The slots -/

/-- The nodes of a slot in the new topology. -/
def slotList (nm : NodesManager) (tmp : Tmp) (i : Int) : Option (List ClusterNode) :=
  (tmp.slots.get? i).map fun entry => nm.lists.read entry.2

/-- The primary of a slot in the new topology. -/
def slotHead (nm : NodesManager) (tmp : Tmp) (i : Int) : Option ClusterNode :=
  (slotList nm tmp i).bind List.head?

def slotOwner (nm : NodesManager) (tmp : Tmp) (i : Int) : Option String :=
  (slotHead nm tmp i).map ClusterNode.name

/-- The slots that have another primary already. -/
def disputes (nm : NodesManager) (tmp : Tmp) (name : String) (is : List Int) : List Int :=
  is.filter fun i => (slotOwner nm tmp i).any fun other => other ≠ name

theorem disputes_congr {nm : NodesManager} {tmp tmp' : Tmp} {name : String} {is : List Int}
    (h : ∀ i ∈ is, slotOwner nm tmp' i = slotOwner nm tmp i) :
    disputes nm tmp' name is = disputes nm tmp name is :=
  List.filter_congr fun i hi => by rw [h i hi]

section Slot

variable {nm : NodesManager} {tmp : Tmp} {i : Int}

theorem slotList_none (hget : tmp.slots.get? i = none) : slotList nm tmp i = none := by
  rw [slotList, hget, Option.map_none]

theorem slotList_some {entry : Int × Ref} (hget : tmp.slots.get? i = some entry) :
    slotList nm tmp i = some (nm.lists.read entry.2) := by
  rw [slotList, hget, Option.map_some]

theorem slotOwner_of_slotList {l : Option (List ClusterNode)} (h : slotList nm tmp i = l) :
    slotOwner nm tmp i = (l.bind List.head?).map ClusterNode.name := by
  rw [slotOwner, slotHead, h]

theorem slotList_put {r : Ref} {l : List ClusterNode} (hr : nm.lists.read r = l) (j : Int) :
    slotList nm { tmp with slots := tmp.slots.put (i, r) } j =
      if j = i then some l else slotList nm tmp j := by
  simp only [slotList, Keyed.get?_put]
  split
  · simp [hr]
  · rfl

/-- A slot without a primary is in no dispute, nor are the others when it is given one. -/
theorem disputes_put {r : Ref} {l : List ClusterNode} (hr : nm.lists.read r = l) {name : String}
    {is : List Int} (hi : i ∉ is) (hlist : slotList nm tmp i = none) :
    disputes nm { tmp with slots := tmp.slots.put (i, r) } name is = disputes nm tmp name (i :: is) := by
  have hsame : ∀ j ∈ is, slotOwner nm { tmp with slots := tmp.slots.put (i, r) } j =
      slotOwner nm tmp j := by
    intro j hj
    rw [slotOwner_of_slotList (slotList_put hr j), if_neg (ne_of_mem_of_not_mem hj hi)]
    rfl
  have howner : slotOwner nm tmp i = none := slotOwner_of_slotList hlist
  rw [disputes_congr hsame]
  simp [disputes, howner]

theorem length_disputes_of_ne {other name : String} (howner : slotOwner nm tmp i = some other)
    (hne : other ≠ name) (is : List Int) :
    (disputes nm tmp name (i :: is)).length = 1 + (disputes nm tmp name is).length := by
  simp [disputes, howner, hne, Nat.add_comm]

theorem disputes_of_eq {name : String} (howner : slotOwner nm tmp i = some name) (is : List Int) :
    disputes nm tmp name (i :: is) = disputes nm tmp name is := by
  simp [disputes, howner]

/-- A slot that has nodes keeps them. -/
theorem or_of_slotList {l : List ClusterNode} (hlist : slotList nm tmp i = some l)
    (is : List Int) (l' : List ClusterNode) (j : Int) :
    (slotList nm tmp j).or (if j ∈ is then some l' else none) =
      (slotList nm tmp j).or (if j ∈ i :: is then some l' else none) := by
  by_cases hj : j = i
  · rw [hj, hlist]
    rfl
  · simp only [List.mem_cons, hj, false_or]

/-- The first of the nodes, where new ones are given to the slots without any. -/
theorem slotHead_or {nm' : NodesManager} {tmp' : Tmp} {is : List Int} {p : ClusterNode}
    {tl : List ClusterNode}
    (hfilled : slotList nm' tmp' i = (slotList nm tmp i).or (if i ∈ is then some (p :: tl) else none))
    (hne : ∀ nodes, slotList nm tmp i = some nodes → nodes ≠ []) :
    slotHead nm' tmp' i = (slotHead nm tmp i).or (if i ∈ is then some p else none) := by
  rw [slotHead, hfilled, slotHead]
  cases hl : slotList nm tmp i with
  | none => split <;> rfl
  | some nodes =>
    obtain ⟨q, tl', hq⟩ := List.exists_cons_of_ne_nil (hne nodes hl)
    rw [hq]
    rfl

end Slot

theorem fillSlots_owner {nm : NodesManager} {h : ClusterNode} {tl : List ClusterNode} {r : Ref}
    (hr : nm.lists.read r = h :: tl) (is : List Int) (hnodup : is.Nodup) (tmp : Tmp)
    (hne : ∀ entry ∈ tmp.slots.items, nm.lists.read entry.2 ≠ [])
    (hcount : tmp.disagreements.length ≤ 5) :
    Post ((fillSlots h r is tmp).run nm)
      (fun tmp' nm' => nm' = nm ∧ tmp'.nodes = tmp.nodes ∧
        (∀ i, slotList nm tmp' i =
          (slotList nm tmp i).or (if i ∈ is then some (h :: tl) else none)) ∧
        tmp'.disagreements.length =
          tmp.disagreements.length + (disputes nm tmp h.name is).length ∧
        tmp'.disagreements.length ≤ 5)
      (fun err nm' => nm' = nm ∧ err.cls = .RedisClusterException ∧
        5 < tmp.disagreements.length + (disputes nm tmp h.name is).length) := by
  induction is generalizing tmp with
  | nil => exact ⟨rfl, rfl, fun i => by simp, rfl, hcount⟩
  | cons i is ih =>
    obtain ⟨hi, hnodup'⟩ := List.nodup_cons.mp hnodup
    unfold fillSlots
    cases hget : tmp.slots.get? i with
    | none =>
      have hlist : slotList nm tmp i = none := slotList_none hget
      have hdis : disputes nm { tmp with slots := tmp.slots.put (i, r) } h.name is =
          disputes nm tmp h.name (i :: is) := disputes_put hr hi hlist
      have hne' : ∀ entry ∈ (tmp.slots.put (i, r)).items, nm.lists.read entry.2 ≠ [] := by
        intro entry hentry
        rcases Keyed.mem_items_put.mp hentry with rfl | ⟨hentry, -⟩
        · simp [hr]
        · exact hne entry hentry
      apply (ih hnodup' { tmp with slots := tmp.slots.put (i, r) } hne' hcount).mono
      · rintro tmp' nm' ⟨rfl, hnodes, hslots, hlen, hle⟩
        rw [hdis] at hlen
        refine ⟨rfl, hnodes, fun j => ?_, hlen, hle⟩
        rw [hslots, slotList_put hr]
        by_cases hj : j = i
        · rw [if_pos hj, hj, hlist, if_pos List.mem_cons_self]
          rfl
        · rw [if_neg hj]
          simp only [List.mem_cons, hj, false_or]
      · rintro err nm' ⟨rfl, hcls, hlt⟩
        rw [hdis] at hlt
        exact ⟨rfl, hcls, hlt⟩
    | some entry =>
      obtain ⟨p, tl', hp⟩ := List.exists_cons_of_ne_nil (hne entry (Keyed.mem_of_get? hget))
      have hlist : slotList nm tmp i = some (p :: tl') := by rw [slotList_some hget, hp]
      have howner : slotOwner nm tmp i = some p.name := slotOwner_of_slotList hlist
      have hitem : (item (nm.lists.read entry.2) 0).run nm = .ok p nm := by simp [item, hp]
      have hslots := or_of_slotList hlist is (h :: tl)
      simp only [EStateM.run_bind, EStateM.run_get, hitem]
      split
      · rename_i hdiff
        have hdis := length_disputes_of_ne howner hdiff is
        apply Post.ite
        · intro hlt
          simp only [List.length_append, List.length_singleton] at hlt
          exact ⟨rfl, rfl, by omega⟩
        · intro hle
          simp only [List.length_append, List.length_singleton, not_lt] at hle
          have hle' : (tmp.disagreements ++
              [p.name ++ " vs " ++ h.name ++ " on slot: " ++ toString i]).length ≤ 5 := by
            rw [List.length_append, List.length_singleton]
            exact hle
          apply (ih hnodup' { tmp with disagreements := tmp.disagreements ++
            [p.name ++ " vs " ++ h.name ++ " on slot: " ++ toString i] } hne hle').mono
          · rintro tmp' nm' ⟨rfl, hnodes, hown, hlen, hle'⟩
            refine ⟨rfl, hnodes, fun j => (hown j).trans (hslots j), ?_, hle'⟩
            simp only [List.length_append, List.length_singleton] at hlen
            rw [hlen, hdis]
            exact Nat.add_assoc _ _ _
          · rintro err nm' ⟨rfl, hcls, hlt⟩
            simp only [List.length_append, List.length_singleton] at hlt
            refine ⟨rfl, hcls, ?_⟩
            rw [hdis]
            exact (Nat.add_assoc _ _ _) ▸ hlt
      · rename_i hsame
        have heq : p.name = h.name := by simpa using hsame
        rw [disputes_of_eq (heq ▸ howner)]
        apply (ih hnodup' tmp hne hcount).mono
        · rintro tmp' nm' ⟨rfl, hnodes, hown, hrest⟩
          exact ⟨rfl, hnodes, fun j => (hown j).trans (hslots j), hrest⟩
        · exact fun _ _ h => h

/-- The new topology says of the slots what the survey says, and has noted as many
disagreements. -/
structure Surveyed (nm nm' : NodesManager) (tmp : Tmp) (s : Survey) : Prop where
  announced : Announced nm nm' tmp.nodes s
  building : Building (fun _ _ => True) (fun _ => False) nm' tmp
  owners : ∀ i, slotOwner nm' tmp i = Survey.owner nm s.ranges i
  listed : ∀ i nodes, slotList nm' tmp i = some nodes → ∀ n ∈ nodes, n.name ∈ s.roles.keys
  heads : ∀ i, (slotHead nm' tmp i).map nm'.server_type = (Survey.headRole s.leads i).map some
  count : tmp.disagreements.length = s.disagreements
  agrees : s.disagreements ≤ 5

theorem Surveyed.nonempty {nm nm' : NodesManager} {tmp : Tmp} {s : Survey}
    (h : Surveyed nm nm' tmp s) : ∀ entry ∈ tmp.slots.items, nm'.lists.read entry.2 ≠ [] := by
  intro entry hentry
  obtain ⟨-, p, tl, hread, -⟩ := h.building.slots entry hentry
  rw [hread]
  exact List.cons_ne_nil p tl

/-- A primary of the new topology is among the nodes announced. -/
theorem Surveyed.head_stored {nm nm' : NodesManager} {tmp : Tmp} {s : Survey} {i : Int}
    {m : ClusterNode} (h : Surveyed nm nm' tmp s) (hi : slotHead nm' tmp i = some m) :
    nm'.IsNode m ∧ m.name ∈ s.roles.keys := by
  obtain ⟨nodes, hnodes, hm⟩ := Option.bind_eq_some_iff.mp hi
  obtain ⟨entry, hget, rfl⟩ := Option.map_eq_some_iff.mp hnodes
  obtain ⟨-, p, tl, hread, hmade, -, hkey⟩ := h.building.slots entry (Keyed.mem_of_get? hget)
  rw [hread] at hm
  obtain rfl : p = m := Option.some.inj hm
  exact ⟨hmade p List.mem_cons_self, (h.announced.keys _).mp hkey⟩

theorem Survey.owner_append (nm : NodesManager) (ranges : List (ClusterNode × SlotRange))
    (n : ClusterNode) (e : SlotRange) (i : Int) :
    owner nm (ranges ++ [(n, e)]) i =
      (owner nm ranges i).or (if i ∈ slotsOf e then some (nm.storedName (primaryAddr n e)) else none) := by
  unfold owner
  rw [List.find?_append, Option.map_or]
  congr 1
  by_cases hi : i ∈ slotsOf e
  · simp [hi]
  · simp [hi]

theorem Survey.headRole_append (leads : List (SlotRange × ServerType)) (e : SlotRange)
    (role : ServerType) (i : Int) :
    headRole (leads ++ [(e, role)]) i =
      (headRole leads i).or (if i ∈ slotsOf e then some role else none) := by
  unfold headRole
  rw [List.find?_append, Option.map_or]
  congr 1
  by_cases hi : i ∈ slotsOf e
  · simp [hi]
  · simp [hi]

theorem slotsOf_nodup (e : SlotRange) : (slotsOf e).Nodup := by
  have heq : slotsOf e =
      (List.range (e.stop + 1 - e.start).toNat).map fun i : Nat => e.start + (i : Int) := by
    have hcoe : (List.range (e.stop + 1 - e.start).toNat).flatMap (fun a : Nat => [(a : Int)]) =
        (List.range (e.stop + 1 - e.start).toNat).map fun a : Nat => (a : Int) :=
      List.map_eq_flatMap.symm
    exact (congrArg _ hcoe).trans List.map_map
  rw [heq]
  apply List.Nodup.map
  · intro a b h
    simpa using h
  · exact List.nodup_range

theorem addRange_surveyed {nm nm' : NodesManager} {tmp : Tmp} {s : Survey} (n : ClusterNode)
    (e : SlotRange) (hwf : nm.Wf) (h : Surveyed nm nm' tmp s) :
    Post ((addRange Sync.NodesManager.getOrCreateClusterNode n e tmp).run nm')
      (fun tmp' nm'' => Surveyed nm nm'' tmp' (s.range nm n e))
      (fun err nm'' => err.cls = .RedisClusterException ∧ 5 < (s.range nm n e).disagreements ∧
        ∃ nodes, Announced nm nm'' nodes (s.range nm n e)) := by
  have hspec := addRange_spec .sync nm' n e tmp (h.announced.ext.wf hwf) h.building
    ⟨fun _ _ => trivial, fun _ _ => id⟩
  obtain ⟨p, nodes₁, nm₁, hrun₁, he₁, hp, hset₁, h₁⟩ :=
    announce_spec (primaryAddr n e) .PRIMARY hwf h.announced
  have hname := hp.name
  obtain ⟨tl, nodes₂, nm₂, hrun₂, he₂, hset₂, hkeys₂, hstored₂, h₂⟩ :=
    addReplicas_announced e.replicas hwf h₁
  let nm₃ : NodesManager := { nm₂ with lists := (nm₂.lists.alloc (p :: tl)).2 }
  have he₃ : Extends nm₂ nm₃ := alloc_extends nm₂ (p :: tl)
  have h₃ : Announced nm nm₃ nodes₂ (s.range nm n e) :=
    ⟨h₂.ext.trans he₃, h₂.connections, h₂.made.extends he₃, h₂.keys, h₂.types, h₂.fresh, h₂.others,
      h₂.clash⟩
  have he := (he₁.trans he₂).trans he₃
  have hread : ∀ entry ∈ tmp.slots.items, nm₃.lists.read entry.2 = nm'.lists.read entry.2 :=
    fun entry hentry => he.lists _ (h.building.slots entry hentry).1
  have hsame : ∀ i, slotList nm₃ { tmp with nodes := nodes₂ } i = slotList nm' tmp i := by
    intro i
    unfold slotList
    dsimp only
    cases hget : tmp.slots.get? i with
    | none => rfl
    | some entry =>
      rw [Option.map_some, Option.map_some, hread entry (Keyed.mem_of_get? hget)]
  have howner : ∀ i, slotOwner nm₃ { tmp with nodes := nodes₂ } i = Survey.owner nm s.ranges i := by
    intro i
    rw [← h.owners i, slotOwner, slotHead, hsame]
    rfl
  have hpkey : p.name ∈ (s.announce nm .PRIMARY (primaryAddr n e)).roles.keys :=
    (h₁.keys _).mp (List.mem_map_of_mem hp.stored)
  have hprole : nm₃.server_type p = some (s.roleOf nm .PRIMARY (primaryAddr n e)) :=
    (hset₂ p hp.isNode hpkey).trans hp.type
  have hroles : ∀ i, (slotHead nm' tmp i).map nm₃.server_type =
      (Survey.headRole s.leads i).map some := by
    intro i
    rw [← h.heads i]
    cases hi : slotHead nm' tmp i with
    | none => rfl
    | some m =>
      obtain ⟨hmade, hkey⟩ := h.head_stored hi
      exact congrArg some ((hset₂ m (he₁.isNode hmade) (s.announce_keys nm .PRIMARY _ hkey)).trans
        (hset₁ m hmade hkey))
  have hdis : (disputes nm₃ { tmp with nodes := nodes₂ } p.name (slotsOf e)) = s.disputed nm n e := by
    unfold disputes Survey.disputed
    apply List.filter_congr
    intro i _
    rw [howner i, hname]
  have hlist : nm₃.lists.read nm₂.lists.next = p :: tl := Heap.read_alloc_self nm₂.lists (p :: tl)
  have hfill := fillSlots_owner hlist (slotsOf e)
    (slotsOf_nodup e) { tmp with nodes := nodes₂ }
    (fun entry hentry => by rw [hread entry hentry]; exact h.nonempty entry hentry)
    (h.count ▸ h.agrees)
  have hrun : (addRange Sync.NodesManager.getOrCreateClusterNode n e tmp).run nm' =
      (fillSlots p nm₂.lists.next (slotsOf e) { tmp with nodes := nodes₂ }).run nm₃ := by
    simp only [addRange, EStateM.run_bind, EStateM.run_get, hrun₁, hrun₂, EStateM.run_modify]
    rfl
  have hboth := hspec.and (hrun.symm ▸ hfill)
  apply Post.mono hboth
  · rintro tmp' nm'' ⟨⟨-, hb, -⟩, rfl, hnodes, hfilled, hlen, hle⟩
    have hown : ∀ i, slotHead nm₃ tmp' i =
        (slotHead nm' tmp i).or (if i ∈ slotsOf e then some p else none) := by
      intro i
      refine slotHead_or ((hfilled i).trans (by rw [hsame])) fun nodes hl => ?_
      obtain ⟨entry, hget, rfl⟩ := Option.map_eq_some_iff.mp hl
      exact h.nonempty entry (Keyed.mem_of_get? hget)
    have hlen' : tmp'.disagreements.length = (s.range nm n e).disagreements := by
      rw [hlen, h.count, hdis]
      rfl
    refine ⟨hnodes.symm ▸ h₃, hb, fun i => ?_, fun i nodes hi m hm => ?_, fun i => ?_, hlen',
      hlen' ▸ hle⟩
    · refine Eq.trans ?_ (Survey.owner_append nm s.ranges n e i).symm
      rw [slotOwner, hown, Option.map_or, ← hname, ← h.owners]
      congr 1
      split <;> rfl
    · rw [hfilled, hsame] at hi
      rw [← h₃.keys]
      rcases Option.or_eq_some_iff.mp hi with hold | ⟨-, hnew⟩
      · exact hkeys₂ _ (s.announce_keys nm .PRIMARY _ (h.listed i nodes hold m hm))
      · split at hnew
        · obtain rfl := Option.some.inj hnew
          exact (List.forall_mem_cons.mpr ⟨hkeys₂ _ hpkey, hstored₂⟩ :
            ∀ n ∈ p :: tl, n.name ∈ nodes₂.keys) m hm
        · cases hnew
    · refine Eq.trans ?_ (congrArg _ (Survey.headRole_append s.leads e _ i)).symm
      rw [hown, Option.map_or, Option.map_or, ← hroles]
      congr 1
      split
      · exact congrArg some hprole
      · rfl
  · rintro err nm'' ⟨-, rfl, hcls, hlt⟩
    refine ⟨hcls, ?_, nodes₂, h₃⟩
    rw [h.count, hdis] at hlt
    exact hlt

/-- A reply is worked through as far as the sixth disagreement. -/
theorem addRanges_surveyed {nm nm' : NodesManager} {tmp : Tmp} {s : Survey} (n : ClusterNode)
    (es : List SlotRange) (hwf : nm.Wf) (h : Surveyed nm nm' tmp s) :
    Post ((addRanges Sync.NodesManager.getOrCreateClusterNode n es tmp).run nm')
      (fun tmp' nm'' => ∃ s', s.reply nm n es = (s', true) ∧ Surveyed nm nm'' tmp' s')
      (fun err nm'' => ∃ s' nodes, s.reply nm n es = (s', false) ∧
        err.cls = .RedisClusterException ∧ Announced nm nm'' nodes s') := by
  induction es generalizing nm' tmp s with
  | nil => exact ⟨s, rfl, h⟩
  | cons e es ih =>
    unfold addRanges Survey.reply
    apply Post.bind ((addRange_surveyed n e hwf h).mono (fun _ _ h => h) _)
    · rintro tmp₁ nm₁ h₁
      dsimp only
      rw [if_neg (Nat.not_lt.mpr h₁.agrees)]
      exact ih h₁
    · rintro err nm'' ⟨hcls, hlt, nodes, ha⟩
      dsimp only
      rw [if_pos hlt]
      exact ⟨_, nodes, rfl, hcls, ha⟩

theorem Surveyed.covered {nm nm' : NodesManager} {tmp : Tmp} {s : Survey}
    (h : Surveyed nm nm' tmp s) : checkSlotsCoverage tmp.slots = s.covered nm := by
  unfold checkSlotsCoverage Survey.covered
  congr 1
  funext i
  rw [← h.owners i]
  unfold slotOwner slotHead slotList Keyed.contains
  cases hget : tmp.slots.get? (i : Int) with
  | none => rfl
  | some entry =>
    obtain ⟨p, tl, hp⟩ := List.exists_cons_of_ne_nil (h.nonempty entry (Keyed.mem_of_get? hget))
    simp [hp]

/-- Before it is asked, a startup node gets a client. -/
theorem Surveyed.connect {nm nm' : NodesManager} {tmp : Tmp} {s : Survey} (n : ClusterNode)
    (h : Surveyed nm nm' tmp s) : ∃ nm'', (Variant.sync.connect n).run nm' = .ok () nm'' ∧
      Surveyed nm nm'' tmp { s with asked := s.asked ++ [n] } := by
  have hext : Extends nm' { nm' with redis_connection := Function.update nm'.redis_connection n true } :=
    ⟨Nat.le_refl _, Nat.le_refl _, fun _ _ => rfl, rfl, rfl, rfl, rfl, rfl⟩
  have ha := h.announced
  refine ⟨_, rfl, ⟨ha.ext.trans hext, fun m => ?_, ha.made.extends hext, ha.keys, ha.types, ha.fresh,
    ha.others, ha.clash⟩, h.building.connected ⟨hext, rfl⟩, h.owners, h.listed, h.heads, h.count, h.agrees⟩
  by_cases hm : m = n
  · simp [hm]
  · simp [hm, ha.connections m]

/-- The loop over the startup nodes does what the survey says. -/
theorem scanStartupNodes_surveyed {nm nm' : NodesManager} {tmp : Tmp} {s : Survey}
    (count : Nat) (cluster_slots : ClusterSlots) (ns : List ClusterNode) (reachable : Bool)
    (exception : Option Exc) (hwf : nm.Wf) (h : Surveyed nm nm' tmp s) :
    Post ((scanStartupNodes Sync.NodesManager.getOrCreateClusterNode Sync.NodesManager.loneHost
        count cluster_slots Variant.sync.connect ns tmp reachable exception).run nm')
      (fun res nm'' => ∃ s', survey nm cluster_slots count ns s reachable =
          .surveyed s' res.2.1 res.2.2.1 ∧ Surveyed nm nm'' res.1 s')
      (fun err nm'' => survey nm cluster_slots count ns s reachable = .raised ∧
          err.isinstance .Exception = false ∨
        ∃ s' nodes, (survey nm cluster_slots count ns s reachable = .nameless s' ∧
            err.cls = .TypeError ∨
          survey nm cluster_slots count ns s reachable = .disagreed s' ∧
            err.cls = .RedisClusterException) ∧ Announced nm nm'' nodes s') := by
  induction ns generalizing nm' tmp s reachable exception with
  | nil => exact ⟨s, rfl, h⟩
  | cons n ns ih =>
    obtain ⟨nm₁, hrun₁, h₁⟩ := h.connect n
    unfold scanStartupNodes survey
    simp only [EStateM.run_bind, hrun₁]
    cases hask : askClusterSlots cluster_slots n with
    | error e =>
      dsimp only
      by_cases hexc : e.isinstance .Exception = true
      · simp only [if_pos hexc]
        exact ih _ _ h₁
      · rw [if_neg hexc, if_neg hexc]
        exact .inl ⟨rfl, by simpa using hexc⟩
    | ok reply =>
      dsimp only
      cases hlone : Sync.NodesManager.loneHost count n reply with
      | error e => exact .inr ⟨_, tmp.nodes, .inl ⟨rfl, (loneHost_error (c := .sync) hlone).1⟩,
          h₁.announced⟩
      | ok reply' =>
        dsimp only
        apply Post.bind ((addRanges_surveyed n reply' hwf h₁).mono (fun _ _ h => h) _)
        · rintro tmp₂ nm₂ ⟨s₂, hreply, h₂⟩
          rw [hreply, h₂.covered]
          dsimp only
          by_cases hcov : s₂.covered nm = true
          · simp only [if_pos hcov]
            exact ⟨s₂, rfl, h₂⟩
          · simp only [if_neg hcov]
            exact ih _ _ h₂
        · rintro err nm'' ⟨s', nodes, hreply, hcls, ha⟩
          rw [hreply]
          exact .inr ⟨s', nodes, .inr ⟨rfl, hcls⟩, ha⟩

/-! ### The whole call -/

/-- The survey that `initialize` makes. -/
def NodesManager.surveys (nm : NodesManager) (cluster_slots : ClusterSlots) : Verdict :=
  survey nm cluster_slots nm.startupNodes.items.length nm.startupNodes.items {} false

/-- How a call of the sync `initialize` comes out, by the verdict of the survey. -/
inductive Concluded (nm : NodesManager) : Verdict → EStateM.Result Exc NodesManager Unit → Prop
  | raised {err : Exc} {nm' : NodesManager} (h : err.isinstance .Exception = false) :
      Concluded nm .raised (.error err nm')
  | nameless {s : Survey} {err : Exc} {nodes : Nodes} {nm' : NodesManager}
      (hcls : err.cls = .TypeError) (h : Announced nm nm' nodes s) :
      Concluded nm (.nameless s) (.error err nm')
  | disagreed {s : Survey} {err : Exc} {nodes : Nodes} {nm' : NodesManager}
      (hcls : err.cls = .RedisClusterException) (h : Announced nm nm' nodes s) :
      Concluded nm (.disagreed s) (.error err nm')
  | refused {s : Survey} {reachable fully_covered : Bool} {err : Exc} {nodes : Nodes}
      {nm₁ nm' : NodesManager}
      (hr : reachable = false ∨ fully_covered = false ∧ nm.require_full_coverage = true)
      (hcls : err.cls = .RedisClusterException) (h : Announced nm nm₁ nodes s)
      (hc : Connected nm₁ nm') : Concluded nm (.surveyed s reachable fully_covered) (.error err nm')
  | installs {s : Survey} {reachable fully_covered : Bool} {tmp : Tmp} {nm₁ nm' : NodesManager}
      (hr : ¬ (reachable = false ∨ fully_covered = false ∧ nm.require_full_coverage = true))
      (h : Surveyed nm nm₁ tmp s) (hc : Connected nm₁ nm')
      (hd : nm'.default_node = nm.default_node) :
      Concluded nm (.surveyed s reachable fully_covered)
        ((Sync.NodesManager.install tmp.nodes tmp.slots).run nm')

theorem Connected.refl (nm : NodesManager) : Connected nm nm := ⟨.refl nm, rfl⟩

theorem initializeNodes_concluded (cluster_slots : ClusterSlots) (nm : NodesManager) (hwf : nm.Wf) :
    Concluded nm (nm.surveys cluster_slots)
      ((Variant.sync.initializeNodes cluster_slots).run nm) := by
  obtain ⟨nm₀, hnm₀⟩ : ∃ nm₀ : NodesManager,
      nm₀ = { nm with read_load_balancer := nm.read_load_balancer.reset } := ⟨_, rfl⟩
  have hstart : nm₀.startupNodes = nm.startupNodes := by
    rw [hnm₀]
    rfl
  have hnew : Surveyed nm nm₀ {} {} := by
    subst hnm₀
    have hext : Extends nm { nm with read_load_balancer := nm.read_load_balancer.reset } :=
      ⟨Nat.le_refl _, Nat.le_refl _, fun _ _ => rfl, rfl, rfl, rfl, rfl, rfl⟩
    refine ⟨⟨hext, fun n => by simp, made_nil _, fun k => Iff.rfl, fun n hn => ?_, fun _ _ _ => rfl,
      fun _ _ _ => rfl, ?_⟩, ⟨made_nil _, fun n hn => ?_, fun n hn => ?_⟩, fun i => rfl,
      fun i nodes hi => ?_, fun i => rfl, rfl, Nat.zero_le _⟩
    · exact absurd hn (by simp [EmptyCollection.emptyCollection])
    · simp
    · exact absurd hn (by simp [EmptyCollection.emptyCollection])
    · exact absurd hn (by simp [EmptyCollection.emptyCollection])
    · cases hi
  have hscan := scanStartupNodes_surveyed nm.startupNodes.items.length cluster_slots
    nm.startupNodes.items false none hwf hnew
  rw [initializeNodes_eq]
  unfold initializeWith
  simp only [EStateM.run_bind, EStateM.run_modify, EStateM.run_get]
  rw [← hnm₀, hstart]
  change Post ((scanStartupNodes Variant.sync.getOrCreateClusterNode Variant.sync.loneHost
    nm.startupNodes.items.length cluster_slots Variant.sync.connect nm.startupNodes.items {} false
    none).run nm₀) _ _ at hscan
  have huntouched := untouched_default nm.default_node
  have hdefault := scanStartupNodes_untouched huntouched .sync nm.startupNodes.items.length
    cluster_slots nm.startupNodes.items {} false none nm₀ (hnm₀ ▸ rfl)
  cases hr : (scanStartupNodes Variant.sync.getOrCreateClusterNode Variant.sync.loneHost
    nm.startupNodes.items.length cluster_slots Variant.sync.connect nm.startupNodes.items {} false
    none).run nm₀ with
  | error err nm₁ =>
    rw [hr] at hscan
    rcases hscan with ⟨hv, hexc⟩ | ⟨s, nodes, ⟨hv, hcls⟩ | ⟨hv, hcls⟩, ha⟩
    · rw [NodesManager.surveys, hv]
      exact .raised hexc
    · rw [NodesManager.surveys, hv]
      exact .nameless hcls ha
    · rw [NodesManager.surveys, hv]
      exact .disagreed hcls ha
  | ok res nm₁ =>
    obtain ⟨tmp, reachable, fully_covered, exception⟩ := res
    rw [hr] at hscan hdefault
    obtain ⟨s, hv, h⟩ := hscan
    rw [NodesManager.surveys, hv]
    cases reachable with
    | false => exact .refused (.inl rfl) rfl h.announced (.refl nm₁)
    | true =>
      obtain ⟨nm₂, hrun₂, h₂⟩ := createRedisConnections_spec .sync nm₁ tmp.nodes
      have hd₂ := createRedisConnections_untouched huntouched .sync tmp.nodes nm₁ hdefault
      rw [hrun₂] at hd₂
      have hset : nm₂.toSettings = nm.toSettings := (h.announced.ext.trans h₂.ext).settings
      simp only [Bool.not_true, Bool.false_eq_true, if_false, EStateM.run_bind, hrun₂,
        EStateM.run_get]
      by_cases hu : (!fully_covered && nm₂.require_full_coverage) = true
      · rw [if_pos hu]
        rw [hset, Bool.and_eq_true, Bool.not_eq_true'] at hu
        exact .refused (.inr hu) rfl h.announced h₂
      · rw [if_neg hu]
        rw [hset, Bool.and_eq_true, Bool.not_eq_true'] at hu
        exact .installs (by simpa using hu) h h₂ hd₂

end RedisPy
