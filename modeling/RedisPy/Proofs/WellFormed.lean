import Mathlib.Order.Basic
import Mathlib.Order.Nat
import RedisPy.Library.Numeral
import RedisPy.Library.Raising
import RedisPy.Spec.NodesManager

/-! The objects a `NodesManager` refers to exist: the invariant that keeps a new
node or a new list apart from every one in use, and that ties the name of a node
to the host it was resolved to. -/

namespace RedisPy

open NodesManager

/-! ### Names -/

/-- The part before the last separator is determined. -/
theorem append_cons_inj_left {α : Type} {c : α} {a a' b b' : List α} (h : a ++ c :: b = a' ++ c :: b')
    (hb : c ∉ b) (hb' : c ∉ b') : a = a' := by
  rcases List.append_eq_append_iff.mp h with ⟨l, rfl, hl⟩ | ⟨l, rfl, hl⟩
  · cases l with
    | nil => simp
    | cons d l =>
      simp only [List.cons_append, List.cons.injEq] at hl
      exact absurd (hl.2 ▸ by simp) hb
  · cases l with
    | nil => simp
    | cons d l =>
      simp only [List.cons_append, List.cons.injEq] at hl
      exact absurd (hl.2 ▸ by simp) hb'

theorem colon_notMem_natText (n : Nat) : ':' ∉ Numeral.natText n := by
  intro h
  have := Numeral.natText_isDigit h
  revert this
  decide

theorem toList_toString_int (i : Int) : (toString i).toList = Numeral.intText i := by
  cases i with
  | ofNat n => exact Nat.toList_repr
  | negSucc n =>
    change ("-" ++ (n + 1).repr).toList = _
    rw [String.toList_append, Nat.toList_repr]
    rfl

theorem colon_notMem_toString (i : Int) : ':' ∉ (toString i).toList := by
  rw [toList_toString_int]
  cases i with
  | ofNat n => exact colon_notMem_natText n
  | negSucc n => simpa [Numeral.intText] using colon_notMem_natText (n + 1)

/-- A name tells its host. -/
theorem getNodeName_inj_host {host host' : String} {port port' : Int}
    (h : getNodeName host port = getNodeName host' port') : host = host' := by
  apply String.ext
  have h' := congrArg String.toList h
  simp only [getNodeName, String.toList_append, List.append_assoc] at h'
  exact append_cons_inj_left h' (colon_notMem_toString port) (colon_notMem_toString port')

theorem Settings.resolveHost_idem (s : Settings) (host : String) :
    s.resolveHost (s.resolveHost host) = s.resolveHost host := by
  unfold Settings.resolveHost
  split <;> simp_all

/-- The name of the node at an address of a `CLUSTER SLOTS` reply. -/
def Settings.storedName (s : Settings) (a : String × Int) : String :=
  getNodeName (s.resolveHost (s.remapHostPort a).1) (s.remapHostPort a).2

/-! ### Objects -/

/-- `n` was made before the next node, and from a host that was resolved. -/
structure NodesManager.IsNode (nm : NodesManager) (n : ClusterNode) : Prop where
  id : n.id < nm.nextNode
  host : nm.resolveHost n.host = n.host

/-- A node found under the name of an address is the node at that address. -/
theorem NodesManager.IsNode.name_eq {nm : NodesManager} {n : ClusterNode} {host : String} {port : Int}
    (h : nm.IsNode n) (hn : n.name = getNodeName host port) :
    n.name = getNodeName (nm.resolveHost host) port := by
  have hhost : n.host = host := getNodeName_inj_host hn
  rw [← hhost, h.host, hhost, hn]

theorem isNode_of_eq {nm nm' : NodesManager} {n : ClusterNode} (hn : nm'.nextNode = nm.nextNode)
    (hs : nm'.toSettings = nm.toSettings) (h : nm.IsNode n) : nm'.IsNode n :=
  ⟨hn ▸ h.id, hs ▸ h.host⟩

def Made (nm : NodesManager) (ns : List ClusterNode) : Prop := ∀ n ∈ ns, nm.IsNode n

@[simp] theorem made_nil (nm : NodesManager) : Made nm [] := fun _ h => absurd h (by simp)

/-- The objects in use exist. -/
structure NodesManager.Wf (nm : NodesManager) : Prop where
  slots : ∀ entry ∈ nm.slots_cache.items, entry.2 < nm.lists.next
  nodes : ∀ entry ∈ nm.slots_cache.items, Made nm (nm.lists.read entry.2)
  dicts : ∀ r, Made nm (nm.dicts.read r).items

theorem Made.cons {nm : NodesManager} {n : ClusterNode} {ns : List ClusterNode} (hn : nm.IsNode n)
    (h : Made nm ns) : Made nm (n :: ns) := by
  intro m hm
  rcases List.mem_cons.mp hm with rfl | hm
  · exact hn
  · exact h m hm

theorem Made.put {nm : NodesManager} {nodes : Nodes} {n : ClusterNode} (h : Made nm nodes.items)
    (hn : nm.IsNode n) : Made nm (nodes.put n).items := by
  intro m hm
  rcases Keyed.mem_items_put.mp hm with rfl | ⟨hm, -⟩
  · exact hn
  · exact h m hm

theorem made_foldl_put {nm : NodesManager} (ns : List ClusterNode) (d : Nodes)
    (hd : Made nm d.items) (hns : Made nm ns) : Made nm (ns.foldl Keyed.put d).items := by
  induction ns generalizing d with
  | nil => exact hd
  | cons n ns ih => exact ih _ (hd.put (hns n (by simp))) fun m hm => hns m (by simp [hm])

theorem made_setNodes {nm : NodesManager} {old new : Nodes} (b : Bool) (ho : Made nm old.items)
    (hn : Made nm new.items) : Made nm (Asyncio.NodesManager.setNodes old new b).items := by
  apply made_foldl_put _ _ _ hn
  split
  · exact fun n h => ho n (List.mem_of_mem_filter h)
  · exact ho

/-- The dictionaries may change in any way that keeps to nodes made before. -/
theorem NodesManager.Wf.dicts_write {nm nm' : NodesManager} {d : Nodes} (hwf : nm.Wf)
    (hd : Made nm d.items) (hs : nm'.slots_cache = nm.slots_cache) (hl : nm'.lists = nm.lists)
    (hn : nm'.nextNode = nm.nextNode)
    (hset : nm'.toSettings = nm.toSettings) (hw : ∀ r', nm'.dicts.read r' = nm.dicts.read r' ∨
      nm'.dicts.read r' = d) : nm'.Wf where
  slots entry he := by
    rw [hs] at he
    exact hl ▸ hwf.slots entry he
  nodes entry he n hm := by
    rw [hs] at he
    rw [hl] at hm
    exact isNode_of_eq hn hset (hwf.nodes entry he n hm)
  dicts r' n hm := by
    apply isNode_of_eq hn hset
    rcases hw r' with h | h <;> rw [h] at hm
    · exact hwf.dicts r' n hm
    · exact hd n hm

theorem NodesManager.Wf.writeDict {nm : NodesManager} (hwf : nm.Wf) (r : Ref) {d : Nodes}
    (hd : Made nm d.items) : NodesManager.Wf { nm with dicts := nm.dicts.write r d } := by
  refine hwf.dicts_write hd rfl rfl rfl rfl fun r' => ?_
  by_cases hr : r' = r
  · subst hr
    exact .inr (Heap.read_write_self nm.dicts r' d)
  · exact .inl (Heap.read_write_ne nm.dicts d hr)

/-- A change of other attributes only. -/
theorem NodesManager.Wf.same {nm nm' : NodesManager} (hwf : nm.Wf)
    (hs : nm'.slots_cache = nm.slots_cache) (hl : nm'.lists = nm.lists)
    (hn : nm'.nextNode = nm.nextNode)
    (hset : nm'.toSettings = nm.toSettings) (hd : nm'.dicts = nm.dicts) : nm'.Wf :=
  hwf.dicts_write (d := ∅) (made_nil nm) hs hl hn hset fun r => .inl (by rw [hd])

/-- A list object is edited. -/
theorem NodesManager.Wf.writeList {nm nm' : NodesManager} {r : Ref} {ns : List ClusterNode}
    (hwf : nm.Wf) (hns : Made nm ns) (hs : nm'.slots_cache = nm.slots_cache)
    (hl : nm'.lists = nm.lists.write r ns) (hn : nm'.nextNode = nm.nextNode)
    (hset : nm'.toSettings = nm.toSettings)
    (hd : nm'.dicts = nm.dicts) : nm'.Wf where
  slots entry he := by
    rw [hl, Heap.next_write]
    exact hwf.slots entry (hs ▸ he)
  nodes entry he n hm := by
    rw [hl] at hm
    apply isNode_of_eq hn hset
    by_cases hr : entry.2 = r
    · rw [hr, Heap.read_write_self] at hm
      exact hns n hm
    · rw [Heap.read_write_ne _ _ hr] at hm
      exact hwf.nodes entry (hs ▸ he) n hm
  dicts r n hm := by
    rw [hd] at hm
    exact isNode_of_eq hn hset (hwf.dicts r n hm)

/-- A slot gets a new list object. -/
theorem NodesManager.Wf.allocList {nm nm' : NodesManager} {slot : Int} {ns : List ClusterNode}
    (hwf : nm.Wf) (hns : Made nm ns) (hs : nm'.slots_cache = nm.slots_cache.put (slot, nm.lists.next))
    (hl : nm'.lists = (nm.lists.alloc ns).2) (hn : nm'.nextNode = nm.nextNode)
    (hset : nm'.toSettings = nm.toSettings)
    (hd : nm'.dicts = nm.dicts) : nm'.Wf where
  slots entry he := by
    rw [hl, Heap.next_alloc]
    rcases Keyed.mem_items_put.mp (hs ▸ he) with rfl | ⟨he, -⟩
    · exact Nat.lt_succ_self _
    · exact (hwf.slots entry he).trans (Nat.lt_succ_self _)
  nodes entry he n hm := by
    rw [hl] at hm
    apply isNode_of_eq hn hset
    rcases Keyed.mem_items_put.mp (hs ▸ he) with rfl | ⟨he, -⟩
    · rw [Heap.read_alloc_self] at hm
      exact hns n hm
    · rw [Heap.read_alloc_of_lt _ _ (hwf.slots entry he)] at hm
      exact hwf.nodes entry he n hm
  dicts r n hm := by
    rw [hd] at hm
    exact isNode_of_eq hn hset (hwf.dicts r n hm)

end RedisPy
