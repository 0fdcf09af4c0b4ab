import RedisPy.Spec.MultiKeyCommands
import RedisPy.Library.Fallible
import Mathlib.Data.List.Perm.Basic
import Mathlib.Data.List.Induction
import Mathlib.Algebra.BigOperators.Group.List.Basic

/-! A command on keys of many slots, split by slot, does what it does on one store: a key is
only ever looked at in its own slot, and the groups are the keys again. -/

namespace RedisPy

namespace MultiKey

section Groups

variable {α : Type} {slotOf : α → Nat}

/-- The groups by slot have every element once. -/
theorem groups_perm {slots : List Nat} (hnodup : slots.Nodup) {l : List α}
    (hcover : ∀ x ∈ l, slotOf x ∈ slots) :
    (slots.flatMap fun slot => l.filter fun x => slotOf x = slot).Perm l := by
  induction slots generalizing l with
  | nil =>
    have hnil : l = [] := List.eq_nil_iff_forall_not_mem.mpr fun x hx => by simpa using hcover x hx
    rw [hnil]
    exact List.Perm.refl _
  | cons slot slots ih =>
    obtain ⟨hnew, hrest⟩ := List.nodup_cons.mp hnodup
    have hothers : (slots.flatMap fun s => l.filter fun x => slotOf x = s) =
        slots.flatMap fun s => (l.filter fun x => !decide (slotOf x = slot)).filter
          fun x => slotOf x = s := by
      refine List.flatMap_congr fun s hs => ?_
      rw [List.filter_filter]
      refine List.filter_congr fun x _ => ?_
      by_cases hx : slotOf x = s
      · have hne : s ≠ slot := fun he => hnew (he ▸ hs)
        simp [hx, hne]
      · simp [hx]
    rw [List.flatMap_cons, hothers]
    refine (List.Perm.append_left _ (ih hrest ?_)).trans (List.filter_append_perm _ l)
    intro x hx
    obtain ⟨hx, hne⟩ := List.mem_filter.mp hx
    exact (List.mem_cons.mp (hcover x hx)).resolve_left (by simpa using hne)

variable (slotOf) in
/-- The partition by slot of things that stand for arguments. -/
def partition (argsOf : α → List EncodableT) (l : List α) : Dict Nat (List EncodableT) :=
  l.foldl (fun d x => addToSlot d (slotOf x) (argsOf x)) ∅

variable {argsOf : α → List EncodableT}

/-- A slot has the arguments of its things, in their order. -/
theorem get?_partition (l : List α) (slot : Nat) :
    (partition slotOf argsOf l).get? slot =
      if (l.filter fun x => slotOf x = slot).isEmpty then none
      else some (slot, (l.filter fun x => slotOf x = slot).flatMap argsOf) := by
  induction l using List.reverseRecOn with
  | nil => rfl
  | append_singleton l x ih =>
    rw [partition, List.foldl_append, List.filter_append]
    change (addToSlot (partition slotOf argsOf l) (slotOf x) (argsOf x)).get? slot = _
    by_cases hx : slotOf x = slot
    · subst hx
      rw [addToSlot, ih]
      refine (Keyed.get?_put_self _ _).trans ?_
      by_cases hl : (l.filter fun y => slotOf y = slotOf x).isEmpty = true
      · rw [if_pos hl, List.isEmpty_iff.mp hl]
        simp
      · rw [if_neg hl]
        simp
    · have hne : slot ≠ (slotOf x, (((partition slotOf argsOf l).get? (slotOf x)).map
          Prod.snd).getD [] ++ argsOf x).1 := Ne.symm hx
      rw [addToSlot, Keyed.get?_put_ne _ hne, ih]
      simp [hx]

theorem of_mem_partition {l : List α} {item : Nat × List EncodableT}
    (h : item ∈ (partition slotOf argsOf l).items) :
    item.2 = (l.filter fun x => slotOf x = item.1).flatMap argsOf := by
  have hget := Keyed.get?_of_mem h
  rw [get?_partition] at hget
  split at hget
  · cases hget
  · exact (congrArg Prod.snd (Option.some.inj hget)).symm

theorem slot_mem_partition {l : List α} {x : α} (hx : x ∈ l) :
    slotOf x ∈ (partition slotOf argsOf l).keys := by
  rw [← Keyed.contains_iff, Keyed.contains, get?_partition, if_neg]
  · rfl
  · intro hempty
    have hmem : x ∈ l.filter fun y => slotOf y = slotOf x := List.mem_filter.mpr ⟨hx, by simp⟩
    rw [List.isEmpty_iff.mp hempty] at hmem
    cases hmem

/-- The slots together have the arguments of every thing once. -/
theorem perm_partition (l : List α) :
    ((partition slotOf argsOf l).items.flatMap Prod.snd).Perm (l.flatMap argsOf) := by
  have hitems : (partition slotOf argsOf l).items.flatMap Prod.snd =
      ((partition slotOf argsOf l).keys.flatMap fun slot => l.filter fun x => slotOf x = slot).flatMap
        argsOf := by
    rw [Keyed.keys, List.flatMap_map, List.flatMap_assoc]
    exact List.flatMap_congr fun item hitem => of_mem_partition hitem
  rw [hitems]
  exact (groups_perm (partition slotOf argsOf l).nodup fun x hx => slot_mem_partition hx).flatMap_right _

end Groups

section Stores

variable (c : Command)

theorem length_runEach (store : Store) (ops : List (Bytes × Bytes)) :
    (c.runEach store ops).1.length = ops.length := by
  induction ops generalizing store with
  | nil => rfl
  | cons op ops ih => simp [Command.runEach, ih]

/-- Changing a key of the one store is changing it in its slot. -/
theorem update_union (cluster : Cluster) (key : Bytes) (e : Option Entry) :
    Function.update cluster.union key e = Cluster.union
      (Function.update cluster (keySlot key) (Function.update (cluster (keySlot key)) key e)) := by
  funext k
  rw [Cluster.union]
  by_cases hk : k = key
  · subst hk
    simp
  · by_cases hs : keySlot k = keySlot key
    · rw [hs, Function.update_self, Function.update_of_ne hk, Function.update_of_ne hk, Cluster.union,
        hs]
    · rw [Function.update_of_ne hs, Function.update_of_ne hk, Cluster.union]

/-- On one store a command answers for the keys of a slot as it does in the slot, and leaves
them as it does there. -/
theorem runEach_union (cluster : Cluster) (ops : List (Bytes × Bytes)) (slot : Nat) :
    ((ops.zip (c.runEach cluster.union ops).1).filter fun p => keySlot p.1.1 = slot) =
        (ops.filter fun op => keySlot op.1 = slot).zip
          (c.runEach (cluster slot) (ops.filter fun op => keySlot op.1 = slot)).1 ∧
      ∀ key, keySlot key = slot → (c.runEach cluster.union ops).2 key =
        (c.runEach (cluster slot) (ops.filter fun op => keySlot op.1 = slot)).2 key := by
  induction ops generalizing cluster with
  | nil =>
    refine ⟨rfl, ?_⟩
    rintro key rfl
    rfl
  | cons op ops ih =>
    obtain ⟨k, value⟩ := op
    have hih := ih (Function.update cluster (keySlot k) (Function.update (cluster (keySlot k)) k
      (c.step (cluster (keySlot k) k) value).2))
    rw [← update_union] at hih
    have hrun : c.runEach cluster.union ((k, value) :: ops) =
        ((c.step (cluster (keySlot k) k) value).1 ::
          (c.runEach (Function.update cluster.union k
            (c.step (cluster (keySlot k) k) value).2) ops).1,
        (c.runEach (Function.update cluster.union k
          (c.step (cluster (keySlot k) k) value).2) ops).2) := rfl
    rw [hrun]
    by_cases hs : keySlot k = slot
    · subst hs
      rw [Function.update_self] at hih
      have hfilter : (((k, value) :: ops).filter fun op => keySlot op.1 = keySlot k) =
          (k, value) :: ops.filter fun op => keySlot op.1 = keySlot k := by simp
      rw [hfilter]
      refine ⟨?_, hih.2⟩
      rw [List.zip_cons_cons, List.filter_cons_of_pos (by simp), hih.1]
      rfl
    · rw [Function.update_of_ne (Ne.symm hs)] at hih
      have hfilter : (((k, value) :: ops).filter fun op => keySlot op.1 = slot) =
          ops.filter fun op => keySlot op.1 = slot := by simp [hs]
      rw [hfilter]
      refine ⟨?_, hih.2⟩
      rw [List.zip_cons_cons, List.filter_cons_of_neg (by simpa using hs), hih.1]

end Stores

section Execution

variable {c : Command} {cluster : Cluster}

/-- What the node of a slot does with a command for its keys. -/
theorem executeCommand_eq {slot : Nat} {args : List EncodableT}
    (h : ∀ op ∈ c.operands (args.map EncodableT.encode), keySlot op.1 = slot) :
    executeCommand c cluster slot args =
      (.ok (c.run (cluster slot) (args.map EncodableT.encode)).1,
        Function.update cluster slot (c.run (cluster slot) (args.map EncodableT.encode)).2) := by
  rw [executeCommand, if_pos]
  exact List.all_eq_true.mpr fun op hop => decide_eq_true (h op hop)

/-- The commands of different slots do not meet, whatever their order. -/
theorem executeEach_eq (c : Command) (cluster : Cluster) {commands : List (Nat × List EncodableT)}
    (hnodup : (commands.map Prod.fst).Nodup)
    (h : ∀ item ∈ commands, ∀ op ∈ c.operands (item.2.map EncodableT.encode), keySlot op.1 = item.1) :
    (executeEach c cluster commands).1 = commands.map (fun item =>
        (item.1, .ok (c.run (cluster item.1) (item.2.map EncodableT.encode)).1)) ∧
      (∀ item ∈ commands, (executeEach c cluster commands).2 item.1 =
        (c.run (cluster item.1) (item.2.map EncodableT.encode)).2) ∧
      ∀ slot, slot ∉ commands.map Prod.fst → (executeEach c cluster commands).2 slot = cluster slot := by
  induction commands generalizing cluster with
  | nil => exact ⟨rfl, by simp, fun _ _ => rfl⟩
  | cons item commands ih =>
    obtain ⟨slot, args⟩ := item
    obtain ⟨hnew, hrest⟩ := List.nodup_cons.mp hnodup
    obtain ⟨hreplies, hin, hout⟩ := ih (Function.update cluster slot
      (c.run (cluster slot) (args.map EncodableT.encode)).2) hrest fun item hitem =>
        h item (List.mem_cons_of_mem _ hitem)
    have hne : ∀ item ∈ commands, item.1 ≠ slot := fun item hitem he =>
      hnew (List.mem_map.mpr ⟨item, hitem, he⟩)
    have hrun : executeEach c cluster ((slot, args) :: commands) =
        ((slot, .ok (c.run (cluster slot) (args.map EncodableT.encode)).1) ::
          (executeEach c (Function.update cluster slot
            (c.run (cluster slot) (args.map EncodableT.encode)).2) commands).1,
        (executeEach c (Function.update cluster slot
          (c.run (cluster slot) (args.map EncodableT.encode)).2) commands).2) := by
      rw [executeEach, executeCommand_eq (h (slot, args) List.mem_cons_self)]
    rw [hrun]
    refine ⟨?_, ?_, ?_⟩
    · rw [List.map_cons, hreplies]
      refine congrArg _ (List.map_congr_left fun item hitem => ?_)
      rw [Function.update_of_ne (hne item hitem)]
    · intro item hitem
      rcases List.mem_cons.mp hitem with rfl | hitem
      · exact (hout slot hnew).trans (Function.update_self ..)
      · exact (hin item hitem).trans (by rw [Function.update_of_ne (hne item hitem)])
    · intro s hs
      rw [List.map_cons, List.mem_cons, not_or] at hs
      exact (hout s hs.2).trans (Function.update_of_ne hs.1 ..)

theorem lookup_map {β : Type} {F : Nat × List EncodableT → β} {order : List (Nat × List EncodableT)}
    (hnodup : (order.map Prod.fst).Nodup) {item : Nat × List EncodableT} (hitem : item ∈ order) :
    (order.map fun p => (p.1, F p)).lookup item.1 = some (F item) := by
  induction order with
  | nil => cases hitem
  | cons p order ih =>
    obtain ⟨hnew, hrest⟩ := List.nodup_cons.mp hnodup
    rcases List.mem_cons.mp hitem with rfl | hin
    · simp
    · have hne : item.1 ≠ p.1 := fun he => hnew (he ▸ List.mem_map_of_mem hin)
      rw [List.map_cons, List.lookup_cons, beq_false_of_ne hne]
      exact ih hrest hin

variable {α : Type} {argsOf : α → List EncodableT} {opOf : α → Bytes × Bytes}

variable (c cluster) in
/-- The groups executed on their slots are the whole executed on one store. -/
theorem executePipelineBySlot_partition
    (hops : ∀ l : List α, c.operands ((l.flatMap argsOf).map EncodableT.encode) = l.map opOf)
    (l : List α) {order : List (Nat × List EncodableT)}
    (horder : order.Perm (partition (fun x => keySlot (opOf x).1) argsOf l).items) :
    (executePipelineBySlot c cluster (partition (fun x => keySlot (opOf x).1) argsOf l) order).1 =
        .ok ((partition (fun x => keySlot (opOf x).1) argsOf l).items.map fun item =>
          c.reply (c.runEach (cluster item.1)
            ((l.map opOf).filter fun op => keySlot op.1 = item.1)).1) ∧
      (executePipelineBySlot c cluster (partition (fun x => keySlot (opOf x).1) argsOf l)
        order).2.union = (c.runEach cluster.union (l.map opOf)).2 := by
  generalize hd : partition (fun x => keySlot (opOf x).1) argsOf l = d at horder ⊢
  have hgroup : ∀ item ∈ d.items, c.operands (item.2.map EncodableT.encode) =
      (l.map opOf).filter fun op => keySlot op.1 = item.1 := by
    intro item hitem
    rw [← hd] at hitem
    rw [of_mem_partition hitem, hops, List.filter_map]
    rfl
  have hslots : (order.map Prod.fst).Nodup := (horder.map Prod.fst).nodup_iff.mpr d.nodup
  obtain ⟨hreplies, hin, hout⟩ := executeEach_eq c cluster hslots
    fun item hitem op hop => by
      rw [hgroup item (horder.subset hitem)] at hop
      exact of_decide_eq_true (List.mem_filter.mp hop).2
  constructor
  · change d.items.mapM _ = _
    rw [Fallible.mapM_eq_ok_map]
    intro item hitem
    rw [hreplies, lookup_map (F := fun item => (.ok (c.run (cluster item.1)
      (item.2.map EncodableT.encode)).1 : Except Exc Reply)) hslots (horder.symm.subset hitem)]
    rw [Option.getD_some, Command.run, hgroup item hitem]
  · funext key
    change (executeEach c cluster order).2 (keySlot key) key = _
    rw [(runEach_union c cluster (l.map opOf) (keySlot key)).2 key rfl]
    by_cases hmem : keySlot key ∈ order.map Prod.fst
    · obtain ⟨item, hitem, hslot⟩ := List.mem_map.mp hmem
      rw [← hslot, hin item hitem, Command.run, hgroup item (horder.subset hitem)]
    · have hempty : ((l.map opOf).filter fun op => keySlot op.1 = keySlot key) = [] := by
        refine List.filter_eq_nil_iff.mpr fun op hop he => hmem ?_
        obtain ⟨x, hx, rfl⟩ := List.mem_map.mp hop
        have hkey : keySlot (opOf x).1 ∈ (partition (fun x => keySlot (opOf x).1) argsOf l).keys :=
          slot_mem_partition hx
        rw [hd] at hkey
        rw [← of_decide_eq_true he]
        exact (horder.map Prod.fst).symm.subset hkey
      rw [hout _ hmem, hempty]
      rfl

end Execution

section Commands

variable {cluster : Cluster}

/-- A key as an operand. -/
def keyOperand (key : EncodableT) : Bytes × Bytes := (key.encode, [])

/-- A pair of a mapping as an operand. -/
def pairOperand (pair : EncodableT × EncodableT) : Bytes × Bytes := (pair.1.encode, pair.2.encode)

theorem operands_keys {c : Command} (hc : c ≠ .MSET) (keys : List EncodableT) :
    c.operands ((keys.flatMap fun key => [key]).map EncodableT.encode) = keys.map keyOperand := by
  have hall (args : List Bytes) : c.operands args = args.map fun key => (key, []) := by
    induction args with
    | nil => cases c <;> rfl
    | cons key args ih =>
      cases c with
      | MSET => exact absurd rfl hc
      | _ => rw [Command.operands, ih, List.map_cons] <;> simp
  rw [hall, List.flatMap_singleton', List.map_map]
  rfl

theorem operands_pairs (mapping : List (EncodableT × EncodableT)) :
    Command.operands .MSET ((mapping.flatMap fun pair => [pair.1, pair.2]).map EncodableT.encode) =
      mapping.map pairOperand := by
  induction mapping with
  | nil => rfl
  | cons pair mapping ih =>
    rw [List.flatMap_cons, List.map_append]
    change Command.operands .MSET (pair.1.encode :: pair.2.encode :: _) = _
    rw [Command.operands]
    exact congrArg ((pair.1.encode, pair.2.encode) :: ·) ih

/-- What `MGET` answers for a key. -/
def valueAt (store : Store) (key : Bytes) : Option Bytes :=
  match store key with
  | some (.string v) => some v
  | _ => none

theorem step_MGET (store : Store) (key value : Bytes) :
    Command.step .MGET (store key) value = (.value (valueAt store key), store key) := by
  rw [valueAt]
  cases store key with
  | none => rfl
  | some entry => cases entry <;> rfl

theorem runEach_MGET (store : Store) (ops : List (Bytes × Bytes)) :
    Command.runEach .MGET store ops = (ops.map fun op => .value (valueAt store op.1), store) := by
  induction ops with
  | nil => rfl
  | cons op ops ih =>
    rw [Command.runEach, step_MGET]
    simp only [Function.update_eq_self, ih]
    rfl

/-- The counts of the groups sum up to the count on one store. -/
theorem sum_groups (c : Command) (cluster : Cluster) (l : List EncodableT) {slots : List Nat} (hnodup : slots.Nodup)
    (hcover : ∀ key ∈ l, keySlot key.encode ∈ slots) :
    (slots.map fun slot => ((c.runEach (cluster slot)
      ((l.map keyOperand).filter fun op => keySlot op.1 = slot)).1.map Answer.toCount).sum).sum =
      ((c.runEach cluster.union (l.map keyOperand)).1.map Answer.toCount).sum := by
  let z := (l.map keyOperand).zip (c.runEach cluster.union (l.map keyOperand)).1
  have hsum (ss : List Nat) (f : Nat → List Nat) : (ss.map fun s => (f s).sum).sum = (ss.flatMap f).sum := by
    induction ss with
    | nil => rfl
    | cons s ss ih => rw [List.map_cons, List.sum_cons, ih, List.flatMap_cons, List.sum_append]
  have hgroup (slot : Nat) : (c.runEach (cluster slot)
      ((l.map keyOperand).filter fun op => keySlot op.1 = slot)).1.map Answer.toCount =
      (z.filter fun p => keySlot p.1.1 = slot).map fun p => p.2.toCount := by
    rw [(runEach_union c cluster (l.map keyOperand) slot).1]
    conv_lhs => rw [← List.map_snd_zip (le_of_eq (length_runEach c (cluster slot) _)), List.map_map]
    rfl
  have hperm : (slots.flatMap fun slot => z.filter fun p => keySlot p.1.1 = slot).Perm z :=
    groups_perm hnodup fun p hp => by
      obtain ⟨key, hkey, he⟩ := List.mem_map.mp (List.of_mem_zip hp).1
      rw [← he]
      exact hcover key hkey
  have hall : z.map (fun p => p.2.toCount) =
      (c.runEach cluster.union (l.map keyOperand)).1.map Answer.toCount := by
    conv_rhs => rw [← List.map_snd_zip (le_of_eq (length_runEach c cluster.union _)), List.map_map]
    rfl
  rw [← hall, ← (hperm.map _).sum_eq, List.map_flatMap, ← hsum]
  simp only [hgroup]

theorem partitionKeysBySlot_eq (keys : List EncodableT) : partitionKeysBySlot keys =
    partition (fun key => keySlot (keyOperand key).1) (fun key => [key]) keys := rfl

/-- A group is the keys of its slot. -/
theorem group_eq {keys : List EncodableT} {item : Nat × List EncodableT}
    (h : item ∈ (partitionKeysBySlot keys).items) :
    item.2 = keys.filter fun key => keySlot key.encode = item.1 := by
  rw [partitionKeysBySlot_eq] at h
  rw [of_mem_partition h, List.flatMap_singleton']
  rfl

/-- The groups have every occurrence of a key once. -/
theorem perm_groups (keys : List EncodableT) :
    ((partitionKeysBySlot keys).items.flatMap Prod.snd).Perm keys := by
  have hperm : ((partitionKeysBySlot keys).items.flatMap Prod.snd).Perm (keys.flatMap fun key => [key]) :=
    perm_partition keys
  rwa [List.flatMap_singleton'] at hperm

theorem flatMap_zip_map {α β γ : Type} (l : List α) (f : α → β) (g : α × β → List γ) :
    (l.zip (l.map f)).flatMap g = l.flatMap fun x => g (x, f x) := by
  induction l with
  | nil => rfl
  | cons x l ih => simp [ih]

theorem zip_map_self {α β : Type} (l : List α) (f : α → β) :
    l.zip (l.map f) = l.map fun x => (x, f x) := by
  induction l with
  | nil => rfl
  | cons x l ih => rw [List.map_cons, List.zip_cons_cons, ih, List.map_cons]

/-- The answers put back in order, when every group has the value of each of its keys. -/
theorem reorderKeysByCommand_eq (keys : List EncodableT) (val : EncodableT → Option Bytes) :
    reorderKeysByCommand keys (partitionKeysBySlot keys)
        ((partitionKeysBySlot keys).items.map fun item => .values (item.2.map val)) =
      .ok (keys.map val) := by
  have hitems : resultItems (partitionKeysBySlot keys)
      ((partitionKeysBySlot keys).items.map fun item => .values (item.2.map val)) =
      (partitionKeysBySlot keys).items.flatMap fun item => item.2.map fun key => (key, val key) := by
    rw [resultItems, flatMap_zip_map]
    refine List.flatMap_congr fun item _ => ?_
    exact zip_map_self item.2 val
  rw [reorderKeysByCommand, hitems, Fallible.mapM_eq_ok_map]
  intro key hkey
  have hin : key ∈ (partitionKeysBySlot keys).items.flatMap Prod.snd :=
    (perm_groups keys).symm.subset hkey
  obtain ⟨item, hitem, hmem⟩ := List.mem_flatMap.mp hin
  have hstored : ∃ p ∈ (partitionKeysBySlot keys).items.flatMap fun item =>
      item.2.map fun key => (key, val key), p.1 = key :=
    ⟨(key, val key), List.mem_flatMap.mpr ⟨item, hitem, List.mem_map.mpr ⟨key, hmem, rfl⟩⟩, rfl⟩
  obtain ⟨p, hp, hpk, hget⟩ :=
    Keyed.exists_get?_foldl_put hstored (∅ : Dict EncodableT (Option Bytes))
  rw [hget]
  obtain ⟨item', -, hmem'⟩ := List.mem_flatMap.mp hp
  obtain ⟨key', -, rfl⟩ := List.mem_map.mp hmem'
  obtain rfl : key' = key := hpk
  rfl

/-- `mget_nonatomic` returns what `MGET` does on one store. -/
theorem mgetNonatomic_eq (cluster : Cluster) (keys : List EncodableT) {order : List (Nat × List EncodableT)}
    (horder : order.Perm (partitionKeysBySlot keys).items) :
    (mgetNonatomic cluster order keys).1 = .ok (keys.map fun key => valueAt cluster.union key.encode) ∧
      (mgetNonatomic cluster order keys).2.union = cluster.union := by
  obtain ⟨hreplies, hunion⟩ := executePipelineBySlot_partition .MGET cluster
    (operands_keys (by decide)) keys horder
  have hvalues : ((partitionKeysBySlot keys).items.map fun item => Command.reply .MGET
      (Command.runEach .MGET (cluster item.1)
        ((keys.map keyOperand).filter fun op => keySlot op.1 = item.1)).1) =
      (partitionKeysBySlot keys).items.map fun item =>
        .values (item.2.map fun key => valueAt cluster.union key.encode) := by
    refine List.map_congr_left fun item hitem => congrArg Reply.values ?_
    rw [runEach_MGET, group_eq hitem, List.filter_map, List.map_map, List.map_map]
    refine List.map_congr_left fun key hkey => ?_
    have hslot : keySlot key.encode = item.1 := of_decide_eq_true (List.mem_filter.mp hkey).2
    change valueAt (cluster item.1) key.encode = _
    rw [valueAt, valueAt, Cluster.union, hslot]
  rw [runEach_MGET] at hunion
  refine ⟨?_, hunion⟩
  have hres : (executePipelineBySlot .MGET cluster (partitionKeysBySlot keys) order).1 = .ok
      ((partitionKeysBySlot keys).items.map fun item =>
        .values (item.2.map fun key => valueAt cluster.union key.encode)) :=
    hreplies.trans (congrArg Except.ok hvalues)
  change ((executePipelineBySlot .MGET cluster (partitionKeysBySlot keys) order).1 >>= _) = _
  rw [hres]
  exact reorderKeysByCommand_eq keys _

/-- A command that counts returns the sum and leaves the slots as it does on one store. -/
theorem splitCommandAcrossSlots_eq {c : Command} (hc : c ≠ .MSET) (keys : List EncodableT)
    (hcounts : ∀ answers, c.reply answers = .integer (answers.map Answer.toCount).sum)
    {order : List (Nat × List EncodableT)} (horder : order.Perm (partitionKeysBySlot keys).items) :
    (splitCommandAcrossSlots cluster order c keys).1.map Reply.integer =
        .ok (c.run cluster.union (keys.map EncodableT.encode)).1 ∧
      (splitCommandAcrossSlots cluster order c keys).2.union =
        (c.run cluster.union (keys.map EncodableT.encode)).2 := by
  have hops : c.operands (keys.map EncodableT.encode) = keys.map keyOperand := by
    have hall := operands_keys hc keys
    rwa [List.flatMap_singleton'] at hall
  obtain ⟨hreplies, hunion⟩ := executePipelineBySlot_partition c cluster
    (operands_keys hc) keys horder
  rw [Command.run, hops]
  refine ⟨?_, hunion⟩
  have hsum := sum_groups c cluster keys (partitionKeysBySlot keys).nodup
    fun key hkey => slot_mem_partition hkey
  change (Except.map _ (executePipelineBySlot c cluster (partitionKeysBySlot keys) order).1).map _ = _
  have hres : (executePipelineBySlot c cluster (partitionKeysBySlot keys) order).1 = _ := hreplies
  rw [hres]
  change Except.ok (Reply.integer (List.map _ (List.map _ _)).sum) =
    Except.ok (c.reply (c.runEach cluster.union (keys.map keyOperand)).1)
  rw [hcounts (c.runEach cluster.union (keys.map keyOperand)).1, ← hsum]
  rw [List.map_map, List.map_map]
  refine congrArg (fun ns => Except.ok (Reply.integer (List.sum ns))) (List.map_congr_left fun item _ => ?_)
  simp only [Function.comp, hcounts]

/-- `mset_nonatomic` leaves the slots as `MSET` does one store. -/
theorem msetNonatomic_eq (cluster : Cluster) (mapping : List (EncodableT × EncodableT))
    {order : List (Nat × List EncodableT)} (horder : order.Perm (partitionPairsBySlot mapping).items) :
    (msetNonatomic cluster order mapping).1 =
        .ok ((partitionPairsBySlot mapping).items.map fun _ => Reply.ok) ∧
      (msetNonatomic cluster order mapping).2.union = (Command.run .MSET cluster.union
        ((mapping.flatMap fun pair => [pair.1, pair.2]).map EncodableT.encode)).2 := by
  obtain ⟨hreplies, hunion⟩ := executePipelineBySlot_partition .MSET cluster
    operands_pairs mapping horder
  rw [Command.run, operands_pairs]
  exact ⟨hreplies, hunion⟩

/-- The non-atomic commands are the commands on one store with all the slots, whatever the
order in which the slots are reached. -/
theorem multi_key_commands_agree (cluster : Cluster) (keys : List EncodableT)
    (mapping : List (EncodableT × EncodableT)) :
    (∀ order, order.Perm (partitionKeysBySlot keys).items →
      (mgetNonatomic cluster order keys).1.map Reply.values =
          .ok (Command.run .MGET cluster.union (keys.map EncodableT.encode)).1 ∧
        (mgetNonatomic cluster order keys).2.union = cluster.union) ∧
    (∀ order, order.Perm (partitionPairsBySlot mapping).items →
      (∃ replies, (msetNonatomic cluster order mapping).1 = .ok replies ∧ ∀ r ∈ replies, r = .ok) ∧
        (msetNonatomic cluster order mapping).2.union = (Command.run .MSET cluster.union
          ((mapping.flatMap fun pair => [pair.1, pair.2]).map EncodableT.encode)).2) ∧
    (∀ c ∈ [Command.EXISTS, .DEL, .UNLINK, .TOUCH], ∀ order,
      order.Perm (partitionKeysBySlot keys).items →
        (splitCommandAcrossSlots cluster order c keys).1.map Reply.integer =
            .ok (c.run cluster.union (keys.map EncodableT.encode)).1 ∧
          (splitCommandAcrossSlots cluster order c keys).2.union =
            (c.run cluster.union (keys.map EncodableT.encode)).2) ∧
    (∀ item ∈ (partitionKeysBySlot keys).items,
      item.2 = keys.filter fun key => keySlot key.encode = item.1) ∧
    ((partitionKeysBySlot keys).items.flatMap Prod.snd).Perm keys ∧
    (∀ item ∈ (partitionPairsBySlot mapping).items, item.2 =
      (mapping.filter fun pair => keySlot pair.1.encode = item.1).flatMap fun pair => [pair.1, pair.2]) ∧
    ((partitionPairsBySlot mapping).items.flatMap Prod.snd).Perm
      (mapping.flatMap fun pair => [pair.1, pair.2]) := by
  refine ⟨?_, ?_, ?_, fun item hitem => group_eq hitem, perm_groups keys,
    fun item hitem => of_mem_partition hitem, perm_partition mapping⟩
  · intro order horder
    obtain ⟨hvalues, hunion⟩ := mgetNonatomic_eq cluster keys horder
    have hops : Command.operands .MGET (keys.map EncodableT.encode) = keys.map keyOperand := by
      have hall := operands_keys (by decide : Command.MGET ≠ .MSET) keys
      rwa [List.flatMap_singleton'] at hall
    rw [hvalues, Command.run, hops, runEach_MGET]
    refine ⟨congrArg (fun vs => Except.ok (Reply.values vs)) ?_, hunion⟩
    rw [List.map_map, List.map_map]
    rfl
  · intro order horder
    obtain ⟨hreplies, hunion⟩ := msetNonatomic_eq cluster mapping horder
    refine ⟨⟨_, hreplies, ?_⟩, hunion⟩
    intro r hr
    obtain ⟨_, -, rfl⟩ := List.mem_map.mp hr
    rfl
  · intro c hc order horder
    refine splitCommandAcrossSlots_eq ?_ keys ?_ horder
    · rintro rfl
      exact absurd hc (by decide)
    · intro answers
      cases c with
      | MGET => exact absurd hc (by decide)
      | MSET => exact absurd hc (by decide)
      | _ => rfl

end Commands

end MultiKey

end RedisPy
