import RedisPy.Proofs.MovedSlotLaw

/-! Which slots a redirection of one slot touches. The slots of one range share
one list object, and a failover edits the object. -/

namespace RedisPy

open NodesManager Raising

/-- The state after `_update_moved_slots` was called with `e` pending, whether it
raised or not. -/
def redirect (c : Variant) (nm : NodesManager) (e : Redirect) : NodesManager :=
  state (c.updateMovedSlots.run { nm with moved_exception := some e })

/-- The state after a sequence of redirections. -/
def redirectAll (c : Variant) (nm : NodesManager) (es : List Redirect) : NodesManager :=
  es.foldl (redirect c) nm

/-- Every slot but `s` reads the node list it read before. -/
def SameElsewhere (s : Int) (nm nm' : NodesManager) : Prop :=
  ∀ t ≠ s, (nm'.slotNodes t).map names = (nm.slotNodes t).map names

theorem SameElsewhere.refl (s : Int) (nm : NodesManager) : SameElsewhere s nm nm := fun _ _ => rfl

theorem SameElsewhere.trans {s : Int} {a b c : NodesManager} (h : SameElsewhere s a b)
    (h' : SameElsewhere s b c) : SameElsewhere s a c := fun t ht => (h' t ht).trans (h t ht)

theorem SameElsewhere.symm {s : Int} {a b : NodesManager} (h : SameElsewhere s a b) :
    SameElsewhere s b a := fun t ht => (h t ht).symm

/-- The slot `t` holds the list object of the slot `s`. -/
def SharesList (nm : NodesManager) (s t : Int) : Prop :=
  ∃ r, nm.slots_cache.get? s = some (s, r) ∧ nm.slots_cache.get? t = some (t, r)

/-- When a sequence of redirections of `s` leaves every other slot alone: as the first
redirection comes that `get_node` takes, the slot is uncovered, or no other slot
holds its list object, or the list has no node of that name, or no other. -/
def FrameWhen (c : Variant) (nm : NodesManager) (s : Int) (es : List Redirect) : Prop :=
  ∀ e, (es.filter fun e => ¬ c.Rejects e).head? = some e →
    ∀ nodes, nm.slotNodes s = some nodes →
      (∀ t ≠ s, ¬ SharesList nm s t) ∨ nm.redirectName e ∉ names nodes ∨
        ∀ n ∈ names nodes, n = nm.redirectName e

/-! ### The list surgery and names -/

theorem eq_of_append_singleton {α : Type*} {a b : α} {l : List α} (h : l ++ [a] = b :: l) :
    ∀ c ∈ b :: l, c = a := by
  induction l generalizing b with
  | nil => simpa [eq_comm] using h
  | cons c l ih =>
    obtain ⟨rfl, hl⟩ := List.cons.inj h
    intro d hd
    rcases List.mem_cons.mp hd with rfl | hd
    · exact ih hl d (by simp)
    · exact ih hl d hd

/-- A failover changes a list unless all its nodes are the redirected one. -/
theorem names_promote_eq_iff {x : ClusterNode} {nodes : List ClusterNode}
    (hx : x.name ∈ names nodes) :
    names (promote x nodes) = names nodes ↔ ∀ n ∈ names nodes, n = x.name := by
  obtain ⟨p, tl, rfl⟩ : ∃ p tl, nodes = p :: tl :=
    List.exists_cons_of_ne_nil (by rintro rfl; simp [names] at hx)
  by_cases hp : p.name = x.name
  · have hn : names (promote x (p :: tl)) = x.name :: (names tl ++ [x.name]).tail := by
      rw [promote_of_head tl hp]
      simp [names, hp]
    have hn' : names (p :: tl) = x.name :: names tl := by simp [names, hp]
    rw [hn, hn', List.cons_inj_right]
    cases hl : names tl with
    | nil => simp
    | cons b l =>
      simp only [List.cons_append, List.tail_cons]
      constructor
      · intro h n hm
        rcases List.mem_cons.mp hm with rfl | hm
        · rfl
        · exact eq_of_append_singleton h n hm
      · intro h
        have hb : b = x.name := h b (by simp)
        have hr : l = List.replicate l.length x.name :=
          List.eq_replicate_iff.mpr ⟨rfl, fun n hm => h n (by simp [hm])⟩
        rw [hb, hr, ← List.replicate_succ, ← List.replicate_succ']
  · have htl : x.name ∈ names tl := by
      rcases List.mem_cons.mp hx with he | ht
      · exact absurd he.symm hp
      · exact ht
    constructor
    · intro h
      rw [promote_of_tail hp htl] at h
      exact absurd (List.cons.inj h).1.symm hp
    · intro h
      exact absurd (h p.name (by simp [names])) hp

/-! ### One redirection -/

theorem redirect_wf (c : Variant) {nm : NodesManager} (e : Redirect) (hwf : nm.Wf) :
    (redirect c nm e).Wf :=
  updateMovedSlots_wf c _ (hwf.same rfl rfl rfl rfl rfl)

/-- What one redirection does to the slot table and the list objects. -/
inductive Touches (c : Variant) (nm nm' : NodesManager) (e : Redirect) : Prop
  | rejected (h : c.Rejects e) (hnm : nm' = { nm with moved_exception := some e })
  | uncovered (h : ¬ c.Rejects e) (hs : nm.slots_cache.get? e.slot_id = none)
      (slots_cache : nm'.slots_cache = nm.slots_cache) (lists : nm'.lists = nm.lists)
  | failover (h : ¬ c.Rejects e) (r : Ref) (x : ClusterNode) (hx : x.name = nm.redirectName e)
      (hs : nm.slots_cache.get? e.slot_id = some (e.slot_id, r))
      (hmem : x.name ∈ names (nm.lists.read r)) (slots_cache : nm'.slots_cache = nm.slots_cache)
      (lists : nm'.lists = nm.lists.write r (promote x (nm.lists.read r)))
  | replaced (h : ¬ c.Rejects e) (r : Ref) (x : ClusterNode) (hx : x.name = nm.redirectName e)
      (hs : nm.slots_cache.get? e.slot_id = some (e.slot_id, r))
      (hmem : x.name ∉ names (nm.lists.read r))
      (slots_cache : nm'.slots_cache = nm.slots_cache.put (e.slot_id, nm.lists.next))
      (lists : nm'.lists = (nm.lists.alloc [x]).2)

theorem redirect_touches (c : Variant) (nm : NodesManager) (e : Redirect) :
    Touches c nm (redirect c nm e) e := by
  have hu := updateMovedSlots_cases c { nm with moved_exception := some e } e rfl
  unfold redirect
  generalize c.updateMovedSlots.run _ = r at hu ⊢
  cases hu with
  | rejected err h => exact .rejected h rfl
  | uncovered err h hx hs => exact .uncovered h hs hx.slots_cache hx.lists
  | @failover x p tl r nm₁ nm' h hx hs hr hmem lists slots_cache =>
    rw [← hr] at hmem lists
    exact .failover h r x hx.name hs hmem slots_cache lists
  | @replaced x r nm₁ nm' h hx hs hmem lists slots_cache =>
    exact .replaced h r x hx.name hs hmem slots_cache lists

theorem slotNodes_congr {nm nm' : NodesManager} {t : Int}
    (hs : nm'.slots_cache.get? t = nm.slots_cache.get? t)
    (hl : ∀ entry, nm.slots_cache.get? t = some entry →
      nm'.lists.read entry.2 = nm.lists.read entry.2) : nm'.slotNodes t = nm.slotNodes t := by
  simp only [slotNodes, hs]
  cases h : nm.slots_cache.get? t with
  | none => rfl
  | some entry => simp [hl entry h]

/-- A slot that gets its own list leaves the others alone, and shares it with none. -/
theorem replaced_apart {nm nm' : NodesManager} {s : Int} {x : ClusterNode} (hwf : nm.Wf)
    (hs : nm'.slots_cache = nm.slots_cache.put (s, nm.lists.next))
    (hl : nm'.lists = (nm.lists.alloc [x]).2) :
    SameElsewhere s nm nm' ∧ ∀ t ≠ s, ¬ SharesList nm' s t := by
  have hget : ∀ t ≠ s, nm'.slots_cache.get? t = nm.slots_cache.get? t := by
    intro t ht
    rw [hs]
    exact Keyed.get?_put_ne nm.slots_cache ht
  constructor
  · intro t ht
    rw [slotNodes_congr (hget t ht)]
    intro entry he
    rw [hl]
    exact Heap.read_alloc_of_lt _ _ (hwf.slots entry (Keyed.mem_of_get? he))
  · rintro t ht ⟨r, hr, hr'⟩
    have hself : nm'.slots_cache.get? s = some (s, nm.lists.next) := by
      rw [hs]
      exact Keyed.get?_put_self nm.slots_cache (s, nm.lists.next)
    obtain rfl : nm.lists.next = r := by simpa [hself] using hr
    rw [hget t ht] at hr'
    exact Nat.lt_irrefl _ (hwf.slots _ (Keyed.mem_of_get? hr'))

/-- No redirection of `s` can reach another slot any more. -/
def Apart (nm : NodesManager) (s : Int) : Prop :=
  ∀ nodes, nm.slotNodes s = some nodes →
    (∀ t ≠ s, ¬ SharesList nm s t) ∨ ∃ y, ∀ n ∈ names nodes, n = y

/-- Editing the list of `s` reaches the slots that share it, and no other. -/
theorem slotNodes_write {nm nm' : NodesManager} {s t : Int} {r : Ref} {nodes : List ClusterNode}
    (hs : nm.slots_cache.get? s = some (s, r)) (hsc : nm'.slots_cache = nm.slots_cache)
    (hl : nm'.lists = nm.lists.write r nodes) (ht : ¬ SharesList nm s t) :
    nm'.slotNodes t = nm.slotNodes t := by
  apply slotNodes_congr (by rw [hsc])
  rintro ⟨t', r'⟩ he
  obtain rfl : t' = t := Keyed.key_of_get? he
  rw [hl]
  apply Heap.read_write_ne
  rintro rfl
  exact ht ⟨r', hs, he⟩

theorem slotNodes_write_shared {nm nm' : NodesManager} {s t : Int} {r : Ref}
    {nodes : List ClusterNode} (hs : nm.slots_cache.get? s = some (s, r))
    (hsc : nm'.slots_cache = nm.slots_cache) (hl : nm'.lists = nm.lists.write r nodes)
    (ht : SharesList nm s t) :
    nm.slotNodes t = some (nm.lists.read r) ∧ nm'.slotNodes t = some nodes := by
  obtain ⟨r', hr, hr'⟩ := ht
  obtain rfl : r' = r := by simpa [hs] using hr.symm
  exact ⟨slotNodes_eq hr', by simp [slotNodes, hsc, hr', hl]⟩

/-- Once a slot is apart, its redirections stay with it. -/
theorem apart_step (c : Variant) {nm : NodesManager} (e : Redirect) (hwf : nm.Wf)
    (h : Apart nm e.slot_id) :
    SameElsewhere e.slot_id nm (redirect c nm e) ∧ Apart (redirect c nm e) e.slot_id := by
  have ht := redirect_touches c nm e
  generalize redirect c nm e = nm' at ht ⊢
  cases ht with
  | rejected hc hnm =>
    subst hnm
    exact ⟨.refl _ _, h⟩
  | uncovered hc hs slots_cache lists =>
    refine ⟨fun t _ => ?_, fun nodes hn => ?_⟩
    · rw [slotNodes, slots_cache, lists, slotNodes]
    · simp [slotNodes, slots_cache, hs] at hn
  | replaced hc r x hx hs hmem slots_cache lists =>
    obtain ⟨hsame, happ⟩ := replaced_apart hwf slots_cache lists
    exact ⟨hsame, fun _ _ => .inl happ⟩
  | failover hc r x hx hs hmem slots_cache lists =>
    have hs₀ := slotNodes_eq hs
    have hs' : nm'.slotNodes e.slot_id = some (promote x (nm.lists.read r)) := by
      simp [slotNodes, slots_cache, hs, lists]
    rcases h _ hs₀ with hun | ⟨y, hy⟩
    · refine ⟨fun t ht => ?_, fun _ _ => .inl ?_⟩
      · rw [slotNodes_write hs slots_cache lists (hun t ht)]
      · simpa only [SharesList, slots_cache] using hun
    · have hsame : names (promote x (nm.lists.read r)) = names (nm.lists.read r) :=
        (names_promote_eq_iff hmem).mpr fun n hn => (hy n hn).trans (hy _ hmem).symm
      refine ⟨fun t _ => ?_, fun nodes hn => .inr ⟨y, ?_⟩⟩
      · by_cases hsh : SharesList nm e.slot_id t
        · obtain ⟨hb, ha⟩ := slotNodes_write_shared hs slots_cache lists hsh
          rw [hb, ha]
          simp [hsame]
        · rw [slotNodes_write hs slots_cache lists hsh]
      · obtain rfl := Option.some.inj (hs'.symm.trans hn)
        rwa [hsame]

/-! ### Sequences of redirections -/

theorem apart_run (c : Variant) {nm : NodesManager} {s : Int} (es : List Redirect)
    (hes : ∀ e ∈ es, e.slot_id = s) (hwf : nm.Wf) (h : Apart nm s) :
    SameElsewhere s nm (redirectAll c nm es) := by
  induction es generalizing nm with
  | nil => exact .refl s nm
  | cons e es ih =>
    obtain rfl := hes e (by simp)
    obtain ⟨hsame, happ⟩ := apart_step c e hwf h
    exact hsame.trans (ih (fun e' h' => hes e' (by simp [h'])) (redirect_wf c e hwf) happ)

/-- A first redirection that `get_node` takes and that `FrameWhen` allows. -/
theorem frame_of_first (c : Variant) {nm : NodesManager} {e : Redirect} (hwf : nm.Wf)
    (hc : ¬ c.Rejects e) (h : ∀ nodes, nm.slotNodes e.slot_id = some nodes →
      (∀ t ≠ e.slot_id, ¬ SharesList nm e.slot_id t) ∨ nm.redirectName e ∉ names nodes ∨
        ∀ n ∈ names nodes, n = nm.redirectName e) :
    SameElsewhere e.slot_id nm (redirect c nm e) ∧ Apart (redirect c nm e) e.slot_id := by
  cases redirect_touches c nm e with
  | rejected h' => exact absurd h' hc
  | uncovered _ hs =>
    exact apart_step c e hwf fun nodes hn => by simp [slotNodes, hs] at hn
  | replaced _ r x _ _ _ slots_cache lists =>
    obtain ⟨hsame, happ⟩ := replaced_apart hwf slots_cache lists
    exact ⟨hsame, fun _ _ => .inl happ⟩
  | failover _ r x hx hs hmem =>
    have hs₀ := slotNodes_eq hs
    apply apart_step c e hwf
    intro nodes hn
    obtain rfl := Option.some.inj (hs₀.symm.trans hn)
    rcases h _ hs₀ with hun | hno | hall
    · exact .inl hun
    · exact absurd (hx ▸ hmem) hno
    · exact .inr ⟨_, hall⟩

/-- A failover of a shared list with another node in it is seen by the slots that share it. -/
theorem first_of_frame (c : Variant) {nm : NodesManager} {e : Redirect} (hc : ¬ c.Rejects e)
    (hsame : SameElsewhere e.slot_id nm (redirect c nm e)) :
    ∀ nodes, nm.slotNodes e.slot_id = some nodes →
      (∀ t ≠ e.slot_id, ¬ SharesList nm e.slot_id t) ∨ nm.redirectName e ∉ names nodes ∨
        ∀ n ∈ names nodes, n = nm.redirectName e := by
  intro nodes hn
  cases redirect_touches c nm e with
  | rejected h' => exact absurd h' hc
  | uncovered _ hs => simp [slotNodes, hs] at hn
  | replaced _ r x hx hs hmem =>
    obtain rfl := Option.some.inj ((slotNodes_eq hs).symm.trans hn)
    exact .inr (.inl (hx ▸ hmem))
  | failover _ r x hx hs hmem slots_cache lists =>
    obtain rfl := Option.some.inj ((slotNodes_eq hs).symm.trans hn)
    by_cases hsh : ∃ t ≠ e.slot_id, SharesList nm e.slot_id t
    · obtain ⟨t, ht, hsh⟩ := hsh
      obtain ⟨hb, ha⟩ := slotNodes_write_shared hs slots_cache lists hsh
      have hnames := hsame t ht
      rw [hb, ha] at hnames
      have := (names_promote_eq_iff hmem).mp (Option.some.inj hnames)
      exact .inr (.inr fun n hn' => (this n hn').trans hx)
    · exact .inl fun t ht h => hsh ⟨t, ht, h⟩

/-- No prefix of a sequence of redirections of one slot touches another slot,
exactly when the first one that is taken meets the condition. -/
theorem sameElsewhere_iff (c : Variant) {nm : NodesManager} {s : Int} (es : List Redirect)
    (hes : ∀ e ∈ es, e.slot_id = s) (hwf : nm.Wf) :
    (∀ es', es' <+: es → SameElsewhere s nm (redirectAll c nm es')) ↔ FrameWhen c nm s es := by
  induction es generalizing nm with
  | nil =>
    constructor
    · rintro - e he
      simp at he
    · intro _ es' hp
      rw [List.prefix_nil.mp hp]
      exact .refl s nm
  | cons e es ih =>
    obtain rfl := hes e (by simp)
    have hes' : ∀ e' ∈ es, e'.slot_id = e.slot_id := fun e' h' => hes e' (by simp [h'])
    by_cases hc : c.Rejects e
    · have hnm : redirect c nm e = { nm with moved_exception := some e } := by
        cases redirect_touches c nm e with
        | rejected _ h => exact h
        | uncovered h' => exact absurd hc h'
        | failover h' => exact absurd hc h'
        | replaced h' => exact absurd hc h'
      have hwhen : FrameWhen c nm e.slot_id (e :: es) ↔
          FrameWhen c (redirect c nm e) e.slot_id es := by
        rw [hnm]
        simp only [FrameWhen, List.filter_cons, hc]
        rfl
      have hsame : SameElsewhere e.slot_id nm (redirect c nm e) := hnm ▸ .refl e.slot_id nm
      rw [hwhen, ← ih hes' (redirect_wf c e hwf)]
      constructor
      · intro h es' hp
        exact hsame.symm.trans (h (e :: es') (List.cons_prefix_cons.mpr ⟨rfl, hp⟩))
      · intro h es' hp
        cases es' with
        | nil => exact .refl e.slot_id nm
        | cons e' es' =>
          obtain ⟨rfl, hp'⟩ := List.cons_prefix_cons.mp hp
          exact hsame.trans (h es' hp')
    · have hwhen : FrameWhen c nm e.slot_id (e :: es) ↔ ∀ nodes, nm.slotNodes e.slot_id = some nodes →
          (∀ t ≠ e.slot_id, ¬ SharesList nm e.slot_id t) ∨ nm.redirectName e ∉ names nodes ∨
            ∀ n ∈ names nodes, n = nm.redirectName e := by
        simp [FrameWhen, hc]
      rw [hwhen]
      constructor
      · intro h
        exact first_of_frame c hc (h [e] (by simp))
      · intro h es' hp
        cases es' with
        | nil => exact .refl e.slot_id nm
        | cons e' es' =>
          obtain ⟨rfl, hp'⟩ := List.cons_prefix_cons.mp hp
          obtain ⟨hsame, happ⟩ := frame_of_first c hwf hc h
          exact hsame.trans (apart_run c es' (fun e h' => hes' e (hp'.subset h'))
            (redirect_wf c e' hwf) happ)

/-- The frame of redirections over a topology that `initialize` has installed. -/
theorem redirectAll_frame_iff (c : Variant) (nm₀ nm : NodesManager) (cluster_slots : ClusterSlots)
    (h₀ : Reachable c nm₀) (hinit : (c.initializeNodes cluster_slots).run nm₀ = .ok () nm)
    (s : Int) (es : List Redirect) (hes : ∀ e ∈ es, e.slot_id = s) :
    (∀ es', es' <+: es → SameElsewhere s nm (redirectAll c nm es')) ↔ FrameWhen c nm s es := by
  have h : Reachable c nm := by
    have := h₀.initializeNodes cluster_slots
    rwa [hinit] at this
  exact sameElsewhere_iff c es hes (reachable_wf h)

theorem redirectAll_frame_iff_shard :
    (∀ es', es' <+: [⟨0, "10.0.0.3", 7000⟩] →
        SameElsewhere 0 (shardManager .sync) (redirectAll .sync (shardManager .sync) es')) ↔
      FrameWhen .sync (shardManager .sync) 0 [⟨0, "10.0.0.3", 7000⟩] :=
  redirectAll_frame_iff .sync freshManager (shardManager .sync) oneShard (.init _ _)
    (shardManager_ok .sync) 0 [⟨0, "10.0.0.3", 7000⟩] (by simp)

/-- A failover of slot 0 turns the node list of slot 1 around. -/
theorem failover_reaches_slot_one :
    Reachable .sync freshManager ∧
      (Variant.sync.initializeNodes oneShard).run freshManager = .ok () (shardManager .sync) ∧
      ¬ SameElsewhere 0 (shardManager .sync)
        (redirectAll .sync (shardManager .sync) [⟨0, "10.0.0.2", 7000⟩]) := by
  refine ⟨.init _ _, shardManager_ok .sync, fun h => ?_⟩
  have hb : ((shardManager .sync).slotNodes 1).map names =
      some ["10.0.0.1:7000", "10.0.0.2:7000"] := by decide +kernel
  have ha : ((redirectAll .sync (shardManager .sync) [⟨0, "10.0.0.2", 7000⟩]).slotNodes 1).map names =
      some ["10.0.0.2:7000", "10.0.0.1:7000"] := by decide +kernel
  have := h 1 (by decide)
  rw [ha, hb] at this
  exact absurd this (by decide)

end RedisPy
