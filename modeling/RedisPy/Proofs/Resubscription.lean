import Mathlib
import RedisPy.Library.Fallible
import RedisPy.Spec.Resubscription
import RedisPy.Spec.Text

/-! When a reconnected `PubSub` is subscribed to what it was: the way of a name through decoding,
keyword arguments, encoding and normalising has to end where it began. -/

namespace RedisPy

open Raising Fallible

theorem items_dictOf_of_nodup {κ H : Type} [DecidableEq κ] {l : List (κ × H)}
    (h : (l.map Prod.fst).Nodup) : (dictOf l).items = l :=
  Keyed.items_foldl_put_of_nodup (d := ∅) h

theorem length_items_dictOf_le {κ H : Type} [DecidableEq κ] (l : List (κ × H)) :
    (dictOf l).items.length ≤ l.length :=
  (Keyed.length_items_foldl_put_le l ∅).trans_eq (Nat.zero_add _)

theorem items_dictOf_of_length {κ H : Type} [DecidableEq κ] {l : List (κ × H)}
    (h : (dictOf l).items.length = l.length) : (dictOf l).items = l :=
  Keyed.items_foldl_put_of_length (d := ∅) (h.trans (Nat.zero_add _).symm)

namespace Subscriptions

variable {τ H : Type} [DecidableEq τ] (enc : SubscriptionEncoder τ)

/-- The name comes back from the way through text, and its text is no parameter of the method. -/
def RoundTrips (k : Kind) (b : Bytes) : Prop :=
  ∃ t, enc.decode b = .ok t ∧ enc.encode t = .ok b ∧ t ≠ enc.self ∧
    (k = .shard_channels → t ≠ enc.target_node)

/-- The key that a name with this text is kept under. -/
def keyFor (b : Bytes) (t : τ) : SubscriptionKey τ := if enc.decode_responses then .str t else .bytes b

variable {enc} {b : Bytes} {t : τ} {key : SubscriptionKey τ}

omit [DecidableEq τ] in
theorem keyOf_of_decode (h : enc.decode b = .ok t) : enc.keyOf b = .ok (keyFor enc b t) := by
  unfold SubscriptionEncoder.keyOf keyFor
  split
  · rw [h]
    rfl
  · rfl

omit [DecidableEq τ] in
theorem forceText_keyFor (h : enc.decode b = .ok t) : enc.forceText (keyFor enc b t) = .ok t := by
  unfold keyFor
  split
  · rfl
  · exact h

omit [DecidableEq τ] in
/-- Forcing the key of a name is decoding the name. -/
theorem decode_of_forceText (hk : enc.keyOf b = .ok key) (ht : enc.forceText key = .ok t) :
    enc.decode b = .ok t := by
  unfold SubscriptionEncoder.keyOf at hk
  split at hk
  · obtain ⟨t', hb, rfl⟩ := map_ok hk
    cases ht
    exact hb
  · cases hk
    exact ht

variable {k : Kind} {s s' : Subscriptions τ H}

/-- A subscription that does not raise, step by step. -/
theorem subscribeKwargs_ok {kwargs : Dict τ H} :
    (subscribeKwargs enc k kwargs).run s = .ok () s' ↔
      ∃ new names normalized, bindKwargs enc k kwargs = .ok new ∧
        new.keys.mapM enc.encode = .ok names ∧ normalizeKeys enc new = .ok normalized ∧
        s' = { s with
          sent := s.sent ++ [(k, names)]
          registered := Function.update s.registered k
            (normalized.items.foldl Keyed.put (s.registered k))
          pending_unsubscribe := Function.update s.pending_unsubscribe k
            ((s.pending_unsubscribe k).filter (· ∉ normalized.keys)) } := by
  unfold subscribeKwargs
  cases hbind : bindKwargs enc k kwargs with
  | error e => simp [raises]
  | ok new =>
    cases hencode : new.keys.mapM enc.encode with
    | error e => simp [raises, hencode]
    | ok names =>
      cases hnormal : normalizeKeys enc new with
      | error e => simp [raises, hencode, hnormal]
      | ok normalized => simp [raises, hencode, hnormal, eq_comm]

theorem resubscribeTo_ok :
    (resubscribeTo enc k).run s = .ok () s' ↔
      ((s.registered k).items = [] ∧ s' = s) ∨ ((s.registered k).items ≠ [] ∧
        ∃ kwargs, forcedItems enc (s.registered k) = .ok kwargs ∧
          (subscribeKwargs enc k kwargs).run s = .ok () s') := by
  by_cases hnone : (s.registered k).items = []
  · have hrun : (resubscribeTo enc k).run s = .ok () s := by simp [resubscribeTo, hnone]
    constructor
    · intro h
      rw [hrun] at h
      cases h
      exact .inl ⟨hnone, rfl⟩
    · rintro (⟨-, rfl⟩ | ⟨hsome, -⟩)
      · exact hrun
      · exact absurd hnone hsome
  · cases hforced : forcedItems enc (s.registered k) with
    | error e => simp [resubscribeTo, raises, hnone, hforced]
    | ok kwargs => simp [resubscribeTo, raises, hnone, hforced]

/-! ### One dictionary -/

omit [DecidableEq τ] in
theorem nodup_texts {names : Dict Bytes H} {f : Bytes × H → τ}
    (hencode : ∀ p ∈ names.items, enc.encode (f p) = .ok p.1) :
    ((names.items.map fun p => (f p, p.2)).map Prod.fst).Nodup := by
  rw [List.map_map]
  apply List.Nodup.map_on _ names.nodup.of_map
  intro p hp q hq h
  have hname : Except.ok p.1 = (Except.ok q.1 : Except Exc Bytes) := by
    rw [← hencode p hp, ← hencode q hq]
    exact congrArg enc.encode h
  exact List.inj_on_of_nodup_map names.nodup hp hq (Except.ok.inj hname)

omit [DecidableEq τ] in
theorem nodup_keys {names : Dict Bytes H} {f : Bytes × H → τ}
    (hdecode : ∀ p ∈ names.items, enc.decode p.1 = .ok (f p))
    (hencode : ∀ p ∈ names.items, enc.encode (f p) = .ok p.1) :
    ((names.items.map fun p => (keyFor enc p.1 (f p), p.2)).map Prod.fst).Nodup := by
  rw [List.map_map]
  apply List.Nodup.map_on _ names.nodup.of_map
  intro p hp q hq h
  have htext : Except.ok (f p) = (Except.ok (f q) : Except Exc τ) := by
    rw [← forceText_keyFor (hdecode p hp), ← forceText_keyFor (hdecode q hq)]
    exact congrArg enc.forceText h
  have hname : Except.ok p.1 = (Except.ok q.1 : Except Exc Bytes) := by
    rw [← hencode p hp, Except.ok.inj htext, hencode q hq]
  exact List.inj_on_of_nodup_map names.nodup hp hq (Except.ok.inj hname)

theorem registeredFor_eq {names : List (Bytes × H)} {f : Bytes × H → τ}
    (h : ∀ p ∈ names, enc.decode p.1 = .ok (f p)) :
    registeredFor enc names = dictOf (names.map fun p => (keyFor enc p.1 (f p), p.2)) := by
  unfold registeredFor
  rw [← List.filterMap_eq_map]
  congr 1
  apply List.filterMap_congr
  intro p hp
  rw [keyOf_of_decode (h p hp)]
  rfl

theorem forcedItems_eq {names : List (Bytes × H)} {f : Bytes × H → τ}
    (h : ∀ p ∈ names, enc.decode p.1 = .ok (f p)) {d : Dict (SubscriptionKey τ) H}
    (hd : d.items = names.map fun p => (keyFor enc p.1 (f p), p.2)) :
    forcedItems enc d = .ok (dictOf (names.map fun p => (f p, p.2))) := by
  have htexts : d.items.mapM (fun item => (enc.forceText item.1).map fun t => (t, item.2)) =
      .ok (names.map fun p => (f p, p.2)) := by
    rw [hd, List.mapM_map, mapM_eq_ok_map]
    rintro ⟨b, handler⟩ hp
    simp only [Function.comp_apply, forceText_keyFor (h _ hp)]
    rfl
  unfold forcedItems
  rw [htexts]
  rfl

omit [DecidableEq τ] in
theorem mapM_encode_eq {names : List (Bytes × H)} {f : Bytes × H → τ} :
    (names.map f).mapM enc.encode = .ok (names.map Prod.fst) ↔
      ∀ p ∈ names, enc.encode (f p) = .ok p.1 := by
  rw [List.mapM_map]
  exact mapM_eq_ok_map

theorem normalizeKeys_eq {names : List (Bytes × H)} {f : Bytes × H → τ}
    (hdecode : ∀ p ∈ names, enc.decode p.1 = .ok (f p))
    (hencode : ∀ p ∈ names, enc.encode (f p) = .ok p.1) {kwargs : Dict τ H}
    (hd : kwargs.items = names.map fun p => (f p, p.2)) :
    normalizeKeys enc kwargs = .ok (dictOf (names.map fun p => (keyFor enc p.1 (f p), p.2))) := by
  have hkeys : kwargs.items.mapM
      (fun item => (enc.normalizeKey item.1).map fun key => (key, item.2)) =
      .ok (names.map fun p => (keyFor enc p.1 (f p), p.2)) := by
    rw [hd, List.mapM_map, mapM_eq_ok_map]
    rintro ⟨b, handler⟩ hp
    simp only [Function.comp_apply, SubscriptionEncoder.normalizeKey, hencode _ hp,
      keyOf_of_decode (hdecode _ hp)]
    rfl
  unfold normalizeKeys
  rw [hkeys]
  rfl

/-- What the part for one dictionary sends and leaves. -/
def FaithfulTo (k : Kind) (names : List Bytes) (s s' : Subscriptions τ H) : Prop :=
  s'.registered k = s.registered k ∧ s'.sent = s.sent ++ if names = [] then [] else [(k, names)]

theorem bindKwargs_of_free {kwargs : Dict τ H} (hself : enc.self ∉ kwargs.keys)
    (htarget : k = .shard_channels → enc.target_node ∉ kwargs.keys) :
    bindKwargs enc k kwargs = .ok kwargs := by
  unfold bindKwargs
  rw [if_neg hself]
  split
  · rename_i hk
    rw [Keyed.erase_of_not_mem (htarget hk)]
  · rfl

/-- Names that come back are subscribed to again. -/
theorem faithful_of_roundTrips {names : Dict Bytes H}
    (hs : s.registered k = registeredFor enc names.items)
    (h : ∀ p ∈ names.items, RoundTrips enc k p.1) :
    ∃ s', (resubscribeTo enc k).run s = .ok () s' ∧ FaithfulTo k (names.items.map Prod.fst) s s' := by
  have : Nonempty τ := ⟨enc.self⟩
  choose! f hdecode hencode hself htarget using h
  rw [registeredFor_eq hdecode] at hs
  have hitems : (s.registered k).items = names.items.map fun p => (keyFor enc p.1 (f p), p.2) := by
    rw [hs, items_dictOf_of_nodup (nodup_keys hdecode hencode)]
  by_cases hnone : names.items = []
  · refine ⟨s, resubscribeTo_ok.mpr (.inl ⟨by rw [hitems, hnone]; rfl, rfl⟩), rfl, ?_⟩
    rw [hnone]
    exact (List.append_nil _).symm
  · have htexts := items_dictOf_of_nodup (nodup_texts hencode)
    have hkeys : (dictOf (names.items.map fun p => (f p, p.2))).keys = names.items.map f := by
      rw [Keyed.keys, htexts, List.map_map]
      rfl
    have hfree : ∀ t, (∀ p ∈ names.items, f p ≠ t) →
        t ∉ (dictOf (names.items.map fun p => (f p, p.2))).keys := by
      intro t ht hin
      rw [hkeys] at hin
      obtain ⟨p, hp, rfl⟩ := List.mem_map.mp hin
      exact ht p hp rfl
    have hbind := bindKwargs_of_free (k := k) (hfree _ hself)
      fun hk => hfree _ fun p hp => htarget p hp hk
    have hsome : (s.registered k).items ≠ [] := by
      rw [hitems]
      exact fun h => hnone (List.map_eq_nil_iff.mp h)
    have hnames : (dictOf (names.items.map fun p => (f p, p.2))).keys.mapM enc.encode =
        .ok (names.items.map Prod.fst) := by
      rw [hkeys]
      exact mapM_encode_eq.mpr hencode
    refine ⟨_, resubscribeTo_ok.mpr (.inr ⟨hsome, _, forcedItems_eq hdecode hitems,
      subscribeKwargs_ok.mpr ⟨_, _, _, hbind, hnames, normalizeKeys_eq hdecode hencode htexts,
        rfl⟩⟩), ?_, ?_⟩
    · simp only [Function.update_self]
      rw [← hs]
      exact Keyed.foldl_put_of_mem fun a ha => ha
    · rw [if_neg fun h => hnone (List.map_eq_nil_iff.mp h)]

theorem bindKwargs_ok {kwargs new : Dict τ H} (h : bindKwargs enc k kwargs = .ok new) :
    enc.self ∉ kwargs.keys ∧
      new = if k = .shard_channels then kwargs.erase enc.target_node else kwargs := by
  unfold bindKwargs at h
  split at h
  · cases h
  · exact ⟨‹_›, (Except.ok.inj h).symm⟩

theorem length_of_bindKwargs {kwargs new : Dict τ H} (h : bindKwargs enc k kwargs = .ok new) :
    new.items.length ≤ kwargs.items.length := by
  rw [(bindKwargs_ok h).2]
  split
  · exact Keyed.length_items_erase_le kwargs _
  · exact Nat.le_refl _

/-- Without a loss the method receives what it was passed. -/
theorem eq_of_length_bindKwargs {kwargs new : Dict τ H} (h : bindKwargs enc k kwargs = .ok new)
    (hlength : new.items.length = kwargs.items.length) :
    new = kwargs ∧ (k = .shard_channels → enc.target_node ∉ kwargs.keys) := by
  obtain ⟨-, rfl⟩ := bindKwargs_ok h
  by_cases hk : k = .shard_channels
  · rw [if_pos hk] at hlength ⊢
    have hfree := Keyed.not_mem_of_length_erase hlength
    exact ⟨Keyed.erase_of_not_mem hfree, fun _ => hfree⟩
  · exact ⟨if_neg hk, fun h => absurd h hk⟩

variable (enc) in
theorem length_registeredFor_le (names : List (Bytes × H)) :
    (registeredFor enc names).items.length ≤ names.length :=
  (length_items_dictOf_le _).trans (List.length_filterMap_le _ _)

theorem length_of_forcedItems {d : Dict (SubscriptionKey τ) H} {kwargs : Dict τ H}
    (h : forcedItems enc d = .ok kwargs) : kwargs.items.length ≤ d.items.length := by
  obtain ⟨texts, htexts, rfl⟩ := map_ok h
  exact (length_items_dictOf_le texts).trans_eq (length_of_mapM_ok htexts)

/-- In a dictionary without losses each name has a text. -/
theorem decode_of_forcedItems {names : List (Bytes × H)} {kwargs : Dict τ H}
    (hlength : (registeredFor enc names).items.length = names.length)
    (hforced : forcedItems enc (registeredFor enc names) = .ok kwargs) {p : Bytes × H}
    (hp : p ∈ names) : ∃ t, enc.decode p.1 = .ok t := by
  obtain ⟨texts, htexts, -⟩ := map_ok hforced
  have hfilter := List.length_filterMap_le
    (fun p : Bytes × H => (enc.keyOf p.1).toOption.map fun key => (key, p.2)) names
  have hdict := length_items_dictOf_le
    (names.filterMap fun p => (enc.keyOf p.1).toOption.map fun key => (key, p.2))
  have hitems : (registeredFor enc names).items = _ :=
    items_dictOf_of_length (hlength.trans (Nat.le_antisymm (hlength.symm.trans_le hdict) hfilter))
  have hall := List.filterMap_length_eq_length.mp
    (Nat.le_antisymm hfilter (hlength.symm.trans_le hdict)) p hp
  cases hk : enc.keyOf p.1 with
  | error e =>
    rw [hk] at hall
    cases hall
  | ok key =>
    have hin : (key, p.2) ∈ (registeredFor enc names).items := by
      rw [hitems, List.mem_filterMap]
      exact ⟨p, hp, by rw [hk]; rfl⟩
    obtain ⟨y, hy⟩ := exists_mapM_ok_iff.mp ⟨texts, htexts⟩ _ hin
    obtain ⟨t, ht, -⟩ := map_ok hy
    exact ⟨t, decode_of_forceText hk ht⟩

/-- Only names that come back are subscribed to again. -/
theorem roundTrips_of_faithful {names : Dict Bytes H}
    (hs : s.registered k = registeredFor enc names.items)
    (hrun : (resubscribeTo enc k).run s = .ok () s')
    (hfaithful : FaithfulTo k (names.items.map Prod.fst) s s') {p : Bytes × H}
    (hp : p ∈ names.items) : RoundTrips enc k p.1 := by
  have hsome : names.items.map Prod.fst ≠ [] :=
    List.ne_nil_of_mem (List.mem_map_of_mem (f := Prod.fst) hp)
  have hsent := hfaithful.2
  rw [if_neg hsome] at hsent
  rcases resubscribeTo_ok.mp hrun with ⟨-, rfl⟩ | ⟨-, kwargs, hforced, hsubscribe⟩
  · simp at hsent
  · obtain ⟨new, encoded, normalized, hbind, hencode, -, rfl⟩ := subscribeKwargs_ok.mp hsubscribe
    have hencoded : encoded = names.items.map Prod.fst := by simpa using hsent
    have hlength := length_of_mapM_ok hencode
    rw [hencoded, Keyed.keys, List.length_map, List.length_map] at hlength
    rw [hs] at hforced
    have hnew := length_of_bindKwargs hbind
    have hkwargs := length_of_forcedItems hforced
    have hreg := length_registeredFor_le enc names.items
    have hfull : (registeredFor enc names.items).items.length = names.items.length := by omega
    have hdecode := fun p hp => decode_of_forcedItems (p := p) hfull hforced hp
    have : Nonempty τ := ⟨enc.self⟩
    choose! f hdecode using hdecode
    have hkeys : (registeredFor enc names.items).items =
        names.items.map fun p => (keyFor enc p.1 (f p), p.2) := by
      rw [registeredFor_eq hdecode] at hfull ⊢
      exact items_dictOf_of_length (hfull.trans (List.length_map _).symm)
    rw [forcedItems_eq hdecode hkeys] at hforced
    cases hforced
    have htexts : (dictOf (names.items.map fun p => (f p, p.2))).items = _ :=
      items_dictOf_of_length (by rw [List.length_map]; omega)
    have hnames : (dictOf (names.items.map fun p => (f p, p.2))).keys = names.items.map f := by
      rw [Keyed.keys, htexts, List.map_map]
      rfl
    have hin : f p ∈ (dictOf (names.items.map fun p => (f p, p.2))).keys := by
      rw [hnames]
      exact List.mem_map_of_mem hp
    obtain ⟨rfl, htarget⟩ := eq_of_length_bindKwargs hbind (by omega)
    have hself := (bindKwargs_ok hbind).1
    rw [hnames, hencoded] at hencode
    exact ⟨f p, hdecode p hp, mapM_encode_eq.mp hencode p hp, fun h => hself (h ▸ hin),
      fun hk h => htarget hk (h ▸ hin)⟩

/-! ### All dictionaries -/

/-- What the part for one dictionary leaves alone. -/
theorem resubscribeTo_frame (hrun : (resubscribeTo enc k).run s = .ok () s') :
    (∃ t, s'.sent = s.sent ++ t ∧ ∀ e ∈ t, e.1 = k) ∧
      ∀ j, j ≠ k → s'.registered j = s.registered j := by
  rcases resubscribeTo_ok.mp hrun with ⟨-, rfl⟩ | ⟨-, kwargs, -, hsubscribe⟩
  · exact ⟨⟨[], (List.append_nil _).symm, by simp⟩, fun _ _ => rfl⟩
  · obtain ⟨new, names, normalized, -, -, -, rfl⟩ := subscribeKwargs_ok.mp hsubscribe
    refine ⟨⟨[(k, names)], rfl, ?_⟩, fun j hj => Function.update_of_ne hj _ _⟩
    intro e he
    rw [List.mem_singleton.mp he]

theorem resubscribeAll_cons_ok {ks : List Kind} :
    (resubscribeAll enc (k :: ks)).run s = .ok () s' ↔
      ∃ s₁, (resubscribeTo enc k).run s = .ok () s₁ ∧ (resubscribeAll enc ks).run s₁ = .ok () s' := by
  rw [resubscribeAll, EStateM.run_bind]
  cases (resubscribeTo enc k).run s with
  | error e s₁ => simp
  | ok u s₁ => simp

theorem resubscribeAll_frame {ks : List Kind} (hrun : (resubscribeAll enc ks).run s = .ok () s') :
    (∃ t, s'.sent = s.sent ++ t ∧ ∀ e ∈ t, e.1 ∈ ks) ∧
      ∀ j, j ∉ ks → s'.registered j = s.registered j := by
  induction ks generalizing s with
  | nil =>
    cases hrun
    exact ⟨⟨[], (List.append_nil _).symm, by simp⟩, fun _ _ => rfl⟩
  | cons k ks ih =>
    obtain ⟨s₁, hfirst, hrest⟩ := resubscribeAll_cons_ok.mp hrun
    obtain ⟨⟨t, ht, htk⟩, hregistered⟩ := resubscribeTo_frame hfirst
    obtain ⟨⟨t', ht', htk'⟩, hregistered'⟩ := ih hrest
    refine ⟨⟨t ++ t', by rw [ht', ht, List.append_assoc], ?_⟩, ?_⟩
    · intro e he
      cases List.mem_append.mp he with
      | inl he => exact htk e he ▸ List.mem_cons_self
      | inr he => exact List.mem_cons_of_mem _ (htk' e he)
    · intro j hj
      rw [List.mem_cons, not_or] at hj
      rw [hregistered' j hj.2, hregistered j hj.1]

/-- Entries of one kind, and then entries of others. -/
theorem append_inj_of_kind {l l' m m' : List (Kind × List Bytes)} (hl : ∀ e ∈ l, e.1 = k)
    (hm : ∀ e ∈ m, e.1 = k) (hl' : ∀ e ∈ l', e.1 ≠ k) (hm' : ∀ e ∈ m', e.1 ≠ k)
    (h : l ++ l' = m ++ m') : l = m ∧ l' = m' := by
  have hkind : ∀ {x x' : List (Kind × List Bytes)}, (∀ e ∈ x, e.1 = k) → (∀ e ∈ x', e.1 ≠ k) →
      (x ++ x').filter (fun e => e.1 = k) = x := by
    intro x x' hx hx'
    rw [List.filter_append, List.filter_eq_self.mpr fun e he => decide_eq_true (hx e he),
      List.filter_eq_nil_iff.mpr fun e he => by simpa using hx' e he, List.append_nil]
  have hfirst : l = m := by rw [← hkind hl hl', h, hkind hm hm']
  exact ⟨hfirst, List.append_cancel_left (hfirst ▸ h)⟩

/-- What has to be sent for these dictionaries. -/
def subscriptionsTo (names : Kind → Dict Bytes H) (ks : List Kind) : List (Kind × List Bytes) :=
  ks.flatMap fun k =>
    if (names k).items.map Prod.fst = [] then [] else [(k, (names k).items.map Prod.fst)]

theorem subscriptionsTo_cons (names : Kind → Dict Bytes H) (k : Kind) (ks : List Kind) :
    subscriptionsTo names (k :: ks) =
      (if (names k).items.map Prod.fst = [] then [] else [(k, (names k).items.map Prod.fst)]) ++
        subscriptionsTo names ks := List.flatMap_cons

theorem kind_of_mem_subscriptionsTo {names : Kind → Dict Bytes H} {ks : List Kind}
    {e : Kind × List Bytes} (h : e ∈ subscriptionsTo names ks) : e.1 ∈ ks := by
  obtain ⟨k, hk, he⟩ := List.mem_flatMap.mp h
  split at he
  · cases he
  · rw [List.mem_singleton.mp he]
    exact hk

/-- Everything subscribed to is subscribed to again, byte for byte, and stays as it was. -/
def Resubscribed (names : Kind → Dict Bytes H) (ks : List Kind) (s s' : Subscriptions τ H) : Prop :=
  (∀ k ∈ ks, s'.registered k = s.registered k) ∧ s'.sent = s.sent ++ subscriptionsTo names ks

theorem resubscribed_cons_iff {names : Kind → Dict Bytes H} {ks : List Kind}
    {s₁ : Subscriptions τ H} (hk : k ∉ ks) (hfirst : (resubscribeTo enc k).run s = .ok () s₁)
    (hrest : (resubscribeAll enc ks).run s₁ = .ok () s') :
    Resubscribed names (k :: ks) s s' ↔
      FaithfulTo k ((names k).items.map Prod.fst) s s₁ ∧ Resubscribed names ks s₁ s' := by
  obtain ⟨⟨t, ht, htk⟩, hframe⟩ := resubscribeTo_frame hfirst
  obtain ⟨⟨t', ht', htk'⟩, hframe'⟩ := resubscribeAll_frame hrest
  have hsent : s'.sent = s.sent ++ (t ++ t') := by rw [ht', ht, List.append_assoc]
  have hne : ∀ j ∈ ks, j ≠ k := fun j hj h => hk (h ▸ hj)
  unfold Resubscribed FaithfulTo
  simp only [hsent, ht, List.append_assoc, List.append_cancel_left_eq, subscriptionsTo_cons]
  constructor
  · rintro ⟨hregistered, h⟩
    obtain ⟨hmine, hothers⟩ := append_inj_of_kind htk
      (by intro e he; split at he <;> simp_all) (fun e he => hne _ (htk' e he))
      (fun e he => hne _ (kind_of_mem_subscriptionsTo he)) h
    refine ⟨⟨?_, hmine⟩, fun j hj => ?_, hothers⟩
    · rw [← hframe' k hk]
      exact hregistered k List.mem_cons_self
    · rw [hframe j (hne j hj)]
      exact hregistered j (List.mem_cons_of_mem _ hj)
  · rintro ⟨⟨hmine, ht⟩, hothers, ht'⟩
    refine ⟨fun j hj => ?_, congrArg₂ _ ht ht'⟩
    cases List.mem_cons.mp hj with
    | inl h => rw [h, hframe' k hk, hmine]
    | inr h => rw [hothers j h, hframe j (hne j h)]

/-- The dictionaries are subscribed to again when each name comes back, and only then. -/
theorem resubscribeAll_iff {names : Kind → Dict Bytes H} {ks : List Kind} (hks : ks.Nodup)
    (hs : ∀ k ∈ ks, s.registered k = registeredFor enc (names k).items) :
    (∃ s', (resubscribeAll enc ks).run s = .ok () s' ∧ Resubscribed names ks s s') ↔
      ∀ k ∈ ks, ∀ p ∈ (names k).items, RoundTrips enc k p.1 := by
  induction ks generalizing s with
  | nil => exact iff_of_true ⟨s, rfl, by simp, (List.append_nil _).symm⟩ (by simp)
  | cons k ks ih =>
    obtain ⟨hk, hks⟩ := List.nodup_cons.mp hks
    have hmine := hs k List.mem_cons_self
    have hothers : ∀ {s₁}, (resubscribeTo enc k).run s = .ok () s₁ →
        ∀ j ∈ ks, s₁.registered j = registeredFor enc (names j).items := fun hfirst j hj => by
      rw [(resubscribeTo_frame hfirst).2 j fun h => hk (h ▸ hj)]
      exact hs j (List.mem_cons_of_mem _ hj)
    rw [List.forall_mem_cons]
    constructor
    · rintro ⟨s', hrun, hfaithful⟩
      obtain ⟨s₁, hfirst, hrest⟩ := resubscribeAll_cons_ok.mp hrun
      obtain ⟨hone, hall⟩ := (resubscribed_cons_iff hk hfirst hrest).mp hfaithful
      exact ⟨fun p hp => roundTrips_of_faithful hmine hfirst hone hp,
        (ih hks (hothers hfirst)).mp ⟨s', hrest, hall⟩⟩
    · rintro ⟨hone, hall⟩
      obtain ⟨s₁, hfirst, hfaithful⟩ := faithful_of_roundTrips hmine hone
      obtain ⟨s', hrest, hresubscribed⟩ := (ih hks (hothers hfirst)).mpr hall
      exact ⟨s', resubscribeAll_cons_ok.mpr ⟨s₁, hfirst, hrest⟩,
        (resubscribed_cons_iff hk hfirst hrest).mpr ⟨hfaithful, hresubscribed⟩⟩

/-- A `PubSub` that is subscribed to these names. -/
def subscribed (enc : SubscriptionEncoder τ) (names : Kind → Dict Bytes H)
    (pending : Kind → List (SubscriptionKey τ)) (sent : List (Kind × List Bytes)) :
    Subscriptions τ H where
  registered := fun k => registeredFor enc (names k).items
  pending_unsubscribe := pending
  sent := sent

/-- `on_connect` raises nothing, sends for exactly the names and keeps the dictionaries. -/
def Faithful (enc : SubscriptionEncoder τ) (names : Kind → Dict Bytes H) (ks : List Kind)
    (s : Subscriptions τ H) : Prop :=
  ∃ s', (onConnect enc ks).run s = .ok () s' ∧ Resubscribed names ks s s'

theorem faithful_iff_of_nodup {names : Kind → Dict Bytes H} {ks : List Kind} (hks : ks.Nodup)
    (pending : Kind → List (SubscriptionKey τ)) (sent : List (Kind × List Bytes)) :
    Faithful enc names ks (subscribed enc names pending sent) ↔
      ∀ k ∈ ks, ∀ p ∈ (names k).items, RoundTrips enc k p.1 := by
  rw [← resubscribeAll_iff (s := subscribed enc names (fun _ => []) sent) hks fun _ _ => rfl]
  rfl

/-- The two clients subscribe again to what they were subscribed to when each name is the
encoding of its own text and this text is no parameter of the method, and only then. -/
theorem onConnect_faithful_iff (enc : SubscriptionEncoder τ) (names : Kind → Dict Bytes H)
    (pending : Kind → List (SubscriptionKey τ)) (sent : List (Kind × List Bytes)) :
    (Faithful enc names syncKinds (subscribed enc names pending sent) ↔
      ∀ k ∈ syncKinds, ∀ p ∈ (names k).items, RoundTrips enc k p.1) ∧
    (Faithful enc names asyncKinds (subscribed enc names pending sent) ↔
      ∀ k ∈ asyncKinds, ∀ p ∈ (names k).items, RoundTrips enc k p.1) :=
  ⟨faithful_iff_of_nodup (by decide) pending sent, faithful_iff_of_nodup (by decide) pending sent⟩

/-- The client's codec when nothing is set: UTF-8, and errors are raised. -/
def utf8Encoder (decode_responses : Bool) : SubscriptionEncoder String where
  decode b := (decodeText b).elim
    (.error { cls := .UnicodeDecodeError, msg := "'utf-8' codec can't decode the name" }) .ok
  encode t := .ok (encodeText t)
  self := "self"
  target_node := "target_node"
  decode_responses := decode_responses

/-- One channel, without a handler. -/
def oneChannel (b : Bytes) : Kind → Dict Bytes (Option Unit)
  | .channels => Keyed.put ∅ (b, none)
  | _ => ∅

/-- A client that is subscribed to one channel. -/
def subscribedToOne (decode_responses : Bool) (b : Bytes) : Subscriptions String (Option Unit) :=
  subscribed (utf8Encoder decode_responses) (oneChannel b) (fun _ => []) []

theorem not_faithful_to_self (decode_responses : Bool) :
    ¬Faithful (utf8Encoder decode_responses) (oneChannel (encodeText "self")) syncKinds
      (subscribedToOne decode_responses (encodeText "self")) := by
  intro h
  unfold subscribedToOne at h
  rw [faithful_iff_of_nodup (by decide)] at h
  obtain ⟨t, hdecode, -, hself, -⟩ :=
    h .channels List.mem_cons_self (encodeText "self", none) List.mem_cons_self
  apply hself
  simp only [utf8Encoder, decodeText_encodeText, Option.elim] at hdecode
  exact (Except.ok.inj hdecode).symm

/-- The channel `self` is not subscribed to again, with decoded responses or without. -/
theorem channel_self_not_resubscribed :
    ¬Faithful (utf8Encoder false) (oneChannel (encodeText "self")) syncKinds
        (subscribedToOne false (encodeText "self")) ∧
      ¬Faithful (utf8Encoder true) (oneChannel (encodeText "self")) syncKinds
        (subscribedToOne true (encodeText "self")) :=
  ⟨not_faithful_to_self false, not_faithful_to_self true⟩

end Subscriptions

end RedisPy
