import RedisPy.Spec.SearchResult
import RedisPy.Library.Fallible
import Mathlib.Tactic.Basic

/-! When a search result has in it what the server sent. The walk over the flat reply finds
every document; whether a document can be built, and read, depends on its field names. -/

namespace RedisPy

namespace Search

section Walk

/-- Elements of a list of pieces of one length. -/
theorem getElem?_flatMap {α β : Type} {f : α → List β} {step : Nat} {xs : List α}
    (hlen : ∀ x ∈ xs, (f x).length = step) (j o : Nat) (ho : o < step) :
    (xs.flatMap f)[step * j + o]? = xs[j]?.bind fun x => (f x)[o]? := by
  induction xs generalizing j with
  | nil => simp
  | cons x xs ih =>
    have hx := hlen x (by simp)
    rw [List.flatMap_cons]
    cases j with
    | zero => simp [List.getElem?_append_left, hx, ho]
    | succ j =>
      rw [List.getElem?_append_right (by rw [hx, Nat.mul_succ]; omega), hx]
      rw [show step * (j + 1) + o - step = step * j + o by rw [Nat.mul_succ]; omega]
      simpa using ih (fun y hy => hlen y (by simp [hy])) j

theorem length_encode (flags : Flags) (doc : SentDocument) :
    (doc.encode flags).length = flags.step := by
  obtain ⟨hascontent, has_payload, with_scores⟩ := flags
  obtain ⟨id, score, payload, body⟩ := doc
  cases hascontent <;> cases has_payload <;> cases with_scores <;> cases body <;> rfl

theorem one_le_step (flags : Flags) : 1 ≤ flags.step := by
  rw [Flags.step]
  omega

/-- The walk has one round for each document. -/
theorem range_reply (flags : Flags) (total : Int) (sent : List SentDocument) :
    range 1 (encodeReply flags total sent).length flags.step =
      (List.range sent.length).map fun j => 1 + flags.step * j := by
  have hlen : (sent.flatMap (SentDocument.encode flags)).length = sent.length * flags.step := by
    induction sent with
    | nil => simp
    | cons doc sent ih =>
      rw [List.flatMap_cons, List.length_append, ih, length_encode, List.length_cons, Nat.succ_mul,
        Nat.add_comm]
  have hpos := one_le_step flags
  rw [range, encodeReply, List.length_cons, hlen, Nat.add_sub_cancel]
  refine congrArg _ (congrArg _ ?_)
  rw [Nat.add_sub_assoc hpos, Nat.add_comm, Nat.add_mul_div_right _ _ hpos,
    Nat.div_eq_of_lt (by omega), Nat.zero_add]

theorem itemAt_reply (flags : Flags) (total : Int) (sent : List SentDocument) {j o : Nat}
    (hj : j < sent.length) (ho : o < flags.step) :
    itemAt (encodeReply flags total sent) (1 + flags.step * j + o) =
      itemAt (sent[j].encode flags) o := by
  rw [itemAt, itemAt, encodeReply, Nat.add_assoc, Nat.add_comm, List.getElem?_cons_succ,
    getElem?_flatMap (fun doc _ => length_encode flags doc) j o ho, List.getElem?_eq_getElem hj]
  rfl

end Walk

section Documents

variable {F : Type} {codec : String → Bytes → String} {toFloat : SearchItem → Except Exc F}
  {flags : Flags} {table : Option FieldEncodings}

/-- A field with its name and value decoded. -/
def decoded (codec : String → Bytes → String) (table : Option FieldEncodings)
    (f : WireText × SearchValue) : String × SearchValue :=
  (readText codec "utf-8" f.1, decodeField codec table (readText codec "utf-8" f.1) f.2)

theorem readFields_eq (fs : List (WireText × SearchValue)) (d : Dict String SearchValue) :
    readFields codec table d (fs.flatMap fun f => [.text f.1, f.2]) =
      .ok ((fs.map (decoded codec table)).foldl Keyed.put d) := by
  induction fs generalizing d with
  | nil => rfl
  | cons f fs ih => exact ih _

/-- The fields as they come to `Document`. -/
def keywords (codec : String → Bytes → String) (table : Option FieldEncodings)
    (fs : List (WireText × SearchValue)) : Dict String SearchValue :=
  renameFields ((fs.map (decoded codec table)).foldl Keyed.put ∅)

theorem toStringAs_null (encoding : String) : toStringAs codec encoding .null = .null := rfl

variable (codec toFloat flags table) in
/-- What the call makes of a document, without the walk. -/
def documentOf (doc : SentDocument) : Except Exc (Document F) := do
  let score ← if flags.with_scores then (toFloat (.value doc.score)).map some else pure none
  makeDocument (.value (toStringAs codec "utf-8" (.text doc.id)))
    (if flags.has_payload then .value (toStringAs codec "utf-8" doc.payload) else .value .null)
    score (keywords codec table (doc.fields flags))

/-- A round of the walk finds the parts of its document. -/
theorem documentAt_reply (total : Int) (sent : List SentDocument) {j : Nat} (hj : j < sent.length) :
    documentAt codec toFloat flags table (encodeReply flags total sent) (1 + flags.step * j) =
      documentOf codec toFloat flags table sent[j] := by
  have hitem (o : Nat) (ho : o < flags.step) := itemAt_reply flags total sent hj ho
  generalize sent[j] = doc at hitem ⊢
  obtain ⟨hascontent, has_payload, with_scores⟩ := flags
  have hid := hitem 0 (by simp [Flags.step])
  have hone (h : hascontent || has_payload || with_scores) := hitem 1 (by
    revert h; cases hascontent <;> cases has_payload <;> cases with_scores <;> decide)
  have htwo (h : with_scores && (hascontent || has_payload) || has_payload && hascontent) :=
    hitem 2 (by revert h; cases hascontent <;> cases has_payload <;> cases with_scores <;> decide)
  have hthree (h : with_scores && hascontent && has_payload) := hitem 3 (by
    revert h; cases hascontent <;> cases has_payload <;> cases with_scores <;> decide)
  clear hitem
  rw [documentAt, documentOf, keywords, SentDocument.fields]
  cases hascontent <;> cases has_payload <;> cases with_scores <;> cases hbody : doc.body <;>
    simp_all [itemAt, SentDocument.encode, readFields_eq, toStringItem,
      toStringAs_null, bind, Except.bind, pure,
      Except.pure, Except.map]

/-- The documents of a reply, one for each that was sent. -/
theorem docs_reply (total : Int) (sent : List SentDocument) :
    docs codec toFloat flags table (encodeReply flags total sent) =
      sent.mapM (documentOf codec toFloat flags table) := by
  have hlists : ((List.range sent.length).map fun j => documentAt codec toFloat flags table
      (encodeReply flags total sent) (1 + flags.step * j)) =
      sent.map (documentOf codec toFloat flags table) := by
    refine List.ext_getElem (by simp) fun j _ hj => ?_
    simp only [List.getElem_map, List.getElem_range]
    exact documentAt_reply total sent (by simpa using hj)
  have hmaps := congrArg (fun l : List (Except Exc (Document F)) => l.mapM id) hlists
  rw [List.mapM_map, List.mapM_map] at hmaps
  rw [docs, range_reply, List.mapM_map]
  exact hmaps

end Documents

section Names

variable {codec : String → Bytes → String} {flags : Flags} {table : Option FieldEncodings}

/-- The name that a field can be read under. -/
def exposed (name : String) : String := if name = "$" then "json" else name

/-- The names that make the construction of a document fail. -/
def reserved (with_scores : Bool) : List String :=
  ["self", "payload", "__class__", "__dict__", "__weakref__"] ++
    if with_scores then ["score"] else []

/-- Entries stored one after the other are among the stored ones. -/
theorem mem_of_mem_foldl_put {l : List (String × SearchValue)} {p : String × SearchValue}
    (h : p ∈ (l.foldl Keyed.put (∅ : Dict String SearchValue)).items) : p ∈ l := by
  have hget := Keyed.get?_of_mem h
  by_cases hk : ∃ q ∈ l, q.1 = p.1
  · obtain ⟨q, hq, -, hgetq⟩ := Keyed.exists_get?_foldl_put hk (∅ : Dict String SearchValue)
    rw [hget] at hgetq
    cases hgetq
    exact hq
  · rw [Keyed.get?_foldl_put_of_not_mem fun q hq he => hk ⟨q, hq, he.symm⟩] at hget
    cases hget

theorem mem_renameFields {d : Dict String SearchValue} {k : String} {v : SearchValue} :
    (k, v) ∈ (renameFields d).items ↔ k ≠ "$" ∧ k ≠ "id" ∧
      (if k = "json" ∧ "$" ∈ d.keys then ("$", v) ∈ d.items else (k, v) ∈ d.items) := by
  have hget : (d.erase "id").get? "$" = d.get? "$" := Keyed.get?_erase_ne d (by decide)
  cases hdollar : d.get? "$" with
  | none =>
    have hkeys : "$" ∉ d.keys := Keyed.get?_eq_none.mp hdollar
    have hsame : renameFields d = d.erase "id" := by rw [renameFields, hget, hdollar]
    have hne (hmem : (k, v) ∈ d.items) : k ≠ "$" := by
      rintro rfl
      exact hkeys (List.mem_map_of_mem hmem)
    rw [hsame, Keyed.mem_items_erase]
    simp only [hkeys, and_false, if_false]
    exact ⟨fun h => ⟨hne h.1, h.2, h.1⟩, fun h => ⟨h.2.2, h.2.1⟩⟩
  | some q =>
    obtain ⟨n, w⟩ := q
    obtain rfl : n = "$" := Keyed.key_of_get? hdollar
    have hmem : ("$", w) ∈ d.items := Keyed.mem_of_get? hdollar
    have hkeys : "$" ∈ d.keys := List.mem_map_of_mem hmem
    have hsame : renameFields d = ((d.erase "id").put ("json", w)).erase "$" := by
      rw [renameFields, hget, hdollar]
    have huniq : ("$", v) ∈ d.items ↔ v = w := by
      constructor
      · intro hv
        have hsome := Keyed.get?_of_mem hv
        rw [hdollar] at hsome
        cases hsome
        rfl
      · rintro rfl
        exact hmem
    rw [hsame, Keyed.mem_items_erase, Keyed.mem_items_put, Keyed.mem_items_erase]
    by_cases hjson : k = "json"
    · subst hjson
      simp [hkeys, huniq]
    · simp only [hjson, Prod.mk.injEq, false_and, false_or, if_false, ne_eq, not_false_iff, and_true]
      exact ⟨fun h => ⟨h.2, h.1.2, h.1.1⟩, fun h => ⟨⟨h.2.2, h.2.1⟩, h.1⟩⟩

/-- A keyword comes of a field with its name. -/
theorem of_mem_keywords {fs : List (WireText × SearchValue)} {k : String} {v : SearchValue}
    (h : (k, v) ∈ (keywords codec table fs).items) :
    ∃ f ∈ fs, (decoded codec table f).1 ≠ "id" ∧ exposed (decoded codec table f).1 = k ∧
      (decoded codec table f).2 = v := by
  rw [keywords, mem_renameFields] at h
  obtain ⟨hdollar, hid, h⟩ := h
  split at h
  · rename_i hjson
    obtain ⟨f, hf, he⟩ := List.mem_map.mp (mem_of_mem_foldl_put h)
    refine ⟨f, hf, by simp [he], ?_, by simp [he]⟩
    simp [he, exposed, hjson.1]
  · obtain ⟨f, hf, he⟩ := List.mem_map.mp (mem_of_mem_foldl_put h)
    refine ⟨f, hf, by simp [he, hid], ?_, by simp [he]⟩
    simp [he, exposed, hdollar]

/-- Every field but `id` becomes a keyword. -/
theorem exists_keyword {fs : List (WireText × SearchValue)} {f : WireText × SearchValue}
    (hf : f ∈ fs) (hid : (decoded codec table f).1 ≠ "id") :
    ∃ v, (exposed (decoded codec table f).1, v) ∈ (keywords codec table fs).items := by
  let d : Dict String SearchValue := (fs.map (decoded codec table)).foldl Keyed.put ∅
  have hstored : ∃ v, ((decoded codec table f).1, v) ∈ d.items := by
    obtain ⟨q, -, hk, hget⟩ := Keyed.exists_get?_foldl_put
      ⟨_, List.mem_map_of_mem hf, rfl⟩ (∅ : Dict String SearchValue)
    exact ⟨q.2, hk ▸ Keyed.mem_of_get? hget⟩
  by_cases hdollar : "$" ∈ d.keys
  · obtain ⟨q, hq, hqk⟩ := List.mem_map.mp hdollar
    by_cases hjson : exposed (decoded codec table f).1 = "json"
    · refine ⟨q.2, mem_renameFields.mpr ⟨by simp [hjson], by simp [hjson], ?_⟩⟩
      rw [if_pos ⟨hjson, hdollar⟩, ← hqk]
      exact hq
    · have hne : (decoded codec table f).1 ≠ "$" := fun he => hjson (by simp [exposed, he])
      obtain ⟨v, hv⟩ := hstored
      have hsame : exposed (decoded codec table f).1 = (decoded codec table f).1 := if_neg hne
      rw [hsame] at hjson ⊢
      exact ⟨v, mem_renameFields.mpr ⟨hne, hid, by rwa [if_neg fun h => hjson h.1]⟩⟩
  · obtain ⟨v, hv⟩ := hstored
    have hne : (decoded codec table f).1 ≠ "$" := fun he => hdollar (he ▸ List.mem_map.mpr ⟨_, hv, rfl⟩)
    have hsame : exposed (decoded codec table f).1 = (decoded codec table f).1 := if_neg hne
    rw [hsame]
    exact ⟨v, mem_renameFields.mpr ⟨hne, hid, by rwa [if_neg fun h => hdollar h.2]⟩⟩

end Names

section Construction

variable {F : Type}

theorem setAttrs_eq {ps : List (String × DocumentValue F)}
    (h : ∀ p ∈ ps, p.1 ≠ "__class__" ∧ p.1 ≠ "__dict__" ∧ p.1 ≠ "__weakref__") (self : Document F) :
    setAttrs self ps = .ok (ps.foldl Keyed.put self) := by
  induction ps generalizing self with
  | nil => rfl
  | cons p ps ih =>
    obtain ⟨hclass, hdict, hweak⟩ := h p (by simp)
    rw [setAttrs, setAttr, if_neg (by simp [hclass, hdict]), if_neg hweak]
    exact ih (fun q hq => h q (by simp [hq])) _

theorem setAttrs_raises {ps : List (String × DocumentValue F)}
    (h : ∃ p ∈ ps, p.1 = "__class__" ∨ p.1 = "__dict__" ∨ p.1 = "__weakref__") (self : Document F) :
    ∃ e, setAttrs self ps = .error e := by
  induction ps generalizing self with
  | nil => simp at h
  | cons p ps ih =>
    rw [setAttrs]
    cases hset : setAttr self p.1 p.2 with
    | error e => exact ⟨e, rfl⟩
    | ok next =>
      obtain ⟨q, hq, hbad⟩ := h
      rcases List.mem_cons.mp hq with rfl | hq
      · rw [setAttr] at hset
        rcases hbad with hbad | hbad | hbad <;> simp [hbad] at hset
      · exact ih ⟨q, hq, hbad⟩ next

/-- The document as it is first built. -/
def blank (id payload : SearchItem) : Document F :=
  ((∅ : Document F).put ("id", .item id)).put ("payload", .item payload)

/-- The attributes that are set on it. -/
def attributes (score : Option F) (fields : Dict String SearchValue) :
    List (String × DocumentValue F) :=
  (score.map fun x => ("score", DocumentValue.float x)).toList ++
    fields.items.map fun p => (p.1, .item (.value p.2))

variable {id payload : SearchItem} {score : Option F} {fields : Dict String SearchValue}

theorem makeDocument_eq (hid : "id" ∉ fields.keys)
    (h : ∀ k ∈ fields.keys, k ∉ reserved score.isSome) :
    makeDocument id payload score fields =
      .ok ((attributes score fields).foldl Keyed.put (blank id payload)) := by
  have hnone (named : List String)
      (hn : ∀ k ∈ named, k = "id" ∨ k ∈ reserved score.isSome) :
      fields.keys.find? (fun k => k ∈ named) = none := by
    refine List.find?_eq_none.mpr fun k hk hin => ?_
    rcases hn k (of_decide_eq_true hin) with rfl | hres
    · exact hid hk
    · exact h k hk hres
  rw [makeDocument, hnone]
  · refine setAttrs_eq ?_ _
    intro p hp
    rcases List.mem_append.mp hp with hp | hp
    · cases score with
      | none => cases hp
      | some x =>
        obtain rfl : p = ("score", DocumentValue.float x) := by simpa using hp
        simp
    · obtain ⟨q, hq, rfl⟩ := List.mem_map.mp hp
      have hq' := h q.1 (List.mem_map_of_mem hq)
      simp only [reserved, List.mem_append, List.mem_cons, not_or] at hq'
      exact ⟨hq'.1.2.2.1, hq'.1.2.2.2.1, hq'.1.2.2.2.2.1⟩
  · cases score <;> simp [reserved]

theorem makeDocument_raises (h : ∃ k ∈ fields.keys, k ∈ reserved score.isSome) :
    ∃ e, makeDocument id payload score fields = .error e := by
  obtain ⟨k, hk, hres⟩ := h
  rw [makeDocument]
  cases hfind : fields.keys.find? fun k =>
      k ∈ if score.isSome then ["self", "id", "score", "payload"] else ["self", "id", "payload"] with
  | some k' => exact ⟨_, rfl⟩
  | none =>
    have hnot := List.find?_eq_none.mp hfind k hk
    obtain ⟨p, hp, rfl⟩ := List.mem_map.mp hk
    refine setAttrs_raises ⟨(p.1, .item (.value p.2)), ?_, ?_⟩ _
    · exact List.mem_append_right _ (List.mem_map_of_mem hp)
    · cases score <;> simp_all [reserved]

theorem nodup_attributes (h : ∀ k ∈ fields.keys, k ∉ reserved score.isSome) :
    ((attributes score fields).map Prod.fst).Nodup := by
  have hfields : (fields.items.map fun p => ((p.1, .item (.value p.2)) : String × DocumentValue F)).map
      Prod.fst = fields.keys := by
    rw [List.map_map]
    rfl
  rw [attributes, List.map_append, hfields]
  cases score with
  | none => exact fields.nodup
  | some x =>
    refine List.nodup_cons.mpr ⟨fun hk => h "score" hk (by simp [reserved]), fields.nodup⟩

/-- An attribute that was set is read back. -/
theorem get?_of_mem_attributes (h : ∀ k ∈ fields.keys, k ∉ reserved score.isSome)
    {p : String × DocumentValue F} (hp : p ∈ attributes score fields) :
    ((attributes score fields).foldl Keyed.put (blank id payload)).get? p.1 = some p :=
  Keyed.get?_of_mem (Keyed.mem_items_foldl_put (nodup_attributes h) hp _)

/-- What the document was built with stays. -/
theorem get?_blank {k : String} (hk : k ∉ fields.keys) (hscore : k ≠ "score") :
    ((attributes score fields).foldl Keyed.put (blank id payload)).get? k =
      (blank id payload : Document F).get? k := by
  refine Keyed.get?_foldl_put_of_not_mem ?_ _
  intro p hp
  rcases List.mem_append.mp hp with hp | hp
  · cases score with
    | none => cases hp
    | some x =>
      obtain rfl : p = ("score", DocumentValue.float x) := by simpa using hp
      exact hscore
  · obtain ⟨q, hq, rfl⟩ := List.mem_map.mp hp
    rintro rfl
    exact hk (List.mem_map_of_mem hq)

end Construction

section Reading

variable {F : Type} (codec : String → Bytes → String) (toFloat : SearchItem → Except Exc F)
  (flags : Flags) (table : Option FieldEncodings)

/-- A document holds what was sent of it: the id, the score, the payload, and each field but
`id` under its own name, `$` under `json`. -/
structure Holds (doc : SentDocument) (d : Document F) : Prop where
  id : d.get? "id" = some ("id", .item (.value (toStringAs codec "utf-8" (.text doc.id))))
  payload : d.get? "payload" = some ("payload", .item
    (if flags.has_payload then .value (toStringAs codec "utf-8" doc.payload) else .value .null))
  score : flags.with_scores → ∃ x, toFloat (.value doc.score) = .ok x ∧
    d.get? "score" = some ("score", .float x)
  fields : ∀ f ∈ doc.fields flags, (decoded codec table f).1 ≠ "id" →
    d.get? (exposed (decoded codec table f).1) =
      some (exposed (decoded codec table f).1, .item (.value (decoded codec table f).2))

/-- The result has one document for each that was sent, in order, and each holds what was
sent of it. -/
def ResultExact (total : Int) (sent : List SentDocument) : Prop :=
  ∃ ds, docs codec toFloat flags table (encodeReply flags total sent) = .ok ds ∧
    List.Forall₂ (Holds codec toFloat flags table) sent ds

/-- No field has a name that the construction does not take, and no two are to be read under
one name with different values. -/
structure GoodNames (fs : List (WireText × SearchValue)) : Prop where
  free : ∀ f ∈ fs, (decoded codec table f).1 ∉ reserved flags.with_scores
  apart : ∀ f ∈ fs, ∀ g ∈ fs, (decoded codec table f).1 ≠ "id" → (decoded codec table g).1 ≠ "id" →
    exposed (decoded codec table f).1 = exposed (decoded codec table g).1 →
      (decoded codec table f).2 = (decoded codec table g).2

variable {codec toFloat flags table}

/-- A reserved name is not changed on the way to the constructor. -/
theorem exposed_reserved {name : String} {b : Bool} (h : exposed name ∈ reserved b) :
    name ∈ reserved b := by
  rw [exposed] at h
  split at h
  · cases b <;> simp [reserved] at h
  · exact h

theorem exposed_of_reserved {name : String} {b : Bool} (h : name ∈ reserved b) :
    name ≠ "id" ∧ exposed name = name := by
  have hne : name ≠ "id" ∧ name ≠ "$" := by
    constructor <;> rintro rfl <;> revert h <;> cases b <;> decide
  exact ⟨hne.1, if_neg hne.2⟩

theorem keywords_free_iff {fs : List (WireText × SearchValue)} {b : Bool} :
    (∀ k ∈ (keywords codec table fs).keys, k ∉ reserved b) ↔
      ∀ f ∈ fs, (decoded codec table f).1 ∉ reserved b := by
  constructor
  · intro h f hf hres
    obtain ⟨hid, hsame⟩ := exposed_of_reserved hres
    obtain ⟨v, hv⟩ := exists_keyword hf hid
    rw [hsame] at hv
    exact h _ (List.mem_map.mpr ⟨_, hv, rfl⟩) hres
  · intro h k hk hres
    obtain ⟨⟨k, v⟩, hp, rfl⟩ := List.mem_map.mp hk
    obtain ⟨f, hf, -, rfl, -⟩ := of_mem_keywords hp
    exact h f hf (exposed_reserved hres)

theorem id_notMem_keywords (fs : List (WireText × SearchValue)) :
    "id" ∉ (keywords codec table fs).keys := by
  intro hk
  obtain ⟨⟨k, v⟩, hp, rfl⟩ := List.mem_map.mp hk
  exact (mem_renameFields.mp hp).2.1 rfl

/-- A document that was built has no reserved name among its keywords, and all of them set. -/
theorem of_documentOf {doc : SentDocument} {d : Document F}
    (h : documentOf codec toFloat flags table doc = .ok d) :
    ∃ score : Option F, score.isSome = flags.with_scores ∧
      (∀ k ∈ (keywords codec table (doc.fields flags)).keys, k ∉ reserved score.isSome) ∧
      d = (attributes score (keywords codec table (doc.fields flags))).foldl Keyed.put
        (blank (.value (toStringAs codec "utf-8" (.text doc.id)))
          (if flags.has_payload then .value (toStringAs codec "utf-8" doc.payload)
            else .value .null)) := by
  rw [documentOf] at h
  obtain ⟨score, hsome, hmake⟩ : ∃ score : Option F, score.isSome = flags.with_scores ∧
      makeDocument (.value (toStringAs codec "utf-8" (.text doc.id)))
        (if flags.has_payload then .value (toStringAs codec "utf-8" doc.payload) else .value .null)
        score (keywords codec table (doc.fields flags)) = .ok d := by
    split at h
    · obtain ⟨score, hscore, hmake⟩ := Fallible.bind_ok h
      obtain ⟨x, -, rfl⟩ := Fallible.map_ok hscore
      exact ⟨some x, Eq.symm ‹_›, hmake⟩
    · exact ⟨none, Eq.symm (Bool.eq_false_iff.mpr ‹_›), h⟩
  have hnames : ∀ k ∈ (keywords codec table (doc.fields flags)).keys, k ∉ reserved score.isSome := by
    intro k hk hres
    obtain ⟨e, he⟩ := makeDocument_raises ⟨k, hk, hres⟩
    rw [he] at hmake
    cases hmake
  rw [makeDocument_eq (id_notMem_keywords _) hnames] at hmake
  exact ⟨score, hsome, hnames, (Except.ok.inj hmake).symm⟩

/-- A document can be built and holds what was sent exactly when its field names are good. -/
theorem documentOf_holds_iff {doc : SentDocument}
    (hscore : flags.with_scores → ∃ x, toFloat (.value doc.score) = .ok x) :
    (∃ d, documentOf codec toFloat flags table doc = .ok d ∧ Holds codec toFloat flags table doc d) ↔
      GoodNames codec flags table (doc.fields flags) := by
  obtain ⟨score, hsome, hx, hdoc⟩ : ∃ score : Option F, score.isSome = flags.with_scores ∧
      (∀ x, score = some x → toFloat (.value doc.score) = .ok x) ∧
      documentOf codec toFloat flags table doc =
        makeDocument (.value (toStringAs codec "utf-8" (.text doc.id)))
          (if flags.has_payload then .value (toStringAs codec "utf-8" doc.payload)
            else .value .null) score (keywords codec table (doc.fields flags)) := by
    rw [documentOf]
    cases hw : flags.with_scores with
    | false => exact ⟨none, rfl, by simp, rfl⟩
    | true =>
      obtain ⟨x, hx⟩ := hscore hw
      refine ⟨some x, rfl, by simp [hx], ?_⟩
      rw [hx]
      rfl
  have hfree : (∀ k ∈ (keywords codec table (doc.fields flags)).keys, k ∉ reserved score.isSome) ↔
      ∀ f ∈ doc.fields flags, (decoded codec table f).1 ∉ reserved score.isSome := keywords_free_iff
  have hid : "id" ∉ (keywords codec table (doc.fields flags)).keys := id_notMem_keywords _
  rw [hdoc]
  constructor
  · rintro ⟨d, hd, hholds⟩
    have hnames : ∀ k ∈ (keywords codec table (doc.fields flags)).keys, k ∉ reserved score.isSome := by
      intro k hk hres
      obtain ⟨e, he⟩ := makeDocument_raises ⟨k, hk, hres⟩
      rw [he] at hd
      cases hd
    refine ⟨hsome ▸ hfree.mp hnames, ?_⟩
    intro f hf g hg hfid hgid hsame
    have hfget := hholds.fields f hf hfid
    rw [hsame, hholds.fields g hg hgid] at hfget
    simpa using hfget.symm
  · intro hgood
    have hnames := hfree.mpr (hsome ▸ hgood.free)
    refine ⟨_, makeDocument_eq hid hnames, ?_, ?_, ?_, ?_⟩
    · rw [get?_blank hid (by decide)]
      rfl
    · rw [get?_blank (fun hk => hnames _ hk (by simp [reserved])) (by decide)]
      rfl
    · intro hw
      cases score with
      | none => rw [← hsome] at hw; cases hw
      | some x => exact ⟨x, hx x rfl, get?_of_mem_attributes hnames (p := ("score", .float x)) (by simp [attributes])⟩
    · intro f hf hfid
      obtain ⟨v, hv⟩ := exists_keyword hf hfid
      obtain ⟨g, hg, hgid, hsame, rfl⟩ := of_mem_keywords hv
      rw [← hgood.apart g hg f hf hgid hfid hsame]
      exact get?_of_mem_attributes hnames (p := (_, .item (.value (decoded codec table g).2)))
        (List.mem_append_right _ (List.mem_map_of_mem hv))

/-- The result is what the server sent exactly when no document has a field name that the
constructor takes for itself, and no two fields to be read under one name. -/
theorem search_result_exact_iff (total : Int) (sent : List SentDocument)
    (hscore : flags.with_scores → ∀ doc ∈ sent, ∃ x, toFloat (.value doc.score) = .ok x) :
    ResultExact codec toFloat flags table total sent ↔
      ∀ doc ∈ sent, GoodNames codec flags table (doc.fields flags) := by
  rw [ResultExact, docs_reply, Fallible.exists_mapM_forall₂_iff]
  exact forall₂_congr fun doc hdoc => documentOf_holds_iff fun hw => hscore hw doc hdoc

/-- Two documents with scores and payloads, the first with two fields, the second expired. -/
def twoDocuments : List SentDocument :=
  [⟨.str "doc:1", .text (.str "1"), .text (.str "pay"),
      some [(.str "title", .text (.str "x")), (.str "views", .int 3)]⟩,
    ⟨.str "doc:2", .text (.str "1"), .null, none⟩]

theorem search_result_exact_two :
    ResultExact (fun _ b => decodeReplace b) (fun _ => .ok (1 : Rat)) ⟨true, true, true⟩ none 2
      twoDocuments := by
  refine (search_result_exact_iff 2 _ ?_).mpr ?_
  · intro _ doc _
    exact ⟨1, rfl⟩
  · intro doc hdoc
    simp only [twoDocuments, List.mem_cons, List.not_mem_nil, or_false] at hdoc
    rcases hdoc with rfl | rfl
    · exact ⟨by decide, by decide⟩
    · exact ⟨by decide, by decide⟩

/-- A field with the name of a parameter. -/
theorem payload_field_raises :
    ¬ ResultExact (fun _ b => decodeReplace b) (fun _ => .ok (1 : Rat)) ⟨true, false, false⟩ none 1
      [⟨.str "doc:1", .null, .null, some [(.str "payload", .text (.str "x"))]⟩] := by
  rintro ⟨ds, hds, -⟩
  have hraises : docs (fun _ b => decodeReplace b) (fun _ => .ok (1 : Rat)) ⟨true, false, false⟩ none
      (encodeReply ⟨true, false, false⟩ 1
        [⟨.str "doc:1", .null, .null, some [(.str "payload", .text (.str "x"))]⟩]) =
      .error { cls := .TypeError, msg := "got multiple values for argument 'payload'" } := rfl
  rw [hraises] at hds
  cases hds

end Reading

end Search

end RedisPy
