import RedisPy.Proofs.SearchResult
import Mathlib.Data.List.Induction

/-! When the decoding that a query asks for is what its result has. The table of encodings is
kept by field, but the result looks a field up by the name it was returned under. -/

namespace RedisPy

namespace Search

variable {F : Type} (codec : String → Bytes → String) (toFloat : SearchItem → Except Exc F)
  (flags : Flags)

/-- What a request asks for: an encoding, or the raw value. -/
def ReturnField.asked (r : ReturnField) : Option String := if r.decode_field then r.encoding else none

/-- A value decoded as asked. -/
def decodeAs (asked : Option String) (v : SearchValue) : SearchValue :=
  match asked with
  | none => v
  | some encoding => toStringAs codec encoding v

/-- The query after some calls, and all the requests in them. -/
def queryOf (calls : List QueryCall) : Query := calls.foldl Query.call {}

def requestsOf (calls : List QueryCall) : List ReturnField := calls.flatMap QueryCall.requests

/-- What the result does to a field that comes under some name: as the last request for the
field of that name asks, and as UTF-8 where there is none. -/
def effective (requests : List ReturnField) (name : String) : Option String :=
  match requests.reverse.find? fun r => r.field = name with
  | some r => r.asked
  | none => some "utf-8"

/-- The document has the requested fields in it, under the names of the requests. -/
structure Answers (requests : List ReturnField) (doc : SentDocument) : Prop where
  nodup : ((doc.fields flags).map fun f => readText codec "utf-8" f.1).Nodup
  complete : ∀ r ∈ requests, ∃ f ∈ doc.fields flags, readText codec "utf-8" f.1 = r.returnedName
  only : ∀ f ∈ doc.fields flags, ∃ r ∈ requests, readText codec "utf-8" f.1 = r.returnedName

/-- Every reply to the query gives documents with each requested field decoded as asked. -/
def RequestsHonoured (calls : List QueryCall) : Prop :=
  ∀ total sent, (∀ doc ∈ sent, Answers codec flags (requestsOf calls) doc) →
    (flags.with_scores → ∀ doc ∈ sent, ∃ x, toFloat (.value doc.score) = .ok x) →
    ∃ ds, docs codec toFloat flags (some (queryOf calls)._return_fields_decode_as)
        (encodeReply flags total sent) = .ok ds ∧
      List.Forall₂ (fun doc d => ∀ r ∈ requestsOf calls, ∀ f ∈ doc.fields flags,
        readText codec "utf-8" f.1 = r.returnedName →
          d.get? (exposed r.returnedName) =
            some (exposed r.returnedName, .item (.value (decodeAs codec r.asked f.2)))) sent ds

/-- The names of the requests can be read from a document, and for each of them the table has
what was asked. -/
structure Honourable (requests : List ReturnField) : Prop where
  free : ∀ r ∈ requests, r.returnedName ∉ "id" :: reserved flags.with_scores
  apart : ¬ ((∃ r ∈ requests, r.returnedName = "$") ∧ ∃ r ∈ requests, r.returnedName = "json")
  decoding : ∀ r ∈ requests,
    decodeAs codec (effective requests r.returnedName) = decodeAs codec r.asked

variable {codec toFloat flags}

section Table

theorem queryOf_eq (calls : List QueryCall) :
    queryOf calls = (requestsOf calls).foldl Query.returnField {} := by
  have hcall (q : Query) (calls : List QueryCall) :
      calls.foldl Query.call q = (calls.flatMap QueryCall.requests).foldl Query.returnField q := by
    induction calls generalizing q with
    | nil => rfl
    | cons call calls ih =>
      rw [List.foldl_cons, ih, List.flatMap_cons, List.foldl_append]
      cases call with
      | returnField r => rfl
      | returnFields fields =>
        rw [QueryCall.requests, List.foldl_map]
        rfl
  exact hcall {} calls

/-- The table has the last request for a field. -/
theorem get?_table (requests : List ReturnField) (name : String) :
    (requests.foldl Query.returnField {})._return_fields_decode_as.get? name =
      (requests.reverse.find? fun r => r.field = name).map fun r => (name, r.asked) := by
  induction requests using List.reverseRecOn with
  | nil => rfl
  | append_singleton requests r ih =>
    rw [List.foldl_append, List.reverse_append]
    change (Keyed.put _ (r.field, r.asked)).get? name = _
    by_cases h : r.field = name
    · subst h
      rw [Keyed.get?_put_self]
      simp
    · have hne : name ≠ (r.field, r.asked).1 := Ne.symm h
      rw [Keyed.get?_put_ne _ hne, ih]
      simp [h]

/-- Under a name the result decodes as the last request for the field of that name asks. -/
theorem decodeField_eq (calls : List QueryCall) (name : String) (v : SearchValue) :
    decodeField codec (some (queryOf calls)._return_fields_decode_as) name v =
      decodeAs codec (effective (requestsOf calls) name) v := by
  simp only [decodeField, queryOf_eq, effective, Option.bind_some, get?_table]
  cases (requestsOf calls).reverse.find? fun r => r.field = name with
  | none => rfl
  | some r =>
    simp only [Option.map_some]
    cases r.asked <;> rfl

end Table

section Honoured

variable {calls : List QueryCall}

theorem exposed_inj {n n' : String} (h : exposed n = exposed n')
    (hapart : ¬ (n = "$" ∧ n' = "json")) (hapart' : ¬ (n' = "$" ∧ n = "json")) : n = n' := by
  rw [exposed, exposed] at h
  split at h <;> split at h
  · simp [*]
  · exact absurd ⟨‹_›, h.symm⟩ hapart
  · exact absurd ⟨‹_›, h⟩ hapart'
  · exact h

/-- A reply to the requests has field names that can be read. -/
theorem goodNames_of_answers {requests : List ReturnField}
    (hfree : ∀ r ∈ requests, r.returnedName ∉ reserved flags.with_scores)
    (hapart : ¬ ((∃ r ∈ requests, r.returnedName = "$") ∧ ∃ r ∈ requests, r.returnedName = "json"))
    {doc : SentDocument} (hdoc : Answers codec flags requests doc) (table : Option FieldEncodings) :
    GoodNames codec flags table (doc.fields flags) := by
  have hnot {f g : WireText × SearchValue} (hf : f ∈ doc.fields flags) (hg : g ∈ doc.fields flags) :
      ¬ ((decoded codec table f).1 = "$" ∧ (decoded codec table g).1 = "json") := by
    rintro ⟨hd, hj⟩
    obtain ⟨r, hr, hfr⟩ := hdoc.only f hf
    obtain ⟨s, hs, hgs⟩ := hdoc.only g hg
    exact hapart ⟨⟨r, hr, hfr.symm.trans hd⟩, ⟨s, hs, hgs.symm.trans hj⟩⟩
  constructor
  · intro f hf hres
    obtain ⟨r, hr, hname⟩ := hdoc.only f hf
    exact hfree r hr (hname ▸ hres)
  · intro f hf g hg _ _ hsame
    have hnames := exposed_inj hsame (hnot hf hg) (hnot hg hf)
    have hfg : f = g := List.inj_on_of_nodup_map hdoc.nodup hf hg hnames
    rw [hfg]

/-- A document with a value of our choice for every request. -/
def answer (requests : List ReturnField) (score : SearchValue) (v : ReturnField → SearchValue) :
    SentDocument where
  id := .str "doc:1"
  score := score
  payload := .null
  body := some (requests.map fun r => (.str r.returnedName, v r))

theorem answer_answers {requests : List ReturnField} (hcontent : flags.hascontent = true)
    (hdistinct : (requests.map ReturnField.returnedName).Nodup) (score : SearchValue)
    (v : ReturnField → SearchValue) : Answers codec flags requests (answer requests score v) := by
  have hfields : (answer requests score v).fields flags =
      requests.map fun r => (.str r.returnedName, v r) := by
    rw [SentDocument.fields, if_pos hcontent]
    rfl
  refine ⟨?_, ?_, ?_⟩
  · rw [hfields, List.map_map]
    exact hdistinct
  · intro r hr
    rw [hfields]
    exact ⟨_, List.mem_map_of_mem hr, rfl⟩
  · intro f hf
    rw [hfields] at hf
    obtain ⟨r, hr, rfl⟩ := List.mem_map.mp hf
    exact ⟨r, hr, rfl⟩

theorem mem_answer (hcontent : flags.hascontent = true) (score : SearchValue)
    (v : ReturnField → SearchValue) {requests : List ReturnField} {r : ReturnField} (hr : r ∈ requests) :
    (.str r.returnedName, v r) ∈ (answer requests score v).fields flags := by
  rw [SentDocument.fields, if_pos hcontent]
  exact List.mem_map_of_mem (f := fun r : ReturnField => (WireText.str r.returnedName, v r)) hr

/-- Where requests are honoured, the document with any values gives them back as asked. -/
theorem documentOf_answer (h : RequestsHonoured codec toFloat flags calls)
    (hcontent : flags.hascontent = true)
    (hdistinct : ((requestsOf calls).map ReturnField.returnedName).Nodup) {score : SearchValue} {x : F}
    (hscore : toFloat (.value score) = .ok x) (v : ReturnField → SearchValue) :
    ∃ d, documentOf codec toFloat flags (some (queryOf calls)._return_fields_decode_as)
        (answer (requestsOf calls) score v) = .ok d ∧
      ∀ r ∈ requestsOf calls, d.get? (exposed r.returnedName) =
        some (exposed r.returnedName, .item (.value (decodeAs codec r.asked (v r)))) := by
  obtain ⟨ds, hds, hall⟩ := h 1 [answer (requestsOf calls) score v]
    (by simpa using answer_answers hcontent hdistinct score v)
    (fun _ doc hdoc => ⟨x, by rw [List.mem_singleton.mp hdoc]; exact hscore⟩)
  rw [docs_reply] at hds
  obtain ⟨d, ds', hd, -, rfl⟩ := Fallible.mapM_cons_ok hds
  refine ⟨d, hd, ?_⟩
  intro r hr
  exact (List.forall₂_cons.mp hall).1 r hr (.str r.returnedName, v r) (mem_answer hcontent score v hr) rfl

theorem decodeAs_null (asked : Option String) : decodeAs codec asked .null = .null := by
  cases asked <;> rfl

theorem decodeAs_int (asked : Option String) (i : Int) : decodeAs codec asked (.int i) = .int i := by
  cases asked <;> rfl

section

variable (h : RequestsHonoured codec toFloat flags calls) (hcontent : flags.hascontent = true)
  (hdistinct : ((requestsOf calls).map ReturnField.returnedName).Nodup) {score : SearchValue} {x : F}
  (hscore : toFloat (.value score) = .ok x)

include h hcontent hdistinct hscore

theorem free_of_honoured : ∀ r ∈ requestsOf calls, r.returnedName ∉ reserved flags.with_scores := by
  intro r hr
  obtain ⟨d, hd, -⟩ := documentOf_answer h hcontent hdistinct hscore fun _ => .null
  obtain ⟨sc, hsome, hnames, -⟩ := of_documentOf hd
  have hall := keywords_free_iff.mp hnames _ (mem_answer hcontent score (fun _ => .null) hr)
  rwa [hsome] at hall

/-- A field of the name `id` would be read as the id of the document. -/
theorem ne_id_of_honoured : ∀ r ∈ requestsOf calls, r.returnedName ≠ "id" := by
  intro r hr hname
  obtain ⟨d, hd, hread⟩ := documentOf_answer h hcontent hdistinct hscore fun _ => .null
  obtain ⟨sc, -, -, rfl⟩ := of_documentOf hd
  have hget := hread r hr
  rw [hname, decodeAs_null] at hget
  change Keyed.get? _ "id" = _ at hget
  rw [get?_blank (id_notMem_keywords _) (by decide)] at hget
  cases hget

/-- `$` and `json` would be read as one attribute. -/
theorem apart_of_honoured : ¬ ((∃ r ∈ requestsOf calls, r.returnedName = "$") ∧
    ∃ r ∈ requestsOf calls, r.returnedName = "json") := by
  rintro ⟨⟨r, hr, hdollar⟩, ⟨s, hs, hjson⟩⟩
  obtain ⟨d, -, hread⟩ := documentOf_answer h hcontent hdistinct hscore
    fun r => if r.returnedName = "$" then .null else .int 0
  have hrget := hread r hr
  have hsget := hread s hs
  rw [hdollar, if_pos rfl, decodeAs_null] at hrget
  rw [hjson, if_neg (by decide), decodeAs_int] at hsget
  change d.get? "json" = _ at hrget
  change d.get? "json" = _ at hsget
  rw [hrget] at hsget
  cases hsget

/-- Under the returned name stands what the request asked. -/
theorem decodes_of_honoured {r : ReturnField} (hr : r ∈ requestsOf calls) (v : SearchValue) :
    decodeAs codec r.asked v = decodeAs codec (effective (requestsOf calls) r.returnedName) v := by
  have hfree := free_of_honoured h hcontent hdistinct hscore
  have hapart := apart_of_honoured h hcontent hdistinct hscore
  obtain ⟨d, hd, hread⟩ := documentOf_answer h hcontent hdistinct hscore fun _ => v
  have hdoc : Answers codec flags (requestsOf calls) (answer (requestsOf calls) score fun _ => v) :=
    answer_answers hcontent hdistinct score fun _ => v
  have hgood := goodNames_of_answers hfree hapart hdoc (some (queryOf calls)._return_fields_decode_as)
  have hx : flags.with_scores → ∃ x, toFloat (.value
      (answer (requestsOf calls) score fun _ => v).score) = .ok x := fun _ => ⟨x, hscore⟩
  obtain ⟨d', hd', hholds⟩ := (documentOf_holds_iff hx).mpr hgood
  rw [hd] at hd'
  cases hd'
  have hfield := hholds.fields _ (mem_answer hcontent score (fun _ => v) hr)
    (ne_id_of_honoured h hcontent hdistinct hscore r hr)
  have hget := (hread r hr).symm.trans hfield
  rw [decoded, decodeField_eq] at hget
  simpa [readText] using hget

end

theorem honourable_of_honoured (h : RequestsHonoured codec toFloat flags calls)
    (hcontent : flags.hascontent = true)
    (hdistinct : ((requestsOf calls).map ReturnField.returnedName).Nodup)
    (hfloat : ∃ score x, toFloat (.value score) = .ok x) :
    Honourable codec flags (requestsOf calls) := by
  obtain ⟨score, x, hscore⟩ := hfloat
  refine ⟨?_, apart_of_honoured h hcontent hdistinct hscore, ?_⟩
  · intro r hr hmem
    rcases List.mem_cons.mp hmem with he | hres
    · exact ne_id_of_honoured h hcontent hdistinct hscore r hr he
    · exact free_of_honoured h hcontent hdistinct hscore r hr hres
  · intro r hr
    funext v
    exact (decodes_of_honoured h hcontent hdistinct hscore hr v).symm

/-- Decoding requests are honoured exactly when every returned name can be read and the table,
looked up under that name, has what its request asked. -/
theorem requests_honoured_iff (calls : List QueryCall) (hcontent : flags.hascontent = true)
    (hdistinct : ((requestsOf calls).map ReturnField.returnedName).Nodup)
    (hfloat : ∃ score x, toFloat (.value score) = .ok x) :
    RequestsHonoured codec toFloat flags calls ↔ Honourable codec flags (requestsOf calls) := by
  refine ⟨fun h => honourable_of_honoured h hcontent hdistinct hfloat, ?_⟩
  intro h total sent hsent hscore
  rw [docs_reply, Fallible.exists_mapM_forall₂_iff]
  intro doc hdoc
  have hgood := goodNames_of_answers (fun r hr hres => h.free r hr (List.mem_cons_of_mem _ hres))
    h.apart (hsent doc hdoc) (some (queryOf calls)._return_fields_decode_as)
  obtain ⟨d, hd, hholds⟩ :=
    (documentOf_holds_iff fun hw => hscore hw doc hdoc).mpr hgood
  refine ⟨d, hd, ?_⟩
  intro r hr f hf hname
  have hid : (decoded codec (some (queryOf calls)._return_fields_decode_as) f).1 ≠ "id" := by
    intro he
    exact h.free r hr (List.mem_cons.mpr (.inl (hname.symm.trans he)))
  have hfield := hholds.fields f hf hid
  rw [decoded, hname, decodeField_eq, h.decoding r hr] at hfield
  exact hfield

end Honoured

/-- A field that is asked for as raw bytes, and one that is decoded. -/
def plainCalls : List QueryCall :=
  [.returnField { field := "vec", decode_field := false },
    .returnField { field := "title", encoding := some "utf-8" }]

theorem requests_honoured_plain :
    RequestsHonoured (fun _ b => decodeReplace b) (fun _ => .ok (1 : Rat)) ⟨true, false, false⟩
      plainCalls := by
  refine (requests_honoured_iff plainCalls rfl (by decide) ⟨.text (.str "1"), 1, rfl⟩).mpr ⟨?_, ?_, ?_⟩
  · decide
  · decide
  · intro r hr
    rcases List.mem_cons.mp hr with rfl | hr
    · rfl
    · rw [List.mem_singleton.mp hr]
      rfl

/-- The same raw field under an alias. -/
def aliasCalls : List QueryCall :=
  [.returnField { field := "vec", as_field := some "v", decode_field := false }]

theorem alias_decoded :
    ¬ RequestsHonoured (fun _ b => decodeReplace b) (fun _ => .ok (1 : Rat)) ⟨true, false, false⟩
      aliasCalls := by
  intro h
  have hh := (honourable_of_honoured h rfl (by decide) ⟨.text (.str "1"), 1, rfl⟩).decoding
    { field := "vec", as_field := some "v", decode_field := false } List.mem_cons_self
  have hval := congrFun hh (.text (.bytes []))
  cases hval

end Search

end RedisPy
