import RedisPy.Library.Keyed
import RedisPy.Spec.Python

/-! The result of a search (`redis/commands/search/result.py`, `document.py`, `_util.py`), and
the table of encodings that a `Query` builds for it (`query.py`). -/

namespace RedisPy

/-- A string of a reply: text where the connection decodes, else bytes. -/
inductive WireText where
  | str (s : String)
  | bytes (b : Bytes)
  deriving DecidableEq, Repr

/-- A value of a reply. -/
inductive SearchValue where
  | null
  | int (i : Int)
  | text (t : WireText)
  deriving DecidableEq, Repr

/-- An element of a `FT.SEARCH` reply. -/
inductive SearchItem where
  | value (v : SearchValue)
  | list (vs : List SearchValue)
  deriving DecidableEq, Repr

/-- What an attribute of a document holds. -/
inductive DocumentValue (F : Type) where
  | item (v : SearchItem)
  | float (x : F)

/-- `Document.__dict__` -/
abbrev Document (F : Type) := Dict String (DocumentValue F)

/-- `Query._return_fields_decode_as` -/
abbrev FieldEncodings := Dict String (Option String)

namespace Search

/-- The flags of a query. -/
structure Flags where
  hascontent : Bool
  has_payload : Bool
  with_scores : Bool

section

-- `bytes.decode(encoding, "ignore")`, for the encodings there are, and `float()`.
variable {F : Type} (codec : String → Bytes → String) (toFloat : SearchItem → Except Exc F)

/-- `to_string` of a string -/
def readText (encoding : String) : WireText → String
  | .str s => s
  | .bytes b => codec encoding b

/-- `to_string` -/
def toStringAs (encoding : String) : SearchValue → SearchValue
  | .text t => .text (.str (readText codec encoding t))
  | v => v

def toStringItem : SearchItem → SearchItem
  | .value v => .value (toStringAs codec "utf-8" v)
  | .list vs => .list vs

/-- `res[i]` -/
def itemAt (res : List SearchItem) (i : Nat) : Except Exc SearchItem :=
  match res[i]? with
  | some v => .ok v
  | none => .error { cls := .IndexError, msg := "list index out of range" }

/-- The value of one field. -/
def decodeField (field_encodings : Option FieldEncodings) (key : String) (value : SearchValue) :
    SearchValue :=
  match field_encodings.bind fun table => table.get? key with
  | none => toStringAs codec "utf-8" value
  | some (_, none) => value
  | some (_, some encoding) => toStringAs codec encoding value

/-- The loop over `zip(keys, values)`. A key that is no string fails where it becomes a
keyword. -/
def readFields (field_encodings : Option FieldEncodings) (fields : Dict String SearchValue) :
    List SearchValue → Except Exc (Dict String SearchValue)
  | .text t :: value :: rest =>
    let key := readText codec "utf-8" t
    readFields field_encodings (fields.put (key, decodeField codec field_encodings key value)) rest
  | _ :: _ :: _ => .error { cls := .TypeError, msg := "keywords must be strings" }
  | _ => .ok fields

/-- `del fields["id"]`, and `"$"` under the name `"json"`. -/
def renameFields (fields : Dict String SearchValue) : Dict String SearchValue :=
  let fields := fields.erase "id"
  match fields.get? "$" with
  | some (_, v) => (fields.put ("json", v)).erase "$"
  | none => fields

/-- `setattr(self, k, v)`, where `v` is neither a class nor a dictionary. -/
def setAttr (self : Document F) (k : String) (v : DocumentValue F) : Except Exc (Document F) :=
  if k = "__class__" ∨ k = "__dict__" then .error { cls := .TypeError, msg := k }
  else if k = "__weakref__" then .error { cls := .AttributeError, msg := k }
  else .ok (self.put (k, v))

/-- The loop of `Document.__init__`. -/
def setAttrs (self : Document F) : List (String × DocumentValue F) → Except Exc (Document F)
  | [] => .ok self
  | (k, v) :: fields => do setAttrs (← setAttr self k v) fields

/-- `Document(id, score=score, payload=payload, **fields)`, the score with `with_scores` only.
The call fails for a keyword that it gives twice. -/
def makeDocument (id payload : SearchItem) (score : Option F) (fields : Dict String SearchValue) :
    Except Exc (Document F) :=
  let named := if score.isSome then ["self", "id", "score", "payload"] else ["self", "id", "payload"]
  match fields.keys.find? fun k => k ∈ named with
  | some k => .error { cls := .TypeError, msg := "got multiple values for argument '" ++ k ++ "'" }
  | none =>
    let self := ((∅ : Document F).put ("id", .item id)).put ("payload", .item payload)
    setAttrs self ((score.map fun x => ("score", DocumentValue.float x)).toList ++
      fields.items.map fun p => (p.1, .item (.value p.2)))

/-- One round of the loop of `Result.__init__`. A body is a list of fields or null. -/
def documentAt (flags : Flags) (field_encodings : Option FieldEncodings) (res : List SearchItem)
    (i : Nat) : Except Exc (Document F) := do
  let offset := if flags.with_scores then 2 else 1
  let id ← itemAt res i
  let payload ← if flags.has_payload then itemAt res (i + offset) else pure (.value .null)
  let fields_offset := if flags.has_payload then offset + 1 else offset
  let score ← if flags.with_scores then (itemAt res (i + 1) >>= toFloat).map some else pure none
  let fields ← if flags.hascontent then do
      match ← itemAt res (i + fields_offset) with
      | .value .null => pure ∅
      | .list kvs => readFields codec field_encodings ∅ kvs
      | .value _ => throw { cls := .TypeError, msg := "no field list" }
    else pure ∅
  makeDocument (toStringItem codec id) (toStringItem codec payload) score (renameFields fields)

/-- `1 + hascontent + has_payload + with_scores` -/
def Flags.step (flags : Flags) : Nat :=
  1 + flags.hascontent.toNat + flags.has_payload.toNat + flags.with_scores.toNat

def range (start stop step : Nat) : List Nat :=
  (List.range ((stop - start + step - 1) / step)).map fun j => start + step * j

/-- `Result(res, ...).docs` -/
def docs (flags : Flags) (field_encodings : Option FieldEncodings) (res : List SearchItem) :
    Except Exc (List (Document F)) :=
  (range 1 res.length flags.step).mapM (documentAt codec toFloat flags field_encodings res)

end

/-- A document as the server sends it. -/
structure SentDocument where
  id : WireText
  score : SearchValue
  payload : SearchValue
  body : Option (List (WireText × SearchValue))

/-- The fields that are sent of a document. -/
def SentDocument.fields (flags : Flags) (doc : SentDocument) : List (WireText × SearchValue) :=
  if flags.hascontent then doc.body.getD [] else []

/-- The elements of the reply for a document. -/
def SentDocument.encode (flags : Flags) (doc : SentDocument) : List SearchItem :=
  [.value (.text doc.id)] ++ (if flags.with_scores then [.value doc.score] else []) ++
    (if flags.has_payload then [.value doc.payload] else []) ++
    (if flags.hascontent then
      match doc.body with
      | none => [.value .null]
      | some fields => [.list (fields.flatMap fun f => [.text f.1, f.2])]
    else [])

/-- A `FT.SEARCH` reply. -/
def encodeReply (flags : Flags) (total : Int) (sent : List SentDocument) : List SearchItem :=
  .value (.int total) :: sent.flatMap (SentDocument.encode flags)

/-- A call of `return_field`. -/
structure ReturnField where
  field : String
  as_field : Option String := none
  decode_field : Bool := true
  encoding : Option String := some "utf8"

/-- The name that the server returns the field under. -/
def ReturnField.returnedName (r : ReturnField) : String := r.as_field.getD r.field

/-- A `Query`, as far as returned fields go. -/
structure Query where
  _return_fields : List String := []
  _return_fields_decode_as : FieldEncodings := ∅

def Query.returnField (q : Query) (r : ReturnField) : Query where
  _return_fields := q._return_fields ++ [r.field] ++ (r.as_field.map fun a => ["AS", a]).getD []
  _return_fields_decode_as :=
    q._return_fields_decode_as.put (r.field, if r.decode_field then r.encoding else none)

def Query.returnFields (q : Query) (fields : List String) : Query :=
  fields.foldl (fun q field => q.returnField { field }) q

/-- A call that adds returned fields to a query. -/
inductive QueryCall where
  | returnField (r : ReturnField)
  | returnFields (fields : List String)

/-- The query after a call. -/
def Query.call (q : Query) : QueryCall → Query
  | .returnField r => q.returnField r
  | .returnFields fields => q.returnFields fields

/-- The requests of a call. -/
def QueryCall.requests : QueryCall → List ReturnField
  | .returnField r => [r]
  | .returnFields fields => fields.map fun field => { field }

end Search

end RedisPy
