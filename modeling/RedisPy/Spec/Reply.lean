import RedisPy.Spec.RespParsers

/-! Replies on the wire: the values a server can send, their RESP encoding, and
the value a client is to see. This is the purpose of the parsers, stated on its
own. -/

namespace RedisPy

inductive Protocol where
  | RESP2 | RESP3
  deriving DecidableEq, Repr

inductive Reply where
  | simple (s : Bytes)
  | error (s : Bytes)
  | integer (i : Int)
  | bulk (b : Bytes)
  | nullBulk
  | nullArray
  | array (xs : List Reply)
  | null
  | boolean (b : Bool)
  | bigNumber (i : Int)
  | verbatim (format b : Bytes)
  | blobError (b : Bytes)
  | set (xs : List Reply)
  | map (pairs : List (Reply × Reply))
  deriving Repr

namespace Reply

/-- A header line. -/
def line (c : Char) (text : Bytes) : Bytes := ascii c :: text ++ CRLF

/-- A header line with a length, and that many bytes. -/
def blob (c : Char) (b : Bytes) : Bytes := line c (decimal b.length) ++ (b ++ CRLF)

mutual

/-- The bytes of a reply. -/
def encode : Reply → Bytes
  | simple s => line '+' s
  | error s => line '-' s
  | integer i => line ':' (decimal i)
  | bulk b => blob '$' b
  | nullBulk => line '$' (decimal (-1))
  | nullArray => line '*' (decimal (-1))
  | array xs => line '*' (decimal xs.length) ++ encodeAll xs
  | null => line '_' []
  | boolean b => line '#' [if b then ascii 't' else ascii 'f']
  | bigNumber i => line '(' (decimal i)
  | verbatim format b => blob '=' (format ++ ascii ':' :: b)
  | blobError b => blob '!' b
  | set xs => line '~' (decimal xs.length) ++ encodeAll xs
  | map pairs => line '%' (decimal pairs.length) ++ encodePairs pairs

def encodeAll : List Reply → Bytes
  | [] => []
  | x :: xs => encode x ++ encodeAll xs

def encodePairs : List (Reply × Reply) → Bytes
  | [] => []
  | (k, v) :: pairs => encode k ++ encode v ++ encodePairs pairs

end

/-- The value that the last pair with this key has. -/
def lastValue (k v : PyVal) (pairs : List (PyVal × PyVal)) : PyVal :=
  ((pairs.filter (PyVal.keyEq k ·.1)).getLast?.map Prod.snd).getD v

/-- What a map of these pairs stands for: each key once, where it stands first, with the value that
it has last. -/
def mapping : List (PyVal × PyVal) → List (PyVal × PyVal)
  | [] => []
  | (k, v) :: pairs => (k, lastValue k v pairs) :: (mapping pairs).filter fun p => !PyVal.keyEq k p.1

mutual

/-- What the client is to see. An error is an exception value. -/
def value : Reply → PyVal
  | simple s => .bytes s
  | error s => .exc (parseError (decodeReplace s))
  | integer i => .int i
  | bulk b => .bytes b
  | nullBulk => .none
  | nullArray => .none
  | array xs => .list (values xs)
  | null => .none
  | boolean b => .bool b
  | bigNumber i => .int i
  | verbatim _ b => .bytes b
  | blobError b => .exc (parseError (decodeReplace b))
  | set xs => .list (values xs)
  | map pairs => .dict (mapping (items pairs))

def values : List Reply → List PyVal
  | [] => []
  | x :: xs => value x :: values xs

def items : List (Reply × Reply) → List (PyVal × PyVal)
  | [] => []
  | (k, v) :: pairs => (value k, value v) :: items pairs

end

/-- Text that fits on a line. -/
def oneLine (s : Bytes) : Bool := !s.contains CR && !s.contains LF

/-- The error of this text is not mapped to `ConnectionError`. -/
def notConnectionError (s : Bytes) : Bool :=
  !(parseError (decodeReplace s)).isinstance .ConnectionError

mutual

/-- The replies of a protocol's grammar. -/
def valid (proto : Protocol) : Reply → Bool
  | simple s => oneLine s
  | error s => oneLine s && notConnectionError s
  | integer _ => true
  | bulk _ => true
  | nullBulk => proto = .RESP2
  | nullArray => proto = .RESP2
  | array xs => validAll proto xs
  | null => proto = .RESP3
  | boolean _ => proto = .RESP3
  | bigNumber _ => proto = .RESP3
  | verbatim format _ => proto = .RESP3 && format.length = 3
  | blobError b => proto = .RESP3 && notConnectionError b
  | set xs => proto = .RESP3 && validAll proto xs
  | map pairs => proto = .RESP3 && validPairs proto pairs

def validAll (proto : Protocol) : List Reply → Bool
  | [] => true
  | x :: xs => valid proto x && validAll proto xs

/-- The keys of a map are hashable. -/
def validPairs (proto : Protocol) : List (Reply × Reply) → Bool
  | [] => true
  | (k, v) :: pairs => valid proto k && valid proto v && (value k).hashable && validPairs proto pairs

end

theorem encodeAll_eq_flatMap (xs : List Reply) : encodeAll xs = xs.flatMap encode := by
  induction xs with
  | nil => rfl
  | cons x xs ih => simp [encodeAll, ih]

theorem encodePairs_eq_flatMap (pairs : List (Reply × Reply)) :
    encodePairs pairs = pairs.flatMap fun p => encode p.1 ++ encode p.2 := by
  induction pairs with
  | nil => rfl
  | cons p pairs ih => simp [encodePairs, ih]

theorem values_eq_map (xs : List Reply) : values xs = xs.map value := by
  induction xs with
  | nil => rfl
  | cons x xs ih => simp [values, ih]

theorem items_eq_map (pairs : List (Reply × Reply)) :
    items pairs = pairs.map fun p => (value p.1, value p.2) := by
  induction pairs with
  | nil => rfl
  | cons p pairs ih => simp [items, ih]

theorem validAll_iff (proto : Protocol) (xs : List Reply) :
    validAll proto xs = true ↔ ∀ x ∈ xs, valid proto x = true := by
  induction xs with
  | nil => simp [validAll]
  | cons x xs ih => simp [validAll, ih]

theorem validPairs_iff (proto : Protocol) (pairs : List (Reply × Reply)) :
    validPairs proto pairs = true ↔
      ∀ p ∈ pairs, valid proto p.1 = true ∧ valid proto p.2 = true ∧ (value p.1).hashable = true := by
  induction pairs with
  | nil => simp [validPairs]
  | cons p pairs ih => simp [validPairs, ih, and_assoc]

theorem oneLine_iff (s : Bytes) : oneLine s = true ↔ CR ∉ s ∧ LF ∉ s := by
  simp [oneLine]

theorem lastValue_cons_of_eq {k : PyVal} (v : PyVal) {p : PyVal × PyVal}
    (h : PyVal.keyEq k p.1 = true) (pairs : List (PyVal × PyVal)) :
    lastValue k v (p :: pairs) = lastValue k p.2 pairs := by
  rw [lastValue, List.filter_cons_of_pos (p := fun q : PyVal × PyVal => PyVal.keyEq k q.1) h, List.getLast?_cons]
  cases hlast : (pairs.filter (PyVal.keyEq k ·.1)).getLast? <;> simp [lastValue, hlast]

theorem lastValue_cons_of_ne {k : PyVal} (v : PyVal) {p : PyVal × PyVal}
    (h : PyVal.keyEq k p.1 = false) (pairs : List (PyVal × PyVal)) :
    lastValue k v (p :: pairs) = lastValue k v pairs := by
  rw [lastValue, lastValue, List.filter_cons_of_neg (p := fun q : PyVal × PyVal => PyVal.keyEq k q.1) (by simp [h])]

/-- The assignments to a first key meet that entry, the others the rest of the dictionary. -/
theorem foldl_setItem_cons (k v : PyVal) (pairs acc : List (PyVal × PyVal)) :
    pairs.foldl (fun d p => PyVal.setItem d p.1 p.2) ((k, v) :: acc) =
      (k, lastValue k v pairs) ::
        (pairs.filter fun p => !PyVal.keyEq k p.1).foldl (fun d p => PyVal.setItem d p.1 p.2) acc := by
  induction pairs generalizing v acc with
  | nil => rfl
  | cons p pairs ih =>
    cases h : PyVal.keyEq k p.1 with
    | true =>
      rw [List.foldl_cons, PyVal.setItem, if_pos h, ih, lastValue_cons_of_eq v h,
        List.filter_cons_of_neg (by simp [h])]
    | false =>
      rw [List.foldl_cons, PyVal.setItem, if_neg (by simp [h]), ih, lastValue_cons_of_ne v h,
        List.filter_cons_of_pos (by simp [h]), List.foldl_cons]

/-- A key that is another one than `k` has the same last value without the pairs of `k`. -/
theorem lastValue_filter {k l : PyVal} (h : PyVal.keyEq k l = false) (v : PyVal)
    (pairs : List (PyVal × PyVal)) :
    lastValue l v (pairs.filter fun p => !PyVal.keyEq k p.1) = lastValue l v pairs := by
  have hne : ∀ p ∈ pairs, (PyVal.keyEq l p.1 && !PyVal.keyEq k p.1) = PyVal.keyEq l p.1 := by
    intro p _
    cases hl : PyVal.keyEq l p.1 with
    | false => rfl
    | true =>
      cases hk : PyVal.keyEq k p.1 with
      | false => rfl
      | true =>
        rw [PyVal.keyEq_trans hk (PyVal.keyEq_symm hl)] at h
        cases h
  rw [lastValue, lastValue, List.filter_filter, List.filter_congr hne]

theorem mapping_filter (k : PyVal) (pairs : List (PyVal × PyVal)) :
    mapping (pairs.filter fun p => !PyVal.keyEq k p.1) =
      (mapping pairs).filter fun p => !PyVal.keyEq k p.1 := by
  induction pairs with
  | nil => rfl
  | cons p pairs ih =>
    obtain ⟨l, v⟩ := p
    cases h : PyVal.keyEq k l with
    | true =>
      rw [List.filter_cons_of_neg (by simp [h]), ih, mapping, List.filter_cons_of_neg (by simp [h]),
        List.filter_filter]
      refine List.filter_congr fun q _ => ?_
      -- what equals the first key equals `k`
      cases hk : PyVal.keyEq k q.1 with
      | true => rfl
      | false =>
        cases hl : PyVal.keyEq l q.1 with
        | false => rfl
        | true =>
          rw [PyVal.keyEq_trans h hl] at hk
          cases hk
    | false =>
      rw [List.filter_cons_of_pos (by simp [h]), mapping, ih, lastValue_filter h, mapping,
        List.filter_cons_of_pos (by simp [h]), List.filter_filter, List.filter_filter]
      simp only [Bool.and_comm]

/-- The dictionary that the parser builds from pairs is what their map stands for. -/
theorem foldl_setItem_eq_mapping (pairs : List (PyVal × PyVal)) :
    pairs.foldl (fun d p => PyVal.setItem d p.1 p.2) [] = mapping pairs := by
  generalize hn : pairs.length = n
  induction n using Nat.strong_induction_on generalizing pairs with
  | _ n ih =>
    cases pairs with
    | nil => rfl
    | cons p pairs =>
      have hlt : (pairs.filter fun q => !PyVal.keyEq p.1 q.1).length < n := by
        have hle := List.length_filter_le (fun q => !PyVal.keyEq p.1 q.1) pairs
        rw [List.length_cons] at hn
        omega
      rw [List.foldl_cons, PyVal.setItem, foldl_setItem_cons, ih _ hlt _ rfl, mapping_filter, mapping]

end Reply

end RedisPy
