import RedisPy.Spec.GraphParams
import Mathlib.Data.List.TakeWhile
import Mathlib.Data.String.Basic

/-! What `stringify_param_value` writes is one literal, and denotes the value. -/

namespace RedisPy

namespace ParamValue

mutual

/-- The dictionaries of a value have distinct names for keys. -/
def Named : ParamValue → Prop
  | .str _ => True
  | .none => True
  | .bool _ => True
  | .int _ => True
  | .list values => AllNamed values
  | .dict items => (items.map Prod.fst).Nodup ∧ ItemsNamed items

def AllNamed : List ParamValue → Prop
  | [] => True
  | value :: values => Named value ∧ AllNamed values

def ItemsNamed : List (Chars × ParamValue) → Prop
  | [] => True
  | (k, v) :: items => Cypher.isName k = true ∧ Named v ∧ ItemsNamed items

end

end ParamValue

/-- The parameters of a query: a dictionary of named values. -/
structure GraphParams where
  items : List (Chars × ParamValue)
  nodup : (items.map Prod.fst).Nodup
  named : ParamValue.ItemsNamed items

namespace Cypher

/-- No word and no numeral goes on here. -/
def Stops (rest : Chars) : Prop := ∀ c ∈ rest.head?, isNameChar c = false

section Characters

theorem isNameChar_of_isDigit {c : Char} (h : c.isDigit = true) : isNameChar c = true := by
  simp [isNameChar, Char.isAlphanum, h]

theorem toNat_of_isAlphanum {c : Char} (h : c.isAlphanum = true) : 48 ≤ c.toNat ∧ c.toNat ≤ 122 := by
  delta Char.isAlphanum Char.isAlpha Char.isUpper Char.isLower Char.isDigit at h
  simp only [Bool.or_eq_true, Bool.and_eq_true, decide_eq_true_eq, UInt32.le_iff_toNat_le,
    ge_iff_le] at h
  have hn : c.toNat = c.val.toNat := rfl
  have h0 : '0'.val.toNat = 48 := rfl
  have h9 : '9'.val.toNat = 57 := rfl
  have hA : 'A'.val.toNat = 65 := rfl
  have hZ : 'Z'.val.toNat = 90 := rfl
  have ha : 'a'.val.toNat = 97 := rfl
  have hz : 'z'.val.toNat = 122 := rfl
  omega

theorem isSpaceChar_of_isNameChar {c : Char} (h : isNameChar c = true) : isSpaceChar c = false := by
  simp only [isNameChar, Bool.or_eq_true, Bool.and_eq_true, beq_iff_eq, decide_eq_true_eq,
    Bool.not_eq_true'] at h
  rcases h with (h | rfl) | ⟨-, h⟩
  · obtain ⟨hlow, hhigh⟩ := toNat_of_isAlphanum h
    rw [← Bool.not_eq_true]
    simp only [isSpaceChar, Bool.or_eq_true, Bool.and_eq_true, decide_eq_true_eq, beq_iff_eq]
    omega
  · rfl
  · exact h

theorem skipBlanks_cons {c : Char} (h : isSpaceChar c = false) (cs : Chars) :
    skipBlanks (c :: cs) = c :: cs := List.dropWhile_cons_of_neg (by simp [h])

end Characters

section Strings

/-- A character in a quoted string. -/
def escaped (c : Char) : Chars :=
  if c = '\\' then ['\\', '\\'] else if c = '"' then ['\\', '"'] else [c]

/-- The two replacements escape every character by itself. -/
theorem replaceChar_replaceChar (s : Chars) :
    replaceChar '"' ['\\', '"'] (replaceChar '\\' ['\\', '\\'] s) = s.flatMap escaped := by
  rw [replaceChar, replaceChar, List.flatMap_assoc]
  refine congrArg (List.flatMap · s) (funext fun c => ?_)
  by_cases hb : c = '\\'
  · subst hb
    rfl
  · by_cases hq : c = '"' <;> simp [escaped, hb, hq]

theorem quoteString_eq (s : Chars) : quoteString s = '"' :: s.flatMap escaped ++ ['"'] := by
  rw [quoteString]
  split
  next h =>
    rw [List.length_eq_zero_iff.mp h]
    rfl
  next => rw [replaceChar_replaceChar]

theorem readString_escaped (c : Char) (cs : Chars) :
    readString (escaped c ++ cs) = (readString cs).map fun p => (c :: p.1, p.2) := by
  by_cases hb : c = '\\'
  · subst hb
    simp only [escaped, if_true, List.cons_append, List.nil_append, readString, unescape]
    cases readString cs <;> rfl
  · by_cases hq : c = '"'
    · subst hq
      simp only [escaped, if_neg hb, if_true, List.cons_append, List.nil_append, readString, unescape]
      cases readString cs <;> rfl
    · simp only [escaped, if_neg hb, if_neg hq, List.cons_append, List.nil_append]
      rw [readString]
      · cases readString cs <;> rfl
      · exact hq
      · rintro d ds rfl
        exact absurd rfl hb

/-- A quoted string is read up to its own closing quote. -/
theorem readString_quoted (s rest : Chars) :
    readString (s.flatMap escaped ++ '"' :: rest) = some (s, rest) := by
  induction s with
  | nil => rfl
  | cons c s ih => rw [List.flatMap_cons, List.append_assoc, readString_escaped, ih]; rfl

end Strings

section Words

theorem takeWhile_stop {p : Char → Bool} {w rest : Chars} (hw : ∀ c ∈ w, p c = true)
    (hr : ∀ c ∈ rest.head?, p c = false) :
    (w ++ rest).takeWhile p = w ∧ (w ++ rest).dropWhile p = rest := by
  rw [List.takeWhile_append_of_pos hw, List.dropWhile_append_of_pos hw]
  cases rest with
  | nil => simp
  | cons c rest =>
    have hc : p c = false := hr c rfl
    simp [hc]

theorem readNat_natText (n : Nat) {rest : Chars} (hr : Stops rest) :
    readNat (Numeral.natText n ++ rest) = some (n, rest) := by
  have hstop : ∀ c ∈ rest.head?, c.isDigit = false := by
    intro c hc
    rw [← Bool.not_eq_true]
    intro hd
    have hname := isNameChar_of_isDigit hd
    rw [hr c hc] at hname
    cases hname
  obtain ⟨htake, hdrop⟩ := takeWhile_stop (fun c hc => Numeral.natText_isDigit hc) hstop
  have hne : (Numeral.natText n).isEmpty = false := by
    simp [Numeral.natText]
  rw [readNat, htake, hdrop, hne]
  simp [Numeral.natText, Nat.ofDigitChars_toDigits]

/-- A name has a first character. -/
theorem exists_of_isName {name : Chars} (h : isName name = true) :
    ∃ c cs, name = c :: cs ∧ isNameChar c = true := by
  cases name with
  | nil => cases h
  | cons c cs =>
    simp only [isName, Bool.and_eq_true] at h
    exact ⟨c, cs, rfl, h.1.2⟩

theorem skipBlanks_name {name : Chars} (h : isName name = true) (rest : Chars) :
    skipBlanks (name ++ rest) = name ++ rest := by
  obtain ⟨c, cs, rfl, hc⟩ := exists_of_isName h
  exact skipBlanks_cons (isSpaceChar_of_isNameChar hc) _

theorem readName_name {name rest : Chars} (hn : isName name = true) (hr : Stops rest) :
    readName (name ++ rest) = some (name, rest) := by
  have hall : ∀ c ∈ name, isNameChar c = true := by
    cases name with
    | nil => simp
    | cons c cs =>
      simp only [isName, Bool.and_eq_true, List.all_eq_true] at hn
      simpa using ⟨hn.1.2, hn.2⟩
  obtain ⟨htake, hdrop⟩ := takeWhile_stop hall hr
  rw [readName, htake, hdrop, if_pos hn]

/-- A word that stands for a value, whatever follows it. -/
theorem readLiteral_word {c : Char} {cs rest : Chars} {value : ParamValue}
    (hn : isName (c :: cs) = true) (hv : wordValue (c :: cs) = some value) (hr : Stops rest)
    (fuel : Nat) : readLiteral (fuel + 1) (c :: cs ++ rest) = some (value, rest) := by
  have hc : c.isDigit = false ∧ isNameChar c = true := by
    simp only [isName, Bool.and_eq_true, Bool.not_eq_true'] at hn
    exact hn.1
  have hname := readName_name hn hr
  have hnat : readNat (c :: cs ++ rest) = none := by
    rw [readNat, List.cons_append, List.takeWhile_cons_of_neg (by simp [hc.1])]
    rfl
  rw [readLiteral, List.cons_append, skipBlanks_cons (isSpaceChar_of_isNameChar hc.2),
    ← List.cons_append]
  split
  next heq => cases heq; exact absurd hc.2 (by decide)
  next heq => cases heq; exact absurd hc.2 (by decide)
  next heq => cases heq; exact absurd hc.2 (by decide)
  next heq => cases heq; exact absurd hc.2 (by decide)
  next => rw [hnat, hname]; simp [hv]

/-- A numeral, whatever follows it. -/
theorem readLiteral_nat (n : Nat) {rest : Chars} (hr : Stops rest) (fuel : Nat) :
    readLiteral (fuel + 1) (Numeral.natText n ++ rest) = some (.int n, rest) := by
  have hread := readNat_natText n hr
  cases htext : Numeral.natText n with
  | nil => exact absurd htext Nat.toDigits_ne_nil
  | cons c cs =>
    have hd : c.isDigit = true := Numeral.natText_isDigit (htext ▸ List.mem_cons_self)
    rw [htext] at hread
    rw [readLiteral, List.cons_append,
      skipBlanks_cons (isSpaceChar_of_isNameChar (isNameChar_of_isDigit hd)), ← List.cons_append]
    split
    next heq => cases heq; cases hd
    next heq => cases heq; cases hd
    next heq => cases heq; cases hd
    next heq => cases heq; cases hd
    next => rw [hread]

end Words

section Values

theorem stops_cons {c : Char} (h : isNameChar c = false) (cs : Chars) : Stops (c :: cs) := by
  intro d hd
  cases hd
  exact h

theorem stops_nil : Stops [] := fun c hc => by cases hc

/-- The first character of a literal. -/
structure Opens (c : Char) : Prop where
  not_blank : isSpaceChar c = false
  not_bracket : c ≠ ']'

theorem opens_stringify (v : ParamValue) : ∃ c cs, stringifyParamValue v = c :: cs ∧ Opens c := by
  cases v with
  | str s => exact ⟨_, _, by rw [stringifyParamValue, quoteString_eq]; rfl, rfl, by decide⟩
  | none => exact ⟨_, _, rfl, rfl, by decide⟩
  | bool b => cases b <;> exact ⟨_, _, rfl, rfl, by decide⟩
  | int i =>
    cases i with
    | ofNat n =>
      cases h : Numeral.natText n with
      | nil => exact absurd h Nat.toDigits_ne_nil
      | cons c cs =>
        have hd : c.isDigit = true := Numeral.natText_isDigit (h ▸ List.mem_cons_self)
        refine ⟨c, cs, h, isSpaceChar_of_isNameChar (isNameChar_of_isDigit hd), ?_⟩
        rintro rfl
        cases hd
    | negSucc n => exact ⟨_, _, rfl, rfl, by decide⟩
  | list values => exact ⟨_, _, rfl, rfl, by decide⟩
  | dict items => exact ⟨_, _, rfl, rfl, by decide⟩

variable {fuel : Nat} {text rest : Chars} {value : ParamValue} {values : List ParamValue}
  {k : Chars} {items : List (Chars × ParamValue)}

theorem readLiteral_list {c : Char} {cs : Chars} (hc : Opens c)
    (h : readValues fuel (c :: cs) = some (values, rest)) :
    readLiteral (fuel + 1) ('[' :: c :: cs) = some (.list values, rest) := by
  rw [readLiteral, skipBlanks_cons rfl]
  simp only [skipBlanks_cons hc.not_blank]
  split
  next heq => cases heq; exact absurd rfl hc.not_bracket
  next => rw [h]; rfl

theorem readLiteral_dict {c : Char} {cs : Chars} (hc : isNameChar c = true)
    (h : readItems fuel (c :: cs) = some (items, rest)) :
    readLiteral (fuel + 1) ('\x7b' :: c :: cs) = some (.dict items, rest) := by
  rw [readLiteral, skipBlanks_cons rfl]
  simp only [skipBlanks_cons (isSpaceChar_of_isNameChar hc)]
  split
  next heq => cases heq; exact absurd hc (by decide)
  next => rw [h]; rfl

theorem readValues_last (h : readLiteral fuel text = some (value, ']' :: rest)) :
    readValues (fuel + 1) text = some ([value], rest) := by
  rw [readValues, h]
  rfl

theorem readValues_more {more : Chars} (h : readLiteral fuel text = some (value, ',' :: more))
    (hs : readValues fuel more = some (values, rest)) :
    readValues (fuel + 1) text = some (value :: values, rest) := by
  simp only [readValues, h, Option.bind_eq_bind, Option.bind_some, skipBlanks_cons (c := ',') rfl, hs]

/-- The name of an entry. -/
theorem readItems_name (hk : isName k = true) (text : Chars) :
    readName (skipBlanks (k ++ ':' :: text)) = some (k, ':' :: text) := by
  rw [skipBlanks_name hk]
  exact readName_name hk (stops_cons rfl _)

theorem readItems_last (hk : isName k = true)
    (h : readLiteral fuel text = some (value, '\x7d' :: rest)) :
    readItems (fuel + 1) (k ++ ':' :: text) = some ([(k, value)], rest) := by
  simp only [readItems, readItems_name hk, Option.bind_eq_bind, Option.bind_some,
    skipBlanks_cons (c := ':') rfl, h, skipBlanks_cons (c := '\x7d') rfl]

theorem readItems_more {more : Chars} (hk : isName k = true)
    (h : readLiteral fuel text = some (value, ',' :: more))
    (hs : readItems fuel more = some (items, rest)) :
    readItems (fuel + 1) (k ++ ':' :: text) = some ((k, value) :: items, rest) := by
  simp only [readItems, readItems_name hk, Option.bind_eq_bind, Option.bind_some,
    skipBlanks_cons (c := ':') rfl, h, skipBlanks_cons (c := ',') rfl, hs]

/-- Joined texts start as the first of them. -/
theorem exists_intercalate (w : Chars) (ws : List Chars) :
    ∃ tail, [','].intercalate (w :: ws) = w ++ tail := by
  cases ws with
  | nil => exact ⟨[], by simp⟩
  | cons w' ws => exact ⟨_, by rw [List.intercalate_cons_cons, List.append_assoc]⟩

mutual

/-- The text of a value is a literal that denotes it, whatever follows. -/
theorem readLiteral_stringify : ∀ (v : ParamValue), v.Named → ∀ (fuel : Nat) (rest : Chars),
    (stringifyParamValue v).length ≤ fuel → Stops rest →
      readLiteral fuel (stringifyParamValue v ++ rest) = some (v, rest)
  | v, _, 0, _, hf, _ => by
    obtain ⟨c, cs, hv, -⟩ := opens_stringify v
    simp [hv] at hf
  | .str s, _, fuel + 1, rest, _, _ => by
    have hread := readString_quoted s rest
    rw [stringifyParamValue, quoteString_eq, List.cons_append, List.cons_append, List.append_assoc,
      readLiteral, skipBlanks_cons rfl]
    simp only [List.cons_append, List.nil_append, hread]
    rfl
  | .none, _, fuel + 1, rest, _, hr => readLiteral_word rfl rfl hr fuel
  | .bool true, _, fuel + 1, rest, _, hr => readLiteral_word rfl rfl hr fuel
  | .bool false, _, fuel + 1, rest, _, hr => readLiteral_word rfl rfl hr fuel
  | .int (.ofNat n), _, fuel + 1, rest, _, hr => readLiteral_nat n hr fuel
  | .int (.negSucc n), _, fuel + 1, rest, _, hr => by
    rw [stringifyParamValue, Numeral.intText, List.cons_append, readLiteral, skipBlanks_cons rfl]
    simp only [readNat_natText (n + 1) hr]
    rfl
  | .list [], _, fuel + 1, rest, _, _ => rfl
  | .list (value :: values), h, fuel + 1, rest, hf, _ => by
    rw [ParamValue.Named, ParamValue.AllNamed] at h
    rw [stringifyParamValue] at hf ⊢
    have hread := readValues_stringify value values h.1 h.2 fuel rest
      (by simp only [List.length_append, List.length_cons] at hf; omega)
    obtain ⟨c, cs, hv, hc⟩ := opens_stringify value
    obtain ⟨tail, htail⟩ := exists_intercalate (stringifyParamValue value) (stringifyValues values)
    rw [stringifyValues, htail, hv] at hread ⊢
    simpa using readLiteral_list hc hread
  | .dict [], _, fuel + 1, rest, _, _ => rfl
  | .dict ((k, v) :: items), h, fuel + 1, rest, hf, _ => by
    rw [ParamValue.Named, ParamValue.ItemsNamed] at h
    obtain ⟨-, hk, hv, hitems⟩ := h
    rw [stringifyParamValue] at hf ⊢
    have hread := readItems_stringify k v items hk hv hitems fuel rest
      (by simp only [List.length_append, List.length_cons] at hf; omega)
    obtain ⟨tail, htail⟩ := exists_intercalate (k ++ ':' :: stringifyParamValue v) (stringifyItems items)
    rw [stringifyItems, htail] at hread ⊢
    obtain ⟨c, cs, rfl, hc⟩ := exists_of_isName hk
    simpa using readLiteral_dict hc hread

theorem readValues_stringify : ∀ (value : ParamValue) (values : List ParamValue), value.Named →
    ParamValue.AllNamed values → ∀ (fuel : Nat) (rest : Chars),
      ([','].intercalate (stringifyValues (value :: values))).length < fuel →
        readValues fuel ([','].intercalate (stringifyValues (value :: values)) ++ ']' :: rest) =
          some (value :: values, rest)
  | _, _, _, _, 0, _, hf => absurd hf (Nat.not_lt_zero _)
  | value, [], h, _, fuel + 1, rest, hf => by
    have hone : [','].intercalate (stringifyValues [value]) = stringifyParamValue value := by
      simp [stringifyValues]
    rw [hone] at hf ⊢
    exact readValues_last
      (readLiteral_stringify value h fuel (']' :: rest) (by omega) (stops_cons rfl _))
  | value, value' :: values, h, hs, fuel + 1, rest, hf => by
    have hmore : [','].intercalate (stringifyValues (value :: value' :: values)) =
        stringifyParamValue value ++ ',' :: [','].intercalate (stringifyValues (value' :: values)) := by
      rw [stringifyValues, stringifyValues, List.intercalate_cons_cons, List.append_assoc]
      rfl
    rw [ParamValue.AllNamed] at hs
    rw [hmore] at hf ⊢
    simp only [List.length_append, List.length_cons] at hf
    rw [List.append_assoc]
    exact readValues_more (readLiteral_stringify value h fuel _ (by omega) (stops_cons rfl _))
      (readValues_stringify value' values hs.1 hs.2 fuel rest (by omega))

theorem readItems_stringify : ∀ (k : Chars) (v : ParamValue) (items : List (Chars × ParamValue)),
    Cypher.isName k = true → v.Named → ParamValue.ItemsNamed items → ∀ (fuel : Nat) (rest : Chars),
      ([','].intercalate (stringifyItems ((k, v) :: items))).length < fuel →
        readItems fuel ([','].intercalate (stringifyItems ((k, v) :: items)) ++ '\x7d' :: rest) =
          some ((k, v) :: items, rest)
  | _, _, _, _, _, _, 0, _, hf => absurd hf (Nat.not_lt_zero _)
  | k, v, [], hk, h, _, fuel + 1, rest, hf => by
    have hone : [','].intercalate (stringifyItems [(k, v)]) = k ++ ':' :: stringifyParamValue v := by
      simp [stringifyItems]
    rw [hone] at hf ⊢
    simp only [List.length_append, List.length_cons] at hf
    rw [List.append_assoc, List.cons_append]
    exact readItems_last hk (readLiteral_stringify v h fuel _ (by omega) (stops_cons rfl _))
  | k, v, (k', v') :: items, hk, h, hs, fuel + 1, rest, hf => by
    have hmore : [','].intercalate (stringifyItems ((k, v) :: (k', v') :: items)) =
        k ++ ':' :: (stringifyParamValue v ++
          ',' :: [','].intercalate (stringifyItems ((k', v') :: items))) := by
      rw [stringifyItems, stringifyItems, List.intercalate_cons_cons]
      simp
    rw [ParamValue.ItemsNamed] at hs
    rw [hmore] at hf ⊢
    simp only [List.length_append, List.length_cons] at hf
    rw [List.append_assoc, List.cons_append, List.append_assoc]
    exact readItems_more hk (readLiteral_stringify v h fuel _ (by omega) (stops_cons rfl _))
      (readItems_stringify k' v' items hs.1 hs.2.1 hs.2.2 fuel rest (by omega))

end

end Values

section Header

/-- A parameter is read as itself, whatever follows it. -/
theorem readParam_param {key : Chars} {value : ParamValue} (hk : isName key = true)
    (hv : value.Named) (rest : Chars) :
    readParam (key ++ '=' :: stringifyParamValue value ++ ' ' :: rest) =
      some ((key, value), skipBlanks rest) := by
  have hname := readName_name hk (stops_cons (c := '=') rfl (stringifyParamValue value ++ ' ' :: rest))
  have hread := readLiteral_stringify value hv
    (stringifyParamValue value ++ ' ' :: rest).length (' ' :: rest)
    (by rw [List.length_append]; omega) (stops_cons rfl rest)
  have hblank : skipBlanks (' ' :: rest) = skipBlanks rest := rfl
  rw [List.append_assoc, List.cons_append]
  simp only [readParam, hname, Option.bind_eq_bind, Option.bind_some,
    skipBlanks_cons (c := '=') rfl, hread, hblank]

/-- The parameters are read one after the other. -/
theorem readParams_buildParams {params : List (Chars × ParamValue)}
    (h : ParamValue.ItemsNamed params) (query : Chars) :
    readParams params.length (skipBlanks (buildParams params ++ query)) =
      some (params, skipBlanks query) := by
  induction params with
  | nil => rfl
  | cons param params ih =>
    obtain ⟨key, value⟩ := param
    rw [ParamValue.ItemsNamed] at h
    obtain ⟨hk, hv, hrest⟩ := h
    have hread := readParam_param hk hv (buildParams params ++ query)
    have hparams : buildParams ((key, value) :: params) ++ query =
        key ++ ('=' :: stringifyParamValue value ++ ' ' :: (buildParams params ++ query)) := by
      simp [buildParams]
    rw [hparams, skipBlanks_name hk, ← List.append_assoc, List.length_cons, readParams]
    simp only [hread, Option.bind_eq_bind, Option.bind_some, ih hrest]

theorem readHeader_append (count : Nat) (text : Chars) :
    readHeader count ("CYPHER ".toList ++ text) = readParams count (skipBlanks text) := by
  have hlength : "CYPHER ".toList.length = 7 := rfl
  rw [readHeader]
  generalize "CYPHER ".toList = start at hlength
  rw [if_pos (List.isPrefixOf_iff_prefix.mpr (List.prefix_append start text)), ← hlength,
    List.drop_left]

end Header

end Cypher

/-- The text of a value is one literal, which denotes the value and ends where the text ends;
each parameter of a header is read as itself, whatever its value and whatever follows. -/
theorem stringifyParamValue_read :
    (∀ v : ParamValue, v.Named →
      Cypher.readLiteral (stringifyParamValue v).length (stringifyParamValue v) = some (v, [])) ∧
    ∀ (params : GraphParams) (query : Chars),
      Cypher.readHeader params.items.length (buildParamsHeader params.items ++ query) =
        some (params.items, Cypher.skipBlanks query) := by
  constructor
  · intro v hv
    simpa using Cypher.readLiteral_stringify v hv _ [] (Nat.le_refl _) Cypher.stops_nil
  · intro params query
    have hheader : buildParamsHeader params.items ++ query =
        "CYPHER ".toList ++ (buildParams params.items ++ query) := List.append_assoc _ _ _
    rw [hheader, Cypher.readHeader_append]
    exact Cypher.readParams_buildParams params.named query

/-- `{"k": ['a"b\\', None], "t": True}`, with a quote and a backslash in the list. -/
def nestedParam : ParamValue :=
  .dict [(['k'], .list [.str ['a', '"', 'b', '\\'], .none]), (['t'], .bool true)]

def nestedParams : GraphParams where
  items := [(['p'], nestedParam), (['q'], .int (-3))]
  nodup := by decide
  named := ⟨rfl, ⟨by decide, rfl, ⟨trivial, trivial, trivial⟩, rfl, trivial, trivial⟩, rfl, trivial, trivial⟩

theorem stringifyParamValue_read_nested :
    Cypher.readLiteral (stringifyParamValue nestedParam).length (stringifyParamValue nestedParam) =
        some (nestedParam, []) ∧
      Cypher.readHeader 2 (buildParamsHeader nestedParams.items ++ "MATCH (n)".toList) =
        some (nestedParams.items, "MATCH (n)".toList) :=
  ⟨stringifyParamValue_read.1 nestedParam nestedParams.named.2.1,
    stringifyParamValue_read.2 nestedParams "MATCH (n)".toList⟩

end RedisPy
