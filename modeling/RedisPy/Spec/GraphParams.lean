import RedisPy.Spec.ClientInfo

/-! The parameters of a graph query: `quote_string` and `stringify_param_value`
(`redis/commands/helpers.py`), `_build_params_header` (`redis/commands/graph/__init__.py`), and
the grammar of literals that the server reads the header by. -/

namespace RedisPy

/-- A parameter value. -/
inductive ParamValue where
  | str (s : Chars)
  | none
  | bool (b : Bool)
  | int (i : Int)
  | list (values : List ParamValue)
  | dict (items : List (Chars × ParamValue))

/-- `text.replace(c, new)` -/
def replaceChar (c : Char) (new text : Chars) : Chars :=
  text.flatMap fun d => if d = c then new else [d]

/-- `quote_string` of a `str` -/
def quoteString (v : Chars) : Chars :=
  if v.length = 0 then ['"', '"']
  else '"' :: replaceChar '"' ['\\', '"'] (replaceChar '\\' ['\\', '\\'] v) ++ ['"']

mutual

def stringifyParamValue : ParamValue → Chars
  | .str value => quoteString value
  | .none => "null".toList
  | .list values => '[' :: [','].intercalate (stringifyValues values) ++ [']']
  | .dict items => '\x7b' :: [','].intercalate (stringifyItems items) ++ ['\x7d']
  | .bool value => (if value then "True" else "False").toList
  | .int value => Numeral.intText value

/-- `map(stringify_param_value, value)` -/
def stringifyValues : List ParamValue → List Chars
  | [] => []
  | value :: values => stringifyParamValue value :: stringifyValues values

/-- `f"{k}:{stringify_param_value(v)}" for k, v in value.items()` -/
def stringifyItems : List (Chars × ParamValue) → List Chars
  | [] => []
  | (k, v) :: items => (k ++ ':' :: stringifyParamValue v) :: stringifyItems items

end

/-- The loop of `_build_params_header`. -/
def buildParams : List (Chars × ParamValue) → Chars
  | [] => []
  | (key, value) :: params => key ++ '=' :: stringifyParamValue value ++ ' ' :: buildParams params

/-- `_build_params_header` of a `dict` -/
def buildParamsHeader (params : List (Chars × ParamValue)) : Chars :=
  "CYPHER ".toList ++ buildParams params

/-! ### The grammar of literals -/

namespace Cypher

/-- A character of a name. Of those outside ASCII all but the blanks. -/
def isNameChar (c : Char) : Bool := c.isAlphanum || c == '_' || (128 ≤ c.toNat && !isSpaceChar c)

/-- A name does not start with a digit. -/
def isName (name : Chars) : Bool :=
  match name with
  | [] => false
  | c :: cs => !c.isDigit && isNameChar c && cs.all isNameChar

def skipBlanks (text : Chars) : Chars := text.dropWhile isSpaceChar

/-- What stands for a character after a backslash. -/
def unescape : Char → Option Char
  | '\\' => some '\\'
  | '"' => some '"'
  | '\'' => some '\''
  | 'b' => some '\x08'
  | 'f' => some '\x0c'
  | 'n' => some '\n'
  | 'r' => some '\r'
  | 't' => some '\t'
  | _ => none

/-- A string up to its closing quote, with what follows it. -/
def readString : Chars → Option (Chars × Chars)
  | [] => none
  | '"' :: cs => some ([], cs)
  | '\\' :: c :: cs => do
    let d ← unescape c
    let (s, rest) ← readString cs
    some (d :: s, rest)
  | c :: cs => do
    let (s, rest) ← readString cs
    some (c :: s, rest)

/-- A decimal numeral, with what follows it. -/
def readNat (text : Chars) : Option (Nat × Chars) :=
  let ds := text.takeWhile Char.isDigit
  if ds.isEmpty then none else some (Nat.ofDigitChars 10 ds 0, text.dropWhile Char.isDigit)

/-- A name, with what follows it. -/
def readName (text : Chars) : Option (Chars × Chars) :=
  let name := text.takeWhile isNameChar
  if isName name then some (name, text.dropWhile isNameChar) else none

/-- The literals that are words; the case of their letters does not matter. -/
def wordValue (name : Chars) : Option ParamValue :=
  let lower := name.map Char.toLower
  if lower = "null".toList then some .none
  else if lower = "true".toList then some (.bool true)
  else if lower = "false".toList then some (.bool false)
  else none

mutual

/-- A literal at the start of a text, with what follows it. -/
def readLiteral : Nat → Chars → Option (ParamValue × Chars)
  | 0, _ => none
  | fuel + 1, text =>
    match skipBlanks text with
    | '"' :: cs => do
      let (s, rest) ← readString cs
      some (.str s, rest)
    | '-' :: cs => do
      let (n, rest) ← readNat cs
      some (.int (-n), rest)
    | '[' :: cs =>
      match skipBlanks cs with
      | ']' :: rest => some (.list [], rest)
      | cs => do
        let (values, rest) ← readValues fuel cs
        some (.list values, rest)
    | '\x7b' :: cs =>
      match skipBlanks cs with
      | '\x7d' :: rest => some (.dict [], rest)
      | cs => do
        let (items, rest) ← readItems fuel cs
        some (.dict items, rest)
    | cs =>
      match readNat cs with
      | some (n, rest) => some (.int n, rest)
      | none => do
        let (name, rest) ← readName cs
        let value ← wordValue name
        some (value, rest)

/-- The values of a list that is not empty, up to its bracket. -/
def readValues : Nat → Chars → Option (List ParamValue × Chars)
  | 0, _ => none
  | fuel + 1, text => do
    let (value, rest) ← readLiteral fuel text
    match skipBlanks rest with
    | ']' :: rest => some ([value], rest)
    | ',' :: rest => do
      let (values, rest) ← readValues fuel rest
      some (value :: values, rest)
    | _ => none

/-- The entries of a map that is not empty, up to its brace. -/
def readItems : Nat → Chars → Option (List (Chars × ParamValue) × Chars)
  | 0, _ => none
  | fuel + 1, text => do
    let (name, rest) ← readName (skipBlanks text)
    match skipBlanks rest with
    | ':' :: rest => do
      let (value, rest) ← readLiteral fuel rest
      match skipBlanks rest with
      | '\x7d' :: rest => some ([(name, value)], rest)
      | ',' :: rest => do
        let (items, rest) ← readItems fuel rest
        some ((name, value) :: items, rest)
      | _ => none
    | _ => none

end

/-- `name=literal` and the blanks after it. -/
def readParam (text : Chars) : Option ((Chars × ParamValue) × Chars) := do
  let (name, rest) ← readName text
  match skipBlanks rest with
  | '=' :: rest => do
    let (value, rest) ← readLiteral rest.length rest
    some ((name, value), skipBlanks rest)
  | _ => none

/-- The first parameters of a header, with the text after them. -/
def readParams : Nat → Chars → Option (List (Chars × ParamValue) × Chars)
  | 0, text => some ([], text)
  | count + 1, text => do
    let (param, rest) ← readParam text
    let (params, rest) ← readParams count rest
    some (param :: params, rest)

/-- The parameters of `CYPHER name=literal ... query`, with the query. -/
def readHeader (count : Nat) (text : Chars) : Option (List (Chars × ParamValue) × Chars) :=
  if "CYPHER ".toList.isPrefixOf text then readParams count (skipBlanks (text.drop 7)) else none

end Cypher

end RedisPy
