import RedisPy.Library.Splitting
import RedisPy.Library.Keyed
import RedisPy.Spec.Python

/-! The two parsers of client records (`redis/_parsers/helpers.py`): `parse_client_info`
and `parse_client_list`. A text is a list of characters here. -/

namespace RedisPy

abbrev Chars := List Char

/-- `c.isspace()` -/
def isSpaceChar (c : Char) : Bool :=
  let n := c.toNat
  (9 ≤ n && n ≤ 13) || (28 ≤ n && n ≤ 32) || n == 0x85 || n == 0xa0 || n == 0x1680 ||
    (0x2000 ≤ n && n ≤ 0x200a) || n == 0x2028 || n == 0x2029 || n == 0x202f || n == 0x205f ||
    n == 0x3000

/-- The characters that `str.splitlines` takes for the end of a line. -/
def isLineBreak (c : Char) : Bool :=
  let n := c.toNat
  (10 ≤ n && n ≤ 13) || (28 ≤ n && n ≤ 30) || n == 0x85 || n == 0x2028 || n == 0x2029

/-- The lines of a text, after the one that is being read. `"\r\n"` ends one line. -/
def linesFrom (line : Chars) : Chars → List Chars
  | [] => if line.isEmpty then [] else [line]
  | '\r' :: '\n' :: cs => line :: linesFrom [] cs
  | c :: cs => if isLineBreak c then line :: linesFrom [] cs else linesFrom (line ++ [c]) cs

def splitLines (text : Chars) : List Chars := linesFrom [] text

/-- `text.strip()` -/
def stripText (text : Chars) : Chars :=
  ((text.dropWhile isSpaceChar).reverse.dropWhile isSpaceChar).reverse

/-- What a client command answers: decoded text, or the bytes of it. -/
inductive ClientText where
  | str (text : Chars)
  | bytes (b : Bytes)
  deriving DecidableEq, Repr

def strIfBytes : ClientText → Chars
  | .str text => text
  | .bytes b => (decodeReplace b).toList

/-- `dict(pair.split("=", 1) for pair in pairs)`, after what it has read. -/
def dictOfPairs (d : Dict Chars Chars) : List Chars → Except Exc (Dict Chars Chars)
  | [] => .ok d
  | pair :: pairs =>
    match Splitting.splitOnce (· == '=') pair with
    | [name, value] => dictOfPairs (d.put (name, value)) pairs
    | _ => .error { cls := .ValueError, msg := "dictionary update sequence element has length 1; 2 is required" }

def parseClientList (response : ClientText) : Except Exc (List (Dict Chars Chars)) :=
  (splitLines (strIfBytes response)).mapM fun c => dictOfPairs ∅ (c.splitOn ' ')

/-- A value of `client_info`: text, until `int()` has been applied to it. -/
inductive InfoValue where
  | text (t : Chars)
  | int (i : Int)
  deriving DecidableEq, Repr

/-- `int(v)`. Of text, the numerals in ASCII. -/
def InfoValue.toInt : InfoValue → Except Exc Int
  | .int i => .ok i
  | .text t =>
    match Numeral.readInt t with
    | some i => .ok i
    | none => .error { cls := .ValueError, msg := "invalid literal for int() with base 10" }

/-- "Those fields are defined as int in networking.c" -/
def intKeys : List Chars :=
  ["id", "age", "idle", "db", "sub", "psub", "multi", "qbuf", "qbuf-free", "obl", "argv-mem",
    "oll", "omem", "tot-mem"].map String.toList

/-- The first loop of `parse_client_info`. -/
def readInfo (d : Dict Chars InfoValue) : List Chars → Except Exc (Dict Chars InfoValue)
  | [] => .ok d
  | info :: infos =>
    match info.splitOn '=' with
    | [key, value] => readInfo (d.put (key, .text value)) infos
    | [_] => .error { cls := .ValueError, msg := "not enough values to unpack (expected 2, got 1)" }
    | _ => .error { cls := .ValueError, msg := "too many values to unpack (expected 2)" }

/-- The second loop of `parse_client_info`. -/
def convertInfo (d : Dict Chars InfoValue) : List Chars → Except Exc (Dict Chars InfoValue)
  | [] => .ok d
  | int_key :: keys =>
    match d.get? int_key with
    | none => .error { cls := .KeyError, msg := String.ofList int_key }
    | some (_, value) => do convertInfo (d.put (int_key, .int (← value.toInt))) keys

/-- `parse_client_info`; `order` is the order in which the set of integer fields is gone
through. -/
def parseClientInfo (order : List Chars) (value : ClientText) : Except Exc (Dict Chars InfoValue) := do
  let client_info ← readInfo ∅ (Splitting.words isSpaceChar (stripText (strIfBytes value)))
  convertInfo client_info order

end RedisPy
