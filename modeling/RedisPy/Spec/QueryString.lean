/-! The nodes of `redis/commands/search/querystring.py`: what they print, what they mean by
their documentation, and the grammar that the printed query is read by, from its characters on. -/

namespace RedisPy

namespace QueryString

abbrev Text := List Char

inductive Value where
  | scalar (v : Text)
  | range (a b : Text) (inclusive_min inclusive_max : Bool)
  | tag (tags : List Text)
  | geo (lon lat radius unit : Text)
  deriving DecidableEq

namespace Value

def combinable : Value → Bool
  | scalar _ => true
  | _ => false

def toString : Value → Text
  | scalar v => v
  | range a b inclusive_min inclusive_max =>
    ['['] ++ (if inclusive_min then [] else ['(']) ++ a ++ [' '] ++
      (if inclusive_max then [] else ['(']) ++ b ++ [']']
  | tag tags => ['\x7b'] ++ [' ', '|', ' '].intercalate tags ++ ['\x7d']
  | geo lon lat radius unit => ['['] ++ [' '].intercalate [lon, lat, radius, unit] ++ [']']

end Value

/-- `IntersectNode`, `UnionNode`, `DisjunctNode`, `DistjunctUnion`, `OptionalNode` -/
inductive Kind where
  | intersect | union | disjunct | disjunctUnion | optional
  deriving DecidableEq, Repr

namespace Kind

def joinStr : Kind → Text
  | union | disjunctUnion => ['|']
  | _ => [' ']

/-- What `to_string` puts before the joined parameters. -/
def unary : Kind → Text
  | disjunct | disjunctUnion => ['-']
  | optional => ['~']
  | _ => []

end Kind

/-- A query as it is built: a `BaseNode`, or a node with its children and its field values. -/
inductive Tree where
  | term (s : Text)
  | node (kind : Kind) (children : List Tree) (kwparams : List (Text × List Value))

/-- `join_fields`, for values that are not empty. -/
def joinFields (kind : Kind) (key : Text) (vals : List Value) : List Text :=
  match vals with
  | [] => []
  | [v] => [['@'] ++ key ++ [':'] ++ v.toString]
  | v :: _ =>
    if !v.combinable then vals.map fun v => ['@'] ++ key ++ [':'] ++ v.toString
    else [['@'] ++ key ++ [':', '('] ++ kind.joinStr.intercalate (vals.map Value.toString) ++ [')']]

/-- `to_string` of a node with its parameters printed. -/
def printNode (kind : Kind) (params : List Text) : Text :=
  let ret := kind.unary ++ kind.joinStr.intercalate params
  if params.length > 1 then ['('] ++ ret ++ [')'] else ret

/-- The parameters that come of the field values. -/
def fieldParams (kind : Kind) (kwparams : List (Text × List Value)) : List Text :=
  kwparams.flatMap fun p => joinFields kind p.1 p.2

mutual

def Tree.toString : Tree → Text
  | .term s => s
  | .node kind children kwparams => printNode kind (toStrings children ++ fieldParams kind kwparams)

def toStrings : List Tree → List Text
  | [] => []
  | t :: ts => t.toString :: toStrings ts

end

/-! ### What a tree means -/

/-- What a document can match: a word in any field, or a word or a range, tag set or geo
region in one field. -/
inductive Atom where
  | term (w : Text)
  | field (f w : Text)
  | value (f v : Text)
  deriving DecidableEq

/-- A document, by what it matches. -/
abbrev Document := Atom → Bool

/-- The words of a text. -/
def words (s : Text) : List Text := (s.splitOnP Char.isWhitespace).filter fun w => !w.isEmpty

/-- The field has the value: all words of a text. -/
def Value.matches (doc : Document) (f : Text) : Value → Bool
  | .scalar v => (words v).all fun w => doc (.field f w)
  | v => doc (.value f v.toString)

/-- The conditions of the field values, one for each value. -/
def fieldConditions (doc : Document) (kwparams : List (Text × List Value)) : List Bool :=
  kwparams.flatMap fun p => p.2.map fun v => v.matches doc p.1

/-- The documentation of the kinds of nodes. -/
def Kind.holds (kind : Kind) (conditions : List Bool) : Bool :=
  match kind with
  | .intersect => conditions.all id
  | .union => conditions.any id
  | .disjunct | .disjunctUnion => conditions.all fun b => !b
  | .optional => true

mutual

/-- The document matches the tree. -/
def Tree.matches (doc : Document) : Tree → Bool
  | .term s => (words s).all fun w => doc (.term w)
  | .node kind children kwparams => kind.holds (matchesAll doc children ++ fieldConditions doc kwparams)

def matchesAll (doc : Document) : List Tree → List Bool
  | [] => []
  | t :: ts => t.matches doc :: matchesAll doc ts

end

/-! ### The grammar: the pieces of a string -/

/-- A piece of a query string. -/
inductive Piece where
  | word (w : Text)
  /-- A range, a tag set or a geo region. -/
  | value (v : Text)
  /-- `@f:` -/
  | field (f : Text)
  | lparen | rparen | pipe | minus | tilde
  deriving DecidableEq

/-- The character can stand in a word. -/
def isWordChar (c : Char) : Bool :=
  !(c.isWhitespace || ['(', ')', '|', '-', '~', '@', ':', '[', ']', '\x7b', '\x7d'].contains c)

/-- What the lexer is in the middle of. -/
inductive Mode where
  | between
  | word (w : Text)
  | field (f : Text)
  | value (closing : Char) (v : Text)

/-- A character where a piece can begin. -/
def begin (c : Char) : Option (List Piece × Mode) :=
  if c.isWhitespace then some ([], .between)
  else if isWordChar c then some ([], .word [c])
  else match c with
    | '(' => some ([.lparen], .between)
    | ')' => some ([.rparen], .between)
    | '|' => some ([.pipe], .between)
    | '-' => some ([.minus], .between)
    | '~' => some ([.tilde], .between)
    | '@' => some ([], .field [])
    | '[' => some ([], .value ']' ['['])
    | '\x7b' => some ([], .value '\x7d' ['\x7b'])
    | _ => none

/-- One character: the pieces that end with it. -/
def scan : Mode → Char → Option (List Piece × Mode)
  | .between, c => begin c
  | .word w, c =>
    if isWordChar c then some ([], .word (w ++ [c]))
    else (begin c).map fun r => (.word w :: r.1, r.2)
  | .field f, c =>
    if c = ':' then some ([.field f], .between)
    else if isWordChar c then some ([], .field (f ++ [c])) else none
  | .value closing v, c =>
    if c = closing then some ([.value (v ++ [c])], .between) else some ([], .value closing (v ++ [c]))

def lexFrom : Mode → Text → Option (List Piece)
  | .between, [] => some []
  | .word w, [] => some [.word w]
  | _, [] => none
  | mode, c :: s => (scan mode c).bind fun r => (lexFrom r.2 s).map (r.1 ++ ·)

/-- The pieces of a string. -/
def lex (s : Text) : Option (List Piece) := lexFrom .between s

/-! ### The grammar: the query of some pieces -/

/-- A query that has been read. -/
inductive Query where
  | atom (a : Atom)
  | all (qs : List Query)
  | any (qs : List Query)
  | neg (q : Query)
  | opt (q : Query)

mutual

def Query.matches (doc : Document) : Query → Bool
  | .atom a => doc a
  | .all qs => queriesMatch doc qs |>.all id
  | .any qs => queriesMatch doc qs |>.any id
  | .neg q => !q.matches doc
  | .opt _ => true

def queriesMatch (doc : Document) : List Query → List Bool
  | [] => []
  | q :: qs => q.matches doc :: queriesMatch doc qs

end

/-- A group that is being read: the field it is in, the alternatives read, the intersection
being read, and the prefix and the field that wait for a term or a group. -/
structure Frame where
  scope : Option Text := none
  alternatives : List Query := []
  current : List Query := []
  unary : Option Piece := none
  field : Option Text := none

namespace Frame

/-- A prefix on what follows it. -/
def applied (unary : Option Piece) (q : Query) : Query :=
  match unary with
  | some .minus => .neg q
  | some .tilde => .opt q
  | _ => q

/-- A term or a group has been read. -/
def push (fr : Frame) (q : Query) : Frame :=
  { fr with current := fr.current ++ [applied fr.unary q], unary := none, field := none }

/-- Nothing is waited for. -/
def settled (fr : Frame) : Bool := fr.unary.isNone && fr.field.isNone

/-- The query of the whole group. -/
def close (fr : Frame) : Query := .any (fr.alternatives ++ [.all fr.current])

end Frame

/-- One piece: a prefix applies to the next term or group only, and so does a field, terms
side by side intersect, and `|` separates intersections. -/
def step : List Frame → Piece → Option (List Frame)
  | [], _ => none
  | fr :: st, .word w =>
    match fr.field, fr.scope with
    | some _, some _ => none
    | some f, none => some (fr.push (.atom (.field f w)) :: st)
    | none, some f => some (fr.push (.atom (.field f w)) :: st)
    | none, none => some (fr.push (.atom (.term w)) :: st)
  | fr :: st, .value v =>
    match fr.field, fr.scope with
    | some f, none => some (fr.push (.atom (.value f v)) :: st)
    | _, _ => none
  | fr :: st, .field f =>
    if fr.field.isNone && fr.scope.isNone then some ({ fr with field := some f } :: st) else none
  | fr :: st, .lparen => some ({ scope := fr.field.or fr.scope } :: fr :: st)
  | fr :: st, .rparen =>
    match st with
    | [] => none
    | parent :: st =>
      if fr.settled && !fr.current.isEmpty then some (parent.push fr.close :: st) else none
  | fr :: st, .pipe =>
    if fr.settled && !fr.current.isEmpty then
      some ({ fr with alternatives := fr.alternatives ++ [.all fr.current], current := [] } :: st)
    else none
  | fr :: st, .minus => if fr.settled then some ({ fr with unary := some .minus } :: st) else none
  | fr :: st, .tilde => if fr.settled then some ({ fr with unary := some .tilde } :: st) else none

def readFrom : List Frame → List Piece → Option (List Frame)
  | st, [] => some st
  | st, p :: ps => (step st p).bind fun st => readFrom st ps

/-- The query of some pieces, if they are one. -/
def readPieces (ps : List Piece) : Option Query :=
  match readFrom [{}] ps with
  | some [fr] => if fr.settled && !fr.current.isEmpty then some fr.close else none
  | _ => none

/-- The query of a string, if it is one. -/
def read (s : Text) : Option Query := (lex s).bind readPieces

end QueryString

end RedisPy
