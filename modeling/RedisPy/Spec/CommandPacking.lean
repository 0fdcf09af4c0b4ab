import RedisPy.Spec.Reply
import RedisPy.Spec.Text

/-! How commands become bytes: `PythonRespSerializer.pack` and `pack_commands`
(`redis/connection.py`), their asynchronous twins (`redis/asyncio/connection.py`) and
`Encoder.encode` (`redis/_parsers/encoders.py`). -/

namespace RedisPy

/-- The first argument, which the command is called by. -/
inductive CommandName where
  | str (s : String)
  | bytes (b : Bytes)
  deriving DecidableEq, Repr

/-- An argument. A float is what `repr` makes of it; a memoryview has `len` items, of any format,
and its bytes. -/
inductive Arg where
  | str (s : String)
  | bytes (b : Bytes)
  | int (i : Int)
  | float (repr : String)
  | memoryview (len : Nat) (b : Bytes)
  | bool (b : Bool)
  | other (typename : String)
  deriving DecidableEq, Repr

abbrev Command := CommandName × List Arg

/-- What a command is sent in: bytes, or a memoryview that is not copied. -/
inductive Chunk where
  | bytes (b : Bytes)
  | view (len : Nat) (b : Bytes)
  deriving DecidableEq, Repr

namespace Chunk

def len : Chunk → Nat
  | bytes b => b.length
  | view len _ => len

def data : Chunk → Bytes
  | bytes b => b
  | view _ b => b

/-- `isinstance(chunk, memoryview)` -/
def isView : Chunk → Bool
  | bytes _ => false
  | view _ _ => true

end Chunk

/-- The bytes that `bytes.split()` splits at. -/
def isSpace (b : UInt8) : Bool := b ∈ [9, 10, 11, 12, 13, 32]

/-- The words between separators, with the one that is being read. -/
def splitAt (sep : UInt8 → Bool) : Bytes → Bytes → List Bytes
  | [], word => if word = [] then [] else [word]
  | b :: bs, word =>
    if sep b then (if word = [] then [] else [word]) ++ splitAt sep bs []
    else splitAt sep bs (word ++ [b])

/-- `b.split()` -/
def splitSpace (b : Bytes) : List Bytes := splitAt isSpace b []

/-- The words that the first argument is replaced by. -/
def commandWords : CommandName → List Bytes
  | .str s => splitSpace (encodeText s)
  | .bytes b => if b.contains (ascii ' ') then splitSpace b else [b]

section

variable (encodeStr : String → Except Exc Bytes)

/-- `Encoder.encode`; `encodeStr` is `value.encode(self.encoding, self.encoding_errors)`. -/
def encodeArg : Arg → Except Exc Chunk
  | .bytes b => .ok (.bytes b)
  | .memoryview len b => .ok (.view len b)
  | .bool _ => .error
    { cls := .DataError
      msg := "Invalid input of type: 'bool'. Convert to a bytes, string, int or float first." }
  | .int i => .ok (.bytes (decimal i))
  | .float repr => .ok (.bytes (encodeText repr))
  | .other typename => .error
    { cls := .DataError
      msg := "Invalid input of type: '" ++ typename ++
        "'. Convert to a bytes, string, int or float first." }
  | .str s => (encodeStr s).map .bytes

/-- The loop of `pack` over the encoded arguments. -/
def packLoop (buffer_cutoff : Int) (output : List Chunk) (buff : Bytes) : List Chunk → List Chunk
  | [] => output ++ [.bytes buff]
  | arg :: args =>
    let arg_length := arg.len
    if (buff.length : Int) > buffer_cutoff ∨ (arg_length : Int) > buffer_cutoff ∨ arg.isView then
      let buff := buff ++ (ascii '$' :: decimal arg_length ++ CRLF)
      packLoop buffer_cutoff (output ++ [.bytes buff, arg]) CRLF args
    else
      packLoop buffer_cutoff output
        (buff ++ (ascii '$' :: decimal arg_length ++ CRLF) ++ arg.data ++ CRLF) args

def pack (buffer_cutoff : Int) (command : Command) : Except Exc (List Chunk) := do
  let args ← ((commandWords command.1).map Arg.bytes ++ command.2).mapM (encodeArg encodeStr)
  return packLoop buffer_cutoff [] (ascii '*' :: decimal args.length ++ CRLF) args

/-- `AbstractConnection.pack_command` of `redis/asyncio/connection.py`: its assertion is that the
name is no float. -/
def asyncPackCommand (buffer_cutoff : Int) (command : Command) : Except Exc (List Chunk) := do
  let args ← ((commandWords command.1).map Arg.bytes ++ command.2).mapM (encodeArg encodeStr)
  return packLoop buffer_cutoff [] (ascii '*' :: decimal args.length ++ CRLF) args

end

/-- The variables of `pack_commands`. -/
structure Packing where
  output : List Chunk := []
  pieces : List Bytes := []
  buffer_length : Nat := 0

namespace Packing

/-- `if pieces: output.append(SYM_EMPTY.join(pieces))` -/
def flush (p : Packing) : List Chunk :=
  if p.pieces.isEmpty then p.output else p.output ++ [.bytes p.pieces.flatten]

/-- The body of the inner loop. -/
def addChunk (buffer_cutoff : Int) (p : Packing) (chunk : Chunk) : Packing :=
  let chunklen := chunk.len
  let p : Packing :=
    if (p.buffer_length : Int) > buffer_cutoff ∨ (chunklen : Int) > buffer_cutoff ∨ chunk.isView then
      { output := p.flush, pieces := [], buffer_length := 0 }
    else p
  if (chunklen : Int) > buffer_cutoff ∨ chunk.isView then
    { p with output := p.output ++ [chunk] }
  else
    { p with pieces := p.pieces ++ [chunk.data], buffer_length := p.buffer_length + chunklen }

/-- The outer loop; `pack` is the packer of one command. -/
def addCommands (pack : Command → Except Exc (List Chunk)) (buffer_cutoff : Int) (p : Packing) :
    List Command → Except Exc Packing
  | [] => .ok p
  | command :: commands =>
    match pack command with
    | .error e => .error e
    | .ok chunks => addCommands pack buffer_cutoff (chunks.foldl (addChunk buffer_cutoff) p) commands

end Packing

/-- `pack_commands`, with the connection's `pack` -/
def packCommands (pack : Command → Except Exc (List Chunk)) (buffer_cutoff : Int)
    (commands : List Command) : Except Exc (List Chunk) :=
  (Packing.addCommands pack buffer_cutoff {} commands).map Packing.flush

/-- The bytes that go out. -/
def sentBytes (chunks : List Chunk) : Bytes := chunks.flatMap Chunk.data

/-- The words of a name: what stands between its spaces. -/
def nameWords : CommandName → List Bytes
  | .str s => splitAt (· = ascii ' ') (encodeText s) []
  | .bytes b => splitAt (· = ascii ' ') b []

/-- What a command says: the words of its name and its encoded arguments. -/
def saidBy (encodeStr : String → Except Exc Bytes) (command : Command) : Except Exc (List Bytes) := do
  let args ← command.2.mapM (encodeArg encodeStr)
  return nameWords command.1 ++ args.map Chunk.data

/-- The array of bulk strings that says it. -/
def request (words : List Bytes) : Reply := .array (words.map .bulk)

end RedisPy
