import RedisPy.Library.TokenReader
import RedisPy.Spec.RespParsers

/-! The Python-backed reply parsers of the asyncio client (`redis/_parsers/base.py`,
`resp2.py`, `resp3.py`), on an `asyncio.StreamReader`. What they have in common with the
sync parsers, the order in which lines and payloads are asked for and what is made of
them, is a reader of tokens. -/

namespace RedisPy

open TokenReader Raising

/-- A reader of bytes that hands frames of kind `φ` over. -/
abbrev ReplyReader (φ : Type) := Reader Exc Bytes φ PyVal PyVal

namespace ReplyReader

variable {φ : Type}

/-- `self.encoder.decode(response)`, unless decoding is disabled. -/
def decoded (encoder : Encoder) (disable_decoding : Bool) (response : PyVal) : ReplyReader φ :=
  if disable_decoding = false then .ofExcept (encoder.decode response) else .ret response

/-- An error reply. One that is a `ConnectionError` is raised, for good. -/
def errorReply (text : Bytes) : ReplyReader φ :=
  let error := parseError (decodeReplace text)
  if error.isinstance .ConnectionError then .abort error else .ret (.exc error)

end ReplyReader

namespace RESP2Parser

open ReplyReader

variable (encoder : Encoder) (disable_decoding : Bool) (blank : Exc)

/-- `_read_response` of the RESP2 parsers; `blank` is what an empty line raises. -/
def reply : (fuel : Nat) → ReplyReader Empty
  | 0 => .out
  | fuel + 1 => .line fun raw =>
    match raw with
    | [] => .fail blank
    | byte :: response =>
      if byte = ascii '-' then errorReply response
      else if byte = ascii '+' then decoded encoder disable_decoding (.bytes response)
      else if byte = ascii ':' then (Reader.ofExcept (int response)).bind fun i => .ret (.int i)
      else if byte = ascii '$' ∧ response = [ascii '-', ascii '1'] then .ret .none
      else if byte = ascii '$' then
        (Reader.ofExcept (int response)).bind fun n => .blob n fun b =>
          decoded encoder disable_decoding (.bytes b)
      else if byte = ascii '*' ∧ response = [ascii '-', ascii '1'] then .ret .none
      else if byte = ascii '*' then
        (Reader.ofExcept (int response)).bind fun n =>
          (Reader.many (reply fuel) n.toNat).bind fun xs => decoded encoder disable_decoding (.list xs)
      else .fail protocolError

end RESP2Parser

namespace RESP3Parser

open ReplyReader

/-- What a push handler makes of a frame. -/
def handled (p : RESP3Parser) : List PyVal → Except Exc PyVal
  | [] => .error { cls := .IndexError, msg := "list index out of range" }
  | kind :: response =>
    if !isInvalidation kind then p.pubsub_push_handler_func (.list (kind :: response))
    else match p.invalidation_push_handler_func with
      | some f => f (.list (kind :: response))
      | none => .ok .none

/-- The handler's call that a frame leads to. -/
def noted (p : RESP3Parser) (response : List PyVal) : List (PushHandler × PyVal) :=
  match response with
  | [] => []
  | kind :: _ =>
    if !isInvalidation kind then [(.pubsub, .list response)]
    else if p.invalidation_push_handler_func.isSome then [(.invalidation, .list response)] else []

variable (p : RESP3Parser) (disable_decoding : Bool) (blank : Exc)

/-- `_read_response` of the RESP3 parsers. -/
def reply : (fuel : Nat) → (push_request : Bool) → ReplyReader (List PyVal)
  | 0, _ => .out
  | fuel + 1, push_request => .line fun raw =>
    match raw with
    | [] => .fail blank
    | byte :: response =>
      if byte = ascii '-' then errorReply response
      else if byte = ascii '!' then
        (Reader.ofExcept (int response)).bind fun n => .blob n errorReply
      else if byte = ascii '+' then decoded p.encoder disable_decoding (.bytes response)
      else if byte = ascii '_' then .ret .none
      else if byte = ascii ':' ∨ byte = ascii '(' then
        (Reader.ofExcept (int response)).bind fun i => .ret (.int i)
      else if byte = ascii ',' then .ofExcept (p.float response)
      else if byte = ascii '#' then .ret (.bool (response = [ascii 't']))
      else if byte = ascii '$' then
        (Reader.ofExcept (int response)).bind fun n => .blob n fun b =>
          decoded p.encoder disable_decoding (.bytes b)
      else if byte = ascii '=' then
        (Reader.ofExcept (int response)).bind fun n => .blob n fun b =>
          decoded p.encoder disable_decoding (.bytes (b.drop 4))
      else if byte = ascii '*' ∨ byte = ascii '~' then
        (Reader.ofExcept (int response)).bind fun n =>
          (Reader.many (reply fuel false) n.toNat).bind fun xs => .ret (.list xs)
      else if byte = ascii '%' then
        (Reader.ofExcept (int response)).bind fun n =>
          (Reader.fold (fun items => (reply fuel false).bind fun key =>
            (reply fuel push_request).bind fun value =>
              if key.hashable then .ret (PyVal.setItem items key value)
              else .fail { cls := .TypeError, msg := "unhashable type" }) n.toNat []).bind
            fun items => .ret (.dict items)
      else if byte = ascii '>' then
        (Reader.ofExcept (int response)).bind fun n =>
          (Reader.many (reply fuel push_request) n.toNat).bind fun xs => .push xs fun r =>
            if !push_request then reply fuel push_request else .ret r
      else .fail protocolError

end RESP3Parser

/-! ### The stream -/

/-- `asyncio.StreamReader`: what waiting for data will meet (no bytes for the end of the
stream), and the bytes that have arrived. A wait that is cancelled or fails is an
exception among the events. -/
structure StreamReader where
  events : List RecvEvent
  /-- The `limit` of `open_connection`, 64 KiB unless given. -/
  _limit : Nat := 2 ^ 16
  _buffer : Bytes := []
  _eof : Bool := false
  deriving DecidableEq, Repr

namespace StreamReader

abbrev M := EStateM Exc StreamReader

/-- `_wait_for_data`. Where nothing arrives any more, the wait is given up. -/
def waitForData : M Unit := do
  let s ← get
  match s.events with
  | [] => throw { cls := .CancelledError }
  | .raise e :: rest =>
    set { s with events := rest }
    throw e
  | .data bytes :: rest =>
    set { s with events := rest, _buffer := s._buffer ++ bytes, _eof := s._eof || bytes.isEmpty }

def limitOverrun (msg : String) : Exc := { cls := .ValueError, msg := msg }

/-- The loop of `readline`, with `fuel` for its rounds. -/
def readlineLoop : (fuel : Nat) → M Bytes
  | 0 => throw { cls := .CancelledError }
  | fuel + 1 => do
    let s ← get
    if LF ∈ s._buffer then
      let line := ByteBuffer.firstLine s._buffer
      set { s with _buffer := s._buffer.drop line.length }
      if line.length - 1 > s._limit then
        throw (limitOverrun "Separator is found, but chunk is longer than limit")
      else return line
    else if s._buffer.length > s._limit then
      set { s with _buffer := [] }
      throw (limitOverrun "Separator is not found, and chunk exceed the limit")
    else if s._eof then
      set { s with _buffer := [] }
      return s._buffer
    else
      waitForData
      readlineLoop fuel

def readline : M Bytes := do
  let s ← get
  readlineLoop (s.events.length + 1)

/-- The loop of `readexactly`; `none` for an `IncompleteReadError`. -/
def readexactlyLoop (n : Nat) : (fuel : Nat) → M (Option Bytes)
  | 0 => throw { cls := .CancelledError }
  | fuel + 1 => do
    let s ← get
    if n ≤ s._buffer.length then
      set { s with _buffer := s._buffer.drop n }
      return some (s._buffer.take n)
    else if s._eof then
      set { s with _buffer := [] }
      return none
    else
      waitForData
      readexactlyLoop n fuel

def readexactly (n : Int) : M (Option Bytes) := do
  let s ← get
  if n < 0 then throw { cls := .ValueError, msg := "readexactly size can not be less than zero" }
  else readexactlyLoop n.toNat (s.events.length + 1)

end StreamReader

/-! ### The parsers -/

/-- Where an index into a sequence of length `n` falls: a negative one counts from the end. -/
def pyIndex (n : Nat) (i : Int) : Nat := if i < 0 then (n + i).toNat else min i.toNat n

/-- `b[i:j]` -/
def slice (b : Bytes) (i j : Int) : Bytes :=
  (b.take (pyIndex b.length j)).drop (pyIndex b.length i)

/-- `b[i:]` -/
def sliceFrom (b : Bytes) (i : Int) : Bytes := b.drop (pyIndex b.length i)

/-- How many bytes stand before the first `b"\r\n"`, if there is one. -/
def beforeCRLF : Bytes → Option Nat
  | [] => none
  | b :: bs => if b = CR ∧ bs.head? = some LF then some 0 else (beforeCRLF bs).map (· + 1)

structure AsyncRESPBase where
  _stream : StreamReader
  _buffer : Bytes := []
  _chunks : List Bytes := []
  _pos : Int := 0
  _connected : Bool := true
  deriving DecidableEq, Repr

namespace AsyncRESPBase

abbrev M := EStateM Exc AsyncRESPBase

/-- `await` on the stream. -/
def onStream {α : Type} (m : StreamReader.M α) : M α := fun s =>
  match m.run s._stream with
  | .ok a t => .ok a { s with _stream := t }
  | .error e t => .error e { s with _stream := t }

def clear : M Unit := modify fun s => { s with _buffer := [], _chunks := [] }

def read (length : Int) : M Bytes := do
  let s ← get
  let want := length + 2
  let stop := s._pos + want
  if s._buffer.length ≥ stop then
    modify fun s => { s with _pos := s._pos + want }
    return slice s._buffer s._pos (stop - 2)
  else
    let tail := sliceFrom s._buffer s._pos
    match ← onStream (StreamReader.readexactly (want - tail.length)) with
    | none => throw closedByServer
    | some data =>
      modify fun s => { s with _chunks := s._chunks ++ [data], _pos := s._pos + want }
      return (tail ++ data).dropLast.dropLast

def readline : M Bytes := do
  let s ← get
  let tail := sliceFrom s._buffer s._pos
  match beforeCRLF tail with
  | some found =>
    modify fun s => { s with _pos := s._pos + found + 2 }
    return tail.take found
  | none =>
    let data ← onStream StreamReader.readline
    if SocketBuffer.endsCRLF data then
      let result := (tail ++ data).dropLast.dropLast
      modify fun s => { s with _chunks := s._chunks ++ [data], _pos := s._pos + result.length + 2 }
      return result
    else throw closedByServer

/-- What has been read for a reply that was not finished is parsed again. -/
def restart : M Unit :=
  modify fun s => { s with _buffer := s._buffer ++ s._chunks.flatten, _chunks := [], _pos := 0 }

/-- The base class as a source of tokens. -/
def source : Source Exc Bytes Empty PyVal AsyncRESPBase where
  line := readline
  blob := read
  push := Empty.elim
  clear := clear
  exhausted := { cls := .RecursionError }

/-- The bytes that a read can still get. -/
def available (s : AsyncRESPBase) : Nat :=
  s._buffer.length + s._chunks.flatten.length + s._stream._buffer.length +
    SocketBuffer.recvBound s._stream.events

end AsyncRESPBase

structure AsyncRESP2Parser where
  encoder : Encoder

namespace AsyncRESP2Parser

open AsyncRESPBase (M)

variable (p : AsyncRESP2Parser) (disable_decoding : Bool)

def _readResponse (fuel : Nat) : M PyVal :=
  AsyncRESPBase.source.exec (RESP2Parser.reply p.encoder disable_decoding protocolError fuel)

def readResponse : M PyVal := do
  let s ← get
  if s._connected then
    AsyncRESPBase.restart
    let response ← _readResponse p disable_decoding (s.available + 1)
    AsyncRESPBase.clear
    return response
  else throw closedByServer

end AsyncRESP2Parser

/-- `_AsyncRESP3Parser` has the fields of `_RESP3Parser`. -/
abbrev AsyncRESP3Parser := RESP3Parser

namespace AsyncRESP3Parser

/-- The parser's state, and the log of the handlers' calls. -/
abbrev M := EStateM Exc (AsyncRESPBase × List (PushHandler × PyVal))

variable (p : RESP3Parser) (disable_decoding : Bool)

def handlePushResponse (response : List PyVal) : M PyVal :=
  match response with
  | [] => throw { cls := .IndexError, msg := "list index out of range" }
  | kind :: _ =>
    if !RESP3Parser.isInvalidation kind then do
      modify fun s => (s.1, s.2 ++ [(.pubsub, .list response)])
      raising (p.pubsub_push_handler_func (.list response))
    else match p.invalidation_push_handler_func with
      | some f => do
        modify fun s => (s.1, s.2 ++ [(.invalidation, .list response)])
        raising (f (.list response))
      | none => return .none

def source : Source Exc Bytes (List PyVal) PyVal (AsyncRESPBase × List (PushHandler × PyVal)) where
  line := first AsyncRESPBase.readline
  blob n := first (AsyncRESPBase.read n)
  push := handlePushResponse p
  clear := first AsyncRESPBase.clear
  exhausted := { cls := .RecursionError }

def _readResponse (fuel : Nat) (push_request : Bool) : M PyVal :=
  (source p).exec (RESP3Parser.reply p disable_decoding protocolError fuel push_request)

def readResponse (push_request : Bool := false) : M PyVal := do
  let s ← get
  first AsyncRESPBase.restart
  let response ← _readResponse p disable_decoding (s.1.available + 1) push_request
  first AsyncRESPBase.clear
  return response

end AsyncRESP3Parser

end RedisPy
