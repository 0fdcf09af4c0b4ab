import RedisPy.Library.Reading
import RedisPy.Spec.SocketBuffer

/-! The two Python-backed reply parsers, `_RESP2Parser` and `_RESP3Parser`
(`redis/_parsers/base.py`, `resp2.py`, `resp3.py`), over a `SocketBuffer`. -/

namespace RedisPy

open Reading Raising

/-- An entry of `EXCEPTION_CLASSES`: a class, or a class for each message. -/
inductive ExceptionEntry where
  | cls (c : ExcClass)
  | byMessage (table : List (String × ExcClass))

def MODULE_LOAD_ERROR : String := "Error loading the extension. Please check the server logs."
def NO_SUCH_MODULE_ERROR : String := "Error unloading module: no such module with that name"
def MODULE_UNLOAD_NOT_POSSIBLE_ERROR : String := "Error unloading module: operation not possible."
def MODULE_EXPORTS_DATA_TYPES_ERROR : String :=
  "Error unloading module: the module exports one or more module-side data types, can't unload"

def NO_AUTH_SET_ERROR : List (String × ExcClass) :=
  [("AUTH <password> called without any password configured for the default user. " ++
      "Are you sure your configuration is correct?", .AuthenticationError),
    ("Client sent AUTH, but no password is set", .AuthenticationError)]

def EXCEPTION_CLASSES : List (String × ExceptionEntry) :=
  [("ERR", .byMessage
      ([("max number of clients reached", .ConnectionError),
        ("invalid password", .AuthenticationError),
        ("wrong number of arguments for 'auth' command", .AuthenticationWrongNumberOfArgsError),
        ("wrong number of arguments for 'AUTH' command", .AuthenticationWrongNumberOfArgsError),
        (MODULE_LOAD_ERROR, .ModuleError),
        (MODULE_EXPORTS_DATA_TYPES_ERROR, .ModuleError),
        (NO_SUCH_MODULE_ERROR, .ModuleError),
        (MODULE_UNLOAD_NOT_POSSIBLE_ERROR, .ModuleError)] ++ NO_AUTH_SET_ERROR)),
    ("OOM", .cls .OutOfMemoryError),
    ("WRONGPASS", .cls .AuthenticationError),
    ("EXECABORT", .cls .ExecAbortError),
    ("LOADING", .cls .BusyLoadingError),
    ("NOSCRIPT", .cls .NoScriptError),
    ("READONLY", .cls .ReadOnlyError),
    ("NOAUTH", .cls .AuthenticationError),
    ("NOPERM", .cls .NoPermissionError)]

def parseError (response : String) : Exc :=
  let error_code := response.toList.takeWhile (· ≠ ' ')
  match EXCEPTION_CLASSES.lookup (String.ofList error_code) with
  | none => { cls := .ResponseError, msg := response }
  | some entry =>
    let response := String.ofList (response.toList.drop (error_code.length + 1))
    match entry with
    | .cls c => { cls := c, msg := response }
    | .byMessage table => { cls := (table.lookup response).getD .ResponseError, msg := response }

example : parseError "ERR unknown command" = { cls := .ResponseError, msg := "unknown command" } := by
  decide +kernel

/-- `Encoder`: `text` is `bytes.decode` with the client's encoding and error mode. -/
structure Encoder where
  decode_responses : Bool
  text : Bytes → Except Exc String

def Encoder.decode (enc : Encoder) : PyVal → Except Exc PyVal
  | .bytes b => if enc.decode_responses then .str <$> enc.text b else .ok (.bytes b)
  | v => .ok v

/-- Raise what the expression raises. -/
def raising {σ α : Type} : Except Exc α → EStateM Exc σ α
  | .ok a => pure a
  | .error e => throw e

/-- The bytes that a read can still get: buffered, or held by the socket. -/
def SocketBuffer.available (s : SocketBuffer) : Nat := s.unreadBytes + recvBound s.sock

def closedByServer : Exc :=
  { cls := .ConnectionError, msg := SERVER_CLOSED_CONNECTION_ERROR }

def protocolError : Exc := { cls := .InvalidResponse, msg := "Protocol Error" }

structure RESP2Parser where
  encoder : Encoder

namespace RESP2Parser

open SocketBuffer (M)

variable (p : RESP2Parser) (disable_decoding : Bool)

/-- `_read_response`; `fuel` bounds the depth of its recursion. -/
def _readResponse : (fuel : Nat) → M PyVal
  | 0 => throw { cls := .RecursionError }
  | fuel + 1 => do
    let raw ← SocketBuffer.readline
    match raw with
    | [] => throw closedByServer
    | byte :: response =>
      -- server returned an error
      if byte = ascii '-' then
        let error := parseError (decodeReplace response)
        if error.isinstance .ConnectionError then throw error
        else return .exc error
      -- single value
      else if byte = ascii '+' then
        decoded (.bytes response)
      -- int value
      else if byte = ascii ':' then
        return .int (← raising (int response))
      -- bulk response
      else if byte = ascii '$' ∧ response = [ascii '-', ascii '1'] then
        return .none
      else if byte = ascii '$' then
        decoded (.bytes (← SocketBuffer.read (← raising (int response))))
      -- multi-bulk response
      else if byte = ascii '*' ∧ response = [ascii '-', ascii '1'] then
        return .none
      else if byte = ascii '*' then
        let n ← raising (int response)
        decoded (.list (← readMany (_readResponse fuel) n.toNat))
      else throw protocolError
where
  decoded (response : PyVal) : M PyVal :=
    if disable_decoding = false then raising (p.encoder.decode response) else pure response

def readResponse : M PyVal := do
  let s ← get
  let pos := s.getPos
  let result ← tryCatch (_readResponse p disable_decoding (s.available + 1)) fun e => do
    SocketBuffer.rewind pos
    throw e
  SocketBuffer.purge
  return result

end RESP2Parser

/-- The push handlers that can be called, and the frames they were called with. -/
inductive PushHandler where
  | pubsub | invalidation
  deriving DecidableEq, Repr

structure RESP3Parser where
  encoder : Encoder
  /-- `float(response)` -/
  float : Bytes → Except Exc PyVal
  pubsub_push_handler_func : PyVal → Except Exc PyVal
  invalidation_push_handler_func : Option (PyVal → Except Exc PyVal) := none

namespace RESP3Parser

/-- The buffer, and the log of the handlers' calls. -/
abbrev M := EStateM Exc (SocketBuffer × List (PushHandler × PyVal))

def logPush (h : PushHandler) (response : PyVal) : M Unit :=
  modify fun s => (s.1, s.2 ++ [(h, response)])

/-- `response[0] in _INVALIDATION_MESSAGE` -/
def isInvalidation : PyVal → Bool
  | .bytes b => b == "invalidate".toList.map ascii
  | .str s => s == "invalidate"
  | _ => false

variable (p : RESP3Parser) (disable_decoding : Bool)

def handlePushResponse (response : List PyVal) : M PyVal :=
  match response with
  | [] => throw { cls := .IndexError, msg := "list index out of range" }
  | kind :: _ =>
    if !isInvalidation kind then do
      logPush .pubsub (.list response)
      raising (p.pubsub_push_handler_func (.list response))
    else match p.invalidation_push_handler_func with
      | some f => do
        logPush .invalidation (.list response)
        raising (f (.list response))
      | none => return .none

/-- `_read_response`; `fuel` bounds the depth of its recursion. -/
def _readResponse : (fuel : Nat) → (push_request : Bool) → M PyVal
  | 0, _ => throw { cls := .RecursionError }
  | fuel + 1, push_request => do
    let raw ← first SocketBuffer.readline
    match raw with
    | [] => throw closedByServer
    | byte :: response =>
      -- server returned an error
      if byte = ascii '-' ∨ byte = ascii '!' then
        let response ← if byte = ascii '!' then first (SocketBuffer.read (← raising (int response)))
          else pure response
        let error := parseError (decodeReplace response)
        if error.isinstance .ConnectionError then throw error
        else return .exc error
      -- single value
      else if byte = ascii '+' then
        decoded (.bytes response)
      -- null value
      else if byte = ascii '_' then
        return .none
      -- int and big int values
      else if byte = ascii ':' ∨ byte = ascii '(' then
        return .int (← raising (int response))
      -- double value
      else if byte = ascii ',' then
        raising (p.float response)
      -- bool value
      else if byte = ascii '#' then
        return .bool (response = [ascii 't'])
      -- bulk response
      else if byte = ascii '$' then
        decoded (.bytes (← first (SocketBuffer.read (← raising (int response)))))
      -- verbatim string response
      else if byte = ascii '=' then
        decoded (.bytes ((← first (SocketBuffer.read (← raising (int response)))).drop 4))
      -- array response, and a set as a list
      else if byte = ascii '*' ∨ byte = ascii '~' then
        let n ← raising (int response)
        return .list (← readMany (_readResponse fuel false) n.toNat)
      -- map response
      else if byte = ascii '%' then
        let n ← raising (int response)
        let resp_dict ← readFold (fun items => do
          let key ← _readResponse fuel false
          let value ← _readResponse fuel push_request
          if key.hashable then return PyVal.setItem items key value
          else throw { cls := .TypeError, msg := "unhashable type" }) n.toNat []
        return .dict resp_dict
      -- push response
      else if byte = ascii '>' then
        let n ← raising (int response)
        let response ← readMany (_readResponse fuel push_request) n.toNat
        let response ← handlePushResponse p response
        if !push_request then _readResponse fuel push_request
        else return response
      else throw protocolError
where
  decoded (response : PyVal) : M PyVal :=
    if disable_decoding = false then raising (p.encoder.decode response) else pure response

def readResponse (push_request : Bool := false) : M PyVal := do
  let s ← get
  let pos := s.1.getPos
  let result ← tryCatch (_readResponse p disable_decoding (s.1.available + 1) push_request) fun e => do
    first (SocketBuffer.rewind pos)
    throw e
  first SocketBuffer.purge
  return result

end RESP3Parser

end RedisPy
