import RedisPy.Library.Raising
import RedisPy.Spec.Python

/-! `read_response` of a connection and of one that a sentinel manages (`redis/connection.py`,
`redis/sentinel.py` and both files of `redis/asyncio`), and the call of it by
`Redis._execute_command`. The parser is any parser. -/

namespace RedisPy

open Raising

/-- The parser's `read_response`: with what is to be read it comes to a reply or raises. Where
`push_request` is `none` it is not passed; `timeout` is that of the enclosing `async_timeout`. -/
structure ReplyParser (σ : Type) where
  read_response : (disable_decoding : Bool) → (push_request : Option Bool) → (timeout : Option Rat) →
    σ → Except Exc PyVal × σ

structure ReadConn (σ : Type) where
  /-- What the parser and the socket hold. -/
  stream : σ
  connected : Bool
  /-- A reply has been read in part. -/
  torn : Bool

namespace ReadConn

variable {σ : Type}

def disconnect (s : ReadConn σ) : ReadConn σ := { s with connected := false, torn := false }

/-- No reply is left half read on a connection that is up. -/
def Clean (s : ReadConn σ) : Prop := s.connected = true → s.torn = false

end ReadConn

/-- What the connection and its pool are set up with. -/
structure ReadSettings where
  /-- `protocol in ["3", 3]` and `HIREDIS_AVAILABLE` is false -/
  passes_push_request : Bool := false
  socket_timeout : Option Rat := none
  host_error : String := ""
  /-- `f"{e.args}"` -/
  args : Exc → String := fun _ => ""
  /-- `connection_pool.is_master` -/
  is_master : Bool := true

/-- The arguments that a caller passes. -/
structure ReadKwargs where
  disable_decoding : Option Bool := none
  /-- in asyncio only -/
  timeout : Option Rat := none
  disconnect_on_error : Option Bool := none
  push_request : Option Bool := none

abbrev ReadM (σ : Type) := EStateM Exc (ReadConn σ)

section

variable {σ : Type} (P : ReplyParser σ) (S : ReadSettings)

/-- `self._parser.read_response(...)` -/
def readReply (disable_decoding push_request : Bool) (read_timeout : Option Rat) : ReadM σ PyVal :=
  fun s =>
    let push_request := if S.passes_push_request then some push_request else none
    match P.read_response disable_decoding push_request read_timeout s.stream with
    | (.ok response, stream) => .ok response { s with stream := stream }
    | (.error e, stream) => .error e { s with stream := stream, torn := true }

/-- The exception that comes of one that the parser raises. -/
def readError (e : Exc) : Exc :=
  if e.isinstance .SocketTimeout then
    { cls := .TimeoutError, msg := "Timeout reading from " ++ S.host_error }
  else if e.isinstance .OSError then
    { cls := .ConnectionError
      msg := "Error while reading from " ++ S.host_error ++ " : " ++ S.args e }
  else e

/-- The `except` clauses: a caller that sets a timeout has `None` returned on it. -/
def readFails (timeout : Option Rat) (disconnect_on_error : Bool) (e : Exc) : ReadM σ PyVal :=
  if e.isinstance .SocketTimeout ∧ timeout.isSome then return .none
  else do
    if disconnect_on_error then modify ReadConn.disconnect
    throw (readError S e)

/-- The end of `read_response`: an error reply is raised. -/
def raiseReply : PyVal → ReadM σ PyVal
  | .exc e => if e.isinstance .ResponseError then throw e else return .exc e
  | response => return response

/-- `AbstractConnection.read_response` of `redis/connection.py` -/
def Connection.readResponse (disable_decoding disconnect_on_error push_request : Bool) :
    ReadM σ PyVal := do
  let response ← tryCatch (readReply P S disable_decoding push_request none)
    (readFails S none disconnect_on_error)
  raiseReply response

/-- `AbstractConnection.read_response` of `redis/asyncio/connection.py` -/
def AsyncConnection.readResponse (disable_decoding : Bool) (timeout : Option Rat)
    (disconnect_on_error push_request : Bool) : ReadM σ PyVal := do
  let read_timeout := if timeout.isSome then timeout else S.socket_timeout
  let response ← tryCatch (readReply P S disable_decoding push_request read_timeout)
    (readFails S timeout disconnect_on_error)
  raiseReply response

/-- The `except ReadOnlyError` of both overrides -/
def readOnlyFails (e : Exc) : ReadM σ PyVal :=
  if e.isinstance .ReadOnlyError then
    if S.is_master then do
      modify ReadConn.disconnect
      throw { cls := .ConnectionError, msg := "The previous master is now a slave" }
    else throw e
  else throw e

/-- A call of `read_response` on a plain connection -/
def Connection.call (kw : ReadKwargs) : ReadM σ PyVal :=
  Connection.readResponse P S (kw.disable_decoding.getD false) (kw.disconnect_on_error.getD true)
    (kw.push_request.getD false)

/-- A call on one of a `SentinelConnectionPool`: the override has defaults of its own. -/
def SentinelManagedConnection.call (kw : ReadKwargs) : ReadM σ PyVal :=
  tryCatch (Connection.readResponse P S (kw.disable_decoding.getD false)
    (kw.disconnect_on_error.getD false) (kw.push_request.getD false)) (readOnlyFails S)

def AsyncConnection.call (kw : ReadKwargs) : ReadM σ PyVal :=
  AsyncConnection.readResponse P S (kw.disable_decoding.getD false) kw.timeout
    (kw.disconnect_on_error.getD true) (kw.push_request.getD false)

def AsyncSentinelManagedConnection.call (kw : ReadKwargs) : ReadM σ PyVal :=
  tryCatch (AsyncConnection.readResponse P S (kw.disable_decoding.getD false) kw.timeout
    (kw.disconnect_on_error.getD true) (kw.push_request.getD false)) (readOnlyFails S)

end

/-- `conn.retry` and `conn.retry_on_error`, as far as `_execute_command` uses them. -/
structure RetrySettings where
  supported_errors : List ExcClass := [.ConnectionError, .TimeoutError, .SocketTimeout]
  retry_on_error : Option (List ExcClass) := some []

/-- `_disconnect_raise` raises the error. -/
def RetrySettings.givesUp (retry : RetrySettings) (error : Exc) : Bool :=
  match retry.retry_on_error with
  | none => true
  | some classes => !error.isinstanceAny classes

/-- One round of `call_with_retry` in `_execute_command`: the command is sent, and there is
`stream` to read. -/
def executeAttempt {σ : Type} (retry : RetrySettings) (read : ReadM σ PyVal) (stream : σ)
    (again : Exc → ReadM σ PyVal) : ReadM σ PyVal := do
  set ({ stream := stream, connected := true, torn := false } : ReadConn σ)
  tryCatch read fun error => do
    if error.isinstanceAny retry.supported_errors then
      modify ReadConn.disconnect
      if retry.givesUp error then throw error else again error
    else throw error

/-- `Redis._execute_command`; `streams` is what there would be to read after each further sending
that the budget allows. -/
def executeCommand {σ : Type} (retry : RetrySettings) (read : ReadM σ PyVal) (stream : σ) :
    List σ → ReadM σ PyVal
  | [] => executeAttempt retry read stream throw
  | next :: streams => executeAttempt retry read stream fun _ => executeCommand retry read next streams

end RedisPy
