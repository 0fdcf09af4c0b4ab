import RedisPy.Library.Raising
import RedisPy.Spec.Python

/-! A connection of `redis/connection.py` or `redis/asyncio/connection.py` from `connect` to
`disconnect`, with what the server keeps for it and the replies that are still to be read. Left out
are health checks (`health_check_interval` is 0, its default), connect callbacks and
`redis_connect_func`; what the connection sends can be encoded, and closing a socket does not
fail. -/

namespace RedisPy

namespace Handshake

open Raising

inductive Request where
  /-- `auth` is empty without AUTH. -/
  | HELLO (protocol : Nat) (auth : List String)
  | AUTH (args : List String)
  | SETNAME (name : String)
  | SETINFO (attr value : String)
  | SELECT (db : Int)
  | MULTI
  | EXEC
  /-- A command of the user's. -/
  | command (n : Nat)
  deriving DecidableEq

/-- The connection sends it on its own. -/
def Request.ofConnect : Request → Bool
  | .MULTI | .EXEC | .command _ => false
  | _ => true

/-- What the server keeps for a connection. -/
structure Session where
  protocol : Nat := 2
  auth : Option (List String) := none
  name : Option String := none
  db : Int := 0
  deriving DecidableEq

/-- `str_if_bytes(v) == "OK"` -/
def isOK : PyVal → Bool
  | .bytes b => b == "OK".toList.map fun c => c.toNat.toUInt8
  | .str s => s == "OK"
  | _ => false

/-- The server does what it is asked, unless its reply says otherwise. -/
def Session.serve (σ : Session) (r : Request) (v : PyVal) : Session :=
  match r with
  | .HELLO protocol auth =>
    { σ with protocol := protocol, auth := if auth = [] then σ.auth else some auth }
  | .AUTH args => if isOK v then { σ with auth := some args } else σ
  | .SETNAME name => if isOK v then { σ with name := some name } else σ
  | .SELECT db => if isOK v then { σ with db := db } else σ
  | _ => σ

/-- What is raised when a socket fails, or while it is used. -/
abbrev Loss := { e : Exc // e.isinstance .ResponseError = false }

/-- What comes of reading a reply. -/
inductive Answer where
  | value (v : PyVal)
  | error (e : Exc) (h : e.isinstance .ResponseError = true)
  /-- It cannot be read. -/
  | lost (e : Loss)

/-- What the network and the server do, moment by moment. -/
structure Network where
  /-- What the attempts at `_connect` raise in the end. -/
  opens : Nat → Option Exc := fun _ => none
  sends : Nat → Option Loss := fun _ => none
  answers : Nat → Request → Answer
  /-- Whether the parser has something to read, or polling the socket raises an `OSError`. -/
  polls : Nat → Option Bool := fun _ => some false

structure Settings where
  /-- What `get_credentials` returns or raises, if there are any credentials. -/
  credentials : Option (Except Exc (List String)) := none
  protocol : Nat := 2
  client_name : Option String := none
  lib_name : Option String := none
  lib_version : Option String := none
  db : Int := 0
  /-- The connection is one of `redis/asyncio/connection.py`. -/
  asyncio : Bool := false

/-- `auth_args` -/
def Settings.auth (c : Settings) : Except Exc (List String) := c.credentials.getD (.ok [])

/-- `if name:` -/
def given (name : Option String) : Option String := name.filter (· ≠ "")

structure Wire where
  /-- `_sock` -/
  connected : Bool := false
  session : Session := {}
  /-- The requests whose replies have not been read. -/
  owed : List Request := []
  now : Nat := 0
  /-- For which request a reply has been read, and to which one it was. -/
  reads : List (Request × Request) := []
  /-- What has been sent, and what the server kept for the connection by then. -/
  sent : List (Request × Session) := []

abbrev M (β : Type) := EStateM Exc Wire β

/-- The outcome of what needs no connection. -/
def raises {β : Type} : Except Exc β → M β
  | .ok b => return b
  | .error e => throw e

/-- `disconnect`, and the server forgets the connection. -/
def disconnect : M Unit := modify fun s => { s with connected := false, session := {}, owed := [] }

def tick : M Nat := modifyGet fun s => (s.now, { s with now := s.now + 1 })

section
variable (net : Network) (c : Settings)

/-- `sendall`, on a socket that is there. -/
def transmit (rs : List Request) : M Unit := do
  match net.sends (← tick) with
  | some e =>
    disconnect
    throw e.1
  | none => modify fun s => { s with owed := s.owed ++ rs, sent := s.sent ++ rs.map (·, s.session) }

/-- `read_response`, for a request. -/
def readResponse (r : Request) : M PyVal := do
  let moment ← tick
  match (← get).owed with
  | [] =>
    disconnect
    throw { cls := .TimeoutError, msg := "Timeout reading from socket" }
  | due :: owed =>
    match net.answers moment due with
    | .value v =>
      modify fun s => { s with owed := owed, reads := s.reads ++ [(r, due)], session := s.session.serve due v }
      return v
    | .error e _ =>
      modify fun s => { s with owed := owed, reads := s.reads ++ [(r, due)] }
      throw e
    | .lost e =>
      disconnect
      throw e.1

/-- A command of the handshake and its reply. -/
def exchange (r : Request) : M PyVal := do
  transmit net [r]
  readResponse net r

/-- `exchange`, whose reply is to be `"OK"`. -/
def exchangeOK (r : Request) (e : Exc) : M Unit := do
  let v ← exchange net r
  if isOK v then return () else throw e

/-- `handshake_metadata.get(b"proto")` and `.get("proto")` are to be the protocol. -/
def checkProtocol (protocol : Nat) : PyVal → Except Exc Unit
  | .dict items =>
    let isProtocol (k : PyVal) : Bool :=
      (items.find? fun p => PyVal.keyEq p.1 k).any fun p => PyVal.keyEq p.2 (.int protocol)
    if isProtocol (.bytes ("proto".toList.map fun c => c.toNat.toUInt8)) || isProtocol (.str "proto") then .ok ()
    else .error { cls := .ConnectionError, msg := "Invalid RESP version" }
  | _ => .error { cls := .AttributeError, msg := "object has no attribute 'get'" }

/-- HELLO with the credentials; the protocol of the reply is checked in `redis/asyncio` only. -/
def helloAuth (auth : List String) : M Unit := do
  let auth := if auth.length = 1 then "default" :: auth else auth
  let handshake_metadata ← exchange net (.HELLO c.protocol auth)
  if c.asyncio then raises (checkProtocol c.protocol handshake_metadata)

/-- AUTH; a server that takes a password alone is given it. -/
def sendAuth (auth : List String) : M Unit := do
  transmit net [.AUTH auth]
  let auth_response ← tryCatch (readResponse net (.AUTH auth)) fun e =>
    if e.isinstance .AuthenticationWrongNumberOfArgsError then
      exchange net (.AUTH (auth.getLast?.toList))
    else throw e
  if isOK auth_response then return ()
  else throw { cls := .AuthenticationError, msg := "Invalid Username or Password" }

/-- HELLO alone; the protocol of the reply is not checked in `redis/asyncio`. -/
def hello : M Unit := do
  let handshake_metadata ← exchange net (.HELLO c.protocol [])
  if !c.asyncio then raises (checkProtocol c.protocol handshake_metadata)

def authenticate (auth : List String) : M Unit :=
  if auth ≠ [] ∧ c.protocol ≠ 2 then helloAuth net c auth
  else if auth ≠ [] then sendAuth net auth
  else if c.protocol ≠ 2 then hello net c
  else return ()

def setName : M Unit :=
  match given c.client_name with
  | some name =>
    exchangeOK net (.SETNAME name) { cls := .ConnectionError, msg := "Error setting client name" }
  | none => return ()

/-- `CLIENT SETINFO`, which a server need not know. -/
def setInfo (attr : String) (value : Option String) : M Unit :=
  match given value with
  | some value =>
    tryCatch (discard (exchange net (.SETINFO attr value))) fun e =>
      if e.isinstance .ResponseError then return () else throw e
  | none => return ()

def select : M Unit :=
  if c.db ≠ 0 then exchangeOK net (.SELECT c.db) { cls := .ConnectionError, msg := "Invalid Database" }
  else return ()

/-- "set the library name and version", then select the database, one after the other -/
def setUp : M Unit := do
  setInfo net "LIB-NAME" c.lib_name
  setInfo net "LIB-VER" c.lib_version
  select net c

/-- What `setUp` asks the server for, and what it asks for last. -/
def infos : List Request :=
  [("LIB-NAME", c.lib_name), ("LIB-VER", c.lib_version)].filterMap fun p =>
    (given p.2).map (.SETINFO p.1)

def selects : List Request := if c.db ≠ 0 then [.SELECT c.db] else []

def sendEach : List Request → M Unit
  | [] => return ()
  | r :: rs => do
    transmit net [r]
    sendEach rs

def readInfos : List Request → M Unit
  | [] => return ()
  | r :: rs => do
    tryCatch (discard (readResponse net r)) fun e =>
      if e.isinstance .ResponseError then return () else throw e
    readInfos rs

def readSelects : List Request → M Unit
  | [] => return ()
  | r :: rs => do
    let v ← readResponse net r
    if isOK v then readSelects rs
    else throw { cls := .ConnectionError, msg := "Invalid Database" }

/-- "set the library name and version, pipeline for lower startup latency" -/
def setUpPipelined : M Unit := do
  sendEach net (infos c ++ selects c)
  readInfos net (infos c)
  readSelects net (selects c)

def onConnect : M Unit := do
  authenticate net c (← raises c.auth)
  setName net c
  if c.asyncio then setUpPipelined net c else setUp net c

/-- `self._sock = sock` -/
def openSocket : M Unit := do
  match net.opens (← tick) with
  | some e => throw e
  | none => modify fun s => { s with connected := true, session := {}, owed := [] }

def connect : M Unit := do
  if (← get).connected then return ()
  else
    openSocket net
    tryCatch (onConnect net c) fun e => do
      if e.isinstance .RedisError then disconnect
      throw e

def sendPackedCommand (rs : List Request) : M Unit := do
  connect net c
  transmit net rs

def canRead : M Bool := do
  connect net c
  match net.polls (← tick) with
  | some b => return b
  | none =>
    disconnect
    throw { cls := .ConnectionError, msg := "Error while reading" }

end

/-- What the server keeps for a connection that has been greeted this far. -/
structure Greets (c : Settings) (name : Option String) (db : Int) (σ : Session) : Prop where
  protocol : σ.protocol = c.protocol
  auth : ∃ args, c.auth = .ok args ∧ if args = [] then σ.auth = none
    else ∃ sent, σ.auth = some sent ∧ sent.getLast? = args.getLast?
  name : σ.name = name
  db : σ.db = db

/-- The session is as the settings of the connection ask. -/
def Greeted (c : Settings) : Session → Prop := Greets c (given c.client_name) c.db

/-- Every server answers HELLO with a map. -/
def Network.Maps (net : Network) : Prop :=
  ∀ moment protocol auth v, net.answers moment (.HELLO protocol auth) = .value v → ∃ items, v = .dict items

/-- If `get_credentials` raises, it raises one of the library's own errors. -/
def Settings.Sound (c : Settings) : Prop := ∀ e, c.auth = .error e → e.isinstance .RedisError = true

end Handshake

end RedisPy
