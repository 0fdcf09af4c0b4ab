import RedisPy.Spec.Python

/-! `SocketBuffer` (`redis/_parsers/socket.py`): an `io.BytesIO` that is filled
from a socket. The socket is the script of what its `recv` calls will meet. -/

namespace RedisPy

/-- `io.BytesIO`: the bytes and the position. -/
structure ByteBuffer where
  data : Bytes := []
  pos : Nat := 0
  deriving DecidableEq, Repr

namespace ByteBuffer

/-- The bytes up to and including the first line feed, or all of them. -/
def firstLine : Bytes → Bytes
  | [] => []
  | b :: bs => if b = LF then [b] else b :: firstLine bs

/-- `read(n)`: fewer bytes when the end comes first. -/
def read (b : ByteBuffer) (n : Nat) : Bytes × ByteBuffer :=
  let bs := (b.data.drop b.pos).take n
  (bs, { b with pos := b.pos + bs.length })

def readline (b : ByteBuffer) : Bytes × ByteBuffer :=
  let bs := firstLine (b.data.drop b.pos)
  (bs, { b with pos := b.pos + bs.length })

/-- `seek(0, SEEK_END)` -/
def seekEnd (b : ByteBuffer) : ByteBuffer := { b with pos := b.data.length }

def seek (b : ByteBuffer) (pos : Nat) : ByteBuffer := { b with pos := pos }

/-- `write(bs)`: over what stands at the position, past the end if need be. -/
def write (b : ByteBuffer) (bs : Bytes) : ByteBuffer :=
  { data := b.data.take b.pos ++ List.replicate (b.pos - b.data.length) 0 ++ bs ++
      b.data.drop (b.pos + bs.length)
    pos := b.pos + bs.length }

def truncate (b : ByteBuffer) (size : Nat) : ByteBuffer := { b with data := b.data.take size }

end ByteBuffer

/-- What a `recv` meets: bytes that the kernel holds (none of them when the peer
has closed), or an exception. -/
inductive RecvEvent where
  | data (bytes : Bytes)
  | raise (e : Exc)
  deriving DecidableEq, Repr

def SERVER_CLOSED_CONNECTION_ERROR : String := "Connection closed by server."

structure SocketBuffer where
  sock : List RecvEvent
  socket_read_size : Nat
  buffer : ByteBuffer := {}
  deriving DecidableEq, Repr

namespace SocketBuffer

/-- Reading raises with the buffer as it stands at that moment. -/
abbrev M := EStateM Exc SocketBuffer

def unreadBytes (s : SocketBuffer) : Nat := s.buffer.data.length - s.buffer.pos

/-- `sock.recv(n)`. A script that is used up is a socket on which nothing
arrives within its timeout. -/
def recv (n : Nat) : M Bytes := do
  let s ← get
  match s.sock with
  | [] => throw { cls := .SocketTimeout }
  | .raise e :: rest =>
    set { s with sock := rest }
    throw e
  | .data bytes :: rest =>
    set { s with sock := if bytes.length ≤ n then rest else .data (bytes.drop n) :: rest }
    return bytes.take n

/-- How many `recv` calls the script can answer at most. -/
def recvBound : List RecvEvent → Nat
  | [] => 1
  | .raise _ :: rest => recvBound rest + 1
  | .data bytes :: rest => recvBound rest + bytes.length + 1

/-- The `while True` of `_read_from_socket`; `fuel` bounds the rounds, and
`recvBound` of the script is always enough. -/
def recvLoop (length : Option Nat) : (fuel : Nat) → (marker : Nat) → M Bool
  | 0, _ => throw { cls := .SocketTimeout }
  | fuel + 1, marker => do
    let s ← get
    let data ← recv s.socket_read_size
    if data.length = 0 then
      throw { cls := .ConnectionError, msg := SERVER_CLOSED_CONNECTION_ERROR }
    modify fun s => { s with buffer := s.buffer.write data }
    let marker := marker + data.length
    match length with
    | some length => if length > marker then recvLoop (some length) fuel marker else return true
    | none => return true

/-- The `except` arms of `_read_from_socket`. -/
def onRecvError (raise_on_timeout : Bool) (ex : Exc) : M Bool :=
  if ex.isinstance .SocketTimeout then
    if raise_on_timeout then
      throw { cls := .TimeoutError, msg := "Timeout reading from socket" }
    else return false
  else if ex.isinstance .BlockingIOError then
    -- the errno of a `BlockingIOError` out of `recv` is the allowed one
    if raise_on_timeout then
      throw { cls := .ConnectionError, msg := "Error while reading from socket: " ++ ex.msg }
    else return false
  else throw ex

def readFromSocket (length : Option Nat := none) (raise_on_timeout : Bool := true) : M Bool := do
  let s ← get
  let current_pos := s.buffer.pos
  set { s with buffer := s.buffer.seekEnd }
  try
    tryCatch (recvLoop length (recvBound s.sock) 0) (onRecvError raise_on_timeout)
  finally
    modify fun s => { s with buffer := s.buffer.seek current_pos }

def canRead : M Bool := do
  let s ← get
  if s.unreadBytes ≠ 0 then return true
  readFromSocket none false

/-- `self._buffer.read(length)` -/
def bufferRead (n : Nat) : M Bytes :=
  modifyGet fun s => ((s.buffer.read n).1, { s with buffer := (s.buffer.read n).2 })

/-- `self._buffer.readline()` -/
def bufferReadline : M Bytes :=
  modifyGet fun s => (s.buffer.readline.1, { s with buffer := s.buffer.readline.2 })

/-- `read(length)`; a negative length makes Python's slices count from the end. -/
def read (length : Int) : M Bytes := do
  let length := length + 2
  if length < 0 then
    -- `BytesIO.read` of a negative number reads all there is
    let s ← get
    let data ← bufferRead s.unreadBytes
    let missing := length - data.length
    let _ ← readFromSocket (some missing.toNat)
    let s ← get
    let more ← bufferRead s.unreadBytes
    return (data ++ more).dropLast.dropLast
  let data ← bufferRead length.toNat
  let missing := length.toNat - data.length
  if missing ≠ 0 then
    let _ ← readFromSocket (some missing)
    let more ← bufferRead missing
    return (data ++ more).dropLast.dropLast
  return data.dropLast.dropLast

/-- `data.endswith(SYM_CRLF)` -/
def endsCRLF (data : Bytes) : Bool := CRLF.isSuffixOf data

/-- The `while` of `readline`, with `fuel` for its rounds. -/
def readlineLoop : (fuel : Nat) → Bytes → M Bytes
  | 0, _ => throw { cls := .TimeoutError, msg := "Timeout reading from socket" }
  | fuel + 1, data =>
    if endsCRLF data then return data.dropLast.dropLast
    else do
      let _ ← readFromSocket
      let more ← bufferReadline
      readlineLoop fuel (data ++ more)

def readline : M Bytes := do
  let data ← bufferReadline
  let s ← get
  readlineLoop (recvBound s.sock + 1) data

def getPos (s : SocketBuffer) : Nat := s.buffer.pos

def rewind (pos : Nat) : M Unit :=
  modify fun s => { s with buffer := s.buffer.seek pos }

/-- `purge()`: the early return is taken whenever anything is unread, which
leaves the move of unread data to the front without effect. -/
def purge : M Unit := do
  let s ← get
  let unread := s.unreadBytes
  if unread > 0 then return
  set { s with buffer := (s.buffer.truncate unread).seek 0 }

end SocketBuffer

end RedisPy
