import RedisPy.Proofs.AsyncParsers
import RedisPy.Proofs.SyncParsers

/-! Reading a stream of replies over a connection that interrupts. However it is cut and
wherever it is interrupted, both kinds of parser return each reply once and in order, as long
as no line is longer than what the stream of asyncio takes. -/

namespace RedisPy

open TokenReader Raising

/-- A connection over which these bytes come, in pieces that are not empty, with interruptions
anywhere between them. -/
structure Carries (events : List RecvEvent) (bytes : Bytes) : Prop where
  isOpen : SocketBuffer.Open events
  delivered : SocketBuffer.pendingBytes events = bytes

/-- Every number of calls returns so many of the values, in order, and leaves the bytes of the
others unread; and a number that makes up for the interruptions returns all of them. -/
def Delivers {σ : Type} (m : EStateM Exc σ PyVal) (unread : σ → Bytes)
    (isStream : List (Token Bytes) → List PyVal → Prop) (s : σ) (ts : List (Token Bytes))
    (as : List PyVal) (interruptions : Nat) : Prop :=
  ∀ n, ∃ j used rest, ts = used ++ rest ∧ (callMany m n s).1 = as.take j ∧
    unread (callMany m n s).2 = wires rest ∧ isStream rest (as.drop j) ∧
    (as.length + interruptions ≤ n → j = as.length ∧ rest = [])

/-- What an asyncio parser has not made a reply of yet. -/
def AsyncRESPBase.unread (s : AsyncRESPBase) : Bytes := s._buffer ++ s._chunks.flatten ++ s._stream.unread

/-- The limit of a stream that `open_connection` makes. -/
def streamLimit : Nat := 2 ^ 16

/-- The tokens are those of replies, without push frames. -/
def IsReplies {φ : Type} (h : φ → Except Exc PyVal) (r : Nat → ReplyReader φ) (ts : List (Token Bytes))
    (as : List PyVal) : Prop := Stream h r ts (as.map fun a => (a, []))

theorem delivers_of_resumes {σ φ ω : Type} {m : EStateM Exc σ PyVal} {h : φ → Except Exc PyVal}
    {r : Nat → ReplyReader φ} {unread : σ → Bytes} (V : Resumes m h r ω)
    (hunread : ∀ {s ts os}, V.Idle s ts os → unread s = wires ts) {ts : List (Token Bytes)}
    {as : List PyVal} (hts : IsReplies h r ts as) (hfit : ∀ t ∈ ts, V.Fit t) {s : σ} {os : List Nat}
    (hs : V.Idle s ts os) : Delivers m unread (IsReplies h r) s ts as os.length := by
  intro n
  obtain ⟨j, used, rest, os', rfl, hvals, -, hrest, hidle, -, hend⟩ :=
    V.callMany_post (fun _ _ => True) hts hfit n hs
  rw [← List.map_take, List.map_map] at hvals
  rw [← List.map_drop] at hrest
  rw [List.length_map] at hend
  exact ⟨j, used, rest, rfl, hvals.trans (List.map_id' _), hunread hidle, hrest, hend⟩

/-- A parser that delivers without an interruption has read every token. -/
theorem fit_of_delivers {σ φ ω : Type} {m : EStateM Exc σ PyVal} {h : φ → Except Exc PyVal}
    {r : Nat → ReplyReader φ} {unread : σ → Bytes} {isStream : List (Token Bytes) → List PyVal → Prop}
    (V : Resumes m h r ω) {ts : List (Token Bytes)} {as : List PyVal} (hts : IsReplies h r ts as) {s : σ}
    {os : List Nat} (hs : V.Idle s ts os) (hd : Delivers m unread isStream s ts as 0) :
    ∀ t ∈ ts, V.Fit t := by
  obtain ⟨j, used, rest, -, hvals, -, -, hend⟩ := hd as.length
  apply V.fit_of_callMany hts hs
  rw [List.length_map, hvals, (hend (Nat.le_refl _)).1, List.take_length]

/-! ### The start of a connection -/

section
variable {events : List RecvEvent} {ts : List (Token Bytes)} (hformed : ∀ t ∈ ts, wellFormed t)
  (hc : Carries events (wires ts))

include hformed hc

theorem SocketBuffer.idle_start {size : Nat} (hsize : 1 ≤ size) :
    SocketBuffer.Idle ⟨events, size, {}⟩ ts (SocketBuffer.strikes events) where
  live := ⟨hsize, Nat.le_refl _, hc.isOpen⟩
  pos := rfl
  whole := hc.delivered
  strikes := rfl
  formed := hformed

theorem AsyncRESPBase.idle_start {φ : Type} {h : φ → Except Exc PyVal} {r : Nat → ReplyReader φ} :
    AsyncRESPBase.Idle streamLimit h r { _stream := { events := events } } ts
      (SocketBuffer.strikes events) := by
  refine ⟨[], ts, rfl, ⟨rfl, ⟨hc.isOpen, rfl⟩, rfl, hc.delivered, ?_, hformed, fun _ h => (nomatch h), rfl⟩,
    fun n a rest' xs hy => hy.suffix⟩
  rw [StreamReader.strikesAt, List.map_map]
  exact (List.map_id' _).symm

end

theorem AsyncRESPBase.Idle.unread {φ : Type} {limit : Nat} {h : φ → Except Exc PyVal}
    {r : Nat → ReplyReader φ} {s : AsyncRESPBase} {ts : List (Token Bytes)} {os : List Nat}
    (hs : AsyncRESPBase.Idle limit h r s ts os) : s.unread = wires ts := by
  obtain ⟨got, rest, rfl, hk, -⟩ := hs
  rw [AsyncRESPBase.unread, hk.held, hk.unread, wires_append]

/-- The bytes of any stream can come one by one. -/
theorem carries_singly (bytes : Bytes) : Carries (bytes.map fun b => .data [b]) bytes := by
  constructor
  · intro chunk hchunk
    obtain ⟨b, -, hb⟩ := List.mem_map.mp hchunk
    cases hb
    exact List.cons_ne_nil b []
  · induction bytes with
    | nil => rfl
    | cons b bs ih => exact congrArg (b :: ·) ih

theorem strikes_singly (bytes : Bytes) : SocketBuffer.strikes (bytes.map fun b => .data [b]) = [] := by
  induction bytes with
  | nil => rfl
  | cons b bs ih =>
    rw [List.map_cons, SocketBuffer.strikes, ih]
    rfl

/-! ### The streams of both protocols -/

/-- The replies of a RESP2 stream, in whichever way its parser is told to decode them. -/
abbrev RESP2Parser.IsStream (p : RESP2Parser) (disable_decoding : Bool) (ts : List (Token Bytes))
    (as : List PyVal) : Prop :=
  IsReplies Empty.elim (reply p.encoder disable_decoding closedByServer) ts as

/-- The replies of a RESP3 stream without push frames. -/
abbrev RESP3Parser.IsStream (p : RESP3Parser) (disable_decoding push_request : Bool)
    (ts : List (Token Bytes)) (as : List PyVal) : Prop :=
  IsReplies p.handled (fun n => reply p disable_decoding closedByServer n push_request) ts as

/-- The parsers of both clients deliver the stream, whatever the connection does. -/
def RESP2Parser.Resumable (p : RESP2Parser) (disable_decoding : Bool) (ts : List (Token Bytes))
    (as : List PyVal) : Prop :=
  ∀ events, Carries events (wires ts) → ∀ socket_read_size, 1 ≤ socket_read_size →
    Delivers (p.readResponse disable_decoding) SocketBuffer.unread (p.IsStream disable_decoding)
      ⟨events, socket_read_size, {}⟩ ts as (SocketBuffer.strikes events).length ∧
    Delivers (AsyncRESP2Parser.readResponse ⟨p.encoder⟩ disable_decoding) AsyncRESPBase.unread
      (p.IsStream disable_decoding) { _stream := { events := events } } ts as
      (SocketBuffer.strikes events).length

def RESP3Parser.Resumable (p : RESP3Parser) (disable_decoding push_request : Bool)
    (ts : List (Token Bytes)) (as : List PyVal) : Prop :=
  ∀ events, Carries events (wires ts) → ∀ socket_read_size, 1 ≤ socket_read_size →
    Delivers (p.readResponse disable_decoding push_request) (fun s => s.1.unread)
      (p.IsStream disable_decoding push_request) (⟨events, socket_read_size, {}⟩, []) ts as
      (SocketBuffer.strikes events).length ∧
    Delivers (AsyncRESP3Parser.readResponse p disable_decoding push_request) (fun s => s.1.unread)
      (p.IsStream disable_decoding push_request) ({ _stream := { events := events } }, []) ts as
      (SocketBuffer.strikes events).length

/-- Whatever an empty line raises, the streams are the same. -/
theorem RESP2Parser.isStream_iff (p : RESP2Parser) (disable_decoding : Bool) (ts : List (Token Bytes))
    (as : List PyVal) : p.IsStream disable_decoding ts as ↔
      IsReplies Empty.elim (AsyncRESP2Parser.replyReader ⟨p.encoder⟩ disable_decoding) ts as :=
  ⟨Stream.mono fun n k => within_reply n k k (Nat.le_refl k),
    Stream.mono fun n k => within_reply n k k (Nat.le_refl k)⟩

theorem RESP3Parser.isStream_iff (p : RESP3Parser) (disable_decoding push_request : Bool)
    (ts : List (Token Bytes)) (as : List PyVal) : p.IsStream disable_decoding push_request ts as ↔
      IsReplies p.handled (AsyncRESP3Parser.replyReader p disable_decoding push_request) ts as :=
  ⟨Stream.mono fun n k => within_reply n k k push_request (Nat.le_refl k),
    Stream.mono fun n k => within_reply n k k push_request (Nat.le_refl k)⟩

theorem RESP2Parser.resumable_iff (p : RESP2Parser) (disable_decoding : Bool) {ts : List (Token Bytes)}
    {as : List PyVal} (hformed : ∀ t ∈ ts, wellFormed t) (hts : p.IsStream disable_decoding ts as) :
    p.Resumable disable_decoding ts as ↔ ∀ t ∈ ts, AsyncRESPBase.Fits streamLimit t := by
  have hts' := (p.isStream_iff disable_decoding ts as).mp hts
  let V := AsyncRESP2Parser.resumes ⟨p.encoder⟩ disable_decoding streamLimit
  have hstart : ∀ {events}, Carries events (wires ts) →
      V.Idle { _stream := { events := events } } ts (SocketBuffer.strikes events) :=
    fun hc => AsyncRESPBase.idle_start hformed hc
  constructor
  · intro h
    have hc := carries_singly (wires ts)
    have hd := (h _ hc 1 (Nat.le_refl 1)).2
    rw [strikes_singly] at hd
    exact fit_of_delivers V hts' (hstart hc) hd
  · intro hfit events hc size hsize
    refine ⟨delivers_of_resumes (p.resumes disable_decoding) (fun h => SocketBuffer.At.unread h) hts
      (fun _ _ => trivial) (SocketBuffer.idle_start hformed hc hsize), ?_⟩
    have hd := delivers_of_resumes V (fun h => AsyncRESPBase.Idle.unread h) hts' hfit (hstart hc)
    rwa [show IsReplies Empty.elim (AsyncRESP2Parser.replyReader ⟨p.encoder⟩ disable_decoding) =
      p.IsStream disable_decoding from
      funext fun ts => funext fun as => propext (p.isStream_iff disable_decoding ts as).symm] at hd

theorem RESP3Parser.resumable_iff (p : RESP3Parser) (disable_decoding push_request : Bool)
    {ts : List (Token Bytes)} {as : List PyVal} (hformed : ∀ t ∈ ts, wellFormed t)
    (hts : p.IsStream disable_decoding push_request ts as) :
    p.Resumable disable_decoding push_request ts as ↔ ∀ t ∈ ts, AsyncRESPBase.Fits streamLimit t := by
  have hts' := (p.isStream_iff disable_decoding push_request ts as).mp hts
  let V := AsyncRESP3Parser.resumes p disable_decoding push_request streamLimit
  have hstart : ∀ {events}, Carries events (wires ts) →
      V.Idle ({ _stream := { events := events } }, []) ts (SocketBuffer.strikes events) :=
    fun hc => AsyncRESPBase.idle_start hformed hc
  constructor
  · intro h
    have hc := carries_singly (wires ts)
    have hd := (h _ hc 1 (Nat.le_refl 1)).2
    rw [strikes_singly] at hd
    exact fit_of_delivers V hts' (hstart hc) hd
  · intro hfit events hc size hsize
    refine ⟨delivers_of_resumes (p.resumes disable_decoding push_request)
      (fun h => SocketBuffer.At.unread h) hts (fun _ _ => trivial)
      (SocketBuffer.idle_start hformed hc hsize), ?_⟩
    have hd := delivers_of_resumes V (fun h => AsyncRESPBase.Idle.unread h) hts' hfit (hstart hc)
    rwa [show IsReplies p.handled (AsyncRESP3Parser.replyReader p disable_decoding push_request) =
      p.IsStream disable_decoding push_request from
      funext fun ts => funext fun as =>
        propext (p.isStream_iff disable_decoding push_request ts as).symm] at hd

/-- Both parsers of a protocol deliver any stream of replies through any interruptions exactly
if no line of it, with its carriage return, is longer than the limit of asyncio's streams. -/
theorem resumable_iff_fits {ts : List (Token Bytes)} (hformed : ∀ t ∈ ts, wellFormed t) :
    (∀ (p : RESP2Parser) (disable_decoding : Bool) (as : List PyVal), p.IsStream disable_decoding ts as →
      (p.Resumable disable_decoding ts as ↔ ∀ t ∈ ts, AsyncRESPBase.Fits streamLimit t)) ∧
    ∀ (p : RESP3Parser) (disable_decoding push_request : Bool) (as : List PyVal),
      p.IsStream disable_decoding push_request ts as →
      (p.Resumable disable_decoding push_request ts as ↔ ∀ t ∈ ts, AsyncRESPBase.Fits streamLimit t) :=
  ⟨fun p disable_decoding _ hts => p.resumable_iff disable_decoding hformed hts,
    fun p disable_decoding push_request _ hts => p.resumable_iff disable_decoding push_request hformed hts⟩

theorem isStream_simple (p : RESP2Parser) (text : Bytes) :
    p.IsStream true [.line (ascii '+' :: text)] [.bytes text] :=
  Stream.cons (n := 1) (.line .ret) .nil

/-- Both protocols' parsers deliver a short status reply. -/
theorem resumable_status :
    RESP2Parser.Resumable ⟨⟨false, fun _ => .ok ""⟩⟩ true [.line [43, 79, 75]] [.bytes [79, 75]] ∧
    RESP3Parser.Resumable ⟨⟨false, fun _ => .ok ""⟩, fun _ => .ok .none, .ok, none⟩ true false
      [.line [43, 79, 75]] [.bytes [79, 75]] := by
  have h := @resumable_iff_fits [.line [43, 79, 75]] (by decide)
  exact ⟨(h.1 _ true _ (isStream_simple _ _)).mpr (by decide),
    (h.2 _ true false [.bytes [79, 75]] (Stream.cons (n := 1) (.line .ret) .nil)).mpr (by decide)⟩

section
variable (p : RESP2Parser) {text : Bytes} (ht : LF ∉ text)

/-- The reply comes byte by byte. -/
def singly (text : Bytes) : List RecvEvent := (wires [.line (ascii '+' :: text)]).map fun b => .data [b]

include ht

theorem wellFormed_simple : ∀ t ∈ [Token.line (ascii '+' :: text)], wellFormed t := by
  intro t hmem
  rw [List.mem_singleton.mp hmem, wellFormed, List.mem_cons, not_or]
  exact ⟨by decide, ht⟩

theorem RESP2Parser.returns_simple :
    (callMany (p.readResponse true) 1 ⟨singly text, 4096, {}⟩).1 = [.bytes text] := by
  have hd := delivers_of_resumes (p.resumes true) (fun h => SocketBuffer.At.unread h) (isStream_simple p text)
    (fun _ _ => trivial) (SocketBuffer.idle_start (wellFormed_simple ht) (carries_singly _)
      (show 1 ≤ 4096 by decide))
  rw [strikes_singly] at hd
  obtain ⟨j, used, rest, -, hvals, -, -, hend⟩ := hd 1
  rw [show singly text = (wires [.line (ascii '+' :: text)]).map fun b => .data [b] from rfl, hvals,
    (hend (Nat.le_refl 1)).1]
  rfl

/-- A reply that does not fit is not returned. -/
theorem AsyncRESP2Parser.loses_simple (hlong : streamLimit < text.length + 2) :
    (callMany (AsyncRESP2Parser.readResponse ⟨p.encoder⟩ true) 1
      { _stream := { events := singly text } }).1 ≠ [.bytes text] := by
  intro h
  have hfit := (resumes ⟨p.encoder⟩ true streamLimit).fit_of_callMany
    ((p.isStream_iff true _ _).mp (isStream_simple p text))
    (AsyncRESPBase.idle_start (wellFormed_simple ht) (carries_singly _))
    (congrArg List.length h)
  have hle : (ascii '+' :: text).length + 1 ≤ streamLimit := hfit _ List.mem_cons_self
  rw [List.length_cons] at hle
  omega

end

/-- A status of seventy thousand bytes: the sync parser returns it, the asyncio parser raises
and loses it, and nothing has interrupted. -/
theorem not_resumable_long :
    (callMany (RESP2Parser.readResponse ⟨⟨false, fun _ => .ok ""⟩⟩ true) 1
      ⟨singly (List.replicate 70000 97), 4096, {}⟩).1 = [.bytes (List.replicate 70000 97)] ∧
    (callMany (AsyncRESP2Parser.readResponse ⟨⟨false, fun _ => .ok ""⟩⟩ true) 1
      { _stream := { events := singly (List.replicate 70000 97) } }).1 ≠
        [.bytes (List.replicate 70000 97)] := by
  have ht : LF ∉ List.replicate 70000 (97 : UInt8) := by
    intro h
    exact absurd (List.eq_of_mem_replicate h) (by decide)
  exact ⟨RESP2Parser.returns_simple _ ht, AsyncRESP2Parser.loses_simple ⟨⟨false, fun _ => .ok ""⟩⟩ ht
    (by rw [List.length_replicate]; decide)⟩

end RedisPy
