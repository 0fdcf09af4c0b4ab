import RedisPy.Proofs.AsyncStream
import RedisPy.Proofs.ReplyReaders
import RedisPy.Proofs.RespRoundTrip

/-! The asyncio parsers on a stream whose waits may be interrupted. What has been read of a
reply that is not finished is kept in whole tokens, and parsed again by the next call. -/

namespace RedisPy

open TokenReader Raising StreamReader

namespace AsyncRESPBase

/-- A line must fit into the limit of the stream. -/
def Fits (limit : Nat) : Token Bytes → Prop
  | .line text => text.length + 1 ≤ limit
  | .blob _ _ => True

instance (limit : Nat) : DecidablePred (Fits limit) := fun t =>
  match t with
  | .line text => inferInstanceAs (Decidable (text.length + 1 ≤ limit))
  | .blob _ _ => isTrue trivial

/-- What is kept of a reply, `got`, and what the stream still holds; the interruptions to come
strike `os` bytes behind the start of the reply. -/
structure Keeps (limit : Nat) (s : AsyncRESPBase) (got rest : List (Token Bytes)) (os : List Nat) : Prop where
  held : s._buffer ++ s._chunks.flatten = wires got
  live : Live s._stream
  isLimit : s._stream._limit = limit
  unread : s._stream.unread = wires rest
  strikes : os = (strikesAt s._stream).map (· + span size got)
  formed : ∀ t ∈ got ++ rest, wellFormed t
  fit : ∀ t ∈ got, Fits limit t
  connected : s._connected = true

/-- The tokens `past` have been read, and `mid` is what the buffer still has. -/
structure At (limit : Nat) (B : Bytes) (s : AsyncRESPBase) (past mid rest : List (Token Bytes))
    (os : List Nat) : Prop where
  keeps : Keeps limit s (past ++ mid) rest os
  buffer : s._buffer = B
  fresh : mid ≠ [] → s._chunks = []
  pos : s._pos = span size past

variable {limit : Nat} {B : Bytes} {s : AsyncRESPBase} {past mid rest : List (Token Bytes)} {os : List Nat}

theorem sliceFrom_natCast (b : Bytes) (n : Nat) : sliceFrom b n = b.drop n := by
  rw [sliceFrom, pyIndex, if_neg (by omega), Int.toNat_natCast]
  by_cases h : n ≤ b.length
  · rw [min_eq_left h]
  · rw [min_eq_right (by omega), List.drop_length, List.drop_eq_nil_of_le (by omega)]

theorem slice_natCast {b : Bytes} {i j : Nat} (hij : i ≤ j) (hj : j ≤ b.length) :
    slice b i j = (b.drop i).take (j - i) := by
  rw [slice, pyIndex, pyIndex, if_neg (by omega), if_neg (by omega), Int.toNat_natCast, Int.toNat_natCast,
    min_eq_left hj, min_eq_left (Nat.le_trans hij hj), List.drop_take]

theorem beforeCRLF_append {text : Bytes} (ht : LF ∉ text) (rest : Bytes) :
    beforeCRLF (text ++ CRLF ++ rest) = some text.length := by
  induction text with
  | nil => rfl
  | cons b bs ih =>
    have hbs : LF ∉ bs := fun hm => ht (List.mem_cons_of_mem b hm)
    have hhead : (bs ++ CRLF ++ rest).head? ≠ some LF := by
      cases bs with
      | nil => simp [CRLF, CR, LF]
      | cons c cs =>
        intro hc
        exact hbs (by rw [Option.some.inj hc]; exact List.mem_cons_self)
    change (if b = CR ∧ (bs ++ CRLF ++ rest).head? = some LF then some 0
      else (beforeCRLF (bs ++ CRLF ++ rest)).map (· + 1)) = _
    rw [if_neg fun h => hhead h.2, ih hbs]
    rfl

/-- The tail of the buffer behind the position. -/
theorem At.tail (h : At limit B s past mid rest os) : sliceFrom s._buffer s._pos = wires mid := by
  have hheld := h.keeps.held
  rw [h.pos, sliceFrom_natCast, ← length_wires]
  cases mid with
  | nil =>
    rw [List.append_nil] at hheld
    have hlen := congrArg List.length hheld
    rw [List.length_append] at hlen
    exact List.drop_eq_nil_of_le (by omega)
  | cons t mid =>
    rw [h.fresh (List.cons_ne_nil t mid), List.flatten_nil, List.append_nil] at hheld
    rw [hheld, wires_append, List.drop_left]

/-- A token of the buffer is read. -/
theorem At.skip {t : Token Bytes} (h : At limit B s past (t :: mid) rest os) :
    At limit B { s with _pos := span size (past ++ [t]) } (past ++ [t]) mid rest os := by
  have hkeeps := h.keeps
  rw [← List.singleton_append, ← List.append_assoc] at hkeeps
  refine ⟨⟨hkeeps.held, hkeeps.live, hkeeps.isLimit, hkeeps.unread, hkeeps.strikes, hkeeps.formed,
    hkeeps.fit, hkeeps.connected⟩, h.buffer, fun _ => h.fresh (List.cons_ne_nil t mid), rfl⟩

/-- A token is taken from the stream, and kept among the chunks. -/
theorem At.take {t : Token Bytes} {stream : StreamReader} (h : At limit B s past [] (t :: rest) os)
    (hfit : Fits limit t) (ht : Took s._stream stream (size t) (wires rest)) :
    At limit B { s with _stream := stream, _chunks := s._chunks ++ [wire t]
                        _pos := span size (past ++ [t]) } (past ++ [t]) [] rest os := by
  have hkeeps := h.keeps
  rw [List.append_nil] at hkeeps
  refine ⟨⟨?_, ht.live, ht.limit.trans hkeeps.isLimit, ht.unread, ?_, ?_, ?_, hkeeps.connected⟩, h.buffer,
    fun hne => absurd rfl hne, rfl⟩
  · rw [List.append_nil, wires_append, ← hkeeps.held, wires_cons, wires_nil, List.append_nil,
      List.flatten_append, List.flatten_singleton, List.append_assoc]
  · rw [hkeeps.strikes, ht.strikes, List.map_map, List.append_nil, span_append, span_cons, span_nil]
    refine congrArg (fun f : Nat → Nat => (strikesAt stream).map f) (funext fun o => ?_)
    change o + size t + span size past = o + (span size past + (size t + 0))
    omega
  · rw [List.append_nil, List.append_assoc]
    exact hkeeps.formed
  · rw [List.append_nil]
    intro u hu
    rcases List.mem_append.mp hu with hu | hu
    · exact hkeeps.fit u hu
    · rwa [List.mem_singleton.mp hu]

/-- An interruption leaves what is kept as it was. -/
theorem At.broken {t : Token Bytes} {stream : StreamReader} (h : At limit B s past [] (t :: rest) os)
    (hb : StreamReader.Broken s._stream stream (size t)) :
    ∃ o os', os = o :: os' ∧ span size past ≤ o ∧ o < span size (past ++ [t]) ∧
      Keeps limit { s with _stream := stream } past (t :: rest) os' := by
  have hkeeps := h.keeps
  rw [List.append_nil] at hkeeps
  have hshort := hb.short
  refine ⟨stream._buffer.length + span size past, (strikesAt stream).map (· + span size past), ?_,
    Nat.le_add_left _ _, ?_, ?_⟩
  · rw [hkeeps.strikes, hb.strikes, List.map_cons]
  · rw [span_append, span_cons, span_nil]
    omega
  · exact ⟨hkeeps.held, hb.live, hb.limit.trans hkeeps.isLimit, hb.unread.trans hkeeps.unread, rfl,
      hkeeps.formed, hkeeps.fit, hkeeps.connected⟩

/-- What comes of a token that is asked for. -/
def Asked (limit : Nat) (B : Bytes) (past : List (Token Bytes)) (t : Token Bytes)
    (ts : List (Token Bytes)) (os : List Nat) (r : EStateM.Result Exc AsyncRESPBase Bytes) : Prop :=
  Post r
    (fun b s' => b = t.text ∧ Fits limit t ∧
      ∃ mid rest, ts = mid ++ rest ∧ At limit B s' (past ++ [t]) mid rest os)
    (fun _ s' => (∃ o os', os = o :: os' ∧ span size past ≤ o ∧ o < span size (past ++ [t]) ∧
      Keeps limit s' past (t :: ts) os') ∨ ¬ Fits limit t)

theorem At.ask_buffered {t : Token Bytes} (h : At limit B s past (t :: mid) rest os) :
    Asked limit B past t (mid ++ rest) os ((source.ask t).run s) := by
  have hformed : wellFormed t := h.keeps.formed t (by simp)
  have hfit : Fits limit t := h.keeps.fit t (by simp)
  have htail := h.tail
  have hskip := h.skip
  rw [wires_cons] at htail
  rw [span_append, span_cons, span_nil, Nat.add_zero] at hskip
  cases t with
  | line text =>
    have hrun : (source.ask (.line text)).run s =
        .ok text { s with _pos := (span size past + size (.line text) : Nat) } := by
      change readline.run s = _
      unfold readline
      simp only [EStateM.run_bind, EStateM.run_get, htail, wire, beforeCRLF_append hformed]
      simp [size, wire, CRLF, h.pos, Int.add_assoc]
    rw [hrun]
    exact ⟨rfl, hfit, mid, rest, rfl, hskip⟩
  | blob n payload =>
    obtain rfl : n = payload.length := hformed
    have hlen := congrArg List.length htail
    rw [h.pos, sliceFrom_natCast, List.length_drop, List.length_append] at hlen
    have hsize : size (.blob payload.length payload) = payload.length + 2 := size_eq _
    have hsum : (span size past : Int) + (payload.length + 2) =
        ((span size past + size (.blob payload.length payload) : Nat) : Int) := by
      rw [hsize]
      push_cast
      rfl
    have hslice : slice s._buffer s._pos (s._pos + (payload.length + 2) - 2) = payload := by
      rw [h.pos, sliceFrom_natCast] at htail
      have hwire : (wire (.blob payload.length payload)).length = payload.length + 2 := hsize
      rw [h.pos, show (span size past : Int) + (payload.length + 2) - 2 =
        ((span size past + payload.length : Nat) : Int) by omega, slice_natCast (by omega) (by omega),
        htail, wire, Nat.add_sub_cancel_left, List.append_assoc, List.take_left]
    have hrun : (source.ask (.blob payload.length payload)).run s =
        .ok payload { s with _pos := (span size past + size (.blob payload.length payload) : Nat) } := by
      change (read payload.length).run s = _
      have hge : (s._buffer.length : Int) ≥ s._pos + (payload.length + 2) := by
        have hwire : (wire (.blob payload.length payload)).length = payload.length + 2 := hsize
        rw [h.pos]
        omega
      unfold read
      simp only [EStateM.run_bind, EStateM.run_get, if_pos hge, hslice, EStateM.run_modify, EStateM.run_pure]
      rw [h.pos, hsum]
    rw [hrun]
    exact ⟨rfl, hfit, mid, rest, rfl, hskip⟩

/-- What a read of the stream does to the parser. -/
theorem onStream_post {α : Type} {m : StreamReader.M α} {Q : α → StreamReader → Prop}
    {E : Exc → StreamReader → Prop} (h : Post (m.run s._stream) Q E) :
    Post ((onStream m).run s) (fun a s' => ∃ stream, s' = { s with _stream := stream } ∧ Q a stream)
      (fun e s' => ∃ stream, s' = { s with _stream := stream } ∧ E e stream) := by
  unfold onStream EStateM.run
  unfold EStateM.run at h
  dsimp only
  cases hr : m s._stream <;> rw [hr] at h <;> exact ⟨_, rfl, h⟩

theorem At.ask_stream {t : Token Bytes} (h : At limit B s past [] (t :: rest) os) :
    Asked limit B past t rest os ((source.ask t).run s) := by
  have hformed : wellFormed t := h.keeps.formed t (by simp)
  have hunread : s._stream.unread = t.text ++ CRLF ++ wires rest := by
    rw [h.keeps.unread, wires_cons, wire_eq]
  have hsize : (t.text ++ CRLF).length = size t := by rw [size, wire_eq]
  have htail : sliceFrom s._buffer s._pos = [] := h.tail
  have hpos : s._pos + t.text.length + 2 = ((span size (past ++ [t]) : Nat) : Int) := by
    rw [h.pos, span_append, span_cons, span_nil, size_eq]
    push_cast
    omega
  cases t with
  | line text =>
    have hlimit := h.keeps.isLimit
    refine Post.get_bind ?_
    simp only [htail, beforeCRLF]
    refine Post.bind ((onStream_post (StreamReader.readline_post hformed (wires rest) s._stream
      h.keeps.live hunread)).mono (fun _ _ h => h) ?_) ?_
    · rintro _ _ ⟨stream, rfl, hbroken | hunfit⟩
      · exact .inl (h.broken (hsize ▸ hbroken))
      · exact .inr (hlimit ▸ hunfit)
    · rintro _ _ ⟨stream, rfl, rfl, hfit, htook⟩
      have hnext := h.take (hlimit ▸ hfit) (hsize ▸ htook)
      rw [← hpos] at hnext
      rw [if_pos (SocketBuffer.endsCRLF_append text), List.nil_append, SocketBuffer.dropLast_CRLF]
      exact ⟨rfl, hlimit ▸ hfit, [], rest, rfl, hnext⟩
  | blob n payload =>
    obtain rfl : n = payload.length := hformed
    have hshort : ¬ (s._buffer.length : Int) ≥ s._pos + (payload.length + 2) := by
      have hlen := congrArg List.length h.keeps.held
      rw [List.append_nil, List.length_append, length_wires] at hlen
      rw [h.pos]
      omega
    have hwant : (payload.length : Int) + 2 - ([] : Bytes).length = (payload ++ CRLF).length := by
      rw [List.length_append]
      rfl
    refine Post.get_bind ?_
    simp only [if_neg hshort, htail]
    refine Post.bind ((onStream_post (StreamReader.readexactly_post hwant (wires rest) s._stream
      h.keeps.live hunread)).mono (fun _ _ h => h) ?_) ?_
    · rintro _ _ ⟨stream, rfl, hbroken⟩
      exact .inl (h.broken (hsize ▸ hbroken))
    · rintro _ _ ⟨stream, rfl, rfl, htook⟩
      have hnext := h.take trivial (hsize ▸ htook)
      rw [← hpos, Int.add_assoc] at hnext
      refine ⟨?_, trivial, [], rest, rfl, hnext⟩
      rw [List.nil_append, SocketBuffer.dropLast_CRLF]
      rfl

/-- The parser's buffer and stream as a source: what is longer than the limit is not read. -/
def sound (limit : Nat) (B : Bytes) : source.Sound Empty.elim Empty where
  At s past ts os := ∃ mid rest, ts = mid ++ rest ∧ At limit B s past mid rest os
  Held s past ts os := Keeps limit s past ts os
  Fit := Fits limit
  size := size
  log _ := []
  noted := Empty.elim
  ask_post := by
    rintro s past t ts os ⟨mid, rest, hts, hs⟩
    have hasked : Asked limit B past t ts os ((source.ask t).run s) := by
      cases mid with
      | nil =>
        obtain rfl : t :: ts = rest := hts
        exact hs.ask_stream
      | cons u mid =>
        obtain ⟨rfl, rfl⟩ := List.cons.inj hts
        exact hs.ask_buffered
    apply hasked.mono
    · exact fun _ s' ⟨hb, hfit, hat⟩ => ⟨hb, hfit, hat, rfl⟩
    · rintro _ s' (⟨o, os', ho, hle, hlt, hheld⟩ | hunfit)
      · exact .inl ⟨o, os', ho, hle, hlt, hheld, rfl⟩
      · exact .inr hunfit
  push_post := fun {_ _ _ _ x} => x.elim
  line_end := by
    rintro s past os ⟨mid, rest, hts, hs⟩
    obtain ⟨rfl, rfl⟩ := List.append_eq_nil_iff.mp hts.symm
    have htail : sliceFrom s._buffer s._pos = [] := hs.tail
    have hkeeps := hs.keeps
    rw [List.append_nil] at hkeeps
    refine Post.get_bind ?_
    simp only [htail, beforeCRLF]
    refine Post.bind ((onStream_post (readline_end s._stream hkeeps.live hkeeps.unread)).mono
      (fun _ _ h => h) ?_) fun _ _ ⟨_, _, h⟩ => h.elim
    rintro _ _ ⟨stream, rfl, hlive, hlimit, hunread, hstrikes⟩
    refine ⟨⟨hkeeps.held, hlive, hlimit.trans hkeeps.isLimit, hunread, ?_, hkeeps.formed, hkeeps.fit,
      hkeeps.connected⟩, trivial⟩
    rw [hkeeps.strikes, hstrikes, List.map_tail]

/-! ### The calls -/

def restarted (s : AsyncRESPBase) : AsyncRESPBase :=
  { s with _buffer := s._buffer ++ s._chunks.flatten, _chunks := [], _pos := 0 }

def cleared (s : AsyncRESPBase) : AsyncRESPBase := { s with _buffer := [], _chunks := [] }

variable {φ : Type} {h : φ → Except Exc PyVal} {r : Nat → ReplyReader φ} {ts : List (Token Bytes)}

/-- Between two calls: what is kept belongs to the next reply. -/
def Idle (limit : Nat) (h : φ → Except Exc PyVal) (r : Nat → ReplyReader φ) (s : AsyncRESPBase)
    (ts : List (Token Bytes)) (os : List Nat) : Prop :=
  ∃ got rest, ts = got ++ rest ∧ Keeps limit s got rest os ∧
    ∀ n a rest' xs, Reader.Yields h (r n) ts a rest' xs → ∃ more, rest = more ++ rest'

theorem Keeps.restarted {got : List (Token Bytes)} (hk : Keeps limit s got rest os) :
    At limit (wires got) s.restarted [] got rest os :=
  ⟨⟨(List.append_nil _).trans hk.held, hk.live, hk.isLimit, hk.unread, hk.strikes, hk.formed, hk.fit,
    hk.connected⟩, hk.held, fun _ => rfl, rfl⟩

/-- When a reply is finished nothing of the stream is in the buffer any more. -/
theorem At.cleared {got more used : List (Token Bytes)} (hs : At limit (wires got) s used mid rest os)
    (hused : used = got ++ more) :
    mid = [] ∧ ∃ os', os = os'.map (· + span size used) ∧ Keeps limit s.cleared [] rest os' := by
  have hmid : mid = [] := by
    by_contra hne
    have hheld := hs.keeps.held
    rw [hs.fresh hne, List.flatten_nil, List.append_nil, hs.buffer] at hheld
    have hlen := congrArg List.length hheld
    rw [length_wires, length_wires, hused, span_append, span_append] at hlen
    exact hne (eq_nil_of_span (by omega))
  subst hmid
  have hkeeps := hs.keeps
  rw [List.append_nil] at hkeeps
  refine ⟨rfl, strikesAt s._stream, hkeeps.strikes, rfl, hkeeps.live, hkeeps.isLimit, hkeeps.unread, ?_, ?_,
    fun _ hu => (nomatch hu), hkeeps.connected⟩
  · rw [span_nil]
    exact (List.map_id' _).symm
  · exact fun t ht => hkeeps.formed t (List.mem_append_right _ ht)

theorem Idle.finished {got rest₀ more used : List (Token Bytes)}
    (hts : ts = got ++ rest₀) (hmore : rest₀ = more ++ rest) (hused : ts = used ++ rest)
    (hat : (sound limit (wires got)).At s used rest os) :
    ∃ os', os = os'.map (· + span size used) ∧ Idle limit h r s.cleared rest os' := by
  obtain ⟨mid, rest', rfl, hat⟩ := hat
  have heq : used = got ++ more := by
    rw [hts, hmore, ← List.append_assoc] at hused
    exact (List.append_cancel_right hused).symm
  obtain ⟨rfl, os', hos, hkeeps⟩ := hat.cleared heq
  refine ⟨os', hos, [], rest', rfl, hkeeps, fun n a rest'' xs hy => ?_⟩
  exact hy.suffix

/-- A reply that was interrupted has been read as far as its tokens go. -/
theorem Keeps.idle {t : Token Bytes} {used more : List (Token Bytes)} {k : Nat} {a : PyVal} {xs : List φ}
    (hk : Keeps limit s used (t :: (more ++ rest)) os)
    (hy : Reader.Yields h (r k) (used ++ t :: (more ++ rest)) a rest xs)
    (hdepth : ∀ n k', Reader.Within h k' (r n) (r k')) :
    Idle limit h r s (used ++ t :: (more ++ rest)) os := by
  refine ⟨used, _, rfl, hk, fun n a' rest' xs' hy' => ⟨t :: more, ?_⟩⟩
  have h₁ := hdepth k _ _ _ _ _ (Nat.le_refl _) hy
  have h₂ := hdepth n _ _ _ _ _ (Nat.le_refl _) hy'
  rw [(h₁.unique h₂).2.1]
  rfl

theorem Idle.length_le (hs : Idle limit h r s ts os) : ts.length ≤ s.available + 1 := by
  obtain ⟨got, rest, rfl, hk, -⟩ := hs
  have hheld := congrArg List.length hk.held
  have hunread := congrArg List.length hk.unread
  have hpending := length_pendingBytes_le s._stream.events
  rw [StreamReader.unread] at hunread
  rw [List.length_append, length_wires] at hheld hunread
  have hgot := length_le_span got
  have hrest := length_le_span rest
  rw [List.length_append, available]
  omega

end AsyncRESPBase

open AsyncRESPBase

namespace AsyncRESP2Parser

variable (p : AsyncRESP2Parser) (disable_decoding : Bool) (limit : Nat)

/-- The reader of `_read_response`. -/
abbrev replyReader (n : Nat) : ReplyReader Empty :=
  RESP2Parser.reply p.encoder disable_decoding protocolError n

theorem run_readResponse {s : AsyncRESPBase} (hs : s._connected = true) :
    (p.readResponse disable_decoding).run s =
      settle cleared id ((AsyncRESPBase.source.exec (p.replyReader disable_decoding (s.available + 1))).run s.restarted) := by
  unfold readResponse
  simp only [EStateM.run_bind, EStateM.run_get, hs, if_true]
  have hrestart : AsyncRESPBase.restart.run s = .ok ⟨⟩ s.restarted := rfl
  have hread : p._readResponse disable_decoding (s.available + 1) =
      AsyncRESPBase.source.exec (p.replyReader disable_decoding (s.available + 1)) := rfl
  rw [hrestart, hread]
  dsimp only
  cases (AsyncRESPBase.source.exec (p.replyReader disable_decoding (s.available + 1))).run s.restarted <;> rfl

/-- A call of `read_response` reads the next reply, or keeps what it has read of it. -/
def resumes : Resumes (p.readResponse disable_decoding) Empty.elim (p.replyReader disable_decoding) Empty where
  Idle := AsyncRESPBase.Idle limit Empty.elim (p.replyReader disable_decoding)
  Fit := Fits limit
  size := size
  log _ := []
  noted := Empty.elim
  call_post := by
    intro s ts os n a rest xs hs hr
    have hr' : Reader.Yields Empty.elim (p.replyReader disable_decoding (s.available + 1)) ts a rest xs :=
      RESP2Parser.within_reply n (s.available + 1) _ hs.length_le _ _ _ _ (Nat.le_refl _) hr
    obtain ⟨got, rest₀, hts, hk, hnext⟩ := hs
    obtain ⟨more, hmore⟩ := hnext _ _ _ _ hr
    refine ⟨_, hr', (sound limit (wires got)).callPost (p.run_readResponse disable_decoding hk.connected) rfl
      (fun _ => rfl) (fun _ => rfl) hr' ⟨got, rest₀, hts, hk.restarted⟩
      (fun s' used hused hat => AsyncRESPBase.Idle.finished hts hmore hused hat) ?_⟩
    rintro s' used t more os' rfl hheld
    exact Keeps.idle hheld hr' fun n k => RESP2Parser.within_reply n k k (Nat.le_refl k)
  call_end := by
    rintro s os ⟨got, rest₀, hts, hk, hnext⟩
    obtain ⟨rfl, rfl⟩ := List.append_eq_nil_iff.mp hts.symm
    refine (sound limit (wires [])).callEnd (p.run_readResponse disable_decoding hk.connected) ⟨_, rfl⟩ rfl
      (fun _ => rfl) ⟨[], [], rfl, hk.restarted⟩ fun s' hheld => ?_
    exact ⟨[], [], rfl, hheld, fun n a rest' xs hy => hy.suffix⟩

end AsyncRESP2Parser

namespace AsyncRESP3Parser

variable (p : RESP3Parser) (disable_decoding push_request : Bool) (limit : Nat)

/-- The reader of `_read_response`. -/
abbrev replyReader (n : Nat) : ReplyReader (List PyVal) :=
  RESP3Parser.reply p disable_decoding protocolError n push_request

theorem run_handlePushResponse {response : List PyVal} {g : PyVal} (s : AsyncRESPBase)
    (w : List (PushHandler × PyVal)) (h : p.handled response = .ok g) :
    (handlePushResponse p response).run (s, w) = .ok g (s, w ++ p.noted response) := by
  cases response with
  | nil => exact nomatch h
  | cons kind rest =>
    unfold RESP3Parser.handled at h
    unfold handlePushResponse RESP3Parser.noted
    dsimp only at h ⊢
    by_cases hk : RESP3Parser.isInvalidation kind
    · simp only [hk, Bool.not_true, Bool.false_eq_true, if_false] at h ⊢
      cases hf : p.invalidation_push_handler_func with
      | none =>
        simp only [hf] at h ⊢
        obtain rfl := Except.ok.inj h
        simp
      | some f =>
        simp only [hf] at h ⊢
        simp [h, raising]
    · simp only [hk, Bool.not_false, if_true] at h ⊢
      simp [h, raising]

theorem run_readResponse (s : AsyncRESPBase) (w : List (PushHandler × PyVal)) :
    (readResponse p disable_decoding push_request).run (s, w) =
      settle (fun s' => (s'.1.cleared, s'.2)) id
        (((source p).exec (replyReader p disable_decoding push_request (s.available + 1))).run
          (s.restarted, w)) := by
  unfold readResponse
  simp only [EStateM.run_bind, EStateM.run_get]
  have hrestart : (first AsyncRESPBase.restart).run (s, w) = .ok ⟨⟩ (s.restarted, w) := rfl
  have hread : _readResponse p disable_decoding (s.available + 1) push_request =
      (source p).exec (replyReader p disable_decoding push_request (s.available + 1)) := rfl
  rw [hrestart, hread]
  dsimp only
  cases ((source p).exec (replyReader p disable_decoding push_request (s.available + 1))).run
    (s.restarted, w) <;> rfl

def sound (B : Bytes) : (source p).Sound p.handled (PushHandler × PyVal) :=
  (AsyncRESPBase.sound limit B).logged p.noted fun s w => run_handlePushResponse p s w

def resumes : Resumes (readResponse p disable_decoding push_request) p.handled
    (replyReader p disable_decoding push_request) (PushHandler × PyVal) where
  Idle s := AsyncRESPBase.Idle limit p.handled (replyReader p disable_decoding push_request) s.1
  Fit := Fits limit
  size := size
  log := Prod.snd
  noted := p.noted
  call_post := by
    rintro ⟨s, w⟩ ts os n a rest xs hs hr
    have hr' : Reader.Yields p.handled (replyReader p disable_decoding push_request (s.available + 1))
        ts a rest xs :=
      RESP3Parser.within_reply n (s.available + 1) _ push_request hs.length_le _ _ _ _ (Nat.le_refl _) hr
    obtain ⟨got, rest₀, hts, hk, hnext⟩ := hs
    obtain ⟨more, hmore⟩ := hnext _ _ _ _ hr
    refine ⟨_, hr', (sound p limit (wires got)).callPost
      (run_readResponse p disable_decoding push_request s w) rfl (fun _ => rfl) (fun _ => rfl) hr'
      ⟨got, rest₀, hts, hk.restarted⟩ (fun s' used hused hat => AsyncRESPBase.Idle.finished hts hmore hused hat) ?_⟩
    rintro s' used t more os' rfl hheld
    exact Keeps.idle hheld hr' fun n k => RESP3Parser.within_reply n k k push_request (Nat.le_refl k)
  call_end := by
    rintro ⟨s, w⟩ os ⟨got, rest₀, hts, hk, hnext⟩
    obtain ⟨rfl, rfl⟩ := List.append_eq_nil_iff.mp hts.symm
    refine (sound p limit (wires [])).callEnd (run_readResponse p disable_decoding push_request s w) ⟨_, rfl⟩
      rfl (fun _ => rfl) ⟨[], [], rfl, hk.restarted⟩ fun s' hheld => ?_
    exact ⟨[], [], rfl, hheld, fun n a rest' xs hy => hy.suffix⟩

end AsyncRESP3Parser

end RedisPy
