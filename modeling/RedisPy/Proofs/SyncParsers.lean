import RedisPy.Proofs.ReplyReaders
import RedisPy.Proofs.RespRoundTrip

/-! The sync parsers on a socket that may raise. Where a `recv` raises, the buffer keeps what
has come, and is rewound to where the reply starts. -/

namespace RedisPy

open TokenReader Raising

namespace SocketBuffer

/-- The tokens `past` have been read from `start` on, and `ts` are to come; the interruptions
to come strike `os` bytes behind `start`. -/
structure At (start : Nat) (s : SocketBuffer) (past ts : List (Token Bytes)) (os : List Nat) : Prop where
  live : Live s
  pos : s.buffer.pos = start + span size past
  whole : s.buffer.data.drop start ++ pendingBytes s.sock = wires (past ++ ts)
  strikes : strikesAt s = os.map (· + start)
  formed : ∀ t ∈ past ++ ts, wellFormed t

/-- The same of a buffer whose position does not matter, since it will be rewound. -/
structure Held (start : Nat) (s : SocketBuffer) (past ts : List (Token Bytes)) (os : List Nat) : Prop where
  readSize : 1 ≤ s.socket_read_size
  start_le : start ≤ s.buffer.data.length
  isOpen : Open s.sock
  whole : s.buffer.data.drop start ++ pendingBytes s.sock = wires (past ++ ts)
  strikes : strikesAt s = os.map (· + start)
  formed : ∀ t ∈ past ++ ts, wellFormed t

variable {start : Nat} {s s' : SocketBuffer} {past ts : List (Token Bytes)} {os : List Nat}

theorem At.start_le (h : At start s past ts os) : start ≤ s.buffer.data.length :=
  Nat.le_trans (by rw [h.pos]; exact Nat.le_add_right _ _) h.live.pos

theorem At.unread (h : At start s past ts os) : s.unread = wires ts := by
  have hle : span size past ≤ (s.buffer.data.drop start).length := by
    have := h.live.pos
    rw [h.pos] at this
    rw [List.length_drop]
    omega
  have hdrop := congrArg (List.drop (span size past)) h.whole
  rw [List.drop_append_of_le_length hle, List.drop_drop, ← h.pos, wires_append, ← length_wires,
    List.drop_left] at hdrop
  exact hdrop

/-- What came from the socket stands behind what was buffered. -/
theorem Kept.whole (h : Kept s s') (hstart : start ≤ s.buffer.data.length) :
    s'.buffer.data.drop start ++ pendingBytes s'.sock = s.buffer.data.drop start ++ pendingBytes s.sock := by
  obtain ⟨more, hdata, hpend, -⟩ := h.bytes
  rw [hdata, List.drop_append_of_le_length hstart, List.append_assoc, hpend]

theorem Kept.le (h : Kept s s') : s.buffer.data.length ≤ s'.buffer.data.length := by
  obtain ⟨more, hdata, -⟩ := h.bytes
  rw [hdata, List.length_append]
  exact Nat.le_add_right _ _

theorem At.read {t : Token Bytes} (h : At start s past (t :: ts) os) (hr : Read s s' (wires ts)) :
    At start s' (past ++ [t]) ts os where
  live := h.live.of_kept hr.kept hr.pos
  pos := by
    have hwhole := congrArg List.length ((hr.kept.whole h.start_le).trans h.whole)
    have hunread := congrArg List.length hr.unread
    have hstart := h.start_le
    have hpos := h.pos
    have hpos' := hr.pos
    have hle := hr.kept.le
    rw [SocketBuffer.unread] at hunread
    simp only [List.length_append, List.length_drop, length_wires, span_append, span_cons] at hwhole hunread
    rw [span_append, span_cons, span_nil]
    omega
  whole := by rw [hr.kept.whole h.start_le, h.whole, List.append_assoc]; rfl
  strikes := hr.calm.trans h.strikes
  formed := by
    rw [List.append_assoc]
    exact h.formed

theorem At.broken {t : Token Bytes} (h : At start s past (t :: ts) os) (hb : Broken s s' (size t)) :
    ∃ o os', os = o :: os' ∧ span size past ≤ o ∧ o < span size (past ++ [t]) ∧
      Held start s' past (t :: ts) os' := by
  have hstrikes := h.strikes.symm.trans hb.struck
  cases os with
  | nil => exact nomatch hstrikes
  | cons o os' =>
    obtain ⟨ho, hos⟩ := List.cons.inj hstrikes
    replace ho : o + start = s'.buffer.data.length := ho
    have hpos := h.live.pos
    have hshort := hb.short
    have hle := hb.kept.le
    rw [h.pos] at hpos hshort
    refine ⟨o, os', rfl, by omega, ?_, hb.kept.readSize ▸ h.live.readSize, Nat.le_trans h.start_le hle,
      hb.kept.isOpen, (hb.kept.whole h.start_le).trans h.whole, hos.symm, h.formed⟩
    rw [span_append, span_cons, span_nil]
    omega

/-- A token is read as the source is asked for it. -/
theorem ask_taken {t : Token Bytes} (ht : wellFormed t) (hs : Live s) {rest : Bytes}
    (hu : s.unread = wire t ++ rest) : Taken s (size t) t.text rest ((source.ask t).run s) := by
  cases t with
  | line text => exact readline_post ht rest s hs hu
  | blob n payload =>
    obtain rfl : n = payload.length := ht
    exact read_post payload rest s hs hu

/-! ### Where nothing is left -/

theorem recv_end (s : SocketBuffer) (n : Nat) (ho : Open s.sock) (hp : pendingBytes s.sock = []) :
    Post ((recv n).run s) (fun _ _ => False) (fun _ s' => s' = { s with sock := s.sock.tail } ∧
      Open s.sock.tail ∧ pendingBytes s.sock.tail = [] ∧
      SocketBuffer.strikes s.sock.tail = (SocketBuffer.strikes s.sock).tail) := by
  obtain ⟨sock, size, buffer⟩ := s
  cases sock with
  | nil => exact ⟨rfl, ho, rfl, rfl⟩
  | cons e rest =>
    cases e with
    | raise e => exact ⟨rfl, ho.tail, hp, rfl⟩
    | data bytes => exact absurd (List.append_eq_nil_iff.mp hp).1 (ho bytes List.mem_cons_self)

theorem readFromSocket_end (s : SocketBuffer) (ho : Open s.sock) (hp : pendingBytes s.sock = []) :
    Post (readFromSocket.run s) (fun _ _ => False) (fun _ s' => s' = { s with sock := s.sock.tail } ∧
      Open s.sock.tail ∧ pendingBytes s.sock.tail = [] ∧
      SocketBuffer.strikes s.sock.tail = (SocketBuffer.strikes s.sock).tail) := by
  have hbound : ∃ n, recvBound s.sock = n + 1 := by
    cases s.sock with
    | nil => exact ⟨0, rfl⟩
    | cons e rest => cases e <;> exact ⟨_, rfl⟩
  obtain ⟨n, hn⟩ := hbound
  have hrecv := recv_end { s with buffer := s.buffer.seekEnd } s.socket_read_size ho hp
  unfold readFromSocket
  simp only [EStateM.run_bind, EStateM.run_get, EStateM.run_set, hn, recvLoop]
  apply Post.tryFinally (R := fun _ _ => False)
    (F := fun _ s' => s' = { s with sock := s.sock.tail, buffer := s.buffer.seekEnd } ∧
      Open s.sock.tail ∧ pendingBytes s.sock.tail = [] ∧
      SocketBuffer.strikes s.sock.tail = (SocketBuffer.strikes s.sock).tail)
  · apply Post.tryCatch (F := fun _ s' => s' = { s with sock := s.sock.tail, buffer := s.buffer.seekEnd } ∧
      Open s.sock.tail ∧ pendingBytes s.sock.tail = [] ∧
      SocketBuffer.strikes s.sock.tail = (SocketBuffer.strikes s.sock).tail)
    · exact Post.get_bind (Post.bind hrecv fun _ _ h => h.elim)
    · rintro e s' hs'
      obtain ⟨e', he'⟩ := onRecvError_run e s'
      rw [he']
      exact hs'
  · exact fun _ _ h => h.elim
  · rintro _ _ ⟨rfl, h⟩
    exact ⟨rfl, h⟩

theorem At.line_end (h : At start s past [] os) :
    Post (readline.run s) (fun _ _ => False) (fun _ s' => Held start s' past [] os.tail) := by
  obtain ⟨hbuf, hp⟩ := List.append_eq_nil_iff.mp h.unread
  have hstart : readline.run s = (readlineLoop (recvBound s.sock + 1) []).run s := by
    simp [readline, bufferReadline, ByteBuffer.readline, hbuf, ByteBuffer.firstLine]
  rw [hstart, readlineLoop, if_neg (by decide)]
  refine Post.bind ((readFromSocket_end s h.live.isOpen hp).mono (fun _ _ h => h) ?_) fun _ _ h => h.elim
  rintro _ s' ⟨rfl, hopen, hpend, hstrikes⟩
  refine ⟨h.live.readSize, h.start_le, hopen, ?_, ?_, h.formed⟩
  · rw [← h.whole, hpend, hp]
  · rw [strikesAt, hstrikes, List.map_tail, List.map_tail]
    exact congrArg List.tail h.strikes

/-- From `start` on the buffer is a sound source: everything is read in the end. -/
def sound (start : Nat) : source.Sound Empty.elim Empty where
  At := At start
  Held := Held start
  Fit _ := True
  size := size
  log _ := []
  noted := Empty.elim
  ask_post := by
    intro s past t ts os hs
    have ht : wellFormed t := hs.formed t (List.mem_append_right _ List.mem_cons_self)
    apply (ask_taken ht hs.live hs.unread).mono
    · rintro _ s' ⟨rfl, hread⟩
      exact ⟨rfl, trivial, hs.read hread, rfl⟩
    · rintro _ s' hbroken
      obtain ⟨o, os', ho, hle, hlt, hheld⟩ := hs.broken hbroken
      exact .inl ⟨o, os', ho, hle, hlt, hheld, rfl⟩
  push_post := fun {_ _ _ _ x} => x.elim
  line_end hs := (At.line_end hs).mono (fun _ _ h => h) fun _ _ h => ⟨h, rfl⟩

/-! ### The calls -/

/-- What `purge` makes of the buffer. -/
def purged (s : SocketBuffer) : SocketBuffer :=
  if s.unreadBytes > 0 then s else { s with buffer := {} }

theorem run_purge (s : SocketBuffer) : purge.run s = .ok () s.purged := by
  unfold purged
  split
  · rename_i h
    simp [purge, h]
  · rename_i h
    obtain h : s.unreadBytes = 0 := by omega
    simp [purge, h, ByteBuffer.truncate, ByteBuffer.seek]

/-- Between two calls. -/
def Idle (s : SocketBuffer) (ts : List (Token Bytes)) (os : List Nat) : Prop :=
  At s.buffer.pos s [] ts os

theorem idle_purged {used : List (Token Bytes)} (h : At start s used ts os) :
    ∃ os', os = os'.map (· + span size used) ∧ Idle s.purged ts os' := by
  have hpos := h.pos
  have hle := h.live.pos
  have hunread := h.unread
  refine ⟨(SocketBuffer.strikes s.sock).map (· + (s.buffer.data.length - s.buffer.pos)), ?_, ?_⟩
  · apply List.map_injective_iff.mpr (add_left_injective start)
    rw [← h.strikes, strikesAt, List.map_map, List.map_map]
    refine congrArg (fun f : Nat → Nat => (SocketBuffer.strikes s.sock).map f) (funext fun o => ?_)
    change o + s.buffer.data.length = o + (s.buffer.data.length - s.buffer.pos) + span size used + start
    omega
  · have hformed : ∀ t ∈ ts, wellFormed t := fun t ht => h.formed t (List.mem_append_right _ ht)
    unfold purged Idle
    split
    · refine ⟨h.live, rfl, hunread, ?_, hformed⟩
      rw [strikesAt, List.map_map]
      refine congrArg (fun f : Nat → Nat => (SocketBuffer.strikes s.sock).map f) (funext fun o => ?_)
      change o + s.buffer.data.length = o + (s.buffer.data.length - s.buffer.pos) + s.buffer.pos
      omega
    · rename_i hz
      have hz0 : s.buffer.data.length - s.buffer.pos = 0 := Nat.eq_zero_of_not_pos hz
      have hnone : s.buffer.data.drop s.buffer.pos = [] := List.drop_eq_nil_of_le (by omega)
      refine ⟨⟨h.live.readSize, Nat.le_refl _, h.live.isOpen⟩, rfl, ?_, ?_, hformed⟩
      · rw [SocketBuffer.unread, hnone] at hunread
        exact hunread
      · rw [hz0, List.map_map]
        rfl

theorem Held.rewound (h : Held start s past ts os) :
    Idle { s with buffer := s.buffer.seek start } (past ++ ts) os :=
  ⟨⟨h.readSize, h.start_le, h.isOpen⟩, rfl, h.whole, h.strikes, h.formed⟩

theorem Idle.length_le (h : Idle s ts os) : ts.length ≤ s.available + 1 := by
  have hlen := length_unread_le_available s
  rw [At.unread h, length_wires] at hlen
  exact Nat.le_succ_of_le (Nat.le_trans (length_le_span ts) hlen)

end SocketBuffer

open SocketBuffer

namespace RESP2Parser

variable (p : RESP2Parser) (disable_decoding : Bool)

theorem run_readResponse (s : SocketBuffer) :
    (p.readResponse disable_decoding).run s =
      settle purged (fun s' => { s' with buffer := s'.buffer.seek s.buffer.pos })
        ((SocketBuffer.source.exec
          (reply p.encoder disable_decoding closedByServer (s.available + 1))).run s) := by
  rw [← _readResponse_eq_exec]
  unfold readResponse
  simp only [EStateM.run_bind, EStateM.run_get, run_tryCatch]
  cases (p._readResponse disable_decoding (s.available + 1)).run s with
  | ok a s' =>
    dsimp only
    rw [run_purge]
    rfl
  | error e s' => rfl

/-- A call of `read_response` reads the next reply, or leaves the buffer as it was. -/
def resumes : Resumes (p.readResponse disable_decoding) Empty.elim
    (reply p.encoder disable_decoding closedByServer) Empty where
  Idle := SocketBuffer.Idle
  Fit _ := True
  size := size
  log _ := []
  noted := Empty.elim
  call_post := by
    intro s ts os n a rest xs hs hr
    have hr' : Reader.Yields Empty.elim (reply p.encoder disable_decoding closedByServer (s.available + 1))
        ts a rest xs :=
      within_reply n (s.available + 1) _ hs.length_le _ _ _ _ (Nat.le_refl _) hr
    refine ⟨_, hr', (sound s.buffer.pos).callPost (p.run_readResponse disable_decoding s) rfl
      (fun _ => rfl) (fun _ => rfl) hr' hs (fun s' used _ hat => idle_purged hat) ?_⟩
    rintro s' used t more os' rfl hheld
    exact hheld.rewound
  call_end := by
    intro s os hs
    exact (sound s.buffer.pos).callEnd (p.run_readResponse disable_decoding s) ⟨_, rfl⟩ rfl
      (fun _ => rfl) hs fun _ hheld => hheld.rewound

end RESP2Parser

namespace RESP3Parser

variable (p : RESP3Parser) (disable_decoding push_request : Bool)

theorem run_handlePushResponse {response : List PyVal} {r : PyVal} (s : SocketBuffer)
    (w : List (PushHandler × PyVal)) (h : p.handled response = .ok r) :
    (p.handlePushResponse response).run (s, w) = .ok r (s, w ++ p.noted response) := by
  cases response with
  | nil => exact nomatch h
  | cons kind rest =>
    unfold handled at h
    unfold handlePushResponse noted
    dsimp only at h ⊢
    by_cases hk : isInvalidation kind
    · simp only [hk, Bool.not_true, Bool.false_eq_true, if_false] at h ⊢
      cases hf : p.invalidation_push_handler_func with
      | none =>
        simp only [hf] at h ⊢
        obtain rfl := Except.ok.inj h
        simp
      | some f =>
        simp only [hf] at h ⊢
        simp [logPush, h, raising]
    · simp only [hk, Bool.not_false, if_true] at h ⊢
      simp [logPush, h, raising]

theorem run_readResponse (s : SocketBuffer) (w : List (PushHandler × PyVal)) :
    (p.readResponse disable_decoding push_request).run (s, w) =
      settle (fun s' => (s'.1.purged, s'.2))
        (fun s' => ({ s'.1 with buffer := s'.1.buffer.seek s.buffer.pos }, s'.2))
        ((p.source.exec
          (reply p disable_decoding closedByServer (s.available + 1) push_request)).run (s, w)) := by
  rw [← _readResponse_eq_exec]
  unfold readResponse
  simp only [EStateM.run_bind, EStateM.run_get, run_tryCatch]
  cases (p._readResponse disable_decoding (s.available + 1) push_request).run (s, w) with
  | ok a s' =>
    obtain ⟨s', w'⟩ := s'
    simp only [run_first, run_purge, EStateM.run_pure]
    rfl
  | error e s' => rfl

/-- What the sync parser's source is good for. -/
def sound (start : Nat) : p.source.Sound p.handled (PushHandler × PyVal) :=
  (SocketBuffer.sound start).logged p.noted fun s w => p.run_handlePushResponse s w

def resumes : Resumes (p.readResponse disable_decoding push_request) p.handled
    (fun n => reply p disable_decoding closedByServer n push_request) (PushHandler × PyVal) where
  Idle s := SocketBuffer.Idle s.1
  Fit _ := True
  size := size
  log := Prod.snd
  noted := p.noted
  call_post := by
    rintro ⟨s, w⟩ ts os n a rest xs hs hr
    have hr' : Reader.Yields p.handled
        (reply p disable_decoding closedByServer (s.available + 1) push_request) ts a rest xs :=
      within_reply n (s.available + 1) _ push_request hs.length_le _ _ _ _ (Nat.le_refl _) hr
    refine ⟨_, hr', (p.sound s.buffer.pos).callPost (p.run_readResponse disable_decoding push_request s w)
      rfl (fun _ => rfl) (fun _ => rfl) hr' hs (fun s' used _ hat => idle_purged hat) ?_⟩
    rintro s' used t more os' rfl hheld
    exact Held.rewound hheld
  call_end := by
    rintro ⟨s, w⟩ os hs
    exact (p.sound s.buffer.pos).callEnd (p.run_readResponse disable_decoding push_request s w) ⟨_, rfl⟩ rfl
      (fun _ => rfl) hs fun _ hheld => Held.rewound hheld

end RESP3Parser

end RedisPy
