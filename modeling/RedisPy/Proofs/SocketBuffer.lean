import RedisPy.Library.Raising
import RedisPy.Library.Reading
import RedisPy.Spec.SocketBuffer

/-! What `SocketBuffer` reads does not depend on how the stream was cut: a line or
a counted payload is taken off the front of the unread bytes, buffered and not
yet received alike. A `recv` that raises takes nothing away: the reader may go back to
where it was and start over. -/

namespace RedisPy.SocketBuffer

open Reading Raising

/-- The bytes that the socket will still deliver. -/
def pendingBytes : List RecvEvent → Bytes
  | [] => []
  | .data bytes :: rest => bytes ++ pendingBytes rest
  | .raise _ :: rest => pendingBytes rest

/-- A socket that delivers non-empty chunks and nothing else. -/
def Quiet (sock : List RecvEvent) : Prop := ∀ e ∈ sock, ∃ bytes, bytes ≠ [] ∧ e = .data bytes

/-- Everything unread: what is buffered, then what the socket holds. -/
def unread (s : SocketBuffer) : Bytes := s.buffer.data.drop s.buffer.pos ++ pendingBytes s.sock

structure Ready (s : SocketBuffer) : Prop where
  readSize : 1 ≤ s.socket_read_size
  pos : s.buffer.pos ≤ s.buffer.data.length
  quiet : Quiet s.sock

def view : View UInt8 SocketBuffer where
  Ready := Ready
  unread := unread

/-- A socket that may raise, but whose chunks are not empty: its peer does not close it. -/
def Open (sock : List RecvEvent) : Prop := ∀ bytes, .data bytes ∈ sock → bytes ≠ []

/-- How many bytes each `recv` that raises comes behind. -/
def strikes : List RecvEvent → List Nat
  | [] => []
  | .data bytes :: rest => (strikes rest).map (· + bytes.length)
  | .raise _ :: rest => 0 :: strikes rest

/-- The same, counted from the start of the buffer. -/
def strikesAt (s : SocketBuffer) : List Nat := (strikes s.sock).map (· + s.buffer.data.length)

/-- From `s` to `s'` no `recv` has raised. -/
def Calm (s s' : SocketBuffer) : Prop := strikesAt s' = strikesAt s

/-- From `s` to `s'` one `recv` has raised, the last one. -/
def Struck (s s' : SocketBuffer) : Prop := strikesAt s = s'.buffer.data.length :: strikesAt s'

theorem Open.tail {e : RecvEvent} {rest : List RecvEvent} (h : Open (e :: rest)) : Open rest :=
  fun bytes hb => h bytes (List.mem_cons_of_mem e hb)

theorem quiet_iff (sock : List RecvEvent) : Quiet sock ↔ Open sock ∧ strikes sock = [] := by
  induction sock with
  | nil => simp [Quiet, Open, strikes]
  | cons e rest ih =>
    cases e with
    | data bytes =>
      simp only [Quiet, Open, List.mem_cons, strikes, List.map_eq_nil_iff] at ih ⊢
      constructor
      · intro h
        obtain ⟨b, hb, heq⟩ := h _ (.inl rfl)
        cases heq
        have hrest := ih.mp fun e he => h e (.inr he)
        refine ⟨?_, hrest.2⟩
        rintro b' (heq | hmem)
        · cases heq
          exact hb
        · exact hrest.1 b' hmem
      · rintro ⟨h, hr⟩ e (rfl | he)
        · exact ⟨bytes, h bytes (.inl rfl), rfl⟩
        · exact ih.mpr ⟨fun b hb => h b (.inr hb), hr⟩ e he
    | raise e =>
      simp only [strikes, List.cons_ne_nil, and_false, iff_false]
      intro h
      obtain ⟨b, -, heq⟩ := h _ List.mem_cons_self
      cases heq

/-- From `s` to `s'` bytes have come from the socket to the end of the buffer, and nothing is
lost. The position may be anywhere. -/
structure Kept (s s' : SocketBuffer) : Prop where
  readSize : s'.socket_read_size = s.socket_read_size
  isOpen : Open s'.sock
  bytes : ∃ more, s'.buffer.data = s.buffer.data ++ more ∧
    more ++ pendingBytes s'.sock = pendingBytes s.sock ∧
    recvBound s'.sock + more.length ≤ recvBound s.sock

theorem Kept.refl {s : SocketBuffer} (h : Open s.sock) : Kept s s :=
  ⟨rfl, h, [], by simp, rfl, Nat.le_refl _⟩

theorem Kept.trans {s s' s'' : SocketBuffer} (h : Kept s s') (h' : Kept s' s'') : Kept s s'' := by
  obtain ⟨more, hdata, hpend, hbound⟩ := h.bytes
  obtain ⟨more', hdata', hpend', hbound'⟩ := h'.bytes
  refine ⟨h'.readSize.trans h.readSize, h'.isOpen, more ++ more', ?_, ?_, ?_⟩
  · rw [hdata', hdata, List.append_assoc]
  · rw [List.append_assoc, hpend', hpend]
  · rw [List.length_append]
    omega

/-- Only the buffer's position has moved. -/
theorem Kept.of_seek {s : SocketBuffer} (h : Open s.sock) (pos : Nat) :
    Kept s { s with buffer := s.buffer.seek pos } :=
  ⟨rfl, h, [], by simp [ByteBuffer.seek], rfl, Nat.le_refl _⟩

/-- The buffer took `chunk` from the socket; its position did not move. -/
structure Filled (s s' : SocketBuffer) (chunk : Bytes) : Prop where
  kept : Kept s s'
  buffer : s'.buffer = { data := s.buffer.data ++ chunk, pos := s.buffer.pos }
  pending : chunk ++ pendingBytes s'.sock = pendingBytes s.sock
  bound : recvBound s'.sock + chunk.length ≤ recvBound s.sock

theorem write_at_end (b : ByteBuffer) (bs : Bytes) (h : b.pos = b.data.length) :
    b.write bs = { data := b.data ++ bs, pos := (b.data ++ bs).length } := by
  simp [ByteBuffer.write, h]

/-- One `recv` delivers a non-empty piece of the first chunk, or raises. -/
theorem recv_post (s : SocketBuffer) (n : Nat) (hn : 1 ≤ n) (ho : Open s.sock)
    (hp : pendingBytes s.sock ≠ []) :
    Post ((recv n).run s)
      (fun chunk s' => ∃ sock, s' = { s with sock := sock } ∧ chunk ≠ [] ∧ Open sock ∧
        chunk ++ pendingBytes sock = pendingBytes s.sock ∧
        strikes s.sock = (strikes sock).map (· + chunk.length) ∧
        recvBound sock + chunk.length ≤ recvBound s.sock)
      (fun _ s' => ∃ sock, s' = { s with sock := sock } ∧ Open sock ∧
        pendingBytes sock = pendingBytes s.sock ∧ strikes s.sock = 0 :: strikes sock ∧
        recvBound sock ≤ recvBound s.sock) := by
  obtain ⟨sock, size, buffer⟩ := s
  cases sock with
  | nil => exact absurd rfl hp
  | cons e rest =>
    cases e with
    | raise e => exact ⟨rest, rfl, ho.tail, rfl, rfl, Nat.le_succ _⟩
    | data bytes =>
      have hpos : 0 < bytes.length := List.length_pos_iff.mpr (ho bytes List.mem_cons_self)
      by_cases hle : bytes.length ≤ n
      · have hrun : (recv n).run ⟨.data bytes :: rest, size, buffer⟩ = .ok bytes ⟨rest, size, buffer⟩ := by
          simp [recv, hle, List.take_of_length_le hle]
        rw [hrun]
        refine ⟨rest, rfl, List.ne_nil_of_length_pos hpos, ho.tail, rfl, rfl, ?_⟩
        change recvBound rest + bytes.length ≤ recvBound rest + bytes.length + 1
        omega
      · have htake : (bytes.take n).length = n := by rw [List.length_take]; omega
        have hdrop : 0 < (bytes.drop n).length := by rw [List.length_drop]; omega
        have hrun : (recv n).run ⟨.data bytes :: rest, size, buffer⟩ =
            .ok (bytes.take n) ⟨.data (bytes.drop n) :: rest, size, buffer⟩ := by
          simp [recv, hle]
        rw [hrun]
        refine ⟨_, rfl, List.ne_nil_of_length_pos (by omega), ?_, ?_, ?_, ?_⟩
        · intro b hb
          rcases List.mem_cons.mp hb with heq | hb
          · cases heq
            exact List.ne_nil_of_length_pos hdrop
          · exact ho b (List.mem_cons_of_mem _ hb)
        · rw [pendingBytes, pendingBytes, ← List.append_assoc, List.take_append_drop]
        · rw [strikes, strikes, List.map_map, htake, List.length_drop]
          refine congrArg (fun f : Nat → Nat => (strikes rest).map f) (funext fun o => ?_)
          change o + bytes.length = o + (bytes.length - n) + n
          omega
        · change recvBound rest + (bytes.drop n).length + 1 + (bytes.take n).length ≤
            recvBound rest + bytes.length + 1
          rw [htake, List.length_drop]
          omega

/-- What `_read_from_socket` waits for: any bytes, or as many as are missing. -/
def Enough : Option Nat → Nat → Prop
  | none, got => 0 < got
  | some length, got => length ≤ got

instance (length : Option Nat) (got : Nat) : Decidable (Enough length got) :=
  match length with
  | none => inferInstanceAs (Decidable (0 < got))
  | some length => inferInstanceAs (Decidable (length ≤ got))

/-- One round of the loop. -/
theorem recvLoop_succ (length : Option Nat) (fuel marker : Nat) (s : SocketBuffer) {chunk : Bytes}
    {sock : List RecvEvent}
    (hrecv : (recv s.socket_read_size).run s = .ok chunk { s with sock := sock })
    (hne : chunk ≠ []) :
    (recvLoop length (fuel + 1) marker).run s =
      if Enough length (marker + chunk.length) then
        .ok true { s with sock := sock, buffer := s.buffer.write chunk }
      else (recvLoop length fuel (marker + chunk.length)).run
        { s with sock := sock, buffer := s.buffer.write chunk } := by
  have hlen : chunk.length ≠ 0 := fun h => hne (List.length_eq_zero_iff.mp h)
  cases length with
  | none =>
    rw [if_pos (show Enough none _ from Nat.add_pos_right _ (Nat.pos_of_ne_zero hlen))]
    simp only [recvLoop, EStateM.run_bind, EStateM.run_get, hrecv, if_neg hlen,
      EStateM.run_modify, EStateM.run_pure]
  | some n =>
    simp only [recvLoop, EStateM.run_bind, EStateM.run_get, hrecv, if_neg hlen, EStateM.run_modify]
    by_cases hlt : marker + chunk.length < n
    · rw [if_pos hlt, if_neg (show ¬ Enough (some n) _ from Nat.not_le.mpr hlt)]
    · rw [if_neg hlt, if_pos (show Enough (some n) _ from Nat.not_lt.mp hlt), EStateM.run_pure]

/-- The loop has moved `chunk` from the socket to the end of the buffer. -/
structure Moved (s s' : SocketBuffer) (chunk : Bytes) : Prop where
  same : ∃ sock, s' = { s with sock := sock, buffer := s.buffer.write chunk }
  isOpen : Open s'.sock
  pending : chunk ++ pendingBytes s'.sock = pendingBytes s.sock
  bound : recvBound s'.sock + chunk.length ≤ recvBound s.sock

/-- The loop fills the end of the buffer until it has enough, or a `recv` raises. -/
theorem recvLoop_post (length : Option Nat) (fuel marker : Nat) (s : SocketBuffer)
    (hn : 1 ≤ s.socket_read_size) (hpos : s.buffer.pos = s.buffer.data.length)
    (ho : Open s.sock) (hneed : ¬ Enough length marker)
    (hlen : Enough length (marker + (pendingBytes s.sock).length))
    (hfuel : recvBound s.sock ≤ fuel) :
    Post ((recvLoop length fuel marker).run s)
      (fun b s' => b = true ∧ ∃ chunk, Moved s s' chunk ∧ Calm s s' ∧
        Enough length (marker + chunk.length))
      (fun _ s' => ∃ chunk, Moved s s' chunk ∧ Struck s s' ∧
        ¬ Enough length (marker + chunk.length)) := by
  induction fuel generalizing s marker with
  | zero =>
    cases hs : s.sock with
    | nil => exact absurd (by simpa [hs, pendingBytes] using hlen) hneed
    | cons e rest =>
      rw [hs] at hfuel
      cases e <;> simp [recvBound] at hfuel
  | succ fuel ih =>
    have hp : pendingBytes s.sock ≠ [] := fun h => hneed (by simpa [h] using hlen)
    have hrecv := recv_post s _ hn ho hp
    cases hrun : (recv s.socket_read_size).run s with
    | error e s' =>
      rw [hrun] at hrecv
      obtain ⟨sock, rfl, ho', hpend, hstrikes, hbound⟩ := hrecv
      have hnone : s.buffer = s.buffer.write [] := by
        rw [write_at_end _ _ hpos, List.append_nil, ← hpos]
      have hloop : (recvLoop length (fuel + 1) marker).run s = .error e { s with sock := sock } := by
        simp only [recvLoop, EStateM.run_bind, EStateM.run_get, hrun]
      rw [hloop]
      refine ⟨[], ⟨⟨sock, by rw [← hnone]⟩, ho', hpend, hbound⟩, ?_, hneed⟩
      rw [Struck, strikesAt, hstrikes, List.map_cons, Nat.zero_add]
      rfl
    | ok chunk s' =>
      rw [hrun] at hrecv
      obtain ⟨sock, rfl, hne, ho', hpend, hstrikes, hbound⟩ := hrecv
      have hpos0 : 0 < chunk.length := List.length_pos_iff.mpr hne
      have hw := write_at_end s.buffer chunk hpos
      have hcalm : Calm s { s with sock := sock, buffer := s.buffer.write chunk } := by
        rw [Calm, strikesAt, strikesAt, hstrikes, List.map_map, hw]
        refine congrArg (fun f : Nat → Nat => (strikes sock).map f) (funext fun o => ?_)
        change o + (s.buffer.data ++ chunk).length = o + chunk.length + s.buffer.data.length
        rw [List.length_append]
        omega
      rw [recvLoop_succ length fuel marker s hrun hne]
      by_cases henough : Enough length (marker + chunk.length)
      · rw [if_pos henough]
        exact ⟨rfl, chunk, ⟨⟨sock, rfl⟩, ho', hpend, hbound⟩, hcalm, henough⟩
      · rw [if_neg henough]
        have hsplit := congrArg List.length hpend
        rw [List.length_append] at hsplit
        have hlen' : Enough length (marker + chunk.length + (pendingBytes sock).length) := by
          rwa [Nat.add_assoc, hsplit]
        have hmoved : ∀ {s' : SocketBuffer} {more : Bytes},
            Moved { s with sock := sock, buffer := s.buffer.write chunk } s' more →
            Moved s s' (chunk ++ more) := by
          intro s' more hm
          obtain ⟨sock', hsock'⟩ := hm.same
          have hp' : more ++ pendingBytes s'.sock = pendingBytes sock := hm.pending
          have hb' : recvBound s'.sock + more.length ≤ recvBound sock := hm.bound
          refine ⟨⟨sock', ?_⟩, hm.isOpen, ?_, ?_⟩
          · rw [hsock', write_at_end _ (chunk ++ more) hpos, hw, write_at_end _ more rfl,
              List.append_assoc]
          · rw [List.append_assoc, hp', hpend]
          · rw [List.length_append]
            omega
        refine (ih (marker + chunk.length) { s with sock := sock, buffer := s.buffer.write chunk } hn
          (by rw [hw]) ho' henough hlen' (by change recvBound sock ≤ fuel; omega)).mono ?_ ?_
        · rintro _ s' ⟨rfl, more, hm, hcalm', hen⟩
          refine ⟨rfl, chunk ++ more, hmoved hm, hcalm'.trans hcalm, ?_⟩
          rwa [List.length_append, ← Nat.add_assoc]
        · rintro _ s' ⟨more, hm, hstruck, hen⟩
          refine ⟨chunk ++ more, hmoved hm, hcalm.symm.trans hstruck, ?_⟩
          rwa [List.length_append, ← Nat.add_assoc]

/-- A buffer on an open socket. -/
structure Live (s : SocketBuffer) : Prop where
  readSize : 1 ≤ s.socket_read_size
  pos : s.buffer.pos ≤ s.buffer.data.length
  isOpen : Open s.sock

theorem Filled.of_moved {s s' : SocketBuffer} {chunk : Bytes}
    (h : Moved { s with buffer := s.buffer.seekEnd } s' chunk) :
    Filled s { s' with buffer := s'.buffer.seek s.buffer.pos } chunk := by
  obtain ⟨sock, rfl⟩ := h.same
  have hbuffer : (s.buffer.seekEnd.write chunk).seek s.buffer.pos =
      { data := s.buffer.data ++ chunk, pos := s.buffer.pos } := by
    rw [write_at_end _ _ rfl]
    rfl
  exact ⟨⟨rfl, h.isOpen, chunk, by rw [hbuffer], h.pending, h.bound⟩, hbuffer, h.pending, h.bound⟩

/-- An exception of `recv` comes out of `_read_from_socket` as an exception. -/
theorem onRecvError_run (e : Exc) (s : SocketBuffer) :
    ∃ e', (onRecvError true e).run s = .error e' s := by
  unfold onRecvError
  by_cases ht : e.isinstance .SocketTimeout
  · exact ⟨_, by simp [ht]; rfl⟩
  · by_cases hb : e.isinstance .BlockingIOError
    · exact ⟨_, by simp [ht, hb]; rfl⟩
    · exact ⟨e, by simp [ht, hb]⟩

/-- `_read_from_socket` fills the buffer and leaves its position. -/
theorem readFromSocket_post (length : Option Nat) (s : SocketBuffer) (h : Live s)
    (hneed : ¬ Enough length 0) (hlen : Enough length (pendingBytes s.sock).length) :
    Post ((readFromSocket length).run s)
      (fun _ s' => ∃ chunk, Filled s s' chunk ∧ Calm s s' ∧ Enough length chunk.length)
      (fun _ s' => ∃ chunk, Filled s s' chunk ∧ Struck s s' ∧ ¬ Enough length chunk.length) := by
  have hloop := recvLoop_post length (recvBound s.sock) 0 { s with buffer := s.buffer.seekEnd }
    h.readSize rfl h.isOpen hneed (by rwa [Nat.zero_add]) (Nat.le_refl _)
  simp only [Nat.zero_add] at hloop
  unfold readFromSocket
  simp only [EStateM.run_bind, EStateM.run_get, EStateM.run_set]
  apply Post.tryFinally (R := fun _ s' => ∃ chunk, Moved { s with buffer := s.buffer.seekEnd } s' chunk ∧
      Calm s s' ∧ Enough length chunk.length)
    (F := fun _ s' => ∃ chunk, Moved { s with buffer := s.buffer.seekEnd } s' chunk ∧
      Struck s s' ∧ ¬ Enough length chunk.length)
  · apply Post.tryCatch (hloop.mono ?_ fun _ _ h => h)
    · rintro e s' hs'
      obtain ⟨e', he'⟩ := onRecvError_run e s'
      rw [he']
      exact hs'
    · rintro _ s' ⟨-, chunk, hm, hcalm, hen⟩
      exact ⟨chunk, hm, hcalm, hen⟩
  · rintro _ s' ⟨chunk, hm, hcalm, hen⟩
    exact ⟨chunk, .of_moved hm, hcalm, hen⟩
  · rintro _ s' ⟨chunk, hm, hstruck, hen⟩
    exact ⟨chunk, .of_moved hm, hstruck, hen⟩

/-! ### Lines -/

theorem firstLine_of_not_mem {bs : Bytes} (h : LF ∉ bs) : ByteBuffer.firstLine bs = bs := by
  induction bs with
  | nil => rfl
  | cons b bs ih =>
    have hb : b ≠ LF := fun hb => h (by simp [hb])
    rw [ByteBuffer.firstLine, if_neg hb, ih fun hm => h (List.mem_cons_of_mem b hm)]

theorem firstLine_append {l : Bytes} (h : LF ∉ l) (rest : Bytes) :
    ByteBuffer.firstLine (l ++ LF :: rest) = l ++ [LF] := by
  induction l with
  | nil => simp [ByteBuffer.firstLine]
  | cons b l ih =>
    have hb : b ≠ LF := fun hb => h (by simp [hb])
    rw [List.cons_append, ByteBuffer.firstLine, if_neg hb, ih fun hm => h (List.mem_cons_of_mem b hm),
      List.cons_append]

/-- A cut of a stream whose first line feed comes after `l`: either it falls
before the line feed, or behind it. -/
theorem cut_at_LF {xs ys l rest : Bytes} (hl : LF ∉ l) (h : xs ++ ys = l ++ LF :: rest) :
    (LF ∉ xs ∧ ∃ l', l = xs ++ l' ∧ ys = l' ++ LF :: rest) ∨
      ∃ rest', xs = l ++ LF :: rest' ∧ rest = rest' ++ ys := by
  rcases List.append_eq_append_iff.mp h with ⟨l', rfl, hys⟩ | ⟨t, rfl, ht⟩
  · exact .inl ⟨fun hm => hl (List.mem_append_left l' hm), l', rfl, hys⟩
  · cases t with
    | nil =>
      refine .inl ⟨by simpa using hl, [], by simp, ?_⟩
      simpa using ht.symm
    | cons b t =>
      obtain ⟨rfl, rfl⟩ := List.cons_eq_cons.mp ht
      exact .inr ⟨t, rfl, rfl⟩

theorem not_endsCRLF {data : Bytes} (h : LF ∉ data) : endsCRLF data = false := by
  rw [Bool.eq_false_iff]
  intro hs
  exact h ((List.isSuffixOf_iff_suffix.mp hs).subset (by simp [CRLF]))

theorem endsCRLF_append (data : Bytes) : endsCRLF (data ++ CRLF) = true :=
  List.isSuffixOf_iff_suffix.mpr (List.suffix_append data CRLF)

theorem dropLast_CRLF (data : Bytes) : (data ++ CRLF).dropLast.dropLast = data := by
  simp [CRLF]

theorem readlineLoop_done (fuel : Nat) (line : Bytes) (s : SocketBuffer) :
    (readlineLoop (fuel + 1) (line ++ CRLF)).run s = .ok line s := by
  rw [readlineLoop, if_pos (endsCRLF_append line), dropLast_CRLF, EStateM.run_pure]

/-- A piece has been read off the front of the unread bytes. -/
structure Read (s s' : SocketBuffer) (rest : Bytes) : Prop where
  kept : Kept s s'
  calm : Calm s s'
  pos : s'.buffer.pos ≤ s'.buffer.data.length
  unread : s'.unread = rest

/-- A `recv` has raised before the buffer held `n` bytes from its position on. -/
structure Broken (s s' : SocketBuffer) (n : Nat) : Prop where
  kept : Kept s s'
  struck : Struck s s'
  short : s'.buffer.data.length < s.buffer.pos + n

/-- What comes of a reader that takes `n` bytes off the unread ones. -/
def Taken {α : Type} (s : SocketBuffer) (n : Nat) (a : α) (rest : Bytes) (r : EStateM.Result Exc SocketBuffer α) :
    Prop :=
  Post r (fun r s' => r = a ∧ Read s s' rest) (fun _ s' => Broken s s' n)

theorem Live.of_kept {s s' : SocketBuffer} (h : Live s) (hk : Kept s s')
    (hpos : s'.buffer.pos ≤ s'.buffer.data.length) : Live s' :=
  ⟨hk.readSize ▸ h.readSize, hpos, hk.isOpen⟩

/-- The loop of `readline` once the buffer is used up: `got` is what it has of the
line, `l` what is missing of it up to the line feed. -/
theorem readlineLoop_post (line rest : Bytes) (fuel : Nat) (s : SocketBuffer) (got l : Bytes)
    (h : Live s) (hpos : s.buffer.pos = s.buffer.data.length) (hgot : LF ∉ got) (hl : LF ∉ l)
    (hline : got ++ l = line ++ [CR]) (hp : pendingBytes s.sock = l ++ LF :: rest)
    (hfuel : recvBound s.sock < fuel) :
    Taken s (l.length + 1) line rest ((readlineLoop fuel got).run s) := by
  induction fuel generalizing s got l with
  | zero => omega
  | succ fuel ih =>
    have hlen : Enough none (pendingBytes s.sock).length := by
      rw [hp, List.length_append]
      exact Nat.add_pos_right _ (Nat.succ_pos _)
    rw [readlineLoop, if_neg (by rw [not_endsCRLF hgot]; exact Bool.false_ne_true)]
    apply Post.bind ((readFromSocket_post none s h (Nat.lt_irrefl 0) hlen).mono (fun _ _ h => h) ?_)
    · rintro _ s' ⟨chunk, hfill, hcalm, hchunkpos⟩
      replace hchunkpos : 0 < chunk.length := hchunkpos
      have hdrop : s'.buffer.data.drop s'.buffer.pos = chunk := by rw [hfill.buffer, hpos]; simp
      have hlen : s'.buffer.data.length = s'.buffer.pos + chunk.length := by
        rw [hfill.buffer, hpos, List.length_append]
      have hsame : s'.buffer.pos = s.buffer.pos := by rw [hfill.buffer]
      have hrest : chunk ++ pendingBytes s'.sock = l ++ LF :: rest := hfill.pending.trans hp
      have hround : (bufferReadline >>= fun more => readlineLoop fuel (got ++ more)).run s' =
          (readlineLoop fuel (got ++ ByteBuffer.firstLine chunk)).run
            { s' with buffer := s'.buffer.seek (s'.buffer.pos + (ByteBuffer.firstLine chunk).length) } := by
        simp [bufferReadline, ByteBuffer.readline, ByteBuffer.seek, hdrop]
      rw [hround]
      have hbound := hfill.bound
      rcases cut_at_LF hl hrest with ⟨hcl, l', rfl, hp'⟩ | ⟨rest', rfl, rfl⟩
      · rw [firstLine_of_not_mem hcl]
        have hseek := hfill.kept.trans
          (.of_seek hfill.kept.isOpen (s'.buffer.pos + chunk.length))
        refine (ih { s' with buffer := s'.buffer.seek (s'.buffer.pos + chunk.length) } (got ++ chunk) l'
          (h.of_kept hseek (Nat.le_of_eq hlen.symm)) hlen.symm ?_ ?_ ?_ hp' ?_).mono ?_ ?_
        · exact fun hm => (List.mem_append.mp hm).elim hgot hcl
        · exact fun hm => hl (List.mem_append_right chunk hm)
        · rwa [List.append_assoc]
        · change recvBound s'.sock < fuel
          omega
        · rintro r s'' ⟨rfl, hread⟩
          exact ⟨rfl, hseek.trans hread.kept, hread.calm.trans hcalm, hread.pos, hread.unread⟩
        · rintro _ s'' hbroken
          refine ⟨hseek.trans hbroken.kept, hcalm.symm.trans hbroken.struck, ?_⟩
          have hshort : s''.buffer.data.length < s'.buffer.pos + chunk.length + (l'.length + 1) :=
            hbroken.short
          rw [List.length_append]
          omega
      · rw [firstLine_append hl]
        have hdone : got ++ (l ++ [LF]) = line ++ CRLF := by
          rw [← List.append_assoc, hline, List.append_assoc]
          rfl
        obtain ⟨fuel, rfl⟩ : ∃ n, fuel = n + 1 := ⟨fuel - 1, by omega⟩
        rw [hdone, readlineLoop_done]
        refine ⟨rfl, hfill.kept.trans (.of_seek hfill.kept.isOpen _), hcalm, ?_, ?_⟩
        · simp only [ByteBuffer.seek, hlen, List.length_append, List.length_cons, List.length_nil]
          omega
        · have hskip : ∀ n, s'.buffer.data.drop (s'.buffer.pos + n) = (l ++ LF :: rest').drop n := by
            intro n
            rw [← List.drop_drop, hdrop]
          simp [SocketBuffer.unread, ByteBuffer.seek, hskip, List.drop_append]
    · rintro _ s' ⟨chunk, hfill, hstruck, hnone⟩
      obtain rfl : chunk = [] := List.length_eq_zero_iff.mp (Nat.eq_zero_of_not_pos hnone)
      refine ⟨hfill.kept, hstruck, ?_⟩
      rw [hfill.buffer, List.append_nil, ← hpos]
      omega

/-- `readline` takes one line off the unread bytes, unless a `recv` raises. -/
theorem readline_post {line : Bytes} (hl : LF ∉ line) (rest : Bytes) (s : SocketBuffer) (h : Live s)
    (hu : s.unread = line ++ CRLF ++ rest) :
    Taken s (line ++ CRLF).length line rest (readline.run s) := by
  have hcr : LF ∉ line ++ [CR] := by
    rw [List.mem_append, List.mem_singleton, not_or]
    exact ⟨hl, by decide⟩
  have hu' : s.buffer.data.drop s.buffer.pos ++ pendingBytes s.sock = (line ++ [CR]) ++ LF :: rest := by
    simpa [unread, CRLF] using hu
  have hdroplen : (s.buffer.data.drop s.buffer.pos).length = s.buffer.data.length - s.buffer.pos :=
    List.length_drop
  have hlinelen : (line ++ CRLF).length = (line ++ [CR]).length + 1 := by simp [CRLF]
  have hstart : readline.run s =
      (readlineLoop (recvBound s.sock + 1)
        (ByteBuffer.firstLine (s.buffer.data.drop s.buffer.pos))).run
        { s with buffer := s.buffer.seek (s.buffer.pos +
            (ByteBuffer.firstLine (s.buffer.data.drop s.buffer.pos)).length) } := by
    simp [readline, bufferReadline, ByteBuffer.readline, ByteBuffer.seek]
  rw [hstart]
  have hpos := h.pos
  rcases cut_at_LF hcr hu' with ⟨hb, l', hl', hp⟩ | ⟨rest', hb, hr⟩
  · rw [firstLine_of_not_mem hb]
    have hend : s.buffer.pos + (s.buffer.data.drop s.buffer.pos).length = s.buffer.data.length := by
      omega
    have hseek : Kept s { s with buffer := s.buffer.seek (s.buffer.pos +
        (s.buffer.data.drop s.buffer.pos).length) } := .of_seek h.isOpen _
    refine (readlineLoop_post line rest _ _ _ l' (h.of_kept hseek (Nat.le_of_eq hend)) hend hb ?_
      hl'.symm hp (Nat.lt_succ_self _)).mono ?_ ?_
    · exact fun hm => hcr (hl' ▸ List.mem_append_right _ hm)
    · rintro r s' ⟨rfl, hread⟩
      exact ⟨rfl, hseek.trans hread.kept, hread.calm, hread.pos, hread.unread⟩
    · rintro _ s' hbroken
      refine ⟨hseek.trans hbroken.kept, hbroken.struck, ?_⟩
      have hshort : s'.buffer.data.length <
          s.buffer.pos + (s.buffer.data.drop s.buffer.pos).length + (l'.length + 1) := hbroken.short
      rw [hlinelen, hl', List.length_append]
      omega
  · have hline : (line ++ [CR]) ++ [LF] = line ++ CRLF := by simp [CRLF]
    rw [hb, firstLine_append hcr, hline, readlineLoop_done]
    have hlen := congrArg List.length hb
    refine ⟨rfl, .of_seek h.isOpen _, rfl, ?_, ?_⟩
    · simp only [ByteBuffer.seek, List.length_append, List.length_cons, List.length_nil, CRLF] at hlen ⊢
      omega
    · have hskip : ∀ n, s.buffer.data.drop (s.buffer.pos + n) =
          ((line ++ [CR]) ++ LF :: rest').drop n := by
        intro n
        rw [← List.drop_drop, hb]
      have hlast : ((line ++ [CR]) ++ LF :: rest').drop (line ++ CRLF).length = rest' := by
        rw [hlinelen, ← List.drop_drop, List.drop_left]
        rfl
      change s.buffer.data.drop (s.buffer.pos + _) ++ pendingBytes s.sock = rest
      rw [hskip, hlast, hr]

/-- On a quiet socket a reader that is interrupted by nothing else reads. -/
theorem reads_of_post {α : Type} {m : M α} {ts : Bytes} {a : α}
    (hm : ∀ rest s, Live s → s.unread = ts ++ rest → Taken s ts.length a rest (m.run s)) :
    Reads view m ts a := by
  intro s rest h hu
  obtain ⟨ho, hr⟩ := (quiet_iff _).mp h.quiet
  have hnone : strikesAt s = [] := by rw [strikesAt, hr, List.map_nil]
  have hpost := hm rest s ⟨h.readSize, h.pos, ho⟩ hu
  cases hrun : m.run s with
  | ok r s' =>
    rw [hrun] at hpost
    obtain ⟨rfl, hread⟩ := hpost
    have hr' : strikes s'.sock = [] := List.map_eq_nil_iff.mp (hread.calm.trans hnone)
    exact ⟨s', rfl, ⟨hread.kept.readSize ▸ h.readSize, hread.pos,
      (quiet_iff _).mpr ⟨hread.kept.isOpen, hr'⟩⟩, hread.unread⟩
  | error e s' =>
    rw [hrun] at hpost
    exact nomatch hnone.symm.trans hpost.struck

theorem reads_readline {line : Bytes} (hl : LF ∉ line) :
    Reads view readline (line ++ CRLF) line :=
  reads_of_post fun rest s h hu => readline_post hl rest s h hu

/-! ### Payloads -/

/-- A cut of a stream that starts with `ts`: behind them, or among them. -/
theorem cut_at_end {xs ys ts rest : Bytes} (h : xs ++ ys = ts ++ rest) :
    (∃ t, xs = ts ++ t ∧ rest = t ++ ys) ∨ ∃ u, u ≠ [] ∧ ts = xs ++ u ∧ ys = u ++ rest := by
  rcases List.append_eq_append_iff.mp h with ⟨u, rfl, rfl⟩ | ⟨t, rfl, rfl⟩
  · cases u with
    | nil => exact .inl ⟨[], by simp, by simp⟩
    | cons b u => exact .inr ⟨b :: u, by simp, rfl, rfl⟩
  · exact .inl ⟨t, rfl, rfl⟩

theorem bufferRead_run (n : Nat) (s : SocketBuffer) :
    let bs := (s.buffer.data.drop s.buffer.pos).take n
    (bufferRead n).run s = .ok bs { s with buffer := s.buffer.seek (s.buffer.pos + bs.length) } := rfl

/-- `read(n)` takes `n` bytes and their terminator off the unread bytes, unless a `recv`
raises. -/
theorem read_post (payload rest : Bytes) (s : SocketBuffer) (h : Live s)
    (hu : s.unread = payload ++ CRLF ++ rest) :
    Taken s (payload ++ CRLF).length payload rest ((read payload.length).run s) := by
  have hu' : s.buffer.data.drop s.buffer.pos ++ pendingBytes s.sock = (payload ++ CRLF) ++ rest := hu
  have hdroplen : (s.buffer.data.drop s.buffer.pos).length = s.buffer.data.length - s.buffer.pos :=
    List.length_drop
  have hlen : (payload ++ CRLF).length = payload.length + 2 := List.length_append
  have hnat : ((payload.length : Int) + 2).toNat = (payload ++ CRLF).length := by omega
  have hnn : ¬ ((payload.length : Int) + 2 < 0) := by omega
  have hpos := h.pos
  rcases cut_at_end hu' with ⟨t, hbuf, hrest⟩ | ⟨u, hu0, hts, hpend⟩
  · -- all of it is buffered
    have htake : (s.buffer.data.drop s.buffer.pos).take (payload ++ CRLF).length = payload ++ CRLF := by
      rw [hbuf, List.take_left]
    have hrun : (read payload.length).run s =
        .ok payload { s with buffer := s.buffer.seek (s.buffer.pos + (payload ++ CRLF).length) } := by
      simp only [read, hnat, if_neg hnn, EStateM.run_bind, bufferRead_run, htake, Nat.sub_self,
        ne_eq, not_true_eq_false, if_false, dropLast_CRLF, EStateM.run_pure]
    rw [hrun]
    refine ⟨rfl, .of_seek h.isOpen _, rfl, ?_, ?_⟩
    · have hle : (s.buffer.data.drop s.buffer.pos).length = (payload ++ CRLF).length + t.length := by
        rw [hbuf, List.length_append]
      change s.buffer.pos + (payload ++ CRLF).length ≤ s.buffer.data.length
      omega
    · change s.buffer.data.drop (s.buffer.pos + (payload ++ CRLF).length) ++ pendingBytes s.sock = rest
      rw [← List.drop_drop, hbuf, List.drop_left, hrest]
  · -- the buffer runs out, and the socket fills up what is missing
    have hu1 : 0 < u.length := List.length_pos_iff.mpr hu0
    have htslen : (payload ++ CRLF).length = (s.buffer.data.drop s.buffer.pos).length + u.length := by
      rw [hts, List.length_append]
    have hend : s.buffer.pos + (s.buffer.data.drop s.buffer.pos).length = s.buffer.data.length := by
      omega
    have hall : (s.buffer.data.drop s.buffer.pos).take (payload ++ CRLF).length =
        s.buffer.data.drop s.buffer.pos := List.take_of_length_le (by omega)
    have hmiss : (payload ++ CRLF).length - (s.buffer.data.drop s.buffer.pos).length = u.length := by
      omega
    have hseek : Kept s { s with buffer := s.buffer.seek s.buffer.data.length } := .of_seek h.isOpen _
    have hfrom := readFromSocket_post (some u.length) { s with buffer := s.buffer.seek s.buffer.data.length }
      ⟨h.readSize, Nat.le_refl _, h.isOpen⟩ (Nat.not_le.mpr hu1)
      (by change u.length ≤ (pendingBytes s.sock).length; simp [hpend])
    have hrun : (read payload.length).run s =
        ((do
          let _ ← readFromSocket (some u.length)
          let more ← bufferRead u.length
          return (s.buffer.data.drop s.buffer.pos ++ more).dropLast.dropLast : M Bytes)).run
          { s with buffer := s.buffer.seek s.buffer.data.length } := by
      simp only [read, hnat, if_neg hnn, EStateM.run_bind, bufferRead_run _ s, hall, hend, hmiss,
        if_pos (Nat.pos_iff_ne_zero.mp hu1)]
    rw [hrun]
    apply Post.bind (hfrom.mono (fun _ _ h => h) ?_)
    · rintro _ s' ⟨chunk, hfill, hcalm, hen⟩
      have hbuf : s'.buffer = { data := s.buffer.data ++ chunk, pos := s.buffer.data.length } :=
        hfill.buffer
      obtain ⟨t, rfl⟩ : ∃ t, chunk = u ++ t := by
        rcases cut_at_end (hfill.pending.trans hpend) with ⟨t, ht, -⟩ | ⟨v, hv, hv', -⟩
        · exact ⟨t, ht⟩
        · have hlt := congrArg List.length hv'
          have hv1 : 0 < v.length := List.length_pos_iff.mpr hv
          have hle : u.length ≤ chunk.length := hen
          rw [List.length_append] at hlt
          omega
      have hafter : t ++ pendingBytes s'.sock = rest := by
        have hp := hfill.pending.trans hpend
        rw [List.append_assoc] at hp
        exact List.append_cancel_left hp
      have hread' : (bufferRead u.length).run s' =
          .ok u { s' with buffer := s'.buffer.seek (s.buffer.data.length + u.length) } := by
        rw [bufferRead_run, hbuf, List.drop_left, List.take_left]
      rw [EStateM.run_bind, hread']
      refine ⟨?_, (hseek.trans hfill.kept).trans (.of_seek hfill.kept.isOpen _), hcalm, ?_, ?_⟩
      · rw [← hts, dropLast_CRLF]
      · simp only [ByteBuffer.seek, hbuf, List.length_append]
        omega
      · change s'.buffer.data.drop (s.buffer.data.length + u.length) ++ pendingBytes s'.sock = rest
        rw [hbuf, ← hafter]
        change (s.buffer.data ++ (u ++ t)).drop _ ++ _ = _
        rw [List.drop_length_add_append, List.drop_left]
    · rintro _ s' ⟨chunk, hfill, hstruck, hshort⟩
      replace hshort : chunk.length < u.length := Nat.not_le.mp hshort
      refine ⟨hseek.trans hfill.kept, hstruck, ?_⟩
      rw [hfill.buffer, htslen]
      change (s.buffer.data ++ chunk).length < _
      rw [List.length_append]
      omega

theorem reads_read (payload : Bytes) :
    Reads view (read payload.length) (payload ++ CRLF) payload :=
  reads_of_post fun rest s h hu => read_post payload rest s h hu

/-- `purge` keeps every unread byte. -/
theorem purge_run (s : SocketBuffer) (hpos : s.buffer.pos ≤ s.buffer.data.length) :
    ∃ buffer, purge.run s = .ok () { s with buffer := buffer } ∧ buffer.pos ≤ buffer.data.length ∧
      unread { s with buffer := buffer } = s.unread := by
  by_cases hz : s.unreadBytes > 0
  · exact ⟨s.buffer, by simp [purge, hz], hpos, rfl⟩
  · have hz0 : s.unreadBytes = 0 := by omega
    have hle : s.buffer.data.length ≤ s.buffer.pos := Nat.sub_eq_zero_iff_le.mp hz0
    refine ⟨{ data := [], pos := 0 }, ?_, Nat.le_refl _, ?_⟩
    · simp [purge, hz0, ByteBuffer.truncate, ByteBuffer.seek]
    · simp [unread, List.drop_eq_nil_of_le hle]

theorem reads_purge : Reads view purge [] () := by
  intro s rest h hu
  obtain ⟨buffer, hrun, hpos, hunread⟩ := purge_run s h.pos
  exact ⟨_, hrun, ⟨h.readSize, hpos, h.quiet⟩, hunread.trans hu⟩

end RedisPy.SocketBuffer
