import RedisPy.Proofs.SocketBuffer
import RedisPy.Spec.AsyncParsers

/-! What a read of an `asyncio.StreamReader` leaves behind. A wait that is interrupted leaves
every byte where it was; a line that is longer than the limit is dropped. -/

namespace RedisPy.StreamReader

open Raising SocketBuffer

/-- Everything that has not been read: what has arrived, and what will. -/
def unread (s : StreamReader) : Bytes := s._buffer ++ pendingBytes s.events

/-- How many unread bytes each interruption comes behind. -/
def strikesAt (s : StreamReader) : List Nat := (strikes s.events).map (· + s._buffer.length)

/-- A stream whose peer does not close it. -/
structure Live (s : StreamReader) : Prop where
  isOpen : Open s.events
  eof : s._eof = false

/-- `n` bytes have been taken off the unread ones. -/
structure Took (s s' : StreamReader) (n : Nat) (rest : Bytes) : Prop where
  live : Live s'
  limit : s'._limit = s._limit
  unread : s'.unread = rest
  strikes : strikesAt s = (strikesAt s').map (· + n)

/-- An interruption has struck before `n` bytes had arrived. -/
structure Broken (s s' : StreamReader) (n : Nat) : Prop where
  live : Live s'
  limit : s'._limit = s._limit
  unread : s'.unread = s.unread
  strikes : strikesAt s = s'._buffer.length :: strikesAt s'
  short : s'._buffer.length < n

/-- A wait brings the next chunk, or is interrupted. -/
theorem waitForData_post (s : StreamReader) (h : Live s) (hp : pendingBytes s.events ≠ []) :
    Post (waitForData.run s)
      (fun _ s' => Live s' ∧ s'._limit = s._limit ∧ s'.unread = s.unread ∧
        strikesAt s' = strikesAt s ∧ s'.events.length < s.events.length)
      (fun _ s' => Live s' ∧ s'._limit = s._limit ∧ s'.unread = s.unread ∧
        strikesAt s = s'._buffer.length :: strikesAt s' ∧ s'._buffer = s._buffer) := by
  obtain ⟨events, limit, buffer, eof⟩ := s
  obtain rfl : eof = false := h.eof
  cases events with
  | nil => exact absurd rfl hp
  | cons e rest =>
    cases e with
    | raise e =>
      refine ⟨⟨h.isOpen.tail, rfl⟩, rfl, rfl, ?_, rfl⟩
      rw [strikesAt, SocketBuffer.strikes, List.map_cons, Nat.zero_add]
      rfl
    | data bytes =>
      have hne : bytes ≠ [] := h.isOpen bytes List.mem_cons_self
      refine ⟨⟨h.isOpen.tail, ?_⟩, rfl, List.append_assoc _ _ _, ?_, Nat.lt_succ_self _⟩
      · simpa using hne
      · rw [strikesAt, strikesAt, SocketBuffer.strikes, List.map_map]
        refine congrArg (fun f : Nat → Nat => (strikes rest).map f) (funext fun o => ?_)
        change o + (buffer ++ bytes).length = o + bytes.length + buffer.length
        rw [List.length_append]
        omega

/-- What is read is cut off the front of the buffer. -/
theorem Took.of_drop {s : StreamReader} (h : Live s) {ts more : Bytes} (hb : s._buffer = ts ++ more)
    {rest : Bytes} (hu : s.unread = ts ++ rest) :
    Took s { s with _buffer := s._buffer.drop ts.length } ts.length rest := by
  refine ⟨⟨h.isOpen, h.eof⟩, rfl, ?_, ?_⟩
  · rw [StreamReader.unread, hb, List.append_assoc] at hu
    rw [StreamReader.unread, hb, List.drop_left]
    exact List.append_cancel_left hu
  · rw [strikesAt, strikesAt, List.map_map, hb, List.drop_left]
    refine congrArg (fun f : Nat → Nat => (SocketBuffer.strikes s.events).map f) (funext fun o => ?_)
    change o + (ts ++ more).length = o + more.length + ts.length
    rw [List.length_append]
    omega

theorem readlineLoop_post (text rest : Bytes) (ht : LF ∉ text) (fuel : Nat) (s : StreamReader)
    (h : Live s) (hu : s.unread = text ++ CRLF ++ rest) (hfuel : s.events.length < fuel) :
    Post ((readlineLoop fuel).run s)
      (fun line s' => line = text ++ CRLF ∧ text.length + 1 ≤ s._limit ∧
        Took s s' (text ++ CRLF).length rest)
      (fun _ s' => Broken s s' (text ++ CRLF).length ∨ ¬ text.length + 1 ≤ s._limit) := by
  have hlen : (text ++ CRLF).length = text.length + 2 := List.length_append
  have hcr : LF ∉ text ++ [CR] := by
    rw [List.mem_append, List.mem_singleton, not_or]
    exact ⟨ht, by decide⟩
  induction fuel generalizing s with
  | zero => omega
  | succ fuel ih =>
    have hu' : s._buffer ++ pendingBytes s.events = (text ++ [CR]) ++ LF :: rest := by
      simpa [unread, CRLF] using hu
    have hwhole : text ++ [CR] ++ [LF] = text ++ CRLF := by simp [CRLF]
    unfold readlineLoop
    simp only [EStateM.run_bind, EStateM.run_get]
    rcases cut_at_LF hcr hu' with ⟨hb, l, hl, hp⟩ | ⟨rest', hb, hrest⟩
    · have hshort := congrArg List.length hl
      simp only [List.length_append, List.length_cons, List.length_nil] at hshort
      rw [if_neg hb]
      by_cases hlong : s._buffer.length > s._limit
      · rw [if_pos hlong]
        exact .inr (by omega)
      rw [if_neg hlong, h.eof, if_neg Bool.false_ne_true]
      have hp' : pendingBytes s.events ≠ [] := by simp [hp]
      apply Post.bind ((waitForData_post s h hp').mono (fun _ _ h => h) ?_)
      · rintro _ s₁ ⟨hlive, hlimit, hunread, hstrikes, hevents⟩
        apply (ih s₁ hlive (hunread.trans hu) (by omega)).mono
        · rintro _ s' ⟨rfl, hfit, hlive', hlimit', hunread', hstrikes'⟩
          exact ⟨rfl, hlimit ▸ hfit, hlive', hlimit'.trans hlimit, hunread', hstrikes.symm.trans hstrikes'⟩
        · rintro _ s' (⟨hlive', hlimit', hunread', hstrikes', hshort'⟩ | hunfit)
          · exact .inl ⟨hlive', hlimit'.trans hlimit, hunread'.trans hunread, hstrikes.symm.trans hstrikes',
              hshort'⟩
          · exact .inr (hlimit ▸ hunfit)
      · rintro _ s' ⟨hlive, hlimit, hunread, hstrikes, hbuffer⟩
        exact .inl ⟨hlive, hlimit, hunread, hstrikes, by rw [hbuffer]; omega⟩
    · have hline : ByteBuffer.firstLine s._buffer = text ++ CRLF := by
        rw [hb, firstLine_append hcr, hwhole]
      rw [if_pos (by rw [hb]; simp)]
      simp only [hline, hlen, show text.length + 2 - 1 = text.length + 1 from rfl]
      by_cases hlong : text.length + 1 > s._limit
      · rw [EStateM.run_bind, EStateM.run_set, if_pos hlong]
        exact .inr (Nat.not_le.mpr hlong)
      · rw [EStateM.run_bind, EStateM.run_set, if_neg hlong, ← hlen]
        have hsplit : s._buffer = text ++ CRLF ++ rest' := by
          rw [hb, ← hwhole, List.append_assoc _ [LF]]
          rfl
        exact ⟨rfl, Nat.not_lt.mp hlong, Took.of_drop h hsplit hu⟩

/-- `readline` takes one line, unless the wait for it is interrupted or it is longer than the
limit. -/
theorem readline_post {text : Bytes} (ht : LF ∉ text) (rest : Bytes) (s : StreamReader) (h : Live s)
    (hu : s.unread = text ++ CRLF ++ rest) :
    Post (readline.run s)
      (fun line s' => line = text ++ CRLF ∧ text.length + 1 ≤ s._limit ∧
        Took s s' (text ++ CRLF).length rest)
      (fun _ s' => Broken s s' (text ++ CRLF).length ∨ ¬ text.length + 1 ≤ s._limit) :=
  Post.get_bind (readlineLoop_post text rest ht _ s h hu (Nat.lt_succ_self _))

theorem readexactlyLoop_post (ts rest : Bytes) (fuel : Nat) (s : StreamReader) (h : Live s)
    (hu : s.unread = ts ++ rest) (hfuel : s.events.length < fuel) :
    Post ((readexactlyLoop ts.length fuel).run s) (fun data s' => data = some ts ∧ Took s s' ts.length rest)
      (fun _ s' => Broken s s' ts.length) := by
  induction fuel generalizing s with
  | zero => omega
  | succ fuel ih =>
    unfold readexactlyLoop
    simp only [EStateM.run_bind, EStateM.run_get]
    rcases cut_at_end hu with ⟨more, hb, hrest⟩ | ⟨u, hu0, hts, hp⟩
    · rw [if_pos (by rw [hb, List.length_append]; exact Nat.le_add_right _ _), EStateM.run_bind,
        EStateM.run_set]
      refine ⟨?_, Took.of_drop h hb hu⟩
      rw [hb, List.take_left]
    · have hlen := congrArg List.length hts
      have hpos : 0 < u.length := List.length_pos_iff.mpr hu0
      rw [List.length_append] at hlen
      rw [if_neg (by omega), h.eof, if_neg Bool.false_ne_true]
      have hp' : pendingBytes s.events ≠ [] := by simp [hp, hu0]
      apply Post.bind ((waitForData_post s h hp').mono (fun _ _ h => h) ?_)
      · rintro _ s₁ ⟨hlive, hlimit, hunread, hstrikes, hevents⟩
        apply (ih s₁ hlive (hunread.trans hu) (by omega)).mono
        · rintro _ s' ⟨rfl, hlive', hlimit', hunread', hstrikes'⟩
          exact ⟨rfl, hlive', hlimit'.trans hlimit, hunread', hstrikes.symm.trans hstrikes'⟩
        · rintro _ s' ⟨hlive', hlimit', hunread', hstrikes', hshort⟩
          exact ⟨hlive', hlimit'.trans hlimit, hunread'.trans hunread, hstrikes.symm.trans hstrikes', hshort⟩
      · rintro _ s' ⟨hlive, hlimit, hunread, hstrikes, hbuffer⟩
        exact ⟨hlive, hlimit, hunread, hstrikes, by rw [hbuffer]; omega⟩

/-- `readexactly` takes as many bytes as it is asked for, unless the wait is interrupted. -/
theorem readexactly_post {ts : Bytes} {n : Int} (hn : n = ts.length) (rest : Bytes) (s : StreamReader)
    (h : Live s) (hu : s.unread = ts ++ rest) :
    Post ((readexactly n).run s) (fun data s' => data = some ts ∧ Took s s' ts.length rest)
      (fun _ s' => Broken s s' ts.length) := by
  subst hn
  refine Post.get_bind ?_
  rw [if_neg (by omega), Int.toNat_natCast]
  exact readexactlyLoop_post ts rest _ s h hu (Nat.lt_succ_self _)

/-- Where nothing will arrive any more, `readline` waits until it is interrupted. -/
theorem readline_end (s : StreamReader) (h : Live s) (hu : s.unread = []) :
    Post (readline.run s) (fun _ _ => False) (fun _ s' => Live s' ∧ s'._limit = s._limit ∧
      s'.unread = [] ∧ strikesAt s' = (strikesAt s).tail) := by
  obtain ⟨events, limit, buffer, eof⟩ := s
  obtain rfl : eof = false := h.eof
  obtain ⟨hb, hp⟩ := List.append_eq_nil_iff.mp hu
  obtain rfl : buffer = [] := hb
  cases events with
  | nil => exact ⟨h, rfl, rfl, rfl⟩
  | cons e rest =>
    cases e with
    | raise e => exact ⟨⟨h.isOpen.tail, rfl⟩, rfl, hp, rfl⟩
    | data bytes => exact absurd (List.append_eq_nil_iff.mp hp).1 (h.isOpen bytes List.mem_cons_self)

end RedisPy.StreamReader
