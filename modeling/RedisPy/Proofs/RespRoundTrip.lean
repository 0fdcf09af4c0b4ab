import RedisPy.Proofs.SocketBuffer
import RedisPy.Spec.Reply

/-! Decoding undoes encoding. `_read_response` consumes exactly the encoding of a
reply, however the stream was cut, because every header line and every payload
of it is one `readline` or one `read`; nesting is followed by induction on the
recursion bound, which the length of the encoding never exceeds. -/

namespace RedisPy

open Reading Raising SocketBuffer Reply

/-- A header line is one `readline`. -/
theorem reads_line {c : Char} {text : Bytes} (hc : ascii c ≠ LF) (ht : LF ∉ text) :
    Reads view SocketBuffer.readline (line c text) (ascii c :: text) :=
  have h : LF ∉ ascii c :: text := by simp [hc.symm, ht]
  reads_readline h

theorem length_line (c : Char) (text : Bytes) : (line c text).length = text.length + 3 := by
  simp [line, CRLF]

/-- An element's encoding fits in what its container's header leaves. -/
theorem length_encode_le_of_mem {x : Reply} {xs : List Reply} (h : x ∈ xs) :
    (encode x).length ≤ (encodeAll xs).length := by
  rw [encodeAll_eq_flatMap, List.flatMap_def]
  exact (List.sublist_flatten_of_mem (List.mem_map_of_mem h)).length_le

theorem length_pair_le_of_mem {p : Reply × Reply} {pairs : List (Reply × Reply)} (h : p ∈ pairs) :
    (encode p.1).length + (encode p.2).length ≤ (encodePairs pairs).length := by
  rw [encodePairs_eq_flatMap, List.flatMap_def, ← List.length_append]
  exact (List.sublist_flatten_of_mem
    (List.mem_map_of_mem (f := fun p : Reply × Reply => encode p.1 ++ encode p.2) h)).length_le

/-- A length is not the `-1` of a null. -/
theorem decimal_length_ne_null (n : Nat) : decimal n ≠ [ascii '-', ascii '1'] := by
  intro h
  have : int (decimal n) = int [ascii '-', ascii '1'] := congrArg int h
  rw [int_decimal, show int [ascii '-', ascii '1'] = .ok (-1) by decide] at this
  have := Except.ok.inj this
  omega

namespace RESP2Parser

variable (p : RESP2Parser)

theorem reads_encode (fuel : Nat) (v : Reply) (hv : v.valid .RESP2 = true)
    (hf : v.encode.length ≤ fuel) :
    Reads view (_readResponse p true fuel) v.encode v.value := by
  induction fuel generalizing v with
  | zero => cases v <;> simp [encode, blob, length_line] at hf
  | succ fuel ih =>
    cases v with
    | simple s =>
      have hs := (oneLine_iff s).mp hv
      exact (reads_line (by decide) hs.2).bind_pure rfl
    | error s =>
      rw [valid, Bool.and_eq_true] at hv
      have hs := (oneLine_iff s).mp hv.1
      refine (reads_line (by decide) hs.2).bind_pure ?_
      have he : (parseError (decodeReplace s)).isinstance .ConnectionError = false := by
        simpa [notConnectionError] using hv.2
      simp [he, value]
    | integer i =>
      refine (reads_line (by decide) (LF_not_mem_decimal i)).bind_pure ?_
      simp +decide [raising, value]
    | bulk b =>
      refine (reads_line (by decide) (LF_not_mem_decimal b.length)).bind ?_
      have hread := (reads_read b).bind_pure (f := fun b => pure (PyVal.bytes b)) rfl
      refine hread.congr ?_
      simp +decide [raising, _readResponse.decoded, decimal_length_ne_null]
    | nullBulk =>
      exact (reads_line (by decide) (LF_not_mem_decimal (-1))).bind_pure rfl
    | nullArray =>
      exact (reads_line (by decide) (LF_not_mem_decimal (-1))).bind_pure rfl
    | array xs =>
      have hall := (validAll_iff .RESP2 xs).mp hv
      have hlen : (encodeAll xs).length ≤ fuel := by
        rw [encode, List.length_append, length_line] at hf
        omega
      have helems := Reads.readMany encode value xs fun x hx =>
        ih x (hall x hx) ((length_encode_le_of_mem hx).trans hlen)
      rw [encode, value, encodeAll_eq_flatMap, values_eq_map]
      refine (reads_line (by decide) (LF_not_mem_decimal xs.length)).bind ?_
      refine (helems.bind_pure (f := fun vs => pure (PyVal.list vs)) rfl).congr ?_
      simp +decide [raising, _readResponse.decoded, decimal_length_ne_null]
    | _ => simp [valid] at hv

end RESP2Parser

namespace RESP3Parser

variable (p : RESP3Parser)

/-- The view of the buffer in the state that also logs push frames. -/
abbrev view3 : View UInt8 (SocketBuffer × List (PushHandler × PyVal)) := view.first _

/-- One pair of a map: the key, the value, and the assignment to the dictionary. -/
def readPair (fuel : Nat) (push_request : Bool) (items : List (PyVal × PyVal)) :
    M (List (PyVal × PyVal)) := do
  let key ← _readResponse p true fuel false
  let value ← _readResponse p true fuel push_request
  if key.hashable then return PyVal.setItem items key value
  else throw { cls := .TypeError, msg := "unhashable type" }

theorem reads_pair {fuel : Nat} {push_request : Bool} {k v : Reply} (hh : k.value.hashable = true)
    (hk : Reads view3 (_readResponse p true fuel false) k.encode k.value)
    (hv : Reads view3 (_readResponse p true fuel push_request) v.encode v.value)
    (items : List (PyVal × PyVal)) :
    Reads view3 (readPair p fuel push_request items) (k.encode ++ v.encode)
      (PyVal.setItem items k.value v.value) :=
  hk.bind (hv.bind_pure (by simp [hh]))

theorem reads_encode (fuel : Nat) (push_request : Bool) (v : Reply) (hv : v.valid .RESP3 = true)
    (hf : v.encode.length ≤ fuel) :
    Reads view3 (_readResponse p true fuel push_request) v.encode v.value := by
  induction fuel generalizing v push_request with
  | zero => cases v <;> simp [encode, blob, length_line] at hf
  | succ fuel ih =>
    -- the elements of an array or a set
    have helems : ∀ xs : List Reply, validAll .RESP3 xs = true → (encodeAll xs).length ≤ fuel →
        Reads view3 (readMany (_readResponse p true fuel false) xs.length) (encodeAll xs)
          (values xs) := by
      intro xs hall hlen
      rw [encodeAll_eq_flatMap, values_eq_map]
      exact Reads.readMany encode value xs fun x hx =>
        ih false x ((validAll_iff .RESP3 xs).mp hall x hx) ((length_encode_le_of_mem hx).trans hlen)
    -- a counted payload behind its header
    have hblob : ∀ b : Bytes, Reads view3 (first (SocketBuffer.read b.length)) (b ++ CRLF) b :=
      fun b => (reads_read b).first
    have hheader : ∀ {c : Char} {text : Bytes}, ascii c ≠ LF → LF ∉ text →
        Reads view3 (first SocketBuffer.readline) (line c text) (ascii c :: text) :=
      fun hc ht => (reads_line hc ht).first
    cases v with
    | simple s =>
      have hs := (oneLine_iff s).mp hv
      exact (hheader (by decide) hs.2).bind_pure rfl
    | error s =>
      rw [valid, Bool.and_eq_true] at hv
      have hs := (oneLine_iff s).mp hv.1
      refine (hheader (by decide) hs.2).bind_pure ?_
      have he : (parseError (decodeReplace s)).isinstance .ConnectionError = false := by
        simpa [notConnectionError] using hv.2
      simp +decide [he, value]
    | integer i =>
      refine (hheader (by decide) (LF_not_mem_decimal i)).bind_pure ?_
      simp +decide [raising, value]
    | bulk b =>
      refine (hheader (by decide) (LF_not_mem_decimal b.length)).bind ?_
      refine ((hblob b).bind_pure (f := fun b => pure (PyVal.bytes b)) rfl).congr ?_
      simp +decide [raising, _readResponse.decoded]
    | array xs =>
      rw [encode, List.length_append, length_line] at hf
      rw [encode, value]
      refine (hheader (by decide) (LF_not_mem_decimal xs.length)).bind ?_
      refine ((helems xs hv (by omega)).bind_pure (f := fun vs => pure (PyVal.list vs)) rfl).congr ?_
      simp +decide [raising]
    | null => exact (hheader (by decide) (by simp)).bind_pure rfl
    | boolean b =>
      cases b
      · exact (hheader (by decide) (by decide)).bind_pure rfl
      · exact (hheader (by decide) (by decide)).bind_pure rfl
    | bigNumber i =>
      refine (hheader (by decide) (LF_not_mem_decimal i)).bind_pure ?_
      simp +decide [raising, value]
    | verbatim format b =>
      have hlen : format.length = 3 := by simpa [valid] using hv
      have hdrop : (format ++ ascii ':' :: b).drop 4 = b := by
        rw [show 4 = format.length + 1 by rw [hlen], List.drop_length_add_append]
        rfl
      refine (hheader (by decide) (LF_not_mem_decimal _)).bind ?_
      refine ((hblob (format ++ ascii ':' :: b)).bind_pure
        (f := fun b => pure (PyVal.bytes (b.drop 4))) (by rw [hdrop]; rfl)).congr ?_
      simp +decide [raising, _readResponse.decoded]
    | blobError b =>
      have he : (parseError (decodeReplace b)).isinstance .ConnectionError = false := by
        simpa [valid, notConnectionError] using hv
      refine (hheader (by decide) (LF_not_mem_decimal b.length)).bind ?_
      refine ((hblob b).bind_pure (f := fun b =>
        let error := parseError (decodeReplace b)
        if error.isinstance .ConnectionError then throw error else pure (PyVal.exc error))
        (by simp [he, value])).congr ?_
      simp +decide [raising]
    | set xs =>
      have hall : validAll .RESP3 xs = true := by simpa [valid] using hv
      rw [encode, List.length_append, length_line] at hf
      rw [encode, value]
      refine (hheader (by decide) (LF_not_mem_decimal xs.length)).bind ?_
      refine ((helems xs hall (by omega)).bind_pure (f := fun vs => pure (PyVal.list vs)) rfl).congr ?_
      simp +decide [raising]
    | map pairs =>
      have hall : validPairs .RESP3 pairs = true := by simpa [valid] using hv
      have hpairs := (validPairs_iff .RESP3 pairs).mp hall
      rw [encode, List.length_append, length_line] at hf
      have hfold := @Reads.readFold _ _ _ _ view3 _ (readPair p fuel push_request)
        (fun q : Reply × Reply => q.1.encode ++ q.2.encode)
        (fun d q => PyVal.setItem d q.1.value q.2.value) pairs
        (fun q hq acc => by
          have hle := length_pair_le_of_mem hq
          obtain ⟨hk, hv, hh⟩ := hpairs q hq
          exact reads_pair p hh (ih false q.1 hk (by omega)) (ih push_request q.2 hv (by omega)) acc) []
      rw [encode, value, encodePairs_eq_flatMap, items_eq_map, ← foldl_setItem_eq_mapping, List.foldl_map]
      refine (hheader (by decide) (LF_not_mem_decimal pairs.length)).bind ?_
      refine (hfold.bind_pure (f := fun d => pure (PyVal.dict d)) rfl).congr ?_
      simp +decide [raising]
      rfl
    | nullBulk => simp [valid] at hv
    | nullArray => simp [valid] at hv

end RESP3Parser

theorem length_pendingBytes_le (sock : List RecvEvent) :
    (pendingBytes sock).length ≤ recvBound sock := by
  induction sock with
  | nil => exact Nat.zero_le _
  | cons e sock ih =>
    cases e with
    | data bytes =>
      rw [pendingBytes, recvBound, List.length_append]
      omega
    | raise e =>
      rw [pendingBytes, recvBound]
      omega

/-- The recursion bound that `read_response` starts with covers what is unread. -/
theorem length_unread_le_available (s : SocketBuffer) :
    s.unread.length ≤ s.available := by
  have := length_pendingBytes_le s.sock
  rw [unread, List.length_append, List.length_drop, SocketBuffer.available, unreadBytes]
  omega

theorem RESP2Parser.reads_readResponse (p : RESP2Parser) (v : Reply) (hv : v.valid .RESP2 = true) :
    Reads view (p.readResponse true) v.encode v.value := by
  intro s rest hs hu
  have hlen := length_unread_le_available s
  have hu' : s.unread = v.encode ++ rest := hu
  rw [hu', List.length_append] at hlen
  obtain ⟨s₁, h₁, hs₁, hu₁⟩ := p.reads_encode (s.available + 1) v hv (by omega) s rest hs hu
  obtain ⟨s₂, h₂, hs₂, hu₂⟩ := reads_purge s₁ rest hs₁ hu₁
  refine ⟨s₂, ?_, hs₂, hu₂⟩
  simp [readResponse, h₁, h₂]

theorem RESP3Parser.reads_readResponse (p : RESP3Parser) (push_request : Bool) (v : Reply)
    (hv : v.valid .RESP3 = true) :
    Reads view3 (p.readResponse true push_request) v.encode v.value := by
  intro s rest hs hu
  have hlen := length_unread_le_available s.1
  have hu' : s.1.unread = v.encode ++ rest := hu
  rw [hu', List.length_append] at hlen
  obtain ⟨s₁, h₁, hs₁, hu₁⟩ := p.reads_encode (s.1.available + 1) push_request v hv (by omega) s rest hs hu
  obtain ⟨s₂, h₂, hs₂, hu₂⟩ := (reads_purge.first (ω := List (PushHandler × PyVal))) s₁ rest hs₁ hu₁
  refine ⟨s₂, ?_, hs₂, hu₂⟩
  simp [readResponse, h₁, h₂]

/-- One `read_response` undoes the encoding of any reply: whatever is already
buffered, however the rest is cut into chunks, and whatever follows it, both
parsers return the value and leave exactly what follows unread. -/
theorem readResponse_undoes_encode (socket_read_size : Nat) (hsize : 1 ≤ socket_read_size)
    (buffer : ByteBuffer) (hpos : buffer.pos ≤ buffer.data.length)
    (chunks : List Bytes) (hchunks : ∀ c ∈ chunks, c ≠ []) (v : Reply) (rest : Bytes)
    (hcut : buffer.data.drop buffer.pos ++ chunks.flatten = v.encode ++ rest) :
    (v.valid .RESP2 = true → ∀ p : RESP2Parser,
      ∃ s', (p.readResponse true).run ⟨chunks.map .data, socket_read_size, buffer⟩ = .ok v.value s' ∧
        s'.unread = rest) ∧
    (v.valid .RESP3 = true → ∀ (p : RESP3Parser) (push_request : Bool) (log : List (PushHandler × PyVal)),
      ∃ s', (p.readResponse true push_request).run
          (⟨chunks.map .data, socket_read_size, buffer⟩, log) = .ok v.value s' ∧
        s'.1.unread = rest) := by
  have hpending : pendingBytes (chunks.map .data) = chunks.flatten := by
    clear hcut hchunks
    induction chunks with
    | nil => rfl
    | cons c chunks ih => simp [pendingBytes, ih]
  have hready : Ready ⟨chunks.map .data, socket_read_size, buffer⟩ := by
    refine ⟨hsize, hpos, fun e he => ?_⟩
    obtain ⟨c, hc, rfl⟩ := List.mem_map.mp he
    exact ⟨c, hchunks c hc, rfl⟩
  have hunread : unread ⟨chunks.map .data, socket_read_size, buffer⟩ = v.encode ++ rest := by
    rw [unread, hpending, hcut]
  constructor
  · intro hv p
    obtain ⟨s', hrun, -, hu⟩ := p.reads_readResponse v hv _ rest hready hunread
    exact ⟨s', hrun, hu⟩
  · intro hv p push_request log
    obtain ⟨s', hrun, -, hu⟩ := p.reads_readResponse push_request v hv (_, log) rest hready hunread
    exact ⟨s', hrun, hu⟩

/-- A nested reply cut between the two bytes of the line end inside a payload. -/
theorem readResponse_undoes_encode_cut :
    (∃ s', (RESP2Parser.readResponse ⟨⟨false, fun _ => .ok ""⟩⟩ true).run
        ⟨[.data [42, 50, 13, 10, 36, 52, 13, 10, 97, 13], .data [10, 98, 13, 10, 58, 45, 53, 13],
          .data [10, 43]], 7, {}⟩ = .ok (.list [.bytes [97, 13, 10, 98], .int (-5)]) s' ∧
      s'.unread = [43]) ∧
    ∃ s', (RESP3Parser.readResponse ⟨⟨false, fun _ => .ok ""⟩, fun _ => .ok .none, .ok, none⟩ true).run
        (⟨[.data [42, 50, 13, 10, 36, 52, 13, 10, 97, 13], .data [10, 98, 13, 10, 58, 45, 53, 13],
          .data [10, 43]], 7, {}⟩, []) = .ok (.list [.bytes [97, 13, 10, 98], .int (-5)]) s' ∧
      s'.1.unread = [43] := by
  have h := readResponse_undoes_encode 7 (by decide) {} (by decide)
    [[42, 50, 13, 10, 36, 52, 13, 10, 97, 13], [10, 98, 13, 10, 58, 45, 53, 13], [10, 43]]
    (by decide) (.array [.bulk [97, 13, 10, 98], .integer (-5)]) [43] (by decide)
  exact ⟨h.1 (by decide) _, h.2 (by decide) _ false []⟩

end RedisPy
