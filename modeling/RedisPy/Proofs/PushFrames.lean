import RedisPy.Proofs.Resumption

/-! Push frames among the replies of a RESP3 stream. A frame is handled as soon as it has been
read, but a call that is interrupted later on starts over from its first token. -/

namespace RedisPy

open TokenReader Raising

namespace RESP3Parser

/-- A push frame on the wire, and what it holds. -/
structure Frame where
  header : Bytes
  body : List (Token Bytes)
  content : List PyVal

def Frame.tokens (f : Frame) : List (Token Bytes) := .line (ascii '>' :: f.header) :: f.body

/-- What one call of `read_response` takes off the stream: the push frames, and what it
returns. With `push_request` that may be the one frame's own response. -/
structure Turn where
  frames : List Frame
  last : List (Token Bytes)
  value : PyVal

def Turn.tokens (t : Turn) : List (Token Bytes) := t.frames.flatMap Frame.tokens ++ t.last

def streamOf (turns : List Turn) : List (Token Bytes) := turns.flatMap Turn.tokens

/-- The frames of these turns. -/
def framesOf (turns : List Turn) : List (List PyVal) :=
  turns.flatMap fun t => t.frames.map Frame.content

variable (p : RESP3Parser) (disable_decoding push_request : Bool)

/-- The header is a number of elements, and the body is these elements, no push frames among
them. -/
def Frame.WellFormed (f : Frame) : Prop :=
  ∃ n k, int f.header = .ok n ∧
    Reader.Yields p.handled (Reader.many (reply p disable_decoding closedByServer k push_request) n.toNat)
      f.body f.content [] []

structure Turn.WellFormed (t : Turn) : Prop where
  frames : ∀ f ∈ t.frames, f.WellFormed p disable_decoding push_request
  last : ((push_request = false ∨ t.frames = []) ∧ ∃ k, Reader.Yields p.handled
      (reply p disable_decoding closedByServer k push_request) t.last t.value [] []) ∨
    (push_request = true ∧ t.last = [] ∧ ∃ f, t.frames = [f] ∧ p.handled f.content = .ok t.value)

/-- A handler is set for the frame, and returns. -/
def Answered (content : List PyVal) : Prop :=
  (∃ r, p.handled content = .ok r) ∧ (p.noted content).map Prod.snd = [.list content]

/-- Where an interruption strikes within a turn, it does so before its first frame is
complete. -/
def Spared (turns : List Turn) (os : List Nat) : Prop :=
  ∀ o ∈ os, ∀ before t after, turns = before ++ t :: after → span size (streamOf before) ≤ o →
    o < span size (streamOf before) + span size t.tokens →
    ∀ f, t.frames.head? = some f → o < span size (streamOf before) + span size f.tokens

variable {p disable_decoding push_request} {b : Exc}

theorem yields_deeper {k m : Nat} {ts rest : List (Token Bytes)} {a : PyVal} {xs : List (List PyVal)}
    {b' : Exc} (hy : Reader.Yields p.handled (reply p disable_decoding b' k push_request) ts a rest xs)
    (hm : ts.length ≤ m) :
    Reader.Yields p.handled (reply p disable_decoding b m push_request) ts a rest xs :=
  within_reply k m _ push_request hm _ _ _ _ (Nat.le_refl _) hy

theorem yields_many_deeper {k m n : Nat} {ts rest : List (Token Bytes)} {as : List PyVal}
    {xs : List (List PyVal)} {b' : Exc}
    (hy : Reader.Yields p.handled (Reader.many (reply p disable_decoding b' k push_request) n)
      ts as rest xs) (hm : ts.length ≤ m) :
    Reader.Yields p.handled (Reader.many (reply p disable_decoding b m push_request) n) ts as rest xs :=
  (within_reply k m _ push_request hm).many n _ _ _ _ (Nat.le_refl _) hy

/-- A frame is handled, and what follows it is read. -/
theorem yields_frame {f : Frame} (hf : f.WellFormed p disable_decoding push_request) {g a : PyVal}
    (hg : p.handled f.content = .ok g) {ts rest : List (Token Bytes)} {xs : List (List PyVal)} {m : Nat}
    (hm : (f.body ++ ts).length ≤ m)
    (hnext : Reader.Yields p.handled (if !push_request then reply p disable_decoding b m push_request
      else .ret g) ts a rest xs) :
    Reader.Yields p.handled (reply p disable_decoding b (m + 1) push_request) (f.tokens ++ ts) a rest
      (f.content :: xs) := by
  obtain ⟨n, k, hn, hbody⟩ := hf
  refine .line ?_
  change Reader.Yields p.handled ((Reader.ofExcept (int f.header)).bind _) (f.body ++ ts) a rest
    (f.content :: xs)
  rw [hn]
  exact (yields_many_deeper (hbody.append ts) hm).bind (.push hg hnext)

theorem yields_frames {fs : List Frame} (hfs : ∀ f ∈ fs, f.WellFormed p disable_decoding false)
    (hanswered : ∀ f ∈ fs, p.Answered f.content) {last rest : List (Token Bytes)} {a : PyVal} {k : Nat}
    {b' : Exc}
    (hlast : Reader.Yields p.handled (reply p disable_decoding b' k false) last a rest []) :
    ∃ m, Reader.Yields p.handled (reply p disable_decoding b m false)
      (fs.flatMap Frame.tokens ++ last) a rest (fs.map Frame.content) := by
  induction fs with
  | nil => exact ⟨_, yields_deeper hlast (Nat.le_refl _)⟩
  | cons f fs ih =>
    obtain ⟨m, hm⟩ := ih (fun g hg => hfs g (List.mem_cons_of_mem f hg))
      fun g hg => hanswered g (List.mem_cons_of_mem f hg)
    obtain ⟨g, hg⟩ := (hanswered f List.mem_cons_self).1
    refine ⟨(f.body ++ (fs.flatMap Frame.tokens ++ last)).length + 1, ?_⟩
    rw [List.flatMap_cons, List.append_assoc, List.map_cons]
    refine yields_frame (hfs f List.mem_cons_self) hg (Nat.le_refl _) ?_
    exact yields_deeper hm (List.suffix_append f.body _).length_le

theorem Turn.WellFormed.yields {t : Turn} (ht : t.WellFormed p disable_decoding push_request)
    (hanswered : ∀ f ∈ t.frames, p.Answered f.content) (rest : List (Token Bytes)) :
    ∃ m, Reader.Yields p.handled (reply p disable_decoding b m push_request) (t.tokens ++ rest) t.value
      rest (t.frames.map Frame.content) := by
  rcases ht.last with ⟨hplain, k, hlast⟩ | ⟨rfl, hlast, f, hf, hg⟩
  · have hlast' := hlast.append rest
    rw [List.nil_append] at hlast'
    rw [Turn.tokens, List.append_assoc]
    rcases hplain with rfl | hnone
    · exact yields_frames ht.frames hanswered hlast'
    · rw [hnone]
      exact ⟨_, yields_deeper hlast' (Nat.le_refl _)⟩
  · have hfw : f.WellFormed p disable_decoding true := ht.frames f (hf ▸ List.mem_cons_self)
    refine ⟨(f.body ++ rest).length + 1, ?_⟩
    rw [Turn.tokens, hf, hlast, List.append_nil, List.flatMap_cons, List.flatMap_nil, List.append_nil]
    exact yields_frame hfw hg (Nat.le_refl _) .ret

theorem stream_turns {turns : List Turn} (hturns : ∀ t ∈ turns, t.WellFormed p disable_decoding push_request)
    (hanswered : ∀ x ∈ framesOf turns, p.Answered x) :
    Stream p.handled (fun n => reply p disable_decoding b n push_request) (streamOf turns)
      (turns.map fun t => (t.value, t.frames.map Frame.content)) := by
  induction turns with
  | nil => exact .nil
  | cons t turns ih =>
    have hframes : ∀ f ∈ t.frames, p.Answered f.content := fun f hf =>
      hanswered _ (List.mem_append_left _ (List.mem_map_of_mem hf))
    obtain ⟨m, hm⟩ := (hturns t List.mem_cons_self).yields hframes (streamOf turns)
    exact .cons hm (ih (fun u hu => hturns u (List.mem_cons_of_mem t hu))
      fun x hx => hanswered x (List.mem_append_right _ hx))

/-- The stream is one of such turns, with interruptions that spare the handled frames. -/
def Safe (p : RESP3Parser) (disable_decoding push_request : Bool) (ts : List (Token Bytes))
    (os : List Nat) : Prop :=
  ∃ turns, (∀ t ∈ turns, t.WellFormed p disable_decoding push_request) ∧
    (∀ x ∈ framesOf turns, p.Answered x) ∧ ts = streamOf turns ∧ Spared turns os

theorem not_yields_nil {k : Nat} {a : PyVal} {rest : List (Token Bytes)} {xs : List (List PyVal)} :
    ¬ Reader.Yields p.handled (reply p disable_decoding b k push_request) [] a rest xs := by
  cases k <;> exact fun hy => nomatch hy

/-- What a call reads of a stream of turns is the first of them. -/
theorem Safe.first {ts rest : List (Token Bytes)} {os : List Nat} {k : Nat} {a : PyVal}
    {xs : List (List PyVal)} (hs : Safe p disable_decoding push_request ts os)
    (hy : Reader.Yields p.handled (reply p disable_decoding b k push_request) ts a rest xs) :
    ∃ t turns, (∀ u ∈ t :: turns, u.WellFormed p disable_decoding push_request) ∧
      (∀ x ∈ framesOf (t :: turns), p.Answered x) ∧ ts = t.tokens ++ rest ∧ rest = streamOf turns ∧
      xs = t.frames.map Frame.content ∧ Spared (t :: turns) os := by
  obtain ⟨turns, hturns, hanswered, rfl, hspared⟩ := hs
  cases turns with
  | nil => exact absurd hy not_yields_nil
  | cons t turns =>
    have hframes : ∀ f ∈ t.frames, p.Answered f.content := fun f hf =>
      hanswered _ (List.mem_append_left _ (List.mem_map_of_mem hf))
    obtain ⟨m, hm⟩ := (hturns t List.mem_cons_self).yields (b := b) hframes (streamOf turns)
    have h₁ := yields_deeper (b := b) hm (Nat.le_refl _)
    have h₂ := yields_deeper (b := b) hy (Nat.le_refl _)
    obtain ⟨-, hrest, hxs⟩ := h₁.unique h₂
    exact ⟨t, turns, hturns, hanswered, by rw [← hrest]; rfl, hrest.symm, hxs.symm, hspared⟩

/-- While the first frame is being read, none is handed over. -/
theorem handed_frame {f : Frame} (hf : f.WellFormed p disable_decoding push_request)
    {us rest used more : List (Token Bytes)} {t : Token Bytes} {k : Nat} {a : PyVal} {xs : List (List PyVal)}
    (hy : Reader.Yields p.handled (reply p disable_decoding b k push_request) (f.tokens ++ us) a rest xs)
    (hused : f.tokens ++ us = used ++ t :: more) (hlt : span size used < span size f.tokens) :
    (reply p disable_decoding b k push_request).handed p.handled used = [] := by
  cases k with
  | zero => exact nomatch hy
  | succ k =>
    cases used with
    | nil => rfl
    | cons u used =>
      obtain ⟨rfl, htail⟩ := List.cons.inj hused
      obtain ⟨n, k₀, hn, hbody⟩ := hf
      cases hy with
      | line hy =>
        change Reader.Yields p.handled ((Reader.ofExcept (int f.header)).bind _) (f.body ++ us) a rest xs at hy
        change Reader.handed p.handled ((Reader.ofExcept (int f.header)).bind _) used = []
        rw [hn] at hy ⊢
        change Reader.Yields p.handled
          ((Reader.many (reply p disable_decoding b k push_request) n.toNat).bind _) (f.body ++ us) a rest xs at hy
        change Reader.handed p.handled
          ((Reader.many (reply p disable_decoding b k push_request) n.toNat).bind _) used = []
        obtain ⟨as, mid, fs, gs, hmany, -, -⟩ := Reader.yields_bind hy
        have h₁ := yields_many_deeper (b := b) (hbody.append us) (Nat.le_refl _)
        have h₂ := yields_many_deeper (b := b) hmany (Nat.le_refl _)
        obtain ⟨-, hmid, hfs⟩ := h₁.unique h₂
        rw [← hfs, ← hmid, List.nil_append] at hmany
        have hshort : span size used < span size f.body := by
          rw [Frame.tokens, span_cons, span_cons] at hlt
          omega
        rcases List.append_eq_append_iff.mp htail with ⟨x, hx, -⟩ | ⟨x, hx, hx'⟩
        · rw [hx, span_append] at hshort
          omega
        · cases x with
          | nil =>
            rw [hx, List.append_nil] at hshort
            exact absurd hshort (Nat.lt_irrefl _)
          | cons v x =>
            obtain ⟨rfl, rfl⟩ := List.cons.inj hx'
            exact Reader.handed_bind hmany htail

theorem spares : Resumes.Spares size p.handled (fun n => reply p disable_decoding b n push_request)
    (Safe p disable_decoding push_request) where
  tail := by
    rintro ts o os ⟨turns, hturns, hanswered, hts, hspared⟩
    exact ⟨turns, hturns, hanswered, hts, fun o' ho' => hspared o' (List.mem_cons_of_mem o ho')⟩
  next := by
    intro ts used rest os n a xs hy hts hs
    obtain ⟨t, turns, hturns, hanswered, htokens, hrest, -, hspared⟩ := hs.first hy
    obtain rfl : used = t.tokens := List.append_cancel_right (hts.symm.trans htokens)
    refine ⟨turns, fun u hu => hturns u (List.mem_cons_of_mem t hu),
      fun x hx => hanswered x (List.mem_append_right _ hx), hrest, ?_⟩
    rintro o ho before u after rfl hle hlt f hf
    have hbefore : span size (streamOf (t :: before)) = span size t.tokens + span size (streamOf before) := by
      rw [streamOf, List.flatMap_cons, span_append]
      rfl
    have := hspared (o + span size t.tokens) (List.mem_map_of_mem ho) (t :: before) u after rfl
      (by omega) (by omega) f hf
    omega
  handed := by
    intro ts used u more rest o os k a xs hs hy hts hle hlt
    obtain ⟨t, turns, hturns, hanswered, htokens, hrest, hxs, hspared⟩ := hs.first hy
    have hwhole : t.tokens ++ rest = (used ++ u :: more) ++ rest := by
      rw [← htokens, hts, List.append_assoc]
      rfl
    have hlast : t.tokens = used ++ u :: more := List.append_cancel_right hwhole
    have hin : span size (used ++ [u]) ≤ span size t.tokens := by
      rw [hlast]
      simp only [span_append, span_cons, span_nil]
      omega
    have hspared := hspared o List.mem_cons_self [] t turns rfl (Nat.zero_le _)
      (by rw [streamOf, List.flatMap_nil, span_nil]; omega)
    cases hf : t.frames with
    | nil =>
      rw [hf, List.map_nil] at hxs
      exact Reader.handed_nil (hxs ▸ hy) hts
    | cons f fs =>
      have hlt' := hspared f (by rw [hf]; rfl)
      rw [streamOf, List.flatMap_nil, span_nil, Nat.zero_add] at hlt'
      have hframe : f.WellFormed p disable_decoding push_request :=
        (hturns t List.mem_cons_self).frames f (hf ▸ List.mem_cons_self)
      have hsplit : ts = f.tokens ++ (fs.flatMap Frame.tokens ++ t.last ++ rest) := by
        rw [htokens, Turn.tokens, hf, List.flatMap_cons]
        simp only [List.append_assoc]
      exact handed_frame hframe (hsplit ▸ hy) (hsplit.symm.trans hts) (Nat.lt_of_le_of_lt hle hlt')

/-- Every number of calls returns the values of so many turns, in order, has handed the frames
of these turns over once each, in order, to the handlers that are set for them, and no others;
and a number that makes up for the interruptions gets all of them. -/
def HandlesOnce {σ : Type} (p : RESP3Parser) (m : EStateM Exc (σ × List (PushHandler × PyVal)) PyVal)
    (s : σ) (turns : List Turn) (interruptions : Nat) : Prop :=
  ∀ n, ∃ j, (callMany m n (s, [])).1 = (turns.take j).map Turn.value ∧
    (callMany m n (s, [])).2.2 = (framesOf (turns.take j)).flatMap p.noted ∧
    (callMany m n (s, [])).2.2.map Prod.snd = (framesOf (turns.take j)).map .list ∧
    (turns.length + interruptions ≤ n → j = turns.length)

theorem map_noted {frames : List (List PyVal)} (h : ∀ x ∈ frames, p.Answered x) :
    (frames.flatMap p.noted).map Prod.snd = frames.map .list := by
  induction frames with
  | nil => rfl
  | cons x frames ih =>
    rw [List.flatMap_cons, List.map_append, ih fun y hy => h y (List.mem_cons_of_mem x hy),
      (h x List.mem_cons_self).2]
    rfl

theorem framesOf_take_subset (turns : List Turn) (j : Nat) : framesOf (turns.take j) ⊆ framesOf turns := by
  intro x hx
  obtain ⟨t, ht, hxt⟩ := List.mem_flatMap.mp hx
  exact List.mem_flatMap.mpr ⟨t, List.mem_of_mem_take ht, hxt⟩

theorem handlesOnce_of_resumes {σ : Type} {m : EStateM Exc (σ × List (PushHandler × PyVal)) PyVal}
    (V : Resumes m p.handled (fun n => reply p disable_decoding b n push_request) (PushHandler × PyVal))
    (hsize : V.size = size) (hlog : V.log = Prod.snd) (hnoted : V.noted = p.noted) {turns : List Turn}
    (hturns : ∀ t ∈ turns, t.WellFormed p disable_decoding push_request)
    (hanswered : ∀ x ∈ framesOf turns, p.Answered x) (hfit : ∀ t ∈ streamOf turns, V.Fit t) {s : σ}
    {os : List Nat} (hs : V.Idle (s, []) (streamOf turns) os) (hspared : Spared turns os) :
    HandlesOnce p m s turns os.length := by
  intro n
  obtain ⟨j, _, _, _, -, hvals, -, -, -, hhanded, hend⟩ :=
    V.callMany_post (Safe p disable_decoding push_request) (stream_turns hturns hanswered) hfit n hs
  have hframes : ((turns.map fun t => (t.value, t.frames.map Frame.content)).take j).flatMap Prod.snd =
      framesOf (turns.take j) := by
    rw [← List.map_take, List.flatMap_map]
    rfl
  have hhanded' := hhanded (hsize ▸ spares) ⟨turns, hturns, hanswered, rfl, hspared⟩
  rw [hlog, hnoted, hframes, List.nil_append] at hhanded'
  rw [← List.map_take, List.map_map] at hvals
  rw [List.length_map] at hend
  refine ⟨j, hvals, hhanded', ?_, fun hn => (hend hn).1⟩
  rw [hhanded']
  exact map_noted fun x hx => hanswered x (framesOf_take_subset turns j hx)

/-- Where every frame is answered by a handler, and the interruptions spare the frames that have
been handled, both parsers handle each frame once and in order, and return what the stream
holds besides; the asyncio one as long as the lines fit into its stream. -/
theorem handles_push_frames_once (p : RESP3Parser) (disable_decoding push_request : Bool)
    (turns : List Turn) (hturns : ∀ t ∈ turns, t.WellFormed p disable_decoding push_request)
    (hformed : ∀ t ∈ streamOf turns, wellFormed t) (hanswered : ∀ x ∈ framesOf turns, p.Answered x)
    (events : List RecvEvent) (hc : Carries events (wires (streamOf turns)))
    (hspared : Spared turns (SocketBuffer.strikes events)) :
    (∀ socket_read_size, 1 ≤ socket_read_size →
      HandlesOnce p (p.readResponse disable_decoding push_request) ⟨events, socket_read_size, {}⟩ turns
        (SocketBuffer.strikes events).length) ∧
    ((∀ t ∈ streamOf turns, AsyncRESPBase.Fits streamLimit t) →
      HandlesOnce p (AsyncRESP3Parser.readResponse p disable_decoding push_request)
        { _stream := { events := events } } turns (SocketBuffer.strikes events).length) := by
  constructor
  · intro socket_read_size hsize
    exact handlesOnce_of_resumes (p.resumes disable_decoding push_request) rfl rfl rfl hturns hanswered
      (fun _ _ => trivial) (SocketBuffer.idle_start hformed hc hsize) hspared
  · intro hfit
    exact handlesOnce_of_resumes (AsyncRESP3Parser.resumes p disable_decoding push_request streamLimit)
      rfl rfl rfl hturns hanswered hfit (AsyncRESPBase.idle_start hformed hc) hspared

/-- A parser whose handlers return what they get. -/
def echo : RESP3Parser := ⟨⟨false, fun _ => .ok ""⟩, fun _ => .ok .none, .ok, none⟩

/-- A frame of one simple string, and the reply behind it. -/
def pushThenStatus : Turn := ⟨[⟨[49], [.line [43, 120]], [.bytes [120]]⟩], [.line [43, 79]], .bytes [79]⟩

/-- An interruption within the frame does no harm. -/
theorem handles_interrupted_frame :
    HandlesOnce echo (echo.readResponse true false)
      ⟨[.data [62, 49, 13], .raise { cls := .SocketTimeout }, .data [10, 43, 120, 13, 10, 43, 79, 13, 10]], 4, {}⟩
      [pushThenStatus] 1 ∧
    HandlesOnce echo (AsyncRESP3Parser.readResponse echo true false)
      { _stream := { events := [.data [62, 49, 13], .raise { cls := .SocketTimeout },
          .data [10, 43, 120, 13, 10, 43, 79, 13, 10]] } } [pushThenStatus] 1 := by
  have hturns : ∀ t ∈ [pushThenStatus], t.WellFormed echo true false := by
    intro t ht
    obtain rfl := List.mem_singleton.mp ht
    refine ⟨fun f hf => ?_, .inl ⟨.inl rfl, 1, .line .ret⟩⟩
    obtain rfl := List.mem_singleton.mp hf
    exact ⟨1, 1, by rfl, .line .ret⟩
  have hanswered : ∀ x ∈ framesOf [pushThenStatus], echo.Answered x := by
    intro x hx
    obtain rfl : x = [.bytes [120]] := List.mem_singleton.mp hx
    exact ⟨⟨_, rfl⟩, rfl⟩
  have hspared : Spared [pushThenStatus] [3] := by
    intro o ho before t after hsplit hle hlt f hf
    obtain rfl := List.mem_singleton.mp ho
    cases before with
    | nil =>
      obtain ⟨rfl, -⟩ := List.cons.inj hsplit
      obtain rfl := Option.some.inj hf
      decide
    | cons u before =>
      have hlen := congrArg List.length (List.cons.inj hsplit).2
      simp at hlen
  have hc : Carries [.data [62, 49, 13], .raise { cls := .SocketTimeout },
      .data [10, 43, 120, 13, 10, 43, 79, 13, 10]] (wires (streamOf [pushThenStatus])) := by
    refine ⟨fun bytes hb => ?_, rfl⟩
    simp only [List.mem_cons, RecvEvent.data.injEq, reduceCtorEq, List.not_mem_nil, or_false, false_or] at hb
    rcases hb with rfl | rfl <;> exact List.cons_ne_nil _ _
  have h := handles_push_frames_once echo true false [pushThenStatus] hturns (by decide) hanswered _ hc hspared
  exact ⟨h.1 4 (by decide), h.2 (by decide)⟩

/-- One frame is not handled twice where each is handled once. -/
theorem not_handlesOnce_of_twice {σ : Type} {m : EStateM Exc (σ × List (PushHandler × PyVal)) PyVal} {s : σ}
    {n : Nat} (h : (callMany m n (s, [])).2.2.map Prod.fst = [.pubsub, .pubsub]) :
    ¬ HandlesOnce echo m s [pushThenStatus] 1 := by
  intro hm
  obtain ⟨j, -, hlog, -⟩ := hm n
  rw [hlog] at h
  cases j with
  | zero => exact nomatch h
  | succ j =>
    rw [List.take_succ_cons, List.take_nil] at h
    exact nomatch h

/-- An interruption behind the frame has both parsers handle it twice. -/
theorem not_handles_once_interrupted :
    Carries [.data [62, 49, 13, 10, 43, 120, 13, 10], .raise { cls := .SocketTimeout }, .data [43, 79, 13, 10]]
      (wires (streamOf [pushThenStatus])) ∧
    ¬ HandlesOnce echo (echo.readResponse true false)
      ⟨[.data [62, 49, 13, 10, 43, 120, 13, 10], .raise { cls := .SocketTimeout }, .data [43, 79, 13, 10]],
        4096, {}⟩ [pushThenStatus] 1 ∧
    ¬ HandlesOnce echo (AsyncRESP3Parser.readResponse echo true false)
      { _stream := { events := [.data [62, 49, 13, 10, 43, 120, 13, 10], .raise { cls := .SocketTimeout },
          .data [43, 79, 13, 10]] } } [pushThenStatus] 1 := by
  refine ⟨⟨fun bytes hb => ?_, rfl⟩, not_handlesOnce_of_twice (n := 2) (by decide +kernel),
    not_handlesOnce_of_twice (n := 2) (by decide +kernel)⟩
  simp only [List.mem_cons, RecvEvent.data.injEq, reduceCtorEq, List.not_mem_nil, or_false, false_or] at hb
  rcases hb with rfl | rfl <;> exact List.cons_ne_nil _ _

end RESP3Parser

end RedisPy
