import Mathlib
import RedisPy.Library.Fallible
import RedisPy.Proofs.RespRoundTrip
import RedisPy.Spec.CommandPacking

/-! Where the chunks are cut does not show in the bytes that go out. They are the canonical
request exactly if every length that is declared is that of the bytes that follow. -/

namespace RedisPy

/-! ### Words -/

variable {sep : UInt8 → Bool}

theorem not_sep_of_mem_splitAt {b : UInt8} {bs word w : Bytes} (hw : w ∈ splitAt sep bs word)
    (hb : b ∈ w) (hword : ∀ b ∈ word, sep b = false) : sep b = false := by
  induction bs generalizing word with
  | nil =>
    unfold splitAt at hw
    split at hw
    · cases hw
    · exact hword b (List.mem_singleton.mp hw ▸ hb)
  | cons c bs ih =>
    unfold splitAt at hw
    split at hw
    · cases List.mem_append.mp hw with
      | inl hw =>
        split at hw
        · cases hw
        · exact hword b (List.mem_singleton.mp hw ▸ hb)
      | inr hw => exact ih hw (by simp)
    · rename_i hc
      apply ih hw
      intro d hd
      cases List.mem_append.mp hd with
      | inl hd => exact hword d hd
      | inr hd => simpa [List.mem_singleton.mp hd] using hc

/-- No byte but a separator is lost. -/
theorem exists_mem_splitAt {b : UInt8} {bs word : Bytes} (h : b ∈ word ∨ b ∈ bs ∧ sep b = false) :
    ∃ w ∈ splitAt sep bs word, b ∈ w := by
  induction bs generalizing word with
  | nil =>
    have hb : b ∈ word := by simpa using h
    unfold splitAt
    rw [if_neg (List.ne_nil_of_mem hb)]
    exact ⟨word, List.mem_singleton_self _, hb⟩
  | cons c bs ih =>
    unfold splitAt
    split
    · rename_i hc
      cases h with
      | inl hb =>
        rw [if_neg (List.ne_nil_of_mem hb)]
        exact ⟨word, by simp, hb⟩
      | inr h =>
        have hb : b ∈ bs := by
          cases List.mem_cons.mp h.1 with
          | inl hbc => simp [hbc, hc] at h
          | inr hb => exact hb
        have hrest : b ∈ ([] : Bytes) ∨ b ∈ bs ∧ sep b = false := .inr ⟨hb, h.2⟩
        obtain ⟨w, hw, hbw⟩ := ih hrest
        exact ⟨w, List.mem_append_right _ hw, hbw⟩
    · apply ih
      cases h with
      | inl hb => exact .inl (List.mem_append_left _ hb)
      | inr h =>
        cases List.mem_cons.mp h.1 with
        | inl hbc => exact .inl (by simp [hbc])
        | inr hb => exact .inr ⟨hb, h.2⟩

theorem splitAt_congr {sep' : UInt8 → Bool} {bs : Bytes} (h : ∀ b ∈ bs, sep b = sep' b) (word : Bytes) :
    splitAt sep bs word = splitAt sep' bs word := by
  induction bs generalizing word with
  | nil => rfl
  | cons c bs ih =>
    have hbs := ih fun b hb => h b (List.mem_cons_of_mem c hb)
    unfold splitAt
    rw [h c List.mem_cons_self]
    split
    · rw [hbs]
    · rw [hbs]

/-- Without separators there is one word. -/
theorem splitAt_of_none {bs : Bytes} (h : ∀ b ∈ bs, sep b = false) (word : Bytes) :
    splitAt sep bs word = if word ++ bs = [] then [] else [word ++ bs] := by
  induction bs generalizing word with
  | nil => rw [splitAt, List.append_nil]
  | cons c bs ih =>
    rw [splitAt, h c List.mem_cons_self, if_neg Bool.false_ne_true,
      ih fun b hb => h b (List.mem_cons_of_mem c hb), List.append_assoc]
    rfl

/-- Splitting at all blanks is splitting at spaces just if all blanks are spaces. -/
theorem splitSpace_eq_iff (bs : Bytes) :
    splitSpace bs = splitAt (· = ascii ' ') bs [] ↔ ∀ b ∈ bs, isSpace b = true → b = ascii ' ' := by
  constructor
  · intro h b hb hspace
    by_contra hne
    obtain ⟨w, hw, hbw⟩ : ∃ w ∈ splitAt (· = ascii ' ') bs [], b ∈ w :=
      exists_mem_splitAt (.inr ⟨hb, by simpa using hne⟩)
    rw [← h] at hw
    have := not_sep_of_mem_splitAt hw hbw (by simp)
    rw [hspace] at this
    cases this
  · intro h
    apply splitAt_congr
    intro b hb
    rw [Bool.eq_iff_iff, decide_eq_true_eq]
    constructor
    · exact h b hb
    · rintro rfl
      rfl

/-- Its only blanks are spaces; as bytes it may also do without a space, but not be empty. -/
def PlainName : CommandName → Prop
  | .str s => ∀ b ∈ encodeText s, isSpace b = true → b = ascii ' '
  | .bytes b => if ascii ' ' ∈ b then ∀ c ∈ b, isSpace c = true → c = ascii ' ' else b ≠ []

theorem commandWords_eq_iff (name : CommandName) :
    commandWords name = nameWords name ↔ PlainName name := by
  cases name with
  | str s => exact splitSpace_eq_iff (encodeText s)
  | bytes b =>
    simp only [commandWords, nameWords, PlainName, List.contains_iff_mem]
    by_cases h : ascii ' ' ∈ b
    · rw [if_pos h, if_pos h]
      exact splitSpace_eq_iff b
    · rw [if_neg h, if_neg h]
      have hnone : ∀ c ∈ b, decide (c = ascii ' ') = false := by
        intro c hc
        rw [decide_eq_false_iff_not]
        rintro rfl
        exact h hc
      rw [splitAt_of_none hnone, List.nil_append]
      split
      · rename_i hb
        simp [hb]
      · rename_i hb
        simp [hb]

/-! ### Bytes -/

/-- An argument as `pack` writes it: the length it declares, and its bytes. -/
def written (arg : Chunk) : Bytes := Reply.line '$' (decimal arg.len) ++ (arg.data ++ CRLF)

theorem sentBytes_append (chunks chunks' : List Chunk) :
    sentBytes (chunks ++ chunks') = sentBytes chunks ++ sentBytes chunks' :=
  List.flatMap_append

/-- The loop of `pack` writes one argument after the other. -/
theorem sentBytes_packLoop (buffer_cutoff : Int) (output : List Chunk) (buff : Bytes) (args : List Chunk) :
    sentBytes (packLoop buffer_cutoff output buff args) =
      sentBytes output ++ buff ++ args.flatMap written := by
  induction args generalizing output buff with
  | nil => simp [packLoop, sentBytes, Chunk.data]
  | cons arg args ih =>
    rw [packLoop]
    dsimp only
    split
    · rw [ih]
      simp [sentBytes, Chunk.data, written, Reply.line]
    · rw [ih]
      simp [written, Reply.line]

theorem sentBytes_flush (p : Packing) : sentBytes p.flush = sentBytes p.output ++ p.pieces.flatten := by
  unfold Packing.flush
  split
  · rename_i h
    simp [List.isEmpty_iff.mp h]
  · simp [sentBytes, Chunk.data]

theorem sentBytes_addChunk (buffer_cutoff : Int) (p : Packing) (chunk : Chunk) :
    sentBytes (p.addChunk buffer_cutoff chunk).flush = sentBytes p.flush ++ chunk.data := by
  have hdata : sentBytes [chunk] = chunk.data := List.append_nil _
  rw [sentBytes_flush, sentBytes_flush]
  unfold Packing.addChunk
  by_cases hlarge : (chunk.len : Int) > buffer_cutoff ∨ chunk.isView = true
  · simp only [if_pos hlarge, if_pos (Or.inr hlarge), sentBytes_append, sentBytes_flush, hdata,
      List.flatten_nil, List.append_nil]
  · simp only [if_neg hlarge]
    split
    · simp [sentBytes_flush]
    · simp

theorem sentBytes_addChunks (buffer_cutoff : Int) (p : Packing) (chunks : List Chunk) :
    sentBytes (chunks.foldl (Packing.addChunk buffer_cutoff) p).flush =
      sentBytes p.flush ++ sentBytes chunks := by
  induction chunks generalizing p with
  | nil => simp [sentBytes]
  | cons chunk chunks ih =>
    rw [List.foldl_cons, ih, sentBytes_addChunk, List.append_assoc]
    rfl

/-- `pack_commands` puts what the packer makes of the commands together. -/
theorem addCommands_spec (pack : Command → Except Exc (List Chunk)) (buffer_cutoff : Int)
    (commands : List Command) (p : Packing) :
    ((p.addCommands pack buffer_cutoff commands).map fun p => sentBytes p.flush) =
      (commands.mapM pack).map fun packed => sentBytes p.flush ++ packed.flatMap sentBytes := by
  induction commands generalizing p with
  | nil => simp [Packing.addCommands, pure, Except.pure, Except.map]
  | cons command commands ih =>
    rw [Packing.addCommands, List.mapM_cons]
    cases pack command with
    | error e => rfl
    | ok chunks =>
      simp only [ih, sentBytes_addChunks, bind, Except.bind]
      cases commands.mapM pack with
      | error e => rfl
      | ok packed => simp [pure, Except.pure, Except.map]

/-- What stands before the first `x` is the same. -/
theorem append_cons_inj {x : UInt8} {a b r r' : Bytes} (ha : x ∉ a) (hb : x ∉ b)
    (h : a ++ x :: r = b ++ x :: r') : a = b ∧ r = r' := by
  induction a generalizing b with
  | nil =>
    cases b with
    | nil => exact ⟨rfl, (List.cons.inj h).2⟩
    | cons c b => exact absurd (List.mem_cons.mpr (.inl (List.cons.inj h).1)) hb
  | cons d a ih =>
    cases b with
    | nil => exact absurd (List.mem_cons.mpr (.inl (List.cons.inj h).1.symm)) ha
    | cons c b =>
      obtain ⟨hdc, h⟩ := List.cons.inj h
      obtain ⟨hab, hr⟩ := ih (List.not_mem_of_not_mem_cons ha) (List.not_mem_of_not_mem_cons hb) h
      exact ⟨by rw [hdc, hab], hr⟩

theorem decimal_inj {i j : Int} (h : decimal i = decimal j) : i = j := by
  have := int_decimal i
  rw [h, int_decimal] at this
  exact (Except.ok.inj this).symm

/-- A header is read back, whatever follows. -/
theorem line_append_inj {c : Char} {m n : Nat} {r r' : Bytes}
    (h : Reply.line c (decimal m) ++ r = Reply.line c (decimal n) ++ r') : m = n ∧ r = r' := by
  have hLF : ∀ n : Nat, LF ∉ decimal n ++ [CR] := by
    intro n hmem
    cases List.mem_append.mp hmem with
    | inl hmem => exact LF_not_mem_decimal n hmem
    | inr hmem => cases List.mem_singleton.mp hmem
  have hsplit : ∀ (n : Nat) (r : Bytes), Reply.line c (decimal n) ++ r =
      ascii c :: ((decimal n ++ [CR]) ++ LF :: r) := by
    intro n r
    simp [Reply.line, CRLF]
  rw [hsplit, hsplit] at h
  obtain ⟨hdec, hr⟩ := append_cons_inj (hLF m) (hLF n) (List.cons.inj h).2
  exact ⟨Int.ofNat.inj (decimal_inj (List.append_cancel_right hdec)), hr⟩

/-- What is written is the canonical form of the words exactly if each argument is its word and
declares its length. -/
theorem written_append_eq_iff {args : List Chunk} {words : List Bytes} {r r' : Bytes}
    (h : List.Forall₂ (fun arg word => arg.data = word ∨ arg.len = arg.data.length) args words) :
    args.flatMap written ++ r = words.flatMap (Reply.blob '$') ++ r' ↔
      List.Forall₂ (fun arg word => arg.data = word ∧ arg.len = arg.data.length) args words ∧
        r = r' := by
  induction h with
  | nil => simp
  | @cons arg word args words harg hargs ih =>
    rw [List.forall₂_cons, List.flatMap_cons, List.flatMap_cons, written, Reply.blob]
    constructor
    · intro h
      simp only [List.append_assoc] at h
      obtain ⟨hlen, h⟩ := line_append_inj h
      have hboth : arg.data = word ∧ arg.len = arg.data.length := by
        cases harg with
        | inl hdata => exact ⟨hdata, by rw [hlen, hdata]⟩
        | inr hdata => exact ⟨(List.append_inj h (by rw [← hdata, hlen])).1, hdata⟩
      rw [hboth.1] at h
      have hrest := List.append_cancel_left (List.append_cancel_left h)
      obtain ⟨hall, hr⟩ := ih.mp hrest
      exact ⟨⟨hboth, hall⟩, hr⟩
    · rintro ⟨⟨⟨hdata, hlen⟩, hall⟩, rfl⟩
      have hrest := ih.mpr ⟨hall, rfl⟩
      rw [hlen, hdata]
      simp only [List.append_assoc]
      rw [hrest]

theorem encodeAll_bulk (words : List Bytes) :
    Reply.encodeAll (words.map .bulk) = words.flatMap (Reply.blob '$') := by
  induction words with
  | nil => rfl
  | cons word words ih => rw [List.map_cons, Reply.encodeAll, ih, Reply.encode]; rfl

/-- One command on the wire is the request of what it says exactly if its name splits into its
words and its arguments declare their lengths. -/
theorem command_append_eq_iff {split words : List Bytes} {args : List Chunk} {r r' : Bytes} :
    Reply.line '*' (decimal (split.map Chunk.bytes ++ args).length) ++
        (split.map Chunk.bytes ++ args).flatMap written ++ r =
      (request (words ++ args.map Chunk.data)).encode ++ r' ↔
    (split = words ∧ ∀ arg ∈ args, arg.len = arg.data.length) ∧ r = r' := by
  rw [request, Reply.encode, encodeAll_bulk]
  simp only [List.append_assoc, List.flatMap_append, List.length_append, List.length_map]
  have hargs : ∀ (p : Chunk → Bytes → Prop), (∀ arg ∈ args, p arg arg.data) →
      List.Forall₂ p args (args.map Chunk.data) := by
    intro p hp
    exact List.forall₂_map_right_iff.mpr (List.forall₂_same.mpr hp)
  have htail : args.flatMap written ++ r = (args.map Chunk.data).flatMap (Reply.blob '$') ++ r' ↔ _ :=
    written_append_eq_iff (hargs _ fun arg _ => .inl rfl)
  have hboth : ∀ {words : List Bytes}, split.length = words.length →
      (((split.map Chunk.bytes).flatMap written ++ (args.flatMap written ++ r) =
        words.flatMap (Reply.blob '$') ++ ((args.map Chunk.data).flatMap (Reply.blob '$') ++ r')) ↔
      (split = words ∧ ∀ arg ∈ args, arg.len = arg.data.length) ∧ r = r') := by
    intro words hlen
    have hsplit : List.Forall₂ (fun arg word => arg.data = word ∨ arg.len = arg.data.length)
        (split.map Chunk.bytes) words := by
      rw [List.forall₂_map_left_iff, List.forall₂_iff_zip]
      exact ⟨hlen, fun _ => .inr rfl⟩
    rw [written_append_eq_iff hsplit, htail, List.forall₂_map_left_iff, List.forall₂_map_right_iff,
      List.forall₂_same, and_assoc]
    refine and_congr ?_ (and_congr ?_ Iff.rfl)
    · simp only [Chunk.data, Chunk.len, and_true]
      rw [List.forall₂_eq_eq_eq]
    · simp
  constructor
  · intro h
    obtain ⟨hlen, h⟩ := line_append_inj h
    exact (hboth (Nat.add_right_cancel hlen)).mp h
  · intro h
    have h' := (hboth (congrArg List.length h.1.1)).mpr h
    rw [h', h.1.1]

/-! ### Commands -/

section Commands

open Fallible

variable (encodeStr : String → Except Exc Bytes)

/-- Every argument is of a type that can be sent, and its text is in the client's encoding. -/
def Encodes (command : Command) : Prop := ∃ args, command.2.mapM (encodeArg encodeStr) = .ok args

/-- The commands that are sent as they are meant: a memoryview has as many items as bytes. -/
def Sendable (command : Command) : Prop :=
  Encodes encodeStr command ∧ PlainName command.1 ∧
    ∀ len b, .memoryview len b ∈ command.2 → len = b.length

/-- The chunks are, put together, the requests of what the commands say. -/
def SaidCanonically (commands : List Command) (result : Except Exc (List Chunk)) : Prop :=
  ∃ chunks said, result = .ok chunks ∧ commands.mapM (saidBy encodeStr) = .ok said ∧
    sentBytes chunks = Reply.encodeAll (said.map request)

variable {encodeStr}

theorem mapM_bytes (words : List Bytes) :
    (words.map Arg.bytes).mapM (encodeArg encodeStr) = .ok (words.map Chunk.bytes) := by
  induction words with
  | nil => rfl
  | cons word words ih =>
    rw [List.map_cons, List.mapM_cons, ih]
    rfl

/-- The packing of one command. -/
theorem pack_of_encodes {command : Command} {args : List Chunk}
    (h : command.2.mapM (encodeArg encodeStr) = .ok args) (buffer_cutoff : Int) :
    ∃ chunks, pack encodeStr buffer_cutoff command = .ok chunks ∧ sentBytes chunks =
      Reply.line '*' (decimal ((commandWords command.1).map Chunk.bytes ++ args).length) ++
        ((commandWords command.1).map Chunk.bytes ++ args).flatMap written := by
  refine ⟨_, ?_, sentBytes_packLoop buffer_cutoff [] _ _⟩
  · rw [pack, List.mapM_append, mapM_bytes, h]
    rfl

theorem pack_of_not_encodes {command : Command} (h : ¬ Encodes encodeStr command)
    (buffer_cutoff : Int) : ∃ e, pack encodeStr buffer_cutoff command = .error e := by
  cases ha : command.2.mapM (encodeArg encodeStr) with
  | ok args => exact absurd ⟨args, ha⟩ h
  | error e =>
    refine ⟨e, ?_⟩
    rw [pack, List.mapM_append, mapM_bytes, ha]
    rfl

theorem len_encodeArg_iff {arg : Arg} {chunk : Chunk} (h : encodeArg encodeStr arg = .ok chunk) :
    chunk.len = chunk.data.length ↔ ∀ len b, arg = .memoryview len b → len = b.length := by
  cases arg with
  | memoryview len b =>
    cases h
    simp [Chunk.len, Chunk.data]
  | str s =>
    cases hs : encodeStr s with
    | error e =>
      rw [encodeArg, hs] at h
      cases h
    | ok b =>
      rw [encodeArg, hs] at h
      cases h
      exact iff_of_true rfl (by simp)
  | bool b => cases h
  | other typename => cases h
  | _ =>
    cases h
    exact iff_of_true rfl (by simp)

/-- What is encoded declares its length unless it is a memoryview of larger items. -/
theorem len_encoded_iff {args : List Arg} {encoded : List Chunk}
    (h : args.mapM (encodeArg encodeStr) = .ok encoded) :
    (∀ arg ∈ encoded, arg.len = arg.data.length) ↔
      ∀ len b, .memoryview len b ∈ args → len = b.length := by
  induction args generalizing encoded with
  | nil =>
    cases h
    simp
  | cons arg args ih =>
    obtain ⟨chunk, chunks, harg, hargs, rfl⟩ := mapM_cons_ok h
    rw [List.forall_mem_cons, len_encodeArg_iff harg, ih hargs]
    constructor
    · rintro ⟨hfirst, hrest⟩ len b hmem
      cases List.mem_cons.mp hmem with
      | inl hmem => exact hfirst len b hmem.symm
      | inr hmem => exact hrest len b hmem
    · intro hall
      exact ⟨fun len b harg => hall len b (harg ▸ List.mem_cons_self),
        fun len b hmem => hall len b (List.mem_cons_of_mem _ hmem)⟩

theorem saidBy_of_encodes {command : Command} {args : List Chunk}
    (h : command.2.mapM (encodeArg encodeStr) = .ok args) :
    saidBy encodeStr command = .ok (nameWords command.1 ++ args.map Chunk.data) := by
  rw [saidBy, h]
  rfl

/-- A list of packed commands is the list of their requests exactly if all are sendable. -/
theorem packed_append_eq_iff {buffer_cutoff : Int} {commands : List Command}
    {packed : List (List Chunk)} {said : List (List Bytes)}
    (hp : commands.mapM (pack encodeStr buffer_cutoff) = .ok packed)
    (hs : commands.mapM (saidBy encodeStr) = .ok said) {r r' : Bytes} :
    packed.flatMap sentBytes ++ r = Reply.encodeAll (said.map request) ++ r' ↔
      (∀ command ∈ commands, Sendable encodeStr command) ∧ r = r' := by
  induction commands generalizing packed said with
  | nil =>
    cases hp
    cases hs
    simp [Reply.encodeAll]
  | cons command commands ih =>
    obtain ⟨chunks, packed, hpack, hpacked, rfl⟩ := mapM_cons_ok hp
    obtain ⟨words, said, hsaid, hsaids, rfl⟩ := mapM_cons_ok hs
    have hencodes : Encodes encodeStr command := by
      by_contra hno
      obtain ⟨e, he⟩ := pack_of_not_encodes hno buffer_cutoff
      rw [hpack] at he
      cases he
    obtain ⟨args, hargs⟩ := id hencodes
    obtain ⟨_, hpack', hsent⟩ := pack_of_encodes hargs buffer_cutoff
    rw [hpack] at hpack'
    cases hpack'
    rw [saidBy_of_encodes hargs] at hsaid
    cases hsaid
    have hsendable : Sendable encodeStr command ↔ commandWords command.1 = nameWords command.1 ∧
        ∀ arg ∈ args, arg.len = arg.data.length := by
      rw [Sendable, ← commandWords_eq_iff, ← len_encoded_iff hargs]
      exact and_iff_right hencodes
    rw [List.flatMap_cons, List.map_cons, Reply.encodeAll, hsent, List.append_assoc _ _ r,
      List.append_assoc _ _ r', command_append_eq_iff, ih hpacked hsaids, ← hsendable, List.forall_mem_cons,
      and_assoc]

/-- The packer of a connection sends a list of commands as it is meant exactly if each is
sendable. -/
theorem saidCanonically_packCommands_iff (cutoff buffer_cutoff : Int) (commands : List Command) :
    SaidCanonically encodeStr commands
        (packCommands (pack encodeStr cutoff) buffer_cutoff commands) ↔
      ∀ command ∈ commands, Sendable encodeStr command := by
  have hspec := addCommands_spec (pack encodeStr cutoff) buffer_cutoff commands {}
  constructor
  · rintro ⟨chunks, said, hok, hsaid, hsent⟩
    unfold packCommands at hok
    cases hadd : Packing.addCommands (pack encodeStr cutoff) buffer_cutoff {} commands with
    | error e =>
      rw [hadd] at hok
      cases hok
    | ok p =>
      rw [hadd] at hok hspec
      cases hok
      cases hp : commands.mapM (pack encodeStr cutoff) with
      | error e =>
        rw [hp] at hspec
        cases hspec
      | ok packed =>
        rw [hp] at hspec
        have hbytes : sentBytes p.flush = [] ++ packed.flatMap sentBytes := Except.ok.inj hspec
        have hiff : packed.flatMap sentBytes ++ [] = Reply.encodeAll (said.map request) ++ [] ↔ _ :=
          packed_append_eq_iff hp hsaid
        rw [hbytes, List.nil_append] at hsent
        rw [hsent] at hiff
        exact (hiff.mp rfl).1
  · intro hall
    obtain ⟨packed, hp⟩ : ∃ packed, commands.mapM (pack encodeStr cutoff) = .ok packed := by
      refine exists_mapM_ok_iff.mpr fun command hc => ?_
      obtain ⟨args, hargs⟩ := (hall command hc).1
      obtain ⟨chunks, hpack, -⟩ := pack_of_encodes hargs cutoff
      exact ⟨chunks, hpack⟩
    obtain ⟨said, hs⟩ : ∃ said, commands.mapM (saidBy encodeStr) = .ok said := by
      refine exists_mapM_ok_iff.mpr fun command hc => ?_
      obtain ⟨args, hargs⟩ := (hall command hc).1
      exact ⟨_, saidBy_of_encodes hargs⟩
    rw [hp] at hspec
    cases hadd : Packing.addCommands (pack encodeStr cutoff) buffer_cutoff {} commands with
    | error e =>
      rw [hadd] at hspec
      cases hspec
    | ok p =>
      rw [hadd] at hspec
      have hbytes : sentBytes p.flush = [] ++ packed.flatMap sentBytes := Except.ok.inj hspec
      have hiff : packed.flatMap sentBytes ++ [] = Reply.encodeAll (said.map request) ++ [] ↔ _ :=
        packed_append_eq_iff hp hs
      have heq := hiff.mpr ⟨hall, rfl⟩
      rw [List.append_nil, List.append_nil] at heq
      exact ⟨p.flush, said, by rw [packCommands, hadd]; rfl, hs, by rw [hbytes, List.nil_append, heq]⟩

/-- So does the packing of a single one. -/
theorem saidCanonically_pack_iff (cutoff : Int) (command : Command) :
    SaidCanonically encodeStr [command] (pack encodeStr cutoff command) ↔
      Sendable encodeStr command := by
  have hmapM : ∀ {α β : Type} (f : α → Except Exc β) (x : α) (y : β), f x = .ok y →
      [x].mapM f = .ok [y] := by
    intro α β f x y h
    rw [List.mapM_cons, h]
    rfl
  constructor
  · rintro ⟨chunks, said, hpack, hsaid, hsent⟩
    have hiff : [chunks].flatMap sentBytes ++ [] = Reply.encodeAll (said.map request) ++ [] ↔ _ :=
      packed_append_eq_iff (hmapM _ _ _ hpack) hsaid
    have heq : [chunks].flatMap sentBytes = Reply.encodeAll (said.map request) := by
      rw [← hsent]
      exact List.append_nil _
    exact (hiff.mp (by rw [heq])).1 command List.mem_cons_self
  · intro h
    obtain ⟨args, hargs⟩ := h.1
    obtain ⟨chunks, hpack, -⟩ := pack_of_encodes hargs cutoff
    have hsaid := hmapM _ _ _ (saidBy_of_encodes hargs)
    have heq := (packed_append_eq_iff (r := []) (hmapM _ _ _ hpack) hsaid).mpr ⟨by simpa using h, rfl⟩
    refine ⟨chunks, _, hpack, hsaid, ?_⟩
    simpa using heq

end Commands

open Reading SocketBuffer in
/-- The parser of the other side reads the words back. -/
theorem reads_requests (p : RESP2Parser) (said : List (List Bytes)) :
    Reads view (readMany (p.readResponse true) said.length) (Reply.encodeAll (said.map request))
      (said.map fun words => .list (words.map .bytes)) := by
  have hvalid : ∀ words : List Bytes, (request words).valid .RESP2 = true := by
    intro words
    rw [request, Reply.valid]
    induction words with
    | nil => rfl
    | cons word words ih => simpa [Reply.validAll, Reply.valid] using ih
  have hvalue : ∀ words : List Bytes, (request words).value = .list (words.map .bytes) := by
    intro words
    rw [request, Reply.value]
    congr 1
    induction words with
    | nil => rfl
    | cons word words ih => rw [List.map_cons, Reply.values, ih, Reply.value, List.map_cons]
  have hencode : Reply.encodeAll (said.map request) = said.flatMap fun words => (request words).encode := by
    induction said with
    | nil => rfl
    | cons words said ih => rw [List.map_cons, Reply.encodeAll, ih, List.flatMap_cons]
  rw [hencode]
  refine Reads.readMany _ _ said fun words _ => ?_
  rw [← hvalue]
  exact p.reads_readResponse _ (hvalid words)

open Reading SocketBuffer in
/-- What goes out is the canonical form of what the commands say, which a parser reads back,
exactly if all of them are sendable: for single commands and for lists, in both files alike. -/
theorem packing_canonical_iff (encodeStr : String → Except Exc Bytes) (cutoff buffer_cutoff : Int) :
    (∀ command, SaidCanonically encodeStr [command] (pack encodeStr cutoff command) ↔
      Sendable encodeStr command) ∧
    (∀ commands, SaidCanonically encodeStr commands
        (packCommands (pack encodeStr cutoff) buffer_cutoff commands) ↔
      ∀ command ∈ commands, Sendable encodeStr command) ∧
    (∀ command, asyncPackCommand encodeStr cutoff command = pack encodeStr cutoff command) ∧
    (∀ commands, packCommands (asyncPackCommand encodeStr cutoff) buffer_cutoff commands =
      packCommands (pack encodeStr cutoff) buffer_cutoff commands) ∧
    ∀ (p : RESP2Parser) (said : List (List Bytes)),
      Reads view (readMany (p.readResponse true) said.length) (Reply.encodeAll (said.map request))
        (said.map fun words => .list (words.map .bytes)) :=
  ⟨saidCanonically_pack_iff cutoff, saidCanonically_packCommands_iff cutoff buffer_cutoff,
    fun _ => rfl, fun _ => rfl, reads_requests⟩

/-- A memoryview of three 16-bit items has a length of three and six bytes. -/
theorem memoryview_declares_items :
    let command : Command := (.str "SET", [.str "k", .memoryview 3 [1, 0, 2, 0, 3, 0]])
    let encodeStr : String → Except Exc Bytes := fun s => .ok (encodeText s)
    (pack encodeStr 6000 command).map sentBytes =
        .ok (encodeText "*3\r\n$3\r\nSET\r\n$1\r\nk\r\n$3\r\n" ++ [1, 0, 2, 0, 3, 0] ++ CRLF) ∧
      ¬ SaidCanonically encodeStr [command] (pack encodeStr 6000 command) := by
  intro command encodeStr
  refine ⟨by decide, fun h => ?_⟩
  have hsendable := (saidCanonically_pack_iff 6000 command).mp h
  cases hsendable.2.2 3 [1, 0, 2, 0, 3, 0] (by decide)

end RedisPy
