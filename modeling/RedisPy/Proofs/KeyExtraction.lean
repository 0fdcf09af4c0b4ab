import RedisPy.Proofs.CommandRouting
import RedisPy.Proofs.KeySelection
import Mathlib.Data.List.Nodup

/-! When both commands parsers find the keys of a command where the server's table has them,
however the name of the command is written. A name that is not in the table yet is looked up
again after the table has been read anew, but the arguments are not split then; and what the
server says of the keys of a pubsub command is not read. -/

namespace RedisPy

namespace CommandRouting

/-- A commands parser with the tables that a server sends: no name has a blank in it, and no
two subcommands have one name. -/
structure TableParser extends CommandsParser where
  no_blank : ∀ name, ' ' ∈ name → commands name = none
  subcommands_nodup : ∀ name info, commands name = some info ∨ refreshed name = some info →
    ∀ subs ∈ info.subcommands, (subs.map Prod.fst).Nodup

/-- The name of a command, of one word or two. -/
structure CommandName where
  word : Chars
  sub : Option Chars
  word_word : IsWord word
  sub_word : ∀ w ∈ sub, IsWord w

/-- The words of a name, as arguments. -/
def CommandName.words (n : CommandName) : List Arg := .str n.word :: n.sub.toList.map .str

/-- `get_keys` of a command: its words are arguments, or one string. -/
def extracted (asyncio : Bool) (p : TableParser) (n : CommandName) (joined : Bool) (ops : List Arg) :
    Except Exc (Option (List Arg)) :=
  match n.sub with
  | none => getKeys asyncio p.toCommandsParser n.word ops
  | some w =>
    if joined then getKeys asyncio p.toCommandsParser (n.word ++ ' ' :: w) ops
    else getKeys asyncio p.toCommandsParser n.word (.str w :: ops)

/-- What the table says of a command, in the end. -/
def found (p : TableParser) (n : CommandName) : Option CommandInfo :=
  (p.commands (lower n.word)).or (p.refreshed (lower n.word))

def CommandInfo.movable (info : CommandInfo) : Bool := info.flags.contains "movablekeys"

def CommandInfo.pubsub (info : CommandInfo) : Bool :=
  info.flags.contains "pubsub" || info.name == "pubsub".toList

/-- The fixed positions of the keys of a command or a subcommand, whose name is in lower case in
the table or never found. -/
def fixedPositions (info : CommandInfo) (n : CommandName) : Option KeyPositions :=
  if info.movable then none
  else if info.positions ≠ ⟨0, 0, 0⟩ then some info.positions
  else n.sub.bind fun w => info.subcommands.bind fun subs =>
    (subs.find? fun s => s.1 == lower n.word ++ '|' :: lower w).map Prod.snd

/-- Both parsers return the same, and the keys where the positions are fixed. -/
def Extracts (p : TableParser) (n : CommandName) (joined : Bool) : Prop :=
  (∀ ops, extracted false p n joined ops = extracted true p n joined ops) ∧
  ∀ info, found p n = some info → ∀ q, fixedPositions info n = some q →
    ∀ ops, Selects q n.words.length (n.words ++ ops) → ∀ asyncio,
      extracted asyncio p n joined ops = .ok (some (selected q (n.words ++ ops)))

/-- The name is written as one string, and its first word is not in the table yet. -/
def Unsplit (p : TableParser) (n : CommandName) (joined : Bool) : Prop :=
  joined = true ∧ n.sub ≠ none ∧ p.commands (lower n.word) = none

/-- An error of the server that is taken to say that the command has no keys. -/
def SaysNoKeys (e : Exc) : Prop :=
  e.isinstance .ResponseError ∧ (e.msg.contains "Invalid arguments" ∨
    e.msg.contains "The command has no key arguments")

/-- Two replies to `COMMAND GETKEYS` that say the same. -/
inductive SameReply : Except Exc (List Arg) → Except Exc (List Arg) → Prop where
  | same (reply : Except Exc (List Arg)) : SameReply reply reply
  | none {e e' : Exc} (h : SaysNoKeys e) (h' : SaysNoKeys e') : SameReply (.error e) (.error e')

/-- What it takes for the keys to be found. -/
structure Findable (p : TableParser) (n : CommandName) (joined : Bool) (info : CommandInfo) : Prop where
  /-- The server says the same of the keys when the name is not split. -/
  movable : info.movable = true → Unsplit p n joined → ∀ w ∈ n.sub, ∀ ops, ops ≠ [] →
    SameReply (p.getkeys (n.words ++ ops)) (p.getkeys (.str (n.word ++ ' ' :: w) :: ops))
  fixed : ∀ q, fixedPositions info n = some q → Fits q n.words.length →
    ¬ Unsplit p n joined ∧ info.pubsub = false

/-- A name in letters of any case. -/
inductive CommandName.Written (n : CommandName) : List Arg → Prop where
  | one {s : Chars} (hn : n.sub = none) (hs : SameWord s n.word) : n.Written [.str s]
  | two {s w w' : Chars} (hn : n.sub = some w) (hs : SameWord s n.word) (hw : SameWord w' w) :
    n.Written [.str s, .str w']

/-- The arguments that stand for the name once the command is found. -/
def CommandName.resolved (n : CommandName) (p : TableParser) (joined : Bool) : List Arg :=
  match n.sub with
  | none => [.str n.word]
  | some w =>
    if joined then
      if (p.commands (lower n.word)).isSome then [.str (lower n.word), .str (lower w)]
      else [.str (n.word ++ ' ' :: w)]
    else [.str n.word, .str w]

section Calls

variable {p : TableParser} {n : CommandName} {info : CommandInfo} {joined : Bool}

/-- A first word by itself. -/
theorem getKeys_word (asyncio : Bool) (hf : found p n = some info) {args : List Arg} (hne : args ≠ []) :
    getKeys asyncio p.toCommandsParser n.word args =
      keysOf asyncio p.toCommandsParser (lower n.word) info (.str n.word :: args) := by
  have hwords := (isWord_lower_iff.mpr n.word_word).words
  have hargs : args.isEmpty = false := by simpa using hne
  rw [found] at hf
  cases hc : p.commands (lower n.word) with
  | some info' =>
    rw [hc] at hf
    cases hf
    simp [getKeys, hargs, hc]
  | none =>
    rw [hc, Option.none_or] at hf
    simp [getKeys, hargs, hc, hwords, hf]

variable {w : Chars}

theorem words_lower_joined (hw : n.sub = some w) :
    Splitting.words isSpaceChar (lower (n.word ++ ' ' :: w)) = [lower n.word, lower w] := by
  rw [lower_append, lower_space]
  exact (isWord_lower_iff.mpr n.word_word).words_joined (isWord_lower_iff.mpr (n.sub_word w hw))

theorem no_joined (p : TableParser) (n : CommandName) (w : Chars) :
    p.commands (lower (n.word ++ ' ' :: w)) = none := by
  refine p.no_blank _ ?_
  rw [lower_append, lower_space]
  simp

/-- A name of two words as one string, when its first word is in the table. -/
theorem getKeys_joined_known (asyncio : Bool) (hw : n.sub = some w)
    (hc : p.commands (lower n.word) = some info) {ops : List Arg} (hne : ops ≠ []) :
    getKeys asyncio p.toCommandsParser (n.word ++ ' ' :: w) ops =
      keysOf asyncio p.toCommandsParser (lower n.word) info
        (.str (lower n.word) :: .str (lower w) :: ops) := by
  have hargs : ops.isEmpty = false := by simpa using hne
  simp [getKeys, hargs, no_joined, words_lower_joined hw, hc]

/-- And when it is not: the arguments stay as they are. -/
theorem getKeys_joined_unknown (asyncio : Bool) (hw : n.sub = some w)
    (hc : p.commands (lower n.word) = none) (hr : p.refreshed (lower n.word) = some info)
    {ops : List Arg} (hne : ops ≠ []) :
    getKeys asyncio p.toCommandsParser (n.word ++ ' ' :: w) ops =
      keysOf asyncio p.toCommandsParser (lower n.word) info (.str (n.word ++ ' ' :: w) :: ops) := by
  have hargs : ops.isEmpty = false := by simpa using hne
  simp [getKeys, hargs, no_joined, words_lower_joined hw, hc, hr]

/-- The parsers differ in nothing but the request for movable keys. -/
theorem keysOf_asyncio (hm : info.movable = false) (asyncio : Bool) (p : CommandsParser) (name : Chars)
    (args : List Arg) : keysOf asyncio p name info args = keysOf true p name info args := by
  have hmove : info.flags.contains "movablekeys" = false := hm
  simp only [keysOf, hmove]
  rfl

/-- What is left of `get_keys` for fixed positions. -/
theorem keysOf_fixed (hm : info.movable = false) (hb : info.pubsub = false) (asyncio : Bool)
    {name : Chars} {args : List Arg} {q : KeyPositions} (hq : keyPositions name info args = .ok (some q)) :
    keysOf asyncio p.toCommandsParser name info args = (keysAt q args).map some := by
  have hmove : info.flags.contains "movablekeys" = false := hm
  have hpub : (info.flags.contains "pubsub" || info.name == "pubsub".toList) = false := hb
  simp only [keysOf, hmove, hpub, hq, bind, Except.bind]
  cases keysAt q args <;> rfl

theorem keysOf_error (hm : info.movable = false) (hb : info.pubsub = false) {asyncio : Bool}
    {name : Chars} {args : List Arg} {e : Exc} (hq : keyPositions name info args = .error e) :
    keysOf asyncio p.toCommandsParser name info args = .error e := by
  have hmove : info.flags.contains "movablekeys" = false := hm
  have hpub : (info.flags.contains "pubsub" || info.name == "pubsub".toList) = false := hb
  simp only [keysOf, hmove, hpub, hq, bind, Except.bind]
  rfl

theorem keysOf_pubsub (hm : info.movable = false) (hb : info.pubsub = true) (asyncio : Bool)
    (name : Chars) (args : List Arg) :
    keysOf asyncio p.toCommandsParser name info args = getPubsubKeys args := by
  have hmove : info.flags.contains "movablekeys" = false := hm
  have hpub : (info.flags.contains "pubsub" || info.name == "pubsub".toList) = true := hb
  simp only [keysOf, hmove, hpub]
  rfl

/-! ### The name of the command -/

theorem resolved_written (h : ¬ Unsplit p n joined) : n.Written (n.resolved p joined) := by
  cases hn : n.sub with
  | none =>
    have hresolved : n.resolved p joined = [.str n.word] := by simp [CommandName.resolved, hn]
    rw [hresolved]
    exact .one hn (sameWord_refl _)
  | some w =>
    cases joined with
    | false =>
      have hresolved : n.resolved p false = [.str n.word, .str w] := by
        simp [CommandName.resolved, hn]
      rw [hresolved]
      exact .two hn (sameWord_refl _) (sameWord_refl _)
    | true =>
      have hc : (p.commands (lower n.word)).isSome = true := by
        rw [Option.isSome_iff_ne_none]
        exact fun hnone => h ⟨rfl, by simp [hn], hnone⟩
      have hresolved : n.resolved p true = [.str (lower n.word), .str (lower w)] := by
        simp [CommandName.resolved, hn, hc]
      rw [hresolved]
      exact .two hn (sameWord_lower _) (sameWord_lower _)

theorem resolved_unsplit (h : Unsplit p n joined) :
    ∃ w, n.sub = some w ∧ n.resolved p joined = [.str (n.word ++ ' ' :: w)] := by
  obtain ⟨hj, hsub, hc⟩ := h
  obtain ⟨w, hw⟩ := Option.ne_none_iff_exists'.mp hsub
  exact ⟨w, hw, by simp [CommandName.resolved, hw, hj, hc]⟩

/-- `get_keys` once the command is found, in every spelling. -/
theorem extracted_eq (asyncio : Bool) (hf : found p n = some info) {ops : List Arg} (hne : ops ≠ []) :
    extracted asyncio p n joined ops =
      keysOf asyncio p.toCommandsParser (lower n.word) info (n.resolved p joined ++ ops) := by
  cases hn : n.sub with
  | none =>
    simp only [extracted, CommandName.resolved, hn]
    exact getKeys_word asyncio hf hne
  | some w =>
    cases joined with
    | false =>
      simp only [extracted, CommandName.resolved, hn]
      exact getKeys_word asyncio hf (List.cons_ne_nil _ _)
    | true =>
      simp only [extracted, CommandName.resolved, hn, if_true]
      cases hc : p.commands (lower n.word) with
      | some info' =>
        obtain rfl : info' = info := by simpa [found, hc] using hf
        exact getKeys_joined_known asyncio hn hc hne
      | none =>
        have hr : p.refreshed (lower n.word) = some info := by simpa [found, hc] using hf
        exact getKeys_joined_unknown asyncio hn hc hr hne

/-! ### A name of whole words -/

section Written

variable {name : List Arg}

theorem CommandName.Written.length (h : n.Written name) : name.length = n.words.length := by
  cases h with
  | one hn => simp [CommandName.words, hn]
  | two hn => simp [CommandName.words, hn]

theorem find?_reverse_of_nodup {subs : List (Chars × KeyPositions)} (hnd : (subs.map Prod.fst).Nodup)
    (x : Chars) : (subs.reverse.find? fun s => s.1 == x) = subs.find? fun s => s.1 == x := by
  cases hf : subs.find? fun s => s.1 == x with
  | none =>
    rw [List.find?_eq_none] at hf ⊢
    exact fun s hs => hf s (List.mem_reverse.mp hs)
  | some s =>
    have hs := List.mem_of_find?_eq_some hf
    have hx := List.find?_some hf
    cases hr : subs.reverse.find? fun s => s.1 == x with
    | none => exact absurd hx (List.find?_eq_none.mp hr s (List.mem_reverse.mpr hs))
    | some r =>
      have hr' := List.mem_reverse.mp (List.mem_of_find?_eq_some hr)
      have hx' := List.find?_some hr
      have hname : r.1 = s.1 := (eq_of_beq hx').trans (eq_of_beq hx).symm
      rw [List.inj_on_of_nodup_map hnd hr' hs hname]

theorem subcommands_nodup (hf : found p n = some info) :
    ∀ subs ∈ info.subcommands, (subs.map Prod.fst).Nodup := by
  rw [found, Option.or_eq_some_iff] at hf
  exact p.subcommands_nodup _ info (hf.imp_right And.right)

/-- Where fixed positions come from. -/
theorem fixed_cases {q : KeyPositions} (hq : fixedPositions info n = some q) :
    info.movable = false ∧
      ((info.positions ≠ ⟨0, 0, 0⟩ ∧ info.positions = q) ∨
        (info.positions = ⟨0, 0, 0⟩ ∧ ∃ w ∈ n.sub, ∃ subs ∈ info.subcommands,
          (subs.find? fun s => s.1 == lower n.word ++ '|' :: lower w).map Prod.snd = some q)) := by
  rw [fixedPositions] at hq
  split at hq
  · cases hq
  · rename_i hm
    refine ⟨by simpa using hm, ?_⟩
    split at hq
    · rename_i hpos
      exact .inl ⟨hpos, Option.some.inj hq⟩
    · rename_i hpos
      obtain ⟨w, hw, hq⟩ := Option.bind_eq_some_iff.mp hq
      obtain ⟨subs, hsubs, hq⟩ := Option.bind_eq_some_iff.mp hq
      exact .inr ⟨not_not.mp hpos, w, hw, subs, hsubs, hq⟩

/-- The code finds the fixed positions, however the name is written. -/
theorem keyPositions_fixed (hf : found p n = some info) {q : KeyPositions}
    (hq : fixedPositions info n = some q) (hname : n.Written name) (ops : List Arg) :
    keyPositions (lower n.word) info (name ++ ops) = .ok (some q) := by
  rw [keyPositions]
  obtain ⟨-, ⟨hpos, rfl⟩ | ⟨hpos, w, hw, subs, hsubs, hq⟩⟩ := fixed_cases hq
  · rw [if_neg hpos]
  · rw [if_pos hpos]
    cases hname with
    | one hn =>
      rw [hn] at hw
      cases hw
    | two hn hs hw' =>
      obtain rfl := Option.some.inj (hn.symm.trans hw)
      have harg (s s' : Chars) : argAt ([.str s, .str s'] ++ ops) 1 = .ok (.str s') := rfl
      rw [← find?_reverse_of_nodup (subcommands_nodup hf subs hsubs), ← hw'.lower_eq] at hq
      simp only [Option.mem_def.mp hsubs, harg, Arg.lowered, Arg.format, bind, Except.bind]
      rw [hq]
      rfl

theorem CommandName.Written.keysAt_selected (h : n.Written name) {q : KeyPositions} {ops : List Arg}
    (hs : Selects q n.words.length (n.words ++ ops)) :
    keysAt q (name ++ ops) = .ok (selected q (n.words ++ ops)) := by
  have hafter : q.After name.length := .inr ⟨hs.step_pos, h.length ▸ hs.after⟩
  rw [keysAt_append name n.words h.length ops hafter, keysAt_eq hs]

theorem CommandName.Written.exists_word (h : n.Written name) :
    ∃ s rest, IsWord s ∧ name = .str s :: rest := by
  cases h with
  | one hn hs => exact ⟨_, _, hs.isWord n.word_word, rfl⟩
  | two hn hs hw => exact ⟨_, _, hs.isWord n.word_word, rfl⟩

/-- Both parsers send the same request for movable keys. -/
theorem keysOf_written (asyncio : Bool) (h : n.Written name) (info : CommandInfo) (cmd_name : Chars)
    (ops : List Arg) :
    keysOf asyncio p.toCommandsParser cmd_name info (name ++ ops) =
      keysOf true p.toCommandsParser cmd_name info (name ++ ops) := by
  obtain ⟨s, rest, hs, rfl⟩ := h.exists_word
  exact keysOf_congr (fun _ => getMoveableKeys_word hs asyncio _ _) (fun _ => rfl) rfl fun _ _ => rfl

end Written

/-! ### What goes wrong -/

theorem mem_getPubsubKeys {args keys : List Arg} (h : getPubsubKeys args = .ok (some keys)) :
    ∀ key ∈ keys, key ∈ args.map Arg.strIfBytes := by
  rw [getPubsubKeys] at h
  split at h
  · cases h
  · cases h
  · rename_i command first rest hargs
    rw [hargs]
    obtain ⟨name, -, h⟩ := Fallible.bind_ok h
    split at h
    · obtain ⟨pubsub_type, -, h⟩ := Fallible.bind_ok h
      split at h
      · cases h
        intro key hkey
        simp [hkey]
      · cases h
    · split at h
      · cases h
        intro key hkey
        exact List.mem_cons_of_mem _ hkey
      · split at h
        · cases h
          simp
        · cases h

theorem strIfBytes_ne (a : Arg) (b : Bytes) : a.strIfBytes ≠ .bytes b := by
  cases a <;> simp [Arg.strIfBytes]

/-- A key in bytes is decoded. -/
theorem getPubsubKeys_ne {q : KeyPositions} {name : List Arg} (h : Fits q name.length) (args : List Arg) :
    getPubsubKeys args ≠ .ok (some (selected q (name ++ enough (fun _ => .bytes []) q))) := by
  intro he
  have hmem := List.mem_of_mem_head? (h.head?_enough fun _ => .bytes [])
  obtain ⟨a, -, ha⟩ := List.mem_map.mp (mem_getPubsubKeys he _ hmem)
  exact strIfBytes_ne a [] ha

theorem subscribe_capitals :
    capitals 0 ["SUBSCRIBE", "PSUBSCRIBE", "UNSUBSCRIBE", "PUNSUBSCRIBE"] = true := by decide +kernel

/-- A name of two words as one string is no pubsub command. -/
theorem getPubsubKeys_joined (s s' : Chars) (args : List Arg) :
    getPubsubKeys (.str (s ++ ' ' :: s') :: args) = .ok none := by
  cases args with
  | nil => rfl
  | cons a args =>
    have hpubsub := among_joined (show capitals 0 ["PUBSUB"] = true by decide +kernel) (upper s) (upper s')
    have hsubscribe := among_joined subscribe_capitals (upper s) (upper s')
    have hpublish :=
      among_joined (show capitals 0 ["PUBLISH", "SPUBLISH"] = true by decide +kernel) (upper s) (upper s')
    simp only [getPubsubKeys, List.map_cons, Arg.strIfBytes, Arg.uppered, upper_append, upper_space,
      bind, Except.bind, hpubsub, hsubscribe, hpublish]
    rfl

/-- The positions are one too high for a name that is not split. -/
theorem keysAt_joined_ne {q : KeyPositions} (h : Fits q 2) (a b b' : Arg) :
    keysAt q (a :: enough (fun i : Nat => .int i) q) ≠
      .ok (selected q (b :: b' :: enough (fun i : Nat => .int i) q)) := by
  have hafter := h.after
  have hone : Fits q [a].length := h.mono (by simp)
  have htwo : Fits q [b, b'].length := h
  intro he
  have heq := Except.ok.inj ((keysAt_eq (hone.selects rfl _)).symm.trans he)
  have hhead := (hone.head?_enough _).symm.trans ((congrArg List.head? heq).trans (htwo.head?_enough _))
  simp only [List.length_cons, List.length_nil, Option.some.injEq, Arg.int.injEq] at hhead
  omega

/-- Nor is there a subcommand to be found in it. -/
theorem keyPositions_joined {subs : List (Chars × KeyPositions)} (hpos : info.positions = ⟨0, 0, 0⟩)
    (hsubs : info.subcommands = some subs) (cmd_name : Chars) (a : Arg) (i : Int) (ops : List Arg) :
    ∃ e, keyPositions cmd_name info (a :: .int i :: ops) = .error e := by
  have harg : argAt (a :: .int i :: ops) 1 = .ok (.int i) := rfl
  simp [keyPositions, hpos, hsubs, harg, Arg.lowered, bind, Except.bind]

theorem keysOf_joined_ne {q : KeyPositions} {w : Chars} (hn : n.sub = some w)
    (hq : fixedPositions info n = some q) (h : Fits q n.words.length) :
    keysOf true p.toCommandsParser (lower n.word) info
        (.str (n.word ++ ' ' :: w) :: enough (fun i : Nat => .int i) q) ≠
      .ok (some (selected q (n.words ++ enough (fun i : Nat => .int i) q))) := by
  have hwords : n.words = [.str n.word, .str w] := by simp [CommandName.words, hn]
  rw [hwords] at h ⊢
  obtain ⟨hm, hcases⟩ := fixed_cases hq
  intro he
  cases hb : info.pubsub with
  | true =>
    rw [keysOf_pubsub hm hb, getPubsubKeys_joined] at he
    cases he
  | false =>
    rcases hcases with ⟨hpos, rfl⟩ | ⟨hpos, w', -, subs, hsubs, -⟩
    · rw [keysOf_fixed hm hb true (by rw [keyPositions, if_neg hpos])] at he
      cases hk : keysAt info.positions (.str (n.word ++ ' ' :: w) ::
          enough (fun i : Nat => .int i) info.positions) with
      | error e =>
        rw [hk] at he
        cases he
      | ok keys =>
        rw [hk] at he
        cases he
        exact keysAt_joined_ne h _ _ _ hk
    · have hsome : ∃ ops, enough (fun i : Nat => Arg.int i) q = .int 0 :: ops := by
        rw [enough, List.range_succ_eq_map]
        exact ⟨_, rfl⟩
      obtain ⟨ops, hops⟩ := hsome
      obtain ⟨e, hkey⟩ := keyPositions_joined hpos hsubs (lower n.word) (.str (n.word ++ ' ' :: w)) 0 ops
      rw [hops, keysOf_error hm hb hkey] at he
      cases he

/-! ### Both parsers -/

theorem sameReply_iff {p : CommandsParser} {args args' : List Arg} :
    getMoveableKeys true p args = getMoveableKeys true p args' ↔
      SameReply (p.getkeys args) (p.getkeys args') := by
  constructor
  · intro h
    simp only [getMoveableKeys] at h
    generalize p.getkeys args = reply at h ⊢
    generalize p.getkeys args' = reply' at h ⊢
    cases reply with
    | ok keys =>
      cases reply' with
      | ok keys' =>
        cases h
        exact .same _
      | error e' =>
        dsimp only at h
        split at h <;> cases h
    | error e =>
      cases reply' with
      | ok keys' =>
        dsimp only at h
        split at h <;> cases h
      | error e' =>
        dsimp only at h
        split at h
        · rename_i he
          split at h
          · rename_i he'
            exact .none he he'
          · cases h
        · split at h
          · cases h
          · cases h
            exact .same _
  · intro h
    simp only [getMoveableKeys]
    generalize p.getkeys args = reply at h ⊢
    generalize p.getkeys args' = reply' at h ⊢
    cases h with
    | same reply => rfl
    | none h h' => exact (if_pos h).trans (if_pos h').symm

theorem keysOf_movable (hm : info.movable = true) (asyncio : Bool) (name : Chars) (args : List Arg) :
    keysOf asyncio p.toCommandsParser name info args =
      getMoveableKeys asyncio p.toCommandsParser args := by
  have hmove : info.flags.contains "movablekeys" = true := hm
  simp only [keysOf, hmove, if_true]

/-- The sync parser splits the name for the request. -/
theorem getMoveableKeys_joined {w : Chars} (hn : n.sub = some w) (p : CommandsParser) (ops : List Arg) :
    getMoveableKeys false p (.str (n.word ++ ' ' :: w) :: ops) =
      getMoveableKeys true p (n.words ++ ops) := by
  have hsplit := n.word_word.words_joined (n.sub_word w hn)
  simp [getMoveableKeys, hsplit, CommandName.words, hn]

/-- A command that the server does not have. -/
theorem extracted_missing (hf : found p n = none) (ops : List Arg) :
    extracted false p n joined ops = extracted true p n joined ops := by
  obtain ⟨hc, hr⟩ := Option.or_eq_none_iff.mp hf
  have hword := (isWord_lower_iff.mpr n.word_word).words
  cases hn : n.sub with
  | none => simp [extracted, hn, getKeys, hc, hr, hword]
  | some w =>
    cases joined with
    | false => simp [extracted, hn, getKeys, hc, hr, hword]
    | true => simp [extracted, hn, getKeys, no_joined, words_lower_joined hn, hc, hr]

theorem extracted_nil (hf : found p n = some info) :
    extracted false p n joined [] = extracted true p n joined [] := by
  cases hn : n.sub with
  | none => simp [extracted, hn, getKeys]
  | some w =>
    cases joined with
    | true => simp [extracted, hn, getKeys]
    | false =>
      have hname : n.Written [.str n.word, .str w] := .two hn (sameWord_refl _) (sameWord_refl _)
      simp only [extracted, hn]
      rw [if_neg (by simp), if_neg (by simp), getKeys_word false hf (List.cons_ne_nil _ _),
        getKeys_word true hf (List.cons_ne_nil _ _)]
      exact keysOf_written false hname info (lower n.word) []

/-- Both parsers return the same when the server minds no unsplit name. -/
theorem extracted_asyncio (hf : found p n = some info) (h : Findable p n joined info) (ops : List Arg) :
    extracted false p n joined ops = extracted true p n joined ops := by
  by_cases hne : ops = []
  · rw [hne]
    exact extracted_nil hf
  rw [extracted_eq false hf hne, extracted_eq true hf hne]
  by_cases hu : Unsplit p n joined
  · obtain ⟨w, hn, hname⟩ := resolved_unsplit hu
    rw [hname]
    cases hm : info.movable with
    | false => exact keysOf_asyncio hm false _ _ _
    | true =>
      rw [keysOf_movable hm, keysOf_movable hm]
      exact (getMoveableKeys_joined hn _ ops).trans (sameReply_iff.mpr (h.movable hm hu w hn ops hne))
  · exact keysOf_written false (resolved_written hu) info _ ops

/-- The keys at fixed positions are found. -/
theorem extracted_fixed (hf : found p n = some info) (h : Findable p n joined info) {q : KeyPositions}
    (hq : fixedPositions info n = some q) {ops : List Arg}
    (hs : Selects q n.words.length (n.words ++ ops)) (asyncio : Bool) :
    extracted asyncio p n joined ops = .ok (some (selected q (n.words ++ ops))) := by
  obtain ⟨hu, hb⟩ := h.fixed q hq hs.toFits
  have hname := resolved_written hu
  rw [extracted_eq asyncio hf hs.ops_ne_nil, keysOf_fixed (fixed_cases hq).1 hb asyncio
    (keyPositions_fixed hf hq hname ops), hname.keysAt_selected hs]
  rfl

/-- Both parsers return the same for every argument list, and the arguments at the fixed
positions, exactly when the server says the same of an unsplit name as of a split one, and no
command with fixed positions is one for pubsub or has a name that stays unsplit. -/
theorem extracts_iff (p : TableParser) (n : CommandName) (joined : Bool) :
    Extracts p n joined ↔ ∀ info, found p n = some info → Findable p n joined info := by
  constructor
  · intro h info hf
    constructor
    · intro hm hu w hn ops hne
      obtain ⟨w', hn', hname⟩ := resolved_unsplit hu
      obtain rfl := Option.some.inj (hn'.symm.trans hn)
      have hsame := h.1 ops
      rw [extracted_eq false hf hne, extracted_eq true hf hne, hname, keysOf_movable hm,
        keysOf_movable hm] at hsame
      exact sameReply_iff.mp ((getMoveableKeys_joined hn _ ops).symm.trans hsame)
    · intro q hq hfits
      have hkeys (f : Nat → Arg) := h.2 info hf q hq (enough f q) (hfits.selects rfl f) true
      simp only [extracted_eq true hf (enough_ne_nil _ q)] at hkeys
      have hu : ¬ Unsplit p n joined := by
        intro hu
        obtain ⟨w, hn, hname⟩ := resolved_unsplit hu
        rw [hname] at hkeys
        exact keysOf_joined_ne hn hq hfits (hkeys _)
      refine ⟨hu, Bool.eq_false_iff.mpr fun hb => ?_⟩
      have hbytes := hkeys fun _ => .bytes []
      rw [keysOf_pubsub (fixed_cases hq).1 hb] at hbytes
      exact getPubsubKeys_ne hfits _ hbytes
  · intro h
    refine ⟨fun ops => ?_, fun info hf q hq ops hs => extracted_fixed hf (h info hf) hq hs⟩
    cases hf : found p n with
    | none => exact extracted_missing hf ops
    | some info => exact extracted_asyncio hf (h info hf) ops

end Calls

/-! ### A table that has `SSUBSCRIBE`, and gets `MEMORY` -/

def ssubscribeInfo : CommandInfo where
  name := "ssubscribe".toList
  flags := ["pubsub", "noscript", "loading", "stale"]
  positions := ⟨1, -1, 1⟩
  subcommands := none

def memoryInfo : CommandInfo where
  name := "memory".toList
  flags := []
  positions := ⟨0, 0, 0⟩
  subcommands := some [("memory|usage".toList, ⟨2, 2, 1⟩)]

def sampleParser : TableParser where
  commands name := if name = "ssubscribe".toList then some ssubscribeInfo else none
  refreshed name := if name = "memory".toList then some memoryInfo else none
  getkeys _ := .error { cls := .ResponseError }
  no_blank := by
    intro name hblank
    rw [if_neg]
    rintro rfl
    exact absurd hblank (by decide +kernel)
  subcommands_nodup := by
    intro name info hinfo subs hsubs
    rcases hinfo with h | h
    · cases (Option.ite_none_right_eq_some.mp h).2
      cases hsubs
    · cases (Option.ite_none_right_eq_some.mp h).2
      cases hsubs
      exact List.nodup_singleton _

def memoryUsage : CommandName where
  word := "MEMORY".toList
  sub := some "USAGE".toList
  word_word := isWord_of_all (by decide +kernel)
  sub_word := by
    intro w hw
    cases hw
    exact isWord_of_all (by decide +kernel)

theorem isWord_of_mem_none : ∀ w ∈ (none : Option Chars), IsWord w := by
  intro w hw
  cases hw

def ssubscribe : CommandName where
  word := "SSUBSCRIBE".toList
  sub := none
  word_word := isWord_of_all (by decide +kernel)
  sub_word := isWord_of_mem_none

/-- `get_keys("MEMORY USAGE", "foo")` looks for the subcommand in `"foo"`, and
`get_keys("SSUBSCRIBE", "foo")` does not read the table: neither returns a key. -/
theorem sampleParser_not_extracts :
    ¬ Extracts sampleParser memoryUsage true ∧ ¬ Extracts sampleParser ssubscribe false := by
  constructor
  · intro h
    have hq : fixedPositions memoryInfo memoryUsage = some ⟨2, 2, 1⟩ := by decide +kernel
    have hs : Selects ⟨2, 2, 1⟩ memoryUsage.words.length (memoryUsage.words ++ [.str "foo".toList]) := by
      refine ⟨⟨?_, ?_, ?_⟩, ?_, ?_⟩ <;> decide +kernel
    have hf : found sampleParser memoryUsage = some memoryInfo := rfl
    have hkeys := h.2 memoryInfo hf _ hq _ hs false
    rw [extracted_eq false hf (List.cons_ne_nil _ _)] at hkeys
    cases hkeys
  · intro h
    have hs : Selects ⟨1, -1, 1⟩ ssubscribe.words.length (ssubscribe.words ++ [.str "foo".toList]) := by
      refine ⟨⟨?_, ?_, ?_⟩, ?_, ?_⟩ <;> decide +kernel
    have hf : found sampleParser ssubscribe = some ssubscribeInfo := rfl
    have hkeys := h.2 ssubscribeInfo hf _ rfl _ hs false
    rw [extracted_eq false hf (List.cons_ne_nil _ _)] at hkeys
    cases hkeys

end CommandRouting

end RedisPy
