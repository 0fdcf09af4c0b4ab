import RedisPy.Library.Fallible
import RedisPy.Spec.CommandRouting
import Mathlib.Data.String.Basic
import Mathlib.Tactic.Basic

/-! When two ways of writing a command, in either client, are routed alike. Both tables are
keyed by names in capitals: the sync client looks up the name in capitals, but for the slot
ids the name as it is written, and the asyncio client always the name as it is written. -/

namespace RedisPy

namespace CommandRouting

/-! ### Letter case -/

/-- The same word up to letter case. -/
structure SameWord (s w : Chars) : Prop where
  upper_eq : upper s = upper w
  lower_eq : lower s = lower w

theorem upper_append (s t : Chars) : upper (s ++ t) = upper s ++ upper t := List.map_append

theorem lower_append (s t : Chars) : lower (s ++ t) = lower s ++ lower t := List.map_append

theorem upper_space (s : Chars) : upper (' ' :: s) = ' ' :: upper s := rfl

theorem lower_space (s : Chars) : lower (' ' :: s) = ' ' :: lower s := rfl

theorem sameWord_refl (w : Chars) : SameWord w w := ⟨rfl, rfl⟩

theorem sameWord_lower (w : Chars) : SameWord (lower w) w := by
  constructor <;> simp [upper, lower, Function.comp_def]

theorem SameWord.joined {s s' w w' : Chars} (h : SameWord s w) (h' : SameWord s' w') :
    SameWord (s ++ ' ' :: s') (w ++ ' ' :: w') := by
  constructor
  · rw [upper_append, upper_append, upper_space, upper_space, h.upper_eq, h'.upper_eq]
  · rw [lower_append, lower_append, lower_space, lower_space, h.lower_eq, h'.lower_eq]

theorem isSpaceChar_toLower (c : Char) : isSpaceChar c.toLower = isSpaceChar c := by
  by_cases h : c.isUpper = true
  · have hc : 65 ≤ c.toNat ∧ c.toNat ≤ 90 := by
      simp only [Char.isUpper, decide_eq_true_eq] at h
      exact ⟨h.1, h.2⟩
    have hl : c.toLower.toNat = c.toNat + 32 := by
      rw [Char.toLower_eq_of_isUpper h, Char.toNat_ofNat, if_pos (by unfold Nat.isValidChar; omega)]
    have hfalse (n : Nat) (hn : 65 ≤ n ∧ n ≤ 122) : ((9 ≤ n && n ≤ 13) || (28 ≤ n && n ≤ 32) ||
        n == 0x85 || n == 0xa0 || n == 0x1680 || (0x2000 ≤ n && n ≤ 0x200a) || n == 0x2028 ||
        n == 0x2029 || n == 0x202f || n == 0x205f || n == 0x3000) = false := by
      simp
      omega
    rw [isSpaceChar, isSpaceChar]
    exact (hfalse _ (by omega)).trans (hfalse _ (by omega)).symm
  · rw [Char.toLower_eq_of_not_isUpper h]

structure IsWord (w : Chars) : Prop where
  ne_nil : w ≠ []
  plain : ∀ c ∈ w, isSpaceChar c = false

theorem isWord_of_all {w : Chars} (h : (!w.isEmpty && w.all fun c => !isSpaceChar c) = true) :
    IsWord w := by
  rw [Bool.and_eq_true] at h
  refine ⟨by simpa using h.1, fun c hc => ?_⟩
  simpa using List.all_eq_true.mp h.2 c hc

theorem isWord_lower_iff {w : Chars} : IsWord (lower w) ↔ IsWord w := by
  constructor
  · intro h
    refine ⟨fun hn => h.ne_nil (by rw [hn]; rfl), fun c hc => ?_⟩
    rw [← isSpaceChar_toLower]
    exact h.plain _ (List.mem_map_of_mem hc)
  · intro h
    refine ⟨fun hn => h.ne_nil (List.map_eq_nil_iff.mp hn), fun c hc => ?_⟩
    obtain ⟨d, hd, rfl⟩ := List.mem_map.mp hc
    rw [isSpaceChar_toLower]
    exact h.plain d hd

theorem SameWord.isWord {s w : Chars} (h : SameWord s w) (hw : IsWord w) : IsWord s := by
  rw [← isWord_lower_iff, h.lower_eq, isWord_lower_iff]
  exact hw

theorem IsWord.count_space {w : Chars} (h : IsWord w) : w.count ' ' = 0 := by
  rw [List.count_eq_zero]
  intro hc
  exact absurd (h.plain ' ' hc) (by decide)

theorem IsWord.words {w : Chars} (h : IsWord w) : Splitting.words isSpaceChar w = [w] := by
  have hw : Splitting.words isSpaceChar (w ++ []) = [w] :=
    Splitting.words_append_separators h.plain h.ne_nil (by simp)
  rwa [List.append_nil] at hw

theorem IsWord.words_joined {w w' : Chars} (h : IsWord w) (h' : IsWord w') :
    Splitting.words isSpaceChar (w ++ ' ' :: w') = [w, w'] := by
  rw [Splitting.words_cons h.plain h.ne_nil (by decide), h'.words]

/-! ### The tables -/

/-- The names are in capitals, with at most so many blanks. -/
def capitals (blanks : Nat) (names : List String) : Bool :=
  names.all fun n =>
    upper n.toList == n.toList && lower n.toList != n.toList && Nat.ble (n.toList.count ' ') blanks

theorem among_capitals {blanks : Nat} {names : List String} (h : capitals blanks names = true)
    {command : Chars} (hc : among names command = true) :
    upper command = command ∧ lower command ≠ command ∧ command.count ' ' ≤ blanks := by
  obtain ⟨n, hn, he⟩ := List.any_eq_true.mp hc
  have hn := List.all_eq_true.mp h n hn
  rw [← eq_of_beq he]
  simpa [and_assoc] using hn

theorem flags_capitals : (COMMAND_FLAGS.all fun p => capitals 1 p.1) = true := by decide +kernel

theorem search_capitals : capitals 0 SEARCH_COMMANDS = true := by decide +kernel

theorem exists_of_commandFlag {command : Chars} {f : NodeFlag} (h : commandFlag command = some f) :
    ∃ p ∈ COMMAND_FLAGS, among p.1 command = true ∧ p.2 = f := by
  obtain ⟨p, hp, rfl⟩ := Option.map_eq_some_iff.mp h
  have hfound := List.find?_some hp
  exact ⟨p, List.mem_of_find?_eq_some hp, hfound, rfl⟩

theorem commandFlag_capitals {command : Chars} {f : NodeFlag} (h : commandFlag command = some f) :
    upper command = command ∧ lower command ≠ command ∧ command.count ' ' ≤ 1 := by
  obtain ⟨p, hp, hc, -⟩ := exists_of_commandFlag h
  exact among_capitals (List.all_eq_true.mp flags_capitals p hp) hc

/-- Every command that carries a slot id has two words. -/
theorem slotId_space : (COMMAND_FLAGS.all fun p =>
    p.2 != .SLOT_ID || p.1.all fun n => Nat.ble 1 (n.toList.count ' ')) = true := by decide +kernel

theorem count_of_slotId {command : Chars} (h : commandFlag command = some .SLOT_ID) :
    1 ≤ command.count ' ' := by
  obtain ⟨p, hp, hc, hf⟩ := exists_of_commandFlag h
  obtain ⟨n, hn, he⟩ := List.any_eq_true.mp hc
  have hp := List.all_eq_true.mp slotId_space p hp
  simp only [hf, bne_self_eq_false, Bool.false_or, List.all_eq_true] at hp
  rw [← eq_of_beq he]
  exact Nat.le_of_ble_eq_true (hp n hn)

theorem count_joined (s s' : Chars) : 1 ≤ (s ++ ' ' :: s').count ' ' := by
  rw [List.count_append, List.count_cons_self]
  omega

theorem among_joined {names : List String} (hcap : capitals 0 names = true) (s s' : Chars) :
    among names (s ++ ' ' :: s') = false := by
  rw [Bool.eq_false_iff]
  intro h
  have hle := (among_capitals hcap h).2.2
  have hge := count_joined s s'
  omega

/-! ### Commands and their spellings -/

/-- A command with a name of one word or two. The first word is not a command of two words
with the first operand, and a slot id is one. -/
structure Command where
  name : Chars
  sub : Option Chars
  operands : List Arg
  name_word : IsWord name
  sub_word : ∀ w ∈ sub, IsWord w
  maximal : sub = none → ∀ a ∈ operands.head?, commandFlag (upper (name ++ ' ' :: a.format)) = none
  slot_id : ∀ w ∈ sub, commandFlag (upper (name ++ ' ' :: w)) = some .SLOT_ID →
    ∃ (slot : Nat) (rest : List Arg), slot < REDIS_CLUSTER_HASH_SLOTS ∧ operands = .int slot :: rest

/-- The operands, or the slot id as a decimal string. -/
def Command.SameOperands (c : Command) (args : List Arg) : Prop :=
  args = c.operands ∨
    ∃ w ∈ c.sub, commandFlag (upper (c.name ++ ' ' :: w)) = some .SLOT_ID ∧
      ∃ (slot : Int) (rest : List Arg), c.operands = .int slot :: rest ∧
        args = .str (Numeral.intText slot) :: rest

/-- A way to write a command: its first argument, and the others. -/
inductive Spelling (c : Command) : Chars → List Arg → Prop where
  | single {s : Chars} (hc : c.sub = none) (h : SameWord s c.name) : Spelling c s c.operands
  /-- Two words as one string. -/
  | joined {w s s' : Chars} {args : List Arg} (hc : c.sub = some w) (h : SameWord s c.name)
      (h' : SameWord s' w) (ha : c.SameOperands args) : Spelling c (s ++ ' ' :: s') args
  /-- Two words as two arguments. -/
  | apart {w s s' : Chars} {args : List Arg} (hc : c.sub = some w) (h : SameWord s c.name)
      (h' : SameWord s' w) (ha : c.SameOperands args) : Spelling c s (.str s' :: args)

/-- A command as it is given to one of the two clients. -/
structure Call where
  asyncio : Bool
  command : Chars
  args : List Arg

namespace Call

variable (i : Call)

/-- A way to write the command. -/
def Spells (c : Command) : Prop := Spelling c i.command i.args

/-- The name under which the client looks for the command: in capitals and with the second
word, if that is known, or as it is written. -/
def lookedUp : Chars := if i.asyncio then i.command else commandName i.command i.args

/-- The flag that names its nodes. A search command, which only the sync client looks for, is
for the default node. -/
def listed : Option NodeFlag :=
  match commandFlag i.lookedUp with
  | some .SLOT_ID => none
  | some f => some f
  | none => if !i.asyncio && among SEARCH_COMMANDS i.lookedUp then some .DEFAULT_NODE else none

/-- It is looked for in `READ_COMMANDS`. -/
def reads : Bool := among READ_COMMANDS i.lookedUp

/-- The slot id is looked for, as the command is written, and taken for a number. -/
def takesId : Bool :=
  commandFlag i.command == some .SLOT_ID &&
    (i.asyncio || match i.args with
      | .int _ :: _ => true
      | _ => false)

/-- The client can choose the slot. -/
def HasSlot (p : CommandsParser) (n : Nat) : Prop :=
  .ok (.int n) ∈ determineSlot i.asyncio p i.command i.args

/-- The nodes that the client can choose. -/
def choices {ν : Type} (t : Cluster ν) (p : CommandsParser) : List (List ν) :=
  (determineNodes i.asyncio t p i.command i.args).filterMap Except.toOption

end Call

/-- On every topology, with replicas read from or not, the two choose among the same nodes. -/
def SameRoutes (read_from_replicas : Bool) (p : CommandsParser) (i i' : Call) : Prop :=
  ∀ (ν : Type) (t : Cluster ν), t.read_from_replicas = read_from_replicas →
    ∀ nodes, nodes ∈ i.choices t p ↔ nodes ∈ i'.choices t p

/-- The two choose among the same slots. -/
def SameSlots (p : CommandsParser) (i i' : Call) : Prop := ∀ n, i.HasSlot p n ↔ i'.HasSlot p n

/-- Both clients route the command alike, however it is written. -/
def RoutesAlike (p : CommandsParser) (c : Command) : Prop :=
  ∀ (read_from_replicas : Bool) (i i' : Call), i.Spells c → i'.Spells c →
    SameRoutes read_from_replicas p i i'

/-- The command is sent by a slot id. -/
def Command.ById (c : Command) : Prop :=
  ∃ w ∈ c.sub, commandFlag (upper (c.name ++ ' ' :: w)) = some .SLOT_ID

/-- The positions are after so many arguments. -/
def KeyPositions.After (k : Nat) (q : KeyPositions) : Prop :=
  q.step_count = 0 ∨ (0 < q.step_count ∧ (k : Int) ≤ q.first_key_pos)

/-- No key is looked for in the name of the command. -/
structure CommandInfo.After (k : Nat) (info : CommandInfo) : Prop where
  main : info.positions.After k
  subs : ∀ subs ∈ info.subcommands, ∀ s ∈ subs, s.2.After k

/-- No keys are looked for. -/
structure CommandInfo.Keyless (info : CommandInfo) : Prop where
  fixed : info.flags.contains "movablekeys" = false
  main : info.positions.step_count = 0
  subs : ∀ subs ∈ info.subcommands, ∀ s ∈ subs, s.2.step_count = 0

/-- The server does not mind the case of a command name. -/
def CommandsParser.IgnoresCase (p : CommandsParser) : Prop :=
  ∀ (s s' : Chars) (args : List Arg), SameWord s s' →
    p.getkeys (.str s :: args) = p.getkeys (.str s' :: args)

/-- The first of the two words is known to the parser, and the keys are after both. -/
structure Command.Known (p : CommandsParser) (c : Command) (w : Chars) (info : CommandInfo) : Prop where
  known : p.commands (lower c.name) = some info
  after : info.After 2
  no_pubsub : (info.flags.contains "pubsub" || info.name == "pubsub".toList) = false
  movable : info.flags.contains "movablekeys" = true → c.operands ≠ [] ∧
    ∀ s, SameWord s w →
      p.getkeys (.str c.name :: .str s :: c.operands) = p.getkeys (.str c.name :: .str w :: c.operands)
  keyless : c.ById → info.Keyless

/-- The keys are found in the same places in every spelling. -/
structure Command.Regular (p : CommandsParser) (c : Command) : Prop where
  /-- For a name of one word. -/
  single : c.sub = none →
    (∀ info, p.commands (lower c.name) = some info ∨ p.refreshed (lower c.name) = some info →
      info.After 1) ∧
    (among ["EVAL", "EVALSHA"] (upper c.name) = true →
      ∀ script numkeys rest n, c.operands = script :: numkeys :: rest → numkeys.toInt = .ok n → -2 ≤ n)
  /-- For a name of two. -/
  double : ∀ w ∈ c.sub,
    among ["EVAL", "EVALSHA"] (upper c.name) = false ∧
    among ["FCALL", "FCALL_RO"] (upper c.name) = false ∧
    p.commands (lower (c.name ++ ' ' :: w)) = none ∧
    ((p.commands (lower c.name) = none ∧ p.refreshed (lower c.name) = none) ∨ ∃ info, c.Known p w info)

/-! ### The keys -/

theorem argAt_append (xs ys : List Arg) (hlen : xs.length = ys.length) (rest : List Arg) {pos : Int}
    (hpos : (xs.length : Int) ≤ pos) : argAt (xs ++ rest) pos = argAt (ys ++ rest) pos := by
  have hge : xs.length ≤ pos.toNat := by omega
  have hge' : ys.length ≤ pos.toNat := by omega
  have hneg : ¬ pos < 0 := by omega
  have hget : (xs ++ rest)[pos.toNat]? = (ys ++ rest)[pos.toNat]? := by
    rw [List.getElem?_append_right hge, List.getElem?_append_right hge', hlen]
  simp only [argAt, if_neg hneg, hget]

theorem mem_pyRange {start stop step : Int} (hstep : 0 < step) {poss : List Int}
    (h : pyRange start stop step = .ok poss) : ∀ pos ∈ poss, start ≤ pos := by
  rw [pyRange, if_neg (by omega)] at h
  cases h
  intro pos hpos
  obtain ⟨k, -, rfl⟩ := List.mem_map.mp hpos
  have hk : 0 ≤ (k : Int) * step := Int.mul_nonneg (by omega) (by omega)
  omega

theorem keysAt_append (xs ys : List Arg) (hlen : xs.length = ys.length) (rest : List Arg)
    {q : KeyPositions} (hq : q.After xs.length) : keysAt q (xs ++ rest) = keysAt q (ys ++ rest) := by
  have hsize : (xs ++ rest).length = (ys ++ rest).length := by
    rw [List.length_append, List.length_append, hlen]
  simp only [keysAt, hsize]
  rcases hq with h0 | ⟨hpos, hfirst⟩
  · rw [h0]
    rfl
  · generalize (if q.last_key_pos < 0 then (((ys ++ rest).length : Nat) : Int) - q.last_key_pos.natAbs
      else q.last_key_pos) + 1 = stop
    cases hr : pyRange q.first_key_pos stop q.step_count with
    | error e => rfl
    | ok poss =>
      have hall : ∀ pos ∈ poss, argAt (xs ++ rest) pos = argAt (ys ++ rest) pos := by
        intro pos hmem
        have hge := mem_pyRange hpos hr pos hmem
        exact argAt_append xs ys hlen rest (by omega)
      exact Fallible.mapM_congr hall

theorem keyPositions_of {P : KeyPositions → Prop} {info : CommandInfo} (hmain : P info.positions)
    (hsubs : ∀ subs ∈ info.subcommands, ∀ s ∈ subs, P s.2) {n : Chars} {args : List Arg}
    {q : KeyPositions} (h : keyPositions n info args = .ok (some q)) : P q := by
  rw [keyPositions] at h
  split at h
  · split at h
    · cases h
    · rename_i subs hinfo
      obtain ⟨arg, -, h⟩ := Fallible.bind_ok h
      obtain ⟨arg', -, h⟩ := Fallible.bind_ok h
      cases hf : subs.reverse.find? fun s => s.1 == n ++ '|' :: arg'.format with
      | none =>
        simp only [hf] at h
        cases h
      | some sub =>
        simp only [hf] at h
        cases h
        exact hsubs subs hinfo sub (by simpa using List.mem_of_find?_eq_some hf)
  · cases h
    exact hmain

theorem keysOf_congr {asyncio asyncio' : Bool} {p : CommandsParser} {n : Chars} {info : CommandInfo}
    {args args' : List Arg}
    (hmove : info.flags.contains "movablekeys" = true →
      getMoveableKeys asyncio p args = getMoveableKeys asyncio' p args')
    (hpub : (info.flags.contains "pubsub" || info.name == "pubsub".toList) = true →
      getPubsubKeys args = getPubsubKeys args')
    (hpos : keyPositions n info args = keyPositions n info args')
    (hat : ∀ q, keyPositions n info args' = .ok (some q) → keysAt q args = keysAt q args') :
    keysOf asyncio p n info args = keysOf asyncio' p n info args' := by
  rw [keysOf, keysOf]
  by_cases hm : info.flags.contains "movablekeys" = true
  · rw [if_pos hm, if_pos hm, hmove hm]
  · rw [if_neg hm, if_neg hm]
    by_cases hb : (info.flags.contains "pubsub" || info.name == "pubsub".toList) = true
    · rw [if_pos hb, if_pos hb, hpub hb]
    · rw [if_neg hb, if_neg hb, hpos]
      cases hq : keyPositions n info args' with
      | error e => rfl
      | ok q =>
        cases q with
        | none => rfl
        | some q =>
          have hkeys := hat q hq
          change (do return some (← keysAt q args)) = (do return some (← keysAt q args'))
          rw [hkeys]

theorem getMoveableKeys_word {s : Chars} (hs : IsWord s) (asyncio : Bool) (p : CommandsParser)
    (args : List Arg) :
    getMoveableKeys asyncio p (.str s :: args) = getMoveableKeys true p (.str s :: args) := by
  cases asyncio with
  | true => rfl
  | false => simp [getMoveableKeys, hs.words]

theorem getMoveableKeys_eq {p : CommandsParser} {args args' : List Arg}
    (h : p.getkeys args = p.getkeys args') :
    getMoveableKeys true p args = getMoveableKeys true p args' := by
  simp [getMoveableKeys, h]

theorem getPubsubKeys_word {s s' : Chars} (h : SameWord s s') (args : List Arg) :
    getPubsubKeys (.str s :: args) = getPubsubKeys (.str s' :: args) := by
  cases args with
  | nil => rfl
  | cons a args => simp [getPubsubKeys, Arg.strIfBytes, Arg.uppered, h.upper_eq]

/-- The case of a name of one word makes no difference to its keys. -/
theorem keysOf_single {p : CommandsParser} (hp : p.IgnoresCase) {s s' : Chars} (h : SameWord s s')
    (hs : IsWord s) (hs' : IsWord s') {info : CommandInfo} (hi : info.After 1) (asyncio asyncio' : Bool)
    (n : Chars) (args : List Arg) :
    keysOf asyncio p n info (.str s :: args) = keysOf asyncio' p n info (.str s' :: args) := by
  refine keysOf_congr (fun _ => ?_) (fun _ => getPubsubKeys_word h args) ?_ fun q hq => ?_
  · rw [getMoveableKeys_word hs, getMoveableKeys_word hs']
    exact getMoveableKeys_eq (hp s s' args h)
  · have hfirst : argAt (.str s :: args) 1 = argAt (.str s' :: args) 1 :=
      argAt_append [.str s] [.str s'] rfl args (by simp)
    simp only [keyPositions, hfirst]
  · exact keysAt_append [.str s] [.str s'] rfl args (keyPositions_of hi.main hi.subs hq)

/-- Nor does the case of a name of two. -/
theorem keysOf_double {p : CommandsParser} {s s' w w' : Chars} (hw : SameWord w w')
    (hs : IsWord s) (hs' : IsWord s') {info : CommandInfo} (hi : info.After 2)
    (hpub : (info.flags.contains "pubsub" || info.name == "pubsub".toList) = false)
    (asyncio asyncio' : Bool) (n : Chars) (args : List Arg)
    (hmove : info.flags.contains "movablekeys" = true →
      p.getkeys (.str s :: .str w :: args) = p.getkeys (.str s' :: .str w' :: args)) :
    keysOf asyncio p n info (.str s :: .str w :: args) =
      keysOf asyncio' p n info (.str s' :: .str w' :: args) := by
  refine keysOf_congr (fun hm => ?_) (fun hb => ?_) ?_ fun q hq => ?_
  · rw [getMoveableKeys_word hs, getMoveableKeys_word hs']
    exact getMoveableKeys_eq (hmove hm)
  · rw [hpub] at hb
    cases hb
  · have hat (x y : Chars) : argAt (.str x :: .str y :: args) 1 = .ok (.str y) := rfl
    have hlow : (Arg.str w).lowered = (Arg.str w').lowered := by simp only [Arg.lowered, hw.lower_eq]
    simp only [keyPositions, hat, bind, Except.bind, hlow]
  · exact keysAt_append [.str s, .str w] [.str s', .str w'] rfl args
      (keyPositions_of hi.main hi.subs hq)

/-! ### The slot -/

section Slot

variable {p : CommandsParser} {c : Command}

theorem getKeys_single (hp : p.IgnoresCase)
    (hi : ∀ info, p.commands (lower c.name) = some info ∨ p.refreshed (lower c.name) = some info →
      info.After 1)
    {s s' : Chars} (h : SameWord s c.name) (h' : SameWord s' c.name) (asyncio asyncio' : Bool)
    (args : List Arg) : getKeys asyncio p s args = getKeys asyncio' p s' args := by
  have hs := h.isWord c.name_word
  have hs' := h'.isWord c.name_word
  have hsame : SameWord s s' := ⟨h.upper_eq.trans h'.upper_eq.symm, h.lower_eq.trans h'.lower_eq.symm⟩
  have hwords : Splitting.words isSpaceChar (lower c.name) = [lower c.name] :=
    (isWord_lower_iff.mpr c.name_word).words
  rw [getKeys, getKeys, h.lower_eq, h'.lower_eq]
  by_cases he : args.isEmpty = true
  · rw [if_pos he, if_pos he]
  · rw [if_neg he, if_neg he]
    cases hc : p.commands (lower c.name) with
    | some info => exact keysOf_single hp hsame hs hs' (hi info (.inl hc)) asyncio asyncio' _ args
    | none =>
      simp only [hwords, hc]
      cases hr : p.refreshed (lower c.name) with
      | some info => exact keysOf_single hp hsame hs hs' (hi info (.inr hr)) asyncio asyncio' _ args
      | none => rfl

/-- What a name of two words is looked up as. -/
theorem getKeys_apart {w : Chars} {info : CommandInfo} (hk : c.Known p w info) {s : Chars} (s' : Chars)
    (h : SameWord s c.name) (asyncio : Bool) (args : List Arg) :
    getKeys asyncio p s (.str s' :: args) =
      keysOf asyncio p (lower c.name) info (.str s :: .str s' :: args) := by
  simp only [getKeys, h.lower_eq, hk.known]
  rfl

theorem lower_joined {w s s' : Chars} (h : SameWord s c.name) (h' : SameWord s' w) :
    lower (s ++ ' ' :: s') = lower c.name ++ ' ' :: lower w := by
  rw [lower_append, lower_space, h.lower_eq, h'.lower_eq]

theorem words_of_lower {w : Chars} (hw : c.sub = some w) :
    Splitting.words isSpaceChar (lower c.name ++ ' ' :: lower w) = [lower c.name, lower w] :=
  (isWord_lower_iff.mpr c.name_word).words_joined (isWord_lower_iff.mpr (c.sub_word w hw))

theorem getKeys_joined {w : Chars} (hw : c.sub = some w) {info : CommandInfo} (hk : c.Known p w info)
    (hjoined : p.commands (lower (c.name ++ ' ' :: w)) = none) {s s' : Chars}
    (h : SameWord s c.name) (h' : SameWord s' w) (asyncio : Bool) {args : List Arg} (hne : args ≠ []) :
    getKeys asyncio p (s ++ ' ' :: s') args =
      keysOf asyncio p (lower c.name) info (.str (lower c.name) :: .str (lower w) :: args) := by
  have hnone : p.commands (lower c.name ++ ' ' :: lower w) = none := by
    rw [← lower_space, ← lower_append]
    exact hjoined
  have hempty : args.isEmpty = false := by simpa using hne
  simp only [getKeys, hempty, lower_joined h h', hnone, words_of_lower hw, hk.known]
  rfl

theorem getKeys_double (hp : p.IgnoresCase) {w : Chars} (hw : c.sub = some w) {info : CommandInfo}
    (hk : c.Known p w info) (hjoined : p.commands (lower (c.name ++ ' ' :: w)) = none)
    (hne : c.operands ≠ []) {s s' : Chars} (asyncio : Bool) (h : SameWord s c.name) (h' : SameWord s' w) :
    getKeys asyncio p s (.str s' :: c.operands) =
        keysOf true p (lower c.name) info (.str c.name :: .str w :: c.operands) ∧
      getKeys asyncio p (s ++ ' ' :: s') c.operands =
        keysOf true p (lower c.name) info (.str c.name :: .str w :: c.operands) := by
  constructor
  · rw [getKeys_apart hk s' h]
    refine keysOf_double h' (h.isWord c.name_word) c.name_word hk.after hk.no_pubsub asyncio true _
      c.operands ?_
    intro hm
    rw [hp s c.name _ h, (hk.movable hm).2 s' h']
  · rw [getKeys_joined hw hk hjoined h h' asyncio hne]
    refine keysOf_double (sameWord_lower w) (isWord_lower_iff.mpr c.name_word) c.name_word
      hk.after hk.no_pubsub asyncio true _ c.operands ?_
    intro hm
    rw [hp (lower c.name) c.name _ (sameWord_lower _), (hk.movable hm).2 (lower w) (sameWord_lower w)]

/-- A first word that is not known is refused. -/
theorem getKeys_unknown {w : Chars} (hw : c.sub = some w)
    (hjoined : p.commands (lower (c.name ++ ' ' :: w)) = none) (hno : p.commands (lower c.name) = none)
    (hrefreshed : p.refreshed (lower c.name) = none) {s s' : Chars} (h : SameWord s c.name)
    (h' : SameWord s' w) (asyncio : Bool) (args : List Arg) :
    getKeys asyncio p s (.str s' :: args) = .error { cls := .RedisError } ∧
      (args ≠ [] → getKeys asyncio p (s ++ ' ' :: s') args = .error { cls := .RedisError }) := by
  have hwords : Splitting.words isSpaceChar (lower c.name) = [lower c.name] :=
    (isWord_lower_iff.mpr c.name_word).words
  constructor
  · simp only [getKeys, List.isEmpty_cons, Bool.false_eq_true, if_false, h.lower_eq, hno, hwords,
      hrefreshed]
  · intro hne
    have hempty : args.isEmpty = false := by simpa using hne
    have hnone : p.commands (lower c.name ++ ' ' :: lower w) = none := by
      rw [← lower_space, ← lower_append]
      exact hjoined
    simp only [getKeys, hempty, Bool.false_eq_true, if_false, lower_joined h h', hnone,
      words_of_lower hw, hno, hrefreshed]

/-- A count of keys that is not below `-2` takes the same keys with the command and without. -/
theorem sliceArgs_cons (command : Arg) (args : List Arg) (hlen : 2 ≤ args.length) {n : Int} (hn : -2 ≤ n) :
    sliceArgs (command :: args) 3 (3 + n) = sliceArgs args 2 (2 + n) := by
  have hstart : pyIndex (command :: args).length 3 = 3 := by
    rw [pyIndex, if_neg (by omega), List.length_cons]
    omega
  have hstart' : pyIndex args.length 2 = 2 := by
    rw [pyIndex, if_neg (by omega)]
    omega
  have hstop : pyIndex (command :: args).length (3 + n) = pyIndex args.length (2 + n) + 1 := by
    simp only [pyIndex, List.length_cons]
    split <;> split <;> omega
  rw [sliceArgs, sliceArgs, hstart, hstart', hstop]
  rfl

theorem evalKeys_eq {args : List Arg}
    (h : ∀ script numkeys rest n, args = script :: numkeys :: rest → numkeys.toInt = .ok n → -2 ≤ n)
    (s s' : Chars) (asyncio asyncio' : Bool) : evalKeys asyncio s args = evalKeys asyncio' s' args := by
  have hasync (asyncio : Bool) (s : Chars) : evalKeys asyncio s args = evalKeys true s' args := by
    cases asyncio with
    | true => rfl
    | false =>
      match args with
      | [] => rfl
      | [script] => rfl
      | script :: numkeys :: rest =>
        cases hn : numkeys.toInt with
        | error e => simp [evalKeys, hn, bind, Except.bind]
        | ok n =>
          have hslice := sliceArgs_cons (.str s) (script :: numkeys :: rest) (by simp)
            (h script numkeys rest n rfl hn)
          simp [evalKeys, hn, bind, Except.bind, hslice]
  rw [hasync asyncio s, hasync asyncio' s']

theorem eval_capitals : capitals 0 ["EVAL", "EVALSHA"] = true := by decide +kernel

theorem fcall_capitals : capitals 0 ["FCALL", "FCALL_RO"] = true := by decide +kernel

theorem slotByKeys_single (hp : p.IgnoresCase) (hc : c.sub = none) (hr : c.Regular p) {s s' : Chars}
    (h : SameWord s c.name) (h' : SameWord s' c.name) (asyncio asyncio' : Bool) :
    slotByKeys asyncio p s c.operands = slotByKeys asyncio' p s' c.operands := by
  obtain ⟨hi, heval⟩ := hr.single hc
  rw [slotByKeys, slotByKeys, h.upper_eq, h'.upper_eq]
  by_cases he : among ["EVAL", "EVALSHA"] (upper c.name) = true
  · rw [if_pos he, if_pos he, evalKeys_eq (heval he) s s' asyncio asyncio']
  · rw [if_neg he, if_neg he, getKeys_single hp hi h h' asyncio asyncio']

theorem slotByKeys_double (hp : p.IgnoresCase) {w : Chars} (hw : c.sub = some w) (hr : c.Regular p)
    {info : CommandInfo} (hk : c.Known p w info) (hne : c.operands ≠ []) :
    ∃ slots, ∀ (s s' : Chars) (asyncio : Bool), SameWord s c.name → SameWord s' w →
      slotByKeys asyncio p s (.str s' :: c.operands) = slots ∧
      slotByKeys asyncio p (s ++ ' ' :: s') c.operands = slots := by
  obtain ⟨heval, hfcall, hjoined, -⟩ := hr.double w hw
  refine ⟨slotByKeys true p c.name (.str w :: c.operands), fun s s' asyncio h h' => ?_⟩
  have hup : upper (s ++ ' ' :: s') = upper s ++ ' ' :: upper s' := by rw [upper_append, upper_space]
  have hcanon := (getKeys_double hp hw hk hjoined hne true (sameWord_refl _) (sameWord_refl w)).1
  have hkeys := getKeys_double hp hw hk hjoined hne asyncio h h'
  constructor
  · simp only [slotByKeys, h.upper_eq, heval, hfcall, hcanon, hkeys.1, Bool.false_eq_true, if_false]
  · simp only [slotByKeys, hup, among_joined eval_capitals, among_joined fcall_capitals, heval, hfcall,
      hcanon, hkeys.2, Bool.false_eq_true, if_false]

/-- A command in which no key is found has no slot. -/
theorem not_ok_of_no_keys {asyncio : Bool} {s : Chars} {args : List Arg}
    (heval : among ["EVAL", "EVALSHA"] (upper s) = false)
    (hfcall : among ["FCALL", "FCALL_RO"] (upper s) = false)
    (hkeys : ∀ keys, getKeys asyncio p s args = .ok keys → keys.getD [] = []) (slot : Arg) :
    .ok slot ∉ slotByKeys asyncio p s args := by
  rw [slotByKeys, if_neg (by simp [heval])]
  cases hg : getKeys asyncio p s args with
  | error e => simp
  | ok keys => simp [hkeys keys hg, hfcall]

theorem keysAt_short {q : KeyPositions} {args : List Arg} (hq : q.After args.length) {keys : List Arg}
    (h : keysAt q args = .ok keys) : keys = [] := by
  obtain ⟨poss, hposs, h⟩ := Fallible.bind_ok h
  rcases hq with h0 | ⟨hstep, hfirst⟩
  · rw [h0] at hposs
    cases hposs
  · cases poss with
    | nil =>
      cases h
      rfl
    | cons pos poss =>
      obtain ⟨key, keys, hkey, -⟩ := Fallible.mapM_cons_ok h
      have hge := mem_pyRange hstep hposs pos (by simp)
      have hnone : args[pos.toNat]? = none := List.getElem?_eq_none (by omega)
      have hneg : ¬ pos < 0 := by omega
      simp only [argAt, if_neg hneg, hnone] at hkey
      cases hkey

/-- No spelling of a name of two words has a slot, where its keys are not found. -/
theorem not_ok_double {w : Chars} (hw : c.sub = some w) (hr : c.Regular p) {s s' : Chars}
    (h : SameWord s c.name) (asyncio : Bool) (args : List Arg)
    (hapart : ∀ keys, getKeys asyncio p s (.str s' :: args) = .ok keys → keys.getD [] = [])
    (hjoined : args ≠ [] → ∀ keys, getKeys asyncio p (s ++ ' ' :: s') args = .ok keys → keys.getD [] = [])
    (slot : Arg) :
    .ok slot ∉ slotByKeys asyncio p s (.str s' :: args) ∧
      .ok slot ∉ slotByKeys asyncio p (s ++ ' ' :: s') args := by
  obtain ⟨heval, hfcall, -⟩ := hr.double w hw
  have hup : upper (s ++ ' ' :: s') = upper s ++ ' ' :: upper s' := by rw [upper_append, upper_space]
  refine ⟨not_ok_of_no_keys (by rw [h.upper_eq, heval]) (by rw [h.upper_eq, hfcall]) hapart slot,
    not_ok_of_no_keys (by rw [hup, among_joined eval_capitals]) (by rw [hup, among_joined fcall_capitals])
      (fun keys hkeys => ?_) slot⟩
  by_cases hne : args = []
  · subst hne
    cases hkeys
    rfl
  · exact hjoined hne keys hkeys

theorem slotByKeys_bare {w : Chars} (hw : c.sub = some w) (hr : c.Regular p) {info : CommandInfo}
    (hk : c.Known p w info) (hb : c.operands = []) {s s' : Chars} (asyncio : Bool)
    (h : SameWord s c.name) (slot : Arg) :
    .ok slot ∉ slotByKeys asyncio p s [.str s'] ∧ .ok slot ∉ slotByKeys asyncio p (s ++ ' ' :: s') [] := by
  have hm : ¬ info.flags.contains "movablekeys" = true := fun hm => (hk.movable hm).1 hb
  refine not_ok_double hw hr h asyncio [] (fun keys hkeys => ?_) (fun hne => absurd rfl hne) slot
  simp only [getKeys_apart hk s' h, keysOf, if_neg hm, hk.no_pubsub, Bool.false_eq_true, if_false] at hkeys
  obtain ⟨q, hq, hkeys⟩ := Fallible.bind_ok hkeys
  cases q with
  | none =>
    cases hkeys
    rfl
  | some q =>
    obtain ⟨keys', hat, hkeys⟩ := Fallible.bind_ok hkeys
    cases hkeys
    have hafter : q.After [Arg.str s, Arg.str s'].length := keyPositions_of hk.after.main hk.after.subs hq
    exact keysAt_short hafter hat

theorem keysOf_keyless {info : CommandInfo} (hi : info.Keyless)
    (hpub : (info.flags.contains "pubsub" || info.name == "pubsub".toList) = false) {asyncio : Bool}
    {n : Chars} {args : List Arg} {keys : Option (List Arg)}
    (h : keysOf asyncio p n info args = .ok keys) : keys.getD [] = [] := by
  simp only [keysOf, hi.fixed, hpub, Bool.false_eq_true, if_false] at h
  obtain ⟨q, hq, h⟩ := Fallible.bind_ok h
  cases q with
  | none =>
    cases h
    rfl
  | some q =>
    obtain ⟨keys', hat, -⟩ := Fallible.bind_ok h
    have hstep : q.step_count = 0 := keyPositions_of (P := fun q => q.step_count = 0) hi.main hi.subs hq
    obtain ⟨poss, hposs, -⟩ := Fallible.bind_ok hat
    rw [hstep] at hposs
    cases hposs

end Slot

/-! ### The slots of the spellings -/

theorem Command.SameOperands.eq {c : Command} (hc : ¬ c.ById) {args : List Arg}
    (h : c.SameOperands args) : args = c.operands := by
  rcases h with h | ⟨w, hw, hf, -⟩
  · exact h
  · exact absurd ⟨w, hw, hf⟩ hc

theorem slotByKeys_unknown {p : CommandsParser} {c : Command} {w : Chars} (hw : c.sub = some w)
    (hr : c.Regular p) (hjoined : p.commands (lower (c.name ++ ' ' :: w)) = none)
    (hno : p.commands (lower c.name) = none) (hrefreshed : p.refreshed (lower c.name) = none)
    {s s' : Chars} (h : SameWord s c.name) (h' : SameWord s' w) (asyncio : Bool) (args : List Arg)
    (slot : Arg) :
    .ok slot ∉ slotByKeys asyncio p s (.str s' :: args) ∧
      .ok slot ∉ slotByKeys asyncio p (s ++ ' ' :: s') args := by
  have hkeys := getKeys_unknown hw hjoined hno hrefreshed h h' asyncio args
  refine not_ok_double hw hr h asyncio args (fun keys hok => ?_) (fun hne keys hok => ?_) slot
  · rw [hkeys.1] at hok
    cases hok
  · rw [hkeys.2 hne] at hok
    cases hok

theorem slotByKeys_spelling {p : CommandsParser} (hp : p.IgnoresCase) {c : Command} (hr : c.Regular p)
    (hc : ¬ c.ById) :
    ∃ slots : Outcomes Arg, ∀ (asyncio : Bool) (s : Chars) (args : List Arg), Spelling c s args →
      ∀ slot, .ok slot ∈ slotByKeys asyncio p s args ↔ .ok slot ∈ slots := by
  cases hsub : c.sub with
  | none =>
    refine ⟨slotByKeys true p c.name c.operands, fun asyncio s args h slot => ?_⟩
    cases h with
    | single hsub h => rw [slotByKeys_single hp hsub hr h (sameWord_refl _) asyncio true]
    | joined hsub' => cases hsub.symm.trans hsub'
    | apart hsub' => cases hsub.symm.trans hsub'
  | some w =>
    obtain ⟨-, -, hjoined, ⟨hno, hrefreshed⟩ | ⟨info, hk⟩⟩ := hr.double w hsub
    · refine ⟨[], fun asyncio s args h slot => iff_of_false ?_ (by simp)⟩
      cases h with
      | single hsub' => cases hsub.symm.trans hsub'
      | joined hsub' h h' ha =>
        cases hsub.symm.trans hsub'
        exact (slotByKeys_unknown hsub hr hjoined hno hrefreshed h h' asyncio _ slot).2
      | apart hsub' h h' ha =>
        cases hsub.symm.trans hsub'
        exact (slotByKeys_unknown hsub hr hjoined hno hrefreshed h h' asyncio _ slot).1
    · by_cases hb : c.operands = []
      · refine ⟨[], fun asyncio s args h slot => iff_of_false ?_ (by simp)⟩
        cases h with
        | single hsub' => cases hsub.symm.trans hsub'
        | joined hsub' h h' ha =>
          cases hsub.symm.trans hsub'
          rw [ha.eq hc, hb]
          exact (slotByKeys_bare hsub hr hk hb asyncio h slot).2
        | apart hsub' h h' ha =>
          cases hsub.symm.trans hsub'
          rw [ha.eq hc, hb]
          exact (slotByKeys_bare hsub hr hk hb asyncio h slot).1
      · obtain ⟨slots, hslots⟩ := slotByKeys_double hp hsub hr hk hb
        refine ⟨slots, fun asyncio s args h slot => ?_⟩
        cases h with
        | single hsub' => cases hsub.symm.trans hsub'
        | joined hsub' h h' ha =>
          cases hsub.symm.trans hsub'
          rw [ha.eq hc, (hslots _ _ asyncio h h').2]
        | apart hsub' h h' ha =>
          cases hsub.symm.trans hsub'
          rw [ha.eq hc, (hslots _ _ asyncio h h').1]

theorem slotByKeys_keyless {p : CommandsParser} {c : Command} {w : Chars} (hw : c.sub = some w)
    (hr : c.Regular p) (hjoined : p.commands (lower (c.name ++ ' ' :: w)) = none) {info : CommandInfo}
    (hk : c.Known p w info) (hc : c.ById) {s s' : Chars} (h : SameWord s c.name) (h' : SameWord s' w)
    (asyncio : Bool) (args : List Arg) (slot : Arg) :
    .ok slot ∉ slotByKeys asyncio p s (.str s' :: args) ∧
      .ok slot ∉ slotByKeys asyncio p (s ++ ' ' :: s') args := by
  refine not_ok_double hw hr h asyncio args (fun keys hok => ?_) (fun hne keys hok => ?_) slot
  · rw [getKeys_apart hk s' h] at hok
    exact keysOf_keyless (hk.keyless hc) hk.no_pubsub hok
  · rw [getKeys_joined hw hk hjoined h h' asyncio hne] at hok
    exact keysOf_keyless (hk.keyless hc) hk.no_pubsub hok

theorem not_slotId_of_isWord {w : Chars} (hw : IsWord w) : commandFlag w ≠ some .SLOT_ID := by
  intro hf
  have hge := count_of_slotId hf
  have hzero := hw.count_space
  omega

theorem not_ok_of_byId {p : CommandsParser} {c : Command} (hr : c.Regular p) (hc : c.ById) {s : Chars}
    {args : List Arg} (h : Spelling c s args) (asyncio : Bool) (slot : Arg) :
    .ok slot ∉ slotByKeys asyncio p s args := by
  obtain ⟨w, hw, -⟩ := id hc
  obtain ⟨-, -, hjoined, ⟨hno, hrefreshed⟩ | ⟨info, hk⟩⟩ := hr.double w hw
  · cases h with
    | single hsub => cases hsub.symm.trans hw
    | joined hsub h h' ha =>
      cases hsub.symm.trans hw
      exact (slotByKeys_unknown hw hr hjoined hno hrefreshed h h' asyncio _ slot).2
    | apart hsub h h' ha =>
      cases hsub.symm.trans hw
      exact (slotByKeys_unknown hw hr hjoined hno hrefreshed h h' asyncio _ slot).1
  · cases h with
    | single hsub => cases hsub.symm.trans hw
    | joined hsub h h' ha =>
      cases hsub.symm.trans hw
      exact (slotByKeys_keyless hw hr hjoined hk hc h h' asyncio _ slot).2
    | apart hsub h h' ha =>
      cases hsub.symm.trans hw
      exact (slotByKeys_keyless hw hr hjoined hk hc h h' asyncio _ slot).1

namespace Call

variable {p : CommandsParser} {c : Command} {i : Call}

theorem hasSlot_of_flag (hf : commandFlag i.command ≠ some .SLOT_ID) (n : Nat) :
    i.HasSlot p n ↔ .ok (.int n) ∈ slotByKeys i.asyncio p i.command i.args := by
  unfold HasSlot determineSlot
  rw [if_neg hf]

theorem takesId_of_flag (hf : commandFlag i.command ≠ some .SLOT_ID) : i.takesId = false := by
  simp [takesId, hf]

/-- A command that is sent by its keys is not looked for by a slot id. -/
theorem Spells.not_slotId (h : i.Spells c) (hc : ¬ c.ById) : commandFlag i.command ≠ some .SLOT_ID := by
  obtain ⟨asyncio, s, args⟩ := i
  intro hf
  cases h with
  | single hsub h => exact not_slotId_of_isWord (h.isWord c.name_word) hf
  | @joined w s s' _ hsub h h' ha =>
    have hcapitals : upper (s ++ ' ' :: s') = s ++ ' ' :: s' := (commandFlag_capitals hf).1
    refine hc ⟨w, hsub, ?_⟩
    rw [← (h.joined h').upper_eq, hcapitals]
    exact hf
  | apart hsub h h' ha => exact not_slotId_of_isWord (h.isWord c.name_word) hf

/-- A command that is sent by a slot id has that slot where the id is found. -/
theorem Spells.hasSlot_iff (h : i.Spells c) (hr : c.Regular p) (hc : c.ById) (n : Nat) :
    i.HasSlot p n ↔ i.takesId = true ∧ c.operands.head? = some (.int n) := by
  by_cases hf : commandFlag i.command = some .SLOT_ID
  · obtain ⟨w, hw, hflag⟩ := id hc
    obtain ⟨slot, rest, -, hops⟩ := c.slot_id w hw hflag
    have hargs : i.args = .int slot :: rest ∨ i.args = .str (Numeral.intText slot) :: rest := by
      have hsame : c.SameOperands i.args := by
        obtain ⟨asyncio, s, args⟩ := i
        cases h with
        | single hsub => cases hsub.symm.trans hw
        | joined _ _ _ ha => exact ha
        | apart _ h _ _ => exact absurd hf (not_slotId_of_isWord (h.isWord c.name_word))
      rcases hsame with ha | ⟨w', hw', hf', slot', rest', hops', ha⟩
      · exact .inl (ha.trans hops)
      · cases hops.symm.trans hops'
        exact .inr ha
    have htext : (Arg.str (Numeral.intText slot)).toInt = .ok slot := by
      simp [Arg.toInt, Numeral.readInt_intText]
    rcases hargs with ha | ha
    · cases hb : i.asyncio <;>
        simp [HasSlot, determineSlot, takesId, hf, ha, hb, hops, Arg.toInt, Except.map, eq_comm]
    · cases hb : i.asyncio
      · simp [HasSlot, determineSlot, takesId, hf, ha, hb]
      · simp [HasSlot, determineSlot, takesId, hf, ha, hb, hops, htext, Except.map, eq_comm]
  · rw [hasSlot_of_flag hf, takesId_of_flag hf]
    exact iff_of_false (not_ok_of_byId hr hc h i.asyncio _) (by simp)

end Call

/-- Where the keys stand in the same places, the slots differ in the ids that are found. -/
theorem sameSlots_iff {p : CommandsParser} (hp : p.IgnoresCase) {c : Command} (hr : c.Regular p)
    {i i' : Call} (h : i.Spells c) (h' : i'.Spells c) : SameSlots p i i' ↔ i.takesId = i'.takesId := by
  by_cases hc : c.ById
  · obtain ⟨w, hw, hflag⟩ := id hc
    obtain ⟨slot, rest, -, hops⟩ := c.slot_id w hw hflag
    constructor
    · intro hall
      have hslot := hall slot
      rw [h.hasSlot_iff hr hc, h'.hasSlot_iff hr hc] at hslot
      rw [Bool.eq_iff_iff]
      simpa [hops] using hslot
    · intro heq n
      rw [h.hasSlot_iff hr hc, h'.hasSlot_iff hr hc, heq]
  · obtain ⟨slots, hslots⟩ := slotByKeys_spelling hp hr hc
    have hf := h.not_slotId hc
    have hf' := h'.not_slotId hc
    refine iff_of_true (fun n => ?_) (by rw [Call.takesId_of_flag hf, Call.takesId_of_flag hf'])
    rw [Call.hasSlot_of_flag hf, Call.hasSlot_of_flag hf', hslots _ _ _ h, hslots _ _ _ h']

/-! ### The nodes -/

/-- The clients differ in the errors of a slot that is not covered. -/
theorem ok_mem_getNodeFromSlot {ν : Type} {t : Cluster ν} {slot : Arg} {read : Bool} {node : ν}
    (asyncio : Bool) :
    .ok node ∈ getNodeFromSlot asyncio t slot read ↔ .ok node ∈ getNodeFromSlot true t slot read := by
  cases hs : t.slotNodes slot with
  | none => simp [getNodeFromSlot, hs]
  | some nodes => cases nodes <;> simp only [getNodeFromSlot, hs]

theorem mem_nodeOfSlot {ν : Type} {asyncio : Bool} {t : Cluster ν} {read : Bool} {slots : Outcomes Arg}
    {nodes : List ν} :
    nodes ∈ (nodeOfSlot asyncio t read slots).filterMap Except.toOption ↔
      ∃ slot, .ok slot ∈ slots ∧
        ∃ node, .ok node ∈ getNodeFromSlot true t slot (t.read_from_replicas && read) ∧
          nodes = [node] := by
  simp only [nodeOfSlot, List.mem_filterMap, List.mem_flatMap]
  constructor
  · rintro ⟨o, ⟨slot, hslot, ho⟩, hnodes⟩
    cases slot with
    | error e =>
      rw [List.mem_singleton.mp ho] at hnodes
      cases hnodes
    | ok slot =>
      obtain ⟨node, hnode, rfl⟩ := List.mem_map.mp ho
      cases node with
      | error e => cases hnodes
      | ok node =>
        cases hnodes
        exact ⟨slot, hslot, node, (ok_mem_getNodeFromSlot asyncio).mp hnode, rfl⟩
  · rintro ⟨slot, hslot, node, hnode, rfl⟩
    have hnode := (ok_mem_getNodeFromSlot asyncio).mpr hnode
    exact ⟨.ok [node], ⟨.ok slot, hslot, List.mem_map.mpr ⟨.ok node, hnode, rfl⟩⟩, rfl⟩

/-- The nodes that hold a slot, of which one is chosen. -/
def Cluster.holders {ν : Type} (t : Cluster ν) (read : Bool) (n : Nat) : List ν :=
  match t.slots_cache n with
  | some (primary :: replicas) => if t.read_from_replicas && read then primary :: replicas else [primary]
  | _ => []

theorem search_not_slotId {name : Chars} (h : commandFlag name = some .SLOT_ID) :
    among SEARCH_COMMANDS name = false := by
  rw [Bool.eq_false_iff]
  intro hs
  have hge := count_of_slotId h
  have hle := (among_capitals search_capitals hs).2.2
  omega

namespace Call

variable {ν : Type} {p : CommandsParser} {i : Call}

theorem listed_ne_slotId (i : Call) : i.listed ≠ some .SLOT_ID := by
  rw [listed]
  cases hf : commandFlag i.lookedUp with
  | none => simp
  | some f => cases f <;> simp

/-- A command in the tables goes to the nodes of its flag. -/
theorem choices_listed {f : NodeFlag} (h : i.listed = some f) (t : Cluster ν) (p : CommandsParser) :
    i.choices t p = ((flaggedNodes t f).getD []).filterMap Except.toOption := by
  obtain ⟨asyncio, s, args⟩ := i
  cases asyncio with
  | true =>
    simp only [listed, lookedUp, if_true, Bool.not_true, Bool.false_and, Bool.false_eq_true, if_false] at h
    simp only [choices, determineNodes, asyncDetermineNodes, if_true]
    cases hf : commandFlag s with
    | none => simp [hf] at h
    | some g =>
      cases g <;> simp only [hf, reduceCtorEq, Option.some.injEq] at h <;> subst h <;> rfl
  | false =>
    simp only [listed, lookedUp, Bool.false_eq_true, if_false, Bool.not_false, Bool.true_and] at h
    simp only [choices, determineNodes, syncDetermineNodes, Bool.false_eq_true, if_false]
    cases hf : commandFlag (commandName s args) with
    | none =>
      simp only [hf] at h
      split at h
      · rename_i hs
        cases h
        simp only [Option.bind_none, if_pos hs]
        rfl
      · cases h
    | some g =>
      cases g <;> simp only [hf, reduceCtorEq, Option.some.injEq] at h <;> subst h <;> rfl

theorem choices_slot (h : i.listed = none) (t : Cluster ν) (p : CommandsParser) :
    i.choices t p = (nodeOfSlot i.asyncio t i.reads
      (determineSlot i.asyncio p i.command i.args)).filterMap Except.toOption := by
  obtain ⟨asyncio, s, args⟩ := i
  cases asyncio with
  | true =>
    simp only [listed, lookedUp, if_true, Bool.not_true, Bool.false_and, Bool.false_eq_true, if_false] at h
    simp only [choices, determineNodes, asyncDetermineNodes, if_true, reads, lookedUp]
    cases hf : commandFlag s with
    | none => rfl
    | some g =>
      cases g <;> simp only [hf, reduceCtorEq] at h
      rfl
  | false =>
    simp only [listed, lookedUp, Bool.false_eq_true, if_false, Bool.not_false, Bool.true_and] at h
    simp only [choices, determineNodes, syncDetermineNodes, Bool.false_eq_true, if_false, reads, lookedUp]
    cases hf : commandFlag (commandName s args) with
    | none =>
      simp only [hf] at h
      split at h
      · cases h
      · rename_i hs
        simp only [Option.bind_none, if_neg hs]
    | some g =>
      cases g <;> simp only [hf, reduceCtorEq] at h
      simp only [Option.bind_some, flaggedNodes, search_not_slotId hf, Bool.false_eq_true, if_false]

/-- A node that is chosen holds a slot that is chosen. -/
theorem mem_choices_slot (h : i.listed = none) {t : Cluster ν} {nodes : List ν} :
    nodes ∈ i.choices t p ↔ ∃ n, i.HasSlot p n ∧ ∃ node ∈ t.holders i.reads n, nodes = [node] := by
  rw [choices_slot h, mem_nodeOfSlot]
  constructor
  · rintro ⟨slot, hslot, node, hnode, rfl⟩
    cases slot with
    | int n =>
      by_cases hn : n < 0
      · simp [getNodeFromSlot, Cluster.slotNodes, hn] at hnode
      · have hcast : ((n.toNat : Nat) : Int) = n := Int.toNat_of_nonneg (by omega)
        refine ⟨n.toNat, by rw [HasSlot, hcast]; exact hslot, node, ?_, rfl⟩
        simp only [getNodeFromSlot, Cluster.slotNodes, if_neg hn] at hnode
        rw [Cluster.holders]
        match t.slots_cache n.toNat, hnode with
        | some (primary :: replicas), hnode =>
          cases hr : t.read_from_replicas && i.reads <;> simpa [hr] using hnode
    | str s => simp [getNodeFromSlot, Cluster.slotNodes] at hnode
    | bytes b => simp [getNodeFromSlot, Cluster.slotNodes] at hnode
  · rintro ⟨n, hslot, node, hnode, rfl⟩
    refine ⟨.int n, hslot, node, ?_, rfl⟩
    have hn : ¬ ((n : Int) < 0) := by omega
    simp only [getNodeFromSlot, Cluster.slotNodes, if_neg hn, Int.toNat_natCast]
    rw [Cluster.holders] at hnode
    match t.slots_cache n, hnode with
    | some (primary :: replicas), hnode =>
      cases hr : t.read_from_replicas && i.reads <;> simpa [hr] using hnode

end Call

/-! ### Topologies that tell the routes apart -/

/-- Every flag names other nodes, and the slots have one of their own. -/
def flagCluster (read_from_replicas : Bool) : Cluster Nat where
  default_node := 0
  primaries := [1]
  replicas := [2]
  nodes := [3, 4]
  slots_cache := fun _ => some [5]
  read_from_replicas

/-- A node of the flag in `flagCluster`. -/
def NodeFlag.mark : NodeFlag → List Nat
  | .DEFAULT_NODE => [0]
  | .PRIMARIES => [1]
  | .REPLICAS => [2]
  | .ALL_NODES => [3, 4]
  | .RANDOM => [3]
  | .SLOT_ID => []

/-- Every slot has a node of its own. -/
def slotCluster (read_from_replicas : Bool) : Cluster Nat where
  default_node := 0
  primaries := []
  replicas := []
  nodes := []
  slots_cache := fun n => some [n]
  read_from_replicas

/-- A cluster with a replica, that is read from. -/
def replicaCluster : Cluster Bool where
  default_node := false
  primaries := [false]
  replicas := [true]
  nodes := [false, true]
  slots_cache := fun _ => some [false, true]
  read_from_replicas := true

theorem mark_mem_iff {p : CommandsParser} (i : Call) {f : NodeFlag} (hf : f ≠ .SLOT_ID) (read : Bool) :
    f.mark ∈ i.choices (flagCluster read) p ↔ i.listed = some f := by
  cases h : i.listed with
  | none =>
    rw [Call.mem_choices_slot h]
    refine iff_of_false ?_ (by simp)
    rintro ⟨n, -, node, hnode, he⟩
    have hnode : node = 5 := by
      cases read <;> cases hr : i.reads <;> simpa [Cluster.holders, flagCluster, hr] using hnode
    subst hnode
    cases f <;> simp [NodeFlag.mark] at he
  | some g =>
    rw [Call.choices_listed h]
    have hg : g ≠ .SLOT_ID := fun hg => i.listed_ne_slotId (by rw [h, hg])
    cases f <;> cases g <;> simp_all [flaggedNodes, flagCluster, NodeFlag.mark, Except.toOption]

theorem mem_slotCluster_iff {p : CommandsParser} {i : Call} (h : i.listed = none) (read : Bool) (n : Nat) :
    [n] ∈ i.choices (slotCluster read) p ↔ i.HasSlot p n := by
  have hholders (m : Nat) : (slotCluster read).holders i.reads m = [m] := by
    cases read <;> cases hr : i.reads <;> simp [Cluster.holders, slotCluster]
  simp [Call.mem_choices_slot h, hholders]

theorem mem_replicaCluster_iff {p : CommandsParser} {i : Call} (h : i.listed = none) :
    [true] ∈ i.choices replicaCluster p ↔ (∃ n, i.HasSlot p n) ∧ i.reads = true := by
  have hholders (n : Nat) : true ∈ replicaCluster.holders i.reads n ↔ i.reads = true := by
    cases hr : i.reads <;> simp [Cluster.holders, replicaCluster]
  simp [Call.mem_choices_slot h, hholders]

namespace SameRoutes

variable {p : CommandsParser} {i i' : Call} {read : Bool}

theorem listed (h : SameRoutes read p i i') : i.listed = i'.listed := by
  have hsame (f : NodeFlag) (hf : f ≠ .SLOT_ID) : i.listed = some f ↔ i'.listed = some f := by
    rw [← mark_mem_iff i hf read, ← mark_mem_iff i' hf read]
    exact h Nat (flagCluster read) rfl f.mark
  refine Option.ext fun f => ?_
  by_cases hf : f = .SLOT_ID
  · rw [hf]
    exact iff_of_false i.listed_ne_slotId i'.listed_ne_slotId
  · exact hsame f hf

theorem slots (h : SameRoutes read p i i') (hi : i.listed = none) : SameSlots p i i' := by
  intro n
  rw [← mem_slotCluster_iff hi read, ← mem_slotCluster_iff (h.listed ▸ hi) read]
  exact h Nat (slotCluster read) rfl [n]

theorem reads (h : SameRoutes true p i i') (hi : i.listed = none) (hslot : ∃ n, i.HasSlot p n) :
    i.reads = i'.reads := by
  have hi' : i'.listed = none := h.listed ▸ hi
  have hmem := h Bool replicaCluster rfl [true]
  rw [mem_replicaCluster_iff hi, mem_replicaCluster_iff hi'] at hmem
  have hslot' : ∃ n, i'.HasSlot p n := by
    obtain ⟨n, hn⟩ := hslot
    exact ⟨n, (h.slots hi n).mp hn⟩
  rw [Bool.eq_iff_iff]
  simpa [hslot, hslot'] using hmem

end SameRoutes

theorem holders_eq {ν : Type} (t : Cluster ν) {read read' : Bool} (h : t.read_from_replicas = true → read = read')
    (n : Nat) : t.holders read n = t.holders read' n := by
  cases hr : t.read_from_replicas with
  | true => rw [h hr]
  | false => simp only [Cluster.holders, hr, Bool.false_and]

theorem sameRoutes_iff (p : CommandsParser) (i i' : Call) (read : Bool) :
    SameRoutes read p i i' ↔ i.listed = i'.listed ∧
      (i.listed = none → SameSlots p i i' ∧
        (read = true → (∃ n, i.HasSlot p n) → i.reads = i'.reads)) := by
  constructor
  · intro h
    refine ⟨h.listed, fun hi => ⟨h.slots hi, fun hread hslot => ?_⟩⟩
    subst hread
    exact h.reads hi hslot
  · rintro ⟨hlisted, hslots⟩ ν t ht nodes
    cases hi : i.listed with
    | some f => rw [Call.choices_listed hi, Call.choices_listed (hlisted ▸ hi)]
    | none =>
      obtain ⟨hsame, hreads⟩ := hslots hi
      rw [Call.mem_choices_slot hi, Call.mem_choices_slot (hlisted ▸ hi)]
      refine exists_congr fun n => ?_
      by_cases hn : i.HasSlot p n
      · have hholders := holders_eq t (fun hr => hreads (ht.symm.trans hr) ⟨n, hn⟩) n
        rw [hholders, hsame n]
      · exact iff_of_false (fun h => hn h.1) fun h => hn ((hsame n).mpr h.1)

theorem routes_alike (p : CommandsParser) (c : Command) (read : Bool) {i i' : Call}
    (h : i.Spells c) (h' : i'.Spells c) :
    (SameRoutes read p i i' ↔ i.listed = i'.listed ∧
      (i.listed = none → SameSlots p i i' ∧
        (read = true → (∃ n, i.HasSlot p n) → i.reads = i'.reads))) ∧
    (p.IgnoresCase → c.Regular p → (SameSlots p i i' ↔ i.takesId = i'.takesId)) :=
  ⟨sameRoutes_iff p i i' read, fun hp hr => sameSlots_iff hp hr h h'⟩

/-- A server that has `set` alone. -/
def setParser : CommandsParser where
  commands := fun name => if name = "set".toList then
    some { name, flags := ["write", "denyoom"], positions := ⟨1, 1, 1⟩, subcommands := some [] } else none
  refreshed := fun _ => none
  getkeys := fun _ => .error { cls := .ResponseError, msg := "The command has no key arguments" }

/-- `SET foo 1` -/
def setFoo : Command where
  name := "SET".toList
  sub := none
  operands := [.str "foo".toList, .int 1]
  name_word := isWord_of_all (by decide +kernel)
  sub_word := by simp
  maximal := by
    intro _ a ha
    cases ha
    decide +kernel
  slot_id := by simp

def ping : Command where
  name := "PING".toList
  sub := none
  operands := []
  name_word := isWord_of_all (by decide +kernel)
  sub_word := by simp
  maximal := by simp
  slot_id := by simp

/-- `PING` in capitals in both clients, and `SET` in both. -/
theorem routes_alike_in_capitals :
    SameRoutes true setParser ⟨false, "ping".toList, []⟩ ⟨true, "PING".toList, []⟩ ∧
      SameRoutes true setParser ⟨false, "set".toList, setFoo.operands⟩ ⟨true, "SET".toList, setFoo.operands⟩ := by
  have hping (s : Chars) (hs : SameWord s "PING".toList) (asyncio : Bool) :
      (Call.mk asyncio s []).Spells ping := .single rfl hs
  have hset (s : Chars) (hs : SameWord s "SET".toList) (asyncio : Bool) :
      (Call.mk asyncio s setFoo.operands).Spells setFoo := .single rfl hs
  have hregular : setFoo.Regular setParser := by
    refine ⟨fun _ => ⟨fun info hinfo => ?_, fun h => ?_⟩, by simp [setFoo]⟩
    · have hname : lower setFoo.name = "set".toList := by decide
      simp only [setParser, hname, if_true, reduceCtorEq, or_false, Option.some.injEq] at hinfo
      subst hinfo
      exact ⟨.inr (by decide), by simp⟩
    · have hno : among ["EVAL", "EVALSHA"] (upper setFoo.name) = false := by decide
      rw [hno] at h
      cases h
  have hsets := routes_alike setParser setFoo true (hset "set".toList (sameWord_lower "SET".toList) false)
    (hset "SET".toList (sameWord_refl _) true)
  constructor
  · refine (routes_alike setParser ping true (hping "ping".toList (sameWord_lower "PING".toList) false)
      (hping "PING".toList (sameWord_refl _) true)).1.mpr ⟨by decide +kernel, fun h => ?_⟩
    exact absurd h (by decide +kernel)
  · refine hsets.1.mpr ⟨by decide +kernel, fun _ => ⟨?_, fun _ _ => by decide +kernel⟩⟩
    exact (hsets.2 (fun _ _ _ _ => rfl) hregular).mpr (by decide +kernel)

/-- `ping` is sent to the default node by the sync client alone. -/
theorem lower_ping_differs : ¬ ∀ p : CommandsParser, p.IgnoresCase → ∀ c, RoutesAlike p c := by
  intro h
  have hspells (asyncio : Bool) : (Call.mk asyncio "ping".toList []).Spells ping :=
    .single rfl (sameWord_lower "PING".toList)
  have hsame := h setParser (fun _ _ _ _ => rfl) ping false _ _ (hspells false) (hspells true)
  have hdiffers : (Call.mk false "ping".toList []).listed ≠ (Call.mk true "ping".toList []).listed := by
    decide +kernel
  exact hdiffers hsame.listed

end CommandRouting

end RedisPy
