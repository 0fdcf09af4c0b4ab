import RedisPy.Spec.Monitor
import RedisPy.Proofs.GraphParams

/-! `next_command` gives back the arguments of a command: without their quotes, with the
double quotes in them as they were, and with each backslash as the server doubled it, as long
as no argument ends in a backslash. -/

namespace RedisPy

namespace Monitor

/-- Where a command comes from. The address of a peer is the text the server has for it. -/
inductive Origin where
  | lua
  | unix (path : Chars)
  | tcp (host : Chars) (port : Nat)

namespace Origin

def text : Origin → Chars
  | lua => "lua".toList
  | unix path => "unix:".toList ++ path
  | tcp host port => host ++ ':' :: Numeral.natText port

/-- No bracket with a blank after it in a path, no blank in a host. -/
def Plain : Origin → Prop
  | lua => True
  | unix path => '\n' ∉ path ∧ ¬ [']', ' '] <:+: path
  | tcp host _ => '\n' ∉ host ∧ ' ' ∉ host ∧ ¬ "unix".toList <+: host

def address : Origin → Chars
  | lua => "lua".toList
  | unix _ => "unix".toList
  | tcp host _ => host

def port : Origin → Chars
  | lua => []
  | unix path => path
  | tcp _ port => Numeral.natText port

def type : Origin → ClientType
  | lua => .lua
  | unix _ => .unix
  | tcp .. => .tcp

end Origin

/-- A command as the server reports it. -/
structure Report where
  time : Chars
  db : Nat
  origin : Origin
  args : List Chars
  time_plain : ' ' ∉ time
  origin_plain : origin.Plain
  args_ne_nil : args ≠ []
  args_plain : ∀ arg ∈ args, '\n' ∉ arg

/-- An argument as the server reports it. -/
def quoted (arg : Chars) : Chars := '"' :: arg.flatMap Cypher.escaped ++ ['"']

/-- The report, as one line. -/
def Report.text (r : Report) : Chars :=
  r.time ++ " [".toList ++ Numeral.natText r.db ++ ' ' :: r.origin.text ++ "] ".toList ++
    [' '].intercalate (r.args.map quoted)

/-- A character of an argument in `command`: the backslashes stay doubled. -/
def shown (c : Char) : Chars := if c = '\\' then ['\\', '\\'] else [c]

/-- What `next_command` should return, when an argument is shown by `show_`. -/
def Report.command {τ : Type} (r : Report) (time : τ) (show_ : Chars → Chars) : Command τ where
  time
  db := r.db
  client_address := r.origin.address
  client_port := r.origin.port
  client_type := r.origin.type
  command := [' '].intercalate (r.args.map show_)

section Quotes

theorem closeQuote_escaped {c : Char} (hc : c ≠ '\n') (prev : Char) (cs : Chars) :
    closeQuote prev (Cypher.escaped c ++ cs) =
      (closeQuote c cs).map fun m => (Cypher.escaped c ++ m.1, m.2) := by
  by_cases hb : c = '\\'
  · subst hb
    cases h : closeQuote '\\' cs <;> simp [Cypher.escaped, closeQuote, h]
  · by_cases hq : c = '"'
    · subst hq
      cases h : closeQuote '"' cs <;> simp [Cypher.escaped, closeQuote, h]
    · cases h : closeQuote c cs <;> simp [Cypher.escaped, closeQuote, hb, hq, hc, h]

/-- The group ends at the argument's own quote, unless a backslash stands before that. -/
theorem closeQuote_arg {arg : Chars} (hline : '\n' ∉ arg) {prev : Char}
    (hlast : (prev :: arg).getLast? ≠ some '\\') (rest : Chars) :
    closeQuote prev (arg.flatMap Cypher.escaped ++ '"' :: rest) =
      some (arg.flatMap Cypher.escaped, rest) := by
  induction arg generalizing prev with
  | nil =>
    have hprev : prev ≠ '\\' := by simpa using hlast
    simp [closeQuote, hprev]
  | cons c arg ih =>
    have hc : c ≠ '\n' := fun he => hline (he ▸ List.mem_cons_self)
    have harg : '\n' ∉ arg := fun hmem => hline (List.mem_cons_of_mem c hmem)
    rw [List.flatMap_cons, List.append_assoc, closeQuote_escaped hc, ih harg (by simpa using hlast)]
    rfl

theorem not_mem_quoted {arg : Chars} (hline : '\n' ∉ arg) : '\n' ∉ quoted arg := by
  intro hmem
  simp only [quoted, List.cons_append, List.mem_cons, List.mem_append, List.mem_flatMap,
    List.not_mem_nil, or_false] at hmem
  rcases hmem with hq | ⟨c, hc, hmem⟩ | hq
  · cases hq
  · rw [Cypher.escaped] at hmem
    split at hmem
    next => simp at hmem
    next =>
      split at hmem
      next => simp at hmem
      next => exact hline (List.mem_singleton.mp hmem ▸ hc)
  · cases hq

theorem findAll_quoted {arg : Chars} (hline : '\n' ∉ arg) (hlast : arg.getLast? ≠ some '\\')
    (fuel : Nat) (rest : Chars) :
    findAll (fuel + 1) (quoted arg ++ rest) = arg.flatMap Cypher.escaped :: findAll fuel rest := by
  have hlast' : ('"' :: arg).getLast? ≠ some '\\' := by
    cases arg with
    | nil => decide
    | cons c arg => simpa using hlast
  have hclose := closeQuote_arg hline hlast' rest
  have hquoted : quoted arg ++ rest = '"' :: (arg.flatMap Cypher.escaped ++ '"' :: rest) := by
    simp [quoted]
  rw [hquoted, findAll, if_pos rfl, hclose]

theorem findAll_args {args : List Chars}
    (h : ∀ arg ∈ args, '\n' ∉ arg ∧ arg.getLast? ≠ some '\\') {fuel : Nat}
    (hf : ([' '].intercalate (args.map quoted)).length ≤ fuel) :
    findAll fuel ([' '].intercalate (args.map quoted)) =
      args.map (List.flatMap Cypher.escaped) := by
  induction args generalizing fuel with
  | nil => cases fuel <;> rfl
  | cons arg args ih =>
    obtain ⟨hline, hlast⟩ := h arg (by simp)
    have hargs : ∀ a ∈ args, '\n' ∉ a ∧ a.getLast? ≠ some '\\' := fun a ha => h a (by simp [ha])
    have hlength : (quoted arg).length = (arg.flatMap Cypher.escaped).length + 2 := by simp [quoted]
    cases args with
    | nil =>
      have hone : [' '].intercalate ([arg].map quoted) = quoted arg ++ [] := by simp
      rw [hone] at hf ⊢
      obtain ⟨fuel, rfl⟩ : ∃ n, fuel = n + 1 := ⟨fuel - 1, by simp [hlength] at hf; omega⟩
      rw [findAll_quoted hline hlast]
      cases fuel <;> rfl
    | cons arg' args =>
      have hmore : [' '].intercalate ((arg :: arg' :: args).map quoted) =
          quoted arg ++ ' ' :: [' '].intercalate ((arg' :: args).map quoted) := by
        simp [List.intercalate_cons_cons]
      rw [hmore] at hf ⊢
      simp only [List.length_append, List.length_cons, hlength] at hf
      obtain ⟨fuel, rfl⟩ : ∃ n, fuel = n + 2 := ⟨fuel - 2, by omega⟩
      have hblank : ' ' ≠ '"' := by decide
      rw [findAll_quoted hline hlast, findAll, if_neg hblank, ih hargs (by omega)]
      rfl

end Quotes

section Escapes

theorem dropEscapes_cons {c : Char} {cs : Chars} (h : c ≠ '\\' ∨ cs.head? ≠ some '"') :
    dropEscapes (c :: cs) = c :: dropEscapes cs := by
  rw [dropEscapes]
  rintro ds rfl rfl
  simp at h

/-- What is left of an escaped character, when no quote follows. -/
theorem dropEscapes_escaped (c : Char) {cs : Chars} (h : cs.head? ≠ some '"') :
    dropEscapes (Cypher.escaped c ++ cs) = shown c ++ dropEscapes cs := by
  by_cases hb : c = '\\'
  · subst hb
    have hsecond : dropEscapes ('\\' :: cs) = '\\' :: dropEscapes cs := dropEscapes_cons (.inr h)
    have hfirst : dropEscapes ('\\' :: '\\' :: cs) = '\\' :: dropEscapes ('\\' :: cs) :=
      dropEscapes_cons (.inr (by simp))
    simp [Cypher.escaped, shown, hfirst, hsecond]
  · by_cases hq : c = '"'
    · subst hq
      simp [Cypher.escaped, shown, dropEscapes]
    · simp [Cypher.escaped, shown, hb, hq, dropEscapes_cons (.inl hb)]

theorem head?_escaped (arg : Chars) {rest : Chars} (h : rest.head? ≠ some '"') :
    (arg.flatMap Cypher.escaped ++ rest).head? ≠ some '"' := by
  cases arg with
  | nil => exact h
  | cons c arg =>
    rw [List.flatMap_cons, List.append_assoc, Cypher.escaped]
    split
    next => simp
    next =>
      split
      next => simp
      next hq => simpa using hq

theorem dropEscapes_arg (arg rest : Chars) (h : rest.head? ≠ some '"') :
    dropEscapes (arg.flatMap Cypher.escaped ++ rest) = arg.flatMap shown ++ dropEscapes rest := by
  induction arg with
  | nil => rfl
  | cons c arg ih =>
    rw [List.flatMap_cons, List.append_assoc, dropEscapes_escaped c (head?_escaped arg h), ih,
      List.flatMap_cons, List.append_assoc]

theorem dropEscapes_args (args : List Chars) :
    dropEscapes ([' '].intercalate (args.map (List.flatMap Cypher.escaped))) =
      [' '].intercalate (args.map (List.flatMap shown)) := by
  induction args with
  | nil => rfl
  | cons arg args ih =>
    cases args with
    | nil => simpa [dropEscapes] using dropEscapes_arg arg [] (by simp)
    | cons arg' args =>
      have hread := dropEscapes_arg arg
        (' ' :: [' '].intercalate ((arg' :: args).map (List.flatMap Cypher.escaped))) (by simp)
      rw [dropEscapes_cons (.inl (by decide)), ih] at hread
      simpa [List.intercalate_cons_cons] using hread

end Escapes

section Header

/-- The group of the client ends before the first bracket with a blank after it. -/
theorem cutAt_bracket {info : Chars} (h : ¬ [']', ' '] <:+: info) (rest : Chars) :
    Splitting.cutAt [']', ' '] (info ++ ']' :: ' ' :: rest) = some (info, rest) := by
  induction info with
  | nil => simp [Splitting.cutAt]
  | cons c info ih =>
    rw [List.infix_cons_iff, not_or] at h
    have hnext : ([']', ' '] : Chars).isPrefixOf (c :: info ++ ']' :: ' ' :: rest) = false := by
      rw [← Bool.not_eq_true, List.isPrefixOf_iff_prefix]
      intro hp
      refine h.1 ?_
      cases info with
      | nil => simp at hp
      | cons d info => simpa using hp
    rw [List.cons_append, Splitting.cutAt, ← List.cons_append, hnext, ih h.2]
    rfl

theorem not_mem_port (port : Nat) {x : Char} (hx : x.isDigit = false) :
    x ∉ Numeral.natText port := by
  intro hmem
  rw [Numeral.natText_isDigit hmem] at hx
  cases hx

theorem Origin.text_plain {o : Origin} (h : o.Plain) :
    '\n' ∉ o.text ∧ ¬ [']', ' '] <:+: o.text := by
  have hunix : "unix:".toList = ['u', 'n', 'i', 'x', ':'] := rfl
  have hlua : "lua".toList = ['l', 'u', 'a'] := rfl
  cases o with
  | lua => simp [Origin.text, hlua, List.infix_cons_iff]
  | unix path =>
    obtain ⟨hnl, hinfix⟩ := h
    simp [Origin.text, hunix, List.infix_cons_iff, hnl, hinfix]
  | tcp host port =>
    obtain ⟨hnl, hblank, -⟩ := h
    constructor
    · simp [Origin.text, hnl, not_mem_port port (x := '\n') rfl]
    · intro hinfix
      have hmem : ' ' ∈ (Origin.tcp host port).text := hinfix.subset (by simp)
      simp [Origin.text, hblank, not_mem_port port (x := ' ') rfl] at hmem

/-- The last colon of a peer's address stands before the port. -/
theorem rsplitColon_peer (host : Chars) (port : Nat) :
    rsplitColon (host ++ ':' :: Numeral.natText port) = .ok (host, Numeral.natText port) := by
  have hport : ∀ c ∈ (Numeral.natText port).reverse, (c == ':') = false := by
    intro c hc
    rw [beq_eq_false_iff_ne]
    rintro rfl
    exact not_mem_port port rfl (List.mem_reverse.mp hc)
  have hreverse : (host ++ ':' :: Numeral.natText port).reverse =
      (Numeral.natText port).reverse ++ ':' :: host.reverse := by simp
  rw [rsplitColon, hreverse, Splitting.splitOnce_append hport rfl]
  simp

theorem clientOf_text {o : Origin} (h : o.Plain) :
    clientOf o.text = .ok (o.address, o.port, o.type) := by
  cases o with
  | lua => rfl
  | unix path => rfl
  | tcp host port =>
    obtain ⟨-, -, hunix⟩ := h
    have hlua : host ++ ':' :: Numeral.natText port ≠ "lua".toList := by
      intro he
      have hmem : ':' ∈ "lua".toList := he ▸ by simp
      exact absurd hmem (by decide)
    have hprefix : "unix".toList.isPrefixOf (host ++ ':' :: Numeral.natText port) = false := by
      rw [← Bool.not_eq_true, List.isPrefixOf_iff_prefix]
      intro hp
      rcases List.prefix_or_prefix_of_prefix hp (List.prefix_append host _) with hp' | ⟨tail, ht⟩
      · exact hunix hp'
      · rw [← ht, List.prefix_append_right_inj] at hp
        cases tail with
        | nil => exact hunix ⟨[], by rw [List.append_nil, ← ht, List.append_nil]⟩
        | cons c tail =>
          have hc : c = ':' := (List.cons_prefix_cons.mp hp).1
          have hmem : ':' ∈ "unix".toList := ht ▸ by simp [hc]
          exact absurd hmem (by decide)
    simp only [clientOf, Origin.text, if_neg hlua, hprefix, rsplitColon_peer]
    rfl

theorem monitorRe_text (db : Nat) {o : Origin} (h : o.Plain) {command : Chars}
    (hline : '\n' ∉ command) :
    monitorRe ('[' :: (Numeral.natText db ++ ' ' :: (o.text ++ ']' :: ' ' :: command))) =
      some (Numeral.natText db, o.text, command) := by
  obtain ⟨hnl, hcut⟩ := Origin.text_plain h
  have hdigits : ∀ c ∈ Numeral.natText db, c.isDigit = true := fun c hc => Numeral.natText_isDigit hc
  have hstop : ∀ c ∈ (' ' :: (o.text ++ ']' :: ' ' :: command)).head?, c.isDigit = false := by simp
  obtain ⟨htake, hdrop⟩ := Cypher.takeWhile_stop hdigits hstop
  have hne : Numeral.natText db ≠ [] := Nat.toDigits_ne_nil
  have hall : command.takeWhile (· ≠ '\n') = command := by
    rw [List.takeWhile_eq_self_iff]
    intro c hc
    have hcne : c ≠ '\n' := fun he => hline (he ▸ hc)
    simpa using hcne
  simp only [monitorRe, htake, hdrop, cutAt_bracket hcut, hall]
  rw [if_pos ⟨hne, hnl⟩]

end Header

/-- What `next_command` makes of a report is right, when an argument is shown by `show_`. -/
def Recovers (show_ : Chars → Chars) (r : Report) : Prop :=
  ∀ (τ : Type) (float : Chars → Except Exc τ) (time : τ) (decode : Bytes → Except Exc Chars)
    (response : ClientText), float r.time = .ok time → decoded decode response = .ok r.text →
      nextCommand float decode response = .ok (r.command time show_)

/-- The arguments are given back, with their backslashes doubled. -/
theorem nextCommand_report (r : Report) (h : ∀ arg ∈ r.args, arg.getLast? ≠ some '\\') :
    Recovers (List.flatMap shown) r := by
  intro τ float time decode response hfloat hd
  have htime : ∀ c ∈ r.time, (c == ' ') = false := by
    intro c hc
    rw [beq_eq_false_iff_ne]
    rintro rfl
    exact r.time_plain hc
  have hargs : ∀ arg ∈ r.args, '\n' ∉ arg ∧ arg.getLast? ≠ some '\\' :=
    fun arg harg => ⟨r.args_plain arg harg, h arg harg⟩
  have hline : '\n' ∉ [' '].intercalate (r.args.map quoted) := by
    intro hmem
    rcases Splitting.mem_intercalate hmem with hblank | ⟨w, hw, hc⟩
    · cases hblank
    · obtain ⟨arg, harg, rfl⟩ := List.mem_map.mp hw
      exact not_mem_quoted (r.args_plain arg harg) hc
  have htext : r.text = r.time ++ ' ' :: ('[' :: (Numeral.natText r.db ++
      ' ' :: (r.origin.text ++ ']' :: ' ' :: [' '].intercalate (r.args.map quoted)))) := by
    simp [Report.text]
  have hdb : Numeral.readInt (Numeral.natText r.db) = some (r.db : Int) :=
    Numeral.readInt_intText (Int.ofNat r.db)
  have hsplit := Splitting.splitOnce_append (s := ' ') htime rfl ('[' :: (Numeral.natText r.db ++
    ' ' :: (r.origin.text ++ ']' :: ' ' :: [' '].intercalate (r.args.map quoted))))
  rw [nextCommand, hd]
  simp only [htext, hsplit, bind, Except.bind, monitorRe_text r.db r.origin_plain hline,
    findAll_args hargs (Nat.le_refl _), dropEscapes_args, clientOf_text r.origin_plain, hfloat, hdb]
  rfl

/-- `GET` of a key with a quote, a blank and a quote in it, and of an empty one. -/
def reportOfQuotes : Report where
  time := "1339518083.107412".toList
  db := 0
  origin := .tcp "127.0.0.1".toList 60866
  args := ["MGET".toList, "foo\" \"bar".toList, []]
  time_plain := by decide
  origin_plain := by
    refine ⟨by decide, by decide, ?_⟩
    rw [← List.isPrefixOf_iff_prefix]
    decide
  args_ne_nil := by simp
  args_plain := by decide

theorem nextCommand_quotes : Recovers (List.flatMap shown) reportOfQuotes :=
  nextCommand_report reportOfQuotes (by decide)

/-- `GET` of a key with a backslash in it, from a script. -/
def reportOfBackslash : Report where
  time := "1339518083.107412".toList
  db := 0
  origin := .lua
  args := ["GET".toList, "foo\\x92".toList]
  time_plain := by decide
  origin_plain := trivial
  args_ne_nil := by simp
  args_plain := by decide

theorem nextCommand_not_unescaped : ¬ Recovers id reportOfBackslash := by
  intro h
  have hok := h Chars .ok reportOfBackslash.time (fun _ => .ok []) (.str reportOfBackslash.text) rfl rfl
  revert hok
  decide +kernel

end Monitor

end RedisPy
