import RedisPy.Spec.ExecutionPlan
import RedisPy.Proofs.OperationStack

/-! Plans and their lines, and the loop over the lines: every operation it makes hangs under the
first, at the depth that the stack of depths gives it. -/

namespace RedisPy

namespace ExecutionPlan

/-- A name or an argument of an operation. -/
structure PlainText (text : Chars) : Prop where
  ne_nil : text ≠ []
  head_plain : ∀ c ∈ text.head?, isSpaceChar c = false
  last_plain : ∀ c ∈ text.getLast?, isSpaceChar c = false
  no_bar : '|' ∉ text
  no_newline : '\n' ∉ text
  no_indent : ¬ [' ', ' ', ' ', ' '] <:+: text

/-- An operation without profile statistics. -/
structure Operation.Plain (op : Operation) : Prop where
  name_plain : PlainText op.name
  args_plain : ∀ args ∈ op.args, PlainText args ∧ occurs recordsProduced args = false
  no_stats : op.profile_stats = none

/-- A plan: an operation with the operations under it. -/
structure PlanTree where
  root : Operation
  children : Forest Operation
  plain : ∀ op ∈ (Forest.cons root children .nil).labels, op.Plain

/-- A line of a plan. -/
def lineAt (e : Nat × Operation) : Chars := List.replicate (4 * e.1) ' ' ++ e.2.str

namespace PlanTree

variable (t : PlanTree)

/-- The operations with their levels, in the order of the lines. -/
def operations : List (Nat × Operation) := (Forest.cons t.root t.children .nil).preorder 0

def levels : List Nat := t.operations.map Prod.fst

def lines : List Chars := t.operations.map lineAt

def text : Chars := ['\n'].intercalate t.lines

/-- The tree is read from its lines, and its string is the lines again. -/
def Inverts : Prop :=
  ∀ (decode : Bytes → Except Exc Chars) (stats : Chars → Except Exc ProfileStats) (plan : PlanReply),
    plan.lines decode = .ok t.lines →
      ∃ p, init decode stats plan = .ok p ∧ p.structured_plan = (t.root, t.children) ∧ p.str = t.text

end PlanTree

section Lines

theorem countIndent_cons {c : Char} {cs : Chars}
    (h : ∀ ds, c :: cs ≠ ' ' :: ' ' :: ' ' :: ' ' :: ds) : countIndent (c :: cs) = countIndent cs := by
  rw [countIndent]
  rintro ds rfl rfl
  exact h ds rfl

/-- Nothing is counted in a text without an indentation that ends in no blank. -/
theorem countIndent_append {w : Chars} (hw : ¬ [' ', ' ', ' ', ' '] <:+: w)
    (hl : ∀ c ∈ w.getLast?, c ≠ ' ') (rest : Chars) : countIndent (w ++ rest) = countIndent rest := by
  induction w with
  | nil => rfl
  | cons c w ih =>
    rw [List.infix_cons_iff, not_or] at hw
    have hl' : ∀ d ∈ w.getLast?, d ≠ ' ' := by
      intro d hd
      refine hl d ?_
      cases w with
      | nil => cases hd
      | cons => simpa using hd
    rw [List.cons_append, countIndent_cons, ih hw.2 hl']
    intro ds he
    obtain ⟨rfl, he⟩ := List.cons.inj he
    -- three more blanks are in the text, or it ends before the third
    rcases w with _ | ⟨x, _ | ⟨y, _ | ⟨z, w⟩⟩⟩
    · exact hl ' ' rfl rfl
    · obtain ⟨rfl, -⟩ : x = ' ' ∧ rest = ' ' :: ' ' :: ds := by simpa using he
      exact hl ' ' rfl rfl
    · obtain ⟨rfl, rfl, -⟩ : x = ' ' ∧ y = ' ' ∧ rest = ' ' :: ds := by simpa using he
      exact hl ' ' rfl rfl
    · obtain ⟨rfl, rfl, rfl, -⟩ : x = ' ' ∧ y = ' ' ∧ z = ' ' ∧ w ++ rest = ds := by simpa using he
      exact hw.1 ⟨w, rfl⟩

theorem countIndent_replicate (d : Nat) (rest : Chars) :
    countIndent (List.replicate (4 * d) ' ' ++ rest) = d + countIndent rest := by
  induction d with
  | zero => simp
  | succ d ih =>
    have hfour : List.replicate (4 * (d + 1)) ' ' =
        ' ' :: ' ' :: ' ' :: ' ' :: List.replicate (4 * d) ' ' := rfl
    rw [hfour]
    simp only [List.cons_append, countIndent, ih]
    omega

theorem PlainText.last_ne_blank {w : Chars} (h : PlainText w) : ∀ c ∈ w.getLast?, c ≠ ' ' := by
  rintro c hc rfl
  have := h.last_plain ' ' hc
  cases this

theorem PlainText.exists_head {w : Chars} (h : PlainText w) :
    ∃ c cs, w = c :: cs ∧ isSpaceChar c = false := by
  cases w with
  | nil => exact absurd rfl h.ne_nil
  | cons c cs => exact ⟨c, cs, rfl, h.head_plain c rfl⟩

theorem countIndent_str {op : Operation} (h : op.Plain) : countIndent op.str = 0 := by
  have hname (rest : Chars) := countIndent_append h.name_plain.no_indent h.name_plain.last_ne_blank rest
  rw [Operation.str]
  split
  next => simpa [countIndent] using hname []
  next args hargs =>
    have hplain := (h.args_plain args hargs).1
    have hrest := countIndent_append hplain.no_indent hplain.last_ne_blank []
    obtain ⟨c, cs, rfl, hc⟩ := hplain.exists_head
    have hbar : " | ".toList = [' ', '|', ' '] := rfl
    have hblank : c ≠ ' ' := by rintro rfl; cases hc
    rw [List.append_assoc, hname, hbar]
    simp only [List.cons_append, List.nil_append]
    rw [countIndent_cons (by simp), countIndent_cons (by simp), countIndent_cons (by simp [hblank])]
    simpa [countIndent] using hrest

/-- The level of a line is the level of its operation. -/
theorem countIndent_lineAt {op : Operation} (h : op.Plain) (d : Nat) :
    countIndent (lineAt (d, op)) = d := by
  rw [lineAt, countIndent_replicate, countIndent_str h]
  rfl

theorem dropWhile_blanks {before : Chars} (hb : ∀ c ∈ before, isSpaceChar c = true) {w : Chars}
    (hne : w ≠ []) (hw : ∀ c ∈ w.head?, isSpaceChar c = false) :
    (before ++ w).dropWhile isSpaceChar = w := by
  rw [List.dropWhile_append_of_pos hb]
  cases w with
  | nil => exact absurd rfl hne
  | cons c cs => exact List.dropWhile_cons_of_neg (by simp [hw c rfl])

/-- Blanks around a text are stripped. -/
theorem stripText_blanks {w : Chars} (h : PlainText w) (before after : Chars)
    (hb : ∀ c ∈ before, isSpaceChar c = true) (ha : ∀ c ∈ after, isSpaceChar c = true) :
    stripText (before ++ w ++ after) = w := by
  obtain ⟨c, cs, hw, hc⟩ := h.exists_head
  have hfirst : (before ++ w ++ after).dropWhile isSpaceChar = w ++ after := by
    rw [List.append_assoc]
    refine dropWhile_blanks hb (by simp [hw]) ?_
    simp [hw, hc]
  have hlast : (w ++ after).reverse.dropWhile isSpaceChar = w.reverse := by
    rw [List.reverse_append]
    refine dropWhile_blanks (fun d hd => ha d (List.mem_reverse.mp hd)) (by simp [hw]) ?_
    intro d hd
    exact h.last_plain d (by rwa [List.head?_reverse] at hd)
  rw [stripText, hfirst, hlast, List.reverse_reverse]

theorem isSpaceChar_replicate (n : Nat) : ∀ c ∈ List.replicate n ' ', isSpaceChar c = true := by
  intro c hc
  rw [(List.mem_replicate.mp hc).2]
  rfl

theorem occurs_blank (text : Chars) :
    occurs recordsProduced (' ' :: text) = occurs recordsProduced text := by
  have hrecords : recordsProduced = 'R' :: "ecords produced".toList := rfl
  rw [occurs, hrecords, Splitting.cutAt, if_neg (by simp), Option.isSome_map]
  rfl

/-- The pieces of a line give the operation back. -/
theorem createOperation_lineAt {op : Operation} (h : op.Plain) (d : Nat)
    (stats : Chars → Except Exc ProfileStats) :
    createOperation stats ((lineAt (d, op)).splitOn '|') = .ok op := by
  obtain ⟨name, args, profile_stats⟩ := op
  have hname : PlainText name := h.name_plain
  have hstats : profile_stats = none := h.no_stats
  have hindent := isSpaceChar_replicate (4 * d)
  have hbar : '|' ∉ List.replicate (4 * d) ' ' := by simp [List.mem_replicate]
  subst hstats
  cases args with
  | none =>
    have hstrip := stripText_blanks hname _ [] hindent (by simp)
    have hsplit : (List.replicate (4 * d) ' ' ++ name).splitOn '|' =
        [List.replicate (4 * d) ' ' ++ name] :=
      List.splitOn_eq_singleton (by simp [hbar, hname.no_bar])
    rw [List.append_nil] at hstrip
    simp only [lineAt, Operation.str, hsplit, createOperation, hstrip]
    rfl
  | some args =>
    obtain ⟨hplain, hrecords⟩ := h.args_plain args rfl
    have hblank : ∀ c ∈ [' '], isSpaceChar c = true := by simp [isSpaceChar]
    have hstrip := stripText_blanks hname _ [' '] hindent hblank
    have hstrip' := stripText_blanks hplain [' '] [] hblank (by simp)
    have hsplit : (List.replicate (4 * d) ' ' ++ (name ++ " | ".toList ++ args)).splitOn '|' =
        [List.replicate (4 * d) ' ' ++ name ++ [' '], ' ' :: args] := by
      have hline : List.replicate (4 * d) ' ' ++ (name ++ " | ".toList ++ args) =
          (List.replicate (4 * d) ' ' ++ name ++ [' ']) ++ '|' :: ' ' :: args := by simp
      rw [hline, List.splitOn_append_cons_self_of_not_mem (by simp [hbar, hname.no_bar]),
        List.splitOn_eq_singleton (by simp [hplain.no_bar])]
    rw [List.append_nil, List.singleton_append] at hstrip'
    simp only [lineAt, Operation.str, hsplit, createOperation, List.getLast?_singleton,
      occurs_blank, hrecords, hstrip, List.head?_cons, Option.map_some, hstrip']
    rfl

end Lines

section Depths

/-- The branches of the loop for an operation at a level. -/
def place (s : Builder) (e : Nat × Operation) : Except Exc Builder :=
  if e.1 = s.level then s.sameLevel e.2
  else if e.1 = s.level + 1 then s.nextLevel e.2
  else if e.1 < s.level then do
    let s ← s.goBack e.1
    s.nextLevel e.2
  else .error { cls := .Exception, msg := "corrupted plan" }

theorem visitLine_lineAt (stats : Chars → Except Exc ProfileStats) (s : Builder)
    {e : Nat × Operation} (h : e.2.Plain) : s.visitLine stats (lineAt e) = place s e := by
  have hlevel := countIndent_lineAt h e.1
  have hcreate := createOperation_lineAt h e.1 stats
  rw [Builder.visitLine, place]
  simp only [hlevel, hcreate, bind, Except.bind]

/-- What a builder holds: the operations made so far with their depths, and the depths of the
operations on its stack, which are all on the way down to the last operation. -/
structure Holds (s : Builder) (made : List (Nat × Operation)) (held : List Nat) : Prop where
  made_eq : s.made = made.length
  spine_ne_nil : s.operations.spine ≠ []
  preorder_eq : (s.operations.preorder 0).map (fun e => (e.1, e.2.2)) = made
  refs_eq : s.operations.labels.map Prod.fst = List.range s.made
  current_eq : s.current = (s.operations.spine.map Prod.fst).getLast?
  stack_eq : s.stack.map some = held.map fun d => (s.operations.spine.map Prod.fst)[d]?
  sorted : held.Pairwise (· > ·)
  held_lt : ∀ d ∈ held, d + 1 < s.operations.spine.length

variable {s : Builder} {made : List (Nat × Operation)} {held held' : List Nat}

/-- What it takes to attach an operation to one on the way down. -/
theorem Holds.attach (hs : Holds s made held) (op : Operation) (s' : Builder) {h parent : Nat}
    (hp : (s.operations.spine.map Prod.fst)[h]? = some parent)
    (hops : s'.operations = (s.appendChild op parent).operations)
    (hmade : s'.made = s.made + 1) (hcurrent : s'.current = some s.made)
    (hstack : s'.stack.map some = held'.map fun d => (s.operations.spine.map Prod.fst)[d]?)
    (hsorted : held'.Pairwise (· > ·)) (hle : ∀ d ∈ held', d ≤ h) :
    Holds s' (made ++ [(h + 1, op)]) held' ∧ s'.operations.spine.length = h + 2 := by
  obtain ⟨a, ha, rfl⟩ : ∃ a, s.operations.spine[h]? = some a ∧ a.1 = parent := by
    rw [List.getElem?_map, Option.map_eq_some_iff] at hp
    exact hp
  obtain ⟨hlt, hget⟩ := List.getElem?_eq_some_iff.mp ha
  have hsplit : s.operations.spine = s.operations.spine.take h ++ a :: s.operations.spine.drop (h + 1) := by
    rw [← hget, ← List.drop_eq_getElem_cons hlt, List.take_append_drop]
  have hunique : s.operations.labels.Pairwise
      fun b c => (b.1 == a.1) = false ∨ (c.1 == a.1) = false := by
    have hnodup : (s.operations.labels.map Prod.fst).Nodup := by
      rw [hs.refs_eq]
      exact List.nodup_range
    refine (List.pairwise_map.mp hnodup).imp fun {b c} hne => ?_
    by_cases hb : b.1 = a.1
    · exact .inr (by simpa [← hb] using Ne.symm hne)
    · exact .inl (by simpa using hb)
  obtain ⟨hpre, hspine⟩ := Forest.appendChild_spine (p := fun b => b.1 == a.1) hsplit (by simp) hunique
    (s.made, op) 0
  have hlength : (s.operations.spine.take h).length = h := by
    rw [List.length_take]
    omega
  rw [hlength, Nat.zero_add] at hpre
  have hrefs : s'.operations.spine.map Prod.fst =
      (s.operations.spine.map Prod.fst).take (h + 1) ++ [s.made] := by
    rw [hops, Builder.appendChild, hspine, ← List.map_take, List.take_succ_eq_append_getElem hlt, hget]
    simp
  have hspine_length : s'.operations.spine.length = h + 2 := by
    rw [hops, Builder.appendChild, hspine, List.length_append, hlength]
    rfl
  refine ⟨⟨?_, ?_, ?_, ?_, ?_, ?_, hsorted, ?_⟩, hspine_length⟩
  · rw [hmade, hs.made_eq, List.length_append]
    rfl
  · exact List.ne_nil_of_length_pos (by omega)
  · rw [hops, Builder.appendChild, hpre, List.map_append, hs.preorder_eq]
    rfl
  · rw [hops, Builder.appendChild, ← Forest.map_snd_preorder _ 0, hpre, List.map_append,
      List.map_append, Forest.map_snd_preorder, hs.refs_eq, hmade, List.range_succ]
    rfl
  · rw [hcurrent, hrefs, List.getLast?_append]
    rfl
  · rw [hstack, hrefs]
    refine List.map_congr_left fun d hd => ?_
    have hd' := hle d hd
    rw [List.getElem?_append_left (by rw [List.length_take, List.length_map]; omega),
      List.getElem?_take_of_lt (by omega)]
  · intro d hd
    have hd' := hle d hd
    omega

/-- The depth of the last operation. -/
def Builder.depth (s : Builder) : Nat := s.operations.spine.length - 1

/-- What is on the stack below `n` operations. -/
theorem Holds.stack_drop (hs : Holds s made held) {n h : Nat} {rest : List Nat}
    (hrest : held.drop n = h :: rest) :
    ∃ c stack, s.stack.drop n = c :: stack ∧
      (s.operations.spine.map Prod.fst)[h]? = some c ∧
      stack.map some = rest.map fun d => (s.operations.spine.map Prod.fst)[d]? := by
  have hdrop : (s.stack.drop n).map some =
      (h :: rest).map fun d => (s.operations.spine.map Prod.fst)[d]? := by
    rw [List.map_drop, hs.stack_eq, ← List.map_drop, hrest]
  cases hstack : s.stack.drop n with
  | nil => simp [hstack] at hdrop
  | cons c stack =>
    rw [hstack, List.map_cons, List.map_cons] at hdrop
    obtain ⟨hc, htail⟩ := List.cons.inj hdrop
    exact ⟨c, stack, rfl, hc.symm, htail⟩

theorem Holds.stack_length (hs : Holds s made held) : s.stack.length = held.length := by
  simpa using congrArg List.length hs.stack_eq

theorem Holds.nextLevel (hs : Holds s made held) (op : Operation) :
    ∃ s', s.nextLevel op = .ok s' ∧ s'.level = s.level + 1 ∧ s'.depth = s.depth + 1 ∧
      Holds s' (made ++ [(s.depth + 1, op)]) (s.depth :: held) := by
  have hpos : 0 < s.operations.spine.length := List.length_pos_iff.mpr hs.spine_ne_nil
  obtain ⟨c, hc⟩ : ∃ c, (s.operations.spine.map Prod.fst)[s.depth]? = some c := by
    rw [Builder.depth]
    exact ⟨_, List.getElem?_eq_getElem (by rw [List.length_map]; omega)⟩
  have hcurrent : s.current = some c := by
    rw [hs.current_eq, List.getLast?_eq_getElem?, List.length_map]
    exact hc
  have hstack : (c :: s.stack).map some =
      (s.depth :: held).map fun d => (s.operations.spine.map Prod.fst)[d]? := by
    rw [List.map_cons, List.map_cons, hc, hs.stack_eq]
  have hlt : ∀ d ∈ held, d < s.depth := by
    intro d hd
    have := hs.held_lt d hd
    rw [Builder.depth]
    omega
  have hle : ∀ d ∈ s.depth :: held, d ≤ s.depth := by
    intro d hd
    rcases List.mem_cons.mp hd with rfl | hd
    · exact Nat.le_refl _
    · exact Nat.le_of_lt (hlt d hd)
  refine ⟨_, by rw [Builder.nextLevel, hcurrent], rfl, ?_⟩
  obtain ⟨hholds, hlength⟩ := hs.attach op
    { s.appendChild op c with stack := c :: s.stack, level := s.level + 1 } hc rfl rfl rfl
    hstack (List.pairwise_cons.mpr ⟨hlt, hs.sorted⟩) hle
  refine ⟨?_, hholds⟩
  rw [Builder.depth, hlength]
  omega

theorem Holds.sameLevel {h : Nat} (hs : Holds s made (h :: held)) (op : Operation) :
    ∃ s', s.sameLevel op = .ok s' ∧ s'.level = s.level ∧ s'.depth = h + 1 ∧
      Holds s' (made ++ [(h + 1, op)]) held := by
  obtain ⟨c, stack, hstack, hc, htail⟩ := hs.stack_drop (n := 0) rfl
  obtain ⟨hlt, hsorted⟩ := List.pairwise_cons.mp hs.sorted
  have hcurrent : ∃ current, s.current = some current := by
    rw [hs.current_eq, List.getLast?_eq_getElem?]
    have := hs.held_lt h (by simp)
    exact ⟨_, List.getElem?_eq_getElem (by rw [List.length_map]; omega)⟩
  obtain ⟨current, hcurrent⟩ := hcurrent
  rw [List.drop_zero] at hstack
  have hsame : s.sameLevel op = .ok { s.appendChild op c with stack := stack } := by
    rw [Builder.sameLevel, hcurrent, hstack]
  refine ⟨_, hsame, rfl, ?_⟩
  obtain ⟨hholds, hlength⟩ := hs.attach op { s.appendChild op c with stack := stack }
    hc rfl rfl rfl htail hsorted (fun d hd => Nat.le_of_lt (hlt d hd))
  exact ⟨by rw [Builder.depth, hlength]; rfl, hholds⟩

theorem pops_drop {n c : Nat} {stack : List Nat} (h : s.stack.drop n = c :: stack) :
    Builder.pops (n + 1) s = .ok { s with current := some c, stack := stack } := by
  induction n generalizing s with
  | zero =>
    rw [List.drop_zero] at h
    simp only [Builder.pops, h]
  | succ n ih =>
    cases hstack : s.stack with
    | nil => simp [hstack] at h
    | cons x xs =>
      rw [hstack, List.drop_succ_cons] at h
      rw [Builder.pops, hstack]
      exact ih (s := { s with current := some x, stack := xs }) h

theorem pops_raises {n : Nat} (h : s.stack.length ≤ n) : ∃ e, Builder.pops (n + 1) s = .error e := by
  induction n generalizing s with
  | zero =>
    simp only [Builder.pops, List.length_eq_zero_iff.mp (Nat.le_zero.mp h)]
    exact ⟨_, rfl⟩
  | succ n ih =>
    cases hstack : s.stack with
    | nil =>
      rw [Builder.pops, hstack]
      exact ⟨_, rfl⟩
    | cons x xs =>
      rw [hstack, List.length_cons] at h
      rw [Builder.pops, hstack]
      exact ih (s := { s with current := some x, stack := xs }) (by simp only; omega)

/-- The branch of a line that is less deep, when enough of the stack is left. -/
theorem Holds.goBack {h : Nat} {rest : List Nat} (hs : Holds s made held) {op_level n : Nat}
    (hlevel : s.level = op_level + n) (hrest : held.drop n = h :: rest) (op : Operation) :
    ∃ s', (s.goBack op_level >>= fun s => s.nextLevel op) = .ok s' ∧ s'.level = op_level ∧
      s'.depth = h + 1 ∧ Holds s' (made ++ [(h + 1, op)]) (h :: rest) := by
  obtain ⟨c, stack, hstack, hc, htail⟩ := hs.stack_drop hrest
  have htimes : (s.level - op_level + 1).toNat = n + 1 := by omega
  have hback : s.goBack op_level =
      .ok { s with current := some c, stack := stack, level := s.level - (s.level - op_level + 1) } := by
    rw [Builder.goBack, htimes, pops_drop hstack]
    rfl
  have hsorted : (h :: rest).Pairwise (· > ·) := hrest ▸ hs.sorted.drop
  have hle : ∀ d ∈ h :: rest, d ≤ h := by
    intro d hd
    rcases List.mem_cons.mp hd with rfl | hd
    · exact Nat.le_refl _
    · exact Nat.le_of_lt ((List.pairwise_cons.mp hsorted).1 d hd)
  have hstack' : (c :: stack).map some =
      (h :: rest).map fun d => (s.operations.spine.map Prod.fst)[d]? := by
    rw [List.map_cons, List.map_cons, hc, htail]
  rw [hback]
  refine ⟨_, rfl, by simp only; omega, ?_⟩
  obtain ⟨hholds, hlength⟩ := hs.attach op
    { s.appendChild op c with
      stack := c :: stack, level := s.level - (s.level - op_level + 1) + 1 }
    hc rfl rfl rfl hstack' hsorted hle
  exact ⟨by rw [Builder.depth]; exact congrArg (· - 1) hlength, hholds⟩

theorem Holds.goBack_raises (hs : Holds s made held) {op_level n : Nat}
    (hlevel : s.level = op_level + n) (hrest : held.drop n = []) :
    ∃ e, s.goBack op_level = .error e := by
  have htimes : (s.level - op_level + 1).toNat = n + 1 := by omega
  have hlength : s.stack.length ≤ n := by
    rw [hs.stack_length]
    exact List.drop_eq_nil_iff.mp hrest
  obtain ⟨e, he⟩ := pops_raises hlength
  refine ⟨e, ?_⟩
  rw [Builder.goBack, htimes, he]
  rfl

/-- The loop gives an operation the parent that its level calls for in the stack. -/
theorem Holds.place {level h : Nat} (hs : Holds s made held) (hlevel : s.level = level)
    {e : Nat × Operation} (hp : parentOf level s.depth held e.1 = some (h, held')) :
    ∃ s', place s e = .ok s' ∧ s'.level = e.1 ∧ s'.depth = h + 1 ∧
      Holds s' (made ++ [(h + 1, e.2)]) held' := by
  unfold parentOf at hp
  rw [ExecutionPlan.place, hlevel]
  split at hp
  next heq =>
    rw [if_pos (congrArg Nat.cast heq)]
    cases held with
    | nil => cases hp
    | cons d held =>
      cases hp
      obtain ⟨s', hok, hl, hd, hholds⟩ := hs.sameLevel e.2
      exact ⟨s', hok, by rw [hl, hlevel, heq], hd, hholds⟩
  next hne =>
    rw [if_neg (by omega)]
    split at hp
    next heq =>
      cases hp
      rw [if_pos (by omega)]
      obtain ⟨s', hok, hl, hd, hholds⟩ := hs.nextLevel e.2
      exact ⟨s', hok, by rw [hl, hlevel, heq]; rfl, hd, hholds⟩
    next hne' =>
      rw [if_neg (by omega)]
      split at hp
      next hlt =>
        rw [if_pos (by omega)]
        split at hp
        next d rest hdrop =>
          cases hp
          exact hs.goBack (by omega) hdrop e.2
        next => cases hp
      next => cases hp

theorem Holds.place_raises {level : Nat} (hs : Holds s made held) (hlevel : s.level = level)
    {e : Nat × Operation} (hp : parentOf level s.depth held e.1 = none) :
    ∃ err, ExecutionPlan.place s e = .error err := by
  unfold parentOf at hp
  rw [ExecutionPlan.place, hlevel]
  split at hp
  next heq =>
    rw [if_pos (congrArg Nat.cast heq)]
    cases held with
    | nil =>
      have hstack : s.stack = [] := by simpa using hs.stack_eq
      rw [Builder.sameLevel, hs.current_eq, hstack, List.getLast?_eq_getLast_of_ne_nil
        (by simpa using hs.spine_ne_nil)]
      exact ⟨_, rfl⟩
    | cons d held => cases hp
  next hne =>
    rw [if_neg (by omega)]
    split at hp
    next => cases hp
    next hne' =>
      rw [if_neg (by omega)]
      split at hp
      next hlt =>
        rw [if_pos (by omega)]
        split at hp
        next => cases hp
        next hdrop =>
          have hback : ∃ err, s.goBack e.1 = .error err := hs.goBack_raises (by omega) hdrop
          obtain ⟨err, he⟩ := hback
          exact ⟨err, by rw [he]; rfl⟩
      next hge =>
        rw [if_neg (by omega)]
        exact ⟨_, rfl⟩

/-- The whole loop, after some lines of it. -/
theorem Holds.run {level : Nat} {depths last : List Nat} (hs : Holds s made held)
    (hlevel : s.level = level) {es : List (Nat × Operation)}
    (hw : walk level s.depth held (es.map Prod.fst) = some (depths, last)) :
    ∃ s', es.foldlM ExecutionPlan.place s = .ok s' ∧
      Holds s' (made ++ depths.zip (es.map Prod.snd)) last := by
  induction es generalizing s made held level depths with
  | nil =>
    cases hw
    exact ⟨s, rfl, by simpa using hs⟩
  | cons e es ih =>
    rw [List.map_cons, walk] at hw
    cases hp : parentOf level s.depth held e.1 with
    | none => simp [hp] at hw
    | some p =>
      obtain ⟨h, held'⟩ := p
      obtain ⟨s', hok, hl, hd, hholds⟩ := hs.place hlevel hp
      simp only [hp, Option.bind_eq_bind, Option.bind_some, Option.bind_eq_some_iff] at hw
      obtain ⟨⟨depths', last'⟩, hw, heq⟩ := hw
      cases heq
      rw [← hd] at hw
      obtain ⟨s'', hok', hholds'⟩ := ih hholds hl hw
      refine ⟨s'', ?_, by simpa using hholds'⟩
      rw [List.foldlM_cons, hok]
      exact hok'

theorem Holds.run_raises {level : Nat} (hs : Holds s made held)
    (hlevel : s.level = level) {es : List (Nat × Operation)}
    (hw : walk level s.depth held (es.map Prod.fst) = none) :
    ∃ err, es.foldlM ExecutionPlan.place s = .error err := by
  induction es generalizing s made held level with
  | nil => cases hw
  | cons e es ih =>
    rw [List.map_cons, walk] at hw
    rw [List.foldlM_cons]
    cases hp : parentOf level s.depth held e.1 with
    | none =>
      obtain ⟨err, he⟩ := hs.place_raises hlevel hp
      exact ⟨err, by rw [he]; rfl⟩
    | some p =>
      obtain ⟨h, held'⟩ := p
      obtain ⟨s', hok, hl, hd, hholds⟩ := hs.place hlevel hp
      simp only [hp, Option.bind_eq_bind, Option.bind_some] at hw
      have hw' : walk e.1 (h + 1) held' (es.map Prod.fst) = none := by
        cases hwalk : walk e.1 (h + 1) held' (es.map Prod.fst) with
        | none => rfl
        | some p => simp [hwalk] at hw
      rw [← hd] at hw'
      obtain ⟨err, he⟩ := ih hholds hl hw'
      exact ⟨err, by rw [hok]; exact he⟩

/-- The state after the first line. -/
def started (op : Operation) : Builder where
  operations := .cons (0, op) .nil .nil
  made := 1
  level := 0
  stack := []
  current := some 0

theorem place_initial (op : Operation) : ExecutionPlan.place .initial (0, op) = .ok (started op) := rfl

theorem holds_started (op : Operation) : Holds (started op) [(0, op)] [] where
  made_eq := rfl
  spine_ne_nil := by simp [started, Forest.spine]
  preorder_eq := rfl
  refs_eq := rfl
  current_eq := rfl
  stack_eq := rfl
  sorted := List.Pairwise.nil
  held_lt := by simp

end Depths

section Trees

variable {s : Builder} {root : Operation} {made : List (Nat × Operation)} {held : List Nat}

/-- All operations hang under the first. -/
theorem Holds.operations_eq (hs : Holds s ((0, root) :: made) held) (hdeep : ∀ e ∈ made, 0 < e.1) :
    ∃ children : Forest (Nat × Operation), s.operations = .cons (0, root) children .nil := by
  have hpre := hs.preorder_eq
  have hrefs := hs.refs_eq
  rw [hs.made_eq, List.length_cons, List.range_succ_eq_map] at hrefs
  cases hops : s.operations with
  | nil => simp [hops, Forest.preorder] at hpre
  | cons a children next =>
    rw [hops] at hpre hrefs
    simp only [Forest.preorder, List.map_cons, List.map_append, List.cons.injEq, Prod.mk.injEq,
      true_and] at hpre
    simp only [Forest.labels, List.map_cons, List.cons.injEq] at hrefs
    obtain ⟨ref, op⟩ := a
    obtain ⟨rfl, hpre⟩ := hpre
    obtain ⟨rfl, -⟩ := hrefs
    cases next with
    | nil => exact ⟨children, rfl⟩
    | cons b cs next =>
      have hmem : (0, b.2) ∈ made := by
        rw [← hpre]
        simp [Forest.preorder]
      exact absurd (hdeep _ hmem) (Nat.lt_irrefl 0)

/-- The operation at the bottom of the stack. -/
theorem Holds.stack_getLast (hs : Holds s made held) {d : Nat} (hd : held.getLast? = some d) :
    ∃ c, s.stack.getLast? = some c ∧ (s.operations.spine.map Prod.fst)[d]? = some c := by
  have hlast : (s.stack.getLast?).map some =
      some (s.operations.spine.map Prod.fst)[d]? := by
    rw [← List.getLast?_map, hs.stack_eq, List.getLast?_map, hd]
    rfl
  cases hc : s.stack.getLast? with
  | none => simp [hc] at hlast
  | some c =>
    rw [hc] at hlast
    exact ⟨c, rfl, (Option.some.inj hlast).symm⟩

/-- With the first operation at the bottom of the stack, all of the tree is returned. -/
theorem Holds.result_zero (hs : Holds s ((0, root) :: made) held) (hdeep : ∀ e ∈ made, 0 < e.1)
    (hlast : held.getLast? = some 0) :
    ∃ children, s.result = .ok (root, children) ∧
      (Forest.cons root children .nil).preorder 0 = (0, root) :: made := by
  obtain ⟨children, hops⟩ := hs.operations_eq hdeep
  obtain ⟨c, hc, hspine⟩ := hs.stack_getLast hlast
  have hzero : c = 0 := by simpa [hops, Forest.spine] using hspine.symm
  subst hzero
  refine ⟨children.map Prod.snd, by simp [Builder.result, hc, hops, Forest.find?], ?_⟩
  rw [← hs.preorder_eq, hops]
  simp [Forest.preorder, Forest.preorder_map]

/-- With another one there, only part of it, and with an empty stack nothing. -/
theorem Holds.result_ne_zero (hs : Holds s ((0, root) :: made) held)
    (hdeep : ∀ e ∈ made, 0 < e.1) (hlast : held.getLast? ≠ some 0) {op : Operation}
    {children : Forest Operation} (h : s.result = .ok (op, children)) :
    children.labels.length < made.length := by
  obtain ⟨cs, hops⟩ := hs.operations_eq hdeep
  have hlength : cs.labels.length = made.length := by
    have := congrArg List.length hs.preorder_eq
    simpa [hops, Forest.preorder, ← Forest.map_snd_preorder cs 1] using this
  have hnodup : (s.operations.labels.map Prod.fst).Nodup := by
    rw [hs.refs_eq]
    exact List.nodup_range
  rw [hops] at hnodup
  simp only [Forest.labels, List.map_cons, List.append_nil, List.nodup_cons] at hnodup
  cases hd : held.getLast? with
  | none =>
    have hnil : held = [] := List.getLast?_eq_none_iff.mp hd
    have hstack : s.stack = [] := by simpa [hnil] using hs.stack_eq
    simp [Builder.result, hstack] at h
  | some d =>
    obtain ⟨c, hc, hspine⟩ := hs.stack_getLast hd
    have hne : c ≠ 0 := by
      cases d with
      | zero => exact absurd hd hlast
      | succ d =>
        rw [hops, Forest.spine, List.map_cons, List.getElem?_cons_succ] at hspine
        have hmem := List.mem_of_getElem? hspine
        obtain ⟨a, ha, rfl⟩ := List.mem_map.mp hmem
        intro hz
        exact hnodup.1 (hz ▸ List.mem_map_of_mem (Forest.mem_labels_of_mem_spine ha))
    have hroot : ((0 : Nat) == c) = false := by simpa using Ne.symm hne
    simp only [Builder.result, hc, hops, Option.bind_some, Forest.find?, hroot] at h
    cases hf : cs.find? fun op => op.1 == c with
    | none => simp [hf] at h
    | some found =>
      obtain ⟨a, found⟩ := found
      simp only [hf] at h
      have hsmall := Forest.length_find? hf
      cases h
      rw [← Forest.map_snd_preorder _ 0, Forest.preorder_map, List.length_map, List.length_map,
        ← List.length_map Prod.snd, Forest.map_snd_preorder, ← hlength]
      exact hsmall

end Trees

end ExecutionPlan

end RedisPy
