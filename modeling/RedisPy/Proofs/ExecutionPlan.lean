import RedisPy.Proofs.OperationTree
import RedisPy.Proofs.ClientInfo

/-! When the tree that an execution plan is read as is the tree that was rendered, and its
string the text: an operation at the level of the line before it is attached to the right
parent, but the parent leaves the stack. -/

namespace RedisPy

namespace ExecutionPlan

section Structure

theorem descends_preorder {α : Type} (f : Forest α) {d level : Nat} (h : d ≤ level) {rest : List Nat}
    (hrest : ∀ l, d ≤ l → Descends l rest) :
    Descends level ((f.preorder (d + 1)).map Prod.fst ++ rest) := by
  induction f generalizing d level rest with
  | nil => exact hrest level h
  | cons a children next ihc ihn =>
    rw [Forest.preorder, List.map_cons, List.map_append, List.cons_append, List.append_assoc]
    exact ⟨by omega, by omega, ihc (Nat.le_refl _) fun l hl => ihn (by omega) hrest⟩

theorem foldlM_lineAt (stats : Chars → Except Exc ProfileStats) {es : List (Nat × Operation)}
    (h : ∀ e ∈ es, e.2.Plain) (s : Builder) :
    (es.map lineAt).foldlM (Builder.visitLine stats) s = es.foldlM place s := by
  induction es generalizing s with
  | nil => rfl
  | cons e es ih =>
    rw [List.map_cons, List.foldlM_cons, List.foldlM_cons, visitLine_lineAt stats s (h e (by simp))]
    exact bind_congr fun s' => ih (fun e he => h e (by simp [he])) s'

variable (t : PlanTree)

/-- The lines under the root. -/
def PlanTree.under : List (Nat × Operation) := t.children.preorder 1

theorem PlanTree.operations_eq : t.operations = (0, t.root) :: t.under := by
  simp [PlanTree.operations, PlanTree.under, Forest.preorder]

theorem PlanTree.plain_of_mem {e : Nat × Operation} (h : e ∈ t.operations) : e.2.Plain := by
  refine t.plain e.2 ?_
  rw [← Forest.map_snd_preorder _ 0]
  exact List.mem_map_of_mem h

theorem operationTree_lines (stats : Chars → Except Exc ProfileStats) :
    operationTree stats t.lines = (t.under.foldlM place (started t.root)) >>= Builder.result := by
  rw [operationTree, PlanTree.lines, foldlM_lineAt stats fun e he => t.plain_of_mem he,
    t.operations_eq, List.foldlM_cons, place_initial]
  rfl

theorem PlanTree.descends_under : Descends 0 (t.under.map Prod.fst) := by
  have hd : Descends 0 (t.under.map Prod.fst ++ []) :=
    descends_preorder t.children (Nat.le_refl 0) fun _ _ => trivial
  rwa [List.append_nil] at hd

theorem PlanTree.under_ne_nil_iff : t.under.map Prod.fst ≠ [] ↔ t.children ≠ .nil := by
  rw [PlanTree.under]
  cases t.children <;> simp [Forest.preorder]

theorem PlanTree.levels_eq : t.levels = 0 :: t.under.map Prod.fst := by
  rw [PlanTree.levels, t.operations_eq]
  rfl

theorem PlanTree.length_labels : t.children.labels.length = t.under.length := by
  rw [PlanTree.under, ← Forest.map_snd_preorder t.children 1, List.length_map]

variable {t} {depths last : List Nat}

/-- Lines that are placed at other depths than their own make another tree. -/
theorem PlanTree.depths_eq (hdepths : depths.length = (t.under.map Prod.fst).length)
    (hpre : (Forest.cons t.root t.children .nil).preorder 0 =
      (0, t.root) :: depths.zip (t.under.map Prod.snd)) : depths = t.under.map Prod.fst := by
  have hunder : t.under = depths.zip (t.under.map Prod.snd) := by
    have := t.operations_eq
    rw [PlanTree.operations, hpre] at this
    exact (List.cons.inj this).2.symm
  have := congrArg (List.map Prod.fst) hunder
  rw [List.map_fst_zip (by rw [hdepths, List.length_map, List.length_map])] at this
  exact this.symm

/-- If the tree is read, every line is placed at its own depth, and the root is left on the stack. -/
theorem walk_of_read
    (h : (t.under.foldlM place (started t.root)) >>= Builder.result = .ok (t.root, t.children)) :
    ∃ last, walk 0 0 [] (t.under.map Prod.fst) = some (t.under.map Prod.fst, last) ∧
      last.getLast? = some 0 := by
  have hlevel : (started t.root).level = (0 : Nat) := rfl
  cases hw : walk 0 0 [] (t.under.map Prod.fst) with
  | none =>
    obtain ⟨e, he⟩ := (holds_started t.root).run_raises hlevel hw
    rw [he] at h
    cases h
  | some result =>
    obtain ⟨depths, last⟩ := result
    obtain ⟨hdepths, hpos⟩ := walk_depths hw
    obtain ⟨s', hok, hholds⟩ := (holds_started t.root).run hlevel hw
    rw [hok] at h
    have hdeep : ∀ e ∈ depths.zip (t.under.map Prod.snd), 0 < e.1 := fun e he =>
      hpos e.1 (List.of_mem_zip he).1
    by_cases hlast : last.getLast? = some 0
    · obtain ⟨children, hresult, hpre⟩ := hholds.result_zero hdeep hlast
      obtain rfl : children = t.children := by
        have := hresult.symm.trans h
        cases this
        rfl
      exact ⟨last, by rw [PlanTree.depths_eq hdepths hpre], hlast⟩
    · have hzip : (depths.zip (t.under.map Prod.snd)).length = t.under.length := by
        rw [List.length_zip, hdepths, List.length_map, List.length_map, Nat.min_self]
      have hsmall : t.children.labels.length < (depths.zip (t.under.map Prod.snd)).length :=
        hholds.result_ne_zero hdeep hlast h
      rw [hzip, t.length_labels] at hsmall
      exact absurd hsmall (Nat.lt_irrefl _)

theorem read_of_walk (hw : walk 0 0 [] (t.under.map Prod.fst) = some (t.under.map Prod.fst, last))
    (hlast : last.getLast? = some 0) :
    (t.under.foldlM place (started t.root)) >>= Builder.result = .ok (t.root, t.children) := by
  obtain ⟨s', hok, hholds⟩ := (holds_started t.root).run rfl hw
  have hzip : (t.under.map Prod.fst).zip (t.under.map Prod.snd) = t.under := by
    rw [← List.unzip_fst, ← List.unzip_snd, List.zip_unzip]
  rw [hzip] at hholds
  have hdeep : ∀ e ∈ t.under, 0 < e.1 := fun e he => Forest.le_of_mem_preorder he
  obtain ⟨children, hresult, hpre⟩ := hholds.result_zero hdeep hlast
  have hsame : Forest.cons t.root children .nil = Forest.cons t.root t.children .nil := by
    refine Forest.preorder_injective (d := 0) (hpre.trans ?_)
    exact t.operations_eq.symm
  cases hsame
  rw [hok]
  exact hresult

/-- The tree is read right exactly when no line comes back to a depth that has left the stack. -/
theorem operationTree_iff (t : PlanTree) (stats : Chars → Except Exc ProfileStats) :
    operationTree stats t.lines = .ok (t.root, t.children) ↔
      t.children ≠ .nil ∧ Straight t.levels := by
  rw [t.levels_eq, ← t.under_ne_nil_iff, ← kept_started_iff t.descends_under, operationTree_lines]
  constructor
  · exact walk_of_read
  · rintro ⟨last, hw, hlast⟩
    exact read_of_walk hw hlast

end Structure

section Text

/-- No operation under the root has a character in it that `splitlines` ends a line at. -/
def PlanTree.Unbroken (t : PlanTree) : Prop :=
  ∀ op ∈ t.children.labels, ∀ c ∈ op.str, isLineBreak c = false

theorem linesFrom_unbroken {w line : Chars} (hw : ∀ c ∈ w, isLineBreak c = false)
    (hne : line ++ w ≠ []) : linesFrom line w = [line ++ w] := by
  induction w generalizing line with
  | nil =>
    rw [List.append_nil] at hne ⊢
    rw [linesFrom, if_neg (by simpa using hne)]
  | cons c w ih =>
    have hc := hw c (by simp)
    rw [linesFrom, if_neg (by simp [hc]), ih (fun d hd => hw d (by simp [hd])) (by simp)]
    · simp
    · rintro cs rfl
      exact absurd hc (by decide)

/-- Lines joined by line feeds are found again. -/
theorem splitLines_intercalate {ls : List Chars} (h : ∀ l ∈ ls, l ≠ [] ∧ ∀ c ∈ l, isLineBreak c = false) :
    splitLines (['\n'].intercalate ls) = ls := by
  induction ls with
  | nil => rfl
  | cons l ls ih =>
    obtain ⟨hne, hl⟩ := h l (by simp)
    cases ls with
    | nil =>
      rw [List.intercalate_singleton]
      exact linesFrom_unbroken hl hne
    | cons l' ls =>
      rw [List.intercalate_cons_cons, List.append_assoc, List.singleton_append, splitLines,
        linesFrom_append hl, List.nil_append]
      exact congrArg _ (ih fun m hm => h m (by simp [hm]))

theorem linesFrom_no_break (text line : Chars) (hline : ∀ c ∈ line, isLineBreak c = false) :
    ∀ l ∈ linesFrom line text, ∀ c ∈ l, isLineBreak c = false := by
  fun_induction linesFrom line text with
  | case1 => simp
  | case2 => simpa using hline
  | case3 line cs ih => simpa using ⟨hline, ih (by simp)⟩
  | case4 line c cs _ _ ih => simpa using ⟨hline, ih (by simp)⟩
  | case5 line c cs _ hc ih =>
    refine ih fun d hd => ?_
    rcases List.mem_append.mp hd with hd | hd
    · exact hline d hd
    · rw [List.mem_singleton.mp hd]
      simpa using hc

theorem str_ne_nil {op : Operation} (h : op.Plain) : op.str ≠ [] := by
  rw [Operation.str]
  have := h.name_plain.ne_nil
  split <;> simp [this]

theorem lineAt_succ (e : Nat × Operation) :
    lineAt (e.1 + 1, e.2) = "    ".toList ++ lineAt e := by
  have hfour : "    ".toList = List.replicate 4 ' ' := rfl
  rw [lineAt, lineAt, hfour, ← List.append_assoc, List.replicate_append_replicate]
  exact congrArg (fun n => List.replicate n ' ' ++ e.2.str) (by omega)

theorem lineAt_plain {e : Nat × Operation} (h : e.2.Plain) (hb : ∀ c ∈ e.2.str, isLineBreak c = false) :
    lineAt e ≠ [] ∧ ∀ c ∈ lineAt e, isLineBreak c = false := by
  constructor
  · simp [lineAt, str_ne_nil h]
  · intro c hc
    rcases List.mem_append.mp hc with hc | hc
    · rw [(List.mem_replicate.mp hc).2]
      rfl
    · exact hb c hc

/-- The lines of a list of operations. -/
def linesOf (f : Forest Operation) : List Chars := (f.preorder 0).map lineAt

theorem linesOf_deeper (f : Forest Operation) :
    (f.preorder 1).map lineAt = (linesOf f).map ("    ".toList ++ ·) := by
  rw [Forest.preorder_succ, linesOf, List.map_map, List.map_map]
  exact List.map_congr_left fun e _ => lineAt_succ e

theorem linesOf_plain {f : Forest Operation} (h : ∀ op ∈ f.labels, op.Plain)
    (hb : ∀ op ∈ f.labels, ∀ c ∈ op.str, isLineBreak c = false) :
    ∀ l ∈ (linesOf f).map ("    ".toList ++ ·), l ≠ [] ∧ ∀ c ∈ l, isLineBreak c = false := by
  intro l hl
  rw [← linesOf_deeper] at hl
  obtain ⟨e, he, rfl⟩ := List.mem_map.mp hl
  have hmem : e.2 ∈ f.labels := by
    rw [← Forest.map_snd_preorder f 1]
    exact List.mem_map_of_mem he
  exact lineAt_plain (h e.2 hmem) (hb e.2 hmem)

/-- The string of an operation with others under it. -/
theorem traverse_of_ne_nil (op : Operation) {f : Forest Operation} (h : f ≠ .nil) :
    traverse op (traverseAll f) = op.str ++ '\n' :: aggregate (traverseAll f) := by
  rw [traverse, if_neg]
  cases f with
  | nil => exact absurd rfl h
  | cons => simp [traverseAll]

/-- The strings of the operations have their lines. -/
theorem splitLines_traverseAll {f : Forest Operation} (h : ∀ op ∈ f.labels, op.Plain)
    (hb : ∀ op ∈ f.labels, ∀ c ∈ op.str, isLineBreak c = false) :
    (traverseAll f).flatMap splitLines = linesOf f := by
  induction f with
  | nil => rfl
  | cons op children next ihc ihn =>
    simp only [Forest.labels, List.mem_cons, List.mem_append, forall_eq_or_imp] at h hb
    obtain ⟨hop, h⟩ := h
    obtain ⟨hbop, hb⟩ := hb
    have hchildren := ihc (fun o ho => h o (.inl ho)) fun o ho => hb o (.inl ho)
    have hnext := ihn (fun o ho => h o (.inr ho)) fun o ho => hb o (.inr ho)
    have hdeeper := linesOf_plain (fun o ho => h o (.inl ho)) fun o ho => hb o (.inl ho)
    have hline : lineAt (0, op) = op.str := rfl
    have hself : splitLines (traverse op (traverseAll children)) =
        op.str :: (linesOf children).map ("    ".toList ++ ·) := by
      by_cases hnil : children = .nil
      · subst hnil
        exact linesFrom_unbroken hbop (str_ne_nil hop)
      · rw [traverse_of_ne_nil op hnil, aggregate, hchildren, splitLines, linesFrom_append hbop,
          List.nil_append]
        exact congrArg _ (splitLines_intercalate hdeeper)
    have hlines : linesOf (.cons op children next) =
        op.str :: ((linesOf children).map ("    ".toList ++ ·) ++ linesOf next) := by
      rw [← linesOf_deeper, linesOf, Forest.preorder, List.map_cons, List.map_append, hline]
      rfl
    rw [traverseAll, List.flatMap_cons, hself, hnext, hlines, List.cons_append]

/-- The string of the plan has every line of its own. -/
theorem text_eq (t : PlanTree) (h : t.children ≠ .nil) :
    t.text = t.root.str ++ '\n' :: ['\n'].intercalate ((linesOf t.children).map ("    ".toList ++ ·)) := by
  have hroot : lineAt (0, t.root) = t.root.str := rfl
  have hlines : t.lines = t.root.str :: (linesOf t.children).map ("    ".toList ++ ·) := by
    rw [PlanTree.lines, t.operations_eq, List.map_cons, hroot, PlanTree.under, linesOf_deeper]
  have hne : (linesOf t.children).map ("    ".toList ++ ·) ≠ [] := by
    rw [← linesOf_deeper]
    cases hc : t.children with
    | nil => exact absurd hc h
    | cons => simp [Forest.preorder]
  rw [PlanTree.text, hlines]
  cases hls : (linesOf t.children).map ("    ".toList ++ ·) with
  | nil => exact absurd hls hne
  | cons l ls => rw [List.intercalate_cons_cons, List.append_assoc, List.singleton_append]

theorem newline_not_mem_str {op : Operation} (h : op.Plain) : '\n' ∉ op.str := by
  rw [Operation.str]
  split
  next => exact h.name_plain.no_newline
  next args hargs =>
    have hbar : " | ".toList = [' ', '|', ' '] := rfl
    simp [hbar, h.name_plain.no_newline, (h.args_plain args hargs).1.no_newline]

/-- All lines in an aggregated text end in line feeds. -/
theorem not_break_of_mem_aggregate {strs : List Chars} {c : Char} (h : c ∈ aggregate strs) :
    c = '\n' ∨ isLineBreak c = false := by
  rcases Splitting.mem_intercalate h with rfl | ⟨w, hw, hc⟩
  · exact .inl rfl
  · obtain ⟨l, hl, rfl⟩ := List.mem_map.mp hw
    obtain ⟨s, -, hl⟩ := List.mem_flatMap.mp hl
    have hfour : "    ".toList = List.replicate 4 ' ' := rfl
    rcases List.mem_append.mp hc with hc | hc
    · rw [hfour] at hc
      rw [(List.mem_replicate.mp hc).2]
      exact .inr rfl
    · exact .inr (linesFrom_no_break s [] (by simp) l hl c hc)

/-- The string of the tree is its text exactly when nothing in it breaks a line. -/
theorem traverse_eq_text_iff (t : PlanTree) (h : t.children ≠ .nil) :
    traverse t.root (traverseAll t.children) = t.text ↔ t.Unbroken := by
  rw [traverse_of_ne_nil t.root h, text_eq t h]
  constructor
  · intro heq op hop c hc
    have hop' : op.Plain := t.plain op (by simp [Forest.labels, hop])
    obtain ⟨e, he, rfl⟩ : ∃ e ∈ t.children.preorder 1, e.2 = op := by
      rw [← Forest.map_snd_preorder t.children 1] at hop
      exact List.mem_map.mp hop
    have hline : lineAt e ∈ (linesOf t.children).map ("    ".toList ++ ·) := by
      rw [← linesOf_deeper]
      exact List.mem_map_of_mem he
    have hmem : c ∈ aggregate (traverseAll t.children) := by
      rw [(List.cons.inj (List.append_cancel_left heq)).2]
      exact Splitting.mem_intercalate_of_mem hline (List.mem_append_right _ hc)
    refine (not_break_of_mem_aggregate hmem).resolve_left ?_
    rintro rfl
    exact newline_not_mem_str hop' hc
  · intro hb
    have hplain : ∀ op ∈ t.children.labels, op.Plain := fun op hop =>
      t.plain op (by simp [Forest.labels, hop])
    rw [aggregate, splitLines_traverseAll hplain hb]

end Text

section Plans

variable {t : PlanTree}

theorem PlanTree.lines_strs (decode : Bytes → Except Exc Chars) :
    (PlanReply.strs t.lines).lines decode = .ok t.lines := by
  rw [PlanTree.lines, t.operations_eq]
  rfl

/-- What a plan that is read back says about its lines as strings. -/
theorem PlanTree.Inverts.str_eq (h : t.Inverts) (stats : Chars → Except Exc ProfileStats) :
    operationTree stats t.lines = .ok (t.root, t.children) ∧
      traverse t.root (traverseAll t.children) = t.text := by
  have hlines := t.lines_strs fun _ => .ok []
  obtain ⟨p, hinit, hplan, hstr⟩ := h (fun _ => .ok []) stats (.strs t.lines) hlines
  rw [Plan.str, hplan] at hstr
  refine ⟨?_, hstr⟩
  rw [init, hlines] at hinit
  simp only [bind, Except.bind] at hinit
  cases htree : operationTree stats t.lines with
  | error e => simp [htree] at hinit
  | ok tree =>
    simp only [htree, Except.ok.injEq] at hinit
    rw [← hplan, ← hinit]

/-- A plan is read back exactly when it has more than one line, when two lines in a row at one
level are no children of the root and have deeper lines only after them, and when no operation
under the root breaks a line. -/
theorem inverts_iff (t : PlanTree) :
    t.Inverts ↔ t.children ≠ .nil ∧ Straight t.levels ∧ t.Unbroken := by
  constructor
  · intro h
    obtain ⟨htree, hstr⟩ := h.str_eq fun _ => .error { cls := .AttributeError }
    obtain ⟨hne, hstraight⟩ := (operationTree_iff t _).mp htree
    exact ⟨hne, hstraight, (traverse_eq_text_iff t hne).mp hstr⟩
  · rintro ⟨hne, hstraight, hb⟩ decode stats plan hlines
    have htree := (operationTree_iff t stats).mpr ⟨hne, hstraight⟩
    refine ⟨⟨t.lines, (t.root, t.children)⟩, ?_, rfl, (traverse_eq_text_iff t hne).mpr hb⟩
    rw [init, hlines]
    simp only [bind, Except.bind, htree]

def operationNamed (name : Chars) : Operation := ⟨name, none, none⟩

theorem plain_operationNamed {name : Chars} (h : PlainText name) : (operationNamed name).Plain :=
  ⟨h, fun _ hargs => (by cases hargs), rfl⟩

/-- A root with two leaves under it. -/
def planOfLeaves : PlanTree where
  root := operationNamed "Join".toList
  children := .cons (operationNamed "Scan".toList) .nil (.cons (operationNamed "Scan".toList) .nil .nil)
  plain := by
    have hjoin : PlainText "Join".toList :=
      ⟨by decide, fun c hc => by cases hc; rfl, fun c hc => by cases hc; rfl, by decide, by decide,
        by decide⟩
    have hscan : PlainText "Scan".toList :=
      ⟨by decide, fun c hc => by cases hc; rfl, fun c hc => by cases hc; rfl, by decide, by decide,
        by decide⟩
    intro op hop
    simp only [Forest.labels, List.append_nil, List.nil_append, List.mem_cons, List.not_mem_nil,
      or_false] at hop
    rcases hop with rfl | rfl | rfl
    · exact plain_operationNamed hjoin
    · exact plain_operationNamed hscan
    · exact plain_operationNamed hscan

theorem planOfLeaves_not_inverts : ¬ planOfLeaves.Inverts := by
  intro h
  obtain ⟨htree, -⟩ := h.str_eq fun _ => .error { cls := .AttributeError }
  have hstraight : Straight [0, 1, 1] := ((operationTree_iff planOfLeaves _).mp htree).2
  exact absurd (hstraight.2.1 rfl).1 (by decide)

end Plans

end ExecutionPlan

end RedisPy
