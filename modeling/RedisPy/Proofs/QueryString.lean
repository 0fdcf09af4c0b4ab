import RedisPy.Proofs.QueryPieces

/-! How the pieces of a printed query are read, and what the query that is read matches. -/

namespace RedisPy

namespace QueryString

/-! ### Lists of trees and of queries -/

theorem queriesMatch_eq_map (doc : Document) (qs : List Query) :
    queriesMatch doc qs = qs.map (Query.matches doc) := by
  induction qs with
  | nil => rfl
  | cons q qs ih => rw [queriesMatch, ih, List.map_cons]

theorem piecesAll_eq_map (ts : List Tree) : piecesAll ts = ts.map Tree.pieces := by
  induction ts with
  | nil => rfl
  | cons t ts ih => rw [piecesAll, ih, List.map_cons]

theorem matchesAll_eq_map (doc : Document) (ts : List Tree) :
    matchesAll doc ts = ts.map (Tree.matches doc) := by
  induction ts with
  | nil => rfl
  | cons t ts ih => rw [matchesAll, ih, List.map_cons]

theorem filledAll_eq_all (ts : List Tree) : filledAll ts = ts.all Tree.filled := by
  induction ts with
  | nil => rfl
  | cons t ts ih => rw [filledAll, ih, List.all_cons]

theorem plainAll_eq_all (ts : List Tree) : plainAll ts = ts.all Tree.plain := by
  induction ts with
  | nil => rfl
  | cons t ts ih => rw [plainAll, ih, List.all_cons]

/-- The document matches all of the queries. -/
def allMatch (doc : Document) (qs : List Query) : Bool := qs.all (Query.matches doc)

theorem allMatch_eq (doc : Document) : allMatch doc = fun qs => qs.all (Query.matches doc) := rfl

theorem allMatch_singleton (doc : Document) (q : Query) : allMatch doc [q] = q.matches doc := by
  simp [allMatch]

/-! ### Reading -/

theorem readFrom_append (st : List Frame) (ps qs : List Piece) :
    readFrom st (ps ++ qs) = (readFrom st ps).bind fun st => readFrom st qs := by
  induction ps generalizing st with
  | nil => rfl
  | cons p ps ih =>
    simp only [List.cons_append, readFrom, Option.bind_assoc]
    congr 1
    funext st'
    exact ih st'

/-- The pieces are items of a group, one at least. -/
def ReadsItems (scope : Option Text) (ps : List Piece) (qs : List Query) : Prop :=
  qs ≠ [] ∧ ∀ (fr : Frame) (st : List Frame), fr.settled = true → fr.scope = scope →
    readFrom (fr :: st) ps = some ({ fr with current := fr.current ++ qs } :: st)

/-- The pieces are one term or one group, which takes the prefix that waits for it. -/
def Reads (ps : List Piece) (q : Query) : Prop :=
  ∀ (fr : Frame) (st : List Frame), fr.field = none → fr.scope = none →
    readFrom (fr :: st) ps = some (fr.push q :: st)

/-- One term or one group, in a list of its own. -/
def ReadsOne (ps : List Piece) (qs : List Query) : Prop := ∃ q, qs = [q] ∧ Reads ps q

/-- The pieces are all of a group. -/
def ReadsGroup (scope : Option Text) (ps : List Piece) (q : Query) : Prop :=
  ∀ st : List Frame, ∃ fr : Frame, readFrom ({ scope } :: st) ps = some (fr :: st) ∧
    fr.settled = true ∧ fr.current.isEmpty = false ∧ fr.close = q

theorem Frame.settled_iff {fr : Frame} : fr.settled = true ↔ fr.unary = none ∧ fr.field = none := by
  simp [Frame.settled]

theorem Reads.items {ps : List Piece} {q : Query} (h : Reads ps q) : ReadsItems none ps [q] := by
  refine ⟨by simp, fun fr st hs hscope => ?_⟩
  obtain ⟨hu, hf⟩ := Frame.settled_iff.mp hs
  rw [h fr st hf hscope]
  simp [Frame.push, Frame.applied, hu, hf]

theorem ReadsOne.items {ps : List Piece} {qs : List Query} (h : ReadsOne ps qs) :
    ReadsItems none ps qs := by
  obtain ⟨q, rfl, hq⟩ := h
  exact hq.items

theorem Reads.minus {ps : List Piece} {q : Query} (h : Reads ps q) :
    ReadsItems none (.minus :: ps) [.neg q] := by
  refine ⟨by simp, fun fr st hs hscope => ?_⟩
  obtain ⟨hu, hf⟩ := Frame.settled_iff.mp hs
  have hnext := h { fr with unary := some .minus } st hf hscope
  rw [readFrom, step, if_pos hs, Option.bind_some, hnext]
  simp [Frame.push, Frame.applied, hu, hf]

theorem Reads.tilde {ps : List Piece} {q : Query} (h : Reads ps q) :
    ReadsItems none (.tilde :: ps) [.opt q] := by
  refine ⟨by simp, fun fr st hs hscope => ?_⟩
  obtain ⟨hu, hf⟩ := Frame.settled_iff.mp hs
  have hnext := h { fr with unary := some .tilde } st hf hscope
  rw [readFrom, step, if_pos hs, Option.bind_some, hnext]
  simp [Frame.push, Frame.applied, hu, hf]

theorem reads_word (w : Text) : Reads [.word w] (.atom (.term w)) := by
  intro fr st hf hscope
  simp [readFrom, step, hf, hscope]

/-- A word that stands alone or in the group of a field. -/
def atomIn (scope : Option Text) (w : Text) : Atom :=
  match scope with
  | none => .term w
  | some f => .field f w

theorem read_words (scope : Option Text) (ws : List Text) (fr : Frame) (st : List Frame)
    (hs : fr.settled = true) (hscope : fr.scope = scope) :
    readFrom (fr :: st) (ws.map .word) =
      some ({ fr with current := fr.current ++ ws.map fun w => .atom (atomIn scope w) } :: st) := by
  induction ws generalizing fr with
  | nil => simp [readFrom]
  | cons w ws ih =>
    obtain ⟨hu, hf⟩ := Frame.settled_iff.mp hs
    have hstep : step (fr :: st) (.word w) =
        some ({ fr with current := fr.current ++ [.atom (atomIn scope w)] } :: st) := by
      cases scope <;> simp [step, hf, hscope, atomIn, Frame.push, Frame.applied, hu]
    rw [List.map_cons, readFrom, hstep, Option.bind_some,
      ih { fr with current := fr.current ++ [.atom (atomIn scope w)] } (by simpa [Frame.settled] using hs)
        hscope]
    simp

theorem readsItems_words (scope : Option Text) {ws : List Text} (h : ws ≠ []) :
    ReadsItems scope (ws.map .word) (ws.map fun w => .atom (atomIn scope w)) :=
  ⟨by simpa using h, read_words scope ws⟩

/-- The query of a value that is one piece. -/
theorem reads_field (f : Text) {v : Value} (h : v.single = true) :
    ∃ q, Reads (.field f :: v.pieces) q ∧ ∀ doc, q.matches doc = v.matches doc f := by
  have hone (p : Piece) (a : Atom) (hstep : ∀ (fr : Frame) (st : List Frame), fr.scope = none →
      step ({ fr with field := some f } :: st) p = some (fr.push (.atom a) :: st)) :
      Reads [.field f, p] (.atom a) := by
    intro fr st hf hscope
    have hfield : step (fr :: st) (.field f) = some ({ fr with field := some f } :: st) := by
      simp [step, hf, hscope]
    rw [readFrom, hfield, Option.bind_some, readFrom, hstep fr st hscope]
    rfl
  cases v with
  | scalar v =>
    obtain ⟨w, hw⟩ := List.length_eq_one_iff.mp (beq_iff_eq.mp h)
    refine ⟨.atom (.field f w), ?_, fun doc => by simp [Query.matches, Value.matches, hw]⟩
    rw [Value.pieces, hw]
    exact hone _ _ fun fr st hscope => by simp [step, hscope, Frame.push]
  | range a b inclusive_min inclusive_max =>
    exact ⟨.atom (.value f _), hone _ _ fun fr st hscope => by simp [step, hscope, Frame.push],
      fun _ => rfl⟩
  | tag tags =>
    exact ⟨.atom (.value f _), hone _ _ fun fr st hscope => by simp [step, hscope, Frame.push],
      fun _ => rfl⟩
  | geo lon lat radius unit =>
    exact ⟨.atom (.value f _), hone _ _ fun fr st hscope => by simp [step, hscope, Frame.push],
      fun _ => rfl⟩

theorem readsItems_scoped (f : Text) {v : Value} (hc : v.combinable = true) (hv : v.filled = true) :
    ∃ qs, ReadsItems (some f) v.pieces qs ∧ ∀ doc, allMatch doc qs = v.matches doc f := by
  cases v with
  | scalar v =>
    have hne : words v ≠ [] := by simpa [Value.filled] using hv
    refine ⟨_, readsItems_words (some f) hne, fun doc => ?_⟩
    simp [allMatch, Value.matches, Query.matches, atomIn, Function.comp_def]
  | _ => simp [Value.combinable] at hc

theorem ReadsGroup.parens {ps : List Piece} {q : Query} (h : ReadsGroup none ps q) :
    Reads ([.lparen] ++ ps ++ [.rparen]) q := by
  intro fr st hf hscope
  obtain ⟨inner, hread, hs, hne, hclose⟩ := h (fr :: st)
  have hopen : readFrom (fr :: st) [.lparen] = some ({} :: fr :: st) := by
    simp [readFrom, step, hf, hscope]
  rw [readFrom_append, readFrom_append, hopen, Option.bind_some, hread, Option.bind_some]
  simp [readFrom, step, hs, hne, hclose]

theorem ReadsGroup.field {f : Text} {ps : List Piece} {q : Query} (h : ReadsGroup (some f) ps q) :
    Reads ([.field f, .lparen] ++ ps ++ [.rparen]) q := by
  intro fr st hf hscope
  obtain ⟨inner, hread, hs, hne, hclose⟩ := h ({ fr with field := some f } :: st)
  have hopen : readFrom (fr :: st) [.field f, .lparen] =
      some ({ scope := some f } :: { fr with field := some f } :: st) := by
    simp [readFrom, step, hf, hscope]
  rw [readFrom_append, readFrom_append, hopen, Option.bind_some, hread, Option.bind_some]
  simp [readFrom, step, hs, hne, hclose, Frame.push]

/-! ### Items side by side -/

theorem read_joined {scope : Option Text} {ps : List (List Piece)} {qss : List (List Query)}
    (h : List.Forall₂ (ReadsItems scope) ps qss) (fr : Frame) (st : List Frame)
    (hs : fr.settled = true) (hscope : fr.scope = scope) :
    readFrom (fr :: st) (List.intercalate [] ps) =
      some ({ fr with current := fr.current ++ qss.flatten } :: st) := by
  induction h generalizing fr with
  | nil => simp [readFrom]
  | @cons p qs ps qss hp h ih =>
    have hcat : List.intercalate [] (p :: ps) = p ++ List.intercalate [] ps := by
      cases ps with
      | nil => simp
      | cons p' ps => simp
    have hrest := ih { fr with current := fr.current ++ qs } (by simpa [Frame.settled] using hs) hscope
    rw [hcat, readFrom_append, hp.2 fr st hs hscope, Option.bind_some, hrest]
    simp

theorem read_pipe {scope : Option Text} {ps : List (List Piece)} {qss : List (List Query)}
    (h : List.Forall₂ (ReadsItems scope) ps qss) (hne : ps ≠ []) (fr : Frame) (st : List Frame)
    (hs : fr.settled = true) (hscope : fr.scope = scope) (hc : fr.current = []) :
    ∃ fr' : Frame, readFrom (fr :: st) (List.intercalate [.pipe] ps) = some (fr' :: st) ∧
      fr'.settled = true ∧ fr'.current.isEmpty = false ∧
      fr'.close = .any (fr.alternatives ++ qss.map .all) := by
  induction h generalizing fr with
  | nil => exact absurd rfl hne
  | @cons p qs ps qss hp h ih =>
    have hfirst := hp.2 fr st hs hscope
    cases h with
    | nil =>
      refine ⟨_, by simpa using hfirst, by simpa [Frame.settled] using hs, by simp [hp.1], ?_⟩
      simp [Frame.close, hc]
    | @cons p' qs' ps qss hp' h =>
      -- the pipe ends the alternative of the first items
      let next : Frame := { fr with alternatives := fr.alternatives ++ [.all qs], current := [] }
      have hpipe : readFrom ({ fr with current := fr.current ++ qs } :: st) [.pipe] =
          some (next :: st) := by
        have hs' : Frame.settled { fr with current := fr.current ++ qs } = true := by
          simpa [Frame.settled] using hs
        simp only [readFrom, step]
        rw [if_pos (by simpa [hp.1] using hs')]
        simp [hc, next]
      obtain ⟨fr', hread, hs', hne', hclose⟩ :=
        ih (by simp) next (by simpa [Frame.settled, next] using hs) hscope rfl
      refine ⟨fr', ?_, hs', hne', ?_⟩
      · rw [List.intercalate_cons_cons, List.append_assoc, readFrom_append, hfirst, Option.bind_some,
          readFrom_append, hpipe, Option.bind_some, hread]
      · rw [hclose]
        simp [next]

/-- How the joined parameters are taken together. -/
def Kind.fold (kind : Kind) (conditions : List Bool) : Bool :=
  match kind with
  | .union | .disjunctUnion => conditions.any id
  | _ => conditions.all id

theorem readsGroup_join {scope : Option Text} {ps : List (List Piece)} {qss : List (List Query)}
    (kind : Kind) (h : List.Forall₂ (ReadsItems scope) ps qss) (hne : ps ≠ []) :
    ∃ q, ReadsGroup scope (kind.joinPieces.intercalate ps) q ∧
      ∀ doc, q.matches doc = kind.fold (qss.map (allMatch doc)) := by
  have hqs : qss.flatten ≠ [] := by
    cases h with
    | nil => exact absurd rfl hne
    | cons hp => simp [hp.1]
  have hspaced : ∃ q, ReadsGroup scope (List.intercalate [] ps) q ∧
      ∀ doc, q.matches doc = (qss.map (allMatch doc)).all id := by
    refine ⟨.any [.all qss.flatten],
      fun st => ⟨_, read_joined h { scope } st rfl rfl, rfl, by simpa using hqs, rfl⟩, fun doc => ?_⟩
    rw [allMatch_eq]
    simp [Query.matches, queriesMatch_eq_map, List.all_flatten, Function.comp_def]
  have hpiped : ∃ q, ReadsGroup scope (List.intercalate [.pipe] ps) q ∧
      ∀ doc, q.matches doc = (qss.map (allMatch doc)).any id := by
    refine ⟨.any (qss.map .all), ?_, fun doc => ?_⟩
    · intro st
      simpa using read_pipe h hne { scope } st rfl rfl rfl
    · rw [allMatch_eq]
      simp [Query.matches, queriesMatch_eq_map, Function.comp_def]
  cases kind with
  | union => exact hpiped
  | disjunctUnion => exact hpiped
  | intersect => exact hspaced
  | disjunct => exact hspaced
  | optional => exact hspaced

/-! ### Parameters -/

/-- The parameters are read one by one, and taken together they say what the conditions do. -/
def Meant (R : List Piece → List Query → Prop) (kind : Kind) (params : List (List Piece))
    (conditions : Document → List Bool) : Prop :=
  ∃ qss, List.Forall₂ R params qss ∧
    ∀ doc, kind.fold (qss.map (allMatch doc)) = kind.fold (conditions doc)

theorem Kind.fold_append (kind : Kind) {as bs as' bs' : List Bool}
    (ha : kind.fold as = kind.fold as') (hb : kind.fold bs = kind.fold bs') :
    kind.fold (as ++ bs) = kind.fold (as' ++ bs') := by
  cases kind <;> simp only [Kind.fold, List.any_append, List.all_append] at * <;> rw [ha, hb]

theorem Kind.fold_singleton (kind : Kind) (b : Bool) : kind.fold [b] = b := by
  cases kind <;> simp [Kind.fold]

theorem meant_nil (R : List Piece → List Query → Prop) (kind : Kind) : Meant R kind [] fun _ => [] :=
  ⟨[], .nil, fun _ => rfl⟩

theorem Meant.append {R : List Piece → List Query → Prop} {kind : Kind} {ps ps' : List (List Piece)}
    {cs cs' : Document → List Bool} (h : Meant R kind ps cs) (h' : Meant R kind ps' cs') :
    Meant R kind (ps ++ ps') fun doc => cs doc ++ cs' doc := by
  obtain ⟨qss, hqs, hc⟩ := h
  obtain ⟨qss', hqs', hc'⟩ := h'
  refine ⟨qss ++ qss', List.rel_append hqs hqs', fun doc => ?_⟩
  rw [List.map_append]
  exact kind.fold_append (hc doc) (hc' doc)

theorem Meant.mono {R R' : List Piece → List Query → Prop} {kind : Kind} {ps : List (List Piece)}
    {cs : Document → List Bool} (hR : ∀ p qs, R p qs → R' p qs) (h : Meant R kind ps cs) :
    Meant R' kind ps cs := by
  obtain ⟨qss, hqs, hc⟩ := h
  exact ⟨qss, hqs.imp hR, hc⟩

theorem meant_singleton {R : List Piece → List Query → Prop} (kind : Kind) {p : List Piece}
    {qs : List Query} (cs : Document → List Bool) (hp : R p qs)
    (hc : ∀ doc, allMatch doc qs = kind.fold (cs doc)) : Meant R kind [p] cs := by
  refine ⟨[qs], .cons hp .nil, fun doc => ?_⟩
  rw [← hc doc, List.map_singleton, kind.fold_singleton]

theorem meant_map {α : Type} {R : List Piece → List Query → Prop} (kind : Kind) (print : α → List Piece)
    (holds : Document → α → Bool) {as : List α}
    (h : ∀ a ∈ as, ∃ qs, R (print a) qs ∧ ∀ doc, allMatch doc qs = holds doc a) :
    Meant R kind (as.map print) fun doc => as.map (holds doc) := by
  induction as with
  | nil => exact meant_nil R kind
  | cons a as ih =>
    obtain ⟨qs, hqs, hc⟩ := h a (by simp)
    exact (meant_singleton kind (fun doc => [holds doc a]) hqs fun doc => by
      rw [hc doc, kind.fold_singleton]).append (ih fun a' ha' => h a' (by simp [ha']))

/-- One parameter for each value. -/
theorem meant_apart (kind : Kind) (f : Text) {vals : List Value} (hs : ∀ v ∈ vals, v.single = true) :
    Meant ReadsOne kind (vals.map fun v => .field f :: v.pieces) fun doc =>
      vals.map fun v => v.matches doc f := by
  refine meant_map kind _ (fun doc (v : Value) => v.matches doc f) fun v hv => ?_
  obtain ⟨q, hq, hmatches⟩ := reads_field f (hs v hv)
  exact ⟨[q], ⟨q, rfl, hq⟩, fun doc => by rw [allMatch_singleton, hmatches]⟩

/-- One parameter for the values together. -/
theorem meant_together (kind : Kind) (f : Text) {vals : List Value} (hne : vals ≠ [])
    (hf : ∀ v ∈ vals, v.filled = true) (hc : ∀ v ∈ vals, v.combinable = true) :
    Meant ReadsOne kind
      [[.field f, .lparen] ++ kind.joinPieces.intercalate (vals.map Value.pieces) ++ [.rparen]]
      fun doc => vals.map fun v => v.matches doc f := by
  have hitems : Meant (ReadsItems (some f)) kind (vals.map Value.pieces) fun doc =>
      vals.map fun v => v.matches doc f :=
    meant_map kind _ (fun doc (v : Value) => v.matches doc f) fun v hv => readsItems_scoped f (hc v hv) (hf v hv)
  obtain ⟨qss, hqss, hfold⟩ := hitems
  obtain ⟨q, hq, hmatches⟩ := readsGroup_join kind hqss (by simpa using hne)
  refine meant_singleton kind _ ⟨q, rfl, hq.field⟩ fun doc => ?_
  rw [allMatch_singleton, hmatches doc, hfold doc]

theorem joinFieldPieces_cons_cons (kind : Kind) (f : Text) (v v' : Value) (vs : List Value) :
    joinFieldPieces kind f (v :: v' :: vs) =
      if !v.combinable then (v :: v' :: vs).map fun v => .field f :: v.pieces
      else [[.field f, .lparen] ++ kind.joinPieces.intercalate ((v :: v' :: vs).map Value.pieces) ++
        [.rparen]] := rfl

theorem meant_joinFields (kind : Kind) (f : Text) {vals : List Value}
    (hf : ∀ v ∈ vals, v.filled = true) (hplain : plainValues vals = true) :
    Meant ReadsOne kind (joinFieldPieces kind f vals) fun doc => vals.map fun v => v.matches doc f := by
  match vals, hf, hplain with
  | [], _, _ => exact meant_nil ReadsOne kind
  | [v], _, hplain => exact @meant_apart kind f [v] (by simpa [plainValues] using hplain)
  | v :: v' :: vs, hf, hplain =>
    rw [joinFieldPieces_cons_cons]
    simp only [plainValues] at hplain
    cases hv : v.combinable with
    | false =>
      have hv' : v.single = true := by cases v <;> simp_all [Value.combinable, Value.single]
      refine meant_apart kind f ?_
      simpa [hv', hv] using hplain
    | true =>
      refine meant_together kind f (by simp) hf ?_
      simpa [hv] using hplain

theorem meant_fieldParams (kind : Kind) {kwparams : List (Text × List Value)}
    (hf : ∀ p ∈ kwparams, ∀ v ∈ p.2, v.filled = true)
    (hplain : ∀ p ∈ kwparams, plainValues p.2 = true) :
    Meant ReadsOne kind (fieldParamPieces kind kwparams) fun doc => fieldConditions doc kwparams := by
  induction kwparams with
  | nil => exact meant_nil ReadsOne kind
  | cons p kwparams ih =>
    have hp := meant_joinFields kind p.1 (hf p (by simp)) (hplain p (by simp))
    exact hp.append (ih (fun p' hp' => hf p' (by simp [hp'])) fun p' hp' => hplain p' (by simp [hp']))

theorem joinFields_ne_nil (kind : Kind) (f : Text) {vals : List Value} (h : vals ≠ []) :
    joinFields kind f vals ≠ [] := by
  match vals with
  | [] => exact absurd rfl h
  | [v] => simp [joinFields]
  | v :: v' :: vs =>
    rw [joinFields]
    · split <;> simp
    · simp

theorem length_joinFieldPieces (kind : Kind) (f : Text) (vals : List Value) :
    (joinFieldPieces kind f vals).length = (joinFields kind f vals).length := by
  match vals with
  | [] => rfl
  | [v] => rfl
  | v :: v' :: vs =>
    rw [joinFields, joinFieldPieces_cons_cons]
    · split <;> simp
    · simp

/-! ### Nodes -/

/-- What the string of a tree is read as. -/
structure Sound (t : Tree) (qs : List Query) : Prop where
  means : ∀ doc, allMatch doc qs = t.matches doc
  items : ReadsItems none t.pieces qs
  one : t.loose = false → ReadsOne t.pieces qs

theorem nodePieces_singleton (kind : Kind) (p : List Piece) :
    nodePieces kind [p] = kind.prefixPiece.toList ++ p := by
  simp [nodePieces]

theorem nodePieces_many (kind : Kind) (hu : kind.prefixPiece = none) {params : List (List Piece)}
    (h : 1 < params.length) :
    nodePieces kind params = [.lparen] ++ kind.joinPieces.intercalate params ++ [.rparen] := by
  simp [nodePieces, hu, h]

/-- Two parameters or more, without a prefix. -/
theorem reads_many {kind : Kind} (hu : kind.prefixPiece = none) {params : List (List Piece)}
    {cs : Document → List Bool} (hm : Meant (ReadsItems none) kind params cs) (h : 1 < params.length) :
    ∃ q, Reads (nodePieces kind params) q ∧ ∀ doc, q.matches doc = kind.holds (cs doc) := by
  obtain ⟨qss, hqs, hc⟩ := hm
  obtain ⟨q, hq, hmatches⟩ := readsGroup_join kind hqs (by rintro rfl; simp at h)
  refine ⟨q, ?_, fun doc => ?_⟩
  · rw [nodePieces_many kind hu h]
    exact hq.parens
  · rw [hmatches doc, hc doc]
    cases kind <;> first | rfl | simp [Kind.prefixPiece] at hu

/-- One parameter, without a prefix. -/
theorem reads_one {R : List Piece → List Query → Prop} {kind : Kind} (hu : kind.prefixPiece = none)
    {params : List (List Piece)} {cs : Document → List Bool} (hm : Meant R kind params cs)
    (h : params.length = 1) :
    ∃ qs, R (nodePieces kind params) qs ∧ ∀ doc, allMatch doc qs = kind.holds (cs doc) := by
  obtain ⟨p, rfl⟩ := List.length_eq_one_iff.mp h
  obtain ⟨qss, hqs, hc⟩ := hm
  cases hqs with
  | @cons p qs ps qss hq h =>
    cases h
    refine ⟨qs, by simpa [nodePieces_singleton, hu] using hq, fun doc => ?_⟩
    have hq := hc doc
    rw [List.map_singleton, kind.fold_singleton] at hq
    rw [hq]
    cases kind <;> first | rfl | simp [Kind.prefixPiece] at hu

/-- One parameter, with a prefix. -/
theorem reads_prefixed {kind : Kind} (hu : kind.prefixPiece.isSome = true) {params : List (List Piece)}
    {cs : Document → List Bool} (hm : Meant ReadsOne kind params cs) (h : params.length = 1)
    (hdisjunct : kind = .disjunct → ∀ doc, (cs doc).length = 1) :
    ∃ q, ReadsItems none (nodePieces kind params) [q] ∧ ∀ doc, q.matches doc = kind.holds (cs doc) := by
  obtain ⟨p, rfl⟩ := List.length_eq_one_iff.mp h
  obtain ⟨qss, hqs, hc⟩ := hm
  cases hqs with
  | @cons p qs ps qss hq h =>
    cases h
    obtain ⟨q, rfl, hq⟩ := hq
    have hq' : ∀ doc, q.matches doc = kind.fold (cs doc) := by
      intro doc
      have hq := hc doc
      rwa [List.map_singleton, kind.fold_singleton, allMatch_singleton] at hq
    rw [nodePieces_singleton]
    cases kind with
    | intersect => simp [Kind.prefixPiece] at hu
    | union => simp [Kind.prefixPiece] at hu
    | disjunct =>
      refine ⟨.neg q, hq.minus, fun doc => ?_⟩
      obtain ⟨b, hb⟩ := List.length_eq_one_iff.mp (hdisjunct rfl doc)
      simp [Query.matches, hq', hb, Kind.fold, Kind.holds]
    | disjunctUnion =>
      refine ⟨.neg q, hq.minus, fun doc => ?_⟩
      simp [Query.matches, hq', Kind.fold, Kind.holds, List.not_any_eq_all_not]
    | optional => exact ⟨.opt q, hq.tilde, fun doc => rfl⟩

theorem meant_items (kind : Kind) {ts : List Tree} {qss : List (List Query)}
    (h : List.Forall₂ Sound ts qss) :
    Meant (ReadsItems none) kind (piecesAll ts) fun doc => matchesAll doc ts := by
  induction h with
  | nil => exact meant_nil _ kind
  | @cons t qs ts qss hq h ih =>
    exact (meant_singleton kind (fun doc => [t.matches doc]) hq.items fun doc => by
      rw [hq.means doc, kind.fold_singleton]).append ih

theorem meant_terms (kind : Kind) {ts : List Tree} {qss : List (List Query)}
    (h : List.Forall₂ Sound ts qss) (hn : anyLoose ts = false) :
    Meant ReadsOne kind (piecesAll ts) fun doc => matchesAll doc ts := by
  induction h with
  | nil => exact meant_nil _ kind
  | @cons t qs ts qss hq h ih =>
    rw [anyLoose, Bool.or_eq_false_iff] at hn
    exact (meant_singleton kind (fun doc => [t.matches doc]) (hq.one hn.1) fun doc => by
      rw [hq.means doc, kind.fold_singleton]).append (ih hn.2)

theorem length_params (kind : Kind) (children : List Tree) (kwparams : List (Text × List Value)) :
    (piecesAll children ++ fieldParamPieces kind kwparams).length = paramCount kind children kwparams := by
  have hfields : (fieldParamPieces kind kwparams).length = (fieldParams kind kwparams).length := by
    simp [fieldParamPieces, fieldParams, List.length_flatMap, length_joinFieldPieces]
  rw [List.length_append, piecesAll_eq_map, List.length_map, hfields, paramCount]

theorem paramCount_pos (kind : Kind) {children : List Tree} {kwparams : List (Text × List Value)}
    (hne : (!children.isEmpty || !kwparams.isEmpty) = true) (hvals : ∀ p ∈ kwparams, p.2 ≠ []) :
    0 < paramCount kind children kwparams := by
  cases children with
  | cons t ts =>
    simp only [paramCount, List.length_cons]
    omega
  | nil =>
    cases kwparams with
    | nil => simp at hne
    | cons p kwparams =>
      have hp := List.length_pos_iff.mpr (joinFields_ne_nil kind p.1 (hvals p (by simp)))
      simp only [paramCount, fieldParams, List.flatMap_cons, List.length_append]
      omega

/-- One condition for each parameter, where no values are joined. -/
theorem length_conditions (kind : Kind) (doc : Document) (children : List Tree)
    {kwparams : List (Text × List Value)} (hvals : ∀ p ∈ kwparams, p.2.length ≤ 1) :
    (matchesAll doc children ++ fieldConditions doc kwparams).length =
      paramCount kind children kwparams := by
  have hfields : (fieldConditions doc kwparams).length = (fieldParams kind kwparams).length := by
    induction kwparams with
    | nil => rfl
    | cons p kwparams ih =>
      have hp : (joinFields kind p.1 p.2).length = p.2.length := by
        match hv : p.2, hvals p (by simp) with
        | [], _ => rfl
        | [v], _ => rfl
      have hrest := ih fun p' hp' => hvals p' (by simp [hp'])
      simp only [fieldConditions, fieldParams, List.flatMap_cons, List.length_append,
        List.length_map] at hrest ⊢
      rw [hrest, hp]
  rw [List.length_append, matchesAll_eq_map, List.length_map, hfields, paramCount]

theorem Kind.unary_isEmpty (kind : Kind) : kind.unary.isEmpty = kind.prefixPiece.isNone := by
  cases kind <;> rfl

theorem node_sound (kind : Kind) {children : List Tree} {kwparams : List (Text × List Value)}
    {qss : List (List Query)} (h : List.Forall₂ Sound children qss)
    (hf : (Tree.node kind children kwparams).filled = true)
    (hp : (Tree.node kind children kwparams).plain = true) :
    ∃ qs, Sound (.node kind children kwparams) qs := by
  simp only [Tree.filled, Bool.and_eq_true, List.all_eq_true] at hf
  simp only [Tree.plain, Bool.and_eq_true, List.all_eq_true, kind.unary_isEmpty] at hp
  have hfields := meant_fieldParams kind (fun p hp' => (hf.1.2 p hp').2) fun p hp' => (hp.1.2 p hp').2
  have hitems := (meant_items kind h).append (hfields.mono fun _ _ => ReadsOne.items)
  have hpos := paramCount_pos kind hf.1.1 fun p hp' => by simpa using (hf.1.2 p hp').1
  have hlen := length_params kind children kwparams
  have hterms : anyLoose children = false → Meant ReadsOne kind
      (piecesAll children ++ fieldParamPieces kind kwparams)
      fun doc => matchesAll doc children ++ fieldConditions doc kwparams :=
    fun hn => (meant_terms kind h hn).append hfields
  by_cases hu : kind.prefixPiece.isSome = true
  · -- the only parameter takes the prefix
    have hprefix := hp.2
    simp only [← Option.not_isSome, hu, Bool.not_true, Bool.false_or, Bool.and_eq_true, beq_iff_eq,
      Bool.not_eq_true'] at hprefix
    obtain ⟨⟨hone, hn⟩, hd⟩ := hprefix
    have hdisjunct : kind = .disjunct → ∀ doc,
        (matchesAll doc children ++ fieldConditions doc kwparams).length = 1 := by
      intro hk doc
      rw [length_conditions kind doc children, hone]
      simpa [hk] using hd
    obtain ⟨q, hread, hmatches⟩ := reads_prefixed hu (hterms hn) (hlen.trans hone) hdisjunct
    refine ⟨[q], fun doc => by rw [allMatch_singleton]; exact hmatches doc, hread, fun hb => ?_⟩
    simp [Tree.loose, hone, kind.unary_isEmpty, ← Option.not_isSome, hu] at hb
  · have hnone : kind.prefixPiece = none := by simpa using hu
    by_cases hone : paramCount kind children kwparams = 1
    · by_cases hn : anyLoose children = false
      · obtain ⟨qs, hread, hmatches⟩ := reads_one hnone (hterms hn) (hlen.trans hone)
        exact ⟨qs, hmatches, hread.items, fun _ => hread⟩
      · obtain ⟨qs, hread, hmatches⟩ := reads_one hnone hitems (hlen.trans hone)
        exact ⟨qs, hmatches, hread, fun hb => by simp_all [Tree.loose]⟩
    · obtain ⟨q, hread, hmatches⟩ := reads_many hnone hitems (by omega)
      exact ⟨[q], fun doc => by rw [allMatch_singleton]; exact hmatches doc, hread.items,
        fun _ => ⟨q, rfl, hread⟩⟩

theorem term_sound {s : Text} (h : words s ≠ []) :
    Sound (.term s) ((words s).map fun w => .atom (.term w)) where
  means doc := by simp [allMatch, Tree.matches, Query.matches, Function.comp_def]
  items := readsItems_words none h
  one hn := by
    have hone : (words s).length = 1 := by simpa [Tree.loose, oneWord] using hn
    obtain ⟨w, hw⟩ := List.length_eq_one_iff.mp hone
    exact ⟨.atom (.term w), by simp [hw], by simpa [Tree.pieces, hw] using reads_word w⟩

mutual

theorem Tree.sound : ∀ t : Tree, t.filled = true → t.plain = true → ∃ qs, Sound t qs
  | .term s, hf, _ => ⟨_, term_sound (by simpa [Tree.filled] using hf)⟩
  | .node kind children kwparams, hf, hp => by
    have hf' : filledAll children = true := by
      simp only [Tree.filled, Bool.and_eq_true] at hf
      exact hf.2
    have hp' : plainAll children = true := by
      simp only [Tree.plain, Bool.and_eq_true] at hp
      exact hp.1.1
    obtain ⟨qss, hqs⟩ := soundAll children hf' hp'
    exact node_sound kind hqs hf hp

theorem soundAll : ∀ ts : List Tree, filledAll ts = true → plainAll ts = true →
    ∃ qss, List.Forall₂ Sound ts qss
  | [], _, _ => ⟨[], .nil⟩
  | t :: ts, hf, hp => by
    rw [filledAll, Bool.and_eq_true] at hf
    rw [plainAll, Bool.and_eq_true] at hp
    obtain ⟨qs, hq⟩ := t.sound hf.1 hp.1
    obtain ⟨qss, hqs⟩ := soundAll ts hf.2 hp.2
    exact ⟨qs :: qss, .cons hq hqs⟩

end

theorem ReadsItems.read {s : Text} {ps : List Piece} {qs : List Query} (hs : Spells s ps)
    (h : ReadsItems none ps qs) : read s = some (.any [.all qs]) := by
  rw [QueryString.read, hs.lex, Option.bind_some, readPieces, h.2 {} [] rfl rfl]
  simp [Frame.settled, Frame.close, h.1]

theorem keepsMeaning_of_items {t : Tree} {ps : List Piece} {qs : List Query}
    (hs : Spells t.toString ps) (h : ReadsItems none ps qs) (hq : ∀ doc, allMatch doc qs = t.matches doc) :
    t.KeepsMeaning := by
  refine ⟨_, h.read hs, fun doc => ?_⟩
  simp [Query.matches, queriesMatch, queriesMatch_eq_map, ← hq, allMatch, Function.comp_def]

theorem Tree.KeepsMeaning.of_items {t : Tree} {ps : List Piece} {qs : List Query} (ht : t.KeepsMeaning)
    (hs : Spells t.toString ps) (h : ReadsItems none ps qs) (doc : Document) :
    allMatch doc qs = t.matches doc := by
  obtain ⟨q', hread, hmeans⟩ := ht
  cases (h.read hs).symm.trans hread
  simpa [Query.matches, queriesMatch, queriesMatch_eq_map, allMatch, Function.comp_def] using hmeans doc

/-! ### A prefix before several words -/

/-- What the prefix makes of the first word. -/
def Kind.onFirst (kind : Kind) (b : Bool) : Bool :=
  match kind with
  | .disjunct | .disjunctUnion => !b
  | .optional => true
  | _ => b

/-- The prefix is on the first word alone. -/
theorem readsItems_first_word {kind : Kind} {u : Piece} (hu : kind.prefixPiece = some u) (w : Text)
    (ws : List Text) :
    ∃ qs, ReadsItems none (u :: (w :: ws).map .word) qs ∧
      ∀ doc, allMatch doc qs = (kind.onFirst (doc (.term w)) && ws.all fun w => doc (.term w)) := by
  have hfirst : ∃ q, ReadsItems none [u, .word w] [q] ∧
      ∀ doc, q.matches doc = kind.onFirst (doc (.term w)) := by
    cases kind with
    | intersect => cases hu
    | union => cases hu
    | disjunct =>
      cases hu
      exact ⟨_, (reads_word w).minus, fun _ => rfl⟩
    | disjunctUnion =>
      cases hu
      exact ⟨_, (reads_word w).minus, fun _ => rfl⟩
    | optional =>
      cases hu
      exact ⟨_, (reads_word w).tilde, fun _ => rfl⟩
  obtain ⟨q, hq, hmatches⟩ := hfirst
  refine ⟨q :: ws.map fun w => .atom (.term w), ⟨by simp, fun fr st hs hscope => ?_⟩, fun doc => ?_⟩
  · have hwords := read_words none ws { fr with current := fr.current ++ [q] } st
      (by simpa [Frame.settled] using hs) hscope
    have hsplit : u :: (w :: ws).map Piece.word = [u, .word w] ++ ws.map .word := rfl
    rw [hsplit, readFrom_append, hq.2 fr st hs hscope, Option.bind_some, hwords]
    simp [atomIn]
  · simp [allMatch, hmatches, Query.matches, Function.comp_def]

theorem readsItems_first_prefixed {kind : Kind} {u : Piece} (hu : kind.prefixPiece = some u)
    {p : List Piece} {qs : List Query} {ps : List (List Piece)} {qss : List (List Query)}
    (hp : ReadsItems none (u :: p) qs) (h : List.Forall₂ (ReadsItems none) ps qss) :
    ∃ rs, ReadsItems none (nodePieces kind (p :: ps)) rs ∧
      ∀ doc, allMatch doc rs = kind.fold (allMatch doc qs :: qss.map (allMatch doc)) := by
  cases h with
  | nil =>
    refine ⟨qs, by simpa [nodePieces_singleton, hu] using hp, fun doc => ?_⟩
    rw [List.map_nil, kind.fold_singleton]
  | @cons p' qs' ps qss hp' h =>
    obtain ⟨r, hr, hmatches⟩ := readsGroup_join kind (.cons hp (.cons hp' h)) (by simp)
    have hpieces : nodePieces kind (p :: p' :: ps) =
        [.lparen] ++ kind.joinPieces.intercalate ((u :: p) :: p' :: ps) ++ [.rparen] := by
      simp [nodePieces, hu]
    refine ⟨[r], ?_, fun doc => by rw [allMatch_singleton]; exact hmatches doc⟩
    rw [hpieces]
    exact hr.parens.items

theorem terms_sound {ss : List Text} (h : ∀ s ∈ ss, words s ≠ []) :
    List.Forall₂ Sound (ss.map Tree.term) (ss.map fun s => (words s).map fun w => .atom (.term w)) := by
  rw [List.forall₂_map_left_iff, List.forall₂_map_right_iff]
  exact List.forall₂_same.mpr fun s hs => term_sound (h s hs)

theorem texts_plain_iff (kind : Kind) (s : Text) {ss : List Text} (h : ∀ s' ∈ s :: ss, clean s' = true) :
    (Tree.node kind ((s :: ss).map .term) []).plain = true ↔
      kind.prefixPiece = none ∨ ss = [] ∧ (words s).length = 1 := by
  have hplain : plainAll ((s :: ss).map Tree.term) = true := by
    rw [plainAll_eq_all]
    simpa [Tree.plain] using h
  rw [Tree.plain, hplain, kind.unary_isEmpty]
  cases ss with
  | nil => simp [paramCount, fieldParams, anyLoose, Tree.loose, oneWord]
  | cons s' ss => simp [paramCount, fieldParams]

/-- A node of texts alone keeps its meaning in no other case. -/
theorem texts_keepMeaning_iff (kind : Kind) (s : Text) {ss : List Text}
    (hf : ∀ s' ∈ s :: ss, words s' ≠ []) (hc : ∀ s' ∈ s :: ss, clean s' = true) :
    (Tree.node kind ((s :: ss).map .term) []).KeepsMeaning ↔
      (Tree.node kind ((s :: ss).map .term) []).plain = true := by
  constructor
  · intro hkeeps
    rw [texts_plain_iff kind s hc]
    by_contra hno
    rw [not_or] at hno
    obtain ⟨u, hu⟩ := Option.ne_none_iff_exists'.mp hno.1
    obtain ⟨w, ws, hw⟩ := List.exists_cons_of_ne_nil (hf s (by simp))
    obtain ⟨qs, hqs, hfirst⟩ := readsItems_first_word hu w ws
    have hrest : List.Forall₂ (ReadsItems none) (ss.map fun s => (words s).map .word)
        (ss.map fun s => (words s).map fun w => .atom (.term w)) := by
      rw [List.forall₂_map_left_iff, List.forall₂_map_right_iff]
      exact List.forall₂_same.mpr fun s' hs' => readsItems_words none (hf s' (by simp [hs']))
    obtain ⟨rs, hrs, hmatches⟩ := readsItems_first_prefixed hu hqs hrest
    have hspells : Spells (Tree.node kind ((s :: ss).map .term) []).toString
        (nodePieces kind ((w :: ws).map .word :: ss.map fun s => (words s).map .word)) := by
      have htexts : List.Forall₂ Spells (s :: ss) ((s :: ss).map fun s => (words s).map .word) := by
        rw [List.forall₂_map_right_iff]
        exact List.forall₂_same.mpr fun s' hs' => spells_text (hc s' hs')
      have hprint : toStrings ((s :: ss).map .term) = s :: ss := by
        induction s :: ss with
        | nil => rfl
        | cons s' ss ih => rw [List.map_cons, toStrings, ih, Tree.toString]
      have hnode := spells_printNode kind htexts
      rw [List.map_cons, hw] at hnode
      rw [Tree.toString, hprint, fieldParams, List.flatMap_nil, List.append_nil]
      exact hnode
    have hsame (doc : Document) :
        kind.fold ((kind.onFirst (doc (.term w)) && ws.all fun w => doc (.term w)) ::
          ss.map fun s => (words s).all fun w => doc (.term w)) =
        kind.holds (((w :: ws).all fun w => doc (.term w)) ::
          ss.map fun s => (words s).all fun w => doc (.term w)) := by
      have h := hkeeps.of_items hspells hrs doc
      rw [hmatches doc, hfirst doc, Tree.matches, matchesAll_eq_map] at h
      simpa [hw, allMatch, Query.matches, Tree.matches, fieldConditions, Function.comp_def] using h
    have hnone : (ss.map fun s => (words s).all fun _ => false) = ss.map fun _ => false := by
      refine List.map_congr_left fun s' hs' => ?_
      obtain ⟨w', ws', hw'⟩ := List.exists_cons_of_ne_nil (hf s' (by simp [hs']))
      rw [hw']
      rfl
    -- a document with no word at all, and one with the words of the second text
    have hnothing := hsame fun _ => false
    rw [hnone] at hnothing
    cases ws with
    | cons w' ws => cases kind <;> simp_all [Kind.fold, Kind.onFirst, Kind.holds, Kind.prefixPiece]
    | nil =>
      cases ss with
      | nil => exact hno.2 ⟨rfl, by rw [hw]; rfl⟩
      | cons s' ss =>
        have hsecond := hsame fun a => a ∈ (words s').map .term
        have hmem : ((words s').all fun w => decide (Atom.term w ∈ (words s').map .term)) = true := by
          simp
        rw [List.map_cons, hmem] at hsecond
        cases kind with
        | intersect => cases hu
        | union => cases hu
        | disjunctUnion => simp [Kind.fold, Kind.onFirst, Kind.holds] at hsecond
        | disjunct => simp [Kind.fold, Kind.onFirst, Kind.holds] at hnothing
        | optional => simp [Kind.fold, Kind.onFirst, Kind.holds] at hnothing
  · intro hp
    have hfilled : (Tree.node kind ((s :: ss).map .term) []).filled = true := by
      have hall : filledAll ((s :: ss).map Tree.term) = true := by
        rw [filledAll_eq_all]
        simpa [Tree.filled] using hf
      simpa [Tree.filled] using hall
    obtain ⟨qs, hq⟩ := Tree.sound _ hfilled hp
    exact keepsMeaning_of_items (Tree.spells _ hp) hq.items hq.means

/-- A plain tree keeps its meaning, and one of texts keeps it only when it is plain. -/
theorem plain_keepsMeaning (t : Tree) (hf : t.filled = true) (kind : Kind) (s : Text) (ss : List Text)
    (hs : ∀ s' ∈ s :: ss, words s' ≠ [] ∧ clean s' = true) :
    (t.plain = true → t.KeepsMeaning) ∧
      ((Tree.node kind ((s :: ss).map .term) []).KeepsMeaning ↔
        (Tree.node kind ((s :: ss).map .term) []).plain = true) := by
  refine ⟨fun hp => ?_, ?_⟩
  · obtain ⟨qs, hq⟩ := t.sound hf hp
    exact keepsMeaning_of_items (t.spells hp) hq.items hq.means
  · exact texts_keepMeaning_iff kind s (fun s' hs' => (hs s' hs').1) fun s' hs' => (hs s' hs').2

/-- `intersect("a b", disjunct(union("b", "c d")), f=("d e", "g"), n=between(1, 5))` -/
def treeOfGroups : Tree :=
  .node .intersect
    [.term ['a', ' ', 'b'], .node .disjunct [.node .union [.term ['b'], .term ['c', ' ', 'd']] []] []]
    [(['f'], [.scalar ['d', ' ', 'e'], .scalar ['g']]), (['n'], [.range ['1'] ['5'] true true])]

theorem plain_keepsMeaning_groups :
    treeOfGroups.KeepsMeaning ∧
      ¬ (Tree.node .optional ([['a'], ['b']].map .term) []).KeepsMeaning :=
  have h := plain_keepsMeaning treeOfGroups (by decide) .optional ['a'] [['b']] (by decide)
  ⟨h.1 (by decide), fun hkeeps => absurd (h.2.mp hkeeps) (by decide)⟩

example : treeOfGroups.toString = "(a b -(b|c d) @f:(d e g) @n:[1 5])".toList := by decide

/-- `disjunct("a", "b")` is printed as `(-a b)`. -/
theorem disjunct_requires_second :
    ¬ ∀ t : Tree, t.filled = true → t.KeepsMeaning := by
  intro h
  obtain ⟨q, hread, hmeans⟩ := h (.node .disjunct [.term ['a'], .term ['b']] []) (by decide)
  have hq : read (Tree.toString (.node .disjunct [.term ['a'], .term ['b']] [])) =
      some (.any [.all [.any [.all [.neg (.atom (.term ['a'])), .atom (.term ['b'])]]]]) := rfl
  cases hread.symm.trans hq
  have hnothing := hmeans fun _ => false
  have hmeant : Tree.matches (fun _ => false) (.node .disjunct [.term ['a'], .term ['b']] []) = true := by
    decide
  rw [hmeant] at hnothing
  simp [Query.matches, queriesMatch] at hnothing

/-- The field is on the first word of its value alone. -/
example : read "@f:hello world".toList =
    some (.any [.all [.atom (.field ['f'] "hello".toList), .atom (.term "world".toList)]]) := rfl

end QueryString

end RedisPy
