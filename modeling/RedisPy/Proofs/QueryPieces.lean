import RedisPy.Spec.QueryString
import Mathlib.Data.List.Forall2

/-! When the printed query keeps the meaning of its tree. A group is printed in parentheses,
but a prefix is printed before the first parameter of the group, a field before the first word
of its value, and texts are printed as they are. -/

namespace RedisPy

namespace QueryString

/-! ### The trees -/

/-- The value has a word, where it is a text. -/
def Value.filled : Value → Bool
  | .scalar v => !(words v).isEmpty
  | _ => true

mutual

/-- No node is empty, no field is without values, and no text is without words. -/
def Tree.filled : Tree → Bool
  | .term s => !(words s).isEmpty
  | .node _ children kwparams =>
    (!children.isEmpty || !kwparams.isEmpty) &&
      kwparams.all (fun p => !p.2.isEmpty && p.2.all Value.filled) && filledAll children

def filledAll : List Tree → Bool
  | [] => true
  | t :: ts => t.filled && filledAll ts

end

/-- The number of parameters of a node. -/
def paramCount (kind : Kind) (children : List Tree) (kwparams : List (Text × List Value)) : Nat :=
  children.length + (fieldParams kind kwparams).length

/-- The text is one word. -/
def oneWord (s : Text) : Bool := (words s).length == 1

mutual

/-- The string is no single term or group: several words, or a prefix that is not in
parentheses. -/
def Tree.loose : Tree → Bool
  | .term s => !oneWord s
  | .node kind children kwparams =>
    (paramCount kind children kwparams == 1) && (!kind.unary.isEmpty || anyLoose children)

def anyLoose : List Tree → Bool
  | [] => false
  | t :: ts => t.loose || anyLoose ts

end

/-- The text is of words alone. -/
def clean (s : Text) : Bool := s.all fun c => isWordChar c || c.isWhitespace

/-- The value does not end before its end. -/
def Value.clean : Value → Bool
  | .scalar v => QueryString.clean v
  | .range a b _ _ => !a.contains ']' && !b.contains ']'
  | .tag tags => tags.all fun t => !t.contains '|' && !t.contains '\x7d'
  | .geo lon lat radius unit => [lon, lat, radius, unit].all fun s => !s.contains ']'

/-- The value follows its field as one piece. -/
def Value.single : Value → Bool
  | .scalar v => oneWord v
  | _ => true

/-- The values can be joined under one field, or each follows the field as one piece. -/
def plainValues : List Value → Bool
  | [] => true
  | [v] => v.single
  | v :: vs => if v.combinable then vs.all Value.combinable else vs.all Value.single

mutual

/-- A node with a prefix has one parameter, that is one term or one group; the values of one
field are not joined in a `disjunct`; no text holds an operator. -/
def Tree.plain : Tree → Bool
  | .term s => clean s
  | .node kind children kwparams =>
    plainAll children &&
      kwparams.all (fun p => p.1.all isWordChar && p.2.all Value.clean && plainValues p.2) &&
      (kind.unary.isEmpty ||
        (paramCount kind children kwparams == 1 && !anyLoose children &&
          (kind != .disjunct || kwparams.all fun p => decide (p.2.length ≤ 1))))

def plainAll : List Tree → Bool
  | [] => true
  | t :: ts => t.plain && plainAll ts

end

/-- The string is a query that matches what the tree matches. -/
def Tree.KeepsMeaning (t : Tree) : Prop :=
  ∃ q, read t.toString = some q ∧ ∀ doc, q.matches doc = t.matches doc

/-! ### The pieces of a printed string -/

/-- No word goes on into the text. -/
def Apart (s : Text) : Prop := ∀ c s', s = c :: s' → isWordChar c = false

/-- The text is these pieces, whatever follows. -/
def Cuts (s : Text) (ps : List Piece) : Prop :=
  ∀ rest, lex (s ++ rest) = (lex rest).map (ps ++ ·)

/-- The text is these pieces, unless its last word goes on. -/
def Spells (s : Text) (ps : List Piece) : Prop :=
  ∀ rest, Apart rest → lex (s ++ rest) = (lex rest).map (ps ++ ·)

theorem apart_cons {c : Char} (h : isWordChar c = false) (s : Text) : Apart (c :: s) := by
  intro c' s' heq
  cases heq
  exact h

theorem Cuts.spells {s : Text} {ps : List Piece} (h : Cuts s ps) : Spells s ps := fun rest _ => h rest

theorem Cuts.append {s s' : Text} {ps ps' : List Piece} (h : Cuts s ps) (h' : Cuts s' ps') :
    Cuts (s ++ s') (ps ++ ps') := by
  intro rest
  rw [List.append_assoc, h, h', Option.map_map]
  congr 1
  funext qs
  simp

theorem Cuts.append_spells {s s' : Text} {ps ps' : List Piece} (h : Cuts s ps) (h' : Spells s' ps') :
    Spells (s ++ s') (ps ++ ps') := by
  intro rest hrest
  rw [List.append_assoc, h, h' rest hrest, Option.map_map]
  congr 1
  funext qs
  simp

theorem Spells.append_cuts {s s' : Text} {ps ps' : List Piece} {c : Char} (h : Spells s ps)
    (hc : isWordChar c = false) (h' : Cuts (c :: s') ps') : Cuts (s ++ c :: s') (ps ++ ps') := by
  intro rest
  rw [List.append_assoc, h _ (by exact apart_cons hc (s' ++ rest)), h', Option.map_map]
  congr 1
  funext qs
  simp

theorem Spells.lex {s : Text} {ps : List Piece} (h : Spells s ps) : lex s = some ps := by
  have hall := h [] fun _ _ heq => by cases heq
  simpa [QueryString.lex, lexFrom] using hall

theorem lex_cons (c : Char) (s : Text) :
    lex (c :: s) = (begin c).bind fun r => (lexFrom r.2 s).map (r.1 ++ ·) := rfl

theorem cuts_char {c : Char} {ps : List Piece} (h : begin c = some (ps, .between)) : Cuts [c] ps := by
  intro rest
  rw [List.singleton_append, lex_cons, h]
  rfl

theorem cuts_nil : Cuts [] [] := by
  intro rest
  simp

theorem begin_word {c : Char} (h : isWordChar c = true) : begin c = some ([], .word [c]) := by
  have hspace : c.isWhitespace = false := by
    simp only [isWordChar, Bool.not_eq_true', Bool.or_eq_false_iff] at h
    exact h.1
  unfold begin
  rw [hspace, h]
  rfl

theorem begin_space {c : Char} (h : c.isWhitespace = true) : begin c = some ([], .between) := by
  unfold begin
  rw [if_pos h]

/-- A word ends where no word goes on. -/
theorem lexFrom_word (w : Text) {rest : Text} (h : Apart rest) :
    lexFrom (.word w) rest = (lex rest).map (.word w :: ·) := by
  cases rest with
  | nil => rfl
  | cons c s =>
    have hc := h c s rfl
    rw [lexFrom, scan, hc, lex_cons]
    cases begin c with
    | none => rfl
    | some r =>
      simp only [Bool.false_eq_true, if_false, Option.map_some, Option.bind_some, Option.map_map]
      rfl

/-- The words of a text that goes on from a word. -/
def wordsAfter (w s : Text) : List Text :=
  ((s.splitOnP Char.isWhitespace).modifyHead (w ++ ·)).filter fun w => !w.isEmpty

theorem words_eq_wordsAfter (s : Text) : words s = wordsAfter [] s := by
  obtain ⟨w, ws, hs⟩ := List.exists_cons_of_ne_nil (List.splitOnP_ne_nil Char.isWhitespace s)
  simp [words, wordsAfter, hs]

theorem wordsAfter_nil {w : Text} (hw : w ≠ []) : wordsAfter w [] = [w] := by
  simp [wordsAfter, hw]

theorem wordsAfter_space {c : Char} (h : c.isWhitespace = true) {w : Text} (hw : w ≠ []) (s : Text) :
    wordsAfter w (c :: s) = w :: words s := by
  simp [wordsAfter, words, List.splitOnP_cons_eq_if_modifyHead, h, hw]

theorem words_space {c : Char} (h : c.isWhitespace = true) (s : Text) : words (c :: s) = words s := by
  simp [words, List.splitOnP_cons_eq_if_modifyHead, h]

theorem wordsAfter_cons {c : Char} (h : c.isWhitespace = false) (w s : Text) :
    wordsAfter w (c :: s) = wordsAfter (w ++ [c]) s := by
  simp [wordsAfter, List.splitOnP_cons_eq_if_modifyHead, h, List.modifyHead_modifyHead,
    Function.comp_def]

/-- A text of words is cut into its words, from its start or from the middle of a word. -/
theorem lexFrom_text {s : Text} (hs : clean s = true) {rest : Text} (hrest : Apart rest) :
    lex (s ++ rest) = (lex rest).map ((words s).map .word ++ ·) ∧
      ∀ w, w ≠ [] →
        lexFrom (.word w) (s ++ rest) = (lex rest).map ((wordsAfter w s).map .word ++ ·) := by
  induction s with
  | nil =>
    refine ⟨by simp [words], fun w hw => ?_⟩
    rw [List.nil_append, lexFrom_word w hrest, wordsAfter_nil hw]
    rfl
  | cons c s ih =>
    simp only [clean, List.all_cons, Bool.and_eq_true, Bool.or_eq_true] at hs
    obtain ⟨hplain, hword⟩ := ih hs.2
    by_cases hc : c.isWhitespace = true
    · have hno : isWordChar c = false := by simp [isWordChar, hc]
      have hstart : lex (c :: (s ++ rest)) = lex (s ++ rest) := by
        rw [lex_cons, begin_space hc]
        simp [lex]
      refine ⟨by rw [List.cons_append, hstart, hplain, words_space hc], fun w hw => ?_⟩
      rw [List.cons_append, lexFrom_word w (apart_cons hno _), hstart, hplain, wordsAfter_space hc hw,
        Option.map_map]
      rfl
    · have hspace : c.isWhitespace = false := by simpa using hc
      have hw' : isWordChar c = true := hs.1.resolve_right hc
      constructor
      · rw [List.cons_append, lex_cons, begin_word hw', Option.bind_some, hword [c] (by simp),
          words_eq_wordsAfter, wordsAfter_cons hspace]
        simp [Function.comp_def]
      · intro w _
        rw [List.cons_append, lexFrom, scan, if_pos hw', Option.bind_some, hword _ (by simp),
          wordsAfter_cons hspace]
        simp [Function.comp_def]

theorem spells_text {s : Text} (hs : clean s = true) : Spells s ((words s).map .word) :=
  fun _ hrest => (lexFrom_text hs hrest).1

theorem lexFrom_field (g : Text) {f : Text} (hf : f.all isWordChar = true) (rest : Text) :
    lexFrom (.field g) (f ++ ':' :: rest) = (lex rest).map (.field (g ++ f) :: ·) := by
  induction f generalizing g with
  | nil => simp [lexFrom, scan, lex]
  | cons c f ih =>
    simp only [List.all_cons, Bool.and_eq_true] at hf
    have hc : c ≠ ':' := by
      rintro rfl
      exact absurd hf.1 (by decide)
    rw [List.cons_append, lexFrom, scan, if_neg hc, if_pos hf.1, Option.bind_some, ih _ hf.2]
    simp [Function.comp_def]

theorem cuts_field {f : Text} (hf : f.all isWordChar = true) :
    Cuts (['@'] ++ f ++ [':']) [.field f] := by
  intro rest
  have hbegin : begin '@' = some ([], .field []) := rfl
  have hname := lexFrom_field [] hf rest
  simp only [List.append_assoc, List.cons_append, List.nil_append]
  rw [lex_cons, hbegin, Option.bind_some, hname]
  simp [Function.comp_def]

theorem lexFrom_value (closing : Char) (g : Text) {v : Text} (hv : closing ∉ v) (rest : Text) :
    lexFrom (.value closing g) (v ++ closing :: rest) =
      (lex rest).map (.value (g ++ v ++ [closing]) :: ·) := by
  induction v generalizing g with
  | nil => simp [lexFrom, scan, lex]
  | cons c v ih =>
    simp only [List.mem_cons, not_or] at hv
    rw [List.cons_append, lexFrom, scan, if_neg (Ne.symm hv.1), Option.bind_some, ih _ hv.2]
    simp [Function.comp_def]

theorem cuts_closed {o closing : Char} (ho : begin o = some ([], .value closing [o])) {v : Text}
    (hv : closing ∉ v) : Cuts ([o] ++ v ++ [closing]) [.value ([o] ++ v ++ [closing])] := by
  intro rest
  have hvalue := lexFrom_value closing [o] hv rest
  simp only [List.append_assoc, List.cons_append, List.nil_append] at hvalue ⊢
  rw [lex_cons, ho, Option.bind_some, hvalue]
  simp [Function.comp_def]

/-! ### The pieces of a tree -/

def Value.pieces : Value → List Piece
  | .scalar v => (words v).map .word
  | v => [.value v.toString]

namespace Kind

def joinPieces : Kind → List Piece
  | union | disjunctUnion => [.pipe]
  | _ => []

def prefixPiece : Kind → Option Piece
  | disjunct | disjunctUnion => some .minus
  | optional => some .tilde
  | _ => none

end Kind

def joinFieldPieces (kind : Kind) (key : Text) (vals : List Value) : List (List Piece) :=
  match vals with
  | [] => []
  | [v] => [.field key :: v.pieces]
  | v :: _ =>
    if !v.combinable then vals.map fun v => .field key :: v.pieces
    else [[.field key, .lparen] ++ kind.joinPieces.intercalate (vals.map Value.pieces) ++ [.rparen]]

def nodePieces (kind : Kind) (params : List (List Piece)) : List Piece :=
  let ret := kind.prefixPiece.toList ++ kind.joinPieces.intercalate params
  if params.length > 1 then [.lparen] ++ ret ++ [.rparen] else ret

def fieldParamPieces (kind : Kind) (kwparams : List (Text × List Value)) : List (List Piece) :=
  kwparams.flatMap fun p => joinFieldPieces kind p.1 p.2

mutual

def Tree.pieces : Tree → List Piece
  | .term s => (words s).map .word
  | .node kind children kwparams => nodePieces kind (piecesAll children ++ fieldParamPieces kind kwparams)

def piecesAll : List Tree → List (List Piece)
  | [] => []
  | t :: ts => t.pieces :: piecesAll ts

end

theorem not_mem_intercalate {c : Char} {sep : Text} (hsep : c ∉ sep) {ss : List Text}
    (h : ∀ s ∈ ss, c ∉ s) : c ∉ sep.intercalate ss := by
  induction ss with
  | nil => simp
  | cons s ss ih =>
    cases ss with
    | nil => simpa using h
    | cons s' ss =>
      rw [List.intercalate_cons_cons]
      have hrest := ih fun t ht => h t (by simp [ht])
      have hs := h s (by simp)
      simp only [List.mem_append, not_or]
      exact ⟨⟨hs, hsep⟩, hrest⟩

theorem Value.spells {v : Value} (hv : v.clean = true) : Spells v.toString v.pieces := by
  cases v with
  | scalar v => exact spells_text hv
  | range a b inclusive_min inclusive_max =>
    simp only [Value.clean, Bool.and_eq_true, Bool.not_eq_true', List.contains_eq_mem,
      decide_eq_false_iff_not] at hv
    have hbounds : ']' ∉ (if inclusive_min then [] else ['(']) ++ a ++ [' '] ++
        (if inclusive_max then [] else ['(']) ++ b := by
      cases inclusive_min <;> cases inclusive_max <;> simp [hv.1, hv.2]
    simpa [Value.toString, Value.pieces] using (cuts_closed rfl hbounds).spells
  | tag tags =>
    have htags : '\x7d' ∉ [' ', '|', ' '].intercalate tags := by
      refine not_mem_intercalate (by decide) fun t ht => ?_
      have hall := List.all_eq_true.mp hv t ht
      simp only [Bool.and_eq_true, Bool.not_eq_true', List.contains_eq_mem,
        decide_eq_false_iff_not] at hall
      exact hall.2
    exact (cuts_closed rfl htags).spells
  | geo lon lat radius unit =>
    have hwords : ']' ∉ [' '].intercalate [lon, lat, radius, unit] := by
      refine not_mem_intercalate (by decide) fun s hs => ?_
      have hall := List.all_eq_true.mp hv s hs
      simpa using hall
    exact (cuts_closed rfl hwords).spells

/-- The separator is one character that ends a word. -/
theorem Kind.cuts_joinStr (kind : Kind) :
    ∃ c, kind.joinStr = [c] ∧ isWordChar c = false ∧ Cuts [c] kind.joinPieces := by
  cases kind
  case union => exact ⟨'|', rfl, rfl, cuts_char rfl⟩
  case disjunctUnion => exact ⟨'|', rfl, rfl, cuts_char rfl⟩
  all_goals exact ⟨' ', rfl, rfl, cuts_char rfl⟩

theorem Kind.cuts_unary (kind : Kind) : Cuts kind.unary kind.prefixPiece.toList := by
  cases kind
  case intersect => exact cuts_nil
  case union => exact cuts_nil
  case optional => exact cuts_char rfl
  all_goals exact cuts_char (c := '-') rfl

theorem spells_intercalate (kind : Kind) {ss : List Text} {pss : List (List Piece)}
    (h : List.Forall₂ Spells ss pss) :
    Spells (kind.joinStr.intercalate ss) (kind.joinPieces.intercalate pss) := by
  obtain ⟨c, hsep, hc, hcuts⟩ := kind.cuts_joinStr
  rw [hsep]
  induction h with
  | nil => exact cuts_nil.spells
  | @cons s ps ss pss hs h ih =>
    cases h with
    | nil => simpa using hs
    | @cons s' ps' ss pss hs' h =>
      rw [List.intercalate_cons_cons, List.intercalate_cons_cons]
      exact (hs.append_cuts hc hcuts).append_spells ih

theorem spells_joinFields (kind : Kind) {key : Text} (hkey : key.all isWordChar = true)
    {vals : List Value} (hvals : ∀ v ∈ vals, v.clean = true) :
    List.Forall₂ Spells (joinFields kind key vals) (joinFieldPieces kind key vals) := by
  have hone (v : Value) (hv : v ∈ vals) :
      Spells (['@'] ++ key ++ [':'] ++ v.toString) (.field key :: v.pieces) :=
    (cuts_field hkey).append_spells (Value.spells (hvals v hv))
  have hapart : List.Forall₂ Spells (vals.map fun v => ['@'] ++ key ++ [':'] ++ v.toString)
      (vals.map fun v => .field key :: v.pieces) := by
    rw [List.forall₂_map_left_iff, List.forall₂_map_right_iff]
    exact List.forall₂_same.mpr hone
  have htogether : Spells (kind.joinStr.intercalate (vals.map Value.toString))
      (kind.joinPieces.intercalate (vals.map Value.pieces)) := by
    refine spells_intercalate kind ?_
    rw [List.forall₂_map_left_iff, List.forall₂_map_right_iff]
    exact List.forall₂_same.mpr fun v hv => Value.spells (hvals v hv)
  match vals, hapart, htogether with
  | [], _, _ => exact .nil
  | [v], hapart, _ => exact hapart
  | v :: v' :: vs, hapart, htogether =>
    rw [joinFields, joinFieldPieces]
    split
    · exact hapart
    · have hopen : Cuts (['@'] ++ key ++ [':'] ++ ['(']) ([.field key] ++ [.lparen]) :=
        (cuts_field hkey).append (cuts_char rfl)
      have hgroup := (hopen.append_spells htogether).append_cuts rfl (cuts_char (c := ')') rfl)
      exact .cons (by simpa using hgroup.spells) .nil
    all_goals simp

theorem spells_fieldParams (kind : Kind) {kwparams : List (Text × List Value)}
    (h : ∀ p ∈ kwparams, p.1.all isWordChar = true ∧ ∀ v ∈ p.2, v.clean = true) :
    List.Forall₂ Spells (fieldParams kind kwparams) (fieldParamPieces kind kwparams) := by
  induction kwparams with
  | nil => exact .nil
  | cons p kwparams ih =>
    have hp := spells_joinFields kind (h p (by simp)).1 (h p (by simp)).2
    exact List.rel_append hp (ih fun p' hp' => h p' (by simp [hp']))

theorem spells_printNode (kind : Kind) {params : List Text} {pss : List (List Piece)}
    (h : List.Forall₂ Spells params pss) : Spells (printNode kind params) (nodePieces kind pss) := by
  have hret := kind.cuts_unary.append_spells (spells_intercalate kind h)
  have hopen : Cuts ['('] [.lparen] := cuts_char rfl
  rw [printNode, nodePieces, h.length_eq]
  split
  · exact ((hopen.append_spells hret).append_cuts rfl (cuts_char (c := ')') rfl)).spells
  · exact hret

mutual

theorem Tree.spells : ∀ t : Tree, t.plain = true → Spells t.toString t.pieces
  | .term _, h => spells_text h
  | .node kind children kwparams, h => by
    simp only [Tree.plain, Bool.and_eq_true, List.all_eq_true] at h
    have hfields := spells_fieldParams kind fun p hp => by
      simpa only [List.all_eq_true] using (h.1.2 p hp).1
    exact spells_printNode kind (List.rel_append (spellsAll children h.1.1) hfields)

theorem spellsAll : ∀ ts : List Tree, plainAll ts = true →
    List.Forall₂ Spells (toStrings ts) (piecesAll ts)
  | [], _ => .nil
  | t :: ts, h => by
    rw [plainAll, Bool.and_eq_true] at h
    exact .cons (t.spells h.1) (spellsAll ts h.2)

end

end QueryString

end RedisPy
