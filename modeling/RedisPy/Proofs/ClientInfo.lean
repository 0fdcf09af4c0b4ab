import RedisPy.Spec.ClientInfo
import RedisPy.Library.Fallible
import Mathlib.Tactic.Basic

/-! When the two parsers of client records read the same fields in a record. Both take the
text after the first `'='` of a field for its value, but `parse_client_info` splits at every
`'='` and unpacks two parts. -/

namespace RedisPy

/-- A field of a record, `name=value`. -/
def fieldText (f : Chars × Chars) : Chars := f.1 ++ '=' :: f.2

structure ClientRecord where
  fields : List (Chars × Chars)
  names_nodup : (fields.map Prod.fst).Nodup
  name_ne_nil : ∀ f ∈ fields, f.1 ≠ []
  name_plain : ∀ f ∈ fields, ∀ c ∈ f.1, c ≠ '=' ∧ isSpaceChar c = false
  value_plain : ∀ f ∈ fields, ∀ c ∈ f.2, isSpaceChar c = false
  integers : ∀ k ∈ intKeys, ∃ f ∈ fields, f.1 = k ∧ ∃ i, Numeral.readInt f.2 = some i

/-- A value with `int()` applied to it, where that is possible. -/
def InfoValue.asInt (v : InfoValue) : InfoValue :=
  match v.toInt with
  | .ok i => .int i
  | .error _ => v

/-- `client_info` with the values of some keys turned to integers. -/
def converted (ks : List Chars) (d : Dict Chars InfoValue) : Dict Chars InfoValue where
  items := d.items.map fun f => (f.1, if f.1 ∈ ks then f.2.asInt else f.2)
  nodup := by
    rw [List.map_map]
    exact d.nodup

namespace ClientRecord

variable (r : ClientRecord)

/-- The record as the server writes it. -/
def line : Chars := [' '].intercalate (r.fields.map fieldText)

/-- Each field name with the text after its first `'='`. -/
def entry : Dict Chars Chars := ⟨r.fields, r.names_nodup⟩

/-- The entry as values of `client_info`. -/
def textEntry : Dict Chars InfoValue where
  items := r.fields.map fun f => (f.1, .text f.2)
  nodup := by
    rw [List.map_map]
    exact r.names_nodup

/-- The entry with the integer fields converted. -/
def info : Dict Chars InfoValue := converted intKeys r.textEntry

end ClientRecord

/-- Both parsers read every record right: `parse_client_list` all of them, `parse_client_info`
each one with white space after it or none. -/
def ClientParsersAgree (records : List ClientRecord) : Prop :=
  (∀ response, strIfBytes response = (records.map fun r => r.line ++ ['\n']).flatten →
    parseClientList response = .ok (records.map ClientRecord.entry)) ∧
  ∀ r ∈ records, ∀ order : List Chars, order.Perm intKeys → ∀ value tail,
    (∀ c ∈ tail, isSpaceChar c = true) → strIfBytes value = r.line ++ tail →
      parseClientInfo order value = .ok r.info

theorem eq_of_items {κ β : Type} {d d' : Dict κ β} (h : d.items = d'.items) : d = d' := by
  cases d
  cases d'
  cases h
  rfl

section Fields

theorem splitOnce_fieldText {f : Chars × Chars} (h : ∀ c ∈ f.1, c ≠ '=') :
    Splitting.splitOnce (· == '=') (fieldText f) = [f.1, f.2] :=
  Splitting.splitOnce_append (fun c hc => by simpa using h c hc) (by simp) f.2

theorem dictOfPairs_fields {fields : List (Chars × Chars)}
    (h : ∀ f ∈ fields, ∀ c ∈ f.1, c ≠ '=') (d : Dict Chars Chars) :
    dictOfPairs d (fields.map fieldText) = .ok (fields.foldl Keyed.put d) := by
  induction fields generalizing d with
  | nil => rfl
  | cons f fields ih =>
    rw [List.map_cons, dictOfPairs, splitOnce_fieldText (h f (by simp)), List.foldl_cons]
    exact ih (fun g hg => h g (by simp [hg])) _

theorem splitOn_fieldText {f : Chars × Chars} (h : ∀ c ∈ f.1, c ≠ '=') :
    (fieldText f).splitOn '=' = f.1 :: f.2.splitOn '=' := by
  have hname : '=' ∉ f.1 := fun hmem => h _ hmem rfl
  exact List.splitOn_append_cons_self_of_not_mem hname f.2

theorem readInfo_fields {fields : List (Chars × Chars)} (h : ∀ f ∈ fields, ∀ c ∈ f.1, c ≠ '=')
    (hv : ∀ f ∈ fields, '=' ∉ f.2) (d : Dict Chars InfoValue) :
    readInfo d (fields.map fieldText) =
      .ok ((fields.map fun f => (f.1, InfoValue.text f.2)).foldl Keyed.put d) := by
  induction fields generalizing d with
  | nil => rfl
  | cons f fields ih =>
    rw [List.map_cons, readInfo, splitOn_fieldText (h f (by simp)),
      List.splitOn_eq_singleton (hv f (by simp)), List.map_cons, List.foldl_cons]
    exact ih (fun g hg => h g (by simp [hg])) (fun g hg => hv g (by simp [hg])) _

/-- A value with a separator in it stops the loop. -/
theorem readInfo_raises {fields : List (Chars × Chars)} (h : ∀ f ∈ fields, ∀ c ∈ f.1, c ≠ '=')
    {f : Chars × Chars} (hf : f ∈ fields) (hv : '=' ∈ f.2) (d : Dict Chars InfoValue) :
    ∃ e, readInfo d (fields.map fieldText) = .error e := by
  induction fields generalizing d with
  | nil => simp at hf
  | cons g fields ih =>
    rw [List.map_cons, readInfo, splitOn_fieldText (h g (by simp))]
    by_cases hg : '=' ∈ g.2
    · have hlen := Splitting.length_splitOn g.2 '='
      have hpos := List.count_pos_iff.mpr hg
      obtain ⟨a, b, cs, hcs⟩ : ∃ a b cs, g.2.splitOn '=' = a :: b :: cs := by
        cases hs : g.2.splitOn '=' with
        | nil => simp [hs] at hlen
        | cons a t =>
          cases t with
          | nil => simp [hs] at hlen; omega
          | cons b cs => exact ⟨a, b, cs, rfl⟩
      rw [hcs]
      exact ⟨_, rfl⟩
    · have hne : g ≠ f := fun he => hg (he ▸ hv)
      have hf' : f ∈ fields := (List.mem_cons.mp hf).resolve_left (Ne.symm hne)
      rw [List.splitOn_eq_singleton hg]
      exact ih (fun k hk => h k (by simp [hk])) hf' _

end Fields

section Convert

theorem asInt_of_toInt {v : InfoValue} {i : Int} (h : v.toInt = .ok i) : v.asInt = .int i := by
  rw [InfoValue.asInt, h]

/-- The second loop converts the values of the keys it goes through, in any order. -/
theorem convertInfo_eq (ks : List Chars) (d : Dict Chars InfoValue)
    (h : ∀ k ∈ ks, ∃ v i, (k, v) ∈ d.items ∧ v.toInt = .ok i) :
    convertInfo d ks = .ok (converted ks d) := by
  induction ks generalizing d with
  | nil =>
    rw [convertInfo]
    exact congrArg _ (eq_of_items (by simp [converted]))
  | cons k ks ih =>
    obtain ⟨v, i, hmem, hint⟩ := h k (by simp)
    have hget : d.get? k = some (k, v) := Keyed.get?_of_mem hmem
    have hkeys : k ∈ d.keys := List.mem_map_of_mem hmem
    have hrest : ∀ k' ∈ ks, ∃ v' i', (k', v') ∈ (d.put (k, .int i)).items ∧ v'.toInt = .ok i' := by
      intro k' hk'
      by_cases he : k' = k
      · exact ⟨.int i, i, he ▸ Keyed.mem_items_put.mpr (.inl rfl), rfl⟩
      · obtain ⟨v', i', hmem', hint'⟩ := h k' (by simp [hk'])
        exact ⟨v', i', Keyed.mem_items_put.mpr (.inr ⟨hmem', he⟩), hint'⟩
    have hput : (d.put (k, .int i)).items = Keyed.replace Prod.fst (k, .int i) d.items :=
      if_pos hkeys
    have hsame : converted ks (d.put (k, .int i)) = converted (k :: ks) d := by
      refine eq_of_items ?_
      simp only [converted, hput, Keyed.replace, List.map_map]
      refine List.map_congr_left fun f hf => ?_
      by_cases he : f.1 = k
      · have hv : f = (k, v) := List.inj_on_of_nodup_map d.nodup hf hmem he
        subst hv
        have hasInt : v.asInt = .int i := asInt_of_toInt hint
        have hsame : (InfoValue.int i).asInt = .int i := rfl
        simp [hasInt, hsame]
      · simp [he]
    rw [convertInfo, hget, ← hsame, ← ih _ hrest]
    simp only [hint]
    rfl

end Convert

section Lines

theorem isSpaceChar_of_isLineBreak {c : Char} (h : isLineBreak c = true) : isSpaceChar c = true := by
  simp only [isLineBreak, isSpaceChar, Bool.or_eq_true, Bool.and_eq_true, decide_eq_true_eq,
    beq_iff_eq] at h ⊢
  omega

theorem linesFrom_append {w : Chars} (hw : ∀ c ∈ w, isLineBreak c = false) (line cs : Chars) :
    linesFrom line (w ++ '\n' :: cs) = (line ++ w) :: linesFrom [] cs := by
  induction w generalizing line with
  | nil =>
    rw [List.nil_append, linesFrom, if_pos (by decide), List.append_nil]
    simp
  | cons c w ih =>
    have hc := hw c (by simp)
    rw [List.cons_append, linesFrom, if_neg (by simp [hc]), ih fun d hd => hw d (by simp [hd])]
    · simp
    · rintro cs' rfl
      exact absurd hc (by decide)

/-- The lines of a text that ends each line with a line feed. -/
theorem splitLines_lines {ls : List Chars} (h : ∀ l ∈ ls, ∀ c ∈ l, isLineBreak c = false) :
    splitLines (ls.map (· ++ ['\n'])).flatten = ls := by
  induction ls with
  | nil => rfl
  | cons l ls ih =>
    rw [List.map_cons, List.flatten_cons, List.append_assoc, List.singleton_append, splitLines,
      linesFrom_append (h l (by simp)), List.nil_append]
    exact congrArg _ (ih fun m hm => h m (by simp [hm]))

end Lines

namespace ClientRecord

variable (r : ClientRecord)

theorem fields_ne_nil : r.fields ≠ [] := by
  obtain ⟨f, hf, -⟩ := r.integers _ (List.mem_map_of_mem (List.mem_cons_self))
  exact List.ne_nil_of_mem hf

theorem fieldText_plain {f : Chars × Chars} (hf : f ∈ r.fields) :
    ∀ c ∈ fieldText f, isSpaceChar c = false := by
  intro c hc
  rcases List.mem_append.mp hc with hc | hc
  · exact (r.name_plain f hf c hc).2
  · rcases List.mem_cons.mp hc with rfl | hc
    · decide
    · exact r.value_plain f hf c hc

theorem not_isLineBreak : ∀ c ∈ r.line, isLineBreak c = false := by
  intro c hc
  have hline : isSpaceChar c = true → c = ' ' := by
    intro hspace
    rcases Splitting.mem_intercalate hc with rfl | ⟨w, hw, hcw⟩
    · rfl
    · obtain ⟨f, hf, rfl⟩ := List.mem_map.mp hw
      rw [r.fieldText_plain hf c hcw] at hspace
      cases hspace
  by_contra hbreak
  rw [Bool.not_eq_false] at hbreak
  rw [hline (isSpaceChar_of_isLineBreak hbreak)] at hbreak
  exact absurd hbreak (by decide)

theorem splitOn_line : r.line.splitOn ' ' = r.fields.map fieldText := by
  refine List.splitOn_intercalate ' ' ?_ (by simpa using r.fields_ne_nil)
  intro w hw hmem
  obtain ⟨f, hf, rfl⟩ := List.mem_map.mp hw
  exact absurd (r.fieldText_plain hf ' ' hmem) (by decide)

theorem words_line {tail : Chars} (ht : ∀ c ∈ tail, isSpaceChar c = true) :
    Splitting.words isSpaceChar (stripText (r.line ++ tail)) = r.fields.map fieldText := by
  rw [stripText, Splitting.words_strip]
  refine Splitting.words_intercalate (by decide) ?_ ht
  intro w hw
  obtain ⟨f, hf, rfl⟩ := List.mem_map.mp hw
  exact ⟨by simp [fieldText], r.fieldText_plain hf⟩

theorem name_ne_separator : ∀ f ∈ r.fields, ∀ c ∈ f.1, c ≠ '=' :=
  fun f hf c hc => (r.name_plain f hf c hc).1

theorem dictOfPairs_line : dictOfPairs ∅ (r.line.splitOn ' ') = .ok r.entry := by
  rw [splitOn_line, dictOfPairs_fields r.name_ne_separator]
  refine congrArg _ (eq_of_items ?_)
  exact Keyed.items_foldl_put_of_nodup r.names_nodup

theorem readInfo_line (h : ∀ f ∈ r.fields, '=' ∉ f.2) :
    readInfo ∅ (r.fields.map fieldText) = .ok r.textEntry := by
  rw [readInfo_fields r.name_ne_separator h]
  refine congrArg _ (eq_of_items ?_)
  exact Keyed.items_foldl_put_of_nodup r.textEntry.nodup

theorem convertInfo_line {order : List Chars} (ho : order.Perm intKeys) :
    convertInfo r.textEntry order = .ok r.info := by
  rw [convertInfo_eq]
  · refine congrArg _ (eq_of_items ?_)
    simp only [info, converted, ho.mem_iff]
  · intro k hk
    obtain ⟨f, hf, rfl, i, hi⟩ := r.integers k (ho.mem_iff.mp hk)
    exact ⟨.text f.2, i, List.mem_map_of_mem hf, by simp [InfoValue.toInt, hi]⟩

/-- The list parser reads every record. -/
theorem parseClientList_lines {records : List ClientRecord} {response : ClientText}
    (h : strIfBytes response = (records.map fun r => r.line ++ ['\n']).flatten) :
    parseClientList response = .ok (records.map entry) := by
  have hlines : (records.map fun r => r.line ++ ['\n']) = (records.map line).map (· ++ ['\n']) := by
    rw [List.map_map]
    rfl
  rw [parseClientList, h, hlines, splitLines_lines, Fallible.mapM_ok_iff_forall₂]
  · rw [List.forall₂_map_left_iff, List.forall₂_map_right_iff, List.forall₂_same]
    intro r _
    exact r.dictOfPairs_line
  · intro l hl
    obtain ⟨r, -, rfl⟩ := List.mem_map.mp hl
    exact r.not_isLineBreak

/-- The other parser reads a record whose values have no separator in them. -/
theorem parseClientInfo_line (h : ∀ f ∈ r.fields, '=' ∉ f.2) {order : List Chars}
    (ho : order.Perm intKeys) {value : ClientText} {tail : Chars}
    (ht : ∀ c ∈ tail, isSpaceChar c = true) (hv : strIfBytes value = r.line ++ tail) :
    parseClientInfo order value = .ok r.info := by
  rw [parseClientInfo, hv, words_line r ht, readInfo_line r h]
  exact r.convertInfo_line ho

/-- And raises for the others. -/
theorem parseClientInfo_raises {f : Chars × Chars} (hf : f ∈ r.fields) (hs : '=' ∈ f.2)
    (order : List Chars) : ∃ e, parseClientInfo order (.str r.line) = .error e := by
  obtain ⟨e, he⟩ := readInfo_raises r.name_ne_separator hf hs ∅
  have hwords : Splitting.words isSpaceChar (stripText (r.line ++ [])) = r.fields.map fieldText :=
    r.words_line (by simp)
  rw [List.append_nil] at hwords
  refine ⟨e, ?_⟩
  rw [parseClientInfo, strIfBytes, hwords, he]
  rfl

end ClientRecord

/-- The parsers agree exactly when no value has `'='` in it. -/
theorem client_parsers_agree_iff (records : List ClientRecord) :
    ClientParsersAgree records ↔ ∀ r ∈ records, ∀ f ∈ r.fields, '=' ∉ f.2 := by
  constructor
  · intro h r hr f hf hs
    obtain ⟨e, he⟩ := r.parseClientInfo_raises hf hs intKeys
    have hok := h.2 r hr intKeys (List.Perm.refl _) (.str r.line) [] (by simp) (by simp [strIfBytes])
    rw [he] at hok
    cases hok
  · intro h
    refine ⟨fun response hresp => ClientRecord.parseClientList_lines hresp, ?_⟩
    intro r hr order ho value tail ht hv
    exact r.parseClientInfo_line (h r hr) ho ht hv

def fieldsOfSeparator : List (Chars × Chars) :=
  ("user".toList, "a=b".toList) :: intKeys.map fun k => (k, "0".toList)

/-- A record with `user=a=b` and zeroes. -/
def recordOfSeparator : ClientRecord where
  fields := fieldsOfSeparator
  names_nodup := by decide
  name_ne_nil := by decide
  name_plain := by
    have h : (fieldsOfSeparator.all fun f => f.1.all fun c => c != '=' && !isSpaceChar c) = true := by
      decide +kernel
    intro f hf c hc
    simpa using List.all_eq_true.mp (List.all_eq_true.mp h f hf) c hc
  value_plain := by
    have h : (fieldsOfSeparator.all fun f => f.2.all fun c => !isSpaceChar c) = true := by
      decide +kernel
    intro f hf c hc
    simpa using List.all_eq_true.mp (List.all_eq_true.mp h f hf) c hc
  integers := by
    intro k hk
    have hzero : Numeral.readInt "0".toList = some 0 := by decide
    exact ⟨(k, "0".toList), by simp [fieldsOfSeparator, hk], rfl, 0, hzero⟩

theorem client_parsers_disagree : ¬ ClientParsersAgree [recordOfSeparator] := by
  intro h
  have hf : ("user".toList, "a=b".toList) ∈ recordOfSeparator.fields := List.mem_cons_self
  obtain ⟨e, he⟩ := recordOfSeparator.parseClientInfo_raises hf (by decide) intKeys
  have hok := h.2 recordOfSeparator (by simp) intKeys (List.Perm.refl _) (.str recordOfSeparator.line) []
    (by simp) (by simp [strIfBytes])
  rw [he] at hok
  cases hok

end RedisPy
