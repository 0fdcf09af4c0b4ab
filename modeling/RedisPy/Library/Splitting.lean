import Mathlib.Data.List.TakeWhile

/-! Splitting a sequence at separators: into words, where separators in a row are one,
into all the pieces between separators, and at the first separator only, which may be a
sequence itself. -/

universe u

namespace Splitting

variable {α : Type u} (sep : α → Bool)

/-- The words between separators, after the one that is being read. -/
def wordsFrom : List α → List α → List (List α)
  | word, [] => if word.isEmpty then [] else [word]
  | word, x :: xs =>
    if sep x then (if word.isEmpty then [] else [word]) ++ wordsFrom [] xs
    else wordsFrom (word ++ [x]) xs

/-- The words of a sequence; none of them is empty. -/
def words (xs : List α) : List (List α) := wordsFrom sep [] xs

/-- The pieces when a sequence is split once, at the first separator. -/
def splitOnce (xs : List α) : List (List α) :=
  match xs.dropWhile (fun x => !sep x) with
  | [] => [xs]
  | _ :: after => [xs.takeWhile (fun x => !sep x), after]

/-- What stands before and after the first place where `pat` occurs. -/
def cutAt [BEq α] (pat : List α) : List α → Option (List α × List α)
  | [] => if pat.isEmpty then some ([], []) else none
  | x :: xs =>
    if pat.isPrefixOf (x :: xs) then some ([], (x :: xs).drop pat.length)
    else (cutAt pat xs).map fun cut => (x :: cut.1, cut.2)

variable {sep}

theorem wordsFrom_append {w : List α} (hw : ∀ x ∈ w, sep x = false) (word xs : List α) :
    wordsFrom sep word (w ++ xs) = wordsFrom sep (word ++ w) xs := by
  induction w generalizing word with
  | nil => simp
  | cons x w ih =>
    have hx : sep x = false := hw x (by simp)
    rw [List.cons_append, wordsFrom, if_neg (by simp [hx]), ih fun y hy => hw y (by simp [hy])]
    simp

theorem words_separators {xs : List α} (h : ∀ x ∈ xs, sep x = true) : words sep xs = [] := by
  induction xs with
  | nil => rfl
  | cons x xs ih =>
    rw [words, wordsFrom, if_pos (h x (by simp))]
    exact ih fun y hy => h y (by simp [hy])

/-- A word and the separator after it. -/
theorem words_cons {w : List α} (hw : ∀ x ∈ w, sep x = false) (hne : w ≠ []) {s : α}
    (hs : sep s = true) (xs : List α) : words sep (w ++ s :: xs) = w :: words sep xs := by
  have he : w.isEmpty = false := by simpa using hne
  rw [words, wordsFrom_append hw, wordsFrom, if_pos hs, List.nil_append, he]
  rfl

theorem words_append_separators {w : List α} (hw : ∀ x ∈ w, sep x = false) (hne : w ≠ [])
    {tail : List α} (ht : ∀ x ∈ tail, sep x = true) : words sep (w ++ tail) = [w] := by
  cases tail with
  | nil =>
    have he : w.isEmpty = false := by simpa using hne
    rw [words, wordsFrom_append hw, wordsFrom, List.nil_append, he]
    rfl
  | cons s tail =>
    rw [words_cons hw hne (ht s (by simp)), words_separators fun x hx => ht x (by simp [hx])]

/-- Joined words are found again. -/
theorem words_intercalate {s : α} (hs : sep s = true) {ws : List (List α)}
    (hw : ∀ w ∈ ws, w ≠ [] ∧ ∀ x ∈ w, sep x = false) {tail : List α} (ht : ∀ x ∈ tail, sep x = true) :
    words sep ([s].intercalate ws ++ tail) = ws := by
  induction ws with
  | nil => simpa using words_separators ht
  | cons w ws ih =>
    obtain ⟨hne, hsep⟩ := hw w (by simp)
    cases ws with
    | nil => simpa using words_append_separators hsep hne ht
    | cons w' ws =>
      rw [List.intercalate_cons_cons, List.append_assoc, List.append_assoc, List.singleton_append,
        words_cons hsep hne hs, ih fun v hv => hw v (by simp [hv])]

theorem wordsFrom_append_separators {tail : List α} (ht : ∀ x ∈ tail, sep x = true)
    (word xs : List α) : wordsFrom sep word (xs ++ tail) = wordsFrom sep word xs := by
  induction xs generalizing word with
  | nil =>
    cases tail with
    | nil => rfl
    | cons s tail =>
      have hnil : words sep tail = [] := (words_separators fun x hx => ht x (List.mem_cons_of_mem s hx))
      rw [words] at hnil
      simp only [List.nil_append, wordsFrom, ht s List.mem_cons_self, hnil, if_true, List.append_nil]
  | cons x xs ih =>
    rw [List.cons_append, wordsFrom, wordsFrom, ih, ih]

theorem words_append_left {lead : List α} (hl : ∀ x ∈ lead, sep x = true) (xs : List α) :
    words sep (lead ++ xs) = words sep xs := by
  induction lead with
  | nil => rfl
  | cons x lead ih =>
    rw [words, List.cons_append, wordsFrom, if_pos (hl x (by simp))]
    exact ih fun y hy => hl y (by simp [hy])

/-- Stripping the separators at both ends loses no word. -/
theorem words_strip (xs : List α) :
    words sep ((xs.dropWhile sep).reverse.dropWhile sep).reverse = words sep xs := by
  have htail (ys : List α) : words sep (ys.reverse.dropWhile sep).reverse = words sep ys := by
    have hsplit : (ys.reverse.dropWhile sep).reverse ++ (ys.reverse.takeWhile sep).reverse = ys := by
      rw [← List.reverse_append, List.takeWhile_append_dropWhile, List.reverse_reverse]
    refine (wordsFrom_append_separators ?_ [] _).symm.trans (congrArg (words sep) hsplit)
    intro x hx
    exact List.mem_takeWhile_imp (List.mem_reverse.mp hx)
  rw [htail]
  have hsplit : xs.takeWhile sep ++ xs.dropWhile sep = xs := List.takeWhile_append_dropWhile
  exact (words_append_left (fun x hx => List.mem_takeWhile_imp hx) _).symm.trans
    (congrArg (words sep) hsplit)

/-- What joined words have in them. -/
theorem mem_intercalate {s x : α} {ws : List (List α)} (h : x ∈ [s].intercalate ws) :
    x = s ∨ ∃ w ∈ ws, x ∈ w := by
  induction ws with
  | nil => simp at h
  | cons w ws ih =>
    cases ws with
    | nil => exact .inr ⟨w, by simp, by simpa using h⟩
    | cons w' ws =>
      rw [List.intercalate_cons_cons, List.append_assoc, List.mem_append] at h
      rcases h with h | h
      · exact .inr ⟨w, by simp, h⟩
      · rcases List.mem_cons.mp h with rfl | h
        · exact .inl rfl
        · exact (ih h).imp_right fun ⟨v, hv, hx⟩ => ⟨v, List.mem_cons_of_mem w hv, hx⟩

theorem mem_intercalate_of_mem {s x : α} {ws : List (List α)} {w : List α} (hw : w ∈ ws) (hx : x ∈ w) :
    x ∈ [s].intercalate ws := by
  induction ws with
  | nil => simp at hw
  | cons v ws ih =>
    cases ws with
    | nil => simpa [← List.mem_singleton.mp hw] using hx
    | cons v' ws =>
      rw [List.intercalate_cons_cons, List.mem_append, List.mem_append]
      rcases List.mem_cons.mp hw with rfl | hw
      · exact .inl (.inl hx)
      · exact .inr (ih hw)

theorem splitOnce_append {before : List α} (hb : ∀ x ∈ before, sep x = false) {s : α}
    (hs : sep s = true) (after : List α) :
    splitOnce sep (before ++ s :: after) = [before, after] := by
  have hall : ∀ x ∈ before, (!sep x) = true := fun x hx => by simp [hb x hx]
  rw [splitOnce, List.dropWhile_append_of_pos hall, List.dropWhile_cons_of_neg (by simp [hs]),
    List.takeWhile_append_of_pos hall, List.takeWhile_cons_of_neg (by simp [hs]), List.append_nil]

/-- One more piece than separators. -/
theorem length_splitOn [DecidableEq α] (xs : List α) (s : α) :
    (xs.splitOn s).length = xs.count s + 1 := by
  induction xs with
  | nil => rfl
  | cons x xs ih =>
    rw [List.splitOn_cons_eq_if_modifyHead, List.count_cons]
    split <;> simp [ih]

section CutAt

variable [BEq α] [LawfulBEq α] {p : α} {pat : List α}

/-- The first occurrence is found when its first element does not occur before. -/
theorem cutAt_append {before : List α} (h : p ∉ before) (after : List α) :
    cutAt (p :: pat) (before ++ (p :: pat) ++ after) = some (before, after) := by
  induction before with
  | nil =>
    have hpre : (p :: pat).isPrefixOf ((p :: pat) ++ after) = true :=
      List.isPrefixOf_iff_prefix.mpr ⟨after, rfl⟩
    rw [List.nil_append, List.cons_append, cutAt, ← List.cons_append, if_pos hpre, List.drop_left]
  | cons x before ih =>
    have hne : p ≠ x := fun he => h (he ▸ List.mem_cons_self)
    rw [List.cons_append, List.cons_append, cutAt, if_neg (by simp [hne]),
      ih fun hmem => h (List.mem_cons_of_mem x hmem)]
    rfl

/-- What is cut is the sequence. -/
theorem append_of_cutAt {xs before after : List α} (h : cutAt pat xs = some (before, after)) :
    xs = before ++ pat ++ after := by
  induction xs generalizing before with
  | nil =>
    rw [cutAt] at h
    split at h
    next hp =>
      cases h
      simpa using List.isEmpty_iff.mp hp
    next => cases h
  | cons x xs ih =>
    rw [cutAt] at h
    split at h
    next hp =>
      cases h
      obtain ⟨t, ht⟩ := List.isPrefixOf_iff_prefix.mp hp
      rw [← ht, List.drop_left, List.nil_append]
    next =>
      obtain ⟨⟨b, a⟩, hcut, heq⟩ := Option.map_eq_some_iff.mp h
      cases heq
      rw [ih hcut]
      rfl

theorem cutAt_eq_none {xs : List α} {q : α} (hq : q ∈ pat) (h : q ∉ xs) : cutAt pat xs = none := by
  cases hcut : cutAt pat xs with
  | none => rfl
  | some cut =>
    refine absurd ?_ h
    rw [append_of_cutAt hcut]
    simp [hq]

end CutAt

end Splitting
