import Mathlib.Data.List.Basic
import Mathlib.Tactic.Basic

/-! Which depths the operations of an execution plan get by the levels of their lines, told by
the depths alone that are on the stack: a line at the level of the line before takes its
parent's depth off the stack for good. -/

namespace RedisPy

namespace ExecutionPlan

/-- The depth of the parent that an operation at level `op_level` gets, and the depths that are
on the stack then. -/
def parentOf (level depth : Nat) (held : List Nat) (op_level : Nat) : Option (Nat × List Nat) :=
  if op_level = level then
    match held with
    | h :: held => some (h, held)
    | [] => none
  else if op_level = level + 1 then some (depth, depth :: held)
  else if op_level < level then
    match held.drop (level - op_level) with
    | h :: held => some (h, h :: held)
    | [] => none
  else none

/-- The depths that operations get by their levels, and the depths that are on the stack in the
end. -/
def walk (level depth : Nat) (held : List Nat) : List Nat → Option (List Nat × List Nat)
  | [] => some ([], held)
  | op_level :: levels => do
    let (h, held) ← parentOf level depth held op_level
    let (depths, last) ← walk op_level (h + 1) held levels
    some ((h + 1) :: depths, last)

/-- The depths below `level` and not less than `op_level - 1` are on the stack. -/
def Full (op_level level : Nat) (held : List Nat) : Prop :=
  ∀ g, op_level ≤ g + 1 → g < level → g ∈ held

/-- No line comes back to where a depth is missing from the stack. -/
def Clear (level : Nat) (held levels : List Nat) : Prop :=
  ∀ g < level, g ∉ held → ∀ op_level ∈ levels, g + 1 < op_level

/-- Where two lines in a row are at one level, that is not the level of the root or of its
children, and every later line is deeper. -/
def Straight : List Nat → Prop
  | [] => True
  | [_] => True
  | a :: b :: levels => (a = b → 2 ≤ a ∧ ∀ c ∈ levels, a < c) ∧ Straight (b :: levels)

/-- The levels of the lines under the root: each at most one deeper than the line before. -/
def Descends : Nat → List Nat → Prop
  | _, [] => True
  | level, op_level :: levels => 1 ≤ op_level ∧ op_level ≤ level + 1 ∧ Descends op_level levels

variable {held : List Nat} {level : Nat}

/-- The depths on the stack leave no room for more. -/
theorem getElem?_add_lt (hs : held.Pairwise (· > ·)) (hlt : ∀ d ∈ held, d < level) {i d : Nat}
    (hd : held[i]? = some d) : d + i < level := by
  induction held generalizing i level with
  | nil => simp at hd
  | cons h held ih =>
    obtain ⟨hh, hs⟩ := List.pairwise_cons.mp hs
    have hlevel := hlt h (by simp)
    cases i with
    | zero =>
      rw [List.getElem?_cons_zero] at hd
      cases hd
      exact hlevel
    | succ i =>
      rw [List.getElem?_cons_succ] at hd
      have := ih hs hh hd
      omega

theorem exists_cons_of_top (hs : held.Pairwise (· > ·)) (hlt : ∀ d ∈ held, d < level + 1)
    (htop : level ∈ held) : ∃ rest, held = level :: rest := by
  cases held with
  | nil => simp at htop
  | cons h held =>
    refine ⟨held, ?_⟩
    rcases List.mem_cons.mp htop with rfl | hmem
    · rfl
    · have hgt := (List.pairwise_cons.mp hs).1 level hmem
      have hle := hlt h (by simp)
      omega

/-- What has to be on the stack for the line to find its parent. -/
theorem drop_eq_cons_iff (hs : held.Pairwise (· > ·)) {op_level n : Nat}
    (hlt : ∀ d ∈ held, d < op_level + 1 + n) :
    (∃ rest, held.drop n = op_level :: rest) ↔ Full (op_level + 1) (op_level + 1 + n) held := by
  induction n generalizing held with
  | zero =>
    constructor
    · rintro ⟨rest, hdrop⟩ g hg hlevel
      rw [List.drop_zero] at hdrop
      have : g = op_level := by omega
      simp [hdrop, this]
    · intro hfull
      exact exists_cons_of_top hs hlt (hfull op_level (by omega) (by omega))
  | succ n ih =>
    constructor
    · rintro ⟨rest, hdrop⟩
      cases held with
      | nil => simp at hdrop
      | cons h held =>
        obtain ⟨hh, hs⟩ := List.pairwise_cons.mp hs
        have hlevel := hlt h (by simp)
        have hget : held[n]? = some op_level := by
          have := congrArg List.head? hdrop
          simpa using this
        have hroom := getElem?_add_lt hs hh hget
        have hfull := (ih hs fun d hd => by have := hh d hd; omega).mp ⟨rest, by simpa using hdrop⟩
        intro g hg hglt
        by_cases hgh : g = h
        · simp [hgh]
        · exact List.mem_cons_of_mem h (hfull g hg (by omega))
    · intro hfull
      have htop : op_level + 1 + n ∈ held := hfull _ (by omega) (by omega)
      have hlt' : ∀ d ∈ held, d < op_level + 1 + n + 1 := hlt
      obtain ⟨rest, rfl⟩ := exists_cons_of_top hs hlt' htop
      obtain ⟨hh, hs⟩ := List.pairwise_cons.mp hs
      refine (ih hs hh).mpr fun g hg hglt => ?_
      have hmem := hfull g hg (by omega)
      exact (List.mem_cons.mp hmem).resolve_left (by omega)

theorem getLast?_eq_zero_iff (hs : held.Pairwise (· > ·)) : held.getLast? = some 0 ↔ 0 ∈ held := by
  constructor
  · exact List.mem_of_getLast?
  · intro hmem
    induction held with
    | nil => simp at hmem
    | cons h held ih =>
      obtain ⟨hh, hs⟩ := List.pairwise_cons.mp hs
      cases held with
      | nil =>
        have hzero : 0 = h := by simpa using hmem
        simp [← hzero]
      | cons d held =>
        have hd := hh d (by simp)
        have htail : 0 ∈ d :: held := (List.mem_cons.mp hmem).resolve_left (by omega)
        rw [List.getLast?_cons_cons]
        exact ih hs htail

/-- The depths are the levels of the lines, and the root stays at the bottom of the stack. -/
def Kept (level : Nat) (held levels : List Nat) : Prop :=
  ∃ last, walk level level held levels = some (levels, last) ∧ last.getLast? = some 0

theorem kept_cons_iff {op_level : Nat} {levels : List Nat} :
    Kept level held (op_level :: levels) ↔
      ∃ h held', parentOf level level held op_level = some (h, held') ∧ h + 1 = op_level ∧
        Kept op_level held' levels := by
  constructor
  · rintro ⟨last, hw, hlast⟩
    rw [walk] at hw
    simp only [Option.bind_eq_bind, Option.bind_eq_some_iff] at hw
    obtain ⟨⟨h, held'⟩, hp, ⟨depths, last'⟩, hw, heq⟩ := hw
    cases heq
    exact ⟨h, held', hp, rfl, last', hw, hlast⟩
  · rintro ⟨h, held', hp, rfl, last, hw, hlast⟩
    refine ⟨last, ?_, hlast⟩
    rw [walk]
    simp [hp, hw]

theorem parentOf_same {h : Nat} {held' : List Nat} :
    parentOf level level held level = some (h, held') ↔ held = h :: held' := by
  unfold parentOf
  rw [if_pos rfl]
  cases held <;> simp

theorem parentOf_next {h : Nat} {held' : List Nat} :
    parentOf level level held (level + 1) = some (h, held') ↔ h = level ∧ held' = level :: held := by
  unfold parentOf
  rw [if_neg (by omega), if_pos rfl]
  simp [eq_comm]

theorem parentOf_back {h op_level n : Nat} {held' : List Nat} :
    parentOf (op_level + (n + 1)) (op_level + (n + 1)) held op_level = some (h, held') ↔
      held.drop (n + 1) = held' ∧ ∃ rest, held' = h :: rest := by
  unfold parentOf
  rw [if_neg (by omega), if_neg (by omega), if_pos (by omega), Nat.add_sub_cancel_left]
  cases hdrop : held.drop (n + 1) with
  | nil =>
    simp only [reduceCtorEq, false_iff]
    rintro ⟨rfl, rest, heq⟩
    cases heq
  | cons d rest =>
    simp only [Option.some.injEq, Prod.mk.injEq]
    constructor
    · rintro ⟨rfl, rfl⟩
      exact ⟨rfl, rest, rfl⟩
    · rintro ⟨rfl, rest', heq⟩
      cases heq
      exact ⟨rfl, rfl⟩

/-- The condition on the levels that are still to come. -/
structure Steady (level : Nat) (held levels : List Nat) : Prop where
  root_held : 0 ∈ held
  clear : Clear level held levels
  straight : Straight (level :: levels)

variable {levels : List Nat}

theorem kept_next_iff : Kept level held ((level + 1) :: levels) ↔ Kept (level + 1) (level :: held) levels := by
  rw [kept_cons_iff]
  constructor
  · rintro ⟨h, held', hp, -, hkept⟩
    obtain ⟨-, rfl⟩ := parentOf_next.mp hp
    exact hkept
  · exact fun hkept => ⟨level, level :: held, parentOf_next.mpr ⟨rfl, rfl⟩, rfl, hkept⟩

theorem steady_next_iff (hpos : 1 ≤ level) :
    Steady level held ((level + 1) :: levels) ↔ Steady (level + 1) (level :: held) levels := by
  constructor
  · rintro ⟨hroot, hclear, hstraight⟩
    refine ⟨List.mem_cons_of_mem _ hroot, ?_, hstraight.2⟩
    intro g hg hmem c hc
    rw [List.mem_cons, not_or] at hmem
    exact hclear g (by omega) hmem.2 c (List.mem_cons_of_mem _ hc)
  · rintro ⟨hroot, hclear, hstraight⟩
    refine ⟨(List.mem_cons.mp hroot).resolve_left (by omega), ?_, fun heq => by omega, hstraight⟩
    intro g hg hmem c hc
    rcases List.mem_cons.mp hc with rfl | hc
    · omega
    · refine hclear g (by omega) ?_ c hc
      rw [List.mem_cons, not_or]
      exact ⟨by omega, hmem⟩

/-- A line at the level of the line before takes the last depth off the stack. -/
theorem kept_same_iff : Kept (level + 1) held ((level + 1) :: levels) ↔
    ∃ rest, held = level :: rest ∧ Kept (level + 1) rest levels := by
  rw [kept_cons_iff]
  constructor
  · rintro ⟨h, held', hp, hh, hkept⟩
    obtain rfl : h = level := by omega
    exact ⟨held', parentOf_same.mp hp, hkept⟩
  · rintro ⟨rest, hheld, hkept⟩
    exact ⟨level, rest, parentOf_same.mpr hheld, rfl, hkept⟩

theorem steady_same_iff (hs : held.Pairwise (· > ·)) (hlt : ∀ d ∈ held, d < level + 1) :
    Steady (level + 1) held ((level + 1) :: levels) ↔
      ∃ rest, held = level :: rest ∧ Steady (level + 1) rest levels := by
  constructor
  · rintro ⟨hroot, hclear, hstraight⟩
    obtain ⟨htwo, hlater⟩ := hstraight.1 rfl
    have htop : level ∈ held := by
      by_contra hmem
      exact Nat.lt_irrefl _ (hclear level (by omega) hmem (level + 1) (by simp))
    obtain ⟨rest, rfl⟩ := exists_cons_of_top hs hlt htop
    refine ⟨rest, rfl, (List.mem_cons.mp hroot).resolve_left (by omega), ?_, hstraight.2⟩
    intro g hg hmem c hc
    by_cases hgl : g = level
    · exact hgl ▸ hlater c hc
    · refine hclear g hg ?_ c (List.mem_cons_of_mem _ hc)
      rw [List.mem_cons, not_or]
      exact ⟨hgl, hmem⟩
  · rintro ⟨rest, rfl, hroot, hclear, hstraight⟩
    have hrest := (List.pairwise_cons.mp hs).1
    have hpos := hrest 0 hroot
    have hgone : level ∉ rest := fun hmem => Nat.lt_irrefl _ (hrest level hmem)
    refine ⟨List.mem_cons_of_mem _ hroot, ?_, fun _ => ⟨by omega, ?_⟩, hstraight⟩
    · intro g hg hmem c hc
      rw [List.mem_cons, not_or] at hmem
      rcases List.mem_cons.mp hc with rfl | hc
      · omega
      · exact hclear g hg hmem.2 c hc
    · exact fun c hc => hclear level (by omega) hgone c hc

/-- A line that goes back finds its parent when all depths from there on are on the stack. -/
theorem kept_back_iff {n : Nat} : Kept (level + 1 + (n + 1)) held ((level + 1) :: levels) ↔
    ∃ rest, held.drop (n + 1) = level :: rest ∧ Kept (level + 1) (level :: rest) levels := by
  rw [kept_cons_iff]
  constructor
  · rintro ⟨h, held', hp, hh, hkept⟩
    obtain rfl : h = level := by omega
    obtain ⟨hdrop, rest, rfl⟩ := parentOf_back.mp hp
    exact ⟨rest, hdrop, hkept⟩
  · rintro ⟨rest, hdrop, hkept⟩
    exact ⟨level, level :: rest, parentOf_back.mpr ⟨hdrop, rest, rfl⟩, rfl, hkept⟩

theorem steady_back_iff {n : Nat} (hs : held.Pairwise (· > ·))
    (hlt : ∀ d ∈ held, d < level + 1 + (n + 1)) :
    Steady (level + 1 + (n + 1)) held ((level + 1) :: levels) ↔
      ∃ rest, held.drop (n + 1) = level :: rest ∧ Steady (level + 1) (level :: rest) levels := by
  constructor
  · rintro ⟨hroot, hclear, hstraight⟩
    have hfull : Full (level + 1) (level + 1 + (n + 1)) held := by
      intro g hg hglt
      by_contra hmem
      have := hclear g hglt hmem (level + 1) (by simp)
      omega
    obtain ⟨rest, hdrop⟩ := (drop_eq_cons_iff hs hlt).mpr hfull
    -- what is above the parent is deeper than it
    have habove : ∀ g ∈ held, g ≤ level → g ∈ level :: rest := by
      intro g hg hgl
      rw [← List.take_append_drop (n + 1) held, hdrop, List.mem_append] at hg
      refine hg.resolve_left fun htake => ?_
      rw [← List.take_append_drop (n + 1) held, hdrop] at hs
      have := (List.pairwise_append.mp hs).2.2 g htake level (by simp)
      omega
    refine ⟨rest, hdrop, habove 0 hroot (Nat.zero_le _), ?_, hstraight.2⟩
    intro g hg hmem c hc
    exact hclear g (by omega) (fun hheld => hmem (habove g hheld (by omega))) c
      (List.mem_cons_of_mem _ hc)
  · rintro ⟨rest, hdrop, hroot, hclear, hstraight⟩
    have hfull := (drop_eq_cons_iff hs hlt).mp ⟨rest, hdrop⟩
    have hbelow : ∀ g ∈ level :: rest, g ∈ held := fun g hg =>
      List.mem_of_mem_drop (hdrop ▸ hg)
    refine ⟨hbelow 0 hroot, ?_, fun heq => by omega, hstraight⟩
    intro g hg hmem c hc
    have hgl : g < level := by
      by_contra hge
      exact hmem (hfull g (by omega) hg)
    rcases List.mem_cons.mp hc with rfl | hc
    · omega
    · exact hclear g (by omega) (fun hrest => hmem (hbelow g hrest)) c hc

/-- The depths are the levels exactly when no line comes back to where a depth is missing. -/
theorem kept_iff (levels : List Nat) (hpos : 1 ≤ level) (hs : held.Pairwise (· > ·))
    (hlt : ∀ d ∈ held, d < level) (hd : Descends level levels) :
    Kept level held levels ↔ Steady level held levels := by
  induction levels generalizing level held with
  | nil =>
    constructor
    · rintro ⟨last, hw, hlast⟩
      cases hw
      exact ⟨(getLast?_eq_zero_iff hs).mp hlast, fun _ _ _ _ hc => by simp at hc, trivial⟩
    · exact fun h => ⟨held, rfl, (getLast?_eq_zero_iff hs).mpr h.root_held⟩
  | cons op_level levels ih =>
    obtain ⟨hpos', hle, hd⟩ := hd
    obtain ⟨k, rfl⟩ : ∃ k, op_level = k + 1 := ⟨op_level - 1, by omega⟩
    rcases Nat.lt_trichotomy (k + 1) level with hback | rfl | hnext
    · obtain ⟨n, rfl⟩ : ∃ n, level = k + 1 + (n + 1) := ⟨level - (k + 1) - 1, by omega⟩
      rw [kept_back_iff, steady_back_iff hs hlt]
      refine exists_congr fun rest => and_congr_right fun hdrop => ?_
      have hs' : (k :: rest).Pairwise (· > ·) := hdrop ▸ hs.drop
      refine ih (by omega) hs' ?_ hd
      intro d hd
      rcases List.mem_cons.mp hd with rfl | hd
      · exact Nat.lt_succ_self _
      · exact Nat.lt_succ_of_lt ((List.pairwise_cons.mp hs').1 d hd)
    · rw [kept_same_iff, steady_same_iff hs hlt]
      refine exists_congr fun rest => and_congr_right fun hheld => ?_
      subst hheld
      exact ih hpos (List.pairwise_cons.mp hs).2 (fun d hd => hlt d (List.mem_cons_of_mem _ hd)) hd
    · obtain rfl : k = level := by omega
      rw [kept_next_iff, steady_next_iff hpos]
      refine ih (by omega) (List.pairwise_cons.mpr ⟨hlt, hs⟩) ?_ hd
      intro d hd
      rcases List.mem_cons.mp hd with rfl | hd
      · exact Nat.lt_succ_self _
      · exact Nat.lt_succ_of_lt (hlt d hd)

/-- From the first line on. -/
theorem kept_started_iff (hd : Descends 0 levels) :
    Kept 0 [] levels ↔ levels ≠ [] ∧ Straight (0 :: levels) := by
  cases levels with
  | nil =>
    constructor
    · rintro ⟨last, hw, hlast⟩
      cases hw
      cases hlast
    · rintro ⟨hne, -⟩
      exact absurd rfl hne
  | cons op_level levels =>
    obtain ⟨hpos, hle, hd⟩ := hd
    obtain rfl : op_level = 0 + 1 := by omega
    rw [kept_next_iff, kept_iff levels (by omega) (by simp) (by simp) hd]
    constructor
    · exact fun h => ⟨by simp, fun heq => by omega, h.straight⟩
    · rintro ⟨-, -, hstraight⟩
      refine ⟨by simp, ?_, hstraight⟩
      intro g hg hmem
      exact absurd (by simp; omega) hmem

theorem walk_depths {depth : Nat} {depths last : List Nat}
    (h : walk level depth held levels = some (depths, last)) :
    depths.length = levels.length ∧ ∀ d ∈ depths, 0 < d := by
  induction levels generalizing level depth held depths with
  | nil =>
    cases h
    exact ⟨rfl, by simp⟩
  | cons op_level levels ih =>
    rw [walk] at h
    simp only [Option.bind_eq_bind, Option.bind_eq_some_iff] at h
    obtain ⟨⟨d, held'⟩, -, ⟨depths', last'⟩, hw, heq⟩ := h
    cases heq
    obtain ⟨hlength, hpos⟩ := ih hw
    refine ⟨by rw [List.length_cons, List.length_cons, hlength], ?_⟩
    intro d' hd'
    rcases List.mem_cons.mp hd' with rfl | hd'
    · exact Nat.succ_pos d
    · exact hpos d' hd'

end ExecutionPlan

end RedisPy
