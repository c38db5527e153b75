import Mathlib.Data.List.Basic
import Mathlib.Data.List.Destutter
import Mathlib.Data.List.DropRight
import Mathlib.Data.List.Flatten
import Mathlib.Data.List.Palindrome

/-!
# Splitting a list at a separator, and joining it again

`List.splitOn` cuts a list at every occurrence of a separator. A splitting view produces the same
pieces, except that the empty list has none; a filtered view keeps the non-empty pieces only. The
laws below say how the pieces of a concatenation arise from those of its parts, and when joining
and splitting are inverse to each other.

## Main definitions

* `splitView d s`: the pieces of `s`, none for the empty list
* `pieces d s`: the non-empty pieces of `s`
* `Boundary d a b`: the cut between `a` and `b` falls beside a separator or before everything
* `collapsed d s`: `s` without separators at its ends, and with one for each run of them
* `words blank s`: the parts of `s` between blanks

## Main results

* `splitView_intercalate`, `splitOn_map_intercalate`, `splitOn_intercalate_eq_flatMap`: splitting
  undoes joining
* `pieces_append_of_boundary`, `length_pieces_append`: a cut at a boundary distributes over
  the pieces; any other cut breaks one piece in two
* `intercalate_pieces`: joining normalises splitting
* `infix_intercalate_iff`: what occurs in a join
* `flatten_map_reverse_eq_iff`: when reversing each part keeps the text they make
* `words_replicate`: the words of a line of columns
-/

namespace Splitting

variable {α : Type} [DecidableEq α] (d : α)

/-- The pieces of a splitting view: those of `List.splitOn`, but none for the empty list. -/
def splitView (s : List α) : List (List α) :=
  if s = [] then [] else s.splitOn d

/-- The non-empty pieces. -/
def pieces (s : List α) : List (List α) :=
  (s.splitOn d).filter fun p => p ≠ []

@[simp] theorem splitView_nil : splitView d ([] : List α) = [] := rfl

theorem splitView_of_ne_nil {s : List α} (hs : s ≠ []) : splitView d s = s.splitOn d :=
  if_neg hs

@[simp] theorem pieces_nil : pieces d ([] : List α) = [] := by simp [pieces]

theorem filter_splitView (s : List α) :
    ((splitView d s).filter fun p => p ≠ []) = pieces d s := by
  by_cases hs : s = []
  · subst hs; simp
  · rw [splitView_of_ne_nil d hs, pieces]

variable {d}

theorem splitOn_cons_self (s : List α) : (d :: s).splitOn d = [] :: s.splitOn d := by
  simpa using List.splitOn_append_cons_self (a := d) [] s

theorem splitOn_cons_of_ne {c : α} {s p : List α} {ps : List (List α)} (hc : c ≠ d)
    (hs : s.splitOn d = p :: ps) : (c :: s).splitOn d = (c :: p) :: ps := by
  rw [List.splitOn_cons_eq_if_modifyHead, if_neg (by simpa using hc), hs]
  rfl

/-- No piece contains the separator. -/
theorem not_mem_of_mem_splitOn {s p : List α} (hp : p ∈ s.splitOn d) : d ∉ p := by
  induction s generalizing p with
  | nil => simp_all
  | cons c s ih =>
    obtain ⟨q, qs, hq⟩ := List.exists_cons_of_ne_nil (List.splitOn_ne_nil d s)
    by_cases hc : c = d
    · subst hc
      rw [splitOn_cons_self] at hp
      rcases List.mem_cons.mp hp with rfl | hp
      · exact List.not_mem_nil
      · exact ih hp
    · rw [splitOn_cons_of_ne hc hq] at hp
      rw [hq] at ih
      rcases List.mem_cons.mp hp with rfl | hp
      · exact List.not_mem_cons_of_ne_of_not_mem (Ne.symm hc) (ih List.mem_cons_self)
      · exact ih (List.mem_cons_of_mem _ hp)

theorem mem_pieces {s p : List α} : p ∈ pieces d s ↔ p ∈ s.splitOn d ∧ p ≠ [] := by
  simp [pieces]

/-- **Pieces split at a separator.** -/
theorem pieces_append_cons (xs ys : List α) :
    pieces d (xs ++ d :: ys) = pieces d xs ++ pieces d ys := by
  rw [pieces, List.splitOn_append_cons_self, List.filter_append, pieces, pieces]

theorem pieces_cons_self (ys : List α) : pieces d (d :: ys) = pieces d ys := by
  simpa using pieces_append_cons [] ys

theorem pieces_concat_self (xs : List α) : pieces d (xs ++ [d]) = pieces d xs := by
  simpa using pieces_append_cons xs []

theorem pieces_of_not_mem {w : List α} (hw : w ≠ []) (hd : d ∉ w) : pieces d w = [w] := by
  rw [pieces, List.splitOn_eq_singleton hd]
  simp [hw]

omit [DecidableEq α] in
/-- A last empty piece ends the join with a separator. -/
theorem intercalate_concat_nil {ls : List (List α)} (hne : ls ≠ []) :
    [d].intercalate (ls ++ [[]]) = [d].intercalate ls ++ [d] := by
  induction ls with
  | nil => exact absurd rfl hne
  | cons l ls ih =>
    rcases ls with _ | ⟨l', ls⟩
    · simp
    · rw [List.intercalate_cons_cons, List.append_assoc, ← ih (List.cons_ne_nil _ _)]
      simp [List.intercalate_cons_cons]

/-- Only lists of separators have no non-empty piece. -/
theorem pieces_eq_nil {s : List α} : pieces d s = [] ↔ ∀ c ∈ s, c = d := by
  induction s with
  | nil => simp
  | cons c s ih =>
    by_cases hc : c = d
    · subst hc
      simp [pieces_cons_self, ih]
    · obtain ⟨q, qs, hq⟩ := List.exists_cons_of_ne_nil (List.splitOn_ne_nil d s)
      simp [pieces, splitOn_cons_of_ne hc hq, hc]

theorem pieces_intercalate {ls : List (List α)} (hls : ∀ l ∈ ls, d ∉ l) :
    pieces d ([d].intercalate ls) = ls.filter fun l => l ≠ [] := by
  by_cases hne : ls = []
  · subst hne; simp
  · rw [pieces, List.splitOn_intercalate d hls hne]

/-- The non-empty pieces of terminated lists are the non-empty lists. -/
theorem pieces_flatMap_concat {ls : List (List α)} (hls : ∀ l ∈ ls, d ∉ l) :
    pieces d (ls.flatMap (· ++ [d])) = ls.filter fun l => l ≠ [] := by
  induction ls with
  | nil => simp
  | cons l ls ih =>
    have hl := hls l List.mem_cons_self
    rw [List.flatMap_cons, List.append_assoc, List.singleton_append, pieces_append_cons,
      ih fun x hx => hls x (List.mem_cons_of_mem l hx)]
    by_cases hne : l = []
    · simp [hne]
    · simp [pieces_of_not_mem hne hl, hne]

/-- **Splitting undoes joining** for non-empty lists without the separator. -/
theorem splitView_intercalate {ls : List (List α)} (hls : ∀ l ∈ ls, l ≠ [] ∧ d ∉ l) :
    splitView d ([d].intercalate ls) = ls := by
  rcases ls with _ | ⟨l, ls⟩
  · simp
  · have hne : [d].intercalate (l :: ls) ≠ [] := by
      rcases ls with _ | ⟨m, ls⟩ <;> simp [(hls l List.mem_cons_self).1]
    rw [splitView_of_ne_nil d hne, List.splitOn_intercalate d (fun m hm => (hls m hm).2) (by simp)]

/-- Rewriting every piece without introducing a separator keeps the pieces apart. -/
theorem splitOn_map_intercalate {s : List α} {f : List α → List α}
    (hf : ∀ p ∈ s.splitOn d, d ∉ f p) :
    ([d].intercalate ((s.splitOn d).map f)).splitOn d = (s.splitOn d).map f :=
  List.splitOn_intercalate d (by simpa using hf) (by simp)

/-- Splitting a join splits the joined lists. -/
theorem splitOn_intercalate_eq_flatMap {ls : List (List α)} (hne : ls ≠ []) :
    ([d].intercalate ls).splitOn d = ls.flatMap (·.splitOn d) := by
  induction ls with
  | nil => exact absurd rfl hne
  | cons l ls ih =>
    rcases ls with _ | ⟨l', ls⟩
    · simp
    · rw [List.intercalate_cons_cons, List.append_assoc, List.singleton_append,
        List.splitOn_append_cons_self, ih (List.cons_ne_nil _ _)]
      rfl

/-- Each separator makes one more piece. -/
theorem length_splitOn (s : List α) : (s.splitOn d).length = s.count d + 1 := by
  induction s with
  | nil => rfl
  | cons c s ih =>
    by_cases hc : c = d
    · rw [hc, splitOn_cons_self, List.length_cons, ih, List.count_cons_self]
    · obtain ⟨piece, pieces, hs⟩ := List.exists_cons_of_ne_nil (List.splitOn_ne_nil d s)
      rw [splitOn_cons_of_ne hc hs, List.length_cons, List.count_cons_of_ne hc, ← ih, hs,
        List.length_cons]

theorem one_lt_length_splitOn {s : List α} (h : d ∈ s) : 1 < (s.splitOn d).length := by
  have hcount := List.count_pos_iff.mpr h
  rw [length_splitOn]
  omega

theorem length_le_length_flatMap_splitOn (ls : List (List α)) :
    ls.length ≤ (ls.flatMap (·.splitOn d)).length := by
  induction ls with
  | nil => simp
  | cons l ls ih =>
    have hl := List.length_pos_of_ne_nil (List.splitOn_ne_nil d l)
    rw [List.flatMap_cons, List.length_append, List.length_cons]
    omega

/-- A separator in one of the joined lists makes one piece more. -/
theorem length_lt_length_splitOn_intercalate {ls : List (List α)} {l : List α} (hl : l ∈ ls)
    (hd : d ∈ l) : ls.length < (([d].intercalate ls).splitOn d).length := by
  obtain ⟨before, after, rfl⟩ := List.append_of_mem hl
  have hone := one_lt_length_splitOn hd
  have hbefore := length_le_length_flatMap_splitOn (d := d) before
  have hafter := length_le_length_flatMap_splitOn (d := d) after
  rw [splitOn_intercalate_eq_flatMap (List.ne_nil_of_mem hl), List.flatMap_append,
    List.flatMap_cons]
  simp only [List.length_append, List.length_cons]
  omega

/-- A list ends with a separator iff it is split in more than one piece, and the last is empty. -/
theorem getLast?_eq_some_iff_splitOn {s : List α} :
    s.getLast? = some d ↔ 1 < (s.splitOn d).length ∧ (s.splitOn d).getLast? = some [] := by
  constructor
  · intro h
    obtain ⟨xs, rfl⟩ := List.getLast?_eq_some_iff.mp h
    refine ⟨one_lt_length_splitOn (by simp), ?_⟩
    rw [List.splitOn_append_cons_self, List.splitOn_nil, List.getLast?_concat]
  · rintro ⟨hlength, hlast⟩
    obtain ⟨front, hfront⟩ := List.getLast?_eq_some_iff.mp hlast
    have hne : front ≠ [] := by
      rintro rfl
      simp [hfront] at hlength
    have hjoin : [d].intercalate (s.splitOn d) = s := List.intercalate_splitOn d
    rw [hfront, intercalate_concat_nil hne] at hjoin
    rw [← hjoin, List.getLast?_concat]

omit [DecidableEq α] in
/-- A join starts with its first lists, each closed by a separator. -/
theorem intercalate_append_cons (pre : List (List α)) (h : List α) (post : List (List α)) :
    [d].intercalate (pre ++ h :: post) =
      pre.flatMap (· ++ [d]) ++ [d].intercalate (h :: post) := by
  induction pre with
  | nil => simp
  | cons p pre ih =>
    obtain ⟨q, qs, hq⟩ := List.exists_cons_of_ne_nil (show pre ++ h :: post ≠ [] by simp)
    rw [List.cons_append, hq, List.intercalate_cons_cons, ← hq, ih]
    simp

omit [DecidableEq α] in
/-- A join is its first list and the others, each after a separator. -/
theorem intercalate_cons_eq (h : List α) (post : List (List α)) :
    [d].intercalate (h :: post) = h ++ post.flatMap (d :: ·) := by
  induction post generalizing h with
  | nil => simp
  | cons p post ih =>
    rw [List.intercalate_cons_cons, ih]
    simp

omit [DecidableEq α] in
/-- What holds no separator lies on one side of each. -/
theorem infix_append_cons {w xs ys : List α} (hd : d ∉ w) (h : w <:+: xs ++ d :: ys) :
    w <:+: xs ∨ w <:+: ys := by
  obtain ⟨before, after, h⟩ := h
  rcases List.append_eq_append_iff.mp h with ⟨rest, rfl, -⟩ | ⟨rest, hfront, hrest⟩
  · exact .inl ⟨before, rest, rfl⟩
  rcases List.append_eq_append_iff.mp hfront with ⟨front, -, hw⟩ | ⟨front, -, hrest'⟩
  · rcases rest with _ | ⟨c, rest⟩
    · rw [List.append_nil] at hfront hw
      exact .inl ⟨before, [], by rw [List.append_nil, hfront]⟩
    · obtain ⟨rfl, -⟩ := List.cons.inj hrest
      exact absurd (by simp [hw]) hd
  · rcases front with _ | ⟨c, front⟩
    · rcases w with _ | ⟨c, w⟩
      · exact .inl (List.nil_infix)
      · rw [List.nil_append] at hrest'
        rw [hrest', List.cons_append] at hrest
        exact absurd ((List.cons.inj hrest).1 ▸ List.mem_cons_self) hd
    · rw [hrest', List.cons_append, List.cons_append] at hrest
      exact .inr ⟨front, after, (List.cons.inj hrest).2.symm⟩

omit [DecidableEq α] in
/-- **What holds no separator** occurs in a join iff it occurs in one of the lists. -/
theorem infix_intercalate_iff {w : List α} (hne : w ≠ []) (hd : d ∉ w) {ls : List (List α)} :
    w <:+: [d].intercalate ls ↔ ∃ l ∈ ls, w <:+: l := by
  induction ls with
  | nil => simpa using hne
  | cons l ls ih =>
    rw [List.exists_mem_cons_iff, ← ih]
    rcases ls with _ | ⟨l', ls⟩
    · simpa using fun h => absurd h hne
    · rw [List.intercalate_cons_cons, List.append_assoc, List.singleton_append]
      constructor
      · exact infix_append_cons hd
      · rintro (h | h)
        · exact List.infix_append_of_infix_left h
        · exact List.infix_append_of_infix_right (List.infix_cons h)

/-! ## Joining what was split -/

variable (d) in
/-- The list without the separators at its ends, and with one for each run of them inside. -/
def collapsed (s : List α) : List α :=
  ((s.dropWhile (· = d)).rdropWhile (· = d)).destutter fun a b => a ≠ d ∨ b ≠ d

omit [DecidableEq α] in
theorem rdropWhile_cons (p : α → Bool) (c : α) (s : List α) :
    (c :: s).rdropWhile p = if s.rdropWhile p = [] ∧ p c = true then [] else c :: s.rdropWhile p := by
  induction s using List.reverseRecOn with
  | nil => simp [List.rdropWhile_singleton]
  | append_singleton s c' ih =>
    rw [← List.cons_append, List.rdropWhile_concat, List.rdropWhile_concat]
    by_cases hc : p c' = true
    · rw [if_pos hc, if_pos hc, ih]
    · rw [if_neg hc, if_neg hc]
      simp

/-- What is dropped at the two ends does not depend on the order. -/
theorem dropWhile_rdropWhile (s : List α) :
    (s.rdropWhile (· = d)).dropWhile (· = d) = (s.dropWhile (· = d)).rdropWhile (· = d) := by
  induction s with
  | nil => simp
  | cons c s ih =>
    by_cases hc : c = d
    · rw [List.dropWhile_cons_of_pos (by simpa using hc), ← ih, rdropWhile_cons]
      split_ifs with hnil
      · simp [hnil.1]
      · exact List.dropWhile_cons_of_pos (by simpa using hc)
    · have hkeep : (c :: s).rdropWhile (· = d) = c :: s.rdropWhile (· = d) := by
        rw [rdropWhile_cons, if_neg (by simp [hc])]
      rw [List.dropWhile_cons_of_neg (by simpa using hc), hkeep,
        List.dropWhile_cons_of_neg (by simpa using hc)]

theorem destutter_cons_of_ne {c : α} (hc : c ≠ d) (s : List α) :
    (c :: s).destutter (fun a b => a ≠ d ∨ b ≠ d) =
      c :: s.destutter fun a b => a ≠ d ∨ b ≠ d := by
  rcases s with _ | ⟨b, s⟩
  · rfl
  · rw [List.destutter_cons_cons, if_pos (.inl hc), List.destutter_cons']

/-- A separator takes the place of its run. -/
theorem destutter_cons_self (s : List α) :
    (d :: s).destutter (fun a b => a ≠ d ∨ b ≠ d) =
      d :: (s.dropWhile (· = d)).destutter fun a b => a ≠ d ∨ b ≠ d := by
  induction s with
  | nil => rfl
  | cons c s ih =>
    by_cases hc : c = d
    · subst hc
      rw [List.dropWhile_cons_of_pos (by simp), ← ih, List.destutter_cons_cons, if_neg (by simp),
        List.destutter_cons']
    · rw [List.dropWhile_cons_of_neg (by simpa using hc)]
      rw [List.destutter_cons_cons, if_pos (.inr hc), List.destutter_cons']

theorem destutter_rdropWhile_cons_of_ne {c : α} (hc : c ≠ d) (s : List α) :
    ((c :: s).rdropWhile (· = d)).destutter (fun a b => a ≠ d ∨ b ≠ d) =
      c :: (s.rdropWhile (· = d)).destutter fun a b => a ≠ d ∨ b ≠ d := by
  rw [rdropWhile_cons, if_neg (by simp [hc]), destutter_cons_of_ne hc]

/-- A separator in front stays iff a piece follows. -/
theorem destutter_rdropWhile_cons_self (s : List α) :
    ((d :: s).rdropWhile (· = d)).destutter (fun a b => a ≠ d ∨ b ≠ d) =
      if pieces d s = [] then [] else d :: collapsed d s := by
  have hnone : s.rdropWhile (· = d) = [] ↔ pieces d s = [] := by
    rw [List.rdropWhile_eq_nil_iff, pieces_eq_nil]
    simp
  rw [rdropWhile_cons]
  by_cases hnil : pieces d s = []
  · rw [if_pos ⟨hnone.mpr hnil, by simp⟩, if_pos hnil, List.destutter_nil]
  · rw [if_neg fun h => hnil (hnone.mp h.1), if_neg hnil, destutter_cons_self, dropWhile_rdropWhile,
      collapsed]

/-- Joining the pieces, and joining them after what stands before the first separator. -/
theorem intercalate_pieces_aux (s : List α) :
    [d].intercalate (pieces d s) = collapsed d s ∧ ∀ p ps, s.splitOn d = p :: ps →
      [d].intercalate (p :: ps.filter fun p => p ≠ []) =
        (s.rdropWhile (· = d)).destutter fun a b => a ≠ d ∨ b ≠ d := by
  induction s with
  | nil =>
    refine ⟨rfl, fun p ps h => ?_⟩
    obtain ⟨rfl, rfl⟩ := List.cons.inj h
    rfl
  | cons c s ih =>
    obtain ⟨hpieces, hfront⟩ := ih
    obtain ⟨q, qs, hq⟩ := List.exists_cons_of_ne_nil (List.splitOn_ne_nil d s)
    by_cases hc : c = d
    · subst hc
      refine ⟨?_, fun p ps h => ?_⟩
      · rw [pieces_cons_self, hpieces, collapsed, collapsed, List.dropWhile_cons_of_pos (by simp)]
      · rw [splitOn_cons_self] at h
        obtain ⟨rfl, rfl⟩ := List.cons.inj h
        rw [destutter_rdropWhile_cons_self, ← hpieces]
        show [c].intercalate ([] :: pieces c s) = _
        rcases pieces c s with _ | ⟨l, ls⟩
        · rfl
        · rw [if_neg (List.cons_ne_nil _ _), List.intercalate_cons_cons]
          rfl
    · have hjoin : [d].intercalate ((c :: q) :: qs.filter fun p => p ≠ []) =
          ((c :: s).rdropWhile (· = d)).destutter fun a b => a ≠ d ∨ b ≠ d := by
        rw [destutter_rdropWhile_cons_of_ne hc, ← hfront q qs hq, intercalate_cons_eq,
          intercalate_cons_eq, List.cons_append]
      refine ⟨?_, fun p ps h => ?_⟩
      · rw [pieces, splitOn_cons_of_ne hc hq, List.filter_cons_of_pos (by simp), hjoin, collapsed,
          List.dropWhile_cons_of_neg (by simpa using hc)]
      · rw [splitOn_cons_of_ne hc hq] at h
        obtain ⟨rfl, rfl⟩ := List.cons.inj h
        exact hjoin

/-- **Joining normalises splitting**: the separators at the ends are gone, and one is left of each
run. -/
theorem intercalate_pieces (s : List α) : [d].intercalate (pieces d s) = collapsed d s :=
  (intercalate_pieces_aux s).1

/-- Parts that are each reversed make the same text as before iff each reads the same backwards. -/
theorem flatten_map_reverse_eq_iff {β : Type} {ls : List (List β)} :
    (ls.map List.reverse).flatten = ls.flatten ↔ ∀ l ∈ ls, l.Palindrome := by
  induction ls with
  | nil => simp
  | cons l ls ih =>
    rw [List.map_cons, List.flatten_cons, List.flatten_cons, List.forall_mem_cons, ← ih,
      List.Palindrome.iff_reverse_eq]
    constructor
    -- A part and its reverse have one length, so the texts agree part by part.
    · intro h
      exact List.append_inj h List.length_reverse
    · rintro ⟨hl, hls⟩
      rw [hl, hls]

/-- A piece is part of the list. -/
theorem infix_of_mem_pieces {s p : List α} (hp : p ∈ pieces d s) : p <:+: s := by
  obtain ⟨before, after, h⟩ := List.mem_iff_append.mp (mem_pieces.mp hp).1
  have hjoin : [d].intercalate (s.splitOn d) = s := List.intercalate_splitOn d
  rw [← hjoin, h, intercalate_append_cons]
  refine List.IsInfix.trans ?_ (List.suffix_append _ _).isInfix
  cases after with
  | nil => simp
  | cons q qs =>
    rw [List.intercalate_cons_cons, List.append_assoc]
    exact (List.prefix_append _ _).isInfix

/-! ## Cutting a list in two -/

variable (d) in
/-- The cut between `a` and `b` falls beside a separator, or before everything. -/
def Boundary (a b : List α) : Prop :=
  a = [] ∨ a.getLast? = some d ∨ b.head? = some d

instance (a b : List α) : Decidable (Boundary d a b) := by
  unfold Boundary; infer_instance

omit [DecidableEq α] in
theorem Boundary.cases {a b : List α} (h : Boundary d a b) :
    a = [] ∨ (∃ a', a = a' ++ [d]) ∨ ∃ b', b = d :: b' := by
  rcases h with h | h | h
  · exact .inl h
  · exact .inr (.inl (List.getLast?_eq_some_iff.mp h))
  · exact .inr (.inr (List.head?_eq_some_iff.mp h))

theorem pieces_append_of_boundary {a b : List α} (h : Boundary d a b) :
    pieces d (a ++ b) = pieces d a ++ pieces d b := by
  rcases h.cases with rfl | ⟨a', rfl⟩ | ⟨b', rfl⟩
  · simp
  · rw [pieces_concat_self, List.append_assoc, List.singleton_append, pieces_append_cons]
  · rw [pieces_append_cons, pieces_cons_self]

/-- At a boundary every piece survives, in order, whatever is inserted between the halves. -/
theorem splitOn_append_sublist {a b : List α} (h : Boundary d a b) (m : List (List α)) :
    ((a ++ b).splitOn d).Sublist (a.splitOn d ++ m ++ b.splitOn d) := by
  rcases h.cases with rfl | ⟨a', rfl⟩ | ⟨b', rfl⟩
  · exact List.sublist_append_right _ _
  · rw [List.append_assoc a', List.singleton_append, List.splitOn_append_cons_self,
      List.splitOn_append_cons_self]
    refine List.Sublist.append ?_ (List.Sublist.refl _)
    rw [List.append_assoc]
    exact List.sublist_append_left _ _
  · rw [List.splitOn_append_cons_self, List.append_assoc]
    refine List.Sublist.append (List.Sublist.refl _) ?_
    rw [splitOn_cons_self]
    exact (List.sublist_cons_self _ _).trans (List.sublist_append_right m _)

/-- A cut merges the last piece of the left half with the first piece of the right half. -/
theorem splitOn_append (a b : List α) :
    ∃ xs x y ys, a.splitOn d = xs ++ [x] ∧ b.splitOn d = y :: ys ∧
      (a ++ b).splitOn d = xs ++ (x ++ y) :: ys := by
  induction a with
  | nil =>
    obtain ⟨y, ys, hy⟩ := List.exists_cons_of_ne_nil (List.splitOn_ne_nil d b)
    exact ⟨[], [], y, ys, by simp, hy, by simpa using hy⟩
  | cons c a ih =>
    obtain ⟨xs, x, y, ys, hx, hy, hxy⟩ := ih
    rw [List.cons_append]
    by_cases hc : c = d
    · subst hc
      exact ⟨[] :: xs, x, y, ys, by rw [splitOn_cons_self, hx, List.cons_append], hy,
        by rw [splitOn_cons_self, hxy, List.cons_append]⟩
    · rcases xs with _ | ⟨p, xs⟩
      · exact ⟨[], c :: x, y, ys, splitOn_cons_of_ne hc hx, hy, splitOn_cons_of_ne hc hxy⟩
      · exact ⟨(c :: p) :: xs, x, y, ys, splitOn_cons_of_ne hc hx, hy, splitOn_cons_of_ne hc hxy⟩

/-- A cut elsewhere breaks one non-empty piece into two non-empty ones. -/
theorem length_pieces_append {a b : List α} (h : ¬ Boundary d a b) (hb : b ≠ []) :
    (pieces d a).length + (pieces d b).length = (pieces d (a ++ b)).length + 1 := by
  obtain ⟨xs, x, y, ys, hx, hy, hxy⟩ := splitOn_append (d := d) a b
  have hx0 : x ≠ [] := by
    rintro rfl
    have ha : a = xs.flatMap (· ++ [d]) := by
      have hjoin : [d].intercalate (a.splitOn d) = a := List.intercalate_splitOn d
      rw [hx, intercalate_append_cons] at hjoin
      simpa using hjoin.symm
    rcases List.eq_nil_or_concat xs with rfl | ⟨xs', z, rfl⟩
    · exact h (.inl (by simpa using ha))
    · exact h (.inr (.inl (by simp [ha])))
  have hy0 : y ≠ [] := by
    rintro rfl
    have hb' : [d].intercalate (b.splitOn d) = b := List.intercalate_splitOn d
    rw [hy] at hb'
    rcases ys with _ | ⟨z, ys⟩
    · exact hb (by simpa using hb'.symm)
    · refine h (.inr (.inr ?_))
      rw [← hb', List.intercalate_cons_cons]
      simp
  rw [pieces, pieces, pieces, hx, hy, hxy]
  simp [hx0, hy0]
  omega

/-! ## Words between blanks -/

section Words

variable {β : Type} {blank : β → Bool} {sep : β} {word rest : List β}

/-- The words of a list: its parts between blanks. -/
def words (blank : β → Bool) (s : List β) : List (List β) :=
  (s.splitOnP blank).filter fun word => !word.isEmpty

@[simp] theorem words_nil : words blank [] = [] := rfl

/-- **Words at a blank.** -/
theorem words_append_cons (hsep : blank sep = true) (xs ys : List β) :
    words blank (xs ++ sep :: ys) = words blank xs ++ words blank ys := by
  rw [words, List.splitOnP_append_cons xs ys hsep, List.filter_append]
  rfl

theorem words_cons (hsep : blank sep = true) (ys : List β) :
    words blank (sep :: ys) = words blank ys :=
  words_append_cons hsep [] ys

theorem words_of_forall (hword : ∀ c ∈ word, blank c = false) :
    words blank word = [word].filter fun word => !word.isEmpty := by
  rw [words, List.splitOnP_eq_singleton hword]

/-- A word is a part of the list, it is not empty, and it has no blank. -/
theorem mem_words {s : List β} (h : word ∈ words blank s) :
    word ≠ [] ∧ (∀ c ∈ word, blank c = false) ∧ word <:+: s := by
  induction hlength : s.length using Nat.strongRecOn generalizing s with
  | _ length ih =>
  by_cases hblank : ∃ sep ∈ s, blank sep = true
  · obtain ⟨sep, hmem, hsep⟩ := hblank
    obtain ⟨xs, ys, rfl⟩ := List.append_of_mem hmem
    rw [List.length_append, List.length_cons] at hlength
    rw [words_append_cons hsep] at h
    rcases List.mem_append.mp h with h | h
    · obtain ⟨hne, hword, hpart⟩ := ih xs.length (by omega) h rfl
      exact ⟨hne, hword, hpart.trans (List.prefix_append _ _).isInfix⟩
    · obtain ⟨hne, hword, hpart⟩ := ih ys.length (by omega) h rfl
      exact ⟨hne, hword, (hpart.trans (List.suffix_cons sep ys).isInfix).trans
        (List.suffix_append _ _).isInfix⟩
  · push Not at hblank
    have hword : ∀ c ∈ s, blank c = false := fun c hc => Bool.eq_false_iff.mpr (hblank c hc)
    rw [words_of_forall hword] at h
    obtain ⟨hmem, hne⟩ := List.mem_filter.mp h
    obtain rfl := List.mem_singleton.mp hmem
    exact ⟨by simpa using hne, hword, List.infix_rfl⟩

/-- A list is its only word. -/
theorem words_eq_singleton_iff {s : List β} :
    words blank s = [s] ↔ s ≠ [] ∧ ∀ c ∈ s, blank c = false := by
  constructor
  · intro h
    obtain ⟨hne, hword, -⟩ := mem_words (h ▸ List.mem_singleton_self s)
    exact ⟨hne, hword⟩
  · rintro ⟨hne, hword⟩
    rw [words_of_forall hword]
    simp [hne]

/-- A column that is filled up with blanks. -/
theorem words_replicate (hsep : blank sep = true) (n : Nat) (hword : ∀ c ∈ word, blank c = false) :
    words blank (word ++ List.replicate n sep ++ sep :: rest) =
      ([word].filter fun word => !word.isEmpty) ++ words blank rest := by
  induction n with
  | zero => rw [List.replicate_zero, List.append_nil, words_append_cons hsep, words_of_forall hword]
  | succ n ih =>
    have hone : word ++ List.replicate (n + 1) sep ++ sep :: rest =
        (word ++ List.replicate n sep) ++ sep :: (sep :: rest) := by
      rw [List.replicate_succ', ← List.append_assoc, List.append_assoc, List.singleton_append]
    rw [hone, words_append_cons hsep, words_cons hsep, ← words_append_cons hsep, ih]

/-- A word that no blank separates from the one before it becomes part of that one. -/
theorem words_append_word {s : List β} (hne : s ≠ []) (hlast : ∀ c ∈ s.getLast?, blank c = false)
    (hword : ∀ c ∈ word, blank c = false) :
    ∃ before last, words blank s = before ++ [last] ∧
      words blank (s ++ word) = before ++ [last ++ word] := by
  rcases hfind : s.reverse.find? blank with _ | sep
  · have hs : ∀ c ∈ s, blank c = false := fun c hc =>
      Bool.eq_false_iff.mpr (List.find?_eq_none.mp hfind c (List.mem_reverse.mpr hc))
    refine ⟨[], s, words_eq_singleton_iff.mpr ⟨hne, hs⟩, words_eq_singleton_iff.mpr ⟨?_, ?_⟩⟩
    · exact List.append_ne_nil_of_left_ne_nil hne _
    · exact fun c hc => (List.mem_append.mp hc).elim (hs c) (hword c)
  · obtain ⟨hsep, after, before, hsplit, hafter⟩ := List.find?_eq_some_iff_append.mp hfind
    obtain rfl : s = before.reverse ++ sep :: after.reverse := by
      rw [← List.reverse_reverse s, hsplit]
      simp
    have hlastWord : after.reverse ≠ [] := by
      intro hnil
      have hblank := hlast sep (by rw [hnil, List.getLast?_concat]; exact rfl)
      exact Bool.false_ne_true (hblank.symm.trans hsep)
    have hs : ∀ c ∈ after.reverse, blank c = false := fun c hc => by
      simpa using hafter c (List.mem_reverse.mp hc)
    refine ⟨words blank before.reverse, after.reverse, ?_, ?_⟩
    · rw [words_append_cons hsep, words_eq_singleton_iff.mpr ⟨hlastWord, hs⟩]
    · rw [List.append_assoc, List.cons_append, words_append_cons hsep]
      refine congrArg (words blank before.reverse ++ ·) (words_eq_singleton_iff.mpr ⟨?_, ?_⟩)
      · exact List.append_ne_nil_of_left_ne_nil hlastWord _
      · exact fun c hc => (List.mem_append.mp hc).elim (hs c) (hword c)

end Words

end Splitting
