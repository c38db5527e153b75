import Mathlib.Data.List.Sort
import Mathlib.Data.List.Destutter
import Mathlib.Order.OrderDual

/-!
# Sorting up to ties, and removing adjacent duplicates

A library sort promises a permutation ordered by a key, and nothing about elements with equal
keys. A `Sorter` is any function that keeps this promise, so a statement about every sorter is a
statement about every result the sort may return. `uniqueBy` keeps the first element of each run
of equal keys.

## Main definitions

* `Sorter α`: a sorting function on lists over `α`
* `Sorter.byKey`, `Sorter.byKeyDesc`: sorting by a key, upwards and downwards
* `Sorter.stable`, `Sorter.returning`: the stable sorter, and one with a prescribed result
* `uniqueBy key l`: the first elements of the runs of equal keys

## Main results

* `Sorter.returning_byKey`: every ordered permutation is what some sorter returns
* `Sorter.find?_stable_byKey`: the stable sorter keeps the first element of a key first
* `uniqueBy_append_run`: a run of one key at the end of a list is merged into one element
* `map_uniqueBy_eq`: the keys kept of an ordered list
* `nodup_map_uniqueBy`: no key is kept twice where nothing comes between its elements
* `sublist_map_uniqueBy`: every sequence of keys without immediate repetition is kept
-/

namespace Sorting

variable {α κ : Type}

/-- A sorting function: a permutation, ordered whenever the comparison is a total preorder. -/
structure Sorter (α : Type) where
  sort : (α → α → Bool) → List α → List α
  perm : ∀ le l, (sort le l).Perm l
  ordered : ∀ le l, (∀ a b, le a b ∨ le b a) → (∀ a b c, le a b → le b c → le a c) →
    (sort le l).Pairwise fun a b => le a b

namespace Sorter

section Keys

variable [LinearOrder κ] (S : Sorter α) (key : α → κ)

/-- Sort by increasing key. -/
def byKey (l : List α) : List α :=
  S.sort (fun a b => decide (key a ≤ key b)) l

/-- Sort by decreasing key. -/
def byKeyDesc (l : List α) : List α :=
  S.byKey (fun a => OrderDual.toDual (key a)) l

theorem byKey_perm (l : List α) : (S.byKey key l).Perm l := S.perm _ l

theorem byKeyDesc_perm (l : List α) : (S.byKeyDesc key l).Perm l := S.perm _ l

@[simp] theorem mem_byKey {l : List α} {a : α} : a ∈ S.byKey key l ↔ a ∈ l :=
  (S.byKey_perm key l).mem_iff

theorem byKey_ordered (l : List α) : (S.byKey key l).Pairwise fun a b => key a ≤ key b := by
  have h := S.ordered (fun a b => decide (key a ≤ key b)) l
    (fun a b => by simpa using le_total (key a) (key b))
    (fun a b c => by simpa using fun hab hbc => le_trans hab hbc)
  simpa [byKey] using h

theorem byKeyDesc_ordered (l : List α) :
    (S.byKeyDesc key l).Pairwise fun a b => key b ≤ key a :=
  S.byKey_ordered (fun a => OrderDual.toDual (key a)) l

end Keys

/-- The stable sorter. -/
def stable : Sorter α where
  sort le l := l.insertionSort fun a b => le a b
  perm le l := List.perm_insertionSort _ l
  ordered le l htotal htrans := by
    have : Std.Total fun a b : α => (le a b : Prop) := ⟨htotal⟩
    have : IsTrans α fun a b : α => (le a b : Prop) := ⟨htrans⟩
    exact List.pairwise_insertionSort _ l

/-- A sorter that returns `t` wherever `t` is a correct result. -/
def returning [DecidableEq α] (t : List α) : Sorter α where
  sort le l :=
    if t.Perm l ∧ t.Pairwise fun a b => le a b then t else stable.sort le l
  perm le l := by
    split_ifs with h
    · exact h.1
    · exact stable.perm le l
  ordered le l htotal htrans := by
    split_ifs with h
    · exact h.2
    · exact stable.ordered le l htotal htrans

section Returning

variable [LinearOrder κ] {key : α → κ}

/-- **Every ordered permutation is a possible result.** -/
theorem returning_byKey [DecidableEq α] {t l : List α} (hp : t.Perm l)
    (ho : t.Pairwise fun a b => key a ≤ key b) : (returning t).byKey key l = t :=
  if_pos ⟨hp, by simpa using ho⟩

theorem returning_byKeyDesc [DecidableEq α] {t l : List α} (hp : t.Perm l)
    (ho : t.Pairwise fun a b => key b ≤ key a) : (returning t).byKeyDesc key l = t :=
  @returning_byKey α κᵒᵈ _ (fun a => OrderDual.toDual (key a)) _ t l hp ho

/-- The stable sorter keeps every ordered sublist in place. -/
theorem sublist_stable_byKey {c l : List α} (hc : c.Sublist l)
    (ho : c.Pairwise fun a b => key a ≤ key b) : c.Sublist (stable.byKey key l) :=
  List.sublist_insertionSort (by simpa using ho) hc

theorem sublist_stable_byKeyDesc {c l : List α} (hc : c.Sublist l)
    (ho : c.Pairwise fun a b => key b ≤ key a) : c.Sublist (stable.byKeyDesc key l) :=
  @sublist_stable_byKey α κᵒᵈ _ (fun a => OrderDual.toDual (key a)) c l hc ho

/-- The stable sorter keeps the elements of one key in their order. -/
theorem filter_stable_byKey (l : List α) (k : κ) :
    ((stable.byKey key l).filter fun a => key a = k) = l.filter fun a => key a = k := by
  -- The elements of one key are ordered, so sorting keeps them in place; and it adds none.
  have hsub : (l.filter fun a => key a = k).Sublist (stable.byKey key l) := by
    refine sublist_stable_byKey List.filter_sublist ?_
    apply List.pairwise_of_forall_mem_list
    intro a ha b hb
    simp only [List.mem_filter, decide_eq_true_eq] at ha hb
    rw [ha.2, hb.2]
  refine (List.Sublist.eq_of_length ?_ ?_).symm
  · simpa using hsub.filter fun a => decide (key a = k)
  · exact ((stable.byKey_perm key l).filter _).length_eq.symm

/-- The first element of a key stays first under the stable sorter. -/
theorem find?_stable_byKey (l : List α) (k : κ) :
    ((stable.byKey key l).find? fun a => key a = k) = l.find? fun a => key a = k := by
  rw [← List.head?_filter, filter_stable_byKey, List.head?_filter]

end Returning

end Sorter

/-! ## Adjacent duplicates -/

section Unique

variable [DecidableEq κ] {key : α → κ}

/-- The first element of every run of equal keys. -/
def uniqueBy (key : α → κ) (l : List α) : List α :=
  l.destutter fun a b => key a ≠ key b

@[simp] theorem uniqueBy_singleton (a : α) : uniqueBy key [a] = [a] := rfl

theorem uniqueBy_cons_of_ne {a b : α} (h : key a ≠ key b) (l : List α) :
    uniqueBy key (a :: b :: l) = a :: uniqueBy key (b :: l) :=
  List.destutter'_cons_pos l (R := fun a b => key a ≠ key b) h

theorem uniqueBy_cons_of_eq {a b : α} (h : key a = key b) (l : List α) :
    uniqueBy key (a :: b :: l) = uniqueBy key (a :: l) :=
  List.destutter'_cons_neg l (R := fun a b => key a ≠ key b) (not_not.mpr h)

theorem uniqueBy_sublist (l : List α) : (uniqueBy key l).Sublist l :=
  List.destutter_sublist _ l

theorem mem_of_mem_uniqueBy {l : List α} {a : α} (h : a ∈ uniqueBy key l) : a ∈ l :=
  (uniqueBy_sublist l).subset h

/-- A run of one key is reduced to its first element. -/
theorem uniqueBy_of_forall_eq {a : α} {l : List α} (h : ∀ b ∈ l, key a = key b) :
    uniqueBy key (a :: l) = [a] := by
  induction l with
  | nil => rfl
  | cons b l ih =>
    rw [uniqueBy_cons_of_eq (h b List.mem_cons_self)]
    exact ih fun c hc => h c (List.mem_cons_of_mem _ hc)

/-- Distinct keys are all kept. -/
theorem uniqueBy_of_nodup {l : List α} (h : (l.map key).Nodup) : uniqueBy key l = l :=
  List.destutter_of_isChain _ l (List.pairwise_map.mp h).isChain

omit [DecidableEq κ] in
/-- A list in which nothing outside `P` follows something inside it. -/
theorem eq_filter_append_filter {P : α → Bool} {l : List α}
    (h : l.Pairwise fun a b => P a = true → P b = true) :
    l = (l.filter fun a => !P a) ++ l.filter P := by
  induction l with
  | nil => rfl
  | cons a l ih =>
    rw [List.pairwise_cons] at h
    by_cases ha : P a = true
    · have hall : ∀ b ∈ l, P b = true := fun b hb => h.1 b hb ha
      rw [List.filter_eq_nil_iff.mpr (by simpa [ha] using hall), List.nil_append,
        List.filter_eq_self.mpr (by simpa [ha] using hall)]
    · rw [List.filter_cons_of_pos (by simpa using ha), List.filter_cons_of_neg ha,
        List.cons_append, ← ih h.2]

/-- Distinct keys followed by a run of a further key: only the run shrinks. -/
theorem uniqueBy_append_run {as : List α} {b : α} {bs : List α} (hb : ∀ c ∈ bs, key b = key c)
    (has : (as.map key).Nodup) (hab : ∀ a ∈ as, key a ≠ key b) :
    uniqueBy key (as ++ b :: bs) = as ++ [b] := by
  induction as with
  | nil => exact uniqueBy_of_forall_eq hb
  | cons a as ih =>
    rw [List.map_cons, List.nodup_cons] at has
    have ih := ih has.2 fun c hc => hab c (List.mem_cons_of_mem _ hc)
    rcases as with _ | ⟨c, as⟩
    · rw [List.singleton_append, uniqueBy_cons_of_ne (hab a List.mem_cons_self),
        uniqueBy_of_forall_eq hb]
      rfl
    · have hac : key a ≠ key c := fun h => has.1 (by simp [h])
      rw [List.cons_append, List.cons_append, uniqueBy_cons_of_ne hac, ← List.cons_append, ih]
      rfl

/-- The first element of a key is kept. -/
theorem mem_uniqueBy_of_find? {l : List α} {k : κ} {a : α}
    (h : (l.find? fun b => key b = k) = some a) : a ∈ uniqueBy key l := by
  rcases l with _ | ⟨b, l⟩
  · simp at h
  induction l generalizing b with
  | nil =>
    rw [List.find?_singleton] at h
    split_ifs at h
    simp_all
  | cons c l ih =>
    by_cases hbc : key b = key c
    · rw [uniqueBy_cons_of_eq hbc]
      refine ih b ?_
      by_cases hb : key b = k <;> simp_all [List.find?_cons]
    · rw [uniqueBy_cons_of_ne hbc]
      by_cases hb : key b = k
      · simp_all [List.find?_cons]
      · rw [List.find?_cons_of_neg (by simpa using hb)] at h
        exact List.mem_cons_of_mem _ (ih c h)

/-- Every key is kept at least once. -/
theorem exists_mem_uniqueBy {l : List α} {a : α} (ha : a ∈ l) :
    ∃ b ∈ uniqueBy key l, key b = key a := by
  obtain ⟨b, hb⟩ := Option.isSome_iff_exists.mp
    (List.find?_isSome.mpr ⟨a, ha, decide_eq_true rfl⟩ :
      (l.find? fun b => key b = key a).isSome)
  exact ⟨b, mem_uniqueBy_of_find? hb, by simpa using List.find?_some hb⟩

/-- The first elements of the runs of an ordered list are strictly ordered. -/
theorem uniqueBy_ordered [LinearOrder κ] {key : α → κ} {l : List α}
    (h : l.Pairwise fun a b => key a ≤ key b) :
    (uniqueBy key l).Pairwise fun a b => key a < key b := by
  have hlt : (uniqueBy key l).IsChain fun a b => key a < key b := by
    rw [List.isChain_iff_getElem]
    intro i hi
    have hne := List.isChain_iff_getElem.mp (List.isChain_destutter (fun a b => key a ≠ key b) l) i hi
    have hle := List.isChain_iff_getElem.mp (h.sublist (uniqueBy_sublist l)).isChain i hi
    exact lt_of_le_of_ne hle hne
  have : IsTrans α fun a b => key a < key b := ⟨fun _ _ _ => lt_trans⟩
  exact hlt.pairwise

theorem mem_map_uniqueBy {l : List α} {k : κ} :
    k ∈ (uniqueBy key l).map key ↔ k ∈ l.map key := by
  simp only [List.mem_map]
  constructor
  · rintro ⟨a, ha, rfl⟩
    exact ⟨a, mem_of_mem_uniqueBy ha, rfl⟩
  · rintro ⟨a, ha, rfl⟩
    exact exists_mem_uniqueBy ha

/-- **The keys kept of an ordered list** are determined by the keys that occur in it. -/
theorem map_uniqueBy_eq [LinearOrder κ] {key : α → κ} {l l' : List α}
    (h : l.Pairwise fun a b => key a ≤ key b) (h' : l'.Pairwise fun a b => key a ≤ key b)
    (hkeys : ∀ k, k ∈ l.map key ↔ k ∈ l'.map key) :
    (uniqueBy key l).map key = (uniqueBy key l').map key :=
  (List.pairwise_map.mpr (uniqueBy_ordered h)).eq_of_mem_iff
    (List.pairwise_map.mpr (uniqueBy_ordered h'))
    fun k => by rw [mem_map_uniqueBy, mem_map_uniqueBy, hkeys k]

/-- The keys of the kept elements, from the list of keys. -/
theorem map_uniqueBy (l : List α) :
    (uniqueBy key l).map key = (l.map key).destutter (· ≠ ·) :=
  List.map_destutter fun _ _ _ _ => Iff.rfl

/-- Where nothing comes between two elements of one key, no key is kept twice. -/
theorem nodup_map_uniqueBy {l : List α}
    (h : ∀ a b c, [a, b, c].Sublist l → key a = key c → key b = key a) :
    ((uniqueBy key l).map key).Nodup := by
  rcases l with _ | ⟨a, l⟩
  · exact List.nodup_nil
  induction l generalizing a with
  | nil => exact List.nodup_singleton _
  | cons b l ih =>
    by_cases hab : key a = key b
    · rw [uniqueBy_cons_of_eq hab]
      exact ih a fun x y z hsub => h x y z (hsub.trans ((List.sublist_cons_self b l).cons_cons a))
    · rw [uniqueBy_cons_of_ne hab, List.map_cons, List.nodup_cons]
      refine ⟨fun hmem => ?_, ih b fun x y z hsub => h x y z (hsub.cons a)⟩
      obtain ⟨c, hc, hkey⟩ := List.mem_map.mp (mem_map_uniqueBy.mp hmem)
      rcases List.mem_cons.mp hc with rfl | hc
      · exact hab hkey.symm
      · have hsub : [a, b, c].Sublist (a :: b :: l) :=
          ((List.singleton_sublist.mpr hc).cons_cons b).cons_cons a
        exact hab (h a b c hsub hkey.symm).symm

end Unique

/-- Lists with the same keys are related entry by entry. -/
theorem forall₂_of_map_eq {β κ : Type} {key : α → κ} {key' : β → κ} {R : α → β → Prop}
    {l : List α} {l' : List β} (h : l.map key = l'.map key')
    (hR : ∀ a ∈ l, ∀ b ∈ l', key a = key' b → R a b) : List.Forall₂ R l l' := by
  induction l generalizing l' with
  | nil =>
    rw [List.map_nil, eq_comm, List.map_eq_nil_iff] at h
    exact h ▸ .nil
  | cons a l ih =>
    obtain ⟨b, l', rfl, hb, hl⟩ := List.map_eq_cons_iff.mp h.symm
    refine .cons (hR a List.mem_cons_self b List.mem_cons_self hb.symm) (ih hl.symm ?_)
    exact fun c hc d hd => hR c (List.mem_cons_of_mem _ hc) d (List.mem_cons_of_mem _ hd)

/-- A sequence without immediate repetition survives the removal of adjacent duplicates. -/
theorem sublist_destutter_ne [DecidableEq κ] {c l : List κ} (hc : c.IsChain (· ≠ ·))
    (hsub : c.Sublist l) : c.Sublist (l.destutter (· ≠ ·)) := by
  rcases l with _ | ⟨a, l⟩
  · simpa using hsub
  rw [List.destutter_cons']
  induction l generalizing a c with
  | nil => simpa using hsub
  | cons b l ih =>
    by_cases hab : a ≠ b
    · rw [List.destutter'_cons_pos _ hab]
      rcases List.sublist_cons_iff.mp hsub with h | ⟨r, rfl, h⟩
      · exact (ih hc b h).cons a
      · exact (ih hc.of_cons b h).cons_cons a
    · rw [List.destutter'_cons_neg _ hab]
      obtain rfl : a = b := not_not.mp hab
      refine ih hc a ?_
      -- A chain uses at most one of the two equal heads.
      rcases List.sublist_cons_iff.mp hsub with h | ⟨r, rfl, h⟩
      · exact h
      · rcases List.sublist_cons_iff.mp h with h | ⟨r', rfl, h⟩
        · exact h.cons_cons a
        · exact absurd rfl (List.isChain_cons_cons.mp hc).1

/-- **Keys that never repeat immediately are all kept**, wherever they stand. -/
theorem sublist_map_uniqueBy [DecidableEq κ] {key : α → κ} {l : List α} {c : List κ}
    (hc : c.IsChain (· ≠ ·)) (hsub : c.Sublist (l.map key)) :
    c.Sublist ((uniqueBy key l).map key) := by
  rw [map_uniqueBy]
  exact sublist_destutter_ne hc hsub

end Sorting
