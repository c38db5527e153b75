import Mathlib.Data.List.Flatten
import Mathlib.Data.List.Infix
import Mathlib.Data.Nat.Find

/-!
# The occurrences of a list in another one, from left to right

An occurrence is the first one in what is left behind the one before, so no two of them overlap. The
parts between them determine the list; to replace every occurrence is to join these parts with
something else.

## Main definitions

* `FirstAfter w gap rest`: the first occurrence of `w` in `gap ++ w ++ rest` is the one after `gap`
* `Between w s gaps`: the parts of `s` between the occurrences of `w`

## Main results

* `exists_between`: a non-empty list has its parts
* `Between.intercalate_eq`: the list is the join of its parts
-/

namespace Replacing

variable {α : Type} {w s gap rest : List α} {gaps : List (List α)}

/-- The first occurrence of `w` in the list is the one after `gap`. -/
def FirstAfter (w gap rest : List α) : Prop :=
  ∀ before after, before ++ w ++ after = gap ++ w ++ rest → gap.length ≤ before.length

theorem firstAfter_nil (w rest : List α) : FirstAfter w [] rest :=
  fun _ _ _ => Nat.zero_le _

/-- What occurs has a first occurrence. -/
theorem exists_firstAfter (h : w <:+: s) : ∃ gap rest, s = gap ++ w ++ rest ∧ FirstAfter w gap rest := by
  classical
  obtain ⟨before, after, hs⟩ := h
  have hoccurs : ∃ n, ∃ before after : List α, before ++ w ++ after = s ∧ before.length = n :=
    ⟨_, before, after, hs, rfl⟩
  obtain ⟨gap, rest, hgap, hlength⟩ := Nat.find_spec hoccurs
  refine ⟨gap, rest, hgap.symm, fun before after heq => ?_⟩
  rw [hlength]
  exact Nat.find_min' hoccurs ⟨before, after, heq.trans hgap, rfl⟩

/-- **The parts between the occurrences**: each occurrence is the first one behind the one before,
and behind the last there is none. -/
inductive Between (w : List α) : List α → List (List α) → Prop
  | last {s : List α} (h : ¬ w <:+: s) : Between w s [s]
  | next {gap rest : List α} {gaps : List (List α)} (hfirst : FirstAfter w gap rest)
    (hrest : Between w rest gaps) : Between w (gap ++ w ++ rest) (gap :: gaps)

theorem Between.ne_nil (h : Between w s gaps) : gaps ≠ [] := by
  cases h <;> exact List.cons_ne_nil _ _

theorem Between.intercalate_eq (h : Between w s gaps) : w.intercalate gaps = s := by
  induction h with
  | last h => exact List.intercalate_singleton
  | @next gap rest gaps hfirst hrest ih =>
    obtain ⟨g, gs, rfl⟩ := List.exists_cons_of_ne_nil hrest.ne_nil
    rw [List.intercalate_cons_cons, ih]

/-- **A list that is not empty has its parts** in every list. -/
theorem exists_between (hw : w ≠ []) (s : List α) : ∃ gaps, Between w s gaps := by
  induction hn : s.length using Nat.strong_induction_on generalizing s with
  | _ n ih =>
    by_cases hoccurs : w <:+: s
    · obtain ⟨gap, rest, rfl, hfirst⟩ := exists_firstAfter hoccurs
      have hshorter : rest.length < n := by
        have hpos := List.length_pos_of_ne_nil hw
        rw [List.length_append, List.length_append] at hn
        omega
      obtain ⟨gaps, hgaps⟩ := ih rest.length hshorter rest rfl
      exact ⟨gap :: gaps, .next hfirst hgaps⟩
    · exact ⟨[s], .last hoccurs⟩

end Replacing
