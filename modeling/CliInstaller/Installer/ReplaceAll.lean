import CliInstaller.General.Replacing
import CliInstaller.Cpp.Runtime

/-!
# `replace_all` and `remove_all`

The loop searches the string it edits, from behind the last replacement on. An empty search text is
found there again in every round, so the loop does not end.

Source: `replace_all`, `remove_all` in `src/utils.hpp`.

## Main definitions

* `findFrom`: `find` from a position on
* `ReplaceState`, `replaceNext`, `replaceLoop`: the loop, with a bound on its rounds
* `replaceAll`, `removeAll`: the functions
* `ReplacesAll`: what they are meant to do

## Main results

* `replaceNext_of_firstAfter`, `replaceNext_of_not_infix`: one round
* `replaceLoop_of_between`: the loop
* `replacesAll_iff`: when every occurrence is replaced
-/

namespace CliInstaller

open Replacing

/-- `str.find(needle, pos)`: the first offset from `pos` on at which `needle` occurs. -/
def findFrom (needle str : Str) (pos : Nat) : Option Nat :=
  if pos ≤ str.length then (findStr needle (str.drop pos)).map (pos + ·) else none

/-- The variables of the loop. -/
structure ReplaceState where
  inout : Str
  pos : Nat
  count : Nat
  deriving DecidableEq, Repr

section Function

variable (what withText : Str)

/-- One round of the loop, if the search text is found. -/
def replaceNext (s : ReplaceState) : Option ReplaceState :=
  (findFrom what s.inout s.pos).map fun pos =>
    { inout := s.inout.take pos ++ withText ++ s.inout.drop (pos + what.length)
      pos := pos + withText.length
      count := s.count + 1 }

/-- The loop, with a bound on its rounds: `none` if it has not ended by then. -/
def replaceLoop : Nat → ReplaceState → Option ReplaceState
  | 0, _ => none
  | rounds + 1, s =>
    match replaceNext what withText s with
    | none => some s
    | some s => replaceLoop rounds s

/-- `replace_all`: the string that is left in `inout`, and the count that is returned. -/
def replaceAll (rounds : Nat) (inout what withText : Str) : Option (Str × Nat) :=
  (replaceLoop what withText rounds ⟨inout, 0, 0⟩).map fun s => (s.inout, s.count)

def removeAll (rounds : Nat) (inout what : Str) : Option (Str × Nat) :=
  replaceAll rounds inout what []

end Function

/-- **Every occurrence is replaced**: the call returns, the replacement stands in the place of each
occurrence, from left to right, and the count is their number; removing is replacing by nothing. -/
structure ReplacesAll (inout what withText : Str) : Prop where
  returns : ∃ rounds, (replaceAll rounds inout what withText).isSome = true
  replaced : ∀ rounds result count, replaceAll rounds inout what withText = some (result, count) →
    ∃ gaps, Between what inout gaps ∧ inout = what.intercalate gaps ∧
      result = withText.intercalate gaps ∧ count + 1 = gaps.length
  removed : ∀ rounds, removeAll rounds inout what = replaceAll rounds inout what []

/-! ## One round -/

/-- The variables when `done` has been searched, and `rest` has not. -/
def ReplaceState.at (done rest : Str) (count : Nat) : ReplaceState := ⟨done ++ rest, done.length, count⟩

section Round

variable {what withText done gap rest : Str} {count : Nat}

/-- The first occurrence is found. -/
theorem findStr_of_firstAfter (h : FirstAfter what gap rest) :
    findStr what (gap ++ what ++ rest) = some gap.length := by
  obtain ⟨pos, hle, hpos⟩ := exists_findStr_le gap what rest
  obtain ⟨after, hafter⟩ := findStr_spec hpos
  have hfirst : gap.length ≤ ((gap ++ what ++ rest).take pos).length := by
    apply h _ after
    rw [List.append_assoc, hafter, List.take_append_drop]
  rw [List.length_take] at hfirst
  have heq : pos = gap.length := by omega
  rw [hpos, heq]

theorem findStr_eq_none {str : Str} (h : ¬ what <:+: str) : findStr what str = none := by
  rw [← contains_iff, contains, Option.isSome_iff_ne_none] at h
  exact not_not.mp h

theorem findFrom_at : findFrom what (done ++ rest) done.length =
    (findStr what rest).map (done.length + ·) := by
  rw [findFrom, if_pos (by simp), List.drop_left]

/-- **A round replaces the first occurrence**, and goes on behind the replacement. -/
theorem replaceNext_of_firstAfter (h : FirstAfter what gap rest) :
    replaceNext what withText (.at done (gap ++ what ++ rest) count) =
      some (.at (done ++ gap ++ withText) rest (count + 1)) := by
  have htake : (done ++ (gap ++ what ++ rest)).take (done.length + gap.length) = done ++ gap := by
    rw [List.append_assoc, ← List.append_assoc, ← List.length_append, List.take_left]
  have hdrop : (done ++ (gap ++ what ++ rest)).drop (done.length + gap.length + what.length) =
      rest := by
    rw [← List.length_append, ← List.length_append, ← List.append_assoc, ← List.append_assoc,
      List.drop_left]
  rw [replaceNext, ReplaceState.at]
  simp only [findFrom_at, findStr_of_firstAfter h, Option.map_some, htake, hdrop]
  rw [ReplaceState.at, List.length_append, List.length_append]

theorem replaceNext_of_not_infix (h : ¬ what <:+: rest) :
    replaceNext what withText (.at done rest count) = none := by
  rw [replaceNext, ReplaceState.at]
  simp only [findFrom_at, findStr_eq_none h, Option.map_none]

end Round

/-! ## The loop -/

section Loop

variable {what withText done rest inout : Str} {gaps : List Str} {count rounds : Nat}

/-- **What the loop leaves**: it takes one round for each occurrence, and one in which there is none
any more. -/
theorem replaceLoop_of_between (h : Between what rest gaps) :
    (replaceLoop what withText rounds (.at done rest count)).map (fun s => (s.inout, s.count)) =
      if gaps.length ≤ rounds then
        some (done ++ withText.intercalate gaps, count + (gaps.length - 1))
      else none := by
  induction h generalizing rounds done count with
  | last hnone =>
    cases rounds with
    | zero => rfl
    | succ rounds =>
      rw [replaceLoop, replaceNext_of_not_infix hnone, List.intercalate_singleton]
      simp [ReplaceState.at]
  | @next gap rest gaps hfirst hrest ih =>
    obtain ⟨g, gs, rfl⟩ := List.exists_cons_of_ne_nil hrest.ne_nil
    cases rounds with
    | zero => rfl
    | succ rounds =>
      rw [replaceLoop, replaceNext_of_firstAfter hfirst]
      dsimp only
      rw [ih, List.intercalate_cons_cons]
      simp only [List.length_cons, Nat.add_le_add_iff_right, List.append_assoc,
        Nat.add_sub_cancel]
      rw [Nat.add_assoc, Nat.add_comm 1]

/-- **What is returned**, within a bound on the rounds. -/
theorem replaceAll_of_between (h : Between what inout gaps) :
    replaceAll rounds inout what withText =
      if gaps.length ≤ rounds then some (withText.intercalate gaps, gaps.length - 1) else none := by
  have hloop := @replaceLoop_of_between what withText [] inout gaps 0 rounds h
  rw [List.nil_append, Nat.zero_add] at hloop
  exact hloop

/-- Occurrences do not overlap, and a replacement is not searched. -/
example : replaceAll 2 ['a', 'a', 'a'] ['a', 'a'] ['a', 'a', 'b'] =
    some (['a', 'a', 'b', 'a'], 1) := rfl

/-- The empty text is found in every round. -/
theorem replaceLoop_nil : replaceLoop [] withText rounds (.at done rest count) = none := by
  induction rounds generalizing done count with
  | zero => rfl
  | succ rounds ih =>
    have hround : replaceNext [] withText (.at done rest count) =
        some (.at (done ++ [] ++ withText) rest (count + 1)) :=
      replaceNext_of_firstAfter (firstAfter_nil [] rest)
    rw [replaceLoop, hround]
    exact ih

/-- **Replacing the empty text does not end.** -/
theorem replaceAll_nil : replaceAll rounds inout [] withText = none := by
  have hloop : replaceLoop [] withText rounds ⟨inout, 0, 0⟩ = none :=
    @replaceLoop_nil withText [] inout 0 rounds
  rw [replaceAll, hloop, Option.map_none]

end Loop

/-- **Every occurrence is replaced iff the search text is not empty.** -/
theorem replacesAll_iff (inout what withText : Str) :
    ReplacesAll inout what withText ↔ what ≠ [] := by
  constructor
  · rintro ⟨⟨rounds, hreturns⟩, -, -⟩ rfl
    rw [replaceAll_nil] at hreturns
    cases hreturns
  · intro hwhat
    obtain ⟨gaps, hgaps⟩ := exists_between hwhat inout
    have hpos := List.length_pos_of_ne_nil hgaps.ne_nil
    refine ⟨⟨gaps.length, ?_⟩, ?_, fun rounds => rfl⟩
    · rw [replaceAll_of_between hgaps, if_pos le_rfl]
      rfl
    · intro rounds result count hresult
      rw [replaceAll_of_between hgaps] at hresult
      split_ifs at hresult
      obtain ⟨rfl, rfl⟩ := Prod.mk.inj (Option.some.inj hresult)
      exact ⟨gaps, hgaps, hgaps.intercalate_eq.symm, rfl, Nat.sub_add_cancel hpos⟩

/-- Replacing the empty text in "ab" does not end, nor does removing it. -/
theorem replaceAll_emptyText :
    (∀ rounds, replaceAll rounds ['a', 'b'] [] ['-'] = none) ∧
      (∀ rounds, removeAll rounds ['a', 'b'] [] = none) ∧
      ¬ ∀ inout what withText, ReplacesAll inout what withText := by
  refine ⟨fun rounds => replaceAll_nil, fun rounds => replaceAll_nil, fun h => ?_⟩
  obtain ⟨rounds, hreturns⟩ := (h ['a', 'b'] [] ['-']).returns
  rw [replaceAll_nil] at hreturns
  cases hreturns

end CliInstaller
