import Mathlib.Data.List.Perm.Basic
import Mathlib.Data.List.Pairwise
import Mathlib.Order.Lattice

/-!
# Removing nested entries from a table

A table lists entries, some of which lie strictly below others. An entry may be removed only when
nothing in the table lies strictly below it. Removing a family of entries in a given order
succeeds exactly when no entry comes before one that lies below it.

An entry that joins the table covers what is in it at its own directory and below. Entries that join
one after the other are all seen exactly when none comes after one that it covers.

## Main definitions

* `remove below table m`: remove the entry `m`, unless something lies below it
* `removeAll below ms table`: remove in order, stopping at the first refusal
* `visible dir table path`: the entry that is seen at a path

## Main results

* `removeAll_iff`: when removing a family in order succeeds
* `removeAll_table`: what then is left
* `forall_not_below_of_ascending`: an increasing order succeeds only if nothing is nested
* `forall_visible_iff`: when all entries that joined a table are seen
-/

namespace Nesting

variable {α : Type} [DecidableEq α] (below : α → α → Prop) [DecidableRel below]

/-- Remove `m` from the table, refused while an entry lies strictly below it. -/
def remove (table : List α) (m : α) : Option (List α) :=
  if m ∈ table ∧ ∀ x ∈ table, ¬ below x m then some (table.erase m) else none

/-- Remove in order, up to the first refusal; whether there was none, and the table left. -/
def removeAll : List α → List α → Bool × List α
  | [], table => (true, table)
  | m :: ms, table =>
    match remove below table m with
    | some table' => removeAll ms table'
    | none => (false, table)

@[simp] theorem removeAll_nil (table : List α) : removeAll below [] table = (true, table) := rfl

variable {below}

theorem removeAll_cons_of_free {table : List α} {m : α} (ms : List α) (hm : m ∈ table)
    (hfree : ∀ x ∈ table, ¬ below x m) :
    removeAll below (m :: ms) table = removeAll below ms (table.erase m) := by
  simp only [removeAll, remove, if_pos (And.intro hm hfree)]

theorem removeAll_cons_of_below {table : List α} {m x : α} (ms : List α) (hx : x ∈ table)
    (hbelow : below x m) : removeAll below (m :: ms) table = (false, table) := by
  have h : ¬ (m ∈ table ∧ ∀ y ∈ table, ¬ below y m) := fun h => h.2 x hx hbelow
  simp only [removeAll, remove, if_neg h]

section Family

variable {P : α → Bool}

omit [DecidableRel below] in
/-- Removing the first of a family leaves the rest of the family. -/
theorem perm_filter_erase {m : α} {ms table : List α} (hperm : (m :: ms).Perm (table.filter P)) :
    m ∈ table ∧ P m ∧ ms.Perm ((table.erase m).filter P) := by
  obtain ⟨hm, hP⟩ := List.mem_filter.mp (hperm.subset List.mem_cons_self)
  refine ⟨hm, hP, (List.perm_cons m).mp (hperm.trans ?_)⟩
  have := (List.perm_cons_erase hm).filter P
  rwa [List.filter_cons_of_pos hP] at this

/-- **A family is removed in order** iff no entry comes before one that lies below it; the family
is one that contains what lies below its entries. -/
theorem removeAll_iff (hclosed : ∀ m x, P m → below x m → P x) (hirrefl : ∀ x, ¬ below x x)
    {order table : List α} (hperm : order.Perm (table.filter P)) :
    (removeAll below order table).1 = true ↔ order.Pairwise fun a b => ¬ below b a := by
  induction order generalizing table with
  | nil => simp
  | cons m ms ih =>
    obtain ⟨hm, hP, hms⟩ := perm_filter_erase hperm
    rw [List.pairwise_cons]
    by_cases hfree : ∀ x ∈ table, ¬ below x m
    · rw [removeAll_cons_of_free ms hm hfree, ih hms]
      refine (and_iff_right fun x hx => hfree x ?_).symm
      exact (List.mem_filter.mp (hperm.subset (List.mem_cons_of_mem m hx))).1
    · push Not at hfree
      obtain ⟨x, hx, hbelow⟩ := hfree
      rw [removeAll_cons_of_below ms hx hbelow]
      have hmem : x ∈ m :: ms :=
        hperm.symm.subset (List.mem_filter.mpr ⟨hx, hclosed m x hP hbelow⟩)
      rcases List.mem_cons.mp hmem with rfl | hmem
      · exact absurd hbelow (hirrefl x)
      · simp only [Bool.false_eq_true, false_iff]
        intro h
        exact h.1 x hmem hbelow

/-- What a successful removal of a family leaves. -/
theorem removeAll_table {order table : List α} (hperm : order.Perm (table.filter P))
    (hok : (removeAll below order table).1 = true) :
    (removeAll below order table).2.Perm (table.filter fun x => !P x) := by
  induction order generalizing table with
  | nil =>
    have hnone : table.filter P = [] := hperm.symm.eq_nil
    rw [List.filter_eq_nil_iff] at hnone
    rw [removeAll_nil, List.filter_eq_self.mpr fun x hx => by simpa using hnone x hx]
  | cons m ms ih =>
    obtain ⟨hm, hP, hms⟩ := perm_filter_erase hperm
    by_cases hfree : ∀ x ∈ table, ¬ below x m
    · rw [removeAll_cons_of_free ms hm hfree] at hok ⊢
      refine (ih hms hok).trans ?_
      have := (List.perm_cons_erase hm).filter fun x => !P x
      rw [List.filter_cons_of_neg (by simp [hP])] at this
      exact this.symm
    · push Not at hfree
      obtain ⟨x, hx, hbelow⟩ := hfree
      rw [removeAll_cons_of_below ms hx hbelow] at hok
      exact absurd hok (by simp)

end Family

omit [DecidableEq α] [DecidableRel below] in
/-- **An increasing order succeeds only on entries none of which lies below another**, when an
entry comes after whatever it lies below. -/
theorem forall_not_below_of_ascending [LinearOrder α] (hlt : ∀ x m, below x m → m < x)
    {order : List α} (hasc : order.Pairwise (· ≤ ·)) :
    (order.Pairwise fun a b => ¬ below b a) ↔ ∀ a ∈ order, ∀ b ∈ order, ¬ below b a := by
  constructor
  -- Of two entries the lower one comes second; the order has no nested pair of that kind.
  · intro hpair a ha b hb hbelow
    obtain ⟨i, hi, rfl⟩ := List.getElem_of_mem ha
    obtain ⟨j, hj, rfl⟩ := List.getElem_of_mem hb
    have hab := hlt _ _ hbelow
    rcases Nat.lt_trichotomy i j with hij | rfl | hij
    · exact List.pairwise_iff_getElem.mp hpair i j hi hj hij hbelow
    · exact lt_irrefl _ hab
    · exact not_lt_of_ge (List.pairwise_iff_getElem.mp hasc j i hj hi hij) hab
  · intro h
    exact List.pairwise_of_forall_mem_list fun a ha b hb => h a ha b hb

/-! ## Entries that cover each other -/

section Covering

variable {β κ : Type} [DecidableEq κ] (dir : β → List κ)

/-- The entry that is seen at a path: the last one whose directory is the path or lies above it. -/
def visible (table : List β) (path : List κ) : Option β :=
  (table.filter fun m => (dir m).isPrefixOf path).getLast?

variable {dir} {table table' : List β} {path : List κ} {m : β}

/-- What joins later is seen first. -/
theorem visible_append :
    visible dir (table ++ table') path = (visible dir table' path).or (visible dir table path) := by
  rw [visible, List.filter_append, List.getLast?_append]
  rfl

theorem mem_of_visible (h : visible dir table path = some m) : m ∈ table :=
  (List.mem_filter.mp (List.mem_of_getLast? h)).1

theorem visible_eq_none_iff : visible dir table path = none ↔ ∀ m ∈ table, ¬ dir m <+: path := by
  rw [visible, List.getLast?_eq_none_iff, List.filter_eq_nil_iff]
  simp only [List.isPrefixOf_iff_prefix]

/-- An entry is seen at its own directory until another one covers it. -/
theorem visible_dir_iff (h : m ∉ table') :
    visible dir (table ++ m :: table') (dir m) = some m ↔ ∀ x ∈ table', ¬ dir x <+: dir m := by
  have hself : visible dir (table ++ [m]) (dir m) = some m := by
    rw [visible_append]
    simp [visible]
  rw [List.append_cons, visible_append, hself, ← visible_eq_none_iff]
  rcases hx : visible dir table' (dir m) with _ | x
  · simp
  · have hne : x ≠ m := by
      rintro rfl
      exact h (mem_of_visible hx)
    simp [hne]

/-- **All entries that joined a table are seen** iff none comes after one at its own directory or
below. -/
theorem forall_visible_iff {entries : List β} (h : entries.Nodup) :
    (∀ m ∈ entries, visible dir (table ++ entries) (dir m) = some m) ↔
      entries.Pairwise fun earlier later => ¬ dir later <+: dir earlier := by
  induction entries generalizing table with
  | nil => simp
  | cons m entries ih =>
    obtain ⟨hm, hentries⟩ := List.nodup_cons.mp h
    rw [List.forall_mem_cons, List.pairwise_cons, visible_dir_iff hm, List.append_cons,
      ih hentries]

end Covering

end Nesting
