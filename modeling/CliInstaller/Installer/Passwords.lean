import CliInstaller.Cpp.Runtime

/-!
# Passwords that are entered twice

The retry of `set_root_password` is a call of itself, and the caller goes on after it: it sets its
own password too, which did not match. So the texts of all pairs that do not match are set, the first one
last. `create_new_user` asks in a loop and has no such fault.

Source: `src/tui.cpp`.

## Main definitions

* `setRootPassword`, `userPassword`: the functions, on what the user enters
* `EnteredTwice`: the text of the first pair that matches
* `RootPasswordSafe`: what is set as root password was entered twice
* `Settled`, `LeftOpen`: what the entries after a mismatch come to

## Main results

* `settled_iff`: when the retries set one text only, which was entered twice
* `rootPasswordSafe_iff`: when every password that is set was entered twice
* `userPassword_enteredTwice`: the password of a new user always was
-/

namespace CliInstaller

/-- What the user does in an input box: a text is entered, or the box is cancelled. -/
abbrev Entry := Option Str

/-- `tui::set_root_password`: the passwords given to `utils::set_root_password`, in their order,
and the entries that are left. There is no result while a box is open. -/
def setRootPassword : List Entry → Option (List Str × List Entry)
  | none :: entries => some ([], entries)
  | some _ :: none :: entries => some ([], entries)
  | some pass :: some confirm :: entries =>
    if pass ≠ confirm then do
      let (set, entries) ← setRootPassword entries
      return (set ++ [pass], entries)
    else some ([pass], entries)
  | [] => none
  | [some _] => none

/-- The boxes of `tui::create_new_user` for the password: the one that is used, unless a box is
cancelled, and the entries that are left. -/
def userPassword : List Entry → Option (Option Str × List Entry)
  | none :: entries => some (none, entries)
  | some _ :: none :: entries => some (none, entries)
  | some pass :: some confirm :: entries =>
    if pass ≠ confirm then userPassword entries else some (some pass, entries)
  | [] => none
  | [some _] => none

/-! ## Pairs of entries -/

/-- The text is that of the first pair that matches, and no box is cancelled before. -/
inductive EnteredTwice (text : Str) : List Entry → Prop
  | first {entries : List Entry} : EnteredTwice text (some text :: some text :: entries)
  | retry {pass confirm : Str} {entries : List Entry} (hne : pass ≠ confirm) :
      EnteredTwice text entries → EnteredTwice text (some pass :: some confirm :: entries)

/-- **Every root password was entered twice**: whatever is set is the text of a pair that matches, and
nothing is set where a box is cancelled before. -/
def RootPasswordSafe (entries : List Entry) : Prop :=
  ∀ set rest, setRootPassword entries = some (set, rest) →
    (∀ text ∈ set, EnteredTwice text entries) ∧
      ((¬ ∃ text, EnteredTwice text entries) → set = [])

/-- The entries come to a pair that matches, and it and every pair before it begin with the text. -/
def Settled (text : Str) : List Entry → Prop
  | some pass :: some confirm :: entries =>
    pass = text ∧ (pass ≠ confirm → Settled text entries)
  | _ => False

/-- A box is left open: there is no pair that matches, and none is cancelled. -/
def LeftOpen : List Entry → Prop
  | none :: _ => False
  | some _ :: none :: _ => False
  | some pass :: some confirm :: entries => pass ≠ confirm ∧ LeftOpen entries
  | [] => True
  | [some _] => True

/-- The first pair matches, or one of its boxes is cancelled or left open; or the entries after it leave a
box open, or come to a pair that matches, and it and every pair before it begin with the same text. -/
def FirstSettled : List Entry → Prop
  | some pass :: some confirm :: entries => pass ≠ confirm → LeftOpen entries ∨ Settled pass entries
  | _ => True

theorem EnteredTwice.unique {text text' : Str} {entries : List Entry}
    (h : EnteredTwice text entries) (h' : EnteredTwice text' entries) : text = text' := by
  induction h with
  | first =>
    cases h' with
    | first => rfl
    | retry hne => exact absurd rfl hne
  | retry hne _ ih =>
    cases h' with
    | first => exact absurd rfl hne
    | retry _ h' => exact ih h'

/-! ## The root password -/

/-- After a mismatch the caller's password is set last, whatever the retry does. -/
theorem setRootPassword_retry {pass confirm : Str} {entries : List Entry} (hne : pass ≠ confirm) :
    setRootPassword (some pass :: some confirm :: entries) =
      (setRootPassword entries).map fun result => (result.1 ++ [pass], result.2) := by
  rw [setRootPassword, if_pos hne]
  rcases setRootPassword entries with _ | ⟨set, rest⟩
  · rfl
  · rfl

theorem setRootPassword_match {pass : Str} {entries : List Entry} :
    setRootPassword (some pass :: some pass :: entries) = some ([pass], entries) := by
  rw [setRootPassword, if_neg (by simp)]

theorem enteredTwice_retry {text pass confirm : Str} {entries : List Entry}
    (hne : pass ≠ confirm) :
    EnteredTwice text (some pass :: some confirm :: entries) ↔ EnteredTwice text entries := by
  constructor
  · intro h
    cases h with
    | first => exact absurd rfl hne
    | retry _ h => exact h
  · exact EnteredTwice.retry hne

theorem enteredTwice_match {text pass : Str} {entries : List Entry} :
    EnteredTwice text (some pass :: some pass :: entries) ↔ pass = text := by
  constructor
  · intro h
    exact EnteredTwice.first.unique h
  · rintro rfl
    exact .first

/-- **The retries set one text only**, which was entered twice, iff the entries are settled. -/
theorem settled_iff {text : Str} {entries : List Entry} :
    Settled text entries ↔ EnteredTwice text entries ∧
      ∃ set rest, setRootPassword entries = some (set, rest) ∧ ∀ text' ∈ set, text' = text := by
  induction entries using setRootPassword.induct with
  | case1 entries => exact iff_of_false not_false fun h => nomatch h.1
  | case2 _ entries => exact iff_of_false not_false fun h => nomatch h.1
  | case3 pass confirm entries hne ih =>
    rw [Settled, setRootPassword_retry hne, enteredTwice_retry hne, imp_iff_right hne, ih]
    constructor
    · rintro ⟨rfl, htwice, set, rest, hset, hall⟩
      refine ⟨htwice, set ++ [pass], rest, by rw [hset]; rfl, ?_⟩
      exact List.forall_mem_append.mpr ⟨hall, List.forall_mem_singleton.mpr rfl⟩
    · rintro ⟨htwice, set', rest, hset', hall⟩
      obtain ⟨⟨set, rest'⟩, hset, heq⟩ := Option.map_eq_some_iff.mp hset'
      obtain ⟨rfl, -⟩ := Prod.mk.inj heq
      obtain ⟨hall, hpass⟩ := List.forall_mem_append.mp hall
      exact ⟨hpass pass (List.mem_singleton_self pass), htwice, set, rest', hset, hall⟩
  | case4 pass confirm entries hmatch =>
    obtain rfl := not_not.mp hmatch
    rw [Settled, setRootPassword_match, enteredTwice_match]
    constructor
    · rintro ⟨rfl, -⟩
      exact ⟨rfl, [pass], entries, rfl, List.forall_mem_singleton.mpr rfl⟩
    · rintro ⟨rfl, -⟩
      exact ⟨rfl, fun hne => absurd rfl hne⟩
  | case5 => exact iff_of_false not_false fun h => nomatch h.1
  | case6 pass => exact iff_of_false not_false fun h => nomatch h.1

theorem leftOpen_iff {entries : List Entry} :
    LeftOpen entries ↔ setRootPassword entries = none := by
  induction entries using setRootPassword.induct with
  | case1 entries => exact iff_of_false not_false (Option.some_ne_none _)
  | case2 _ entries => exact iff_of_false not_false (Option.some_ne_none _)
  | case3 pass confirm entries hne ih =>
    rw [LeftOpen, and_iff_right hne, setRootPassword_retry hne, Option.map_eq_none_iff, ih]
  | case4 pass confirm entries hmatch =>
    obtain rfl := not_not.mp hmatch
    rw [LeftOpen, setRootPassword_match]
    exact iff_of_false (fun h => h.1 rfl) (Option.some_ne_none _)
  | case5 => exact iff_of_true trivial rfl
  | case6 pass => exact iff_of_true trivial rfl

/-- After a mismatch every password that is set was entered twice iff the retries set its text only. -/
theorem rootPasswordSafe_retry {pass confirm : Str} {entries : List Entry} (hne : pass ≠ confirm) :
    RootPasswordSafe (some pass :: some confirm :: entries) ↔
      LeftOpen entries ∨ Settled pass entries := by
  rw [RootPasswordSafe, setRootPassword_retry hne, leftOpen_iff, settled_iff]
  simp only [enteredTwice_retry hne]
  constructor
  · intro hsafe
    rcases hset : setRootPassword entries with _ | ⟨set, rest⟩
    · exact .inl rfl
    · obtain ⟨hall, hpass⟩ := List.forall_mem_append.mp (hsafe (set ++ [pass]) rest (by rw [hset]; rfl)).1
      have htwice := List.forall_mem_singleton.mp hpass
      exact .inr ⟨htwice, set, rest, rfl, fun text htext => (hall text htext).unique htwice⟩
  · rintro (hopen | ⟨htwice, set, rest, hset, hall⟩) set' rest' hset'
    · rw [hopen] at hset'
      exact absurd hset' (by simp)
    · rw [hset, Option.map_some, Option.some.injEq, Prod.mk.injEq] at hset'
      obtain ⟨rfl, -⟩ := hset'
      refine ⟨fun text htext => ?_, fun hnone => absurd ⟨pass, htwice⟩ hnone⟩
      rcases List.mem_append.mp htext with htext | htext
      · rwa [hall text htext]
      · rwa [List.mem_singleton.mp htext]

/-- **When every root password was entered twice**: iff the first pair matches or is given up, or the
retries leave a box open or come to the same text each time. -/
theorem rootPasswordSafe_iff (entries : List Entry) :
    RootPasswordSafe entries ↔ FirstSettled entries := by
  match entries with
  | [] => exact iff_of_true (fun set rest h => nomatch h) trivial
  | [some _] => exact iff_of_true (fun set rest h => nomatch h) trivial
  | none :: entries =>
    refine iff_of_true (fun set rest h => ?_) trivial
    obtain ⟨rfl, -⟩ := Prod.mk.inj (Option.some.inj h)
    exact ⟨fun text htext => absurd htext List.not_mem_nil, fun _ => rfl⟩
  | some _ :: none :: entries =>
    refine iff_of_true (fun set rest h => ?_) trivial
    obtain ⟨rfl, -⟩ := Prod.mk.inj (Option.some.inj h)
    exact ⟨fun text htext => absurd htext List.not_mem_nil, fun _ => rfl⟩
  | some pass :: some confirm :: entries =>
    by_cases hne : pass = confirm
    · subst hne
      refine iff_of_true (fun set rest h => ?_) fun hne => absurd rfl hne
      rw [setRootPassword_match] at h
      obtain ⟨rfl, -⟩ := Prod.mk.inj (Option.some.inj h)
      exact ⟨List.forall_mem_singleton.mpr .first, fun hnone => absurd ⟨pass, .first⟩ hnone⟩
    · rw [FirstSettled, imp_iff_right hne]
      exact rootPasswordSafe_retry hne

/-- `abc` and `abd` do not match, then `xyz` does: `abc` is set last. And it is set when the retry
is cancelled. -/
theorem rootPassword_mismatch :
    setRootPassword [some (lit "abc"), some (lit "abd"), some (lit "xyz"), some (lit "xyz")] =
        some ([lit "xyz", lit "abc"], []) ∧
      setRootPassword [some (lit "abc"), some (lit "abd"), none] = some ([lit "abc"], []) ∧
      ¬ ∀ entries, RootPasswordSafe entries := by
  refine ⟨by decide +kernel, by decide +kernel, fun h => ?_⟩
  have hsafe := (h [some (lit "abc"), some (lit "abd"), none] [lit "abc"] []
    (by decide +kernel)).1 (lit "abc") (List.mem_singleton_self _)
  rw [enteredTwice_retry (by decide +kernel)] at hsafe
  cases hsafe

/-! ## The password of a new user -/

/-- **The password of a new user was entered twice**, in the first pair that matches. -/
theorem userPassword_enteredTwice {entries rest : List Entry} {pass : Str}
    (h : userPassword entries = some (some pass, rest)) : EnteredTwice pass entries := by
  induction entries using userPassword.induct with
  | case1 entries => cases h
  | case2 _ entries => cases h
  | case3 pass' confirm entries hne ih =>
    rw [userPassword, if_pos hne] at h
    exact .retry hne (ih h)
  | case4 pass' confirm entries hmatch =>
    obtain rfl := not_not.mp hmatch
    rw [userPassword, if_neg hmatch] at h
    obtain ⟨hpass, -⟩ := Prod.mk.inj (Option.some.inj h)
    exact Option.some.inj hpass ▸ .first
  | case5 => cases h
  | case6 => cases h

end CliInstaller
