import CliInstaller.Installer.Passwords

/-!
# The name of a new zpool

`zfs_create_zpool` asks for a name until its two checks let it pass. The checks write one variable,
the text of the next box, and the loop ends where it is still the first text. They forbid a digit at
the start and a reserved word anywhere; the messages ask for a letter at the start, and forbid a
reserved word there.

Source: `src/tui.cpp`.

## Main definitions

* `zpoolNameText`, `zpoolName`: the checks, and the loop
* `ValidZpoolName`, `FirstValid`: the names that the messages describe, and the first of them
* `Misjudged`, `JudgedRight`: the names on which the checks differ, and entries without one

## Main results

* `zpoolNameText_eq_body_iff`: the names that pass
* `zpoolName_firstValid_iff`: when the loop ends at the first valid name
-/

namespace CliInstaller

/-! ## The loop -/

def zfsZpoolBody : Str := lit "\nEnter the name for the new zpool\n"

/-- `zfs_zpoolcvalidation1` -/
def zfsZpoolcvalidation1 : Str :=
  lit "\nzpool names must start with a letter and are limited to only alphanumeric characters and the special characters : . - _\n"

/-- `zfs_zpoolcvalidation2` -/
def zfsZpoolcvalidation2 : Str :=
  lit "\nzpool names cannot start with the reserved words (log, mirror, raidz, raidz1, raidz2, raidz3, or spare)\n"

/-- The characters that are allowed besides letters and digits. -/
def zpoolSpecial (c : Char) : Bool := c = ':' || c = '.' || c = '-' || c = '_'

/-- A letter, a digit or a special character. -/
def zpoolChar (c : Char) : Bool := c.isAlphanum || zpoolSpecial c

/-- The words of the second check. -/
def invalidKeywords : List Str :=
  [lit "log", lit "mirror", lit "raidz", lit "raidz1", lit "raidz2", lit "spare"]

/-- The text after both checks: the second one overwrites what the first one found. -/
def zpoolNameText (name : Str) : Str :=
  let zfsMenuText :=
    if name.isEmpty || name.head?.any Char.isDigit || name.any (fun ch => !zpoolChar ch) then
      zfsZpoolcvalidation1
    else zfsZpoolBody
  if invalidKeywords.any (contains name) then zfsZpoolcvalidation2 else zfsMenuText

/-- The loop of `tui::zfs_create_zpool`: the texts of its boxes, the name unless a box is cancelled,
and the entries that are left. There is no result while a box is open. -/
def zpoolName (zfsMenuText : Str) : List Entry → List Str × Option (Option Str × List Entry)
  | [] => ([zfsMenuText], none)
  | none :: entries => ([zfsMenuText], some (none, entries))
  | some name :: entries =>
    if zpoolNameText name = zfsZpoolBody then ([zfsMenuText], some (some name, entries))
    else
      let (texts, result) := zpoolName (zpoolNameText name) entries
      (zfsMenuText :: texts, result)

/-! ## The names of the messages -/

/-- The words that a name may not begin with. -/
def reservedWords : List Str :=
  [lit "log", lit "mirror", lit "raidz", lit "raidz1", lit "raidz2", lit "raidz3", lit "spare"]

/-- **A valid name**: it starts with a letter, has allowed characters only, and does not start with
a reserved word. -/
structure ValidZpoolName (name : Str) : Prop where
  letter : name.head?.any Char.isAlpha = true
  chars : name.all zpoolChar = true
  notReserved : ∀ word ∈ reservedWords, ¬ word <+: name

/-- The first valid name, and the entries after it; no box is cancelled before. -/
inductive FirstValid (name : Str) (rest : List Entry) : List Entry → Prop
  | first (hvalid : ValidZpoolName name) : FirstValid name rest (some name :: rest)
  | retry {other : Str} {entries : List Entry} (hinvalid : ¬ ValidZpoolName other) :
      FirstValid name rest entries → FirstValid name rest (some other :: entries)

/-- The checks are wrong about the name: it starts with a special character and has no reserved
word, or it starts with a letter and has a reserved word, but not at its start. -/
structure Misjudged (name : Str) : Prop where
  chars : name.all zpoolChar = true
  wrong : (name.head?.any zpoolSpecial = true ∧ ∀ word ∈ reservedWords, ¬ word <:+: name) ∨
    name.head?.any Char.isAlpha = true ∧ (∃ word ∈ reservedWords, word <:+: name) ∧
      ∀ word ∈ reservedWords, ¬ word <+: name

/-- Up to the first valid name, no entry is misjudged. -/
def JudgedRight : List Entry → Prop
  | some name :: entries => ¬ Misjudged name ∧ (¬ ValidZpoolName name → JudgedRight entries)
  | _ => True

/-! ## The checks -/

section Checks

variable {name : Str}

theorem mem_reservedWords {word : Str} :
    word ∈ reservedWords ↔ word ∈ invalidKeywords ∨ word = lit "raidz3" := by
  simp only [reservedWords, invalidKeywords, List.mem_cons, List.not_mem_nil, or_false]
  tauto

/-- A name with one of the reserved words has one of those that are checked. -/
theorem any_invalidKeywords_iff :
    invalidKeywords.any (contains name) = true ↔ ∃ word ∈ reservedWords, word <:+: name := by
  rw [List.any_eq_true]
  constructor
  · rintro ⟨word, hword, hcontains⟩
    exact ⟨word, mem_reservedWords.mpr (.inl hword), contains_iff.mp hcontains⟩
  · rintro ⟨word, hword, hinfix⟩
    rcases mem_reservedWords.mp hword with hword | rfl
    · exact ⟨word, hword, contains_iff.mpr hinfix⟩
    -- The word that is not checked has another one in it.
    · refine ⟨lit "raidz", by simp [invalidKeywords], contains_iff.mpr ?_⟩
      exact List.IsInfix.trans ⟨[], ['3'], by simp [lit_eq]⟩ hinfix

/-- **The names that pass** both checks. -/
theorem zpoolNameText_eq_body_iff :
    zpoolNameText name = zfsZpoolBody ↔
      name.head?.any (fun c => !c.isDigit) = true ∧ name.all zpoolChar = true ∧
        ∀ word ∈ reservedWords, ¬ word <:+: name := by
  have hfirst : zfsZpoolcvalidation1 ≠ zfsZpoolBody := by decide +kernel
  have hsecond : zfsZpoolcvalidation2 ≠ zfsZpoolBody := by decide +kernel
  have hhead : (name.isEmpty || name.head?.any Char.isDigit ||
      name.any (fun ch => !zpoolChar ch)) = false ↔
      name.head?.any (fun c => !c.isDigit) = true ∧ name.all zpoolChar = true := by
    cases name with
    | nil => simp
    | cons c name => simp [List.any_eq_false]
  rw [zpoolNameText]
  by_cases hkeyword : invalidKeywords.any (contains name) = true
  · rw [if_pos hkeyword]
    refine iff_of_false hsecond fun h => ?_
    obtain ⟨word, hword, hinfix⟩ := any_invalidKeywords_iff.mp hkeyword
    exact h.2.2 word hword hinfix
  · rw [if_neg hkeyword, ← and_assoc, ← hhead]
    have hnone : ∀ word ∈ reservedWords, ¬ word <:+: name :=
      fun word hword hinfix => hkeyword (any_invalidKeywords_iff.mpr ⟨word, hword, hinfix⟩)
    rw [and_iff_left hnone]
    split_ifs with hbad
    · exact iff_of_false hfirst (by simp [hbad])
    · exact iff_of_true rfl (by simpa using hbad)

/-- An allowed character is a letter, a digit or a special one, and only one of them. -/
theorem zpoolChar_cases {c : Char} (h : zpoolChar c = true) :
    (c.isAlpha = true ∧ c.isDigit = false ∧ zpoolSpecial c = false) ∨
      (c.isAlpha = false ∧ c.isDigit = true ∧ zpoolSpecial c = false) ∨
      c.isAlpha = false ∧ c.isDigit = false ∧ zpoolSpecial c = true := by
  by_cases hspecial : zpoolSpecial c = true
  · simp only [zpoolSpecial, Bool.or_eq_true, decide_eq_true_eq] at hspecial
    rcases hspecial with ((rfl | rfl) | rfl) | rfl <;> decide
  · rw [zpoolChar, Bool.or_eq_true, or_iff_left hspecial, Char.isAlphanum, Bool.or_eq_true] at h
    simp only [Bool.not_eq_true] at hspecial
    have hapart : ¬ (c.isAlpha = true ∧ c.isDigit = true) := by
      change ¬ ((decide (c.val ≥ 65 ∧ c.val ≤ 90) || c.val ≥ 97 && c.val ≤ 122) = true ∧
        (c.val ≥ 48 && c.val ≤ 57) = true)
      simp only [Bool.or_eq_true, Bool.and_eq_true, decide_eq_true_eq, UInt32.le_iff_toNat_le,
        ge_iff_le, UInt32.reduceToNat]
      omega
    grind

/-- **The checks are right** about a name unless it is misjudged. -/
theorem passes_iff_valid_iff :
    (zpoolNameText name = zfsZpoolBody ↔ ValidZpoolName name) ↔ ¬ Misjudged name := by
  have hvalid : ValidZpoolName name ↔ name.head?.any Char.isAlpha = true ∧
      name.all zpoolChar = true ∧ ∀ word ∈ reservedWords, ¬ word <+: name :=
    ⟨fun h => ⟨h.letter, h.chars, h.notReserved⟩, fun h => ⟨h.1, h.2.1, h.2.2⟩⟩
  have hwrong : Misjudged name ↔ name.all zpoolChar = true ∧
      ((name.head?.any zpoolSpecial = true ∧ ∀ word ∈ reservedWords, ¬ word <:+: name) ∨
        name.head?.any Char.isAlpha = true ∧ (∃ word ∈ reservedWords, word <:+: name) ∧
          ∀ word ∈ reservedWords, ¬ word <+: name) :=
    ⟨fun h => ⟨h.chars, h.wrong⟩, fun h => ⟨h.1, h.2⟩⟩
  have hprefix : (∀ word ∈ reservedWords, ¬ word <:+: name) →
      ∀ word ∈ reservedWords, ¬ word <+: name :=
    fun h word hword hstart => h word hword hstart.isInfix
  have hsome : (∃ word ∈ reservedWords, word <:+: name) ↔
      ¬ ∀ word ∈ reservedWords, ¬ word <:+: name := by
    push Not
    rfl
  rw [zpoolNameText_eq_body_iff, hvalid, hwrong, hsome]
  by_cases hchars : name.all zpoolChar = true
  · rcases name with _ | ⟨c, rest⟩
    · simp
    · have hc := zpoolChar_cases (List.all_eq_true.mp hchars c List.mem_cons_self)
      simp only [List.head?_cons, Option.any_some]
      rcases hc with ⟨halpha, hdigit, hspecial⟩ | ⟨halpha, hdigit, hspecial⟩ |
        ⟨halpha, hdigit, hspecial⟩
      all_goals
        simp only [halpha, hdigit, hspecial, hchars]
        grind
  · simp [hchars]

end Checks

/-! ## The entries -/

section Loop

variable {name zfsMenuText : Str} {rest entries : List Entry}

theorem zpoolName_passes (h : zpoolNameText name = zfsZpoolBody) :
    (zpoolName zfsMenuText (some name :: entries)).2 = some (some name, entries) := by
  rw [zpoolName, if_pos h]

theorem zpoolName_retry (h : zpoolNameText name ≠ zfsZpoolBody) :
    (zpoolName zfsMenuText (some name :: entries)).2 =
      (zpoolName (zpoolNameText name) entries).2 := by
  rw [zpoolName, if_neg h]

/-- What is left of the entries. -/
theorem length_rest_lt (h : (zpoolName zfsMenuText entries).2 = some (some name, rest)) :
    rest.length < entries.length := by
  induction entries generalizing zfsMenuText with
  | nil => cases h
  | cons entry entries ih =>
    rcases entry with _ | other
    · cases h
    · by_cases hpasses : zpoolNameText other = zfsZpoolBody
      · rw [zpoolName_passes hpasses] at h
        obtain ⟨-, rfl⟩ := Prod.mk.inj (Option.some.inj h)
        exact Nat.lt_succ_self _
      · rw [zpoolName_retry hpasses] at h
        exact (ih h).trans (Nat.lt_succ_self _)

theorem FirstValid.length_lt (h : FirstValid name rest entries) : rest.length < entries.length := by
  induction h with
  | first => exact Nat.lt_succ_self _
  | retry _ _ ih => exact ih.trans (Nat.lt_succ_self _)

theorem firstValid_cons_of_valid {other : Str} (h : ValidZpoolName other) :
    FirstValid name rest (some other :: entries) ↔ name = other ∧ rest = entries := by
  constructor
  · intro hfirst
    cases hfirst with
    | first => exact ⟨rfl, rfl⟩
    | retry hinvalid => exact absurd h hinvalid
  · rintro ⟨rfl, rfl⟩
    exact .first h

theorem firstValid_cons_of_not_valid {other : Str} (h : ¬ ValidZpoolName other) :
    FirstValid name rest (some other :: entries) ↔ FirstValid name rest entries := by
  constructor
  · intro hfirst
    cases hfirst with
    | first hvalid => exact absurd hvalid h
    | retry _ hrest => exact hrest
  · exact .retry h

end Loop

/-- **The loop ends at the first valid name**, for any text of its first box, iff no entry up to
that name is misjudged. -/
theorem zpoolName_firstValid_iff (zfsMenuText : Str) (entries : List Entry) :
    (∀ name rest, (zpoolName zfsMenuText entries).2 = some (some name, rest) ↔
        FirstValid name rest entries) ↔ JudgedRight entries := by
  induction entries generalizing zfsMenuText with
  | nil => exact iff_of_true (fun name rest => iff_of_false nofun nofun) trivial
  | cons entry entries ih =>
    rcases entry with _ | other
    · exact iff_of_true (fun name rest => iff_of_false nofun nofun) trivial
    rw [JudgedRight, ← passes_iff_valid_iff]
    by_cases hpasses : zpoolNameText other = zfsZpoolBody
    · simp only [zpoolName_passes hpasses]
      by_cases hvalid : ValidZpoolName other
      · refine iff_of_true (fun name rest => ?_) ⟨iff_of_true hpasses hvalid, absurd hvalid⟩
        rw [firstValid_cons_of_valid hvalid, Option.some.injEq, Prod.mk.injEq, Option.some.injEq]
        exact and_congr eq_comm eq_comm
      · refine iff_of_false (fun h => ?_) fun h => hvalid (h.1.mp hpasses)
        have hfirst := (firstValid_cons_of_not_valid hvalid).mp ((h other entries).mp rfl)
        exact absurd hfirst.length_lt (lt_irrefl _)
    · simp only [zpoolName_retry hpasses]
      by_cases hvalid : ValidZpoolName other
      · refine iff_of_false (fun h => ?_) fun h => hpasses (h.1.mpr hvalid)
        exact absurd (length_rest_lt ((h other entries).mpr (.first hvalid))) (lt_irrefl _)
      · simp only [firstValid_cons_of_not_valid hvalid]
        rw [ih, and_iff_right (iff_of_false hpasses hvalid)]
        exact (imp_iff_right hvalid).symm

/-- A name with a reserved word at its end, and one that starts with a special character. -/
theorem zpoolName_catalog :
    (zpoolName zfsZpoolBody [some (lit "catalog")]).2 = none ∧
      FirstValid (lit "catalog") [] [some (lit "catalog")] ∧
      (zpoolName zfsZpoolBody [some (lit "_pool")]).2 = some (some (lit "_pool"), []) ∧
      ¬ ValidZpoolName (lit "_pool") ∧
      ¬ ∀ entries name rest, (zpoolName zfsZpoolBody entries).2 = some (some name, rest) ↔
        FirstValid name rest entries := by
  have hcatalog : (zpoolName zfsZpoolBody [some (lit "catalog")]).2 = none := by decide +kernel
  have hvalid : ValidZpoolName (lit "catalog") :=
    ⟨by decide +kernel, by decide +kernel, by decide +kernel⟩
  refine ⟨hcatalog, .first hvalid, by decide +kernel, fun h => ?_, fun h => ?_⟩
  · exact absurd h.letter (by decide +kernel)
  · rw [(h [some (lit "catalog")] (lit "catalog") []).mpr (.first hvalid)] at hcatalog
    cases hcatalog

end CliInstaller
