import CliInstaller.General.Splitting
import Mathlib.Data.List.Infix

/-!
# Editing the lines of a text

A stream editor applies a script to each line of a text. A pattern is a list of items, each a set of
characters that stands once or any number of times; of the places where a pattern matches the editor
takes the leftmost, and there the longest match. A command substitutes such matches or deletes the
line.

## Main definitions

* `Item`, `Matches`: the items of a pattern, and the texts that match a list of items
* `matchLength`: the length of the longest match at the start of a text
* `Substitution`, `Command`: what a command does to a line
* `parseCommand`: the command that a script denotes, for the scripts that are described here
* `editText`, `textLines`: an edit of each line of a text, and these lines

## Main results

* `mem_lengths_iff`: the lengths that are found are those of the matches
* `matchLength_literals_append`: a pattern that begins with a text
* `textLines_editText`, `editText_editText`: the lines after an edit, and two edits in turn
-/

namespace Sed

open Splitting

/-! ## Patterns -/

/-- An item: the characters that it accepts, and whether it stands any number of times. -/
structure Item where
  accepts : Char → Bool
  starred : Bool

namespace Item

/-- A character that stands for itself. -/
def literal (c : Char) : Item := ⟨(· == c), false⟩

/-- Any number of a character. -/
def many (c : Char) : Item := ⟨(· == c), true⟩

/-- A character of any kind. -/
def any : Item := ⟨fun _ => true, false⟩

end Item

/-- The items of a text that stands for itself. -/
def literals (text : List Char) : List Item := text.map Item.literal

/-- **The text matches** the items. -/
inductive Matches : List Item → List Char → Prop
  | nil : Matches [] []
  | one {accepts : Char → Bool} {items : List Item} {c : Char} {text : List Char} :
    accepts c = true → Matches items text → Matches (⟨accepts, false⟩ :: items) (c :: text)
  | skip {accepts : Char → Bool} {items : List Item} {text : List Char} :
    Matches items text → Matches (⟨accepts, true⟩ :: items) text
  | more {accepts : Char → Bool} {items : List Item} {c : Char} {text : List Char} :
    accepts c = true → Matches (⟨accepts, true⟩ :: items) text →
      Matches (⟨accepts, true⟩ :: items) (c :: text)

/-- The lengths of the matches at the start of a text. -/
def lengths : List Item → List Char → List Nat
  | [], _ => [0]
  | ⟨_, false⟩ :: _, [] => []
  | ⟨accepts, false⟩ :: items, c :: text =>
    if accepts c then (lengths items text).map (· + 1) else []
  | ⟨accepts, true⟩ :: items, text =>
    (List.range ((text.takeWhile accepts).length + 1)).flatMap fun n =>
      (lengths items (text.drop n)).map (· + n)

/-- The length of the longest match at the start of a text. -/
def matchLength (items : List Item) (text : List Char) : Option Nat := (lengths items text).max?

/-- A pattern, which matches at the start of a line or anywhere. -/
structure Pattern where
  atStart : Bool
  items : List Item

/-- The pattern matches somewhere. -/
def Pattern.found (p : Pattern) (line : List Char) : Bool :=
  if p.atStart then (matchLength p.items line).isSome
  else line.tails.any fun text => (matchLength p.items text).isSome

section Matching

variable {items : List Item} {text line : List Char} {n : Nat}

@[simp] theorem matches_nil_iff : Matches [] text ↔ text = [] :=
  ⟨fun h => by cases h; rfl, fun h => h ▸ .nil⟩

theorem matches_starred_iff {accepts : Char → Bool} :
    Matches (⟨accepts, true⟩ :: items) text ↔
      ∃ run rest, text = run ++ rest ∧ (∀ c ∈ run, accepts c = true) ∧ Matches items rest := by
  constructor
  · intro h
    induction text with
    | nil =>
      cases h with
      | skip h => exact ⟨[], [], rfl, by simp, h⟩
    | cons c text ih =>
      cases h with
      | skip h => exact ⟨[], c :: text, rfl, by simp, h⟩
      | more hc h =>
        obtain ⟨run, rest, rfl, hrun, hrest⟩ := ih h
        exact ⟨c :: run, rest, rfl, List.forall_mem_cons.mpr ⟨hc, hrun⟩, hrest⟩
  · rintro ⟨run, rest, rfl, hrun, hrest⟩
    induction run with
    | nil => exact .skip hrest
    | cons c run ih =>
      obtain ⟨hc, hrun⟩ := List.forall_mem_cons.mp hrun
      exact .more hc (ih hrun)

theorem matches_literals_append_iff {w : List Char} :
    Matches (literals w ++ items) text ↔ ∃ rest, text = w ++ rest ∧ Matches items rest := by
  induction w generalizing text with
  | nil => simp [literals]
  | cons c w ih =>
    constructor
    · intro h
      cases h with
      | one hc h =>
        obtain ⟨rest, rfl, hrest⟩ := ih.mp h
        exact ⟨rest, by rw [beq_iff_eq.mp hc, List.cons_append], hrest⟩
    · rintro ⟨rest, rfl, hrest⟩
      exact .one (beq_self_eq_true c) (ih.mpr ⟨rest, rfl, hrest⟩)

theorem matches_append_iff {items' : List Item} :
    Matches (items ++ items') text ↔
      ∃ before after, text = before ++ after ∧ Matches items before ∧ Matches items' after := by
  induction items generalizing text with
  | nil => simp
  | cons item items ih =>
    obtain ⟨accepts, _ | _⟩ := item
    · constructor
      · intro h
        cases h with
        | one hc h =>
          obtain ⟨before, after, rfl, hbefore, hafter⟩ := ih.mp h
          exact ⟨_ :: before, after, rfl, .one hc hbefore, hafter⟩
      · rintro ⟨_, after, rfl, hbefore, hafter⟩
        cases hbefore with
        | one hc hbefore => exact .one hc (ih.mpr ⟨_, after, rfl, hbefore, hafter⟩)
    · rw [List.cons_append, matches_starred_iff]
      constructor
      · rintro ⟨run, _, rfl, hrun, h⟩
        obtain ⟨before, after, rfl, hbefore, hafter⟩ := ih.mp h
        exact ⟨run ++ before, after, (List.append_assoc _ _ _).symm,
          matches_starred_iff.mpr ⟨run, before, rfl, hrun, hbefore⟩, hafter⟩
      · rintro ⟨_, after, rfl, hbefore, hafter⟩
        obtain ⟨run, before, rfl, hrun, hbefore⟩ := matches_starred_iff.mp hbefore
        exact ⟨run, before ++ after, List.append_assoc _ _ _, hrun,
          ih.mpr ⟨before, after, rfl, hbefore, hafter⟩⟩

/-- **The lengths that are found** are those of the matches at the start of the text. -/
theorem mem_lengths_iff :
    n ∈ lengths items text ↔ ∃ mid rest, text = mid ++ rest ∧ mid.length = n ∧ Matches items mid := by
  induction items generalizing text n with
  | nil =>
    simp only [lengths, List.mem_singleton, matches_nil_iff]
    constructor
    · rintro rfl
      exact ⟨[], text, rfl, rfl, rfl⟩
    · rintro ⟨mid, rest, -, rfl, rfl⟩
      rfl
  | cons item items ih =>
    obtain ⟨accepts, _ | _⟩ := item
    · rcases text with _ | ⟨c, text⟩
      · simp only [lengths, List.not_mem_nil, false_iff]
        rintro ⟨mid, rest, htext, -, hmatch⟩
        obtain ⟨rfl, -⟩ := List.append_eq_nil_iff.mp htext.symm
        cases hmatch
      · rw [lengths]
        constructor
        · intro h
          split_ifs at h with hc
          · obtain ⟨m, hm, rfl⟩ := List.mem_map.mp h
            obtain ⟨mid, rest, rfl, rfl, hmatch⟩ := ih.mp hm
            exact ⟨c :: mid, rest, rfl, rfl, .one hc hmatch⟩
          · simp at h
        · rintro ⟨mid, rest, htext, rfl, hmatch⟩
          cases hmatch with
          | one hc hmatch =>
            obtain ⟨rfl, rfl⟩ := List.cons.inj htext
            rw [if_pos hc]
            exact List.mem_map_of_mem (ih.mpr ⟨_, rest, rfl, rfl, hmatch⟩)
    · rw [lengths, List.mem_flatMap]
      constructor
      · rintro ⟨k, hk, h⟩
        obtain ⟨m, hm, rfl⟩ := List.mem_map.mp h
        obtain ⟨mid, rest, hdrop, rfl, hmatch⟩ := ih.mp hm
        have hk : k ≤ (text.takeWhile accepts).length := Nat.le_of_lt_succ (List.mem_range.mp hk)
        have htake : text.take k <+: text.takeWhile accepts :=
          List.prefix_of_prefix_length_le (List.take_prefix k text) (List.takeWhile_prefix accepts)
            ((List.length_take_le k text).trans hk)
        refine ⟨text.take k ++ mid, rest, ?_, ?_, matches_starred_iff.mpr
          ⟨text.take k, mid, rfl, fun c hc => List.mem_takeWhile_imp (htake.subset hc), hmatch⟩⟩
        · rw [List.append_assoc, ← hdrop, List.take_append_drop]
        · have hlength : k ≤ text.length := hk.trans (List.takeWhile_prefix accepts).length_le
          rw [List.length_append, List.length_take_of_le hlength, Nat.add_comm]
      · rintro ⟨mid, rest, rfl, rfl, hmatch⟩
        obtain ⟨run, mid, rfl, hrun, hmatch⟩ := matches_starred_iff.mp hmatch
        refine ⟨run.length, ?_, List.mem_map.mpr
          ⟨mid.length, ih.mpr ⟨mid, rest, ?_, rfl, hmatch⟩, ?_⟩⟩
        · rw [List.append_assoc, List.takeWhile_append_of_pos hrun, List.mem_range,
            List.length_append]
          omega
        · rw [List.append_assoc, List.drop_left]
        · rw [List.length_append, Nat.add_comm]

theorem matchLength_eq_some_iff :
    matchLength items text = some n ↔
      n ∈ lengths items text ∧ ∀ m ∈ lengths items text, m ≤ n := by
  rw [matchLength, List.max?_eq_some_iff]

theorem isSome_matchLength_iff :
    (matchLength items text).isSome = true ↔
      ∃ mid rest, text = mid ++ rest ∧ Matches items mid := by
  rw [matchLength, List.isSome_max?_iff]
  constructor
  · intro hne
    obtain ⟨n, hn⟩ := List.exists_mem_of_ne_nil _ hne
    obtain ⟨mid, rest, h, -, hmatch⟩ := mem_lengths_iff.mp hn
    exact ⟨mid, rest, h, hmatch⟩
  · rintro ⟨mid, rest, h, hmatch⟩
    exact List.ne_nil_of_mem (mem_lengths_iff.mpr ⟨mid, rest, h, rfl, hmatch⟩)

theorem matchLength_eq_none_iff :
    matchLength items text = none ↔ ∀ mid rest, text = mid ++ rest → ¬ Matches items mid := by
  rw [← Option.not_isSome_iff_eq_none, isSome_matchLength_iff]
  push Not
  rfl

@[simp] theorem matchLength_nil : matchLength [] text = some 0 := rfl

theorem max?_map_succ (ns : List Nat) : (ns.map (· + 1)).max? = ns.max?.map (· + 1) := by
  rcases hmax : ns.max? with _ | n
  · rw [List.max?_eq_none_iff.mp hmax]
    rfl
  · obtain ⟨hmem, hle⟩ := List.max?_eq_some_iff.mp hmax
    refine List.max?_eq_some_iff.mpr ⟨List.mem_map_of_mem hmem, fun m hm => ?_⟩
    obtain ⟨k, hk, rfl⟩ := List.mem_map.mp hm
    exact Nat.succ_le_succ (hle k hk)

/-- **A pattern that begins with a text.** -/
theorem matchLength_literals_append :
    matchLength (literals text ++ items) line =
      if text <+: line then (matchLength items (line.drop text.length)).map (· + text.length)
      else none := by
  induction text generalizing line with
  | nil => simp [literals]
  | cons c text ih =>
    rcases line with _ | ⟨d, line⟩
    · rw [if_neg (by simp)]
      rfl
    · have hstep : matchLength (literals (c :: text) ++ items) (d :: line) =
          if d = c then (matchLength (literals text ++ items) line).map (· + 1) else none := by
        rw [matchLength, matchLength, ← max?_map_succ]
        show (if (d == c) = true then _ else []).max? = _
        simp only [beq_iff_eq]
        split_ifs <;> rfl
      rw [hstep, ih]
      simp only [List.cons_prefix_cons, List.length_cons, List.drop_succ_cons]
      by_cases hdc : d = c
      · rw [if_pos hdc]
        by_cases hstarts : text <+: line
        · rw [if_pos hstarts, if_pos ⟨hdc.symm, hstarts⟩, Option.map_map]
          rfl
        · rw [if_neg hstarts, if_neg fun h => hstarts h.2, Option.map_none]
      · rw [if_neg hdc, if_neg fun h => hdc h.1.symm]

/-- A pattern that ends with any number of a character. -/
theorem matchLength_many {c : Char} :
    matchLength [Item.many c] line = some (line.takeWhile (· == c)).length := by
  refine matchLength_eq_some_iff.mpr ⟨?_, fun m hm => ?_⟩
  · refine mem_lengths_iff.mpr ⟨_, _, (List.takeWhile_append_dropWhile).symm, rfl, ?_⟩
    exact matches_starred_iff.mpr
      ⟨_, [], (List.append_nil _).symm, fun d hd => List.mem_takeWhile_imp (p := (· == c)) hd, .nil⟩
  · obtain ⟨mid, rest, rfl, rfl, hmatch⟩ := mem_lengths_iff.mp hm
    obtain ⟨run, mid, rfl, hrun, hmatch⟩ := matches_starred_iff.mp hmatch
    obtain rfl := matches_nil_iff.mp hmatch
    rw [List.append_nil, List.takeWhile_append_of_pos hrun, List.length_append]
    exact Nat.le_add_right _ _

/-- Without stars all matches have one length. -/
theorem Matches.length_eq (h : Matches items text) (hstar : ∀ item ∈ items, item.starred = false) :
    text.length = items.length := by
  induction h with
  | nil => rfl
  | one _ _ ih =>
    rw [List.length_cons, List.length_cons, ih fun item h => hstar item (List.mem_cons_of_mem _ h)]
  | skip _ _ => exact absurd (hstar _ List.mem_cons_self) (by simp)
  | more _ _ _ => exact absurd (hstar _ List.mem_cons_self) (by simp)

theorem matchLength_of_matches (h : Matches items text) (hstar : ∀ item ∈ items, item.starred = false)
    (rest : List Char) : matchLength items (text ++ rest) = some text.length := by
  refine matchLength_eq_some_iff.mpr ⟨mem_lengths_iff.mpr ⟨text, rest, rfl, rfl, h⟩, fun m hm => ?_⟩
  obtain ⟨mid, _, -, rfl, hmid⟩ := mem_lengths_iff.mp hm
  rw [hmid.length_eq hstar, h.length_eq hstar]

end Matching

/-! ## Commands -/

/-- A substitution, of the first match or of each. -/
structure Substitution where
  pattern : Pattern
  replacement : List Char
  everywhere : Bool

/-- The first match is replaced. -/
def replaceFirst (items : List Item) (replacement : List Char) : List Char → List Char
  | [] => if (matchLength items []).isSome then replacement else []
  | c :: text =>
    match matchLength items (c :: text) with
    | some n => replacement ++ (c :: text).drop n
    | none => c :: replaceFirst items replacement text

/-- Every match is replaced. The first argument counts the characters of a match that are still to be
passed; an empty match right after another one is none. -/
def replaceEach (items : List Item) (replacement : List Char) : Nat → Bool → List Char → List Char
  | _, afterMatch, [] =>
    if (matchLength items []).isSome && !afterMatch then replacement else []
  | n + 1, _, _ :: text => replaceEach items replacement n true text
  | 0, afterMatch, c :: text =>
    match matchLength items (c :: text) with
    | some (n + 1) => replacement ++ replaceEach items replacement n true text
    | some 0 =>
      (if afterMatch then [] else replacement) ++ c :: replaceEach items replacement 0 false text
    | none => c :: replaceEach items replacement 0 false text

/-- What a substitution makes of a line. -/
def Substitution.apply (s : Substitution) (line : List Char) : List Char :=
  if s.pattern.atStart then
    match matchLength s.pattern.items line with
    | some n => s.replacement ++ line.drop n
    | none => line
  else if s.everywhere then replaceEach s.pattern.items s.replacement 0 false line
  else replaceFirst s.pattern.items s.replacement line

/-- A command, for the lines where its address is found. -/
inductive Command where
  | substitute (address : Option Pattern) (s : Substitution)
  | delete (address : Pattern)

/-- What is left of a line. -/
def Command.run : Command → List Char → Option (List Char)
  | .substitute none s, line => some (s.apply line)
  | .substitute (some address) s, line => some (if address.found line then s.apply line else line)
  | .delete address, line => if address.found line then none else some line

/-! ## Scripts -/

/-- The characters that are no items of their own in a pattern. -/
def patternSpecial (c : Char) : Bool := ['\x5c', '.', '*', '[', ']', '^', '$'].contains c

/-- The characters that do not stand for themselves in a replacement. -/
def replacementSpecial (c : Char) : Bool := ['\x5c', '&', '\n'].contains c

/-- The characters of the class `[[:space:]]`. -/
def isSpace (c : Char) : Bool := [' ', '\t', '\n', '\x0b', '\x0c', '\r'].contains c

/-- The text up to the separator; a backslash before the separator is taken away. -/
def readPart (separator : Char) : List Char → Option (List Char × List Char)
  | [] => none
  | '\x5c' :: c :: text =>
    (readPart separator text).map fun (part, rest) =>
      (if c = separator then c :: part else '\x5c' :: c :: part, rest)
  | c :: text =>
    if c = separator then some ([], text)
    else (readPart separator text).map fun (part, rest) => (c :: part, rest)

/-- The items of a pattern; there are none for what is not described here. -/
def parseItems : List Char → Option (List Item)
  | [] => some []
  | '[' :: '[' :: ':' :: 's' :: 'p' :: 'a' :: 'c' :: 'e' :: ':' :: ']' :: ']' :: text =>
    (parseItems text).map fun items => ⟨isSpace, false⟩ :: items
  | '.' :: '*' :: text => (parseItems text).map fun items => ⟨fun _ => true, true⟩ :: items
  | '.' :: text => (parseItems text).map fun items => Item.any :: items
  | c :: '*' :: text =>
    if patternSpecial c then none else (parseItems text).map fun items => Item.many c :: items
  | c :: text =>
    if patternSpecial c then none else (parseItems text).map fun items => Item.literal c :: items

/-- The pattern that a text denotes. -/
def parsePattern : List Char → Option Pattern
  | [] => none
  | '^' :: text => (parseItems text).map fun items => ⟨true, items⟩
  | text => (parseItems text).map fun items => ⟨false, items⟩

/-- The substitution after its address. -/
def parseSubstitution : List Char → Option Substitution
  | 's' :: separator :: text => do
    let (regex, text) ← readPart separator text
    let (replacement, flags) ← readPart separator text
    let pattern ← parsePattern regex
    if replacement.any replacementSpecial then none
    else if flags = [] then some ⟨pattern, replacement, false⟩
    else if flags = ['g'] then some ⟨pattern, replacement, true⟩
    else none
  | _ => none

/-- **The command that a script denotes.** -/
def parseCommand : List Char → Option Command
  | '/' :: text => do
    let (regex, text) ← readPart '/' text
    let address ← parsePattern regex
    if text = ['d'] then some (.delete address)
    else (parseSubstitution (text.dropWhile (· == ' '))).map (.substitute (some address))
  | '\x5c' :: separator :: text => do
    let (regex, text) ← readPart separator text
    let address ← parsePattern regex
    if text = ['d'] then some (.delete address)
    else (parseSubstitution (text.dropWhile (· == ' '))).map (.substitute (some address))
  | text => (parseSubstitution text).map (.substitute none)

/-! ## The lines of a text -/

/-- Lines that are ended by a newline, and what follows the last newline. -/
def unlines (ls : List (List Char)) (last : List Char) : List Char :=
  ls.flatMap (· ++ ['\n']) ++ last

/-- The lines that are ended by a newline. -/
def ended (text : List Char) : List (List Char) := (text.splitOn '\n').dropLast

/-- What follows the last newline. -/
def unended (text : List Char) : List Char := (text.splitOn '\n').getLastD []

/-- The lines of a text; what follows the last newline is a line if there is something. -/
def textLines (text : List Char) : List (List Char) :=
  ended text ++ if unended text = [] then [] else [unended text]

/-- **An edit of each line of a text.** -/
def editText (f : List Char → Option (List Char)) (text : List Char) : List Char :=
  unlines ((ended text).filterMap f)
    (if unended text = [] then [] else (f (unended text)).getD [])

/-! ## What the commands do -/

section Commands

variable {items : List Item} {text line replacement : List Char}

/-- A text that stands for itself is found where it occurs. -/
theorem matches_literals_iff : Matches (literals text) line ↔ line = text := by
  induction text generalizing line with
  | nil => exact matches_nil_iff
  | cons c text ih =>
    constructor
    · intro h
      cases h with
      | one hc h => rw [ih.mp h, beq_iff_eq.mp hc]
    · rintro rfl
      exact .one (beq_self_eq_true c) (ih.mpr rfl)

theorem found_iff :
    (Pattern.mk false items).found line = true ↔
      ∃ before mid after, line = before ++ mid ++ after ∧ Matches items mid := by
  simp only [Pattern.found, Bool.false_eq_true, if_false, List.any_eq_true, List.mem_tails,
    isSome_matchLength_iff]
  constructor
  · rintro ⟨text, ⟨before, rfl⟩, mid, after, rfl, hmatch⟩
    exact ⟨before, mid, after, (List.append_assoc _ _ _).symm, hmatch⟩
  · rintro ⟨before, mid, after, rfl, hmatch⟩
    exact ⟨mid ++ after, ⟨before, (List.append_assoc _ _ _).symm⟩, mid, after, rfl, hmatch⟩

theorem found_literals_iff : (Pattern.mk false (literals text)).found line = true ↔ text <:+: line := by
  simp only [found_iff, matches_literals_iff]
  constructor
  · rintro ⟨before, _, after, rfl, rfl⟩
    exact ⟨before, after, rfl⟩
  · rintro ⟨before, after, rfl⟩
    exact ⟨before, text, after, rfl, rfl⟩

/-- **A text at the start of the line, and the run of a character after it, are replaced.** -/
theorem apply_atStart_many {c : Char} {everywhere : Bool} :
    (Substitution.mk ⟨true, literals text ++ [Item.many c]⟩ replacement everywhere).apply line =
      if text <+: line then replacement ++ (line.drop text.length).dropWhile (· == c) else line := by
  simp only [Substitution.apply, if_true, matchLength_literals_append, matchLength_many,
    Option.map_some]
  split_ifs with hstarts
  · obtain ⟨rest, rfl⟩ := hstarts
    have hrun : rest.drop (rest.takeWhile (· == c)).length = rest.dropWhile (· == c) := by
      conv_lhs => arg 2; rw [← List.takeWhile_append_dropWhile (p := (· == c)) (l := rest)]
      exact List.drop_left
    simp only [List.drop_left, Nat.add_comm, ← List.drop_drop, hrun]
  · rfl

/-- A text at the start of the line is replaced. -/
theorem apply_atStart {everywhere : Bool} :
    (Substitution.mk ⟨true, literals text⟩ replacement everywhere).apply line =
      if text <+: line then replacement ++ line.drop text.length else line := by
  have h := @matchLength_literals_append [] text line
  rw [List.append_nil] at h
  simp only [Substitution.apply, if_true, h, matchLength_nil, Option.map_some, Nat.zero_add]
  split_ifs <;> rfl

theorem replaceFirst_of_matchLength {n : Nat} (h : matchLength items line = some n) :
    replaceFirst items replacement line = replacement ++ line.drop n := by
  rcases line with _ | ⟨c, line⟩
  · rw [replaceFirst, h, List.drop_nil, List.append_nil]
    rfl
  · rw [replaceFirst, h]

/-- The characters after a replacement are those of the replacement and of the line. -/
theorem mem_replaceFirst {c : Char} (h : c ∈ replaceFirst items replacement line) :
    c ∈ replacement ∨ c ∈ line := by
  induction line with
  | nil =>
    rw [replaceFirst] at h
    split_ifs at h
    · exact .inl h
    · exact .inr h
  | cons d line ih =>
    rw [replaceFirst] at h
    split at h
    · exact (List.mem_append.mp h).imp id List.mem_of_mem_drop
    · rcases List.mem_cons.mp h with rfl | h
      · exact .inr List.mem_cons_self
      · exact (ih h).imp id (List.mem_cons_of_mem d)

/-- The same of all replacements. -/
theorem mem_replaceEach {c : Char} {n : Nat} {afterMatch : Bool}
    (h : c ∈ replaceEach items replacement n afterMatch line) : c ∈ replacement ∨ c ∈ line := by
  induction line generalizing n afterMatch with
  | nil =>
    rw [replaceEach] at h
    split_ifs at h
    · exact .inl h
    · exact .inr h
  | cons d line ih =>
    rcases n with _ | n
    · rw [replaceEach] at h
      split at h
      · exact (List.mem_append.mp h).elim .inl fun h => (ih h).imp id (List.mem_cons_of_mem d)
      · rcases List.mem_append.mp h with h | h
        · split_ifs at h
          · simp at h
          · exact .inl h
        · rcases List.mem_cons.mp h with rfl | h
          · exact .inr List.mem_cons_self
          · exact (ih h).imp id (List.mem_cons_of_mem d)
      · rcases List.mem_cons.mp h with rfl | h
        · exact .inr List.mem_cons_self
        · exact (ih h).imp id (List.mem_cons_of_mem d)
    · rw [replaceEach] at h
      exact (ih h).imp id (List.mem_cons_of_mem d)

/-- A pattern that begins with a character is not found in a line without it. -/
theorem replaceFirst_of_not_mem {c : Char} (h : c ∉ line) :
    replaceFirst (Item.literal c :: items) replacement line = line := by
  induction line with
  | nil => rfl
  | cons d line ih =>
    obtain ⟨hne, hline⟩ := List.ne_and_not_mem_of_not_mem_cons h
    have hnone : matchLength (Item.literal c :: items) (d :: line) = none := by
      rw [matchLength, Item.literal, lengths, if_neg (by simpa using Ne.symm hne)]
      rfl
    rw [replaceFirst, hnone]
    exact congrArg (d :: ·) (ih hline)

/-- Every occurrence of a character is taken out. -/
theorem replaceEach_literal {c : Char} {afterMatch : Bool} :
    replaceEach [Item.literal c] [] 0 afterMatch line = line.filter (· ≠ c) := by
  induction line generalizing afterMatch with
  | nil => rfl
  | cons d line ih =>
    by_cases hdc : d = c
    · have hone : matchLength [Item.literal c] (d :: line) = some (0 + 1) := by
        rw [matchLength, Item.literal, lengths, if_pos (by simpa using hdc)]
        rfl
      rw [replaceEach, hone]
      simp [ih, hdc]
    · have hnone : matchLength [Item.literal c] (d :: line) = none := by
        rw [matchLength, Item.literal, lengths, if_neg (by simpa using hdc)]
        rfl
      rw [replaceEach, hnone]
      simp [ih, hdc]

/-- The characters of a match are passed. -/
theorem replaceEach_succ {n : Nat} {afterMatch : Bool} (h : n < line.length) :
    replaceEach items replacement (n + 1) afterMatch line =
      replaceEach items replacement 0 true (line.drop (n + 1)) := by
  induction n generalizing line afterMatch with
  | zero =>
    obtain ⟨c, line, rfl⟩ := List.exists_cons_of_length_pos h
    rw [replaceEach, List.drop_succ_cons, List.drop_zero]
  | succ n ih =>
    obtain ⟨c, line, rfl⟩ := List.exists_cons_of_length_pos (Nat.zero_lt_of_lt h)
    rw [replaceEach, List.drop_succ_cons, ih (Nat.lt_of_succ_lt_succ h)]

/-- A match is replaced, and what follows it is edited. -/
theorem replaceEach_of_matchLength {n : Nat} {afterMatch : Bool}
    (h : matchLength items line = some (n + 1)) (hlength : n < line.length) :
    replaceEach items replacement 0 afterMatch line =
      replacement ++ replaceEach items replacement 0 true (line.drop (n + 1)) := by
  obtain ⟨c, line, rfl⟩ := List.exists_cons_of_length_pos (Nat.zero_lt_of_lt hlength)
  rw [replaceEach, h]
  simp only [List.drop_succ_cons]
  rcases n with _ | n
  · rfl
  · exact congrArg (replacement ++ ·) (replaceEach_succ (Nat.lt_of_succ_lt_succ hlength))

/-- A text where no match begins stays in front. -/
theorem replaceEach_append {before : List Char}
    (h : ∀ text, text <:+ before → text ≠ [] → matchLength items (text ++ line) = none) :
    replaceEach items replacement 0 false (before ++ line) =
      before ++ replaceEach items replacement 0 false line := by
  induction before with
  | nil => rfl
  | cons c before ih =>
    have hnone := h (c :: before) List.suffix_rfl (List.cons_ne_nil _ _)
    rw [List.cons_append] at hnone
    rw [List.cons_append, replaceEach, hnone, List.cons_append]
    exact congrArg (c :: ·) (ih fun text htext hne => h text (htext.trans (List.suffix_cons _ _)) hne)

/-- Where no match begins, nothing changes. -/
theorem replaceEach_of_none {afterMatch : Bool}
    (h : ∀ text, text <:+ line → matchLength items text = none) :
    replaceEach items replacement 0 afterMatch line = line := by
  induction line generalizing afterMatch with
  | nil =>
    rw [replaceEach, h [] List.suffix_rfl]
    rfl
  | cons c line ih =>
    rw [replaceEach, h (c :: line) List.suffix_rfl]
    exact congrArg (c :: ·) (ih fun text htext => h text (htext.trans (List.suffix_cons _ _)))

end Commands

/-! ## What the scripts denote -/

section Scripts

variable {separator : Char} {part text : List Char}

theorem readPart_cons {c : Char} (hescape : c ≠ '\x5c') :
    readPart separator (c :: text) = if c = separator then some ([], text)
      else (readPart separator text).map fun (part, rest) => (c :: part, rest) := by
  rw [readPart.eq_def]
  split <;> simp_all

/-- A part without the separator and without a backslash. -/
theorem readPart_append (hescape : '\x5c' ∉ separator :: part) (hseparator : separator ∉ part) :
    readPart separator (part ++ separator :: text) = some (part, text) := by
  induction part with
  | nil =>
    rw [List.nil_append, readPart_cons fun h => hescape (h ▸ List.mem_cons_self), if_pos rfl]
  | cons c part ih =>
    simp only [List.mem_cons, not_or] at hescape hseparator ih
    rw [List.cons_append, readPart_cons (Ne.symm hescape.2.1), if_neg (Ne.symm hseparator.1),
      ih ⟨hescape.1, hescape.2.2⟩ hseparator.2]
    rfl

theorem parseItems_cons {c : Char} (hc : patternSpecial c = false) (htext : text.head? ≠ some '*') :
    parseItems (c :: text) = (parseItems text).map (Item.literal c :: ·) := by
  rw [parseItems.eq_def]
  split
  · simp_all
  · simp_all [patternSpecial]
  · simp_all [patternSpecial]
  · simp_all [patternSpecial]
  · simp_all
  · simp_all

/-- A text of characters that stand for themselves. -/
theorem parseItems_literals_append (h : ∀ c ∈ part, patternSpecial c = false)
    (htext : text.head? ≠ some '*') :
    parseItems (part ++ text) = (parseItems text).map (literals part ++ ·) := by
  induction part with
  | nil => simp [literals]
  | cons c part ih =>
    obtain ⟨hc, hpart⟩ := List.forall_mem_cons.mp h
    have hhead : (part ++ text).head? ≠ some '*' := by
      rcases part with _ | ⟨d, part⟩
      · exact htext
      · rintro ⟨⟩
        exact absurd (hpart '*' List.mem_cons_self) (by decide)
    rw [List.cons_append, parseItems_cons hc hhead, ih hpart, Option.map_map]
    rfl

/-- **A script that deletes** the lines in which a text occurs. -/
theorem parseCommand_delete {text : List Char} (hne : text ≠ [])
    (htext : ∀ c ∈ text, patternSpecial c = false ∧ c ≠ '/') :
    parseCommand ('/' :: (text ++ '/' :: ['d'])) = some (.delete ⟨false, literals text⟩) := by
  have hslash : '/' ∉ text := fun h => (htext _ h).2 rfl
  have hescape : '\x5c' ∉ '/' :: text := by
    rw [List.mem_cons, not_or]
    exact ⟨by decide, fun h => absurd (htext _ h).1 (by decide)⟩
  have hitems : parseItems text = some (literals text) := by
    have h := @parseItems_literals_append text [] (fun c hc => (htext c hc).1) (by simp)
    simpa [parseItems] using h
  have hpattern : parsePattern text = some ⟨false, literals text⟩ := by
    obtain ⟨c, rest, rfl⟩ := List.exists_cons_of_ne_nil hne
    have hc : c ≠ '^' := fun h => absurd (htext c List.mem_cons_self).1 (by rw [h]; decide)
    rw [parsePattern, hitems, Option.map_some]
    · simp
    · exact fun _ h => hc (List.cons.inj h).1
  have hstart (rest : List Char) : parseCommand ('/' :: rest) = (do
      let (regex, text) ← readPart '/' rest
      let address ← parsePattern regex
      if text = ['d'] then some (.delete address)
      else (parseSubstitution (text.dropWhile (· == ' '))).map (.substitute (some address))) := rfl
  rw [hstart, readPart_append hescape hslash]
  simp only [Option.bind_eq_bind, Option.bind_some, hpattern, if_true]

/-- **A script that substitutes in the lines of an address**, which has its own separator. -/
theorem parseCommand_addressed {address : Pattern} {substitution : Substitution} {regex : List Char}
    (hregex : '\x5c' ∉ separator :: regex) (hseparator : separator ∉ regex)
    (haddress : parsePattern regex = some address) (htext : text ≠ ['d'])
    (hsubstitution : parseSubstitution (text.dropWhile (· == ' ')) = some substitution) :
    parseCommand ('\x5c' :: separator :: (regex ++ separator :: text)) =
      some (.substitute (some address) substitution) := by
  have hstart (rest : List Char) : parseCommand ('\x5c' :: separator :: rest) = (do
      let (regex, text) ← readPart separator rest
      let address ← parsePattern regex
      if text = ['d'] then some (.delete address)
      else (parseSubstitution (text.dropWhile (· == ' '))).map (.substitute (some address))) := rfl
  rw [hstart, readPart_append hregex hseparator]
  simp only [Option.bind_eq_bind, Option.bind_some, haddress, htext, if_false, hsubstitution,
    Option.map_some]

/-- The items of a text where a dot stands for any character. -/
def dotted (text : List Char) : List Item :=
  text.map fun c => if c = '.' then Item.any else Item.literal c

/-- A text of dots and characters that stand for themselves, before the rest of a pattern. -/
theorem parseItems_dotted_append {rest : List Char} (h : ∀ c ∈ text, c = '.' ∨ patternSpecial c = false)
    (hrest : rest.head? ≠ some '*') :
    parseItems (text ++ rest) = (parseItems rest).map (dotted text ++ ·) := by
  induction text with
  | nil => simp [dotted]
  | cons c text ih =>
    obtain ⟨hc, htext⟩ := List.forall_mem_cons.mp h
    have hhead : (text ++ rest).head? ≠ some '*' := by
      rcases text with _ | ⟨d, text⟩
      · exact hrest
      · rintro ⟨⟩
        exact absurd (htext '*' List.mem_cons_self) (by decide)
    rw [List.cons_append]
    by_cases hdot : c = '.'
    · subst hdot
      have hstar : ∀ text', text ++ rest = '*' :: text' → False := fun _ h => hhead (by rw [h]; rfl)
      rw [parseItems.eq_4 _ hstar, ih htext, Option.map_map]
      simp [dotted, Function.comp_def]
    · rw [parseItems_cons (hc.resolve_left hdot) hhead, ih htext, Option.map_map]
      simp [dotted, hdot, Function.comp_def]

theorem parseItems_dotted (h : ∀ c ∈ text, c = '.' ∨ patternSpecial c = false) :
    parseItems text = some (dotted text) := by
  have h := @parseItems_dotted_append text [] h (by simp)
  simpa [parseItems] using h

/-- Such a text matches itself. -/
theorem matches_dotted (text : List Char) : Matches (dotted text) text := by
  induction text with
  | nil => exact .nil
  | cons c text ih =>
    by_cases hdot : c = '.'
    · have hitems : dotted (c :: text) = Item.any :: dotted text := by simp [dotted, hdot]
      exact hitems ▸ .one rfl ih
    · have hitems : dotted (c :: text) = Item.literal c :: dotted text := by simp [dotted, hdot]
      exact hitems ▸ .one (beq_self_eq_true c) ih

theorem starred_dotted {item : Item} (h : item ∈ dotted text) : item.starred = false := by
  obtain ⟨c, -, rfl⟩ := List.mem_map.mp h
  split_ifs <;> rfl

/-- A replacement of characters that stand for themselves. -/
def Replaceable (replacement : List Char) : Prop :=
  ∀ c ∈ replacement, c ≠ '/' ∧ c ≠ '\x5c' ∧ c ≠ '&' ∧ c ≠ '\n'

instance (replacement : List Char) : Decidable (Replaceable replacement) :=
  List.decidableBAll _ replacement

theorem Replaceable.append {r r' : List Char} (h : Replaceable r) (h' : Replaceable r') :
    Replaceable (r ++ r') :=
  List.forall_mem_append.mpr ⟨h, h'⟩

/-- **A script that substitutes**, after its first part has been read. -/
theorem parseCommand_of_readPart {text regex replacement flags : List Char} {pattern : Pattern}
    (hregex : readPart '/' text = some (regex, replacement ++ '/' :: flags))
    (hpattern : parsePattern regex = some pattern) (hreplacement : Replaceable replacement)
    (hflags : flags = [] ∨ flags = ['g']) :
    parseCommand ('s' :: '/' :: text) =
      some (.substitute none ⟨pattern, replacement, decide (flags = ['g'])⟩) := by
  have hpart : '/' ∉ replacement := fun h => (hreplacement _ h).1 rfl
  have hescape : '\x5c' ∉ '/' :: replacement := by
    rw [List.mem_cons, not_or]
    exact ⟨by decide, fun h => (hreplacement _ h).2.1 rfl⟩
  have hspecial : replacement.any replacementSpecial = false := by
    rw [List.any_eq_false]
    intro c hc
    obtain ⟨-, hbackslash, hampersand, hnewline⟩ := hreplacement c hc
    simp [replacementSpecial, hbackslash, hampersand, hnewline]
  have hsubstitution : parseSubstitution ('s' :: '/' :: text) =
      some ⟨pattern, replacement, decide (flags = ['g'])⟩ := by
    simp only [parseSubstitution, hregex, Option.bind_eq_bind, Option.bind_some,
      readPart_append hescape hpart, hpattern, hspecial, Bool.false_eq_true, if_false]
    rcases hflags with rfl | rfl <;> rfl
  have hstart (text : List Char) :
      parseCommand ('s' :: text) = (parseSubstitution ('s' :: text)).map (.substitute none) := rfl
  rw [hstart, hsubstitution, Option.map_some]

/-- A script whose pattern has neither a slash nor a backslash. -/
theorem parseCommand_substitute {regex replacement flags : List Char} {pattern : Pattern}
    (hregex : '\x5c' ∉ regex ∧ '/' ∉ regex) (hpattern : parsePattern regex = some pattern)
    (hreplacement : Replaceable replacement) (hflags : flags = [] ∨ flags = ['g']) :
    parseCommand ('s' :: '/' :: (regex ++ '/' :: (replacement ++ '/' :: flags))) =
      some (.substitute none ⟨pattern, replacement, decide (flags = ['g'])⟩) := by
  have hescape : '\x5c' ∉ '/' :: regex := by
    rw [List.mem_cons, not_or]
    exact ⟨by decide, hregex.1⟩
  exact parseCommand_of_readPart (readPart_append hescape hregex.2) hpattern hreplacement hflags

end Scripts

/-! ## The lines after an edit -/

section Lines

variable {ls : List (List Char)} {last text : List Char} {f g : List Char → Option (List Char)}

theorem splitOn_unlines (hls : ∀ l ∈ ls, '\n' ∉ l) (hlast : '\n' ∉ last) :
    (unlines ls last).splitOn '\n' = ls ++ [last] := by
  induction ls with
  | nil => exact List.splitOn_eq_singleton hlast
  | cons l ls ih =>
    obtain ⟨hl, hls⟩ := List.forall_mem_cons.mp hls
    have hcons : unlines (l :: ls) last = l ++ '\n' :: unlines ls last := by simp [unlines]
    rw [hcons, List.splitOn_append_cons_self_of_not_mem hl, ih hls, List.cons_append]

theorem ended_unlines (hls : ∀ l ∈ ls, '\n' ∉ l) (hlast : '\n' ∉ last) :
    ended (unlines ls last) = ls := by
  rw [ended, splitOn_unlines hls hlast, List.dropLast_concat]

theorem unended_unlines (hls : ∀ l ∈ ls, '\n' ∉ l) (hlast : '\n' ∉ last) :
    unended (unlines ls last) = last := by
  rw [unended, splitOn_unlines hls hlast, List.getLastD_concat]

theorem splitOn_eq_ended (text : List Char) : text.splitOn '\n' = ended text ++ [unended text] := by
  obtain ⟨ls, last, h⟩ := List.eq_nil_or_concat (text.splitOn '\n') |>.resolve_left
    (List.splitOn_ne_nil _ _)
  rw [ended, unended, h, List.concat_eq_append, List.dropLast_concat, List.getLastD_concat]

theorem textLines_unlines (hls : ∀ l ∈ ls, '\n' ∉ l) : textLines (unlines ls []) = ls := by
  rw [textLines, ended_unlines hls List.not_mem_nil, unended_unlines hls List.not_mem_nil, if_pos rfl,
    List.append_nil]

theorem unlines_ended_unended (text : List Char) : unlines (ended text) (unended text) = text := by
  have htext : ['\n'].intercalate (text.splitOn '\n') = text := List.intercalate_splitOn '\n'
  conv_rhs => rw [← htext, splitOn_eq_ended, intercalate_append_cons]
  rw [unlines, List.intercalate_singleton]

theorem not_mem_ended {l : List Char} (h : l ∈ ended text) : '\n' ∉ l :=
  not_mem_of_mem_splitOn (List.mem_of_mem_dropLast h)

theorem not_mem_unended (text : List Char) : '\n' ∉ unended text := by
  have h : unended text ∈ text.splitOn '\n' := by
    rw [splitOn_eq_ended]
    exact List.mem_concat_self
  exact not_mem_of_mem_splitOn h

theorem mem_textLines_iff {l : List Char} :
    l ∈ textLines text ↔ l ∈ ended text ∨ l ≠ [] ∧ l = unended text := by
  rw [textLines, List.mem_append]
  split_ifs with h
  · simp only [List.not_mem_nil, or_false, h]
    tauto
  · rw [List.mem_singleton]
    exact or_congr_right ⟨fun hl => ⟨hl ▸ h, hl⟩, And.right⟩

/-- Lines that are appended to ended lines. -/
theorem textLines_append (hended : unended text = []) (hls : ∀ l ∈ ls, '\n' ∉ l) :
    textLines (text ++ unlines ls []) = textLines text ++ ls ∧
      unended (text ++ unlines ls []) = [] := by
  have htext : text ++ unlines ls [] = unlines (ended text ++ ls) [] := by
    conv_lhs => rw [← unlines_ended_unended text, hended]
    simp [unlines]
  have hall : ∀ l ∈ ended text ++ ls, '\n' ∉ l :=
    List.forall_mem_append.mpr ⟨fun _ => not_mem_ended, hls⟩
  rw [htext, textLines, textLines, ended_unlines hall List.not_mem_nil,
    unended_unlines hall List.not_mem_nil, hended]
  simp

theorem not_mem_textLines {l : List Char} (h : l ∈ textLines text) : '\n' ∉ l := by
  rcases mem_textLines_iff.mp h with h | ⟨-, rfl⟩
  · exact not_mem_ended h
  · exact not_mem_unended text

/-- An edit that makes neither a newline nor an empty line out of a line. -/
structure Tame (f : List Char → Option (List Char)) : Prop where
  newline : ∀ l l', f l = some l' → '\n' ∉ l → '\n' ∉ l'
  nonempty : ∀ l, l ≠ [] → f l ≠ some []

theorem Tame.bind (hf : Tame f) (hg : Tame g) : Tame fun l => (f l).bind g where
  newline l l' h hl := by
    obtain ⟨l₁, hl₁, h⟩ := Option.bind_eq_some_iff.mp h
    exact hg.newline l₁ l' h (hf.newline l l₁ hl₁ hl)
  nonempty l hl h := by
    obtain ⟨l₁, hl₁, h⟩ := Option.bind_eq_some_iff.mp h
    exact hg.nonempty l₁ (fun hempty => hf.nonempty l hl (hempty ▸ hl₁)) h

/-- A replacement that is neither empty nor has a newline. -/
theorem tame_replaceFirst {items : List Item} {replacement : List Char} (hne : replacement ≠ [])
    (hnewline : '\n' ∉ replacement) : Tame fun l => some (replaceFirst items replacement l) where
  newline l l' h hl := by
    obtain rfl := Option.some.inj h
    exact fun h => (mem_replaceFirst h).elim hnewline hl
  nonempty l hl h := by
    have h := Option.some.inj h
    rcases l with _ | ⟨c, l⟩
    · exact hl rfl
    · rw [replaceFirst] at h
      split at h
      · exact hne (List.append_eq_nil_iff.mp h).1
      · cases h

/-- The ended lines after an edit, and what follows them. -/
theorem ended_editText (hf : Tame f) :
    ended (editText f text) = (ended text).filterMap f ∧
      unended (editText f text) =
        if unended text = [] then [] else (f (unended text)).getD [] := by
  have hls : ∀ l ∈ (ended text).filterMap f, '\n' ∉ l := by
    intro l hl
    obtain ⟨l₀, hl₀, hf₀⟩ := List.mem_filterMap.mp hl
    exact hf.newline l₀ l hf₀ (not_mem_ended hl₀)
  have hlast : '\n' ∉ if unended text = [] then [] else (f (unended text)).getD [] := by
    split_ifs
    · simp
    · rcases hl : f (unended text) with _ | l
      · simp
      · exact hf.newline _ l hl (not_mem_unended text)
  exact ⟨ended_unlines hls hlast, unended_unlines hls hlast⟩

theorem editText_unlines (hls : ∀ l ∈ ls, '\n' ∉ l) :
    editText f (unlines ls []) = unlines (ls.filterMap f) [] := by
  rw [editText, ended_unlines hls List.not_mem_nil, unended_unlines hls List.not_mem_nil, if_pos rfl]

/-- **The lines after an edit** are the lines, each edited. -/
theorem textLines_editText (hf : Tame f) :
    textLines (editText f text) = (textLines text).filterMap f := by
  obtain ⟨hended, hunended⟩ := @ended_editText text f hf
  rw [textLines, textLines, hended, hunended, List.filterMap_append]
  congr 1
  by_cases hempty : unended text = []
  · simp [hempty]
  · have hne := hf.nonempty _ hempty
    rcases hl : f (unended text) with _ | l
    · simp [hempty, hl]
    · have hl' : l ≠ [] := fun h => hne (by rw [hl, h])
      simp [hempty, hl, hl']

theorem tame_delete (address : Pattern) : Tame (Command.delete address).run := by
  constructor
  · intro l l' h hl
    obtain ⟨-, h⟩ := Option.ite_none_left_eq_some.mp h
    exact Option.some.inj h ▸ hl
  · intro l hl h
    obtain ⟨-, h⟩ := Option.ite_none_left_eq_some.mp h
    exact hl (Option.some.inj h)

/-- **What a deletion leaves**: the lines in which the text does not occur. -/
theorem mem_textLines_delete {w l : List Char} :
    l ∈ textLines (editText (Command.delete ⟨false, literals w⟩).run text) ↔
      l ∈ textLines text ∧ ¬ w <:+: l := by
  rw [textLines_editText (tame_delete _), List.mem_filterMap]
  simp only [Command.run, Option.ite_none_left_eq_some, found_literals_iff, Option.some.injEq]
  constructor
  · rintro ⟨_, hl, hfound, rfl⟩
    exact ⟨hl, hfound⟩
  · rintro ⟨hl, hfound⟩
    exact ⟨l, hl, hfound, rfl⟩

theorem unended_editText (hf : Tame f) (hended : unended text = []) :
    unended (editText f text) = [] := by
  rw [(ended_editText hf).2, if_pos hended]

/-- **Two edits in turn** are one edit. -/
theorem editText_editText (hf : Tame f) :
    editText g (editText f text) = editText (fun l => (f l).bind g) text := by
  obtain ⟨hended, hunended⟩ := @ended_editText text f hf
  rw [editText, hended, hunended, editText, List.filterMap_filterMap]
  congr 1
  by_cases hempty : unended text = []
  · simp [hempty]
  · have hne := hf.nonempty _ hempty
    rcases hl : f (unended text) with _ | l
    · simp [hempty]
    · have hl' : l ≠ [] := fun h => hne (by rw [hl, h])
      simp [hempty, hl']

end Lines

end Sed
