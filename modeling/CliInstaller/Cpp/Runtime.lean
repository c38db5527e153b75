import Mathlib.Data.List.Forall2
import Mathlib.Data.List.Infix
import Mathlib.Data.List.Lex
import Mathlib.Data.Char

/-!
# Strings, formatting and faults of the C++ runtime

A string is the list of its characters, ordered lexicographically as `std::string` is. A call that
leaves the defined behaviour of the language (an exception out of a `noexcept` function, an empty
optional or an end iterator dereferenced, an index past the end) is a `Fault`.

## Main definitions

* `Str`: strings; `startsWith`, `contains`, `findStr`: `starts_with`, `contains`, `find`
* `padRight`, `formatInt`: the format specifiers `{:<n}` and `{}`
* `Fault`: the ways a call leaves the defined behaviour

## Main results

* `findStr_spec`, `exists_findStr_le`: `findStr` returns the first occurrence
* `bind_eq_ok`, `mapM_eq_ok`: when steps and loops succeed
* `foldl_append_entries`: what a loop that appends texts returns
-/

namespace CliInstaller

/-- A `std::string` or `std::string_view`. -/
abbrev Str := List Char

/-- A string literal. -/
@[irreducible] def lit (s : String) : Str := s.toList

theorem lit_eq (s : String) : lit s = s.toList := by rw [lit]

/-- A literal is the list of its characters; rewriting with this keeps the literal from being decoded
again. -/
theorem lit_ofList (s : Str) : lit (String.ofList s) = s := by rw [lit_eq, String.toList_ofList]

theorem nil_le (s : Str) : [] ≤ s := not_lt.mp (List.not_lt_nil s)

/-- The ways a call leaves the defined behaviour. -/
inductive Fault where
  /-- `std::out_of_range` leaves a `noexcept` function: `std::terminate` -/
  | outOfRange
  /-- an empty `std::optional` is dereferenced, or its value taken -/
  | emptyOptional
  /-- an end iterator is dereferenced -/
  | endIterator
  /-- an element past the end of a vector is accessed -/
  | indexPastEnd
  /-- `std::bad_variant_access` leaves a `noexcept` function: `std::terminate` -/
  | badVariantAccess
  /-- `std::invalid_argument` leaves a `noexcept` function: `std::terminate` -/
  | invalidArgument
  /-- an `int` operation leaves the range of the type -/
  | signedOverflow
  /-- a null pointer is dereferenced -/
  | nullPointer
  deriving DecidableEq, Repr

/-- A sequence of two steps succeeds iff both do. -/
theorem bind_eq_ok {ε α β : Type} {x : Except ε α} {f : α → Except ε β} {b : β} :
    x >>= f = .ok b ↔ ∃ a, x = .ok a ∧ f a = .ok b := by
  cases x <;> simp [bind, Except.bind]

/-- A loop succeeds iff its body does on every element. -/
theorem mapM_eq_ok {ε α β : Type} {f : α → Except ε β} {l : List α} {bs : List β} :
    l.mapM f = .ok bs ↔ List.Forall₂ (fun a b => f a = .ok b) l bs := by
  induction l generalizing bs with
  | nil => simp [pure, Except.pure, eq_comm]
  | cons a l ih =>
    simp only [List.mapM_cons, bind_eq_ok, ih, List.forall₂_cons_left_iff, pure, Except.pure,
      Except.ok.injEq]
    constructor
    · rintro ⟨b, hb, bs', hbs', rfl⟩
      exact ⟨b, bs', hb, hbs', rfl⟩
    · rintro ⟨b, bs', hb, hbs', rfl⟩
      exact ⟨b, hb, bs', hbs', rfl⟩

/-- A loop succeeds if its body does on every element, whatever it returns. -/
theorem exists_mapM_iff {ε α β : Type} {f : α → Except ε β} {l : List α} :
    (∃ bs, l.mapM f = .ok bs) ↔ ∀ a ∈ l, ∃ b, f a = .ok b := by
  simp only [mapM_eq_ok]
  induction l with
  | nil => simp
  | cons a l ih =>
    rw [List.forall_mem_cons, ← ih]
    constructor
    · rintro ⟨bs, hbs⟩
      obtain ⟨b, bs', hb, hbs', rfl⟩ := List.forall₂_cons_left_iff.mp hbs
      exact ⟨⟨b, hb⟩, bs', hbs'⟩
    · rintro ⟨⟨b, hb⟩, bs', hbs'⟩
      exact ⟨b :: bs', .cons hb hbs'⟩

/-- A loop that appends the text of each element that has an entry. -/
theorem foldl_append_entries {α β : Type} {entry : α → Option β} {text : β → Str}
    {body : Str → α → Str}
    (hbody : ∀ content a, body content a = content ++ ((entry a).map text).getD []) (l : List α)
    (content : Str) : l.foldl body content = content ++ (l.filterMap entry).flatMap text := by
  induction l generalizing content with
  | nil => simp
  | cons a l ih =>
    rw [List.foldl_cons, ih, hbody]
    rcases hentry : entry a with _ | e <;> simp [hentry]

/-- `str.starts_with(start)` -/
def startsWith (str start : Str) : Bool := start.isPrefixOf str

theorem startsWith_iff {str start : Str} : startsWith str start = true ↔ start <+: str :=
  List.isPrefixOf_iff_prefix

@[simp] theorem startsWith_append (start rest : Str) : startsWith (start ++ rest) start = true :=
  startsWith_iff.mpr (List.prefix_append _ _)

/-- `str.find(needle)`: the first offset at which `needle` occurs. -/
def findStr (needle : Str) : Str → Option Nat
  | [] => if needle = [] then some 0 else none
  | c :: str =>
    if startsWith (c :: str) needle then some 0 else (findStr needle str).map (· + 1)

/-- The offset found is an occurrence. -/
theorem findStr_spec {needle str : Str} {pos : Nat} (h : findStr needle str = some pos) :
    needle <+: str.drop pos := by
  induction str generalizing pos with
  | nil =>
    simp only [findStr] at h
    split_ifs at h with hn
    simp [hn]
  | cons c str ih =>
    simp only [findStr] at h
    split_ifs at h with hn
    · obtain rfl := Option.some.inj h
      exact startsWith_iff.mp hn
    · obtain ⟨q, hq, rfl⟩ := Option.map_eq_some_iff.mp h
      exact ih hq

/-- An occurrence is found, at its offset or before. -/
theorem exists_findStr_le (before needle after : Str) :
    ∃ pos ≤ before.length, findStr needle (before ++ needle ++ after) = some pos := by
  induction before with
  | nil =>
    refine ⟨0, le_rfl, ?_⟩
    rw [List.nil_append]
    rcases hs : needle ++ after with _ | ⟨c, str⟩
    · simp [findStr, (List.append_eq_nil_iff.mp hs).1]
    · rw [findStr, if_pos (hs ▸ startsWith_append needle after)]
  | cons c before ih =>
    obtain ⟨pos, hle, hpos⟩ := ih
    by_cases hc : startsWith (c :: before ++ needle ++ after) needle
    · exact ⟨0, Nat.zero_le _, by simp only [List.cons_append, findStr] at hc ⊢; rw [if_pos hc]⟩
    · refine ⟨pos + 1, by simpa using hle, ?_⟩
      simp only [List.cons_append, findStr] at hc ⊢
      rw [if_neg hc, hpos, Option.map_some]

/-- `str.contains(needle)` -/
def contains (str needle : Str) : Bool := (findStr needle str).isSome

theorem contains_of_occurs {str needle : Str} (h : needle <:+: str) :
    contains str needle = true := by
  obtain ⟨before, after, rfl⟩ := h
  obtain ⟨pos, -, hpos⟩ := exists_findStr_le before needle after
  rw [contains, hpos, Option.isSome_some]

theorem infix_of_contains {str needle : Str} (h : contains str needle = true) :
    needle <:+: str := by
  obtain ⟨pos, hpos⟩ := Option.isSome_iff_exists.mp h
  obtain ⟨after, hafter⟩ := findStr_spec hpos
  exact ⟨str.take pos, after, by rw [List.append_assoc, hafter, List.take_append_drop]⟩

theorem contains_iff {str needle : Str} : contains str needle = true ↔ needle <:+: str :=
  ⟨infix_of_contains, contains_of_occurs⟩

/-- `{:<width}`: fill with spaces on the right. -/
def padRight (width : Nat) (str : Str) : Str := str ++ List.replicate (width - str.length) ' '

/-- `{}` of an integer: its decimal digits, after a sign if it is negative. -/
def formatInt : Int → Str
  | .ofNat n => Nat.toDigits 10 n
  | .negSucc n => '-' :: Nat.toDigits 10 (n + 1)

/-- The integer that is written so. -/
def readInt : Str → Int
  | '-' :: digits => -(Nat.ofDigitChars 10 digits 0 : Int)
  | digits => (Nat.ofDigitChars 10 digits 0 : Int)

/-- **An integer is read back** from what is written. -/
theorem readInt_formatInt (n : Int) : readInt (formatInt n) = n := by
  cases n with
  | ofNat n =>
    rw [formatInt, readInt]
    · rw [Nat.ofDigitChars_ten_toDigits]
      rfl
    · intro digits h
      have hdigit : ('-' : Char).isDigit = true :=
        Nat.isDigit_of_mem_toDigits (by decide) (by decide) (h ▸ List.mem_cons_self)
      exact absurd hdigit (by decide)
  | negSucc n =>
    rw [formatInt, readInt, Nat.ofDigitChars_ten_toDigits]
    rfl

theorem formatInt_injective : Function.Injective formatInt :=
  Function.LeftInverse.injective readInt_formatInt

theorem isDigit_of_mem_formatInt {n : Int} {c : Char} (h : c ∈ formatInt n) :
    c.isDigit = true ∨ c = '-' := by
  cases n with
  | ofNat n => exact .inl (Nat.isDigit_of_mem_toDigits (by decide) (by decide) h)
  | negSucc n =>
    rcases List.mem_cons.mp h with rfl | h
    · exact .inr rfl
    · exact .inl (Nat.isDigit_of_mem_toDigits (by decide) (by decide) h)

end CliInstaller
