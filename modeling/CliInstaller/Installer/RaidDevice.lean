import CliInstaller.Gucc.StringUtils
import CliInstaller.General.Sorting
import Mathlib.Algebra.Ring.Int.Defs
import Mathlib.Algebra.Ring.Nat
import Mathlib.Data.Finset.Dedup

/-!
# The device name of a new RAID array

`raid_create_array` lists the arrays `/dev/md<n>` and takes the number after the first seven
characters of the listing. This is the number of the array that is listed first, which need not be
the greatest one.

Source: `src/tui.cpp`.

## Main definitions

* `stoi`, `substr`, `nextInt`: the calls of the library that may throw, and the addition
* `raidDeviceName`: the name that is chosen
* `MdArrays`, `MdArrays.listing`: a set of arrays in the order of `ls`, and what `ls` prints

## Main results

* `exists_mdArrays`: every set of arrays has a listing
* `raidDeviceName_fresh_iff`: when the name is that of a new array
-/

namespace CliInstaller

open Sorting

/-! ## The library -/

def intMax : Int := 2 ^ 31 - 1

/-- The characters `std::isspace` accepts. -/
def isSpace (c : Char) : Bool :=
  [' ', '\t', '\n', '\x0b', '\x0c', '\r'].contains c

/-- The sign of a number, and the text after it. -/
def readSign : Str → Int × Str
  | '-' :: rest => (-1, rest)
  | '+' :: rest => (1, rest)
  | rest => (1, rest)

/-- `std::stoi`: the digits after the white space and the sign; what follows them is ignored. -/
def stoi (str : Str) : Except Fault Int :=
  let (sign, rest) := readSign (str.dropWhile isSpace)
  let digits := rest.takeWhile Char.isDigit
  let value := sign * (Nat.ofDigitChars 10 digits 0 : Int)
  if digits.isEmpty then .error .invalidArgument
  else if value < -intMax - 1 ∨ intMax < value then .error .outOfRange
  else .ok value

/-- `str.substr(pos)` -/
def substr (str : Str) (pos : Nat) : Except Fault Str :=
  if str.length < pos then .error .outOfRange else .ok (str.drop pos)

/-- `num + 1` of an `int`. -/
def nextInt (num : Int) : Except Fault Int :=
  if num = intMax then .error .signedOverflow else .ok (num + 1)

/-! ## The name -/

/-- The part of `raid_create_array` that chooses the device, on the output of
`ls /dev/md* 2>/dev/null | grep -E '^/dev/md[0-9]+$'`. -/
def raidDeviceName (existingRaids : Str) : Except Fault Str :=
  if existingRaids.isEmpty then .ok (lit "/dev/md0")
  else do
    let lastNum ← substr existingRaids 7
    let num ← nextInt (← stoi lastNum)
    return lit "/dev/md" ++ formatInt num

/-- The array with a number. -/
def mdName (n : Nat) : Str := lit "/dev/md" ++ formatInt n

/-- A set of arrays, in the lexicographic order of their names. -/
structure MdArrays where
  numbers : List Nat
  ordered : numbers.Pairwise fun m n => mdName m < mdName n

/-- What the command prints: one name a line, without the last newline. -/
def MdArrays.listing (arrays : MdArrays) : Str := join (arrays.numbers.map mdName) '\n'

/-! ## Reading the listing -/

section Reading

variable {n : Nat} {rest : Str}

theorem mdName_injective : Function.Injective mdName := by
  intro m n h
  exact Int.ofNat.inj (formatInt_injective (List.append_cancel_left h))

theorem isDigit_of_mem_toDigits {c : Char} (h : c ∈ Nat.toDigits 10 n) : c.isDigit = true :=
  Nat.isDigit_of_mem_toDigits (by decide) (by decide) h

/-- A digit is no white space and no sign. -/
theorem readSign_digit {c : Char} (hc : c.isDigit = true) :
    readSign ((c :: rest).dropWhile isSpace) = (1, c :: rest) := by
  have hspace : isSpace c = false := by
    rw [Bool.eq_false_iff]
    intro h
    simp only [isSpace, List.contains_eq_mem, List.mem_cons, List.not_mem_nil, or_false,
      decide_eq_true_eq] at h
    rcases h with rfl | rfl | rfl | rfl | rfl | rfl <;> exact absurd hc (by decide)
  rw [List.dropWhile_cons_of_neg (by simp [hspace])]
  unfold readSign
  split
  · next heq => exact absurd ((List.cons.inj heq).1 ▸ hc) (by decide)
  · next heq => exact absurd ((List.cons.inj heq).1 ▸ hc) (by decide)
  · rfl

/-- **`stoi` reads a number** up to what is no digit. -/
theorem stoi_toDigits (hrest : ∀ c ∈ rest.head?, c.isDigit = false) :
    stoi (Nat.toDigits 10 n ++ rest) =
      if intMax < n then .error .outOfRange else .ok n := by
  have hne : Nat.toDigits 10 n ≠ [] := Nat.toDigits_ne_nil
  have htake : (Nat.toDigits 10 n ++ rest).takeWhile Char.isDigit = Nat.toDigits 10 n := by
    rw [List.takeWhile_append_of_pos fun c hc => isDigit_of_mem_toDigits hc]
    rcases rest with _ | ⟨c, rest⟩
    · simp
    · rw [List.takeWhile_cons_of_neg (by simp [hrest c rfl]), List.append_nil]
  have hsign : readSign ((Nat.toDigits 10 n ++ rest).dropWhile isSpace) =
      (1, Nat.toDigits 10 n ++ rest) := by
    obtain ⟨c, digits, hdigits⟩ := List.exists_cons_of_ne_nil hne
    rw [hdigits, List.cons_append]
    exact readSign_digit (@isDigit_of_mem_toDigits n c (hdigits ▸ List.mem_cons_self))
  have hlow : ¬ (n : Int) < -intMax - 1 := by
    unfold intMax
    omega
  simp only [stoi, hsign, htake, List.isEmpty_iff, hne, if_false, Nat.ofDigitChars_ten_toDigits,
    Int.one_mul, hlow, false_or]

/-- The name that is chosen after a listing that begins with an array. -/
theorem raidDeviceName_mdName (hrest : ∀ c ∈ rest.head?, c.isDigit = false) :
    raidDeviceName (mdName n ++ rest) =
      if intMax < n then .error .outOfRange
      else if (n : Int) = intMax then .error .signedOverflow
      else .ok (mdName (n + 1)) := by
  have hlength : (lit "/dev/md").length = 7 := by rw [lit_eq]; rfl
  have hne : (mdName n ++ rest).isEmpty = false := by
    rw [List.isEmpty_eq_false_iff, mdName, List.append_assoc]
    exact List.append_ne_nil_of_left_ne_nil (by simp [lit_eq]) _
  have hsubstr : substr (mdName n ++ rest) 7 = .ok (Nat.toDigits 10 n ++ rest) := by
    rw [substr, if_neg (by simp [mdName, hlength]), mdName, List.append_assoc, ← hlength,
      List.drop_left]
    rfl
  rw [raidDeviceName, hne, if_neg Bool.false_ne_true, hsubstr]
  simp only [bind, Except.bind, stoi_toDigits hrest, pure, Except.pure]
  by_cases hbig : intMax < (n : Int)
  · simp only [hbig, if_true]
  · simp only [hbig, if_false, nextInt]
    split_ifs
    · rfl
    · rfl

end Reading

/-! ## The listing -/

/-- A listing that is not empty begins with the first array, and a newline if there are more. -/
theorem MdArrays.listing_cons {arrays : MdArrays} {n : Nat} {ns : List Nat}
    (h : arrays.numbers = n :: ns) :
    ∃ rest : Str, arrays.listing = mdName n ++ rest ∧ ∀ c ∈ rest.head?, c.isDigit = false := by
  rw [listing, join_eq, h]
  rcases ns with _ | ⟨m, ns⟩
  · exact ⟨[], by simp, by simp⟩
  · refine ⟨'\n' :: ['\n'].intercalate ((m :: ns).map mdName), ?_, ?_⟩
    · rw [List.map_cons, List.map_cons, List.intercalate_cons_cons, List.append_assoc]
      rfl
    · rintro c ⟨⟩
      rfl

/-- **Every set of arrays has a listing.** -/
theorem exists_mdArrays (s : Finset Nat) : ∃ arrays : MdArrays, ∀ n, n ∈ arrays.numbers ↔ n ∈ s := by
  set numbers := Sorter.stable.byKey mdName s.toList with hnumbers
  have hperm : numbers.Perm s.toList := Sorter.byKey_perm _ _ _
  have hnodup : numbers.Nodup := hperm.nodup_iff.mpr s.nodup_toList
  have hordered : numbers.Pairwise fun m n => mdName m < mdName n := by
    refine ((Sorter.byKey_ordered _ _ _).and hnodup).imp ?_
    rintro m n ⟨hle, hne⟩
    exact lt_of_le_of_ne hle fun heq => hne (mdName_injective heq)
  refine ⟨⟨numbers, hordered⟩, fun n => ?_⟩
  rw [hperm.mem_iff, Finset.mem_toList]

/-- **The name is that of a new array** iff the number of the first array in the listing is below
`INT_MAX`, and there is no array with the next number. -/
theorem raidDeviceName_fresh_iff (arrays : MdArrays) :
    (∃ k, raidDeviceName arrays.listing = .ok (mdName k) ∧ k ∉ arrays.numbers) ↔
      ∀ n ∈ arrays.numbers.head?, (n : Int) < intMax ∧ n + 1 ∉ arrays.numbers := by
  rcases hnumbers : arrays.numbers with _ | ⟨n, ns⟩
  · refine iff_of_true ⟨0, ?_, List.not_mem_nil⟩ (by simp)
    rw [MdArrays.listing, hnumbers]
    have hzero : formatInt (0 : Nat) = ['0'] := rfl
    simp only [raidDeviceName, join, mdName, hzero, lit_eq]
    rfl
  · obtain ⟨rest, hlisting, hrest⟩ := MdArrays.listing_cons hnumbers
    rw [hlisting, raidDeviceName_mdName hrest]
    simp only [List.head?_cons, Option.mem_def, Option.some.injEq, forall_eq']
    constructor
    · rintro ⟨k, hname, hfresh⟩
      split_ifs at hname with hbig hmax
      obtain rfl := mdName_injective (Except.ok.inj hname)
      exact ⟨lt_of_le_of_ne (not_lt.mp hbig) hmax, hfresh⟩
    · rintro ⟨hlt, hfresh⟩
      rw [if_neg (not_lt.mpr hlt.le), if_neg hlt.ne]
      exact ⟨n + 1, rfl, hfresh⟩

/-- Two arrays, `/dev/md0` and `/dev/md1`. -/
def twoArrays : MdArrays := ⟨[0, 1], by decide +kernel⟩

/-- The name of the second array is chosen. -/
theorem raidDeviceName_twoArrays :
    raidDeviceName twoArrays.listing = .ok (mdName 1) ∧
      ¬ ∀ arrays : MdArrays,
        ∃ k, raidDeviceName arrays.listing = .ok (mdName k) ∧ k ∉ arrays.numbers := by
  have hname : raidDeviceName twoArrays.listing = .ok (mdName 1) := by decide +kernel
  refine ⟨hname, fun h => ?_⟩
  obtain ⟨k, hk, hfresh⟩ := h twoArrays
  obtain rfl := mdName_injective (Except.ok.inj (hname.symm.trans hk))
  exact hfresh (by decide)

end CliInstaller
