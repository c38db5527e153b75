import CliInstaller.General.Splitting
import CliInstaller.Cpp.Runtime

/-!
# `gucc::utils`: splitting and joining text

Source: `gucc/include/gucc/string_utils.hpp`, `gucc/src/string_utils.cpp`.

## Main definitions

* `makeSplitView`: the non-empty pieces between delimiters
* `makeMultiline`: the same as a vector, possibly reversed
* `join`: the index loop that joins lines
* `StringView`, `makeMultilineOfLines`: the overload that combines lines into one text
* `lines`: all lines of a text, the empty ones too

## Main results

* `makeSplitView_eq`, `join_eq`: the general splitting and joining they instantiate
* `makeMultiline_join`: splitting undoes joining, and joining normalises splitting
* `makeMultilineOfLines_reverse_iff`: when the lines are combined in reverse order
-/

namespace CliInstaller

open Splitting

/-- `utils::make_split_view`: split, then drop the empty pieces. -/
def makeSplitView (str : Str) (delim : Char) : List Str :=
  (splitView delim str).filter fun rng => rng ≠ []

theorem makeSplitView_eq (str : Str) (delim : Char) : makeSplitView str delim = pieces delim str :=
  filter_splitView delim str

/-- `utils::make_multiline(str, reverse, delim)` -/
def makeMultiline (str : Str) (reverse : Bool) (delim : Char) : List Str :=
  if reverse then (makeSplitView str delim).reverse else makeSplitView str delim

/-- All lines of a text. -/
def lines (text : Str) : List Str := text.splitOn '\n'

theorem lines_ne_nil (text : Str) : lines text ≠ [] := List.splitOn_ne_nil _ _

theorem intercalate_lines (text : Str) : ['\n'].intercalate (lines text) = text :=
  List.intercalate_splitOn '\n'

theorem filter_makeSplitView (text : Str) (q : Str → Bool) (hq : q [] = false) :
    (makeSplitView text '\n').filter q = (lines text).filter q := by
  rw [makeSplitView_eq, pieces, List.filter_filter, lines]
  apply List.filter_congr
  intro line _
  by_cases hl : line = []
  · simp [hl, hq]
  · simp [hl]

/-- `utils::join`: a loop over the indices that adds the delimiter after all lines but the
last. -/
def join (lines : List Str) (delim : Char) : Str :=
  lines.zipIdx.foldl
    (fun resultStr (line, i) =>
      let resultStr := resultStr ++ line
      if i < lines.length - 1 then resultStr ++ [delim] else resultStr) []

/-- The loop from index `i` on appends the join of the remaining lines. -/
theorem join_loop (delim : Char) (n : Nat) (acc : Str) (lines : List Str) (i : Nat)
    (hn : i + lines.length = n) :
    (lines.zipIdx i).foldl
        (fun resultStr (line, i) =>
          let resultStr := resultStr ++ line
          if i < n - 1 then resultStr ++ [delim] else resultStr) acc =
      acc ++ [delim].intercalate lines := by
  induction lines generalizing acc i with
  | nil => simp
  | cons line lines ih =>
    rw [List.zipIdx_cons, List.foldl_cons, ih _ (i + 1) (by simp at hn; omega)]
    rcases lines with _ | ⟨line', lines⟩
    · have hlast : ¬ i < n - 1 := by simp at hn; omega
      simp [hlast]
    · have hmore : i < n - 1 := by simp at hn; omega
      simp [hmore]

theorem join_eq (lines : List Str) (delim : Char) :
    join lines delim = [delim].intercalate lines := by
  simpa [join] using join_loop delim lines.length [] lines 0 (Nat.zero_add _)

/-- **Splitting undoes joining, and joining normalises splitting**: the lines of a join are read
back, and a text whose pieces are joined loses the delimiters at its ends and all but one of each
run; with `reverse` the pieces come in reverse order. -/
theorem makeMultiline_join (delim : Char) :
    (∀ lines : List Str, (∀ line ∈ lines, line ≠ [] ∧ delim ∉ line) →
        makeMultiline (join lines delim) false delim = lines) ∧
      ∀ str : Str, (∀ piece ∈ makeMultiline str false delim, piece ≠ [] ∧ delim ∉ piece) ∧
        join (makeMultiline str false delim) delim = collapsed delim str ∧
        makeMultiline str true delim = (makeMultiline str false delim).reverse := by
  have hpieces (str : Str) : makeMultiline str false delim = pieces delim str :=
    makeSplitView_eq str delim
  constructor
  · intro lines hlines
    rw [hpieces, join_eq, pieces_intercalate fun line hline => (hlines line hline).2]
    exact List.filter_eq_self.mpr fun line hline => by simpa using (hlines line hline).1
  · intro str
    refine ⟨fun piece hpiece => ?_, ?_, rfl⟩
    · rw [hpieces, mem_pieces] at hpiece
      exact ⟨hpiece.2, not_mem_of_mem_splitOn hpiece.1⟩
    · rw [hpieces, join_eq, intercalate_pieces]

/-- The words of a line that is indented, and has two blanks between them. -/
theorem makeMultiline_join_indented :
    makeMultiline (join [['a'], ['b']] ' ') false ' ' = [['a'], ['b']] ∧
      join (makeMultiline [' ', 'a', ' ', ' ', 'b'] false ' ') ' ' = ['a', ' ', 'b'] := by
  obtain ⟨hundoes, hnormalises⟩ := makeMultiline_join ' '
  refine ⟨hundoes [['a'], ['b']] (by decide), ?_⟩
  rw [(hnormalises [' ', 'a', ' ', ' ', 'b']).2.1]
  decide

/-! ## Combining lines -/

/-- A `std::string_view`: its characters, and what follows them in memory. -/
structure StringView where
  text : Str
  following : Str
  deriving DecidableEq, Repr

/-- The C string at `data()`, which ends at the first NUL, not at the end of the view. -/
def StringView.data (view : StringView) : Str :=
  (view.text ++ view.following).takeWhile (· ≠ '\x00')

/-- The view of a literal. -/
def StringView.ofLiteral (text : Str) : StringView := ⟨text, ['\x00']⟩

/-- `utils::make_multiline(multiline, reverse, delim)`, the overload that combines lines: what is
reversed is the text they make. -/
def makeMultilineOfLines (multiline : List Str) (reverse : Bool) (delim : StringView) : Str :=
  let res := multiline.foldl (fun res line => (res ++ line) ++ delim.data) []
  if reverse then res.reverse else res

/-- The loop appends each line with the delimiter after it. -/
theorem makeMultilineOfLines_eq (multiline : List Str) (reverse : Bool) (delim : StringView) :
    makeMultilineOfLines multiline reverse delim =
      if reverse then (multiline.flatMap (· ++ delim.data)).reverse
      else multiline.flatMap (· ++ delim.data) := by
  have hloop (acc : Str) :
      multiline.foldl (fun res line => (res ++ line) ++ delim.data) acc =
        acc ++ multiline.flatMap (· ++ delim.data) := by
    induction multiline generalizing acc with
    | nil => simp
    | cons line multiline ih =>
      rw [List.foldl_cons, ih, List.flatMap_cons]
      simp only [List.append_assoc]
  rw [makeMultilineOfLines, hloop, List.nil_append]

/-- **Combining in reverse is combining the reversed lines** iff each line with its delimiter reads
the same backwards. -/
theorem makeMultilineOfLines_reverse_iff (multiline : List Str) (delim : StringView) :
    makeMultilineOfLines multiline true delim =
        makeMultilineOfLines multiline.reverse false delim ↔
      ∀ line ∈ multiline, (line ++ delim.data).Palindrome := by
  have hparts : (∀ line ∈ multiline, (line ++ delim.data).Palindrome) ↔
      ∀ part ∈ (multiline.map (· ++ delim.data)).reverse, part.Palindrome := by
    simp
  rw [hparts, ← flatten_map_reverse_eq_iff, makeMultilineOfLines_eq, makeMultilineOfLines_eq,
    if_pos rfl, if_neg Bool.false_ne_true, List.flatMap_def, List.flatMap_def, List.reverse_flatten,
    List.map_reverse, List.map_reverse]

/-- One line of two characters, with the default delimiter. -/
theorem makeMultilineOfLines_twoChars :
    makeMultilineOfLines [['a', 'b']] true (.ofLiteral ['\n']) = ['\n', 'b', 'a'] ∧
      ¬ ∀ multiline delim, makeMultilineOfLines multiline true delim =
        makeMultilineOfLines multiline.reverse false delim := by
  refine ⟨rfl, fun h => ?_⟩
  exact absurd (h [['a', 'b']] (.ofLiteral ['\n'])) (by decide)

end CliInstaller
