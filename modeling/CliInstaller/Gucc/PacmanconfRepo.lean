import CliInstaller.Cpp.Files
import CliInstaller.Gucc.StringUtils

/-!
# `gucc::detail::pacmanconf`: adding repositories to pacman.conf

New repositories are inserted one character before the first place where the text of the first
active header occurs. That place is searched in the whole file: it may lie at offset zero, where
there is nothing before it, or in an earlier line, which the insertion then breaks.

Source: `gucc/src/pacmanconf_repo.cpp`.

## Main definitions

* `isRepoHeader`: the active repository headers
* `pushReposFront`, `getRepoList`: the two functions
* `PushedFront`: what pushing to the front means

## Main results

* `pushReposFront_eq`: the file written, in terms of the insertion point
* `pushReposFront_iff`: when the repositories are pushed to the front
-/

namespace CliInstaller

open Splitting

/-- An active repository header. -/
def isRepoHeader (line : Str) : Bool :=
  !line.isEmpty && !startsWith line ['#'] && startsWith line ['['] &&
    !startsWith line (lit "[options]")

/-- `std::string::insert` -/
def insertStr (str : Str) (pos : Nat) (data : Str) : Str := str.take pos ++ data ++ str.drop pos

/-- `push_repos_front`. The insertion point is unsigned: `pos - 1` is past the end when `pos` is
zero, and `insert` then throws. -/
def pushReposFront (fs : FileSystem) (filePath value : Str) : Except Fault (Bool × FileSystem) :=
  let fileContent := readWholeFile fs filePath
  if fileContent.isEmpty then .ok (false, fs)
  else
    match (makeSplitView fileContent '\n').find? isRepoHeader with
    | none => .ok (false, fs)
    | some line =>
      match findStr line fileContent with
      | some (pos + 1) =>
        .ok <| createFileForOverwrite fs filePath <|
          insertStr fileContent pos (['\n'] ++ value ++ ['\n'])
      | _ => .error .outOfRange

def getRepoList (fs : FileSystem) (filePath : Str) : List Str :=
  let fileContent := readWholeFile fs filePath
  if fileContent.isEmpty then [] else (splitView '\n' fileContent).filter isRepoHeader

/-- The headers among the lines of a text. -/
def repoHeaders (text : Str) : List Str := (lines text).filter isRepoHeader

/-- The lines of a text that are not blank. -/
def nonBlank (text : Str) : List Str := pieces '\n' text

/-- `new` is `content` with the lines of `value` pushed to the front: no old line is lost or
moved, and the lines of `value` stand right before the first active header. -/
structure PushedFront (content value new : Str) : Prop where
  headers : repoHeaders new = repoHeaders value ++ repoHeaders content
  kept : (lines content).Sublist (lines new)
  placed : nonBlank new =
    (nonBlank content).takeWhile (fun line => !isRepoHeader line) ++ nonBlank value ++
      (nonBlank content).dropWhile fun line => !isRepoHeader line

theorem repoHeaders_eq (text : Str) : repoHeaders text = (nonBlank text).filter isRepoHeader := by
  rw [nonBlank, ← makeSplitView_eq, filter_makeSplitView text isRepoHeader rfl, repoHeaders]

theorem getRepoList_eq {fs : FileSystem} {path content : Str} (hc : fs.content path = some content)
    (hr : fs.readable path = true) : getRepoList fs path = repoHeaders content := by
  rw [getRepoList, readWholeFile_of_readable hc hr]
  by_cases hne : content = []
  · subst hne; rfl
  · simp [hne, splitView_of_ne_nil, repoHeaders, lines]

/-! ## The insertion point -/

section Insertion

variable {before after : Str} (value : Str)

theorem nonBlank_insert :
    nonBlank (before ++ (['\n'] ++ value ++ ['\n']) ++ after) =
      nonBlank before ++ nonBlank value ++ nonBlank after := by
  simp [nonBlank, pieces_append_cons]

theorem lines_insert :
    lines (before ++ (['\n'] ++ value ++ ['\n']) ++ after) =
      lines before ++ lines value ++ lines after := by
  simp [lines, List.splitOn_append_cons_self]

/-- The lines between the insertion point and the first header. -/
def gap (after : Str) : List Str := (nonBlank after).takeWhile fun line => !isRepoHeader line

/-- **Inserting before `after` pushes to the front** iff the insertion point is at the boundary of
a line and the lines of the value commute with those up to the header; `before` holds no header. -/
theorem pushedFront_insert_iff (hafter : after ≠ [])
    (hbefore : Boundary '\n' before after → ∀ line ∈ nonBlank before, isRepoHeader line = false) :
    PushedFront (before ++ after) value (before ++ (['\n'] ++ value ++ ['\n']) ++ after) ↔
      Boundary '\n' before after ∧ nonBlank value ++ gap after = gap after ++ nonBlank value := by
  by_cases hb : Boundary '\n' before after
  · have hsplit : nonBlank (before ++ after) = nonBlank before ++ nonBlank after :=
      pieces_append_of_boundary hb
    have htake : (nonBlank (before ++ after)).takeWhile (fun line => !isRepoHeader line) =
        nonBlank before ++ gap after := by
      rw [hsplit, List.takeWhile_append_of_pos (by simpa using hbefore hb), gap]
    have hdrop : (nonBlank (before ++ after)).dropWhile (fun line => !isRepoHeader line) =
        (nonBlank after).dropWhile fun line => !isRepoHeader line := by
      rw [hsplit, List.dropWhile_append_of_pos (by simpa using hbefore hb)]
    have hnone : (nonBlank before).filter isRepoHeader = [] := by
      simpa using hbefore hb
    have hafter' : nonBlank after =
        gap after ++ (nonBlank after).dropWhile fun line => !isRepoHeader line :=
      List.takeWhile_append_dropWhile.symm
    have hplaced : nonBlank before ++ nonBlank value ++ nonBlank after =
          nonBlank before ++ gap after ++ nonBlank value ++
            (nonBlank after).dropWhile (fun line => !isRepoHeader line) ↔
        nonBlank value ++ gap after = gap after ++ nonBlank value := by
      conv_lhs => lhs; rw [hafter']
      simp only [List.append_assoc, List.append_cancel_left_eq]
      rw [← List.append_assoc, ← List.append_assoc, List.append_left_inj]
    refine ⟨fun h => ⟨hb, hplaced.mp ?_⟩, fun h => ⟨?_, ?_, ?_⟩⟩
    · have := h.placed
      rwa [nonBlank_insert, htake, hdrop] at this
    · simp only [repoHeaders_eq, nonBlank_insert, hsplit, List.filter_append, hnone,
        List.nil_append]
    · rw [lines_insert]
      exact splitOn_append_sublist hb _
    · rw [nonBlank_insert, htake, hdrop, hplaced.mpr h.2]
  · refine iff_of_false (fun h => ?_) fun h => hb h.1
    have hcount := length_pieces_append hb hafter
    have hlength := congrArg List.length h.placed
    rw [nonBlank_insert] at hlength
    have hold := congrArg List.length (List.takeWhile_append_dropWhile
      (p := fun line => !isRepoHeader line) (l := nonBlank (before ++ after)))
    simp only [List.length_append, nonBlank] at hlength hold
    omega

end Insertion

/-- The first active header. -/
def firstHeader (content : Str) : Option Str := (lines content).find? isRepoHeader

theorem find?_makeSplitView (content : Str) :
    (makeSplitView content '\n').find? isRepoHeader = firstHeader content := by
  rw [← List.head?_filter, filter_makeSplitView content isRepoHeader rfl, List.head?_filter,
    firstHeader]

/-- The lines before the first header, each with its newline, make up the front of the file; and the
text of the first header is found in the front or right behind it. -/
theorem exists_front {content header : Str} (hfirst : firstHeader content = some header) :
    ∃ pre post found, lines content = pre ++ header :: post ∧
      (∀ line ∈ pre, isRepoHeader line = false) ∧
      content = pre.flatMap (· ++ ['\n']) ++ ['\n'].intercalate (header :: post) ∧
      findStr header content = some found ∧ found ≤ (pre.flatMap (· ++ ['\n'])).length := by
  obtain ⟨-, pre, post, hlines, hpre⟩ := List.find?_eq_some_iff_append.mp hfirst
  have hcontent : content =
      pre.flatMap (· ++ ['\n']) ++ ['\n'].intercalate (header :: post) := by
    rw [← intercalate_append_cons, ← hlines, intercalate_lines]
  obtain ⟨rest, hrest⟩ : ∃ rest, ['\n'].intercalate (header :: post) = header ++ rest := by
    rcases post with _ | ⟨line, post⟩
    · exact ⟨[], by simp⟩
    · exact ⟨_, by rw [List.intercalate_cons_cons, List.append_assoc]⟩
  obtain ⟨found, hle, hfound⟩ := exists_findStr_le (pre.flatMap (· ++ ['\n'])) header rest
  rw [List.append_assoc, ← hrest, ← hcontent] at hfound
  exact ⟨pre, post, found, hlines, by simpa using hpre, hcontent, hfound, hle⟩

/-- The text of the first header is found, and nothing before the insertion point is a header. -/
theorem exists_findStr_firstHeader {content header : Str}
    (hfirst : firstHeader content = some header) :
    ∃ found, findStr header content = some found ∧ ∀ pos, found = pos + 1 →
      content.drop pos ≠ [] ∧
      (Boundary '\n' (content.take pos) (content.drop pos) →
        ∀ line ∈ nonBlank (content.take pos), isRepoHeader line = false) := by
  obtain ⟨pre, post, found, hlines, hpre, hcontent, hfound, hle⟩ := exists_front hfirst
  set front := pre.flatMap (· ++ ['\n']) with hfront
  refine ⟨found, hfound, ?_⟩
  rintro pos rfl
  have htake : content.take pos = front.take pos := by
    rw [hcontent, List.take_append_of_le_length (by omega)]
  have hdrop : content.drop pos = front.drop pos ++ ['\n'].intercalate (header :: post) := by
    rw [hcontent, List.drop_append_of_le_length (by omega)]
  have hne : front.drop pos ≠ [] := by
    rw [Ne, List.drop_eq_nil_iff]
    omega
  refine ⟨by simp [hdrop, hne], ?_⟩
  intro hb line hline
  have hb' : Boundary '\n' (front.take pos) (front.drop pos) := by
    rw [htake, hdrop] at hb
    rcases hb with hb | hb | hb
    · exact .inl hb
    · exact .inr (.inl hb)
    · exact .inr (.inr (by rwa [List.head?_append_of_ne_nil _ hne] at hb))
  -- Up to the insertion point there are lines of the front only, and none of them is a header.
  have hnewline : ∀ l ∈ pre, '\n' ∉ l := fun l hl =>
    not_mem_of_mem_splitOn (s := content) (by rw [← lines, hlines]; simp [hl])
  have hmem : line ∈ nonBlank front := by
    rw [nonBlank, ← List.take_append_drop pos front, pieces_append_of_boundary hb']
    exact List.mem_append_left _ (htake ▸ hline)
  rw [nonBlank, hfront, pieces_flatMap_concat hnewline] at hmem
  exact hpre line (List.mem_of_mem_filter hmem)

/-- From the insertion point on, all the headers of the file are left whole. -/
theorem repoHeaders_sublist_drop {content header : Str} {pos : Nat}
    (hfirst : firstHeader content = some header) (hfound : findStr header content = some (pos + 1)) :
    (repoHeaders content).Sublist (repoHeaders (content.drop pos)) := by
  obtain ⟨pre, post, found, hlines, hpre, hcontent, hfound', hle⟩ := exists_front hfirst
  obtain rfl := Option.some.inj (hfound.symm.trans hfound')
  set front := pre.flatMap (· ++ ['\n']) with hfront
  have hdrop : content.drop pos = front.drop pos ++ ['\n'].intercalate (header :: post) := by
    rw [hcontent, List.drop_append_of_le_length (by omega)]
  obtain ⟨rest, hrest⟩ : ∃ rest, front.drop pos = rest ++ ['\n'] := by
    have hpre' : pre ≠ [] := by
      rintro rfl
      simp [hfront] at hle
    obtain ⟨pre', last, rfl⟩ := (List.eq_nil_or_concat pre).resolve_left hpre'
    have hconcat : front = (pre'.flatMap (· ++ ['\n']) ++ last) ++ ['\n'] := by
      rw [hfront, List.concat_eq_append, List.flatMap_append, List.flatMap_singleton,
        List.append_assoc]
    have hlen : pos ≤ (pre'.flatMap (· ++ ['\n']) ++ last).length := by
      rw [hconcat, List.length_append, List.length_singleton] at hle
      omega
    exact ⟨_, by rw [hconcat, List.drop_append_of_le_length hlen]⟩
  have hafter : lines (content.drop pos) = lines rest ++ header :: post := by
    have hpost : ∀ l ∈ header :: post, '\n' ∉ l := fun l hl =>
      not_mem_of_mem_splitOn (s := content) (by rw [← lines, hlines]; simp [List.mem_cons.mp hl])
    rw [hdrop, hrest, List.append_assoc, List.singleton_append, lines,
      List.splitOn_append_cons_self, List.splitOn_intercalate '\n' hpost (List.cons_ne_nil _ _)]
    rfl
  rw [repoHeaders, repoHeaders, hlines, hafter, List.filter_append, List.filter_append,
    List.filter_eq_nil_iff.mpr (by simpa using hpre), List.nil_append]
  exact List.sublist_append_right _ _

/-! ## Pushing to the front -/

/-- Where the text of the first header is found. -/
def headerText (content : Str) : Option Nat :=
  (firstHeader content).bind fun header => findStr header content

/-- The text of the first header is not found at offset zero; one character before the place
where it is found a line begins or ends; and the lines of the value commute with those from there
to the header, which are none when that place is the header. -/
def FrontFound (content value : Str) : Prop :=
  ∃ pos, headerText content = some (pos + 1) ∧
    Boundary '\n' (content.take pos) (content.drop pos) ∧
    nonBlank value ++ gap (content.drop pos) = gap (content.drop pos) ++ nonBlank value

section Push

variable {fs : FileSystem} {path content : Str} (value : Str)

/-- What is done, by the place where the text of the first header is found. -/
theorem pushReposFront_eq (hc : fs.content path = some content) (hr : fs.readable path = true) :
    pushReposFront fs path value =
      match headerText content with
      | none => .ok (false, fs)
      | some 0 => .error .outOfRange
      | some (pos + 1) => .ok (createFileForOverwrite fs path (content.take pos ++
          (['\n'] ++ value ++ ['\n']) ++ content.drop pos)) := by
  simp only [pushReposFront, readWholeFile_of_readable hc hr, find?_makeSplitView]
  by_cases hne : content = []
  · subst hne
    rfl
  · simp only [List.isEmpty_eq_false_iff.mpr hne, Bool.false_eq_true, if_false, headerText]
    rcases hfirst : firstHeader content with _ | header
    · rfl
    · obtain ⟨found, hfound, -⟩ := exists_findStr_firstHeader hfirst
      rw [Option.bind_some, hfound]
      rcases found with _ | pos <;> simp only [hfound, insertStr]

/-- Other files are left alone, and the file stays. -/
theorem pushReposFront_frame {fs' : FileSystem} {ok : Bool}
    (h : pushReposFront fs path value = .ok (ok, fs')) :
    (∀ p ≠ path, fs'.content p = fs.content p) ∧
      (fs.fileExists path = true → fs'.fileExists path = true) := by
  have hsame : (ok, fs') = (false, fs) → (∀ p ≠ path, fs'.content p = fs.content p) ∧
      (fs.fileExists path = true → fs'.fileExists path = true) := by
    rintro heq
    obtain ⟨-, rfl⟩ := Prod.mk.inj heq
    exact ⟨fun _ _ => rfl, id⟩
  simp only [pushReposFront] at h
  split at h
  · exact hsame (Except.ok.inj h).symm
  · split at h
    · exact hsame (Except.ok.inj h).symm
    · split at h
      · have h := Except.ok.inj h
        rw [createFileForOverwrite] at h
        split at h
        · obtain ⟨-, rfl⟩ := Prod.mk.inj h
          exact ⟨fun p hp => FileSystem.content_set_of_ne fs _ hp,
            fun _ => by simp [FileSystem.fileExists]⟩
        · exact hsame h.symm
      · exact absurd h (by simp)

/-- The insertion throws exactly when the text of the first header is at offset zero. -/
theorem pushReposFront_fault_iff (hc : fs.content path = some content) :
    (∃ fault, pushReposFront fs path value = .error fault) ↔
      fs.readable path = true ∧ headerText content = some 0 := by
  by_cases hr : fs.readable path = true
  · rw [pushReposFront_eq value hc hr]
    rcases headerText content with _ | _ | pos <;> simp [hr]
  · have hread : readWholeFile fs path = [] := by simp [readWholeFile, hr]
    simp [pushReposFront, hread, hr]

/-- **When `push_repos_front` pushes to the front.** -/
theorem pushReposFront_iff (hc : fs.content path = some content) (hr : fs.readable path = true)
    (hw : fs.writable path = true) (hheader : ∃ line ∈ lines content, isRepoHeader line = true) :
    (∃ fs' new, pushReposFront fs path value = .ok (true, fs') ∧ fs'.content path = some new ∧
        getRepoList fs' path = repoHeaders value ++ getRepoList fs path ∧
        PushedFront content value new) ↔
      FrontFound content value := by
  obtain ⟨header, hfirst⟩ : ∃ header, firstHeader content = some header :=
    Option.isSome_iff_exists.mp (List.find?_isSome.mpr hheader)
  obtain ⟨found, hfound, hinsert⟩ := exists_findStr_firstHeader hfirst
  have htext : headerText content = some found := by
    rw [headerText, hfirst, Option.bind_some, hfound]
  have hpush := pushReposFront_eq value hc hr
  rw [htext] at hpush
  rcases found with _ | pos
  · refine iff_of_false ?_ ?_
    · rintro ⟨fs', new, hrun, -⟩
      simp [hpush] at hrun
    · rintro ⟨pos, hpos, -⟩
      simp [htext] at hpos
  · obtain ⟨hne, hbefore⟩ := hinsert pos rfl
    simp only [createFileForOverwrite_of_writable hw] at hpush
    have hiff := pushedFront_insert_iff value hne hbefore
    rw [List.take_append_drop] at hiff
    have hfront : FrontFound content value ↔ Boundary '\n' (content.take pos) (content.drop pos) ∧
        nonBlank value ++ gap (content.drop pos) = gap (content.drop pos) ++ nonBlank value := by
      simp [FrontFound, htext]
    rw [hfront, ← hiff]
    refine ⟨?_, fun h => ⟨_, _, hpush, FileSystem.content_set_self _ _ _, ?_, h⟩⟩
    · rintro ⟨fs', new, hrun, hnew, -, h⟩
      rw [hpush] at hrun
      obtain rfl := (Prod.mk.inj (Except.ok.inj hrun)).2
      rw [FileSystem.content_set_self] at hnew
      obtain rfl := Option.some.inj hnew
      exact h
    · have hnew := FileSystem.content_set_self fs path (some (content.take pos ++
        (['\n'] ++ value ++ ['\n']) ++ content.drop pos))
      rw [getRepoList_eq hc hr, getRepoList_eq hnew hr, h.headers]

end Push

/-- A header on the first line: nothing stands before it, and `insert` throws. -/
theorem pushReposFront_first_line :
    (∃ line ∈ lines (lit "[core]\nInclude = /etc/pacman.d/mirrorlist\n"), isRepoHeader line = true) ∧
      pushReposFront (.single (lit "./pacman.conf") (lit "[core]\nInclude = /etc/pacman.d/mirrorlist\n"))
        (lit "./pacman.conf") (lit "[cachyos]") = .error .outOfRange := by
  have htext : headerText (lit "[core]\nInclude = /etc/pacman.d/mirrorlist\n") = some 0 := by
    decide +kernel
  refine ⟨by decide +kernel, ?_⟩
  rw [pushReposFront_eq _ (FileSystem.content_single _ _) rfl, htext]

/-- A header after the options, and no comment that contains it. -/
theorem pushReposFront_iff_options :
    ∃ fs' new, pushReposFront
        (.single (lit "./pacman.conf") (lit "[options]\nColor\n\n[core]\nInclude = a\n"))
        (lit "./pacman.conf") (lit "[cachyos]\nInclude = b") = .ok (true, fs') ∧
      fs'.content (lit "./pacman.conf") = some new ∧
      getRepoList fs' (lit "./pacman.conf") =
        repoHeaders (lit "[cachyos]\nInclude = b") ++
          getRepoList (.single (lit "./pacman.conf")
            (lit "[options]\nColor\n\n[core]\nInclude = a\n")) (lit "./pacman.conf") ∧
      PushedFront (lit "[options]\nColor\n\n[core]\nInclude = a\n")
        (lit "[cachyos]\nInclude = b") new :=
  (pushReposFront_iff _ (FileSystem.content_single _ _) rfl rfl (by decide +kernel)).mpr
    ⟨16, by decide +kernel, by decide +kernel, by decide +kernel⟩

end CliInstaller
