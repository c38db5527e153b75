import CliInstaller.Gucc.PacmanconfRepo

/-!
# `gucc::repos`: adding an architecture specific repository

The system's pacman.conf is copied to the working directory, edited there, moved to a backup and
replaced by the edited copy. Each step can fail; a failure of the last one leaves the system
without its pacman.conf.

Source: `gucc/src/repos.cpp`.

## Main definitions

* `addArchSpecificRepo`: the function, over which of the file operations succeed
* `Applies`, `Copies`, `Edits`: the steps up to the renames go through

## Main results

* `addArchSpecificRepo_of_replace_fails`: how pacman.conf is lost
* `addArchSpecificRepo_keeps_iff`: when a call that returns `false` has kept pacman.conf
-/

namespace CliInstaller

/-- The configuration of the system. -/
def pacmanConf : Str := lit "/etc/pacman.conf"

/-- The working copy. -/
def pacmanConfCachyos : Str := lit "./pacman.conf"

/-- The backup. -/
def pacmanConfPathBackup : Str := lit "/etc/pacman.conf.bak"

/-- Which of the file operations succeed, where they can. -/
structure Outcomes where
  copyFile : Bool
  backup : Bool
  replace : Bool
  deriving DecidableEq, Repr

/-- The header of a repository. -/
def repoHeader (repoName : Str) : Str := ['['] ++ repoName ++ [']']

def addArchSpecificRepo (outcomes : Outcomes) (fs : FileSystem) (isaLevel repoName : Str)
    (isaLevels : List Str) (reposData : Str) : Except Fault (Bool × FileSystem) :=
  if !isaLevels.contains isaLevel then .ok (true, fs)
  else if (getRepoList fs pacmanConf).contains (repoHeader repoName) then .ok (true, fs)
  else
    match copyFile fs pacmanConf pacmanConfCachyos outcomes.copyFile with
    | (false, fs) => .ok (false, fs)
    | (true, fs) => do
      -- The result of editing the copy is not looked at.
      let (_, fs) ← pushReposFront fs pacmanConfCachyos reposData
      match rename fs pacmanConf pacmanConfPathBackup outcomes.backup with
      | (false, fs) => return (false, fs)
      | (true, fs) =>
        match rename fs pacmanConfCachyos pacmanConf outcomes.replace with
        | (false, fs) => return (false, fs)
        | (true, fs) => return (true, fs)

/-! ## What a call can do -/

theorem pacmanConf_ne_cachyos : pacmanConf ≠ pacmanConfCachyos := by decide +kernel

theorem pacmanConfCachyos_ne_backup : pacmanConfCachyos ≠ pacmanConfPathBackup := by
  decide +kernel

/-- The repository is to be added: the level is supported, and the repository not yet listed. -/
def Applies (fs : FileSystem) (isaLevel repoName : Str) (isaLevels : List Str) : Prop :=
  isaLevel ∈ isaLevels ∧ repoHeader repoName ∉ getRepoList fs pacmanConf

/-- The working copy can be made. -/
def Copies (outcomes : Outcomes) (fs : FileSystem) : Prop :=
  outcomes.copyFile = true ∧ fs.fileExists pacmanConf = true ∧
    fs.fileExists pacmanConfCachyos = false

/-- The file system with the working copy. -/
def withCopy (fs : FileSystem) : FileSystem :=
  fs.set pacmanConfCachyos (fs.content pacmanConf)

/-- Editing the working copy does not throw. -/
def Edits (fs : FileSystem) : Prop :=
  ¬ (fs.readable pacmanConfCachyos = true ∧ (fs.content pacmanConf).bind headerText = some 0)

section Steps

variable {outcomes : Outcomes} {fs : FileSystem} {isaLevel repoName : Str} {isaLevels : List Str}
  (reposData : Str)

theorem addArchSpecificRepo_of_not_applies (h : ¬ Applies fs isaLevel repoName isaLevels) :
    addArchSpecificRepo outcomes fs isaLevel repoName isaLevels reposData = .ok (true, fs) := by
  by_cases hs : isaLevel ∈ isaLevels
  · have hl : repoHeader repoName ∈ getRepoList fs pacmanConf := by
      simpa [Applies, hs] using h
    simp [addArchSpecificRepo, hs, hl]
  · simp [addArchSpecificRepo, hs]

theorem addArchSpecificRepo_of_not_copies (h : Applies fs isaLevel repoName isaLevels)
    (hc : ¬ Copies outcomes fs) :
    addArchSpecificRepo outcomes fs isaLevel repoName isaLevels reposData = .ok (false, fs) := by
  have hcopy : copyFile fs pacmanConf pacmanConfCachyos outcomes.copyFile = (false, fs) := by
    rw [copyFile, if_neg]
    simpa [Copies, and_assoc] using hc
  simp [addArchSpecificRepo, h.1, h.2, hcopy]

/-- With the working copy made, the edit and the two renames remain. -/
theorem addArchSpecificRepo_of_copies (h : Applies fs isaLevel repoName isaLevels)
    (hc : Copies outcomes fs) :
    addArchSpecificRepo outcomes fs isaLevel repoName isaLevels reposData = (do
      let (_, fs) ← pushReposFront (withCopy fs) pacmanConfCachyos reposData
      match rename fs pacmanConf pacmanConfPathBackup outcomes.backup with
      | (false, fs) => return (false, fs)
      | (true, fs) =>
        match rename fs pacmanConfCachyos pacmanConf outcomes.replace with
        | (false, fs) => return (false, fs)
        | (true, fs) => return (true, fs)) := by
  have hcopy : copyFile fs pacmanConf pacmanConfCachyos outcomes.copyFile =
      (true, withCopy fs) := by
    rw [copyFile, if_pos, withCopy]
    simpa [Copies, and_assoc] using hc
  simp only [addArchSpecificRepo, List.contains_eq_mem, h.1, h.2, hcopy, decide_true, decide_false,
    Bool.not_true, Bool.false_eq_true, if_false]

theorem pushReposFront_withCopy_fault (hc : Copies outcomes fs) :
    (∃ fault, pushReposFront (withCopy fs) pacmanConfCachyos reposData = .error fault) ↔
      ¬ Edits fs := by
  obtain ⟨content, hcontent⟩ := Option.isSome_iff_exists.mp hc.2.1
  have hcopy : (withCopy fs).content pacmanConfCachyos = some content := by
    rw [withCopy, FileSystem.content_set_self, hcontent]
  rw [pushReposFront_fault_iff reposData hcopy, Edits, not_not, hcontent, Option.bind_some]
  rfl

/-- An edit that does not throw leaves pacman.conf and the working copy there. -/
theorem pushReposFront_withCopy_frame (hc : Copies outcomes fs) {edited : Bool} {fs' : FileSystem}
    (h : pushReposFront (withCopy fs) pacmanConfCachyos reposData = .ok (edited, fs')) :
    fs'.content pacmanConf = fs.content pacmanConf ∧ fs'.fileExists pacmanConf = true ∧
      fs'.fileExists pacmanConfCachyos = true := by
  obtain ⟨hframe, hstays⟩ := pushReposFront_frame _ h
  have hconf : fs'.content pacmanConf = fs.content pacmanConf := by
    rw [hframe _ pacmanConf_ne_cachyos, withCopy,
      FileSystem.content_set_of_ne _ _ pacmanConf_ne_cachyos]
  refine ⟨hconf, ?_, hstays ?_⟩
  · rw [FileSystem.fileExists, hconf]
    exact hc.2.1
  · rw [FileSystem.fileExists, withCopy, FileSystem.content_set_self]
    exact hc.2.1

theorem exists_pushReposFront_withCopy (hc : Copies outcomes fs) (hedits : Edits fs) :
    ∃ edited fs', pushReposFront (withCopy fs) pacmanConfCachyos reposData = .ok (edited, fs') := by
  rcases hpush : pushReposFront (withCopy fs) pacmanConfCachyos reposData with fault | ⟨edited, fs'⟩
  · exact absurd hedits ((pushReposFront_withCopy_fault reposData hc).mp ⟨fault, hpush⟩)
  · exact ⟨edited, fs', rfl⟩

/-- **When only the last rename fails, pacman.conf is gone.** -/
theorem addArchSpecificRepo_of_replace_fails (happlies : Applies fs isaLevel repoName isaLevels)
    (hcopies : Copies outcomes fs) (hedits : Edits fs) (hbackup : outcomes.backup = true)
    (hreplace : outcomes.replace = false) :
    ∃ fs', addArchSpecificRepo outcomes fs isaLevel repoName isaLevels reposData =
      .ok (false, fs') ∧ fs'.content pacmanConf = none := by
  obtain ⟨edited, fs₁, hpush⟩ := exists_pushReposFront_withCopy reposData hcopies hedits
  obtain ⟨-, hexists, -⟩ := pushReposFront_withCopy_frame reposData hcopies hpush
  refine ⟨(fs₁.set pacmanConfPathBackup (fs₁.content pacmanConf)).set pacmanConf none, ?_,
    FileSystem.content_set_self _ _ _⟩
  rw [addArchSpecificRepo_of_copies reposData happlies hcopies]
  simp [bind, Except.bind, pure, Except.pure, rename, hpush, hexists, hbackup, hreplace]

/-- **When a call that returns `false` has kept pacman.conf**: unless the level is supported, the
repository not yet listed, the working copy can be made, editing it does not throw, and of the two
renames only the first succeeds. -/
theorem addArchSpecificRepo_keeps_iff :
    (∀ fs', addArchSpecificRepo outcomes fs isaLevel repoName isaLevels reposData =
        .ok (false, fs') → fs'.content pacmanConf = fs.content pacmanConf) ↔
      ¬ (Applies fs isaLevel repoName isaLevels ∧ Copies outcomes fs ∧ Edits fs ∧
        outcomes.backup = true ∧ outcomes.replace = false) := by
  by_cases happlies : Applies fs isaLevel repoName isaLevels
  swap
  · rw [addArchSpecificRepo_of_not_applies reposData happlies]
    simp [happlies]
  by_cases hcopies : Copies outcomes fs
  swap
  · rw [addArchSpecificRepo_of_not_copies reposData happlies hcopies]
    simp [hcopies]
  by_cases hedits : Edits fs
  swap
  · obtain ⟨fault, hfault⟩ := (pushReposFront_withCopy_fault reposData hcopies).mpr hedits
    rw [addArchSpecificRepo_of_copies reposData happlies hcopies, hfault]
    simp [hedits, bind, Except.bind]
  obtain ⟨edited, fs₁, hpush⟩ := exists_pushReposFront_withCopy reposData hcopies hedits
  obtain ⟨hconf, hexists, hexistsCopy⟩ := pushReposFront_withCopy_frame reposData hcopies hpush
  rcases hbackup : outcomes.backup with _ | _
  · rw [addArchSpecificRepo_of_copies reposData happlies hcopies]
    simp [bind, Except.bind, pure, Except.pure, rename, hpush, hbackup, hconf]
  rcases hreplace : outcomes.replace with _ | _
  · obtain ⟨fs', hrun, hnone⟩ :=
      addArchSpecificRepo_of_replace_fails reposData happlies hcopies hedits hbackup hreplace
    have hsome : fs.content pacmanConf ≠ none := Option.isSome_iff_ne_none.mp hcopies.2.1
    refine iff_of_false (fun hkeeps => hsome ?_) (by simp [happlies, hcopies, hedits])
    exact (hkeeps fs' hrun).symm.trans hnone
  · have hleft : ((fs₁.set pacmanConfPathBackup (fs₁.content pacmanConf)).set pacmanConf
        none).fileExists pacmanConfCachyos = true := by
      rw [FileSystem.fileExists, FileSystem.content_set_of_ne _ _ pacmanConf_ne_cachyos.symm,
        FileSystem.content_set_of_ne _ _ pacmanConfCachyos_ne_backup]
      exact hexistsCopy
    rw [addArchSpecificRepo_of_copies reposData happlies hcopies]
    simp [bind, Except.bind, pure, Except.pure, rename, hpush, hbackup, hreplace, hexists, hleft]

end Steps

/-- The last rename fails on a system with a pacman.conf. -/
theorem addArchSpecificRepo_loses :
    let fs := FileSystem.single pacmanConf (lit "[options]\n\n[core]\nInclude = a\n")
    (∃ fs', addArchSpecificRepo ⟨true, true, false⟩ fs (lit "x86_64") (lit "cachyos")
        [lit "x86_64"] (lit "[cachyos]\n") = .ok (false, fs') ∧ fs'.content pacmanConf = none) ∧
      fs.content pacmanConf = some (lit "[options]\n\n[core]\nInclude = a\n") := by
  refine ⟨addArchSpecificRepo_of_replace_fails _ ?_ ?_ ?_ rfl rfl, FileSystem.content_single _ _⟩
  · exact ⟨by decide +kernel, by decide +kernel⟩
  · exact ⟨rfl, by decide +kernel, by decide +kernel⟩
  · rw [Edits, FileSystem.content_single]
    decide +kernel

end CliInstaller
