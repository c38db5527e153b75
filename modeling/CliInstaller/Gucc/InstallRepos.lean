import CliInstaller.Gucc.Repos

/-!
# `install_cachyos_repos`

The keys are fetched and signed, and the repositories for the CPU are added to pacman.conf: the
general one, and one group for the highest level. Whether the edit of the working copy succeeded is
not looked at, so a pacman.conf without an active repository is replaced by a copy of itself.

Source: `install_cachyos_repos` in `gucc/src/repos.cpp`.

## Main definitions

* `RepoGroup`, `Cpu`: the groups of repositories, and what is found out about the CPU
* `installCachyosRepos`: the function
* `selectedGroups`: the groups for the CPU
* `Installed`: the groups are listed, the repositories before are kept, and a second run changes
  nothing

## Main results

* `addGroup_cases`: what adding one group does
* `installCachyosRepos_installed_iff`: when a run that returns `true` has installed the groups
-/

namespace CliInstaller

open Splitting

/-- A group of repositories: the level it needs, its name, and the lines that are added. -/
structure RepoGroup where
  isaLevel : Str
  repoName : Str
  reposData : Str
  deriving DecidableEq, Repr

/-- `CACHYOS_V1_REPO_STR` -/
def cachyosV1 : RepoGroup where
  isaLevel := lit "x86_64"
  repoName := lit "cachyos"
  reposData := lit "\n[cachyos]\nInclude = /etc/pacman.d/cachyos-mirrorlist\n"

/-- `CACHYOS_V3_REPO_STR` -/
def cachyosV3 : RepoGroup where
  isaLevel := lit "x86_64_v3"
  repoName := lit "cachyos-v3"
  reposData := lit "\n[cachyos-v3]\nInclude = /etc/pacman.d/cachyos-v3-mirrorlist\n[cachyos-core-v3]\nInclude = /etc/pacman.d/cachyos-v3-mirrorlist\n[cachyos-extra-v3]\nInclude = /etc/pacman.d/cachyos-v3-mirrorlist\n"

/-- `CACHYOS_V4_REPO_STR` -/
def cachyosV4 : RepoGroup where
  isaLevel := lit "x86_64_v4"
  repoName := lit "cachyos-v4"
  reposData := lit "\n[cachyos-v4]\nInclude = /etc/pacman.d/cachyos-v4-mirrorlist\n[cachyos-core-v4]\nInclude = /etc/pacman.d/cachyos-v4-mirrorlist\n[cachyos-extra-v4]\nInclude = /etc/pacman.d/cachyos-v4-mirrorlist\n"

/-- `CACHYOS_ZNVER4_REPO_STR` -/
def cachyosZnver4 : RepoGroup where
  isaLevel := lit "x86_64_v4"
  repoName := lit "cachyos-znver4"
  reposData := lit "\n[cachyos-znver4]\nInclude = /etc/pacman.d/cachyos-v4-mirrorlist\n[cachyos-core-znver4]\nInclude = /etc/pacman.d/cachyos-v4-mirrorlist\n[cachyos-extra-znver4]\nInclude = /etc/pacman.d/cachyos-v4-mirrorlist\n"

/-- What is found out about the CPU: the supported levels, whether this is an Oracle VM, and whether
the CPU is one of the two generations with a group of their own. -/
structure Cpu where
  isaLevels : List Str
  oracle : Bool
  znver45 : Bool
  deriving DecidableEq, Repr

/-- Which operations succeed: those on the keys, and the file operations for each group. -/
structure RunOutcomes where
  recvKeys : Bool
  lsignKey : Bool
  general : Outcomes
  specific : Outcomes
  deriving DecidableEq, Repr

/-- All operations succeed. -/
def RunOutcomes.succeed : RunOutcomes := ⟨true, true, ⟨true, true, true⟩, ⟨true, true, true⟩⟩

/-- `add_arch_specific_repo` for a group. -/
def addGroup (outcomes : Outcomes) (cpu : Cpu) (group : RepoGroup) (fs : FileSystem) :
    Except Fault (Bool × FileSystem) :=
  addArchSpecificRepo outcomes fs group.isaLevel group.repoName cpu.isaLevels group.reposData

def installCachyosRepos (outcomes : RunOutcomes) (cpu : Cpu) (fs : FileSystem) :
    Except Fault (Bool × FileSystem) :=
  if !outcomes.recvKeys then .ok (false, fs)
  else if !outcomes.lsignKey then .ok (false, fs)
  else do
    match ← addGroup outcomes.general cpu cachyosV1 fs with
    | (false, fs) => return (false, fs)
    | (true, fs) =>
      -- Oracle VM doesn't support ISA levels
      if cpu.oracle then return (true, fs)
      else if cpu.znver45 then
        match ← addGroup outcomes.specific cpu cachyosZnver4 fs with
        | (false, fs) => return (false, fs)
        | (true, fs) => return (true, fs)
      else if cpu.isaLevels.contains (lit "x86_64_v4") then
        match ← addGroup outcomes.specific cpu cachyosV4 fs with
        | (false, fs) => return (false, fs)
        | (true, fs) => return (true, fs)
      else if cpu.isaLevels.contains (lit "x86_64_v3") then
        match ← addGroup outcomes.specific cpu cachyosV3 fs with
        | (false, fs) => return (false, fs)
        | (true, fs) => return (true, fs)
      else return (true, fs)

/-! ## What is to be installed -/

/-- The group for the highest level, whether the level is supported or not. -/
def specificGroup (cpu : Cpu) : Option RepoGroup :=
  if cpu.oracle then none
  else if cpu.znver45 then some cachyosZnver4
  else if cpu.isaLevels.contains (lit "x86_64_v4") then some cachyosV4
  else if cpu.isaLevels.contains (lit "x86_64_v3") then some cachyosV3
  else none

/-- The groups for the CPU. -/
def selectedGroups (cpu : Cpu) : List RepoGroup :=
  (cachyosV1 :: (specificGroup cpu).toList).filter fun group =>
    cpu.isaLevels.contains group.isaLevel

/-- The header of each group for the CPU is listed, the repositories listed before are kept in their
order, and a second run succeeds and leaves pacman.conf as it is. -/
structure Installed (cpu : Cpu) (fs fs' : FileSystem) : Prop where
  listed : ∀ group ∈ selectedGroups cpu, repoHeader group.repoName ∈ getRepoList fs' pacmanConf
  kept : (getRepoList fs pacmanConf).Sublist (getRepoList fs' pacmanConf)
  again : ∃ fs'', installCachyosRepos .succeed cpu fs' = .ok (true, fs'') ∧
    fs''.content pacmanConf = fs'.content pacmanConf

/-- pacman.conf is there and no working copy, and every path can be opened: with this, file
operations that succeed do what they are for. -/
structure Ready (fs : FileSystem) (content : Str) : Prop where
  conf : fs.content pacmanConf = some content
  copy : fs.content pacmanConfCachyos = none
  readable : ∀ path, fs.readable path = true
  writable : ∀ path, fs.writable path = true

/-! ## Adding one group -/

/-- The header of the group is among its lines. -/
def RepoGroup.HasHeader (group : RepoGroup) : Prop :=
  repoHeader group.repoName ∈ repoHeaders group.reposData

section Add

variable {fs : FileSystem} {content : Str} {cpu : Cpu} {group : RepoGroup}

theorem Ready.getRepoList_eq (h : Ready fs content) :
    getRepoList fs pacmanConf = repoHeaders content :=
  CliInstaller.getRepoList_eq h.conf (h.readable _)

/-- The headers after the insertion: those before, in their order, and those of the value. -/
theorem repoHeaders_insert {pos : Nat} {value : Str} (h : headerText content = some (pos + 1)) :
    let new := content.take pos ++ (['\n'] ++ value ++ ['\n']) ++ content.drop pos
    (repoHeaders content).Sublist (repoHeaders new) ∧ repoHeaders value ⊆ repoHeaders new := by
  obtain ⟨header, hfirst, hfound⟩ := Option.bind_eq_some_iff.mp h
  have hnew : repoHeaders (content.take pos ++ (['\n'] ++ value ++ ['\n']) ++ content.drop pos) =
      repoHeaders (content.take pos) ++ repoHeaders value ++ repoHeaders (content.drop pos) := by
    rw [repoHeaders, lines_insert, List.filter_append, List.filter_append]
    rfl
  intro new
  rw [hnew]
  refine ⟨(repoHeaders_sublist_drop hfirst hfound).trans (List.sublist_append_right _ _), ?_⟩
  intro line hline
  exact List.mem_append_left _ (List.mem_append_right _ hline)

/-- A file without an active repository has no place for the insertion, and conversely. -/
theorem headerText_eq_none_iff : headerText content = none ↔ repoHeaders content = [] := by
  rw [headerText]
  rcases hfirst : firstHeader content with _ | header
  · rw [firstHeader, List.find?_eq_none] at hfirst
    simpa [repoHeaders] using hfirst
  · obtain ⟨found, hfound, -⟩ := exists_findStr_firstHeader hfirst
    have hmem : header ∈ repoHeaders content :=
      List.mem_filter.mpr ⟨List.mem_of_find?_eq_some hfirst, List.find?_some hfirst⟩
    simp [hfound, List.ne_nil_of_mem hmem]

/-- The two renames put the working copy into the place of pacman.conf. -/
theorem renames_ready {new : Str} (hconf : fs.fileExists pacmanConf = true)
    (hcopy : fs.content pacmanConfCachyos = some new) (hr : ∀ path, fs.readable path = true)
    (hw : ∀ path, fs.writable path = true) :
    ∃ fs₁ fs₂, rename fs pacmanConf pacmanConfPathBackup true = (true, fs₁) ∧
      rename fs₁ pacmanConfCachyos pacmanConf true = (true, fs₂) ∧ Ready fs₂ new := by
  set fs₁ := (fs.set pacmanConfPathBackup (fs.content pacmanConf)).set pacmanConf none with hfs₁
  have hcopy₁ : fs₁.content pacmanConfCachyos = some new := by
    rw [hfs₁, FileSystem.content_set_of_ne _ _ pacmanConf_ne_cachyos.symm,
      FileSystem.content_set_of_ne _ _ pacmanConfCachyos_ne_backup, hcopy]
  have hexists₁ : fs₁.fileExists pacmanConfCachyos = true := by
    rw [FileSystem.fileExists, hcopy₁]
    rfl
  refine ⟨fs₁, (fs₁.set pacmanConf (fs₁.content pacmanConfCachyos)).set pacmanConfCachyos none,
    by simp [rename, hconf, hfs₁], by simp [rename, hexists₁], ?_, ?_, hr, hw⟩
  · rw [FileSystem.content_set_of_ne _ _ pacmanConf_ne_cachyos, FileSystem.content_set_self, hcopy₁]
  · exact FileSystem.content_set_self _ _ _

/-- **What adding one group does** when every operation succeeds: nothing when it does not apply; a
file without repositories is replaced by its copy; otherwise the edit throws, or the group is
inserted. -/
theorem addGroup_ready (h : Ready fs content) :
    (¬ Applies fs group.isaLevel group.repoName cpu.isaLevels ∧
        addGroup ⟨true, true, true⟩ cpu group fs = .ok (true, fs)) ∨
      Applies fs group.isaLevel group.repoName cpu.isaLevels ∧
        match headerText content with
        | none => ∃ fs', addGroup ⟨true, true, true⟩ cpu group fs = .ok (true, fs') ∧
            Ready fs' content
        | some 0 => ∃ fault, addGroup ⟨true, true, true⟩ cpu group fs = .error fault
        | some (pos + 1) => ∃ fs', addGroup ⟨true, true, true⟩ cpu group fs = .ok (true, fs') ∧
            Ready fs' (content.take pos ++ (['\n'] ++ group.reposData ++ ['\n']) ++
              content.drop pos) := by
  by_cases happlies : Applies fs group.isaLevel group.repoName cpu.isaLevels
  swap
  · exact .inl ⟨happlies, addArchSpecificRepo_of_not_applies _ happlies⟩
  refine .inr ⟨happlies, ?_⟩
  have hexists : fs.fileExists pacmanConf = true := by
    rw [FileSystem.fileExists, h.conf]
    rfl
  have hcopies : Copies ⟨true, true, true⟩ fs := by
    refine ⟨rfl, hexists, ?_⟩
    rw [FileSystem.fileExists, h.copy]
    rfl
  have hcopy : (withCopy fs).content pacmanConfCachyos = some content := by
    rw [withCopy, FileSystem.content_set_self, h.conf]
  have hconf : (withCopy fs).fileExists pacmanConf = true := by
    rw [FileSystem.fileExists, withCopy, FileSystem.content_set_of_ne _ _ pacmanConf_ne_cachyos]
    exact hexists
  have hpush := pushReposFront_eq group.reposData hcopy (h.readable pacmanConfCachyos)
  rw [addGroup, addArchSpecificRepo_of_copies _ happlies hcopies, hpush]
  rcases headerText content with _ | _ | pos
  · obtain ⟨fs₁, fs₂, hbackup, hreplace, hready⟩ :=
      renames_ready hconf hcopy h.readable h.writable
    exact ⟨fs₂, by simp [bind, Except.bind, pure, Except.pure, hbackup, hreplace], hready⟩
  · exact ⟨.outOfRange, rfl⟩
  · obtain ⟨new, hnew⟩ : ∃ new, new = content.take pos ++ (['\n'] ++ group.reposData ++ ['\n']) ++
        content.drop pos := ⟨_, rfl⟩
    have hwritable : (withCopy fs).writable pacmanConfCachyos = true := h.writable _
    have hwritten := createFileForOverwrite_of_writable hwritable new
    have hconf' : ((withCopy fs).set pacmanConfCachyos (some new)).fileExists pacmanConf = true := by
      rw [FileSystem.fileExists, FileSystem.content_set_of_ne _ _ pacmanConf_ne_cachyos]
      exact hconf
    obtain ⟨fs₁, fs₂, hbackup, hreplace, hready⟩ := renames_ready hconf'
      (FileSystem.content_set_self _ _ _) h.readable h.writable
    simp only [← hnew, hwritten]
    exact ⟨fs₂, by simp [bind, Except.bind, pure, Except.pure, hbackup, hreplace], hready⟩

/-- A group that was added without a fault: pacman.conf is ready for the next, the repositories are
kept, and the group's header is listed when its level is supported and there was a repository. -/
theorem addGroup_cases (h : Ready fs content) (hheader : group.HasHeader) :
    (∃ fault, addGroup ⟨true, true, true⟩ cpu group fs = .error fault) ∨
      ∃ fs' content', addGroup ⟨true, true, true⟩ cpu group fs = .ok (true, fs') ∧
        Ready fs' content' ∧ (repoHeaders content).Sublist (repoHeaders content') ∧
        (repoHeaders content = [] → content' = content) ∧
        (repoHeaders content ≠ [] → group.isaLevel ∈ cpu.isaLevels →
          repoHeader group.repoName ∈ repoHeaders content') := by
  rcases @addGroup_ready fs content cpu group h with ⟨hnot, hrun⟩ | ⟨happlies, hrun⟩
  · refine .inr ⟨fs, content, hrun, h, .refl _, fun _ => rfl, fun _ hlevel => ?_⟩
    rw [← h.getRepoList_eq]
    by_contra hlisted
    exact hnot ⟨hlevel, hlisted⟩
  · rcases htext : headerText content with _ | _ | pos <;> rw [htext] at hrun
    · obtain ⟨fs', hrun, hready⟩ := hrun
      exact .inr ⟨fs', content, hrun, hready, .refl _, fun _ => rfl,
        fun hne => absurd (headerText_eq_none_iff.mp htext) hne⟩
    · exact .inl hrun
    · obtain ⟨fs', hrun, hready⟩ := hrun
      obtain ⟨hkept, hnew⟩ := @repoHeaders_insert content pos group.reposData htext
      refine .inr ⟨fs', _, hrun, hready, hkept, fun hnone => ?_, fun _ _ => hnew hheader⟩
      rw [headerText_eq_none_iff.mpr hnone] at htext
      cases htext

end Add

/-! ## The whole run -/

section Run

variable {fs fs' : FileSystem} {content : Str} {cpu : Cpu} {group : RepoGroup}

theorem specificGroup_cases (h : specificGroup cpu = some group) :
    group = cachyosZnver4 ∨ group = cachyosV4 ∨ group = cachyosV3 := by
  rw [specificGroup] at h
  split_ifs at h
  · exact .inl (Option.some.inj h).symm
  · exact .inr (.inl (Option.some.inj h).symm)
  · exact .inr (.inr (Option.some.inj h).symm)

/-- The header of a group stands on the second of its lines. -/
theorem hasHeader_of_eq {tail : Str} (hname : group.repoName = 'c' :: tail) (htail : '\n' ∉ tail)
    (hdata : ∃ rest, group.reposData = '\n' :: (repoHeader group.repoName ++ '\n' :: rest)) :
    group.HasHeader := by
  obtain ⟨rest, hdata⟩ := hdata
  have hline : '\n' ∉ repoHeader group.repoName := by simp [repoHeader, hname, htail]
  refine List.mem_filter.mpr ⟨?_, ?_⟩
  · rw [hdata, lines, splitOn_cons_self, List.splitOn_append_cons_self,
      List.splitOn_eq_singleton hline]
    simp
  · simp [isRepoHeader, repoHeader, hname, startsWith, List.isPrefixOf, lit_eq]

theorem hasHeader_cachyosV1 : cachyosV1.HasHeader := by
  rw [cachyosV1, lit_ofList, lit_ofList, lit_ofList]
  exact hasHeader_of_eq rfl (by decide) ⟨_, rfl⟩

theorem hasHeader_of_specificGroup (h : specificGroup cpu = some group) : group.HasHeader := by
  rcases specificGroup_cases h with rfl | rfl | rfl
  · rw [cachyosZnver4, lit_ofList, lit_ofList, lit_ofList]
    exact hasHeader_of_eq rfl (by decide) ⟨_, rfl⟩
  · rw [cachyosV4, lit_ofList, lit_ofList, lit_ofList]
    exact hasHeader_of_eq rfl (by decide) ⟨_, rfl⟩
  · rw [cachyosV3, lit_ofList, lit_ofList, lit_ofList]
    exact hasHeader_of_eq rfl (by decide) ⟨_, rfl⟩

/-- When every operation succeeds, the general group is added and then the one for the CPU. -/
theorem installCachyosRepos_succeed :
    installCachyosRepos .succeed cpu fs = (do
      match ← addGroup ⟨true, true, true⟩ cpu cachyosV1 fs with
      | (false, fs) => return (false, fs)
      | (true, fs) =>
        match specificGroup cpu with
        | none => return (true, fs)
        | some group => addGroup ⟨true, true, true⟩ cpu group fs) := by
  have hsame : ∀ x : Except Fault (Bool × FileSystem), (do
      match ← x with
      | (false, fs) => return (false, fs)
      | (true, fs) => return (true, fs)) = x := by
    intro x
    rcases x with fault | ⟨_ | _, fs⟩ <;> rfl
  simp only [installCachyosRepos, RunOutcomes.succeed, Bool.not_true, Bool.false_eq_true, if_false,
    hsame]
  congr 1
  funext ⟨added, fs⟩
  rcases added with _ | _
  · rfl
  · by_cases horacle : cpu.oracle = true
    · simp [specificGroup, horacle]
    · by_cases hznver : cpu.znver45 = true
      · simp [specificGroup, horacle, hznver]
      · by_cases hv4 : lit "x86_64_v4" ∈ cpu.isaLevels
        · simp [specificGroup, horacle, hznver, hv4]
        · by_cases hv3 : lit "x86_64_v3" ∈ cpu.isaLevels <;>
            simp [specificGroup, horacle, hznver, hv4, hv3]

/-- **A run in which every operation succeeds** ends in a fault, or has kept the repositories, and
has listed the groups for the CPU if there was a repository before. -/
theorem installCachyosRepos_cases (h : Ready fs content) :
    (∃ fault, installCachyosRepos .succeed cpu fs = .error fault) ∨
      ∃ fs' content', installCachyosRepos .succeed cpu fs = .ok (true, fs') ∧ Ready fs' content' ∧
        (repoHeaders content).Sublist (repoHeaders content') ∧
        (repoHeaders content = [] → content' = content) ∧
        (repoHeaders content ≠ [] → ∀ group ∈ selectedGroups cpu,
          repoHeader group.repoName ∈ repoHeaders content') := by
  rw [installCachyosRepos_succeed]
  rcases @addGroup_cases fs content cpu cachyosV1 h hasHeader_cachyosV1 with
    ⟨fault, hrun⟩ | ⟨fs₁, content₁, hrun, hready₁, hkept₁, hsame₁, hlisted₁⟩
  · exact .inl ⟨fault, by rw [hrun]; rfl⟩
  rw [hrun]
  rcases hgroup : specificGroup cpu with _ | group
  · refine .inr ⟨fs₁, content₁, rfl, hready₁, hkept₁, hsame₁, fun hne group hmem => ?_⟩
    rw [selectedGroups, hgroup] at hmem
    obtain ⟨hmem, hlevel⟩ := List.mem_filter.mp hmem
    obtain rfl := List.mem_singleton.mp hmem
    exact hlisted₁ hne (by simpa using hlevel)
  · rcases @addGroup_cases fs₁ content₁ cpu group hready₁ (hasHeader_of_specificGroup hgroup) with
      ⟨fault, hrun⟩ | ⟨fs₂, content₂, hrun, hready₂, hkept₂, hsame₂, hlisted₂⟩
    · exact .inl ⟨fault, hrun⟩
    refine .inr ⟨fs₂, content₂, hrun, hready₂, hkept₁.trans hkept₂, fun hnone => ?_,
      fun hne group' hmem => ?_⟩
    · obtain rfl := hsame₁ hnone
      exact hsame₂ hnone
    · have hne₁ : repoHeaders content₁ ≠ [] := fun hnone =>
        hne (List.sublist_nil.mp (hnone ▸ hkept₁))
      rw [selectedGroups, hgroup] at hmem
      obtain ⟨hmem, hlevel⟩ := List.mem_filter.mp hmem
      rcases List.mem_pair.mp hmem with rfl | rfl
      · exact hkept₂.subset (hlisted₁ hne (by simpa using hlevel))
      · exact hlisted₂ hne₁ (by simpa using hlevel)

theorem addGroup_of_listed {outcomes : Outcomes}
    (hlisted : group.isaLevel ∈ cpu.isaLevels →
      repoHeader group.repoName ∈ getRepoList fs pacmanConf) :
    addGroup outcomes cpu group fs = .ok (true, fs) :=
  addArchSpecificRepo_of_not_applies _ fun happlies => happlies.2 (hlisted happlies.1)

/-- **A run with all groups listed changes nothing.** -/
theorem installCachyosRepos_of_listed
    (h : ∀ group ∈ selectedGroups cpu, repoHeader group.repoName ∈ getRepoList fs pacmanConf) :
    installCachyosRepos .succeed cpu fs = .ok (true, fs) := by
  have hadd : ∀ group ∈ cachyosV1 :: (specificGroup cpu).toList,
      addGroup ⟨true, true, true⟩ cpu group fs = .ok (true, fs) := by
    intro group hmem
    refine addGroup_of_listed fun hlevel => h group (List.mem_filter.mpr ⟨hmem, ?_⟩)
    exact List.contains_iff_mem.mpr hlevel
  rw [installCachyosRepos_succeed, hadd cachyosV1 List.mem_cons_self]
  rcases hgroup : specificGroup cpu with _ | group
  · rfl
  · exact hadd group (by simp [hgroup])

/-- Without a repository the run succeeds and changes nothing. -/
theorem installCachyosRepos_of_no_repo (h : Ready fs content) (hnone : repoHeaders content = []) :
    ∃ fs', installCachyosRepos .succeed cpu fs = .ok (true, fs') ∧ Ready fs' content := by
  have hadd : ∀ (group : RepoGroup) {fs}, Ready fs content →
      ∃ fs', addGroup ⟨true, true, true⟩ cpu group fs = .ok (true, fs') ∧ Ready fs' content := by
    intro group fs h
    rcases @addGroup_ready fs content cpu group h with ⟨-, hrun⟩ | ⟨-, hrun⟩
    · exact ⟨fs, hrun, h⟩
    · rw [headerText_eq_none_iff.mpr hnone] at hrun
      exact hrun
  obtain ⟨fs₁, hrun, h₁⟩ := hadd cachyosV1 h
  rw [installCachyosRepos_succeed, hrun]
  rcases specificGroup cpu with _ | group
  · exact ⟨fs₁, rfl, h₁⟩
  · exact hadd group h₁

/-- **When a run that returns `true` has installed the groups**: when pacman.conf lists a repository
before. -/
theorem installCachyosRepos_installed_iff (h : Ready fs content)
    (hcpu : lit "x86_64" ∈ cpu.isaLevels) :
    (∀ fs', installCachyosRepos .succeed cpu fs = .ok (true, fs') → Installed cpu fs fs') ↔
      getRepoList fs pacmanConf ≠ [] := by
  rw [h.getRepoList_eq]
  constructor
  · intro hinstalled hnone
    obtain ⟨fs', hrun, h'⟩ := @installCachyosRepos_of_no_repo fs content cpu h hnone
    have hgeneral : cachyosV1 ∈ selectedGroups cpu :=
      List.mem_filter.mpr ⟨List.mem_cons_self, List.contains_iff_mem.mpr hcpu⟩
    have hlisted := (hinstalled fs' hrun).listed cachyosV1 hgeneral
    rw [h'.getRepoList_eq, hnone] at hlisted
    cases hlisted
  · intro hne fs' hrun
    rcases @installCachyosRepos_cases fs content cpu h with
      ⟨fault, hfault⟩ | ⟨fs₁, content₁, hrun₁, h₁, hkept, -, hlisted⟩
    · rw [hrun] at hfault
      cases hfault
    · obtain rfl := (Prod.mk.inj (Except.ok.inj (hrun.symm.trans hrun₁))).2
      have hlist := h₁.getRepoList_eq
      refine ⟨fun group hmem => ?_, ?_, fs', installCachyosRepos_of_listed fun group hmem => ?_, rfl⟩
      · rw [hlist]
        exact hlisted hne group hmem
      · rw [h.getRepoList_eq, hlist]
        exact hkept
      · rw [hlist]
        exact hlisted hne group hmem

end Run

theorem ready_single (content : Str) : Ready (.single pacmanConf content) content where
  conf := FileSystem.content_single _ _
  copy := if_neg pacmanConf_ne_cachyos.symm
  readable _ := rfl
  writable _ := rfl

/-- A CPU of the third level. -/
def levelThree : Cpu := ⟨[lit "x86_64", lit "x86_64_v3"], false, false⟩

theorem installCachyosRepos_installed_iff_core :
    (∀ fs', installCachyosRepos .succeed levelThree
        (.single pacmanConf (lit "[options]\n\n[core]\nInclude = a\n")) = .ok (true, fs') →
      Installed levelThree (.single pacmanConf (lit "[options]\n\n[core]\nInclude = a\n")) fs') ↔
    getRepoList (.single pacmanConf (lit "[options]\n\n[core]\nInclude = a\n")) pacmanConf ≠ [] :=
  installCachyosRepos_installed_iff (ready_single _) (by simp [levelThree])

/-- Without an active repository the run returns `true`, and lists none. -/
theorem installCachyosRepos_no_repo :
    let fs := FileSystem.single pacmanConf (lit "[options]\n#[core]\n")
    ∃ fs', installCachyosRepos .succeed levelThree fs = .ok (true, fs') ∧
      getRepoList fs' pacmanConf = [] ∧ ¬ Installed levelThree fs fs' := by
  intro fs
  have hlines : lines (lit "[options]\n#[core]\n") = [lit "[options]", lit "#[core]", []] := by
    rw [lit_ofList, lit_ofList, lit_ofList]
    decide
  have hnone : repoHeaders (lit "[options]\n#[core]\n") = [] := by
    rw [repoHeaders, hlines]
    simp [isRepoHeader, startsWith, List.isPrefixOf, lit_eq]
  obtain ⟨fs', hrun, h'⟩ := @installCachyosRepos_of_no_repo fs _ levelThree (ready_single _) hnone
  have hlist : getRepoList fs' pacmanConf = [] := by rw [h'.getRepoList_eq, hnone]
  refine ⟨fs', hrun, hlist, fun hinstalled => ?_⟩
  have hlisted := hinstalled.listed cachyosV1 (List.mem_filter.mpr ⟨List.mem_cons_self, by
    simp [cachyosV1, levelThree]⟩)
  rw [hlist] at hlisted
  cases hlisted

end CliInstaller
