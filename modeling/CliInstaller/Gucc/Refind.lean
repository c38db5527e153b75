import CliInstaller.Gucc.InitcpioWrites

/-!
# `gucc::bootloader`: rEFInd

`install_refind` runs a chain of steps, the last of which writes the extra kernel version strings
into refind.conf. That step rewrites the lines that begin with the key, commented out or not; it
adds no line where there is none, and fails where there are no strings to write.

Source: `gucc/src/bootloader.cpp`, `src/utils.cpp`.

## Main definitions

* `isExtraKernLine`, `refindWriteExtraKernStrings`: the last step
* `installRefind`: the chain
* `SetsExtraKern`: a line that sets the key, commented out or not
* `ExtraKernWritten`: what writing is meant to do
* `InstallPossible`: every other step of the chain succeeds

## Main results

* `extraKernWritten_iff`: when it does
* `installRefind_iff`: when the chain succeeds, if every other step does
-/

namespace CliInstaller

/-! ## The extra kernel version strings -/

/-- The key in refind.conf. -/
def extraKernKey : Str := lit "extra_kernel_version_strings"

/-- The test of the lines that are rewritten. -/
def isExtraKernLine (line : Str) : Bool :=
  startsWith line ('#' :: extraKernKey) || startsWith line extraKernKey

/-- `"extra_kernel_version_strings {}"` -/
def extraKernLine (extraKernelVersions : List Str) : Str :=
  extraKernKey ++ [' '] ++ join extraKernelVersions ','

/-- What a line is transformed to. -/
def transformLine (extraKernelVersions : List Str) (line : Str) : Str :=
  if isExtraKernLine line then extraKernLine extraKernelVersions else line

def refindWriteExtraKernStrings (filePath : Str) (extraKernelVersions : List Str)
    (fs : FileSystem) : Bool × FileSystem :=
  let fileContent := readWholeFile fs filePath
  if fileContent.isEmpty || extraKernelVersions.isEmpty then (false, fs)
  else
    createFileForOverwrite fs filePath <|
      joinLines ((Splitting.splitView '\n' fileContent).map (transformLine extraKernelVersions))

/-! ## The installation -/

structure RefindInstallConfig where
  isRemovable : Bool
  rootMountpoint : Str
  bootMountpoint : Str
  extraKernelVersions : List Str
  kernelParams : List Str
  deriving DecidableEq, Repr

def genRefindConfig (kernelParams : List Str) : Str :=
  let kernelParamsStr := join kernelParams ' '
  lit "\"Boot with standard options\"    \"" ++ kernelParamsStr ++ lit "\"\n" ++
    (lit "\"Boot to single-user mode\"    \"" ++ kernelParamsStr ++ lit "\" single\n")

def refindInstallCmd (rootPath : Str) (isRemovableDrive : Bool) : Str :=
  let result := lit "refind-install --root " ++ rootPath
  let result := if isRemovableDrive then result ++ lit " --alldrivers --yes" else result
  result ++ lit " &>>/tmp/cachyos-install.log"

namespace RefindInstallConfig

def initcpioFilename (config : RefindInstallConfig) : Str :=
  config.rootMountpoint ++ lit "/etc/mkinitcpio.conf"

def refindConfigPath (config : RefindInstallConfig) : Str :=
  config.rootMountpoint ++ lit "/boot/refind_linux.conf"

def extraRefindConfigPath (config : RefindInstallConfig) : Str :=
  config.bootMountpoint ++ lit "/EFI/refind/refind.conf"

/-- The files after the adjustment of mkinitcpio, whose result is ignored. -/
def adjustInitcpio (config : RefindInstallConfig) (fs : FileSystem) : FileSystem :=
  if config.isRemovable then
    (Session.removeHook (lit "autodetect") ⟨fs, .new config.initcpioFilename⟩).2.fs
  else fs

/-- The configuration that `utils::install_refind` passes on. -/
def ofInstaller (isVolumeRemovable : Bool) (mountpoint uefiMount : Str)
    (kernelParams : List Str) : RefindInstallConfig where
  isRemovable := isVolumeRemovable
  rootMountpoint := mountpoint
  bootMountpoint := mountpoint ++ uefiMount
  extraKernelVersions := []
  kernelParams := kernelParams

end RefindInstallConfig

/-- `install_refind`; `run` tells whether a command succeeds, and what it makes of the files. -/
def installRefind (run : Str → FileSystem → Bool × FileSystem) (config : RefindInstallConfig)
    (fs : FileSystem) : Bool × FileSystem :=
  let (installed, fs) := run (refindInstallCmd config.rootMountpoint config.isRemovable) fs
  if !installed then (false, fs)
  else
    let fs := config.adjustInitcpio fs
    let (written, fs) :=
      createFileForOverwrite fs config.refindConfigPath (genRefindConfig config.kernelParams)
    if !written then (false, fs)
    else
      let (written, fs) :=
        refindWriteExtraKernStrings config.extraRefindConfigPath config.extraKernelVersions fs
      if !written then (false, fs) else (true, fs)

/-! ## Lines that set the key -/

/-- The characters of a name. -/
def nameChar (c : Char) : Bool := c.isAlphanum || c = '_' || c = '-'

/-- **The line sets the key**, or is such a line commented out: the key is the whole name at its
start. -/
def SetsExtraKern (line : Str) : Prop :=
  ∃ rest : Str, (line = extraKernKey ++ rest ∨ line = '#' :: extraKernKey ++ rest) ∧
    ∀ c ∈ rest.head?, nameChar c = false

/-- **The strings are written**: an active line has them, every line that does not set the key is
unchanged and in its place, and only the strings that are written last matter. -/
structure ExtraKernWritten (filePath content : Str) (v₁ v₂ : List Str) (fs : FileSystem) :
    Prop where
  active : ∃ content', (refindWriteExtraKernStrings filePath v₁ fs).2.content filePath =
    some content' ∧ extraKernLine v₁ ∈ lines content'
  kept : ∃ content', (refindWriteExtraKernStrings filePath v₁ fs).2.content filePath =
    some content' ∧ List.Forall₂ (fun line line' => ¬ SetsExtraKern line → line' = line)
      (lines content) (lines content')
  again : refindWriteExtraKernStrings filePath v₁ (refindWriteExtraKernStrings filePath v₁ fs).2 =
    refindWriteExtraKernStrings filePath v₁ fs
  last : refindWriteExtraKernStrings filePath v₂ (refindWriteExtraKernStrings filePath v₁ fs).2 =
    refindWriteExtraKernStrings filePath v₂ fs

section Lines

variable {v v₁ v₂ : List Str} {line content : Str}

theorem isExtraKernLine_iff :
    isExtraKernLine line = true ↔
      ∃ rest : Str, line = extraKernKey ++ rest ∨ line = '#' :: extraKernKey ++ rest := by
  rw [isExtraKernLine, Bool.or_eq_true, startsWith_iff, startsWith_iff]
  constructor
  · rintro (⟨rest, rfl⟩ | ⟨rest, rfl⟩)
    · exact ⟨rest, .inr rfl⟩
    · exact ⟨rest, .inl rfl⟩
  · rintro ⟨rest, rfl | rfl⟩
    · exact .inr (List.prefix_append _ _)
    · exact .inl (List.prefix_append _ _)

theorem SetsExtraKern.isExtraKernLine (h : SetsExtraKern line) : isExtraKernLine line = true := by
  obtain ⟨rest, hline, -⟩ := h
  exact isExtraKernLine_iff.mpr ⟨rest, hline⟩

theorem setsExtraKern_extraKernLine (v : List Str) : SetsExtraKern (extraKernLine v) := by
  refine ⟨' ' :: join v ',', .inl ?_, ?_⟩
  · rw [extraKernLine, List.append_assoc]
    rfl
  · rintro c ⟨⟩
    rfl

theorem isExtraKernLine_extraKernLine (v : List Str) : isExtraKernLine (extraKernLine v) = true :=
  (setsExtraKern_extraKernLine v).isExtraKernLine

/-- **The strings that are written last stand**: a written line is rewritten again. -/
theorem transformLine_transformLine :
    transformLine v₂ (transformLine v₁ line) = transformLine v₂ line := by
  by_cases hline : isExtraKernLine line = true
  · simp [transformLine, hline, isExtraKernLine_extraKernLine]
  · simp [transformLine, hline]

/-- The content after writing. -/
def withExtraKern (v : List Str) (content : Str) : Str :=
  ['\n'].intercalate ((lines content).map (transformLine v))

theorem newline_not_mem_extraKernLine (hv : ∀ version ∈ v, '\n' ∉ version) :
    '\n' ∉ extraKernLine v := by
  have hjoin : '\n' ∉ join v ',' := by
    rw [join_eq]
    induction v with
    | nil => simp
    | cons version v ih =>
      rw [Splitting.intercalate_cons_eq, List.mem_append, List.mem_flatMap]
      rintro (hc | ⟨other, hother, hc⟩)
      · exact hv version List.mem_cons_self hc
      · rcases List.mem_cons.mp hc with hc | hc
        · exact absurd hc (by decide)
        · exact hv other (List.mem_cons_of_mem _ hother) hc
  have hkey : '\n' ∉ extraKernKey := by decide +kernel
  simp [extraKernLine, hkey, hjoin]

theorem lines_withExtraKern (hv : ∀ version ∈ v, '\n' ∉ version) :
    lines (withExtraKern v content) = (lines content).map (transformLine v) := by
  refine Splitting.splitOn_map_intercalate fun line hline => ?_
  rw [transformLine]
  split_ifs
  · exact newline_not_mem_extraKernLine hv
  · exact Splitting.not_mem_of_mem_splitOn hline

theorem withExtraKern_withExtraKern (hv : ∀ version ∈ v₁, '\n' ∉ version) :
    withExtraKern v₂ (withExtraKern v₁ content) = withExtraKern v₂ content := by
  rw [withExtraKern, lines_withExtraKern hv, List.map_map, withExtraKern]
  congr 1
  exact List.map_congr_left fun line _ => transformLine_transformLine

/-- A line does not become empty. -/
theorem transformLine_eq_nil_iff : transformLine v line = [] ↔ line = [] := by
  have hkey : extraKernKey ≠ [] := by decide +kernel
  rw [transformLine]
  split_ifs with hline
  · refine iff_of_false (by simp [extraKernLine]) ?_
    rintro rfl
    obtain ⟨rest, heq | heq⟩ := isExtraKernLine_iff.mp hline
    · exact hkey (List.append_eq_nil_iff.mp heq.symm).1
    · cases heq
  · exact Iff.rfl

theorem withExtraKern_ne_nil (hv : ∀ version ∈ v, '\n' ∉ version) (hne : content ≠ []) :
    withExtraKern v content ≠ [] := by
  intro h
  have hlines := @lines_withExtraKern _ content hv
  rw [h] at hlines
  obtain ⟨line, hcontent, hline⟩ := List.map_eq_singleton_iff.mp hlines.symm
  rw [transformLine_eq_nil_iff.mp hline] at hcontent
  exact hne (by rw [← intercalate_lines content, hcontent]; rfl)

/-! ## One write -/

section Write

variable {fs : FileSystem} {path : Str}

/-- **A write that is possible** succeeds and transforms the content. -/
theorem refindWriteExtraKernStrings_eq (hfs : Holds fs path content) (hne : content ≠ [])
    (hv : v ≠ []) :
    refindWriteExtraKernStrings path v fs =
      (true, fs.set path (some (withExtraKern v content))) := by
  rw [refindWriteExtraKernStrings, readWholeFile_of_readable hfs.content_eq hfs.readable,
    if_neg (by simp [hne, hv]), joinLines_eq, Splitting.splitView_of_ne_nil _ hne,
    createFileForOverwrite_of_writable hfs.writable]
  rfl

/-- What a write that succeeds relied on. -/
theorem holds_of_refindWriteExtraKernStrings (hcontent : fs.content path = some content)
    (h : (refindWriteExtraKernStrings path v fs).1 = true) : Holds fs path content := by
  rw [refindWriteExtraKernStrings] at h
  split_ifs at h with hempty
  rw [createFileForOverwrite] at h
  split_ifs at h with hwritable
  refine ⟨hcontent, ?_, hwritable⟩
  by_contra hreadable
  simp [readWholeFile, hreadable] at hempty

/-- An active line has the strings, if some line was rewritten. -/
theorem extraKernLine_mem_iff :
    extraKernLine v ∈ (lines content).map (transformLine v) ↔
      ∃ line ∈ lines content, isExtraKernLine line = true := by
  rw [List.mem_map]
  constructor
  · rintro ⟨line, hmem, hline⟩
    refine ⟨line, hmem, ?_⟩
    by_contra hnot
    rw [transformLine, if_neg hnot] at hline
    exact hnot (hline ▸ isExtraKernLine_extraKernLine v)
  · rintro ⟨line, hmem, hline⟩
    exact ⟨line, hmem, if_pos hline⟩

/-- The other lines are kept, if every line that is rewritten sets the key. -/
theorem forall₂_transformLine_iff :
    List.Forall₂ (fun line line' => ¬ SetsExtraKern line → line' = line) (lines content)
        ((lines content).map (transformLine v)) ↔
      ∀ line ∈ lines content, isExtraKernLine line = true → SetsExtraKern line := by
  rw [List.forall₂_map_right_iff, List.forall₂_same]
  refine forall₂_congr fun line _ => ⟨fun hkept hline => ?_, fun hsets hnot => ?_⟩
  · by_contra hnot
    have heq := hkept hnot
    rw [transformLine, if_pos hline] at heq
    exact hnot (heq ▸ setsExtraKern_extraKernLine v)
  · exact if_neg fun hline => hnot (hsets hline)

/-- **When a write that returns `true` has written the strings**: when a line begins with the key,
and every line that does sets it. -/
theorem extraKernWritten_iff (hcontent : fs.content path = some content) (hne : content ≠ [])
    (hv₁ : v₁ ≠ [] ∧ ∀ version ∈ v₁, '\n' ∉ version ∧ ',' ∉ version)
    (hv₂ : v₂ ≠ [] ∧ ∀ version ∈ v₂, '\n' ∉ version ∧ ',' ∉ version)
    (htrue : (refindWriteExtraKernStrings path v₁ fs).1 = true) :
    ExtraKernWritten path content v₁ v₂ fs ↔
      (∃ line ∈ lines content, isExtraKernLine line = true) ∧
        ∀ line ∈ lines content, isExtraKernLine line = true → SetsExtraKern line := by
  have hline : ∀ version ∈ v₁, '\n' ∉ version := fun version hmem => (hv₁.2 version hmem).1
  have hfs := holds_of_refindWriteExtraKernStrings hcontent htrue
  have hwrite := refindWriteExtraKernStrings_eq hfs hne hv₁.1
  have hlines := @lines_withExtraKern _ content hline
  have hfs' : (refindWriteExtraKernStrings path v₁ fs).2.content path =
      some (withExtraKern v₁ content) := by rw [hwrite, FileSystem.content_set_self]
  have hsecond : ∀ {v : List Str}, v ≠ [] →
      refindWriteExtraKernStrings path v (refindWriteExtraKernStrings path v₁ fs).2 =
        refindWriteExtraKernStrings path v fs := by
    intro v hv
    rw [hwrite, refindWriteExtraKernStrings_eq (hfs.set _) (withExtraKern_ne_nil hline hne) hv,
      refindWriteExtraKernStrings_eq hfs hne hv, withExtraKern_withExtraKern hline,
      FileSystem.set_set]
  constructor
  · rintro ⟨⟨content₁, hcontent₁, hactive⟩, ⟨content₂, hcontent₂, hkept⟩, -, -⟩
    obtain rfl := Option.some.inj (hfs'.symm.trans hcontent₁)
    obtain rfl := Option.some.inj (hfs'.symm.trans hcontent₂)
    rw [hlines] at hactive hkept
    exact ⟨extraKernLine_mem_iff.mp hactive, forall₂_transformLine_iff.mp hkept⟩
  · rintro ⟨hsome, hsets⟩
    refine ⟨⟨_, hfs', ?_⟩, ⟨_, hfs', ?_⟩, hsecond hv₁.1, hsecond hv₂.1⟩
    · rw [hlines]
      exact extraKernLine_mem_iff.mpr hsome
    · rw [hlines]
      exact forall₂_transformLine_iff.mpr hsets

theorem extraKernWritten_iff_sample :
    ExtraKernWritten (lit "refind.conf") (lit "#extra_kernel_version_strings linux\n")
        [lit "linux-lts"] [lit "linux"]
        (.single (lit "refind.conf") (lit "#extra_kernel_version_strings linux\n")) ↔
      (∃ line ∈ lines (lit "#extra_kernel_version_strings linux\n"),
          isExtraKernLine line = true) ∧
        ∀ line ∈ lines (lit "#extra_kernel_version_strings linux\n"),
          isExtraKernLine line = true → SetsExtraKern line :=
  extraKernWritten_iff (FileSystem.content_single _ _) (by decide +kernel)
    ⟨by decide, by decide +kernel⟩ ⟨by decide, by decide +kernel⟩ (by decide +kernel)

/-- A file without the key is written as it was, and the call returns `true`. -/
theorem extraKern_absent :
    (refindWriteExtraKernStrings (lit "refind.conf") [lit "linux-lts"]
        (.single (lit "refind.conf") (lit "timeout 20\n"))).1 = true ∧
      ¬ ExtraKernWritten (lit "refind.conf") (lit "timeout 20\n") [lit "linux-lts"] [lit "linux"]
        (.single (lit "refind.conf") (lit "timeout 20\n")) := by
  refine ⟨by decide +kernel, ?_⟩
  rintro ⟨⟨content', hcontent, hactive⟩, -⟩
  have hfs : (refindWriteExtraKernStrings (lit "refind.conf") [lit "linux-lts"]
      (.single (lit "refind.conf") (lit "timeout 20\n"))).2.content (lit "refind.conf") =
      some (lit "timeout 20\n") := by decide +kernel
  obtain rfl := Option.some.inj (hfs.symm.trans hcontent)
  exact absurd hactive (by decide +kernel)

end Write
end Lines

/-! ## The chain -/

section Chain

variable {run : Str → FileSystem → Bool × FileSystem} {config : RefindInstallConfig}
  {fs : FileSystem} {content : Str}

/-- **Every step outside the last one succeeds**: refind-install does, afterwards every file can be
written, and refind.conf is there, not empty. -/
structure InstallPossible (run : Str → FileSystem → Bool × FileSystem)
    (config : RefindInstallConfig) (fs : FileSystem) (content : Str) : Prop where
  installed : (run (refindInstallCmd config.rootMountpoint config.isRemovable) fs).1 = true
  writable : ∀ path,
    (run (refindInstallCmd config.rootMountpoint config.isRemovable) fs).2.writable path = true
  readable : (run (refindInstallCmd config.rootMountpoint config.isRemovable) fs).2.readable
    config.extraRefindConfigPath = true
  content_eq : (run (refindInstallCmd config.rootMountpoint config.isRemovable) fs).2.content
    config.extraRefindConfigPath = some content
  ne_nil : content ≠ []

theorem extraRefindConfigPath_ne {dir name tail : Str} (hlength : tail.length = (lit "d.conf").length)
    (hne : lit "d.conf" ≠ tail) : config.extraRefindConfigPath ≠ dir ++ (name ++ tail) := by
  have hname : lit "/EFI/refind/refind.conf" = lit "/EFI/refind/refin" ++ lit "d.conf" := by
    decide +kernel
  rw [RefindInstallConfig.extraRefindConfigPath, hname, ← List.append_assoc, ← List.append_assoc]
  exact fun h => hne (List.append_inj_right' h hlength.symm)

theorem extraRefindConfigPath_ne_initcpio :
    config.extraRefindConfigPath ≠ config.initcpioFilename := by
  have hname : lit "/etc/mkinitcpio.conf" = lit "/etc/mkinitcpi" ++ lit "o.conf" := by
    decide +kernel
  rw [RefindInstallConfig.initcpioFilename, hname]
  exact extraRefindConfigPath_ne (by decide +kernel) (by decide +kernel)

theorem extraRefindConfigPath_ne_config :
    config.extraRefindConfigPath ≠ config.refindConfigPath := by
  have hname : lit "/boot/refind_linux.conf" = lit "/boot/refind_linu" ++ lit "x.conf" := by
    decide +kernel
  rw [RefindInstallConfig.refindConfigPath, hname]
  exact extraRefindConfigPath_ne (by decide +kernel) (by decide +kernel)

/-- The adjustment of mkinitcpio leaves refind.conf as it is. -/
theorem holds_adjustInitcpio (h : Holds fs config.extraRefindConfigPath content)
    (hwritable : ∀ path, fs.writable path = true) :
    Holds (config.adjustInitcpio fs) config.extraRefindConfigPath content ∧
      ∀ path, (config.adjustInitcpio fs).writable path = true := by
  rw [RefindInstallConfig.adjustInitcpio]
  split_ifs
  · rcases fs_edit ⟨fs, .new config.initcpioFilename⟩ .hooks _ with hfs | ⟨data, hfs⟩
    · rw [Session.removeHook, Session.remove, hfs]
      exact ⟨h, hwritable⟩
    · rw [Session.removeHook, Session.remove, hfs]
      exact ⟨h.set_of_ne data extraRefindConfigPath_ne_initcpio, hwritable⟩
  · exact ⟨h, hwritable⟩

/-- **The chain comes to its last step**, with refind.conf as refind-install left it. -/
theorem installRefind_eq (h : InstallPossible run config fs content) :
    ∃ fs', Holds fs' config.extraRefindConfigPath content ∧
      installRefind run config fs = refindWriteExtraKernStrings config.extraRefindConfigPath
        config.extraKernelVersions fs' := by
  obtain ⟨hadjusted, hwritable⟩ :=
    holds_adjustInitcpio ⟨h.content_eq, h.readable, h.writable _⟩ h.writable
  refine ⟨_, hadjusted.set_of_ne (genRefindConfig config.kernelParams)
    extraRefindConfigPath_ne_config, ?_⟩
  rw [installRefind]
  simp only [h.installed, createFileForOverwrite_of_writable (hwritable _), Bool.not_true,
    Bool.false_eq_true, if_false]
  rcases refindWriteExtraKernStrings config.extraRefindConfigPath config.extraKernelVersions _ with
    ⟨_ | _, fs'⟩ <;> rfl

theorem refindWriteExtraKernStrings_nil (path : Str) (fs : FileSystem) :
    refindWriteExtraKernStrings path [] fs = (false, fs) := by
  simp [refindWriteExtraKernStrings]

/-- **When the chain succeeds, if every other step does**: when there are strings to write. -/
theorem installRefind_iff (h : InstallPossible run config fs content) :
    (installRefind run config fs).1 = true ∧ (config.extraKernelVersions = [] →
        (installRefind run config fs).2.content config.extraRefindConfigPath = some content) ↔
      config.extraKernelVersions ≠ [] := by
  obtain ⟨fs', hfs', hchain⟩ := installRefind_eq h
  rw [hchain]
  constructor
  · rintro ⟨htrue, -⟩ hnil
    rw [hnil, refindWriteExtraKernStrings_nil] at htrue
    cases htrue
  · intro hne
    rw [refindWriteExtraKernStrings_eq hfs' h.ne_nil hne]
    exact ⟨rfl, fun hnil => absurd hnil hne⟩

/-- A configuration of the installer, with strings. -/
def removableConfig (extraKernelVersions : List Str) : RefindInstallConfig :=
  { RefindInstallConfig.ofInstaller true (lit "/mnt") (lit "/boot") [lit "rw"] with
    extraKernelVersions }

theorem installPossible_removableConfig (extraKernelVersions : List Str) :
    InstallPossible (fun _ fs => (true, fs)) (removableConfig extraKernelVersions)
      (.single (lit "/mnt/boot/EFI/refind/refind.conf") (lit "timeout 20\n")) (lit "timeout 20\n") where
  installed := rfl
  writable _ := rfl
  readable := rfl
  content_eq := if_pos (show lit "/mnt" ++ lit "/boot" ++ lit "/EFI/refind/refind.conf" =
    lit "/mnt/boot/EFI/refind/refind.conf" by decide +kernel)
  ne_nil := by decide +kernel

theorem installRefind_iff_removable :
    (installRefind (fun _ fs => (true, fs)) (removableConfig [lit "linux"])
          (.single (lit "/mnt/boot/EFI/refind/refind.conf") (lit "timeout 20\n"))).1 = true ∧
        ((removableConfig [lit "linux"]).extraKernelVersions = [] →
          (installRefind (fun _ fs => (true, fs)) (removableConfig [lit "linux"])
            (.single (lit "/mnt/boot/EFI/refind/refind.conf") (lit "timeout 20\n"))).2.content
              (removableConfig [lit "linux"]).extraRefindConfigPath = some (lit "timeout 20\n")) ↔
      (removableConfig [lit "linux"]).extraKernelVersions ≠ [] :=
  installRefind_iff (installPossible_removableConfig _)

/-- Without strings the chain does everything, and returns `false`. -/
theorem installRefind_noStrings :
    ¬ ((installRefind (fun _ fs => (true, fs)) (removableConfig [])
          (.single (lit "/mnt/boot/EFI/refind/refind.conf") (lit "timeout 20\n"))).1 = true ∧
        ((removableConfig []).extraKernelVersions = [] →
          (installRefind (fun _ fs => (true, fs)) (removableConfig [])
            (.single (lit "/mnt/boot/EFI/refind/refind.conf") (lit "timeout 20\n"))).2.content
              (removableConfig []).extraRefindConfigPath = some (lit "timeout 20\n"))) := by
  rintro ⟨htrue, -⟩
  obtain ⟨fs', -, hchain⟩ := installRefind_eq (installPossible_removableConfig [])
  rw [hchain] at htrue
  exact absurd htrue (by simp [removableConfig, refindWriteExtraKernStrings_nil])

/-- The installer never has strings to write, so there the chain fails after all its work. -/
theorem installRefind_ofInstaller {isVolumeRemovable : Bool} {mountpoint uefiMount : Str}
    {kernelParams : List Str} (h : InstallPossible run
      (.ofInstaller isVolumeRemovable mountpoint uefiMount kernelParams) fs content) :
    (installRefind run (.ofInstaller isVolumeRemovable mountpoint uefiMount kernelParams) fs).1 =
      false := by
  obtain ⟨fs', -, hchain⟩ := installRefind_eq h
  rw [hchain, RefindInstallConfig.ofInstaller, refindWriteExtraKernStrings_nil]

end Chain

end CliInstaller
