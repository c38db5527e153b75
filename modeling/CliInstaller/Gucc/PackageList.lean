import CliInstaller.General.Splitting
import CliInstaller.Gucc.PackageProfiles

/-!
# `gucc::package::get_pkglist_desktop`

The packages of a desktop are those of the profiles whose names occur in a text, in the order in
which the names are looked for, and those of the profile of Xorg where one of the desktops needs it.
A profile that is looked up and not there is an end iterator, which is dereferenced.

Source: `gucc/src/package_list.cpp`.

## Main definitions

* `DesktopEnv`, `supportedDesktops`: the names that are looked for
* `getPkglistDesktop`: the packages
* `expectedPackages`: the packages of some desktops
* `DesktopListed`: what the call is meant to do

## Main results

* `contains_intercalate_iff`: in a list of names, only the names of the list are found
* `desktopListed_iff`: when the call does what it is meant to
-/

namespace CliInstaller

/-- A desktop whose name is looked for, and whether it needs Xorg. -/
structure DesktopEnv where
  name : Str
  neededXorg : Bool
  deriving DecidableEq, Repr

/-- The desktops, in the order in which they are looked for. -/
def supportedDesktops : List DesktopEnv :=
  [⟨lit "i3wm", true⟩, ⟨lit "sway", false⟩, ⟨lit "kde", true⟩, ⟨lit "xfce", true⟩,
    ⟨lit "gnome", true⟩, ⟨lit "wayfire", false⟩, ⟨lit "openbox", true⟩, ⟨lit "lxqt", true⟩,
    ⟨lit "bspwm", true⟩, ⟨lit "cinnamon", true⟩, ⟨lit "ukui", true⟩, ⟨lit "qtile", true⟩,
    ⟨lit "mate", true⟩, ⟨lit "lxde", true⟩, ⟨lit "hyprland", false⟩, ⟨lit "budgie", true⟩]

/-- `std::ranges::find` by the name of the profile. -/
def findProfile (desktopNetProfs : List DesktopProfile) (name : Str) : Option DesktopProfile :=
  desktopNetProfs.find? fun profile => profile.profileName = name

/-- `profile->packages`, of a profile that was looked up. -/
def foundPackages (desktopNetProfs : List DesktopProfile) (name : Str) : Except Fault (List Str) :=
  match findProfile desktopNetProfs name with
  | none => .error .endIterator
  | some profile => .ok profile.packages

/-- One search; the state is `pkg_list` and `needed_xorg`. -/
def addDesktop (desktopEnv : Str) (desktopNetProfs : List DesktopProfile)
    (state : List Str × Bool) (desktop : DesktopEnv) : Except Fault (List Str × Bool) :=
  if contains desktopEnv desktop.name then do
    let packages ← foundPackages desktopNetProfs desktop.name
    return (state.1 ++ packages, state.2 || desktop.neededXorg)
  else .ok state

/-- The searches, and the packages of Xorg. -/
def desktopPackages (desktopEnv : Str) (desktopNetProfs : List DesktopProfile) :
    Except Fault (List Str) := do
  let (pkgList, neededXorg) ←
    supportedDesktops.foldlM (addDesktop desktopEnv desktopNetProfs) ([], false)
  if neededXorg then
    let packages ← foundPackages desktopNetProfs (lit "xorg")
    return pkgList ++ packages
  else return pkgList

structure NetProfileInfo where
  netProfsUrl : Str
  netProfsFallbackUrl : Str
  deriving DecidableEq, Repr

/-- `get_pkglist_desktop`; `fetch` is `fetch_file_from_url`, and `toml` is `toml::parse`. -/
def getPkglistDesktop (fetch : Str → Str → Option Str) (toml : Str → Option TomlTable)
    (desktopEnv : Str) (netProfileInfo : NetProfileInfo) : Except Fault (Option (List Str)) :=
  if netProfileInfo.netProfsUrl.isEmpty && netProfileInfo.netProfsFallbackUrl.isEmpty then .ok none
  else
    match fetch netProfileInfo.netProfsUrl netProfileInfo.netProfsFallbackUrl with
    | none => .ok none
    | some netProfsContent => do
      match ← parseDesktopProfiles toml netProfsContent with
      | none => return none
      | some desktopNetProfs =>
        let pkgList ← desktopPackages desktopEnv desktopNetProfs
        return some pkgList

/-! ## What the call is meant to do -/

/-- The packages of the profile of this name, none if there is none. -/
def profilePackages (desktopNetProfs : List DesktopProfile) (name : Str) : List Str :=
  ((findProfile desktopNetProfs name).map DesktopProfile.packages).getD []

/-- Some of these desktops needs Xorg. -/
def needsXorg (desktops : List DesktopEnv) : Bool := desktops.any DesktopEnv.neededXorg

/-- The packages of these desktops, and those of Xorg where one of them needs it. -/
def expectedPackages (desktopNetProfs : List DesktopProfile) (desktops : List DesktopEnv) :
    List Str :=
  (desktops.flatMap fun desktop => profilePackages desktopNetProfs desktop.name) ++
    if needsXorg desktops then profilePackages desktopNetProfs (lit "xorg") else []

/-- The profiles of these desktops are there, and that of Xorg where one of them needs it. -/
structure ProfilesPresent (desktopNetProfs : List DesktopProfile) (desktops : List DesktopEnv) :
    Prop where
  profile : ∀ desktop ∈ desktops, (findProfile desktopNetProfs desktop.name).isSome
  xorg : needsXorg desktops = true → (findProfile desktopNetProfs (lit "xorg")).isSome

/-- Those of some desktops whose names occur in a text. -/
def mentioned (desktopEnv : Str) (desktops : List DesktopEnv) : List DesktopEnv :=
  desktops.filter fun desktop => contains desktopEnv desktop.name

/-- The desktops whose names occur in a text. -/
def mentionedDesktops (desktopEnv : Str) : List DesktopEnv :=
  mentioned desktopEnv supportedDesktops

/-- The desktops of these names, each once. -/
def namedDesktops (names : List Str) : List DesktopEnv :=
  supportedDesktops.filter fun desktop => names.contains desktop.name

/-- **The call lists the packages**: it returns, and reports a profile that is missing; and for a
list of names separated by spaces, all with their profiles, it returns the packages of these. -/
structure DesktopListed (fetch : Str → Str → Option Str) (toml : Str → Option TomlTable)
    (desktopEnv : Str) (netProfileInfo : NetProfileInfo) (desktopNetProfs : List DesktopProfile) :
    Prop where
  returns : ∃ r, getPkglistDesktop fetch toml desktopEnv netProfileInfo = .ok r
  missing : ¬ ProfilesPresent desktopNetProfs (mentionedDesktops desktopEnv) →
    getPkglistDesktop fetch toml desktopEnv netProfileInfo = .ok none
  listed : ∀ names : List Str, names ⊆ supportedDesktops.map DesktopEnv.name →
    desktopEnv = [' '].intercalate names →
    ProfilesPresent desktopNetProfs (namedDesktops names) →
    getPkglistDesktop fetch toml desktopEnv netProfileInfo =
      .ok (some (expectedPackages desktopNetProfs (namedDesktops names)))

/-- The profiles were downloaded and parsed. -/
structure Downloaded (fetch : Str → Str → Option Str) (toml : Str → Option TomlTable)
    (netProfileInfo : NetProfileInfo) (desktopNetProfs : List DesktopProfile) : Prop where
  url : netProfileInfo.netProfsUrl ≠ [] ∨ netProfileInfo.netProfsFallbackUrl ≠ []
  parsed : ∃ netProfsContent,
    fetch netProfileInfo.netProfsUrl netProfileInfo.netProfsFallbackUrl = some netProfsContent ∧
      parseDesktopProfiles toml netProfsContent = .ok (some desktopNetProfs)

/-! ## The searches -/

section Searches

variable {desktopEnv : Str} {desktopNetProfs : List DesktopProfile} {desktops : List DesktopEnv}
  {name : Str}

theorem mentioned_cons_of_pos {desktop : DesktopEnv}
    (h : contains desktopEnv desktop.name = true) :
    mentioned desktopEnv (desktop :: desktops) = desktop :: mentioned desktopEnv desktops :=
  List.filter_cons_of_pos h

theorem mentioned_cons_of_neg {desktop : DesktopEnv}
    (h : ¬ contains desktopEnv desktop.name = true) :
    mentioned desktopEnv (desktop :: desktops) = mentioned desktopEnv desktops :=
  List.filter_cons_of_neg h

theorem foundPackages_of_isSome (h : (findProfile desktopNetProfs name).isSome) :
    foundPackages desktopNetProfs name = .ok (profilePackages desktopNetProfs name) := by
  obtain ⟨profile, hprofile⟩ := Option.isSome_iff_exists.mp h
  rw [foundPackages, profilePackages, hprofile]
  rfl

theorem foundPackages_of_not_isSome (h : ¬ (findProfile desktopNetProfs name).isSome) :
    foundPackages desktopNetProfs name = .error .endIterator := by
  rw [foundPackages, Option.not_isSome_iff_eq_none.mp h]

/-- **Searches whose profiles are all there** append the packages of the desktops found. -/
theorem foldlM_addDesktop_ok {state : List Str × Bool}
    (h : ∀ desktop ∈ mentioned desktopEnv desktops,
      (findProfile desktopNetProfs desktop.name).isSome) :
    desktops.foldlM (addDesktop desktopEnv desktopNetProfs) state =
      .ok (state.1 ++ (mentioned desktopEnv desktops).flatMap fun desktop =>
          profilePackages desktopNetProfs desktop.name,
        state.2 || needsXorg (mentioned desktopEnv desktops)) := by
  induction desktops generalizing state with
  | nil => simp [mentioned, needsXorg, pure, Except.pure]
  | cons desktop desktops ih =>
    rw [List.foldlM_cons, addDesktop]
    by_cases hfound : contains desktopEnv desktop.name = true
    · rw [mentioned_cons_of_pos hfound] at h ⊢
      rw [if_pos hfound, foundPackages_of_isSome (h desktop List.mem_cons_self)]
      simp only [pure, Except.pure, bind, Except.bind]
      rw [ih fun d hd => h d (List.mem_cons_of_mem _ hd)]
      simp [needsXorg, Bool.or_assoc]
    · rw [mentioned_cons_of_neg hfound] at h ⊢
      rw [if_neg hfound]
      exact ih h

/-- A search whose profile is missing faults, and none before it returns. -/
theorem foldlM_addDesktop_error {state : List Str × Bool}
    (h : ∃ desktop ∈ mentioned desktopEnv desktops,
      ¬ (findProfile desktopNetProfs desktop.name).isSome) :
    desktops.foldlM (addDesktop desktopEnv desktopNetProfs) state = .error .endIterator := by
  induction desktops generalizing state with
  | nil => simp [mentioned] at h
  | cons desktop desktops ih =>
    rw [List.foldlM_cons, addDesktop]
    by_cases hfound : contains desktopEnv desktop.name = true
    · rw [mentioned_cons_of_pos hfound, List.exists_mem_cons_iff] at h
      rw [if_pos hfound]
      by_cases hsome : (findProfile desktopNetProfs desktop.name).isSome
      · rw [foundPackages_of_isSome hsome]
        exact ih (h.resolve_left (not_not_intro hsome))
      · rw [foundPackages_of_not_isSome hsome]
        rfl
    · rw [mentioned_cons_of_neg hfound] at h
      rw [if_neg hfound]
      exact ih h

/-- **The packages, when the profiles are there.** -/
theorem desktopPackages_ok
    (h : ProfilesPresent desktopNetProfs (mentionedDesktops desktopEnv)) :
    desktopPackages desktopEnv desktopNetProfs =
      .ok (expectedPackages desktopNetProfs (mentionedDesktops desktopEnv)) := by
  rw [desktopPackages, foldlM_addDesktop_ok h.profile]
  simp only [bind, Except.bind, List.nil_append, Bool.false_or, pure, Except.pure]
  rw [← mentionedDesktops, expectedPackages]
  by_cases hxorg : needsXorg (mentionedDesktops desktopEnv) = true
  · rw [if_pos hxorg, if_pos hxorg, foundPackages_of_isSome (h.xorg hxorg)]
  · rw [if_neg hxorg, if_neg hxorg, List.append_nil]

/-- **A missing profile is dereferenced.** -/
theorem desktopPackages_error
    (h : ¬ ProfilesPresent desktopNetProfs (mentionedDesktops desktopEnv)) :
    desktopPackages desktopEnv desktopNetProfs = .error .endIterator := by
  rw [desktopPackages]
  by_cases hprofile : ∀ desktop ∈ mentionedDesktops desktopEnv,
      (findProfile desktopNetProfs desktop.name).isSome
  · rw [foldlM_addDesktop_ok hprofile]
    simp only [bind, Except.bind, List.nil_append, Bool.false_or]
    rw [← mentionedDesktops]
    obtain ⟨hxorg, hmissing⟩ : needsXorg (mentionedDesktops desktopEnv) = true ∧
        ¬ (findProfile desktopNetProfs (lit "xorg")).isSome := by
      rw [← Classical.not_imp]
      exact fun hxorg => h ⟨hprofile, hxorg⟩
    rw [if_pos hxorg, foundPackages_of_not_isSome hmissing]
  · simp only [not_forall, exists_prop] at hprofile
    rw [foldlM_addDesktop_error hprofile]
    rfl

end Searches

/-! ## Names in a list -/

/-- No name that is looked for occurs in another one. -/
theorem eq_of_name_occurs {desktop other : DesktopEnv} (hd : desktop ∈ supportedDesktops)
    (ho : other ∈ supportedDesktops) (h : desktop.name <:+: other.name) :
    desktop.name = other.name := by
  have hall : (supportedDesktops.all fun desktop => supportedDesktops.all fun other =>
      !contains other.name desktop.name || desktop.name = other.name) = true := by
    decide +kernel
  have hpair := List.all_eq_true.mp (List.all_eq_true.mp hall desktop hd) other ho
  rw [contains_of_occurs h] at hpair
  simpa using hpair

theorem name_word {desktop : DesktopEnv} (hd : desktop ∈ supportedDesktops) :
    desktop.name ≠ [] ∧ ' ' ∉ desktop.name := by
  have hall : (supportedDesktops.all fun desktop =>
      !desktop.name.isEmpty && !desktop.name.contains ' ') = true := by decide +kernel
  simpa using List.all_eq_true.mp hall desktop hd

/-- **In a list of names, only the names of the list are found**: not inside another name, and not
across a separator. -/
theorem contains_intercalate_iff {names : List Str}
    (hnames : names ⊆ supportedDesktops.map DesktopEnv.name) {desktop : DesktopEnv}
    (hd : desktop ∈ supportedDesktops) :
    contains ([' '].intercalate names) desktop.name = true ↔ desktop.name ∈ names := by
  obtain ⟨hne, hspace⟩ := name_word hd
  rw [contains_iff, Splitting.infix_intercalate_iff hne hspace]
  constructor
  · rintro ⟨name, hname, hinfix⟩
    obtain ⟨other, ho, rfl⟩ := List.mem_map.mp (hnames hname)
    rwa [eq_of_name_occurs hd ho hinfix]
  · exact fun hname => ⟨_, hname, List.infix_rfl⟩

theorem mentionedDesktops_intercalate {names : List Str}
    (hnames : names ⊆ supportedDesktops.map DesktopEnv.name) :
    mentionedDesktops ([' '].intercalate names) = namedDesktops names := by
  refine List.filter_congr fun desktop hd => ?_
  rw [Bool.eq_iff_iff, contains_intercalate_iff hnames hd, List.contains_iff_mem]

/-! ## The call -/

section Call

variable {fetch : Str → Str → Option Str} {toml : Str → Option TomlTable} {desktopEnv : Str}
  {netProfileInfo : NetProfileInfo} {desktopNetProfs : List DesktopProfile}

theorem getPkglistDesktop_eq (h : Downloaded fetch toml netProfileInfo desktopNetProfs) :
    getPkglistDesktop fetch toml desktopEnv netProfileInfo =
      (desktopPackages desktopEnv desktopNetProfs).map some := by
  obtain ⟨content, hfetch, hparse⟩ := h.parsed
  have hurl : ¬ (netProfileInfo.netProfsUrl.isEmpty &&
      netProfileInfo.netProfsFallbackUrl.isEmpty) = true := by
    rw [Bool.and_eq_true, List.isEmpty_iff, List.isEmpty_iff, not_and_or]
    exact h.url
  rw [getPkglistDesktop, if_neg hurl, hfetch]
  simp only [hparse]
  rfl

/-- **When the call lists the packages**: when every desktop whose name occurs in the text has a
profile, and Xorg has one where one of these needs it. -/
theorem desktopListed_iff (h : Downloaded fetch toml netProfileInfo desktopNetProfs) :
    DesktopListed fetch toml desktopEnv netProfileInfo desktopNetProfs ↔
      ProfilesPresent desktopNetProfs (mentionedDesktops desktopEnv) := by
  constructor
  · rintro ⟨⟨r, hr⟩, -, -⟩
    by_contra hmissing
    rw [getPkglistDesktop_eq h, desktopPackages_error hmissing] at hr
    cases hr
  · intro hpresent
    have hok := @getPkglistDesktop_eq _ _ desktopEnv _ _ h
    rw [desktopPackages_ok hpresent] at hok
    refine ⟨⟨_, hok⟩, fun hmissing => absurd hpresent hmissing, ?_⟩
    rintro names hnames rfl -
    rw [hok, mentionedDesktops_intercalate hnames]
    rfl

end Call

/-- The text of a file with one desktop. -/
def swayText : Str := lit "[desktop.sway]\npackages = [\x22sway\x22]\n"

/-- The document that it is parsed as. -/
def swayOnly : TomlTable :=
  [(lit "desktop", .table [(lit "sway", .table [(lit "packages", .array [.string (lit "sway")])])])]

/-- A parser that knows this text. -/
def parseSwayText (text : Str) : Option TomlTable := if text = swayText then some swayOnly else none

theorem downloaded_swayOnly :
    Downloaded (fun _ _ => some swayText) parseSwayText ⟨lit "file:///profiles", []⟩
      [⟨lit "sway", [lit "sway"]⟩] where
  url := .inl (by decide +kernel)
  parsed := by
    refine ⟨swayText, rfl, ?_⟩
    have hdesktop : TomlTable.view swayOnly (lit "desktop") =
        some (.table [(lit "sway", .table [(lit "packages", .array [.string (lit "sway")])])]) := by
      simp [TomlTable.view, swayOnly]
    have hpackages : TomlTable.view [(lit "packages", .array [.string (lit "sway")])]
        (lit "packages") = some (.array [.string (lit "sway")]) := by
      simp [TomlTable.view]
    simp [parseDesktopProfiles, parseSwayText, hdesktop, parseDesktopEntry, NodeView.asTable, deref,
      hpackages, NodeView.asArray, parseTomlArray, TomlNode.stringValue, optionalValue, bind,
      Except.bind, pure, Except.pure]

theorem desktopListed_iff_sway :
    DesktopListed (fun _ _ => some swayText) parseSwayText (lit "sway")
        ⟨lit "file:///profiles", []⟩ [⟨lit "sway", [lit "sway"]⟩] ↔
      ProfilesPresent [⟨lit "sway", [lit "sway"]⟩] (mentionedDesktops (lit "sway")) :=
  desktopListed_iff downloaded_swayOnly

/-- A desktop without a profile: the end iterator is dereferenced. -/
theorem desktop_without_profile :
    ¬ DesktopListed (fun _ _ => some swayText) parseSwayText (lit "kde")
      ⟨lit "file:///profiles", []⟩ [⟨lit "sway", [lit "sway"]⟩] := by
  rintro ⟨⟨r, hr⟩, -, -⟩
  have herror : desktopPackages (lit "kde") [⟨lit "sway", [lit "sway"]⟩] =
      .error .endIterator := by decide +kernel
  rw [getPkglistDesktop_eq downloaded_swayOnly, herror] at hr
  cases hr

end CliInstaller
