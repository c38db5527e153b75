import CliInstaller.Installer.ReadyPartitions

/-!
# The settings file

`parse_config` reads `settings.json` into the settings. Every string that a headless run needs has
to be a member of the document; that it is not empty is not checked.

Source: `src/utils.cpp`, `src/config.cpp`.

## Main definitions

* `SimpleSettings`: the settings that are written
* `requiredString`, `partitionsField`, `userFields`: the members of the document
* `parseConfig`: the function

## Main results

* `parseConfig_headless`: what the document of a headless run contains
-/

namespace CliInstaller

/-- The settings that `parse_config` writes. -/
structure SimpleSettings where
  menus : Int
  headlessMode : Bool
  serverMode : Bool
  device : Str
  filesystemName : Str
  readyPartitions : List Str
  mountOpts : Str
  hostname : Str
  locale : Str
  xkbmap : Str
  timezone : Str
  userName : Str
  userPass : Str
  userShell : Str
  rootPass : Str
  kernel : Str
  de : Str
  bootloader : Str
  postInstall : Str
  deriving DecidableEq, Repr

/-- What `Config::initialize` sets of them; a string that is not set is empty. -/
def SimpleSettings.initial : SimpleSettings where
  menus := 2
  headlessMode := false
  serverMode := false
  device := []
  filesystemName := []
  readyPartitions := []
  mountOpts := []
  hostname := []
  locale := []
  xkbmap := lit "us"
  timezone := []
  userName := []
  userPass := []
  userShell := []
  rootPass := []
  kernel := []
  de := []
  bootloader := []
  postInstall := []

/-! ## The members -/

/-- A member that is asserted to be an `int`. -/
def assertInt (doc : Json) (key : Str) : Except Rejection Int :=
  match doc.member key with
  | some (.number n) => if -2147483648 ≤ n && n ≤ 2147483647 then .ok n else .error .assertion
  | _ => .error .assertion

/-- A flag, which keeps its value where it is not a member. -/
def boolField (doc : Json) (key : Str) (value : Bool) : Except Rejection Bool :=
  match doc.member key with
  | some (.bool b) => .ok b
  | some _ => .error .assertion
  | none => .ok value

/-- A string that keeps its value where it is not a member. -/
def stringField (doc : Json) (key value : Str) : Except Rejection Str :=
  if (doc.member key).isSome then assertString doc key else .ok value

/-- A string that has to be a member in headless mode. -/
def requiredString (doc : Json) (headlessMode : Bool) (key value : Str) : Except Rejection Str :=
  if (doc.member key).isSome then assertString doc key
  else if headlessMode then
    .error <| .invalid <| lit "'" ++ key ++ lit "' field is required in HEADLESS mode!\n"
  else .ok value

/-- The partitions array. -/
def partitionsField (doc : Json) (headlessMode : Bool) (rootFstype : Str)
    (readyPartitions : List Str) : Except Rejection (List Str) :=
  match doc.member (lit "partitions") with
  | some (.array partitions) => parsePartitions rootFstype partitions
  | some _ => .error .assertion
  | none =>
    if headlessMode then
      .error (.invalid (lit "'partitions' field is required in HEADLESS mode!\n"))
    else .ok readyPartitions

/-- The name, the password and the shell of the user, which are read together. -/
def userFields (doc : Json) (config : SimpleSettings) (headlessMode : Bool) :
    Except Rejection (Str × Str × Str) :=
  if (doc.member (lit "user_name")).isSome && (doc.member (lit "user_pass")).isSome &&
      (doc.member (lit "user_shell")).isSome then do
    let userName ← assertString doc (lit "user_name")
    let userPass ← assertString doc (lit "user_pass")
    let userShell ← assertString doc (lit "user_shell")
    return (userName, userPass, userShell)
  else if headlessMode then
    .error <| .invalid <|
      lit "'user_name', 'user_pass', 'user_shell' fields are required in HEADLESS mode!\n"
  else .ok (config.userName, config.userPass, config.userShell)

/-- `doc.IsObject()` -/
def assertObject : Json → Except Rejection Unit
  | .object _ => .ok ()
  | _ => .error .assertion

/-- **`parse_config`**; there is no document where the file cannot be opened. -/
def parseConfig (doc : Option Json) (config : SimpleSettings) :
    Except Rejection SimpleSettings :=
  match doc with
  | none => .ok config
  | some doc => do
    assertObject doc
    let menus ← assertInt doc (lit "menus")
    let headlessMode ← boolField doc (lit "headless_mode") config.headlessMode
    let serverMode ← boolField doc (lit "server_mode") config.serverMode
    let device ← requiredString doc headlessMode (lit "device") config.device
    let filesystemName ← requiredString doc headlessMode (lit "fs_name") config.filesystemName
    let readyPartitions ←
      partitionsField doc headlessMode filesystemName config.readyPartitions
    let mountOpts ← stringField doc (lit "mount_opts") config.mountOpts
    let hostname ← requiredString doc headlessMode (lit "hostname") config.hostname
    let locale ← requiredString doc headlessMode (lit "locale") config.locale
    let xkbmap ← requiredString doc headlessMode (lit "xkbmap") config.xkbmap
    let timezone ← requiredString doc headlessMode (lit "timezone") config.timezone
    let (userName, userPass, userShell) ← userFields doc config headlessMode
    let rootPass ← requiredString doc headlessMode (lit "root_pass") config.rootPass
    let kernel ← requiredString doc headlessMode (lit "kernel") config.kernel
    let de ← requiredString doc headlessMode (lit "desktop") config.de
    let bootloader ← requiredString doc headlessMode (lit "bootloader") config.bootloader
    let postInstall ← stringField doc (lit "post_install") config.postInstall
    return { menus, headlessMode, serverMode, device, filesystemName, readyPartitions, mountOpts,
             hostname, locale, xkbmap, timezone, userName, userPass, userShell, rootPass, kernel,
             de, bootloader, postInstall }

/-! ## Documents of headless runs -/

/-- In headless mode the string is a member of the document. -/
theorem requiredString_headless {doc : Json} {key value s : Str} :
    requiredString doc true key value = .ok s ↔ doc.getString key = some s := by
  rw [requiredString, if_pos rfl]
  split_ifs with hmember
  · exact assertString_eq_ok
  · have hnone : doc.getString key = none := by
      rw [Json.getString, Option.not_isSome_iff_eq_none.mp hmember]
    simp [hnone]

/-- In headless mode the partitions are an array, which has as many entries. -/
theorem partitionsField_headless {doc : Json} {rootFstype : Str} {old readyPartitions : List Str}
    (h : partitionsField doc true rootFstype old = .ok readyPartitions) :
    readyPartitions = [] ↔ doc.member (lit "partitions") = some (.array []) := by
  rw [partitionsField] at h
  split at h
  next partitions hmember =>
    rw [hmember, Option.some.injEq, Json.array.injEq, ← List.length_eq_zero_iff,
      ← List.length_eq_zero_iff, (mapM_eq_ok.mp h).length_eq]
  next => cases h
  next => cases h

/-- **What the document of a headless run contains**, of the members that are read first. -/
theorem parseConfig_headless {doc : Json} {config settings : SimpleSettings}
    (h : parseConfig (some doc) config = .ok settings) (hheadless : settings.headlessMode = true) :
    doc.getString (lit "device") = some settings.device ∧
      doc.getString (lit "fs_name") = some settings.filesystemName ∧
      doc.getString (lit "bootloader") = some settings.bootloader ∧
      (settings.readyPartitions = [] ↔ doc.member (lit "partitions") = some (.array [])) := by
  simp only [parseConfig, bind_eq_ok] at h
  obtain ⟨_, -, menus, -, headlessMode, -, serverMode, -, device, hdevice, filesystemName, hfsName,
    readyPartitions, hpartitions, mountOpts, -, hostname, -, locale, -, xkbmap, -, timezone, -,
    user, -, rootPass, -, kernel, -, de, -, bootloader, hbootloader, postInstall, -, h⟩ := h
  obtain rfl := Except.ok.inj h
  obtain rfl : headlessMode = true := hheadless
  exact ⟨requiredString_headless.mp hdevice, requiredString_headless.mp hfsName,
    requiredString_headless.mp hbootloader, partitionsField_headless hpartitions⟩

end CliInstaller
