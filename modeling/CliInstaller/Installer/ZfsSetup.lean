import CliInstaller.General.Commands
import CliInstaller.General.Hierarchy
import CliInstaller.Installer.CommandWords

/-!
# Setting up a zpool

`zfs_create_with_config` creates a zpool and its datasets, tells the pool which dataset it boots, and
exports it. The name of the pool is written right behind the options, so the pool is created only
where these are empty or end in a blank, and never with encryption. The options of the installer do
not end in a blank: it creates no pool at all.

Source: `gucc/src/zfs.cpp`, `gucc/include/gucc/zfs_types.hpp`, `src/disk.cpp`.

## Main definitions

* `ZfsHost`: the pools, and the operations on them
* `ZfsTools`: what `zpool` and `zfs` do, in terms of the tokens of a line
* `zfsCreateWithConfig`, `zfsAutoPres`, `diskCreateZpool`: the functions

## Main results

* `zfsCreateWithConfig_iff`: when a pool is set up, and what is there then
* `installer_creates_no_zpool`: the installer creates none
-/

namespace CliInstaller

open Shell Splitting Commands

/-! ## The functions -/

/-- `fs::ZfsDataset` -/
structure ZfsDataset where
  zpath : Str
  mountpoint : Str
  deriving DecidableEq, Repr

/-- `fs::ZfsSetupConfig` -/
structure ZfsSetupConfig where
  zpoolName : Str
  zpoolOptions : Str
  passphrase : Option Str
  datasets : List ZfsDataset
  deriving DecidableEq, Repr

/-- The command of `zfs_create_dataset`. -/
def zfsCreateDatasetCmd (zdataset : ZfsDataset) : Str :=
  lit "zfs create -o mountpoint=" ++ zdataset.mountpoint ++ lit " " ++ zdataset.zpath ++
    lit " 2>>/tmp/cachyos-install.log"

/-- The command of `zpool_set_property`. -/
def zpoolSetPropertyCmd (property poolName : Str) : Str :=
  lit "zpool set " ++ property ++ lit " " ++ poolName ++ lit " 2>>/tmp/cachyos-install.log"

def zfsExportCmd (poolName : Str) : Str :=
  lit "zpool export " ++ poolName ++ lit " 2>>/tmp/cachyos-install.log"

/-- The property for zfsbootmenu. -/
def bootfsProperty (rootfs : ZfsDataset) : Str := lit "bootfs=" ++ rootfs.zpath

/-- The first dataset that is mounted at the root directory. -/
def findRootfs (datasets : List ZfsDataset) : Option ZfsDataset :=
  datasets.find? fun zdataset => zdataset.mountpoint = lit "/"

/-- **`zfs_create_with_config`** -/
def zfsCreateWithConfig {σ : Type} (exec : Exec Str σ) (devicePath : Str) (config : ZfsSetupConfig) :
    σ → Bool × σ :=
  andThen (exec (zfsCreateZpool devicePath config.zpoolName config.zpoolOptions config.passphrase))
    (andThen (runAll exec (config.datasets.map zfsCreateDatasetCmd))
      (andThen
        (match findRootfs config.datasets with
          | some rootfs => exec (zpoolSetPropertyCmd (bootfsProperty rootfs) config.zpoolName)
          | none => fun s => (true, s))
        (exec (zfsExportCmd config.zpoolName))))

/-- `default_zfs_datasets` of `zfs_auto_pres` -/
def defaultZfsDatasets (zfsZpoolName : Str) : List ZfsDataset :=
  [⟨zfsZpoolName ++ lit "/ROOT", lit "none"⟩,
    ⟨zfsZpoolName ++ lit "/ROOT/cos", lit "none"⟩,
    ⟨zfsZpoolName ++ lit "/ROOT/cos/root", lit "/"⟩,
    ⟨zfsZpoolName ++ lit "/ROOT/cos/home", lit "/home"⟩,
    ⟨zfsZpoolName ++ lit "/ROOT/cos/varcache", lit "/var/cache"⟩,
    ⟨zfsZpoolName ++ lit "/ROOT/cos/varlog", lit "/var/log"⟩]

/-- The settings that the functions of `disk.cpp` write. -/
structure ZfsSettings where
  zfs : Int
  setupConfig : Option ZfsSetupConfig
  zpoolNames : List Str
  deriving DecidableEq, Repr

/-- **`utils::zfs_auto_pres`** -/
def zfsAutoPres {σ : Type} (exec : Exec Str σ) (partition zfsZpoolName : Str)
    (configData : ZfsSettings) (s : σ) : Bool × ZfsSettings × σ :=
  let config : ZfsSetupConfig := ⟨zfsZpoolName, zpoolOptions, none, defaultZfsDatasets zfsZpoolName⟩
  match zfsCreateWithConfig exec partition config s with
  | (false, s) => (false, configData, s)
  | (true, s) =>
    (true, ⟨1, some config, configData.zpoolNames ++ [zfsZpoolName]⟩, s)

/-- **`utils::zfs_create_zpool`**; `partuuid` is what `lsblk` says of the partition. -/
def diskCreateZpool {σ : Type} (exec : Exec Str σ) (partition poolName mountpoint partuuid : Str)
    (configData : ZfsSettings) (s : σ) : Bool × ZfsSettings × σ :=
  let devicePath := if partuuid.isEmpty then partition else partuuid
  match exec (zfsCreateZpool devicePath poolName zpoolOptions none) s with
  | (false, s) => (false, configData, s)
  | (true, s) =>
    let s := (exec (zfsExportCmd poolName) s).2
    let s := (exec (lit "zpool import -R " ++ mountpoint ++ lit " " ++ poolName ++
      lit " 2>>/tmp/cachyos-install.log") s).2
    (true, { configData with zfs := 1, zpoolNames := configData.zpoolNames ++ [poolName] }, s)

/-! ## The pools -/

/-- A pool on a device, with its datasets and the one that it boots. -/
structure Zpool where
  name : Str
  device : Str
  datasets : List ZfsDataset
  bootfs : Option Str
  deriving DecidableEq, Repr

/-- The pools that are imported, and those that are exported. -/
structure ZfsHost where
  imported : List Zpool
  exported : List Zpool
  deriving DecidableEq, Repr

/-- The dataset above. -/
def zfsParent (zpath : Str) : Str := ((zpath.reverse.dropWhile (· ≠ '/')).drop 1).reverse

/-- The pool of a dataset. -/
def zfsPoolOf (zpath : Str) : Str := zpath.takeWhile (· ≠ '/')

namespace Zpool

/-- The pool and its datasets. -/
def paths (pool : Zpool) : List Str := pool.name :: pool.datasets.map ZfsDataset.zpath

/-- A dataset is created under one that is there. -/
def create (accepts : ZfsDataset → Bool) (zdataset : ZfsDataset) (pool : Zpool) : Option Zpool :=
  if (zfsParent zdataset.zpath ∈ pool.paths ∧ zdataset.zpath ∉ pool.paths) ∧ accepts zdataset then
    some { pool with datasets := pool.datasets ++ [zdataset] }
  else none

/-- One of the datasets is to be booted. -/
def setBootfs (zpath : Str) (pool : Zpool) : Option Zpool :=
  if zpath ∈ pool.datasets.map ZfsDataset.zpath then some { pool with bootfs := some zpath } else none

end Zpool

/-- What `zpool create` is asked for: whether to force it, and its operands. -/
structure ZpoolArguments where
  force : Bool
  operands : List Str
  deriving DecidableEq, Repr

/-- The arguments of `zpool create`, with options that are followed by a property; there is no pool after
any other option. -/
def zpoolArguments (acceptsProperty : Str → Str → Bool) : List Str → Option ZpoolArguments
  | [] => some ⟨false, []⟩
  | word :: words =>
    if word = lit "-f" then
      (zpoolArguments acceptsProperty words).map fun arguments => { arguments with force := true }
    else if word = lit "-o" ∨ word = lit "-O" then
      match words with
      | property :: words =>
        if acceptsProperty word property then zpoolArguments acceptsProperty words else none
      | [] => none
    else if word.head? = some '-' then none
    else (zpoolArguments acceptsProperty words).map fun arguments =>
      { arguments with operands := word :: arguments.operands }

namespace ZfsHost

/-- A pool is created from a name and one device. No imported pool has them; an exported pool on the
device is lost if this is forced. -/
def createPool (validPool usable : Str → Bool) (arguments : ZpoolArguments) (host : ZfsHost) :
    Option ZfsHost :=
  match arguments.operands with
  | [name, device] =>
    if ((validPool name ∧ usable device) ∧
        ∀ pool ∈ host.imported, pool.name ≠ name ∧ pool.device ≠ device) ∧
        (arguments.force ∨ ∀ pool ∈ host.exported, pool.device ≠ device) then
      some ⟨host.imported ++ [⟨name, device, [], none⟩],
        host.exported.filter fun pool => pool.device ≠ device⟩
    else none
  | _ => none

/-- An operation on an imported pool. -/
def onPool (name : Str) (op : Zpool → Option Zpool) (host : ZfsHost) : Option ZfsHost :=
  ((host.imported.find? fun pool => pool.name = name).bind op).map fun pool' =>
    { host with imported := host.imported.map fun pool => if pool.name = name then pool' else pool }

/-- An imported pool is exported. -/
def exportPool (name : Str) (host : ZfsHost) : Option ZfsHost :=
  (host.imported.find? fun pool => pool.name = name).map fun pool =>
    ⟨host.imported.filter fun pool => pool.name ≠ name, host.exported ++ [pool]⟩

end ZfsHost

/-! ## The tools -/

/-- **What the tools do**, in terms of the tokens of a line. -/
structure ZfsTools (exec : Exec Str ZfsHost) (acceptsProperty : Str → Str → Bool)
    (validPool usable : Str → Bool) (accepts : ZfsDataset → Bool) : Prop where
  zpoolCreate : ∀ line passphrase words,
    parse line = some (pipeTokens passphrase ++ [.word (lit "zpool"), .word (lit "create")] ++
      words.map .word ++ errorTokens) →
      CarriesOut exec line fun host =>
        (zpoolArguments acceptsProperty words).bind fun arguments =>
          host.createPool validPool usable arguments
  zfsCreate : ∀ line zdataset,
    parse line = some ([.word (lit "zfs"), .word (lit "create"), .word (lit "-o"),
      .word (lit "mountpoint=" ++ zdataset.mountpoint), .word zdataset.zpath] ++ errorTokens) →
      CarriesOut exec line (ZfsHost.onPool (zfsPoolOf zdataset.zpath) (Zpool.create accepts zdataset))
  zpoolSet : ∀ line zpath name,
    parse line = some ([.word (lit "zpool"), .word (lit "set"), .word (lit "bootfs=" ++ zpath),
      .word name] ++ errorTokens) →
      CarriesOut exec line (ZfsHost.onPool name (Zpool.setBootfs zpath))
  zpoolExport : ∀ line name,
    parse line = some ([.word (lit "zpool"), .word (lit "export"), .word name] ++ errorTokens) →
      CarriesOut exec line (ZfsHost.exportPool name)
  /-- a name of a pool is no option, and has no equals sign -/
  poolName : ∀ name, validPool name = true → name.head? ≠ some '-' ∧ '=' ∉ name
  /-- nor is a device -/
  deviceName : ∀ device, usable device = true → device.head? ≠ some '-'

/-- The operation that a command line asks for. -/
def zfsOperation (acceptsProperty : Str → Str → Bool) (validPool usable : Str → Bool)
    (accepts : ZfsDataset → Bool) : List Str → ZfsHost → Option ZfsHost
  | program :: verb :: args =>
    if program = lit "zpool" ∧ verb = lit "create" then fun host =>
      (zpoolArguments acceptsProperty args).bind fun arguments =>
        host.createPool validPool usable arguments
    else if program = lit "zpool" ∧ verb = lit "set" then
      match args with
      | [property, name] => ZfsHost.onPool name (Zpool.setBootfs (property.drop 7))
      | _ => fun _ => none
    else if program = lit "zpool" ∧ verb = lit "export" then
      match args with
      | [name] => ZfsHost.exportPool name
      | _ => fun _ => none
    else if program = lit "zfs" ∧ verb = lit "create" then
      match args with
      | [_, mountpoint, zpath] =>
        ZfsHost.onPool (zfsPoolOf zpath) (Zpool.create accepts ⟨zpath, mountpoint.drop 11⟩)
      | _ => fun _ => none
    else fun _ => none
  | _ => fun _ => none

/-- The tokens of the command that a passphrase is piped to. -/
def afterPipe : List Token → List Token
  | _ :: _ :: .operator ['|'] :: tokens => tokens
  | tokens => tokens

/-- A shell with these tools. -/
def runZfs (acceptsProperty : Str → Str → Bool) (validPool usable : Str → Bool)
    (accepts : ZfsDataset → Bool) (line : Str) : ZfsHost → Bool × ZfsHost :=
  match parse line with
  | some tokens =>
    attempt (zfsOperation acceptsProperty validPool usable accepts (leadingWords (afterPipe tokens)).1)
  | none => fun host => (false, host)

/-- **The tools do what they are said to do**, in this shell. -/
theorem zfsTools (acceptsProperty : Str → Str → Bool) {validPool usable : Str → Bool}
    (accepts : ZfsDataset → Bool)
    (hpool : ∀ name, validPool name = true → name.head? ≠ some '-' ∧ '=' ∉ name)
    (hdevice : ∀ device, usable device = true → device.head? ≠ some '-') :
    ZfsTools (runZfs acceptsProperty validPool usable accepts) acceptsProperty validPool usable
      accepts := by
  have hrun {line : Str} {passphrase : Option Str} {words : List Str} {op : ZfsHost → Option ZfsHost}
      (hline : parse line = some (pipeTokens passphrase ++ words.map .word ++ errorTokens))
      (htwo : 2 ≤ words.length)
      (hop : zfsOperation acceptsProperty validPool usable accepts words = op) :
      CarriesOut (runZfs acceptsProperty validPool usable accepts) line op := by
    intro host
    subst hop
    have hwords : (leadingWords (words.map .word ++ errorTokens)).1 = words :=
      congrArg Prod.fst (leadingWords_append words (fun _ => Token.noConfusion) _)
    have hpipe : afterPipe (pipeTokens passphrase ++ words.map .word ++ errorTokens) =
        words.map .word ++ errorTokens := by
      rcases passphrase with _ | text
      · match words, htwo with
        | [first, second], _ => rfl
        | first :: second :: third :: words, _ => rfl
      · rfl
    simp only [runZfs, hline, hpipe, hwords]
  have hverbs : (lit "set" ≠ lit "create" ∧ lit "export" ≠ lit "create" ∧ lit "export" ≠ lit "set") ∧
      lit "zfs" ≠ lit "zpool" := by
    simp [lit_eq]
  constructor
  · intro line passphrase words hline
    refine @hrun _ passphrase (lit "zpool" :: lit "create" :: words) _ ?_ (by simp) ?_
    · rw [hline]
      simp
    · simp [zfsOperation]
  · intro line zdataset hline
    refine @hrun _ none [lit "zfs", lit "create", lit "-o", lit "mountpoint=" ++ zdataset.mountpoint,
      zdataset.zpath] _ hline (by simp) ?_
    have hdrop : (lit "mountpoint=" ++ zdataset.mountpoint).drop 11 = zdataset.mountpoint := by
      rw [lit_ofList]
      rfl
    simp [zfsOperation, hverbs, hdrop]
  · intro line zpath name hline
    refine @hrun _ none [lit "zpool", lit "set", lit "bootfs=" ++ zpath, name] _ hline (by simp) ?_
    have hdrop : (lit "bootfs=" ++ zpath).drop 7 = zpath := by
      rw [lit_ofList]
      rfl
    simp [zfsOperation, hverbs, hdrop]
  · intro line name hline
    refine @hrun _ none [lit "zpool", lit "export", name] _ hline (by simp) ?_
    simp [zfsOperation, hverbs]
  · exact hpool
  · exact hdevice

/-! ## The arguments of `zpool create` -/

section Arguments

variable {acceptsProperty : Str → Str → Bool} {word property x : Str} {words rest : List Str}
  {arguments : ZpoolArguments}

theorem zpoolArguments_force : zpoolArguments acceptsProperty (lit "-f" :: words) =
    (zpoolArguments acceptsProperty words).map fun arguments => { arguments with force := true } := by
  rw [zpoolArguments.eq_def]
  exact if_pos rfl

theorem flag_ne_force (hflag : word = lit "-o" ∨ word = lit "-O") : word ≠ lit "-f" := by
  rcases hflag with rfl | rfl
  · simp [lit_eq]
  · simp [lit_eq]

theorem zpoolArguments_flag (hflag : word = lit "-o" ∨ word = lit "-O") :
    zpoolArguments acceptsProperty (word :: property :: words) =
      if acceptsProperty word property then zpoolArguments acceptsProperty words else none := by
  rw [zpoolArguments.eq_def]
  simp only [if_neg (flag_ne_force hflag), if_pos hflag]

theorem zpoolArguments_unknown (hforce : word ≠ lit "-f")
    (hflag : ¬ (word = lit "-o" ∨ word = lit "-O")) (hdash : word.head? = some '-') :
    zpoolArguments acceptsProperty (word :: words) = none := by
  rw [zpoolArguments.eq_def]
  simp only [if_neg hforce, if_neg hflag, if_pos hdash]

theorem zpoolArguments_operand (hdash : word.head? ≠ some '-') :
    zpoolArguments acceptsProperty (word :: words) =
      (zpoolArguments acceptsProperty words).map fun arguments =>
        { arguments with operands := word :: arguments.operands } := by
  have hforce : word ≠ lit "-f" := by
    rintro rfl
    exact hdash (by rw [lit_ofList]; rfl)
  have hflag : ¬ (word = lit "-o" ∨ word = lit "-O") := by
    rintro (rfl | rfl)
    · exact hdash (by rw [lit_ofList]; rfl)
    · exact hdash (by rw [lit_ofList]; rfl)
  rw [zpoolArguments.eq_def]
  simp only [if_neg hforce, if_neg hflag, if_neg hdash]

/-- **Arguments that are understood** begin with an option, with its property if it has one, or with an
operand. -/
theorem zpoolArguments_induction {P : List Str → ZpoolArguments → Prop} (nil : P [] ⟨false, []⟩)
    (force : ∀ words arguments, P words arguments →
      P (lit "-f" :: words) { arguments with force := true })
    (flag : ∀ flag property words arguments, flag = lit "-o" ∨ flag = lit "-O" →
      acceptsProperty flag property = true → P words arguments →
        P (flag :: property :: words) arguments)
    (operand : ∀ word words arguments, word.head? ≠ some '-' → P words arguments →
      P (word :: words) { arguments with operands := word :: arguments.operands })
    (h : zpoolArguments acceptsProperty words = some arguments) : P words arguments := by
  induction hlength : words.length using Nat.strong_induction_on generalizing words arguments with
  | _ length ih =>
  rcases words with _ | ⟨word, words⟩
  · rw [← Option.some.inj h]
    exact nil
  by_cases hforce : word = lit "-f"
  · subst hforce
    rw [zpoolArguments_force, Option.map_eq_some_iff] at h
    obtain ⟨arguments', hrest, rfl⟩ := h
    exact force words arguments' (ih words.length (by simp [← hlength]) hrest rfl)
  by_cases hflag : word = lit "-o" ∨ word = lit "-O"
  · rcases words with _ | ⟨property, words⟩
    · rw [zpoolArguments, if_neg hforce, if_pos hflag] at h
      exact absurd h (by simp)
    · rw [zpoolArguments_flag hflag] at h
      split_ifs at h with haccepts
      refine flag word property words arguments hflag haccepts (ih words.length ?_ h rfl)
      simp only [List.length_cons] at hlength
      omega
  by_cases hdash : word.head? = some '-'
  · rw [zpoolArguments_unknown hforce hflag hdash] at h
    exact absurd h (by simp)
  · rw [zpoolArguments_operand hdash, Option.map_eq_some_iff] at h
    obtain ⟨arguments', hrest, rfl⟩ := h
    exact operand word words arguments' hdash (ih words.length (by simp [← hlength]) hrest rfl)

/-- The operands are among the arguments, in their order. -/
theorem zpoolArguments_sublist (h : zpoolArguments acceptsProperty words = some arguments) :
    List.Sublist arguments.operands words := by
  refine @zpoolArguments_induction acceptsProperty _ _
    (fun words arguments => List.Sublist arguments.operands words) .slnil ?_ ?_ ?_ h
  · exact fun words arguments ih => ih.cons _
  · exact fun flag property words arguments _ _ ih => (ih.cons _).cons _
  · exact fun word words arguments _ ih => ih.cons_cons _

/-- **Options in front** leave the operands as they are. -/
theorem zpoolArguments_append {force : Bool}
    (h : zpoolArguments acceptsProperty words = some ⟨force, []⟩) :
    zpoolArguments acceptsProperty (words ++ rest) =
      (zpoolArguments acceptsProperty rest).map fun arguments =>
        { arguments with force := force || arguments.force } := by
  refine @zpoolArguments_induction acceptsProperty _ _
    (fun words arguments => arguments.operands = [] →
      zpoolArguments acceptsProperty (words ++ rest) =
        (zpoolArguments acceptsProperty rest).map fun arguments' =>
          { arguments' with force := arguments.force || arguments'.force }) ?_ ?_ ?_ ?_ h rfl
  · simp
  · intro words arguments ih hnil
    rw [List.cons_append, zpoolArguments_force, ih hnil, Option.map_map]
    simp [Function.comp_def]
  · intro flag property words arguments hflag haccepts ih hnil
    rw [List.cons_append, List.cons_append, zpoolArguments_flag hflag, if_pos haccepts, ih hnil]
  · exact fun word words arguments _ _ hnil => absurd hnil (List.cons_ne_nil _ _)

/-- **What is glued to the last of them** becomes part of a property, or makes another option. -/
theorem zpoolArguments_glued {last : Str} {force : Bool}
    (h : zpoolArguments acceptsProperty (words ++ [last]) = some ⟨force, []⟩) (hx : x ≠ []) :
    zpoolArguments acceptsProperty (words ++ (last ++ x) :: rest) = none ∨
      ∃ force, zpoolArguments acceptsProperty (words ++ (last ++ x) :: rest) =
        (zpoolArguments acceptsProperty rest).map fun arguments =>
          { arguments with force := force || arguments.force } := by
  refine @zpoolArguments_induction acceptsProperty _ _
    (fun args arguments => arguments.operands = [] → ∀ words last, args = words ++ [last] →
      zpoolArguments acceptsProperty (words ++ (last ++ x) :: rest) = none ∨
        ∃ force, zpoolArguments acceptsProperty (words ++ (last ++ x) :: rest) =
          (zpoolArguments acceptsProperty rest).map fun arguments =>
            { arguments with force := force || arguments.force })
    ?_ ?_ ?_ ?_ h rfl words last rfl
  · exact fun _ words last hsplit => absurd hsplit (by simp)
  · rintro args arguments ih hnil (_ | ⟨word, words⟩) last hsplit
    · obtain ⟨rfl, -⟩ := List.cons.inj hsplit
      refine .inl (zpoolArguments_unknown ?_ ?_ ?_) <;> simp [lit_eq, hx]
    · obtain ⟨rfl, htail⟩ := List.cons.inj hsplit
      rw [List.cons_append, zpoolArguments_force]
      rcases ih hnil words last htail with hnone | ⟨force, hrest⟩
      · exact .inl (by rw [hnone]; rfl)
      · exact .inr ⟨true, by rw [hrest, Option.map_map]; simp [Function.comp_def]⟩
  · rintro flag property args arguments hflag haccepts ih hnil (_ | ⟨word, _ | ⟨word', words⟩⟩) last
      hsplit
    · exact absurd hsplit (by simp)
    · simp only [List.cons_append, List.nil_append, List.cons.injEq] at hsplit
      obtain ⟨rfl, rfl, rfl⟩ := hsplit
      rw [List.cons_append, List.nil_append, zpoolArguments_flag hflag]
      split_ifs
      · exact .inr ⟨false, by simp⟩
      · exact .inl rfl
    · simp only [List.cons_append, List.cons.injEq] at hsplit
      obtain ⟨rfl, rfl, htail⟩ := hsplit
      rw [List.cons_append, List.cons_append, zpoolArguments_flag hflag, if_pos haccepts]
      exact ih hnil words last htail
  · exact fun word words arguments _ _ hnil => absurd hnil (List.cons_ne_nil _ _)

end Arguments

/-! ## The command lines -/

section Lines

variable {devicePath poolName options : Str} {passphrase : Option Str}

/-- The options for the encryption, if there is a passphrase. -/
def encryptionText (passphrase : Option Str) : Str :=
  if passphrase.isSome then lit "-O encryption=aes-256-gcm -O keyformat=passphrase" else []

theorem plainText_encryptionText (passphrase : Option Str) : PlainText (encryptionText passphrase) := by
  rcases passphrase with _ | text
  · exact fun c hc => absurd hc (by simp [encryptionText])
  · rw [encryptionText, Option.isSome_some, if_pos rfl, lit_ofList]
    decide

/-- **The command that creates the pool**: the name is read with what stands before it. -/
theorem parse_zfsCreateZpool (hdevice : Quotable devicePath) (hpool : LiteralWord poolName)
    (hoptions : PlainText options) (hpassphrase : ∀ text ∈ passphrase, Quotable text) :
    parse (zfsCreateZpool devicePath poolName options passphrase) =
      some (pipeTokens passphrase ++ [.word (lit "zpool"), .word (lit "create")] ++
        (words blank (options ++ encryptionText passphrase ++ poolName) ++ [devicePath]).map .word ++
        errorTokens) := by
  have hcmd : parse (lit "zpool create " ++ options ++ encryptionText passphrase ++
      (lit "'" ++ poolName ++ lit "' '" ++ devicePath ++ lit "' 2>>/tmp/cachyos-install.log")) =
        some ([.word (lit "zpool"), .word (lit "create")] ++
          (words blank (options ++ encryptionText passphrase ++ poolName) ++ [devicePath]).map .word ++
          errorTokens) := by
    have hline : lit "zpool create " ++ options ++ encryptionText passphrase ++
        (lit "'" ++ poolName ++ lit "' '" ++ devicePath ++ lit "' 2>>/tmp/cachyos-install.log") =
          lit "zpool" ++ ' ' :: (lit "create" ++ ' ' :: ((options ++ encryptionText passphrase) ++
            ('\x27' :: poolName ++ '\x27' :: ' ' :: ('\x27' :: devicePath ++
              '\x27' :: ' ' :: '2' :: '>' :: lit ">/tmp/cachyos-install.log")))) := by
      simp [lit_eq]
    rw [hline, parse_plainWord (by rw [lit_ofList]; decide),
      parse_plainWord (by rw [lit_ofList]; decide),
      (hoptions.append (plainText_encryptionText passphrase)).parse_quoted_word hpool.2.quotable
        hpool.1 hpool.2.blank, parse_quoted hdevice, parse_errors]
    simp
  rcases passphrase with _ | text
  · simpa [zfsCreateZpool, encryptionText, pipeTokens] using hcmd
  · have hline : zfsCreateZpool devicePath poolName options (some text) =
        lit "echo '" ++ text ++ lit "' | " ++ (lit "zpool create " ++ options ++
          encryptionText (some text) ++
          (lit "'" ++ poolName ++ lit "' '" ++ devicePath ++ lit "' 2>>/tmp/cachyos-install.log")) := by
      simp [zfsCreateZpool, encryptionText]
    rw [hline, List.append_assoc (pipeTokens _), List.append_assoc (pipeTokens _),
      parse_piped (hpassphrase text rfl), hcmd]

end Lines

/-! ## The pool that is created -/

/-- Nothing is glued to options that are empty or end in a blank. -/
def EndInBlank (options : Str) : Prop := options = [] ∨ options.getLast? = some ' '

instance (options : Str) : Decidable (EndInBlank options) := inferInstanceAs (Decidable (_ ∨ _))

/-- The host with another imported pool. -/
def ZfsHost.withPool (host : ZfsHost) (pool : Zpool) : ZfsHost :=
  { host with imported := host.imported ++ [pool] }

/-- The host without the exported pools on a device. -/
def ZfsHost.overwritten (host : ZfsHost) (device : Str) : ZfsHost :=
  { host with exported := host.exported.filter fun pool => pool.device ≠ device }

/-- No imported pool has the name or the device, and no exported one has the device, unless the pool is
forced. -/
def ZfsHost.Free (host : ZfsHost) (force : Bool) (name device : Str) : Prop :=
  (∀ pool ∈ host.imported, pool.name ≠ name ∧ pool.device ≠ device) ∧
    (force = true ∨ ∀ pool ∈ host.exported, pool.device ≠ device)

section Created

variable {exec : Exec Str ZfsHost} {acceptsProperty : Str → Str → Bool} {validPool usable : Str → Bool}
  {accepts : ZfsDataset → Bool} {host host' : ZfsHost} {device name options x : Str}
  {passphrase : Option Str} {arguments : ZpoolArguments} {force : Bool}

/-- **A word behind the options** is an argument of its own, or is glued to the last of them. -/
theorem zpoolArguments_options (hplain : PlainText options)
    (hoptions : zpoolArguments acceptsProperty (words blank options) = some ⟨force, []⟩) (hne : x ≠ [])
    (hx : ∀ c ∈ x, blank c = false) (rest : List Str) :
    (EndInBlank options → zpoolArguments acceptsProperty (words blank (options ++ x) ++ rest) =
      (zpoolArguments acceptsProperty (x :: rest)).map fun arguments =>
        { arguments with force := force || arguments.force }) ∧
    (¬ EndInBlank options → zpoolArguments acceptsProperty (words blank (options ++ x) ++ rest) = none ∨
      ∃ force, zpoolArguments acceptsProperty (words blank (options ++ x) ++ rest) =
        (zpoolArguments acceptsProperty rest).map fun arguments =>
          { arguments with force := force || arguments.force }) := by
  have hone : words blank x = [x] := words_eq_singleton_iff.mpr ⟨hne, hx⟩
  constructor
  · rintro (rfl | hlast)
    · rw [List.nil_append, hone, List.singleton_append, ← List.nil_append (x :: rest)]
      exact zpoolArguments_append hoptions
    · obtain ⟨before, rfl⟩ := List.getLast?_eq_some_iff.mp hlast
      have hbefore : words blank (before ++ [' ']) = words blank before := by
        rw [words_append_cons rfl, words_nil, List.append_nil]
      rw [hbefore] at hoptions
      rw [List.append_assoc, List.singleton_append, words_append_cons rfl, hone, List.append_assoc,
        List.singleton_append, zpoolArguments_append hoptions]
  · intro hend
    simp only [EndInBlank, not_or] at hend
    have hword : ∀ c ∈ options.getLast?, blank c = false := by
      intro c hc
      rcases (hplain c (List.mem_of_mem_getLast? hc)).1 with hspecial | rfl
      · simp only [special, Bool.or_eq_false_iff] at hspecial
        exact hspecial.1.1.2
      · exact absurd hc hend.2
    obtain ⟨before, last, hbefore, hglued⟩ := words_append_word hend.1 hword hx
    rw [hbefore] at hoptions
    rw [hglued, List.append_assoc, List.singleton_append]
    exact zpoolArguments_glued hoptions hne

/-- A pool takes two operands. -/
theorem createPool_eq_some_iff :
    host.createPool validPool usable arguments = some host' ↔
      ∃ name device, arguments.operands = [name, device] ∧
        (validPool name = true ∧ usable device = true) ∧ host.Free arguments.force name device ∧
        host' = (host.overwritten device).withPool ⟨name, device, [], none⟩ := by
  unfold ZfsHost.createPool
  split
  · rename_i name device hoperands
    have hown : ∀ name' device', arguments.operands = [name', device'] → name' = name ∧ device' = device := by
      intro name' device' heq
      simpa [eq_comm] using hoperands.symm.trans heq
    split_ifs with hfree
    · rw [Option.some.injEq]
      constructor
      · rintro rfl
        exact ⟨name, device, hoperands, hfree.1.1, ⟨hfree.1.2, hfree.2⟩, rfl⟩
      · rintro ⟨name', device', heq, -, -, rfl⟩
        obtain ⟨rfl, rfl⟩ := hown name' device' heq
        rfl
    · refine iff_of_false (by simp) ?_
      rintro ⟨name', device', heq, hvalid, hfresh, -⟩
      obtain ⟨rfl, rfl⟩ := hown name' device' heq
      exact hfree ⟨⟨hvalid, hfresh.1⟩, hfresh.2⟩
  · rename_i hnot
    exact iff_of_false (by simp) fun ⟨name, device, heq, _⟩ => hnot name device heq

theorem createPool_one (h : arguments.operands.length ≤ 1) :
    host.createPool validPool usable arguments ≠ some host' := by
  intro hcreate
  obtain ⟨name, device, hoperands, -⟩ := createPool_eq_some_iff.mp hcreate
  rw [hoperands] at h
  simp at h

/-- A device in front of which no name stands is the only operand. -/
theorem createPool_device {force : Bool}
    (h : (zpoolArguments acceptsProperty [device]).map
      (fun arguments => { arguments with force := force || arguments.force }) = some arguments) :
    host.createPool validPool usable arguments ≠ some host' := by
  obtain ⟨arguments', hread, rfl⟩ := Option.map_eq_some_iff.mp h
  exact createPool_one (zpoolArguments_sublist hread).length_le

/-- A name after a blank is an operand, and so is the device. -/
theorem createPool_separated_iff (htools : ZfsTools exec acceptsProperty validPool usable accepts) :
    (∃ arguments, (zpoolArguments acceptsProperty [name, device]).map
          (fun arguments => { arguments with force := force || arguments.force }) = some arguments ∧
        host.createPool validPool usable arguments = some host') ↔
      (validPool name = true ∧ usable device = true) ∧ host.Free force name device ∧
        host' = (host.overwritten device).withPool ⟨name, device, [], none⟩ := by
  have hoperands (hvalid : validPool name = true ∧ usable device = true) :
      zpoolArguments acceptsProperty [name, device] = some ⟨false, [name, device]⟩ := by
    rw [zpoolArguments_operand (htools.poolName name hvalid.1).1,
      zpoolArguments_operand (htools.deviceName device hvalid.2), zpoolArguments]
    rfl
  constructor
  · rintro ⟨arguments, harguments, hcreate⟩
    obtain ⟨arguments', hread, rfl⟩ := Option.map_eq_some_iff.mp harguments
    obtain ⟨name', device', heq, hvalid, hfree, rfl⟩ := createPool_eq_some_iff.mp hcreate
    have hsame := (zpoolArguments_sublist hread).eq_of_length (by rw [heq]; rfl)
    obtain ⟨rfl, rfl⟩ : name = name' ∧ device = device' := by simpa using hsame.symm.trans heq
    rw [hoperands hvalid] at hread
    obtain rfl := Option.some.inj hread
    rw [Bool.or_false] at hfree
    exact ⟨hvalid, hfree, rfl⟩
  · rintro ⟨hvalid, hfree, rfl⟩
    refine ⟨⟨force, [name, device]⟩, ?_, createPool_eq_some_iff.mpr
      ⟨name, device, rfl, hvalid, hfree, rfl⟩⟩
    rw [hoperands hvalid, Option.map_some, Bool.or_false]

/-- The name is glued to the options for the encryption. -/
theorem words_encryption (hname : LiteralWord name) (text : Str) :
    words blank (options ++ encryptionText (some text) ++ name) =
      words blank (options ++ lit "-O") ++
        [lit "encryption=aes-256-gcm", lit "-O", lit "keyformat=passphrase" ++ name] := by
  have hsplit : options ++ encryptionText (some text) ++ name = (options ++ lit "-O") ++ ' ' ::
      (lit "encryption=aes-256-gcm" ++ ' ' :: (lit "-O" ++ ' ' ::
        (lit "keyformat=passphrase" ++ name))) := by
    simp [encryptionText, lit_eq]
  have hkey : LiteralWord (lit "keyformat=passphrase" ++ name) :=
    ⟨List.append_ne_nil_of_right_ne_nil _ hname.1, .append (by rw [lit_ofList]; decide) hname.2⟩
  have hword : LiteralWord (lit "encryption=aes-256-gcm") ∧ LiteralWord (lit "-O") := by
    repeat rw [lit_ofList]
    decide
  rw [hsplit, words_append_cons rfl, words_append_cons rfl, words_append_cons rfl, hword.1.words,
    hword.2.words, hkey.words]
  rfl

/-- No encrypted pool is created: where the options end in a blank only the device is left, and else the
first operand has an equals sign. -/
theorem createPool_encrypted (htools : ZfsTools exec acceptsProperty validPool usable accepts)
    (hplain : PlainText options)
    (hoptions : zpoolArguments acceptsProperty (words blank options) = some ⟨force, []⟩)
    (harguments : zpoolArguments acceptsProperty (words blank (options ++ lit "-O") ++
      [lit "encryption=aes-256-gcm", lit "-O", lit "keyformat=passphrase" ++ name, device]) =
        some arguments) : host.createPool validPool usable arguments ≠ some host' := by
  have hflag : LiteralWord (lit "-O") := by rw [lit_ofList]; decide
  have hread := zpoolArguments_options hplain hoptions hflag.1 hflag.2.blank
    [lit "encryption=aes-256-gcm", lit "-O", lit "keyformat=passphrase" ++ name, device]
  by_cases hend : EndInBlank options
  · rw [hread.1 hend, zpoolArguments_flag (.inr rfl), zpoolArguments_flag (.inr rfl)] at harguments
    split_ifs at harguments
    · exact createPool_device harguments
    all_goals exact absurd harguments (by simp)
  · intro hcreate
    rcases hread.2 hend with hnothing | ⟨force', hrest⟩
    · rw [hnothing] at harguments
      exact absurd harguments (by simp)
    · have hdash : (lit "encryption=aes-256-gcm").head? ≠ some '-' := by rw [lit_ofList]; decide
      rw [hrest, zpoolArguments_operand hdash, Option.map_map, Option.map_eq_some_iff] at harguments
      obtain ⟨arguments', -, rfl⟩ := harguments
      obtain ⟨name', device', heq, hvalid, -⟩ := createPool_eq_some_iff.mp hcreate
      obtain ⟨rfl, -⟩ := List.cons.inj heq
      exact (htools.poolName _ hvalid.1).2 (by simp [lit_eq])

/-- **When `zpool create` creates a pool**: the name is an argument of its own, and there is no
encryption. -/
theorem createPool_arguments_iff (htools : ZfsTools exec acceptsProperty validPool usable accepts)
    (hname : LiteralWord name) (hplain : PlainText options)
    (hoptions : zpoolArguments acceptsProperty (words blank options) = some ⟨force, []⟩) :
    ((zpoolArguments acceptsProperty
          (words blank (options ++ encryptionText passphrase ++ name) ++ [device])).bind
        fun arguments => host.createPool validPool usable arguments) = some host' ↔
      ((passphrase = none ∧ EndInBlank options) ∧ validPool name = true ∧ usable device = true) ∧
        host.Free force name device ∧
        host' = (host.overwritten device).withPool ⟨name, device, [], none⟩ := by
  rw [Option.bind_eq_some_iff]
  rcases passphrase with _ | text
  · have hread := zpoolArguments_options hplain hoptions hname.1 hname.2.blank [device]
    have hnone : options ++ encryptionText none ++ name = options ++ name := by simp [encryptionText]
    rw [hnone]
    by_cases hend : EndInBlank options
    · have hpool : (none : Option Str) = none ∧ EndInBlank options := ⟨rfl, hend⟩
      rw [hread.1 hend, and_iff_right hpool]
      exact createPool_separated_iff htools
    · refine iff_of_false ?_ fun h => hend h.1.1.2
      rintro ⟨arguments, harguments, hcreate⟩
      rcases hread.2 hend with hnothing | ⟨force', hrest⟩
      · rw [hnothing] at harguments
        exact absurd harguments (by simp)
      · exact createPool_device (hrest.symm.trans harguments) hcreate
  · refine iff_of_false ?_ fun h => absurd h.1.1.1 (by simp)
    rintro ⟨arguments, harguments, hcreate⟩
    rw [words_encryption hname, List.append_assoc] at harguments
    exact createPool_encrypted htools hplain hoptions harguments hcreate

end Created

/-! ## The datasets -/

section Datasets

variable {accepts : ZfsDataset → Bool} {host host' : ZfsHost} {pool pool' : Zpool}
  {datasets : List ZfsDataset}

theorem find_withPool (hfresh : ∀ other ∈ host.imported, other.name ≠ pool.name) :
    ((host.withPool pool).imported.find? fun other => other.name = pool.name) = some pool := by
  have hnone : (host.imported.find? fun other => other.name = pool.name) = none :=
    List.find?_eq_none.mpr fun other hother => by simpa using hfresh other hother
  rw [ZfsHost.withPool, List.find?_append, hnone]
  simp

/-- **An operation on the pool that was created last.** -/
theorem onPool_withPool {op : Zpool → Option Zpool}
    (hfresh : ∀ other ∈ host.imported, other.name ≠ pool.name) :
    (host.withPool pool).onPool pool.name op = (op pool).map host.withPool := by
  rw [ZfsHost.onPool, find_withPool hfresh, Option.bind_some]
  refine congrArg (Option.map · (op pool)) (funext fun pool' => ?_)
  have hothers : (host.imported.map fun other => if other.name = pool.name then pool' else other) =
      host.imported :=
    (List.map_congr_left fun other hother => if_neg (hfresh other hother)).trans (List.map_id' _)
  simp [ZfsHost.withPool, hothers]

theorem exportPool_withPool (hfresh : ∀ other ∈ host.imported, other.name ≠ pool.name) :
    (host.withPool pool).exportPool pool.name =
      some { host with exported := host.exported ++ [pool] } := by
  rw [ZfsHost.exportPool, find_withPool hfresh, Option.map_some]
  simp only [ZfsHost.withPool, List.filter_append, Option.some.injEq, ZfsHost.mk.injEq, and_true]
  have hothers : (host.imported.filter fun other => other.name ≠ pool.name) = host.imported :=
    List.filter_eq_self.mpr fun other hother => by simpa using hfresh other hother
  rw [hothers]
  simp

/-- Operations that keep the name of the pool, one after the other. -/
theorem inTurn_onPool {ops : List (Zpool → Option Zpool)}
    (hfresh : ∀ other ∈ host.imported, other.name ≠ pool.name)
    (hops : ∀ op ∈ ops, ∀ pool pool', op pool = some pool' → pool'.name = pool.name) :
    inTurn (ops.map (ZfsHost.onPool pool.name)) (host.withPool pool) =
      (inTurn ops pool).map host.withPool := by
  induction ops generalizing pool with
  | nil => rfl
  | cons op ops ih =>
    rw [List.map_cons, inTurn_cons, onPool_withPool hfresh, inTurn_cons]
    rcases hop : op pool with _ | pool'
    · rfl
    · have hname := hops op List.mem_cons_self pool pool' hop
      rw [Option.map_some, Option.bind_some, Option.bind_some, ← hname]
      exact ih (by rwa [hname]) fun op hop => hops op (List.mem_cons_of_mem _ hop)

theorem create_eq_some_iff {zdataset : ZfsDataset} :
    Zpool.create accepts zdataset pool = some pool' ↔
      ((zfsParent zdataset.zpath ∈ pool.paths ∧ zdataset.zpath ∉ pool.paths) ∧
        accepts zdataset = true) ∧
      pool' = { pool with datasets := pool.datasets ++ [zdataset] } := by
  unfold Zpool.create
  split_ifs with h
  · simp [h, eq_comm]
  · simp [h]

/-- **Datasets are created in turn** iff each stands behind its parent. -/
theorem inTurn_create_iff :
    inTurn (datasets.map (Zpool.create accepts)) pool = some pool' ↔
      (Hierarchy.Creatable zfsParent pool.paths (datasets.map ZfsDataset.zpath) ∧
        ∀ zdataset ∈ datasets, accepts zdataset = true) ∧
      pool' = { pool with datasets := pool.datasets ++ datasets } := by
  induction datasets generalizing pool with
  | nil =>
    have hsame : ({ pool with datasets := pool.datasets ++ [] } : Zpool) = pool := by simp
    simp only [List.map_nil, inTurn_nil, Option.some.injEq, Hierarchy.Creatable, List.not_mem_nil,
      false_implies, implies_true, and_self, true_and, hsame]
    exact eq_comm
  | cons zdataset datasets ih =>
    have hpaths : ({ pool with datasets := pool.datasets ++ [zdataset] } : Zpool).paths =
        pool.paths ++ [zdataset.zpath] := by simp [Zpool.paths]
    rw [List.map_cons, inTurn_cons, Option.bind_eq_some_iff, List.map_cons, Hierarchy.Creatable,
      List.forall_mem_cons]
    simp only [create_eq_some_iff]
    constructor
    · rintro ⟨pool₁, ⟨⟨hplace, haccept⟩, rfl⟩, hrest⟩
      rw [ih, hpaths] at hrest
      exact ⟨⟨⟨hplace, hrest.1.1⟩, haccept, hrest.1.2⟩, by simpa using hrest.2⟩
    · rintro ⟨⟨⟨hplace, hrest⟩, haccept, haccepts⟩, rfl⟩
      refine ⟨_, ⟨⟨hplace, haccept⟩, rfl⟩, ?_⟩
      rw [ih, hpaths]
      exact ⟨⟨hrest, haccepts⟩, by simp⟩

end Datasets

/-! ## The whole setup -/

/-- **The texts of a config** are read as they are, its options are options only, and its datasets are
in its pool. -/
structure ZfsSetupConfig.Tidy (acceptsProperty : Str → Str → Bool) (force : Bool)
    (config : ZfsSetupConfig) : Prop where
  zpoolName : LiteralWord config.zpoolName
  plain : PlainText config.zpoolOptions
  options : zpoolArguments acceptsProperty (words blank config.zpoolOptions) = some ⟨force, []⟩
  passphrase : ∀ text ∈ config.passphrase, Quotable text
  datasets : ∀ zdataset ∈ config.datasets, (LiteralWord zdataset.zpath ∧ Literal zdataset.mountpoint) ∧
    zfsPoolOf zdataset.zpath = config.zpoolName

/-- The pool that a config describes. -/
def ZfsSetupConfig.pool (config : ZfsSetupConfig) (device : Str) : Zpool :=
  ⟨config.zpoolName, device, config.datasets, (findRootfs config.datasets).map ZfsDataset.zpath⟩

/-- **The datasets can be created**: none is there twice or is the pool itself, each is accepted, and
each stands behind its parent. -/
structure ZfsSetupConfig.Creatable (accepts : ZfsDataset → Bool) (config : ZfsSetupConfig) : Prop where
  nodup : (config.datasets.map ZfsDataset.zpath).Nodup
  ne_pool : ∀ zpath ∈ config.datasets.map ZfsDataset.zpath, zpath ≠ config.zpoolName
  parents : ∀ before zpath after, config.datasets.map ZfsDataset.zpath = before ++ zpath :: after →
    zfsParent zpath ∈ config.zpoolName :: before
  accepted : ∀ zdataset ∈ config.datasets, accepts zdataset = true

theorem ZfsSetupConfig.creatable_iff {accepts : ZfsDataset → Bool} {config : ZfsSetupConfig} :
    config.Creatable accepts ↔
      Hierarchy.Creatable zfsParent [config.zpoolName] (config.datasets.map ZfsDataset.zpath) ∧
        ∀ zdataset ∈ config.datasets, accepts zdataset = true := by
  rw [Hierarchy.creatable_iff]
  simp only [List.mem_singleton, List.singleton_append]
  exact ⟨fun h => ⟨⟨h.nodup, h.ne_pool, h.parents⟩, h.accepted⟩,
    fun h => ⟨h.1.1, h.1.2.1, h.1.2.2, h.2⟩⟩

/-- The part in front of the last slash. -/
theorem zfsParent_append {above name : Str} (h : '/' ∉ name) :
    zfsParent (above ++ '/' :: name) = above := by
  have hname : name.reverse.dropWhile (· ≠ '/') = [] :=
    List.dropWhile_eq_nil_iff.mpr fun c hc => decide_eq_true fun hslash =>
      h (hslash ▸ List.mem_reverse.mp hc)
  rw [zfsParent, List.reverse_append, List.reverse_cons, List.append_assoc, List.dropWhile_append,
    hname]
  simp

/-- **The default datasets** can be created, whatever the name of the pool is. -/
theorem creatable_default {accepts : ZfsDataset → Bool} {config : ZfsSetupConfig}
    (hdatasets : config.datasets = defaultZfsDatasets config.zpoolName)
    (haccepts : ∀ zdataset ∈ config.datasets, accepts zdataset = true) : config.Creatable accepts := by
  rw [ZfsSetupConfig.creatable_iff, hdatasets]
  refine ⟨?_, hdatasets ▸ haccepts⟩
  have hparent (above name : Str) (h : '/' ∉ name) :
      zfsParent (config.zpoolName ++ (above ++ '/' :: name)) = config.zpoolName ++ above := by
    rw [← List.append_assoc, zfsParent_append h]
  have hroot := hparent [] (lit "ROOT") (by rw [lit_ofList]; decide)
  have hcos := hparent (lit "/ROOT") (lit "cos") (by rw [lit_ofList]; decide)
  have hlast (name : Str) (hname : '/' ∉ name) := hparent (lit "/ROOT/cos") name hname
  have hsystem := hlast (lit "root") (by rw [lit_ofList]; decide)
  have hhome := hlast (lit "home") (by rw [lit_ofList]; decide)
  have hcache := hlast (lit "varcache") (by rw [lit_ofList]; decide)
  have hlog := hlast (lit "varlog") (by rw [lit_ofList]; decide)
  simp only [lit_eq] at hroot hcos hsystem hhome hcache hlog
  simp [Hierarchy.Creatable, defaultZfsDatasets, lit_eq] at hroot hcos hsystem hhome hcache hlog ⊢
  simp [hroot, hcos, hsystem, hhome, hcache, hlog]

/-- What comes after the pool is created. -/
def zfsCreateRest {σ : Type} (exec : Exec Str σ) (config : ZfsSetupConfig) : σ → Bool × σ :=
  andThen (runAll exec (config.datasets.map zfsCreateDatasetCmd))
    (andThen
      (match findRootfs config.datasets with
        | some rootfs => exec (zpoolSetPropertyCmd (bootfsProperty rootfs) config.zpoolName)
        | none => fun s => (true, s))
      (exec (zfsExportCmd config.zpoolName)))

section Setup

variable {exec : Exec Str ZfsHost} {acceptsProperty : Str → Str → Bool} {validPool usable : Str → Bool}
  {accepts : ZfsDataset → Bool} {host host' : ZfsHost} {device : Str} {config : ZfsSetupConfig}
  {force : Bool}

theorem carriesOut_dataset (htools : ZfsTools exec acceptsProperty validPool usable accepts)
    {zdataset : ZfsDataset} (hpath : LiteralWord zdataset.zpath) (hmount : Literal zdataset.mountpoint) :
    CarriesOut exec (zfsCreateDatasetCmd zdataset)
      (ZfsHost.onPool (zfsPoolOf zdataset.zpath) (Zpool.create accepts zdataset)) := by
  refine htools.zfsCreate _ _ ?_
  have hline : zfsCreateDatasetCmd zdataset = lit "zfs" ++ ' ' :: (lit "create" ++ ' ' ::
      (lit "-o" ++ ' ' :: ((lit "mountpoint=" ++ zdataset.mountpoint) ++ ' ' ::
        (zdataset.zpath ++ ' ' :: '2' :: '>' :: lit ">/tmp/cachyos-install.log")))) := by
    simp [zfsCreateDatasetCmd, lit_eq]
  have hproperty : LiteralWord (lit "mountpoint=" ++ zdataset.mountpoint) :=
    ⟨by simp [lit_eq], .append (by rw [lit_ofList]; decide) hmount⟩
  rw [hline, parse_plainWord (by rw [lit_ofList]; decide), parse_plainWord (by rw [lit_ofList]; decide),
    parse_plainWord (by rw [lit_ofList]; decide), parse_plainWord hproperty.plainWord,
    parse_plainWord hpath.plainWord, parse_errors]
  rfl

theorem carriesOut_bootfs (htools : ZfsTools exec acceptsProperty validPool usable accepts)
    {rootfs : ZfsDataset} {name : Str} (hpath : LiteralWord rootfs.zpath) (hname : LiteralWord name) :
    CarriesOut exec (zpoolSetPropertyCmd (bootfsProperty rootfs) name)
      (ZfsHost.onPool name (Zpool.setBootfs rootfs.zpath)) := by
  refine htools.zpoolSet _ _ _ ?_
  have hline : zpoolSetPropertyCmd (bootfsProperty rootfs) name = lit "zpool" ++ ' ' ::
      (lit "set" ++ ' ' :: ((lit "bootfs=" ++ rootfs.zpath) ++ ' ' :: (name ++
        ' ' :: '2' :: '>' :: lit ">/tmp/cachyos-install.log"))) := by
    simp [zpoolSetPropertyCmd, bootfsProperty, lit_eq]
  have hproperty : LiteralWord (lit "bootfs=" ++ rootfs.zpath) :=
    ⟨by simp [lit_eq], .append (by rw [lit_ofList]; decide) hpath.2⟩
  rw [hline, parse_plainWord (by rw [lit_ofList]; decide), parse_plainWord (by rw [lit_ofList]; decide),
    parse_plainWord hproperty.plainWord, parse_plainWord hname.plainWord, parse_errors]
  rfl

theorem carriesOut_export (htools : ZfsTools exec acceptsProperty validPool usable accepts) {name : Str}
    (hname : LiteralWord name) :
    CarriesOut exec (zfsExportCmd name) (ZfsHost.exportPool name) := by
  refine htools.zpoolExport _ _ ?_
  have hline : zfsExportCmd name = lit "zpool" ++ ' ' :: (lit "export" ++ ' ' :: (name ++
      ' ' :: '2' :: '>' :: lit ">/tmp/cachyos-install.log")) := by
    simp [zfsExportCmd, lit_eq]
  rw [hline, parse_plainWord (by rw [lit_ofList]; decide), parse_plainWord (by rw [lit_ofList]; decide),
    parse_plainWord hname.plainWord, parse_errors]
  rfl

theorem create_name {zdataset : ZfsDataset} {pool pool' : Zpool}
    (h : Zpool.create accepts zdataset pool = some pool') : pool'.name = pool.name := by
  rw [(create_eq_some_iff.mp h).2]

theorem findRootfs_mem {datasets : List ZfsDataset} {rootfs : ZfsDataset}
    (h : findRootfs datasets = some rootfs) : rootfs ∈ datasets :=
  List.mem_of_find?_eq_some h

/-- **The steps after the pool is created**, where it is the only one with its name. -/
theorem zfsCreateRest_spec (htools : ZfsTools exec acceptsProperty validPool usable accepts)
    (hconfig : config.Tidy acceptsProperty force) (device : Str)
    (hfresh : ∀ other ∈ host.imported, other.name ≠ config.zpoolName) :
    (config.Creatable accepts ∧
      zfsCreateRest exec config (host.withPool ⟨config.zpoolName, device, [], none⟩) =
        (true, { host with exported := host.exported ++ [config.pool device] })) ∨
    (¬ config.Creatable accepts ∧ ∃ pool, pool.name = config.zpoolName ∧
      zfsCreateRest exec config (host.withPool ⟨config.zpoolName, device, [], none⟩) =
        (false, host.withPool pool)) := by
  set pool : Zpool := ⟨config.zpoolName, device, [], none⟩ with hpool
  have hops : List.Forall₂ (CarriesOut exec) (config.datasets.map zfsCreateDatasetCmd)
      ((config.datasets.map (Zpool.create accepts)).map (ZfsHost.onPool pool.name)) := by
    rw [List.map_map, List.forall₂_map_left_iff, List.forall₂_map_right_iff, List.forall₂_same]
    intro zdataset hmem
    obtain ⟨⟨hpath, hmount⟩, hin⟩ := hconfig.datasets zdataset hmem
    have hcmd := carriesOut_dataset htools hpath hmount
    rw [hin] at hcmd
    exact hcmd
  have hkeep : ∀ op ∈ config.datasets.map (Zpool.create accepts), ∀ pool pool', op pool = some pool' →
      pool'.name = pool.name := by
    intro op hop pool pool' h
    obtain ⟨zdataset, -, rfl⟩ := List.mem_map.mp hop
    exact create_name h
  by_cases hcreatable : config.Creatable accepts
  · left
    refine ⟨hcreatable, ?_⟩
    set pool₁ : Zpool := { pool with datasets := config.datasets } with hpool₁
    have hdatasets : runAll exec (config.datasets.map zfsCreateDatasetCmd) (host.withPool pool) =
        (true, host.withPool pool₁) := by
      have hall : inTurn (config.datasets.map (Zpool.create accepts)) pool = some pool₁ :=
        inTurn_create_iff.mpr ⟨config.creatable_iff.mp hcreatable, rfl⟩
      rw [runAll_eq_true_iff hops, inTurn_onPool hfresh hkeep, hall]
      rfl
    have hname : LiteralWord config.zpoolName := hconfig.zpoolName
    rw [zfsCreateRest, andThen_eq_true_iff]
    refine ⟨_, hdatasets, andThen_eq_true_iff.mpr ⟨host.withPool (config.pool device), ?_, ?_⟩⟩
    · rcases hroot : findRootfs config.datasets with _ | rootfs
      · simp only [ZfsSetupConfig.pool, hroot, Option.map_none]
        rfl
      · have hmem := findRootfs_mem hroot
        simp only
        rw [carriesOut_bootfs htools (hconfig.datasets rootfs hmem).1.1 hname, attempt_eq_true_iff]
        have honPool := @onPool_withPool host pool₁ (Zpool.setBootfs rootfs.zpath) hfresh
        refine honPool.trans ?_
        rw [Zpool.setBootfs, if_pos (List.mem_map_of_mem hmem)]
        simp only [ZfsSetupConfig.pool, hroot, Option.map_some]
        rfl
    · rw [carriesOut_export htools hname, attempt_eq_true_iff]
      exact @exportPool_withPool host (config.pool device) hfresh
  · right
    refine ⟨hcreatable, ?_⟩
    rcases hrun : runAll exec (config.datasets.map zfsCreateDatasetCmd) (host.withPool pool) with
      ⟨_ | _, host₁⟩
    · obtain ⟨before, op, after, hsplit, hbefore, -⟩ := (runAll_eq_false_iff hops).mp hrun
      obtain ⟨before', rest, hlist, rfl, -⟩ := List.map_eq_append_iff.mp hsplit
      have hkeepBefore : ∀ op ∈ before', ∀ pool pool', op pool = some pool' → pool'.name = pool.name :=
        fun op hop => hkeep op (hlist ▸ List.mem_append_left _ hop)
      rw [inTurn_onPool hfresh hkeepBefore, Option.map_eq_some_iff] at hbefore
      obtain ⟨pool', hpool', rfl⟩ := hbefore
      refine ⟨pool', ?_, ?_⟩
      · exact @inTurn_keeps _ _ (fun pool' => pool'.name = config.zpoolName) _ _
          (fun op hop pool pool' hname h => (hkeepBefore op hop pool pool' h).trans hname) rfl hpool'
      · rw [zfsCreateRest, andThen, hrun]
    · rw [runAll_eq_true_iff hops, inTurn_onPool hfresh hkeep, Option.map_eq_some_iff] at hrun
      obtain ⟨pool', hpool', -⟩ := hrun
      exact absurd (config.creatable_iff.mpr (inTurn_create_iff.mp hpool').1) hcreatable

/-- The first step creates the pool. -/
theorem carriesOut_zpoolCreate (htools : ZfsTools exec acceptsProperty validPool usable accepts)
    (hname : LiteralWord config.zpoolName) (hplain : PlainText config.zpoolOptions)
    (hpassphrase : ∀ text ∈ config.passphrase, Quotable text) (hdevice : Quotable device) :
    CarriesOut exec
      (zfsCreateZpool device config.zpoolName config.zpoolOptions config.passphrase) fun host =>
        (zpoolArguments acceptsProperty (words blank (config.zpoolOptions ++
          encryptionText config.passphrase ++ config.zpoolName) ++ [device])).bind fun arguments =>
            host.createPool validPool usable arguments :=
  htools.zpoolCreate _ _ _ (parse_zfsCreateZpool hdevice hname hplain hpassphrase)

theorem ZfsHost.Free.fresh {name : Str} (h : host.Free force name device) :
    ∀ other ∈ (host.overwritten device).imported, other.name ≠ name :=
  fun other hother => (h.1 other hother).1

/-- **A config can be set up** on a device: the pool is not encrypted, its options are empty or end in a
blank, the tools accept its name, its device and its datasets, there is room for it, and each dataset
stands behind its parent. -/
structure ZfsSetupConfig.Possible (validPool usable : Str → Bool) (accepts : ZfsDataset → Bool)
    (force : Bool) (host : ZfsHost) (device : Str) (config : ZfsSetupConfig) : Prop where
  unencrypted : config.passphrase = none
  separated : EndInBlank config.zpoolOptions
  validPool : validPool config.zpoolName = true
  usable : usable device = true
  free : host.Free force config.zpoolName device
  creatable : config.Creatable accepts

/-- The host after the setup: the pool is exported. -/
def ZfsHost.afterSetup (host : ZfsHost) (device : Str) (config : ZfsSetupConfig) : ZfsHost :=
  ⟨host.imported, (host.overwritten device).exported ++ [config.pool device]⟩

/-- **A setup succeeds or fails**; after a failure nothing has changed, or a pool with the name is
imported. -/
theorem zfsCreateWithConfig_cases (htools : ZfsTools exec acceptsProperty validPool usable accepts)
    (hconfig : config.Tidy acceptsProperty force) (hdevice : Quotable device) (host : ZfsHost) :
    (config.Possible validPool usable accepts force host device ∧
      zfsCreateWithConfig exec device config host = (true, host.afterSetup device config)) ∨
    (¬ config.Possible validPool usable accepts force host device ∧
      ∃ host', zfsCreateWithConfig exec device config host = (false, host') ∧
        (host' = host ∨ ∃ pool ∈ host'.imported, pool.name = config.zpoolName)) := by
  have hcreate := carriesOut_zpoolCreate htools hconfig.zpoolName hconfig.plain hconfig.passphrase
    hdevice host
  have hpool := fun host' => @createPool_arguments_iff exec acceptsProperty validPool usable accepts host
    host' device config.zpoolName config.zpoolOptions config.passphrase force htools hconfig.zpoolName
    hconfig.plain hconfig.options
  rcases hfirst : exec (zfsCreateZpool device config.zpoolName config.zpoolOptions config.passphrase)
    host with ⟨_ | _, host₁⟩
  · rw [hfirst, eq_comm, attempt_eq_false_iff] at hcreate
    refine .inr ⟨fun h => ?_, host, ?_, .inl rfl⟩
    · have hsome := (hpool _).mpr ⟨⟨⟨h.unencrypted, h.separated⟩, h.validPool, h.usable⟩, h.free, rfl⟩
      exact absurd (hcreate.1.symm.trans hsome) (by simp)
    · rw [zfsCreateWithConfig, andThen, hfirst, hcreate.2]
  · rw [hfirst, eq_comm, attempt_eq_true_iff, hpool] at hcreate
    obtain ⟨⟨⟨hnone, hend⟩, hvalid, husable⟩, hfree, rfl⟩ := hcreate
    have hrest : zfsCreateWithConfig exec device config host = zfsCreateRest exec config
        ((host.overwritten device).withPool ⟨config.zpoolName, device, [], none⟩) := by
      rw [zfsCreateWithConfig, andThen, hfirst]
      rfl
    rw [hrest]
    rcases zfsCreateRest_spec htools hconfig device hfree.fresh with
      ⟨hcreatable, hspec⟩ | ⟨hnot, pool, hname, hspec⟩
    · exact .inl ⟨⟨hnone, hend, hvalid, husable, hfree, hcreatable⟩, hspec⟩
    · refine .inr ⟨fun h => hnot h.creatable, _, hspec, .inr ⟨pool, ?_, hname⟩⟩
      exact List.mem_append_right _ (List.mem_singleton_self pool)

/-- **When a zpool is set up**: iff this is possible. Then the pool is exported, with all its datasets and
with the first one for the root directory to boot. -/
theorem zfsCreateWithConfig_iff (htools : ZfsTools exec acceptsProperty validPool usable accepts)
    (hconfig : config.Tidy acceptsProperty force) (hdevice : Quotable device) :
    zfsCreateWithConfig exec device config host = (true, host') ↔
      config.Possible validPool usable accepts force host device ∧
        host' = host.afterSetup device config := by
  rcases zfsCreateWithConfig_cases htools hconfig hdevice host with
    ⟨hpossible, hrun⟩ | ⟨hnot, host₁, hrun, -⟩
  · rw [hrun, Prod.mk.injEq, eq_comm (a := host')]
    simp [hpossible]
  · rw [hrun]
    exact iff_of_false (by simp) fun h => hnot h.1

/-- Names that are no options and have no equals sign. -/
def plainPool (name : Str) : Bool := name.head? ≠ some '-' ∧ '=' ∉ name

theorem plainPool_spec (name : Str) (h : plainPool name = true) : name.head? ≠ some '-' ∧ '=' ∉ name := by
  simpa [plainPool] using h

theorem plainPool_head (name : Str) (h : plainPool name = true) : name.head? ≠ some '-' :=
  (plainPool_spec name h).1

/-- Tools that accept what they can. -/
def runPlainZfs : Exec Str ZfsHost := runZfs (fun _ _ => true) plainPool plainPool fun _ => true

theorem zfsTools_plain :
    ZfsTools runPlainZfs (fun _ _ => true) plainPool plainPool fun _ => true :=
  zfsTools (fun _ _ => true) (fun _ => true) plainPool_spec plainPool_head

/-- A pool with these datasets, whose options end in a blank. -/
def tankConfig (datasets : List ZfsDataset) : ZfsSetupConfig :=
  ⟨lit "tank", lit "-f -o ashift=12 ", none, datasets⟩

theorem tidy_tankConfig {datasets : List ZfsDataset}
    (h : ∀ zdataset ∈ datasets, (LiteralWord zdataset.zpath ∧ Literal zdataset.mountpoint) ∧
      zfsPoolOf zdataset.zpath = lit "tank") : (tankConfig datasets).Tidy (fun _ _ => true) true where
  zpoolName := by simp only [tankConfig]; rw [lit_ofList]; decide
  plain := by simp only [tankConfig]; rw [lit_ofList]; decide
  options := by simp only [tankConfig]; rw [lit_ofList]; decide +kernel
  passphrase := by simp [tankConfig]
  datasets := h

theorem zfsCreateWithConfig_default :
    zfsCreateWithConfig runPlainZfs (lit "/dev/sda2") (tankConfig (defaultZfsDatasets (lit "tank")))
        ⟨[], []⟩ =
      (true, (⟨[], []⟩ : ZfsHost).afterSetup (lit "/dev/sda2")
        (tankConfig (defaultZfsDatasets (lit "tank")))) := by
  have hdatasets : ∀ zdataset ∈ defaultZfsDatasets (lit "tank"),
      (LiteralWord zdataset.zpath ∧ Literal zdataset.mountpoint) ∧
        zfsPoolOf zdataset.zpath = lit "tank" := by
    unfold defaultZfsDatasets
    repeat rw [lit_ofList]
    decide +kernel
  refine (zfsCreateWithConfig_iff zfsTools_plain (tidy_tankConfig hdatasets) ?_).mpr
    ⟨⟨rfl, ?_, ?_, ?_, ⟨by simp, .inl rfl⟩, creatable_default rfl fun _ _ => rfl⟩, rfl⟩
  · rw [lit_ofList]; decide
  · simp only [tankConfig]; rw [lit_ofList]; decide
  · simp only [tankConfig]; rw [lit_ofList]; decide
  · rw [lit_ofList]; decide

/-- A dataset without its parent. -/
def orphanDataset : ZfsDataset := ⟨lit "tank/a/b", lit "/"⟩

/-- Arguments with properties that are accepted would be so by a tool that accepts all. -/
theorem zpoolArguments_mono {words : List Str} {arguments : ZpoolArguments}
    (h : zpoolArguments acceptsProperty words = some arguments) :
    zpoolArguments (fun _ _ => true) words = some arguments := by
  refine @zpoolArguments_induction acceptsProperty _ _
    (fun words arguments => zpoolArguments (fun _ _ => true) words = some arguments) rfl ?_ ?_ ?_ h
  · intro words arguments ih
    rw [zpoolArguments_force, ih]
    rfl
  · intro flag property words arguments hflag _ ih
    rw [zpoolArguments_flag hflag, if_pos rfl, ih]
  · intro word words arguments hdash ih
    rw [zpoolArguments_operand hdash, ih]
    rfl

theorem plainText_zpoolOptions : PlainText zpoolOptions := by
  rw [zpoolOptions, lit_ofList, lit_ofList]
  decide +kernel

theorem not_endInBlank_zpoolOptions : ¬ EndInBlank zpoolOptions := by
  rw [zpoolOptions, lit_ofList, lit_ofList]
  decide +kernel

/-- The options of the installer are options only. -/
theorem zpoolArguments_zpoolOptions :
    zpoolArguments (fun _ _ => true) (words blank zpoolOptions) = some ⟨true, []⟩ := by
  have hwords : words blank zpoolOptions = [lit "-f", lit "-o", lit "ashift=12", lit "-o",
      lit "autotrim=on", lit "-O", lit "mountpoint=none", lit "-O", lit "acltype=posixacl", lit "-O",
      lit "atime=off", lit "-O", lit "relatime=off", lit "-O", lit "xattr=sa", lit "-O",
      lit "normalization=formD", lit "-O", lit "dnodesize=auto"] := by
    rw [zpoolOptions]
    repeat rw [lit_ofList]
    decide +kernel
  rw [hwords, zpoolArguments_force]
  simp only [zpoolArguments_flag (.inl rfl), zpoolArguments_flag (.inr rfl), if_true]
  rfl

/-- **The command of the installer creates no pool.** -/
theorem zfsCreateZpool_installer (htools : ZfsTools exec acceptsProperty validPool usable accepts)
    {name : Str} (hname : LiteralWord name) (hdevice : Quotable device) :
    exec (zfsCreateZpool device name zpoolOptions none) host = (false, host) := by
  have hcmd := htools.zpoolCreate _ _ _
    (@parse_zfsCreateZpool device name zpoolOptions none hdevice hname plainText_zpoolOptions
      (by simp)) host
  rw [hcmd, attempt_eq_false_iff]
  refine ⟨?_, rfl⟩
  rw [Option.eq_none_iff_forall_ne_some]
  intro host' hcreate
  obtain ⟨arguments, harguments, hpool⟩ := Option.bind_eq_some_iff.mp hcreate
  have hnone : zpoolOptions ++ encryptionText none ++ name = zpoolOptions ++ name := by
    simp [encryptionText]
  rw [hnone] at harguments
  have hread := zpoolArguments_mono harguments
  rcases (zpoolArguments_options plainText_zpoolOptions zpoolArguments_zpoolOptions hname.1
    hname.2.blank [device]).2 not_endInBlank_zpoolOptions with hnothing | ⟨force', hrest⟩
  · rw [hnothing] at hread
    exact absurd hread (by simp)
  · obtain ⟨arguments', hdevice', rfl⟩ := Option.map_eq_some_iff.mp (hrest.symm.trans hread)
    refine createPool_one ?_ hpool
    exact (zpoolArguments_sublist hdevice').length_le

/-- **The installer creates no zpool**: neither with the default datasets nor on an existing partition,
whatever the partition, the name and the state are; and no setting says that it did. -/
theorem installer_creates_no_zpool (htools : ZfsTools exec acceptsProperty validPool usable accepts)
    {partition name : Str} (hpartition : Quotable partition) (hname : LiteralWord name)
    (configData : ZfsSettings) (host : ZfsHost) :
    zfsAutoPres exec partition name configData host = (false, configData, host) ∧
      ∀ mountpoint partuuid, Quotable partuuid →
        diskCreateZpool exec partition name mountpoint partuuid configData host =
          (false, configData, host) := by
  constructor
  · have hcreate : zfsCreateWithConfig exec partition
        ⟨name, zpoolOptions, none, defaultZfsDatasets name⟩ host = (false, host) := by
      rw [zfsCreateWithConfig, andThen, zfsCreateZpool_installer htools hname hpartition]
    rw [zfsAutoPres]
    simp only [hcreate]
  · intro mountpoint partuuid hpartuuid
    have hdevice : Quotable (if partuuid.isEmpty then partition else partuuid) := by
      split_ifs
      · exact hpartition
      · exact hpartuuid
    rw [diskCreateZpool]
    simp only [zfsCreateZpool_installer htools hname hdevice]

theorem installer_creates_no_zpool_zpcachyos :
    zfsAutoPres runPlainZfs (lit "/dev/sda2") (lit "zpcachyos") ⟨0, none, []⟩ ⟨[], []⟩ =
        (false, ⟨0, none, []⟩, ⟨[], []⟩) ∧
      ∀ mountpoint partuuid, Quotable partuuid →
        diskCreateZpool runPlainZfs (lit "/dev/sda2") (lit "zpcachyos") mountpoint partuuid
          ⟨0, none, []⟩ ⟨[], []⟩ = (false, ⟨0, none, []⟩, ⟨[], []⟩) := by
  refine installer_creates_no_zpool zfsTools_plain ?_ ?_ _ _
  · rw [lit_ofList]; decide
  · rw [lit_ofList]; decide

end Setup

end CliInstaller
