import Mathlib.Data.List.Nodup
import CliInstaller.General.Shell
import CliInstaller.Gucc.StringUtils

/-!
# `gucc::bootloader`: generating the configuration of GRUB

Every line of a template goes through a cascade of prefix tests; the first that holds replaces the
line. A commented setting is tried as if it were not, and the settings that are booleans are tried
only where the line has a boolean.

Source: `gucc/src/bootloader.cpp`, `gucc/include/gucc/bootloader.hpp`.

## Main definitions

* `GrubConfig`, `grubDefaultConfig`: the fields and the template
* `Conv`, `parseGrubLine`, `genGrubConfig`: the cascade and the generator
* `GrubSetting`: the settings, with their keys, values and defaults
* `grubAssignment`: what a line assigns

## Main results

* `parseGrubLine_eq`: which test holds does not depend on the fields
* `lines_genGrubConfig`: the lines of the result
* `genGrubConfig_reads`: what is read back
-/

namespace CliInstaller

/-! ## The generator -/

/-- `bootloader::GrubConfig` -/
structure GrubConfig where
  defaultEntry : Str := lit "0"
  grubTimeout : Int := 5
  grubDistributor : Str := lit "Arch"
  cmdlineLinuxDefault : Str := lit "loglevel=3 quiet"
  cmdlineLinux : Str := []
  preloadModules : Str := lit "part_gpt part_msdos"
  enableCryptodisk : Option Bool := none
  timeoutStyle : Str := lit "menu"
  terminalInput : Str := lit "console"
  terminalOutput : Option Str := none
  gfxmode : Str := lit "auto"
  gfxpayloadLinux : Str := lit "keep"
  disableLinuxUuid : Option Bool := none
  disableRecovery : Bool := true
  colorNormal : Option Str := none
  colorHighlight : Option Str := none
  background : Option Str := none
  theme : Option Str := none
  initTune : Option Str := none
  savedefault : Option Bool := none
  disableSubmenu : Option Bool := none
  disableOsProber : Option Bool := none

/-- The lines of `GRUB_DEFAULT_CONFIG`. -/
def grubDefaultLines : List Str :=
  [lit "# GRUB boot loader configuration",
    [],
    lit "GRUB_DEFAULT=0",
    lit "GRUB_TIMEOUT=5",
    lit "GRUB_DISTRIBUTOR=\"Arch\"",
    lit "GRUB_CMDLINE_LINUX_DEFAULT=\"loglevel=3 quiet\"",
    lit "GRUB_CMDLINE_LINUX=\"\"",
    [],
    lit "# Preload both GPT and MBR modules so that they are not missed",
    lit "GRUB_PRELOAD_MODULES=\"part_gpt part_msdos\"",
    [],
    lit "# Uncomment to enable booting from LUKS encrypted devices",
    lit "#GRUB_ENABLE_CRYPTODISK=y",
    [],
    lit "# Set to 'countdown' or 'hidden' to change timeout behavior,",
    lit "# press ESC key to display menu.",
    lit "GRUB_TIMEOUT_STYLE=menu",
    [],
    lit "# Uncomment to use basic console",
    lit "GRUB_TERMINAL_INPUT=console",
    [],
    lit "# Uncomment to disable graphical terminal",
    lit "#GRUB_TERMINAL_OUTPUT=console",
    [],
    lit "# The resolution used on graphical terminal",
    lit "# note that you can use only modes which your graphic card supports via VBE",
    lit "# you can see them in real GRUB with the command \x60videoinfo'",
    lit "GRUB_GFXMODE=auto",
    [],
    lit "# Uncomment to allow the kernel use the same resolution used by grub",
    lit "GRUB_GFXPAYLOAD_LINUX=keep",
    [],
    lit "# Uncomment if you want GRUB to pass to the Linux kernel the old parameter",
    lit "# format \"root=/dev/xxx\" instead of \"root=/dev/disk/by-uuid/xxx\"",
    lit "#GRUB_DISABLE_LINUX_UUID=true",
    [],
    lit "# Uncomment to disable generation of recovery mode menu entries",
    lit "GRUB_DISABLE_RECOVERY=true",
    [],
    lit "# Uncomment and set to the desired menu colors.  Used by normal and wallpaper",
    lit "# modes only.  Entries specified as foreground/background.",
    lit "#GRUB_COLOR_NORMAL=\"light-blue/black\"",
    lit "#GRUB_COLOR_HIGHLIGHT=\"light-cyan/blue\"",
    [],
    lit "# Uncomment one of them for the gfx desired, a image background or a gfxtheme",
    lit "#GRUB_BACKGROUND=\"/path/to/wallpaper\"",
    lit "#GRUB_THEME=\"/path/to/gfxtheme\"",
    [],
    lit "# Uncomment to get a beep at GRUB start",
    lit "#GRUB_INIT_TUNE=\"480 440 1\"",
    [],
    lit "# Uncomment to make GRUB remember the last selection. This requires",
    lit "# setting 'GRUB_DEFAULT=saved' above.",
    lit "#GRUB_SAVEDEFAULT=true",
    [],
    lit "# Uncomment to disable submenus in boot menu",
    lit "#GRUB_DISABLE_SUBMENU=y",
    [],
    lit "# Probing for other operating systems is disabled for security reasons. Read",
    lit "# documentation on GRUB_DISABLE_OS_PROBER, if still want to enable this",
    lit "# functionality install os-prober and uncomment to detect and include other",
    lit "# operating systems.",
    lit "#GRUB_DISABLE_OS_PROBER=false",
    []]

def grubDefaultConfig : Str := ['\n'].intercalate grubDefaultLines

/-- A prefix test, and the line that is returned when it holds. -/
structure Conv where
  needle : Str
  text : Str

def convReqF (needle f : Str) : Conv := ⟨needle, needle ++ f⟩

def convReqFS (needle f : Str) : Conv := ⟨needle, needle ++ ['\x22'] ++ f ++ ['\x22']⟩

def convOptF (needle : Str) (f : Option Str) (defaultVal : Str) : Conv :=
  match f with
  | some f => convReqF needle f
  | none => ⟨needle, ['#'] ++ needle ++ defaultVal⟩

def convOptFS (needle : Str) (f : Option Str) (defaultVal : Str) : Conv :=
  match f with
  | some f => convReqFS needle f
  | none => ⟨needle, ['#'] ++ needle ++ ['\x22'] ++ defaultVal ++ ['\x22']⟩

def convertBooleanVal (needle : Str) (value : Bool) : Str :=
  if needle = lit "GRUB_ENABLE_CRYPTODISK=" || needle = lit "GRUB_DISABLE_SUBMENU=" then
    if value then lit "y" else lit "n"
  else if value then lit "true" else lit "false"

def convReqB (needle : Str) (f : Bool) : Conv := convReqF needle (convertBooleanVal needle f)

def convOptB (needle : Str) (f : Option Bool) (defaultVal : Str) : Conv :=
  convOptF needle (f.map (convertBooleanVal needle)) defaultVal

/-- The tests on every setting, in the order of the source. -/
def convs (grubConfig : GrubConfig) : List Conv :=
  [convReqF (lit "GRUB_DEFAULT=") grubConfig.defaultEntry,
    convReqF (lit "GRUB_TIMEOUT=") (formatInt grubConfig.grubTimeout),
    convReqFS (lit "GRUB_DISTRIBUTOR=") grubConfig.grubDistributor,
    convReqFS (lit "GRUB_CMDLINE_LINUX_DEFAULT=") grubConfig.cmdlineLinuxDefault,
    convReqFS (lit "GRUB_CMDLINE_LINUX=") grubConfig.cmdlineLinux,
    convReqFS (lit "GRUB_PRELOAD_MODULES=") grubConfig.preloadModules,
    convReqF (lit "GRUB_TIMEOUT_STYLE=") grubConfig.timeoutStyle,
    convReqF (lit "GRUB_TERMINAL_INPUT=") grubConfig.terminalInput,
    convOptF (lit "GRUB_TERMINAL_OUTPUT=") grubConfig.terminalOutput (lit "console"),
    convReqF (lit "GRUB_GFXMODE=") grubConfig.gfxmode,
    convReqF (lit "GRUB_GFXPAYLOAD_LINUX=") grubConfig.gfxpayloadLinux,
    convOptFS (lit "GRUB_COLOR_NORMAL=") grubConfig.colorNormal (lit "light-blue/black"),
    convOptFS (lit "GRUB_COLOR_HIGHLIGHT=") grubConfig.colorHighlight (lit "light-cyan/blue"),
    convOptFS (lit "GRUB_BACKGROUND=") grubConfig.background (lit "/path/to/wallpaper"),
    convOptFS (lit "GRUB_THEME=") grubConfig.theme (lit "/path/to/gfxtheme"),
    convOptFS (lit "GRUB_INIT_TUNE=") grubConfig.initTune (lit "480 440 1")]

/-- The tests on the booleans. -/
def booleanConvs (grubConfig : GrubConfig) : List Conv :=
  [convOptB (lit "GRUB_ENABLE_CRYPTODISK=") grubConfig.enableCryptodisk (lit "y"),
    convOptB (lit "GRUB_DISABLE_LINUX_UUID=") grubConfig.disableLinuxUuid (lit "true"),
    convReqB (lit "GRUB_DISABLE_RECOVERY=") grubConfig.disableRecovery,
    convOptB (lit "GRUB_SAVEDEFAULT=") grubConfig.savedefault (lit "true"),
    convOptB (lit "GRUB_DISABLE_SUBMENU=") grubConfig.disableSubmenu (lit "y"),
    convOptB (lit "GRUB_DISABLE_OS_PROBER=") grubConfig.disableOsProber (lit "false")]

/-- The line has a boolean. -/
def hasBoolean (line : Str) : Bool :=
  contains line (lit "=y") || contains line (lit "=true") || contains line (lit "=false")

/-- A commented setting is uncommented. -/
def uncomment (line : Str) : Str :=
  if startsWith line (lit "#GRUB_") then line.drop 1 else line

def parseGrubLine (grubConfig : GrubConfig) (line : Str) : Str :=
  let line := uncomment line
  if startsWith line (lit "GRUB_") then
    let tests := convs grubConfig ++ if hasBoolean line then booleanConvs grubConfig else []
    match tests.find? fun conv => startsWith line conv.needle with
    | some conv => conv.text
    | none => line
  else line

/-- The loop of `gen_grub_config`: every line but the first is put after a newline. -/
def joinTransformed (transformedLines : List Str) : Str :=
  (transformedLines.foldl
    (fun (result, firstLine) lineStr =>
      ((if firstLine then result else result ++ ['\n']) ++ lineStr, false))
    (([] : Str), true)).1

def genGrubConfig (grubConfig : GrubConfig) : Str :=
  joinTransformed ((Splitting.splitView '\n' grubDefaultConfig).map (parseGrubLine grubConfig))

/-! ## The settings -/

/-- A setting, named after its field. -/
inductive GrubSetting where
  | defaultEntry
  | grubTimeout
  | grubDistributor
  | cmdlineLinuxDefault
  | cmdlineLinux
  | preloadModules
  | enableCryptodisk
  | timeoutStyle
  | terminalInput
  | terminalOutput
  | gfxmode
  | gfxpayloadLinux
  | disableLinuxUuid
  | disableRecovery
  | colorNormal
  | colorHighlight
  | background
  | theme
  | initTune
  | savedefault
  | disableSubmenu
  | disableOsProber
  deriving DecidableEq, Repr

namespace GrubSetting

/-- All settings, in the order of the template. -/
def all : List GrubSetting :=
  [defaultEntry, grubTimeout, grubDistributor, cmdlineLinuxDefault, cmdlineLinux, preloadModules,
    enableCryptodisk, timeoutStyle, terminalInput, terminalOutput, gfxmode, gfxpayloadLinux,
    disableLinuxUuid, disableRecovery, colorNormal, colorHighlight, background, theme, initTune,
    savedefault, disableSubmenu, disableOsProber]

/-- The key of a setting. -/
def key : GrubSetting → Str
  | defaultEntry => lit "GRUB_DEFAULT"
  | grubTimeout => lit "GRUB_TIMEOUT"
  | grubDistributor => lit "GRUB_DISTRIBUTOR"
  | cmdlineLinuxDefault => lit "GRUB_CMDLINE_LINUX_DEFAULT"
  | cmdlineLinux => lit "GRUB_CMDLINE_LINUX"
  | preloadModules => lit "GRUB_PRELOAD_MODULES"
  | enableCryptodisk => lit "GRUB_ENABLE_CRYPTODISK"
  | timeoutStyle => lit "GRUB_TIMEOUT_STYLE"
  | terminalInput => lit "GRUB_TERMINAL_INPUT"
  | terminalOutput => lit "GRUB_TERMINAL_OUTPUT"
  | gfxmode => lit "GRUB_GFXMODE"
  | gfxpayloadLinux => lit "GRUB_GFXPAYLOAD_LINUX"
  | disableLinuxUuid => lit "GRUB_DISABLE_LINUX_UUID"
  | disableRecovery => lit "GRUB_DISABLE_RECOVERY"
  | colorNormal => lit "GRUB_COLOR_NORMAL"
  | colorHighlight => lit "GRUB_COLOR_HIGHLIGHT"
  | background => lit "GRUB_BACKGROUND"
  | theme => lit "GRUB_THEME"
  | initTune => lit "GRUB_INIT_TUNE"
  | savedefault => lit "GRUB_SAVEDEFAULT"
  | disableSubmenu => lit "GRUB_DISABLE_SUBMENU"
  | disableOsProber => lit "GRUB_DISABLE_OS_PROBER"

/-- The settings that are written between double quotes. -/
def quoted : GrubSetting → Bool
  | grubDistributor | cmdlineLinuxDefault | cmdlineLinux | preloadModules | colorNormal
  | colorHighlight | background | theme | initTune => true
  | _ => false

/-- What is shown of an optional setting without a value. -/
def defaultVal : GrubSetting → Str
  | terminalOutput => lit "console"
  | colorNormal => lit "light-blue/black"
  | colorHighlight => lit "light-cyan/blue"
  | background => lit "/path/to/wallpaper"
  | theme => lit "/path/to/gfxtheme"
  | initTune => lit "480 440 1"
  | enableCryptodisk | disableSubmenu => lit "y"
  | disableLinuxUuid | savedefault => lit "true"
  | disableOsProber => lit "false"
  | _ => []

/-- A boolean, as `y` or `n`. -/
def yesNo (b : Bool) : Str := if b then lit "y" else lit "n"

/-- A boolean, as `true` or `false`. -/
def trueFalse (b : Bool) : Str := if b then lit "true" else lit "false"

/-- The value of a setting; a required one always has it. -/
def value (config : GrubConfig) : GrubSetting → Option Str
  | defaultEntry => config.defaultEntry
  | grubTimeout => formatInt config.grubTimeout
  | grubDistributor => config.grubDistributor
  | cmdlineLinuxDefault => config.cmdlineLinuxDefault
  | cmdlineLinux => config.cmdlineLinux
  | preloadModules => config.preloadModules
  | enableCryptodisk => config.enableCryptodisk.map yesNo
  | timeoutStyle => config.timeoutStyle
  | terminalInput => config.terminalInput
  | terminalOutput => config.terminalOutput
  | gfxmode => config.gfxmode
  | gfxpayloadLinux => config.gfxpayloadLinux
  | disableLinuxUuid => config.disableLinuxUuid.map trueFalse
  | disableRecovery => trueFalse config.disableRecovery
  | colorNormal => config.colorNormal
  | colorHighlight => config.colorHighlight
  | background => config.background
  | theme => config.theme
  | initTune => config.initTune
  | savedefault => config.savedefault.map trueFalse
  | disableSubmenu => config.disableSubmenu.map yesNo
  | disableOsProber => config.disableOsProber.map trueFalse

/-- A value as it is written. -/
def written (k : GrubSetting) (v : Str) : Str :=
  k.key ++ '=' :: if k.quoted then '\x22' :: v ++ ['\x22'] else v

/-- The commented default of an optional setting. -/
def commentedDefault (k : GrubSetting) : Str := '#' :: k.written k.defaultVal

/-- **The line of a setting.** -/
def line (config : GrubConfig) (k : GrubSetting) : Str :=
  ((k.value config).map k.written).getD k.commentedDefault

/-- The line sets this setting, or would if it were not commented. -/
def IsLine (k : GrubSetting) (line : Str) : Prop :=
  k.key ++ ['='] <+: line ∨ '#' :: k.key ++ ['='] <+: line

instance (k : GrubSetting) (line : Str) : Decidable (k.IsLine line) := by
  unfold IsLine
  infer_instance

/-- The settings in the order of the tests. -/
def tested (boolean : Bool) : List GrubSetting :=
  [defaultEntry, grubTimeout, grubDistributor, cmdlineLinuxDefault, cmdlineLinux, preloadModules,
    timeoutStyle, terminalInput, terminalOutput, gfxmode, gfxpayloadLinux, colorNormal,
    colorHighlight, background, theme, initTune] ++
  if boolean then
    [enableCryptodisk, disableLinuxUuid, disableRecovery, savedefault, disableSubmenu,
      disableOsProber]
  else []

/-- The test of a setting. -/
def conv (config : GrubConfig) (k : GrubSetting) : Conv := ⟨k.key ++ ['='], k.line config⟩

end GrubSetting

/-- The setting that replaces a line, whatever the fields are. -/
def settingOf (line : Str) : Option GrubSetting :=
  if startsWith (uncomment line) (lit "GRUB_") then
    (GrubSetting.tested (hasBoolean (uncomment line))).find?
      fun k => startsWith (uncomment line) (k.key ++ ['='])
  else none

theorem convOptF_eq (needle : Str) (f : Option Str) (defaultVal : Str) :
    convOptF needle f defaultVal =
      ⟨needle, (f.map (needle ++ ·)).getD (['#'] ++ needle ++ defaultVal)⟩ := by
  cases f <;> rfl

theorem convOptFS_eq (needle : Str) (f : Option Str) (defaultVal : Str) :
    convOptFS needle f defaultVal =
      ⟨needle, (f.map (needle ++ ['\x22'] ++ · ++ ['\x22'])).getD
        (['#'] ++ needle ++ ['\x22'] ++ defaultVal ++ ['\x22'])⟩ := by
  cases f <;> rfl

theorem convertBooleanVal_eq (needle : Str) :
    convertBooleanVal needle =
      if needle = lit "GRUB_ENABLE_CRYPTODISK=" || needle = lit "GRUB_DISABLE_SUBMENU=" then
        GrubSetting.yesNo
      else GrubSetting.trueFalse := by
  funext value
  unfold convertBooleanVal
  split <;> rfl

theorem written_eq (k : GrubSetting) :
    k.written = fun v => k.key ++ '=' :: if k.quoted then '\x22' :: v ++ ['\x22'] else v := rfl

theorem convs_eq (config : GrubConfig) :
    convs config = (GrubSetting.tested false).map (GrubSetting.conv config) := by
  simp only [convs, GrubSetting.tested, convOptF_eq, convOptFS_eq, convReqF, convReqFS,
    Bool.false_eq_true, if_false, List.append_nil, List.map_cons, List.map_nil,
    GrubSetting.conv, GrubSetting.line, GrubSetting.value, written_eq, GrubSetting.key,
    GrubSetting.quoted, GrubSetting.commentedDefault, GrubSetting.defaultVal]
  repeat rw [lit_ofList]
  rfl

theorem booleanConvs_eq (config : GrubConfig) :
    booleanConvs config =
      ((GrubSetting.tested true).drop (GrubSetting.tested false).length).map
        (GrubSetting.conv config) := by
  simp [booleanConvs, GrubSetting.tested, convOptB, convReqB, convertBooleanVal_eq, convOptF_eq,
    convReqF, GrubSetting.conv, GrubSetting.line, GrubSetting.value, written_eq,
    GrubSetting.key, GrubSetting.quoted, GrubSetting.commentedDefault, GrubSetting.defaultVal]
  repeat rw [lit_ofList]
  simp

/-- **Which test holds does not depend on the fields.** -/
theorem parseGrubLine_eq (config : GrubConfig) (line : Str) :
    parseGrubLine config line =
      ((settingOf line).map (GrubSetting.line config)).getD (uncomment line) := by
  have htests : (convs config ++
      if hasBoolean (uncomment line) then booleanConvs config else []) =
        (GrubSetting.tested (hasBoolean (uncomment line))).map (GrubSetting.conv config) := by
    rw [convs_eq, booleanConvs_eq]
    cases hasBoolean (uncomment line) <;> rfl
  unfold parseGrubLine settingOf
  by_cases hgrub : startsWith (uncomment line) (lit "GRUB_") = true
  · simp only [hgrub, if_true, htests, List.find?_map]
    have hneedle : ((fun conv : Conv => startsWith (uncomment line) conv.needle) ∘
        GrubSetting.conv config) = fun k => startsWith (uncomment line) (k.key ++ ['=']) := rfl
    rw [hneedle]
    cases (GrubSetting.tested (hasBoolean (uncomment line))).find?
      fun k => startsWith (uncomment line) (k.key ++ ['=']) <;> rfl
  · simp only [hgrub]
    rfl

/-! ## The template -/

/-- The line is a comment or blank, and no setting. -/
def IsProse (line : Str) : Prop := ¬lit "GRUB_" <+: line ∧ ¬lit "#GRUB_" <+: line

instance (line : Str) : Decidable (IsProse line) := by
  unfold IsProse
  infer_instance

/-- The line is neither blank nor a comment. -/
def Uncommented (line : Str) : Prop := line ≠ [] ∧ line.head? ≠ some '#'

instance (line : Str) : Decidable (Uncommented line) := by
  unfold Uncommented
  infer_instance

/-- **The lines of the template**: each setting has one, in this order, the others are prose, which is
blank or commented, and none has a newline. -/
theorem grubDefaultLines_spec : grubDefaultLines.filterMap settingOf = GrubSetting.all ∧
    ∀ line ∈ grubDefaultLines, (IsProse line ↔ settingOf line = none) ∧
      (IsProse line → ¬Uncommented line) ∧ '\n' ∉ line := by
  unfold grubDefaultLines
  repeat rw [lit_ofList]
  decide +kernel

theorem filterMap_settingOf : grubDefaultLines.filterMap settingOf = GrubSetting.all :=
  grubDefaultLines_spec.1

theorem isProse_iff {line : Str} (h : line ∈ grubDefaultLines) :
    IsProse line ↔ settingOf line = none :=
  (grubDefaultLines_spec.2 line h).1

theorem not_uncommented {line : Str} (h : line ∈ grubDefaultLines) (hsetting : settingOf line = none) :
    ¬Uncommented line :=
  (grubDefaultLines_spec.2 line h).2.1 ((isProse_iff h).mpr hsetting)

theorem newline_not_mem {line : Str} (h : line ∈ grubDefaultLines) : '\n' ∉ line :=
  (grubDefaultLines_spec.2 line h).2.2

theorem lines_grubDefaultConfig : lines grubDefaultConfig = grubDefaultLines := by
  rw [lines, grubDefaultConfig]
  exact List.splitOn_intercalate '\n' (fun line hline => newline_not_mem hline) (by decide)

theorem grubDefaultConfig_ne_nil : grubDefaultConfig ≠ [] := by
  rw [grubDefaultConfig, grubDefaultLines, Splitting.intercalate_cons_eq, lit_ofList]
  exact List.cons_ne_nil _ _

/-- The loop puts newlines between the lines. -/
theorem joinTransformed_eq (transformedLines : List Str) :
    joinTransformed transformedLines = ['\n'].intercalate transformedLines := by
  have hmore (result : Str) (transformedLines : List Str) :
      (transformedLines.foldl
        (fun (result, firstLine) lineStr =>
          ((if firstLine then result else result ++ ['\n']) ++ lineStr, false))
        (result, false)).1 = result ++ transformedLines.flatMap fun line => '\n' :: line := by
    induction transformedLines generalizing result with
    | nil => simp
    | cons line transformedLines ih =>
      rw [List.foldl_cons]
      simp only [Bool.false_eq_true, if_false]
      rw [ih, List.flatMap_cons]
      simp
  cases transformedLines with
  | nil => rfl
  | cons line transformedLines =>
    rw [joinTransformed, List.foldl_cons, Splitting.intercalate_cons_eq]
    exact hmore line transformedLines

theorem splitView_eq_lines {text : Str} (h : text ≠ []) :
    Splitting.splitView '\n' text = lines text :=
  Splitting.splitView_of_ne_nil '\n' h

theorem genGrubConfig_eq (config : GrubConfig) :
    genGrubConfig config = ['\n'].intercalate (grubDefaultLines.map (parseGrubLine config)) := by
  have hsplit : Splitting.splitView '\n' grubDefaultConfig = grubDefaultLines := by
    rw [splitView_eq_lines grubDefaultConfig_ne_nil, lines_grubDefaultConfig]
  rw [genGrubConfig, hsplit, joinTransformed_eq]

/-! ## Reading the result back -/

/-- The characters that a value without quotes does not have. -/
def metacharacter (c : Char) : Bool :=
  Shell.operatorChar c || Shell.expansion c || c = '[' || c = '\x27' || c = '\x22' || c = '\x5c' || c = '~'

/-- A value that needs no quotes. -/
def Unquoted (text : Str) : Prop := ∀ c ∈ text, c.isWhitespace = false ∧ metacharacter c = false

instance (text : Str) : Decidable (Unquoted text) :=
  List.decidableBAll _ text

/-- The text of a value, without its quotes. -/
def readValue : Str → Option Str
  | '\x22' :: rest =>
    if rest.getLast? = some '\x22' ∧ Shell.DoubleQuotable rest.dropLast then some rest.dropLast
    else none
  | text => if Unquoted text then some text else none

/-- The name of a variable. -/
def isName (key : Str) : Bool := key ≠ [] && key.all fun c => c.isAlphanum || c = '_'

/-- **What a line assigns**: a key and a value. -/
def grubAssignment (line : Str) : Option (Str × Str) :=
  match line.dropWhile (· ≠ '=') with
  | '=' :: text =>
    if isName (line.takeWhile (· ≠ '=')) then
      (readValue text).map fun value => (line.takeWhile (· ≠ '='), value)
    else none
  | _ => none

theorem takeWhile_key {key text : Str} (hkey : '=' ∉ key) :
    (key ++ '=' :: text).takeWhile (· ≠ '=') = key := by
  have hne : ∀ c ∈ key, (decide (c ≠ '=')) = true := by
    intro c hc
    simp only [ne_eq, decide_not, Bool.not_eq_true', decide_eq_false_iff_not]
    rintro rfl
    exact hkey hc
  rw [List.takeWhile_append_of_pos hne]
  simp

theorem grubAssignment_eq {key text : Str} (hkey : '=' ∉ key) :
    grubAssignment (key ++ '=' :: text) =
      if isName key then (readValue text).map fun value => (key, value) else none := by
  have hdrop : (key ++ '=' :: text).dropWhile (· ≠ '=') = '=' :: text := by
    have happend := List.takeWhile_append_dropWhile (p := (· ≠ '=')) (l := key ++ '=' :: text)
    rw [takeWhile_key hkey] at happend
    exact List.append_cancel_left happend
  rw [grubAssignment, hdrop, takeWhile_key hkey]
  rfl

/-- A comment assigns nothing. -/
theorem grubAssignment_comment (text : Str) : grubAssignment ('#' :: text) = none := by
  have hname : isName (('#' :: text).takeWhile (· ≠ '=')) = false := by
    simp [isName]
  rw [grubAssignment, hname]
  split <;> rfl

theorem grubAssignment_prose {line : Str} (h : line ∈ grubDefaultLines) (hprose : IsProse line) :
    grubAssignment line = none := by
  have hcomment := not_uncommented h ((isProse_iff h).mp hprose)
  match line with
  | [] => rfl
  | '#' :: text => exact grubAssignment_comment text
  | c :: text =>
    have hhash : c = '#' := by simpa [Uncommented] using hcomment
    exact hhash ▸ grubAssignment_comment text

theorem readValue_eq_some {text value : Str} (h : readValue text = some value) :
    (text = '\x22' :: value ++ ['\x22'] ∧ Shell.DoubleQuotable value) ∨
      (text = value ∧ Unquoted value) := by
  unfold readValue at h
  split at h
  · split_ifs at h with hrest
    obtain rfl := Option.some.inj h
    refine .inl ⟨?_, hrest.2⟩
    obtain ⟨before, hbefore⟩ := List.getLast?_eq_some_iff.mp hrest.1
    rw [hbefore, List.dropLast_concat]
    rfl
  · split_ifs at h with htext
    obtain rfl := Option.some.inj h
    exact .inr ⟨rfl, htext⟩

theorem plainWord_of_isName {key : Str} (h : isName key = true) :
    Shell.PlainWord key ∧ '[' ∉ key := by
  simp only [isName, Bool.and_eq_true, decide_eq_true_eq, List.all_eq_true, Bool.or_eq_true] at h
  have hchar : ∀ c ∈ key, Shell.special c = false ∧ (c ≠ '#' ∧ c ≠ '~') ∧ c ≠ '[' := by
    intro c hc
    rcases h.2 c hc with hletter | rfl
    · exact Shell.special_of_isAlphanum hletter
    · decide
  have hopen : '[' ∉ key := fun hmem => (hchar _ hmem).2.2 rfl
  exact ⟨⟨h.1, fun c hc => (hchar c hc).1, fun c hc => (hchar c (List.mem_of_mem_head? hc)).2.1,
    Shell.Bracket.unclosed_of_not_mem hopen⟩, hopen⟩

theorem special_of_unquoted {c : Char} (h : c.isWhitespace = false ∧ metacharacter c = false)
    (hnul : c ≠ '\x00') : Shell.special c = false ∧ c ≠ '[' := by
  obtain ⟨hspace, hmeta⟩ := h
  simp only [metacharacter, Bool.or_eq_false_iff, decide_eq_false_iff_not] at hmeta
  obtain ⟨⟨⟨⟨⟨⟨hoperator, hexpansion⟩, hopen⟩, hsingle⟩, hdouble⟩, hback⟩, -⟩ := hmeta
  have hblank : Shell.blank c = false := by
    simp only [Char.isWhitespace, Bool.or_eq_false_iff, decide_eq_false_iff_not] at hspace
    simp [Shell.blank, hspace]
  refine ⟨?_, hopen⟩
  simp [Shell.special, hnul, hsingle, hdouble, hback, hblank, hoperator, hexpansion]

/-- **What a line assigns, a shell assigns too**: it reads one word, the key and the value. -/
theorem parse_of_grubAssignment {line key value : Str} (h : grubAssignment line = some (key, value))
    (hnul : '\x00' ∉ line) : Shell.parse line = some [.word (key ++ '=' :: value)] := by
  obtain ⟨text, hline, hname, hread⟩ : ∃ text, line = key ++ '=' :: text ∧ isName key = true ∧
      readValue text = some value := by
    unfold grubAssignment at h
    split at h
    · next text htext =>
      split_ifs at h with hname
      obtain ⟨value', hread, heq⟩ := Option.map_eq_some_iff.mp h
      obtain ⟨rfl, rfl⟩ := Prod.mk.inj heq
      refine ⟨text, ?_, hname, hread⟩
      rw [← htext, List.takeWhile_append_dropWhile]
    · cases h
  have hopen : '[' ∉ key ++ ['='] := by simp [(plainWord_of_isName hname).2]
  have hkey : Shell.PlainWord (key ++ ['=']) :=
    (plainWord_of_isName hname).1.append_of_not_mem (List.forall_mem_singleton.mpr rfl) hopen
  have hrun : Shell.run .start (key ++ ['=']) = some (Shell.State.start.extend (key ++ ['=']) true) :=
    Shell.run_plainWord rfl rfl hkey
  have hsplit : line = (key ++ ['=']) ++ text := by simp [hline]
  rcases readValue_eq_some hread with ⟨rfl, hvalue⟩ | ⟨rfl, hvalue⟩
  · have hnul' : '\x00' ∉ value := fun hmem => hnul (by simp [hline, hmem])
    rw [hsplit, Shell.parse, Shell.parseFrom_append, hrun, Option.bind_some, Shell.parseFrom,
      Shell.run_doubleQuoted rfl hvalue hnul']
    simp [Shell.finish, Shell.State.all, Shell.State.extend, Shell.State.flush, Shell.State.start,
      Shell.Current.emit]
  · have hordinary : ∀ c ∈ text, Shell.special c = false ∧ c ≠ '[' := by
      intro c hc
      refine special_of_unquoted (hvalue c hc) ?_
      rintro rfl
      exact hnul (by simp [hline, hc])
    have hword : Shell.PlainWord ((key ++ ['=']) ++ text) := by
      refine hkey.append_of_not_mem (fun c hc => (hordinary c hc).1) fun hmem => ?_
      exact (List.mem_append.mp hmem).elim hopen fun hmem => (hordinary _ hmem).2 rfl
    rw [hsplit, Shell.parse_last hword, List.append_assoc]
    rfl

namespace GrubSetting

/-- The value is written so that it can be read back. -/
def Readable (k : GrubSetting) (v : Str) : Prop :=
  if k.quoted then '\n' ∉ v ∧ Shell.DoubleQuotable v else Unquoted v

instance (k : GrubSetting) (v : Str) : Decidable (k.Readable v) := by
  unfold Readable
  infer_instance

/-- The fields that are strings. -/
def isText : GrubSetting → Bool
  | grubTimeout | enableCryptodisk | disableLinuxUuid | disableRecovery | savedefault
  | disableSubmenu | disableOsProber => false
  | _ => true

/-- The keys are names, of which no two are the same. -/
theorem nodup_keys : (all.map key).Nodup ∧ ∀ name ∈ all.map key,
    isName name = true ∧ '=' ∉ name ∧ '\n' ∉ name ∧ lit "GRUB_" <+: name := by
  simp only [all, List.map_cons, List.map_nil, key]
  repeat rw [lit_ofList]
  decide +kernel

theorem mem_all (k : GrubSetting) : k ∈ all := by
  cases k <;> decide

theorem filter_all (k : GrubSetting) : (all.filter fun k' => k = k') = [k] := by
  cases k <;> rfl

theorem key_spec (k : GrubSetting) :
    isName k.key = true ∧ '=' ∉ k.key ∧ '\n' ∉ k.key ∧ lit "GRUB_" <+: k.key :=
  nodup_keys.2 k.key (List.mem_map_of_mem k.mem_all)

theorem isName_key (k : GrubSetting) : isName k.key = true := k.key_spec.1

theorem equals_not_mem_key (k : GrubSetting) : '=' ∉ k.key := k.key_spec.2.1

theorem prefix_key (k : GrubSetting) : lit "GRUB_" <+: k.key := k.key_spec.2.2.2

theorem unquoted_formatInt (n : Int) : Unquoted (formatInt n) := by
  intro c hc
  rcases isDigit_of_mem_formatInt hc with hdigit | rfl
  · have hnot (d : Char) (hd : d.isDigit = false) : c ≠ d := by
      rintro rfl
      rw [hdigit] at hd
      cases hd
    constructor
    · simp [Char.isWhitespace, hnot]
    · simp [metacharacter, Shell.operatorChar, Shell.expansion, hnot]
  · decide

theorem unquoted_yesNo (b : Bool) : Unquoted (yesNo b) := by
  cases b <;> decide +kernel

theorem unquoted_trueFalse (b : Bool) : Unquoted (trueFalse b) := by
  cases b <;> decide +kernel

/-- Numbers and booleans are always readable. -/
theorem readable_of_not_isText {config : GrubConfig} {k : GrubSetting} (hk : k.isText = false)
    {v : Str} (hv : k.value config = some v) : k.Readable v := by
  cases k <;> simp only [isText, Bool.true_eq_false] at hk <;>
    simp only [value, Option.some.injEq, Option.map_eq_some_iff] at hv <;>
    simp only [Readable, quoted, Bool.false_eq_true, if_false]
  case grubTimeout => exact hv ▸ unquoted_formatInt _
  case disableRecovery => exact hv ▸ unquoted_trueFalse _
  all_goals
    obtain ⟨b, -, rfl⟩ := hv
    first | exact unquoted_yesNo b | exact unquoted_trueFalse b

end GrubSetting

/-- The strings can be written so that they are read back: those in double quotes have no newline,
double quote, backslash, dollar sign or grave accent, and the others no blank or metacharacter. -/
def GrubConfig.Clean (config : GrubConfig) : Prop :=
  ∀ k : GrubSetting, k.isText = true → ∀ v, k.value config = some v → k.Readable v

namespace GrubSetting

theorem readable_of_clean {config : GrubConfig} (h : config.Clean) {k : GrubSetting} {v : Str}
    (hv : k.value config = some v) : k.Readable v := by
  rcases hk : k.isText with _ | _
  · exact readable_of_not_isText hk hv
  · exact h k hk v hv

/-- **A readable value is read back.** -/
theorem assignment_written {k : GrubSetting} {v : Str} (h : k.Readable v) :
    grubAssignment (k.written v) = some (k.key, v) := by
  have hread : readValue (if k.quoted then '\x22' :: v ++ ['\x22'] else v) = some v := by
    unfold Readable at h
    by_cases hquoted : k.quoted = true
    · rw [if_pos hquoted] at h
      simp [hquoted, readValue, h.2]
    · rw [if_neg hquoted] at h
      rw [if_neg hquoted]
      unfold readValue
      split
      · exact absurd (h _ List.mem_cons_self).2 (by decide)
      · rw [if_pos h]
  rw [written, grubAssignment_eq k.equals_not_mem_key, k.isName_key, if_pos rfl, hread]
  rfl

theorem assignment_line {config : GrubConfig} (h : config.Clean) (k : GrubSetting) :
    grubAssignment (k.line config) = (k.value config).map fun v => (k.key, v) := by
  unfold line
  rcases hv : k.value config with _ | v
  · exact grubAssignment_comment _
  · exact assignment_written (readable_of_clean h hv)

theorem newline_not_mem_written {k : GrubSetting} {v : Str} (h : '\n' ∉ v) :
    '\n' ∉ k.written v := by
  have hkey := k.key_spec.2.2.1
  unfold written
  split <;> simp [hkey, h]

theorem newline_not_mem_defaultVal (k : GrubSetting) : '\n' ∉ k.defaultVal := by
  have hall : ∀ v ∈ all.map defaultVal, '\n' ∉ v := by
    simp only [all, List.map_cons, List.map_nil, defaultVal]
    repeat rw [lit_ofList]
    decide +kernel
  exact hall _ (List.mem_map_of_mem k.mem_all)

theorem newline_not_mem_line {config : GrubConfig} (h : config.Clean) (k : GrubSetting) :
    '\n' ∉ k.line config := by
  unfold line
  rcases hv : k.value config with _ | v
  · simp [commentedDefault, newline_not_mem_written (newline_not_mem_defaultVal k)]
  · refine newline_not_mem_written ?_
    have hreadable := readable_of_clean h hv
    unfold Readable at hreadable
    split at hreadable
    · exact hreadable.1
    · exact fun hmem => absurd (hreadable _ hmem).1 (by decide)

/-- The line of a setting begins with its key, commented or not. -/
theorem line_eq (config : GrubConfig) (k : GrubSetting) :
    ∃ rest, k.line config = k.key ++ '=' :: rest ∨ k.line config = '#' :: k.key ++ '=' :: rest := by
  unfold line
  rcases k.value config with _ | v
  · exact ⟨_, .inr rfl⟩
  · exact ⟨_, .inl rfl⟩

theorem key_injective {k k' : GrubSetting} (h : k.key = k'.key) : k = k' :=
  List.inj_on_of_nodup_map nodup_keys.1 k.mem_all k'.mem_all h

/-- A line that begins with two keys begins with one. -/
theorem eq_of_key_prefix {k k' : GrubSetting} {rest : Str}
    (h : k.key ++ ['='] <+: k'.key ++ '=' :: rest) : k = k' := by
  obtain ⟨after, hafter⟩ := h
  have hkey (k : GrubSetting) (text : Str) :
      (k.key ++ '=' :: text).takeWhile (· ≠ '=') = k.key :=
    takeWhile_key k.equals_not_mem_key
  refine key_injective ?_
  rw [← hkey k after, ← hkey k' rest, ← hafter, List.append_assoc]
  rfl

/-- A line sets one setting at most. -/
theorem isLine_line_iff (config : GrubConfig) (k k' : GrubSetting) :
    k.IsLine (k'.line config) ↔ k = k' := by
  have hhash (k k' : GrubSetting) (text text' : Str) : ¬ '#' :: text <+: k.key ++ text' := by
    intro h
    obtain ⟨rest, hrest⟩ := k.prefix_key
    rw [← hrest, lit_eq] at h
    exact absurd (List.cons_prefix_cons.mp h).1 (by decide)
  constructor
  · obtain ⟨rest, hline | hline⟩ := k'.line_eq config <;> rw [hline]
    · rintro (h | h)
      · exact eq_of_key_prefix h
      · exact absurd h (hhash k' k' _ _)
    · rintro (h | h)
      · obtain ⟨after, hafter⟩ := h
        rw [List.append_assoc] at hafter
        exact absurd ⟨[], (List.append_nil _).trans hafter.symm⟩ (hhash _ k _ _)
      · exact eq_of_key_prefix ((List.prefix_cons_inj '#').mp h)
  · rintro rfl
    obtain ⟨rest, hline | hline⟩ := k.line_eq config <;> rw [hline]
    · exact .inl ⟨rest, by simp⟩
    · exact .inr ⟨rest, by simp⟩

/-- The line of a setting is uncommented once the setting has a value. -/
theorem uncommented_line_iff (config : GrubConfig) (k : GrubSetting) :
    Uncommented (k.line config) ↔ (k.value config).isSome = true := by
  unfold line
  rcases k.value config with _ | v
  · exact iff_of_false (fun h => h.2 rfl) Bool.false_ne_true
  · obtain ⟨rest, hrest⟩ := k.prefix_key
    have hwritten : ∃ text, k.written v = 'G' :: text := by
      rw [written, ← hrest, lit_ofList]
      exact ⟨_, rfl⟩
    obtain ⟨text, htext⟩ := hwritten
    simp [Uncommented, htext]

theorem not_isProse_of_isLine {k : GrubSetting} {line : Str} (h : k.IsLine line) :
    ¬IsProse line := by
  have hcomment : lit "#GRUB_" = '#' :: lit "GRUB_" := by
    repeat rw [lit_ofList]
  have hkey : lit "GRUB_" <+: k.key ++ ['='] := k.prefix_key.trans (List.prefix_append _ _)
  rintro ⟨hplain, hcommented⟩
  rcases h with h | h
  · exact hplain (hkey.trans h)
  · rw [hcomment] at hcommented
    exact hcommented (((List.prefix_cons_inj '#').mpr hkey).trans h)

theorem not_isProse_line (config : GrubConfig) (k : GrubSetting) : ¬IsProse (k.line config) :=
  not_isProse_of_isLine ((k.isLine_line_iff config k).mpr rfl)

end GrubSetting

/-- **The lines of the result**: those of the settings in their places, and the others as they
are. -/
theorem lines_genGrubConfig {config : GrubConfig} (h : config.Clean) :
    lines (genGrubConfig config) = grubDefaultLines.map fun line =>
      ((settingOf line).map (GrubSetting.line config)).getD line := by
  have hparse : grubDefaultLines.map (parseGrubLine config) = grubDefaultLines.map fun line =>
      ((settingOf line).map (GrubSetting.line config)).getD line := by
    refine List.map_congr_left fun line hline => ?_
    rw [parseGrubLine_eq]
    rcases hsetting : settingOf line with _ | k
    · have hprose := (isProse_iff hline).mpr hsetting
      have hcomment : startsWith line (lit "#GRUB_") = false := by
        rw [Bool.eq_false_iff]
        exact fun hstart => hprose.2 (startsWith_iff.mp hstart)
      simp [uncomment, hcomment]
    · rfl
  rw [genGrubConfig_eq, hparse, lines]
  refine List.splitOn_intercalate '\n' (fun line hline => ?_) (by simp [grubDefaultLines])
  obtain ⟨line', hline', rfl⟩ := List.mem_map.mp hline
  rcases settingOf line' with _ | k
  · exact newline_not_mem hline'
  · exact k.newline_not_mem_line h

/-- The lines that are no prose are those of the settings. -/
theorem filter_lines_setting {p : Str → Bool} {config : GrubConfig} {template : List Str}
    (hprose : ∀ line ∈ template, settingOf line = none → p line = false) :
    (template.map fun line => ((settingOf line).map (GrubSetting.line config)).getD line).filter p =
      ((template.filterMap settingOf).map (GrubSetting.line config)).filter p := by
  induction template with
  | nil => rfl
  | cons line template ih =>
    have htemplate := ih fun line hline => hprose line (List.mem_cons_of_mem _ hline)
    rcases hsetting : settingOf line with _ | k
    · have hline := hprose line List.mem_cons_self hsetting
      simpa [hsetting, hline] using htemplate
    · simp only [List.map_cons, List.filterMap_cons, hsetting, Option.map_some, Option.getD_some,
        List.filter_cons, htemplate]

/-- The prose is that of the template. -/
theorem filter_lines_prose {p : Str → Bool} {config : GrubConfig} {template : List Str}
    (hsetting : ∀ line ∈ template, ∀ k, settingOf line = some k →
      p line = false ∧ p (k.line config) = false) :
    (template.map fun line => ((settingOf line).map (GrubSetting.line config)).getD line).filter p =
      template.filter p := by
  induction template with
  | nil => rfl
  | cons line template ih =>
    have htemplate := ih fun line hline => hsetting line (List.mem_cons_of_mem _ hline)
    rcases hline : settingOf line with _ | k
    · simp only [List.map_cons, hline, Option.map_none, Option.getD_none, List.filter_cons,
        htemplate]
    · obtain ⟨hp, hk⟩ := hsetting line List.mem_cons_self k hline
      simp only [List.map_cons, hline, Option.map_some, Option.getD_some, List.filter_cons, hp, hk,
        htemplate, Bool.false_eq_true, if_false]

/-- The uncommented lines are those of the settings that have a value. -/
theorem uncommented_genGrubConfig {config : GrubConfig} (h : config.Clean) :
    (lines (genGrubConfig config)).filter (Uncommented ·) =
      GrubSetting.all.filterMap fun k => (k.value config).map k.written := by
  rw [lines_genGrubConfig h, filter_lines_setting, filterMap_settingOf, ← List.filterMap_eq_filter,
    List.filterMap_map]
  · refine List.filterMap_congr fun k _ => ?_
    rcases hv : k.value config with _ | v
    · have hline : ¬Uncommented (k.line config) := by simp [k.uncommented_line_iff, hv]
      simp [Option.guard, hline]
    · have hline : Uncommented (k.line config) := by simp [k.uncommented_line_iff, hv]
      have hwritten : k.line config = k.written v := by simp [GrubSetting.line, hv]
      simp [Option.guard, hline, ← hwritten]
  · intro line hline hsetting
    exact decide_eq_false (not_uncommented hline hsetting)

/-- One line sets a setting, or would if it were not commented. -/
theorem filter_isLine_genGrubConfig {config : GrubConfig} (h : config.Clean) (k : GrubSetting) :
    (lines (genGrubConfig config)).filter (k.IsLine ·) = [k.line config] := by
  rw [lines_genGrubConfig h, filter_lines_setting, filterMap_settingOf, List.filter_map]
  · have hfilter : (GrubSetting.all.filter
        ((fun line => decide (k.IsLine line)) ∘ GrubSetting.line config)) = [k] := by
      rw [← k.filter_all]
      exact List.filter_congr fun k' _ => decide_eq_decide.mpr (k.isLine_line_iff config k')
    rw [hfilter, List.map_singleton]
  · intro line hline hsetting
    refine decide_eq_false fun hkey => ?_
    exact GrubSetting.not_isProse_of_isLine hkey ((isProse_iff hline).mpr hsetting)

/-- **The generated configuration is read back**: its uncommented lines are those of the settings that
have a value, one each, and they assign their values in the order of the template; no other line sets
such a setting, and one without a value has its commented default as its only line; and the prose is
that of the template. -/
theorem genGrubConfig_reads (config : GrubConfig) (h : config.Clean) :
    (lines (genGrubConfig config)).filter (Uncommented ·) =
        GrubSetting.all.filterMap (fun k => (k.value config).map k.written) ∧
      (lines (genGrubConfig config)).filterMap grubAssignment =
        GrubSetting.all.filterMap (fun k => (k.value config).map fun v => (k.key, v)) ∧
      (∀ (k : GrubSetting) (v : Str), k.value config = some v →
        (lines (genGrubConfig config)).filter (k.IsLine ·) = [k.written v] ∧
          grubAssignment (k.written v) = some (k.key, v)) ∧
      (∀ k : GrubSetting, k.value config = none →
        (lines (genGrubConfig config)).filter (k.IsLine ·) = [k.commentedDefault]) ∧
      (lines (genGrubConfig config)).filter (IsProse ·) =
        (lines grubDefaultConfig).filter (IsProse ·) := by
  refine ⟨uncommented_genGrubConfig h, ?_, fun k v hv => ⟨?_, ?_⟩, fun k hk => ?_, ?_⟩
  · rw [lines_genGrubConfig h, List.filterMap_map, ← filterMap_settingOf, List.filterMap_filterMap]
    refine List.filterMap_congr fun line hline => ?_
    rcases hsetting : settingOf line with _ | k
    · simp [hsetting, grubAssignment_prose hline ((isProse_iff hline).mpr hsetting)]
    · simp [hsetting, k.assignment_line h]
  · rw [filter_isLine_genGrubConfig h, GrubSetting.line, hv]
    rfl
  · exact GrubSetting.assignment_written (GrubSetting.readable_of_clean h hv)
  · rw [filter_isLine_genGrubConfig h, GrubSetting.line, hk]
    rfl
  -- The line of a setting is not prose, before and after.
  · rw [lines_genGrubConfig h, lines_grubDefaultConfig]
    refine filter_lines_prose fun line hline k hsetting => ⟨?_, ?_⟩
    · have hnot : ¬IsProse line := by
        rw [isProse_iff hline, hsetting]
        simp
      exact decide_eq_false hnot
    · exact decide_eq_false (k.not_isProse_line config)

theorem clean_default : GrubConfig.Clean {} := by
  intro k hk v hv
  cases k <;> simp only [GrubSetting.value, Option.some.injEq, reduceCtorEq] at hv <;>
    simp only [GrubSetting.isText, Bool.false_eq_true] at hk
  all_goals
    subst hv
    decide +kernel

theorem genGrubConfig_reads_default :
    (lines (genGrubConfig {})).filterMap grubAssignment =
      GrubSetting.all.filterMap fun k => (k.value {}).map fun v => (k.key, v) :=
  (genGrubConfig_reads {} clean_default).2.1

end CliInstaller
