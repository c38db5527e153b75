import CliInstaller.Gucc.StreamEdits
import CliInstaller.Installer.Accounts

/-!
# Automatic login

`enable_autologin` edits the configuration of the display manager with scripts for `sed`. A script
such as `s/^AutomaticLogin=*/AutomaticLogin=user/g` does not replace a value: it replaces the name of
the key and the equals signs after it, on every line that begins with this text, and the old value
stays behind the new one.

Source: `gucc/src/autologin.cpp`, `gucc/src/user.cpp`.

## Main definitions

* `replaceKey`: what such a script makes of a line
* `User.enableAutologin`: the function
* `gdmLine`, `gdmLineOnce`: the five edits for gdm in turn, and in one step

## Main results

* `gdmLine_eq`: the five edits are one
* `enableAutologin_gdm`: gdm is never told to log in automatically
* `enableAutologin_runs`: sddm and lxdm after a sequence of calls
* `enableAutologin_fst`: with lightdm the function always fails
-/

namespace CliInstaller

open Shell Splitting Commands

/-! ## The function -/

/-- `"s/^{key}=*/{replacement}/g"` -/
def keyScript (key replacement : Str) : Str :=
  lit "s/^" ++ key ++ lit "=*/" ++ replacement ++ lit "/g"

/-- The scripts for gdm. -/
def gdmScripts (username : Str) : List Str :=
  [keyScript (lit "AutomaticLogin") (lit "AutomaticLogin=" ++ username),
    keyScript (lit "AutomaticLoginEnable") (lit "AutomaticLoginEnable=true"),
    keyScript (lit "TimedLoginEnable") (lit "TimedLoginEnable=true"),
    keyScript (lit "TimedLogin") (lit "TimedLoginEnable=" ++ username),
    keyScript (lit "TimedLoginDelay") (lit "TimedLoginDelay=0")]

/-- The scripts for lightdm. -/
def lightdmScripts (username : Str) : List Str :=
  [lit "s/^#autologin-user=/autologin-user=" ++ username ++ lit "/",
    lit "s/^#autologin-user-timeout=0/autologin-user-timeout=0/"]

/-- The script for sddm. -/
def sddmScript (username : Str) : Str := lit "s/^User=/User=" ++ username ++ lit "/g"

/-- The script for lxdm. -/
def lxdmScript (username : Str) : Str :=
  lit "s/^# autologin=dgod/autologin=" ++ username ++ lit "/g"

def gdmConf (rootMountpoint : Str) : Str := rootMountpoint ++ lit "/etc/gdm/custom.conf"

def lightdmConf (rootMountpoint : Str) : Str := rootMountpoint ++ lit "/etc/lightdm/lightdm.conf"

def sddmConf (rootMountpoint : Str) : Str := rootMountpoint ++ lit "/etc/sddm.conf"

def lxdmConf (rootMountpoint : Str) : Str := rootMountpoint ++ lit "/etc/lxdm/lxdm.conf"

/-- **`user::enable_autologin`** -/
def User.enableAutologin (exec : Exec Str Target) (displaymanager username rootMountpoint : Str)
    (t : Target) : Bool × Target :=
  if displaymanager = lit "gdm" then
    (true, runEach exec ((gdmScripts username).map (sedQuoted · (gdmConf rootMountpoint))) t)
  else if displaymanager = lit "lightdm" then
    andThen (exec (User.createGroup (lit "autologin") rootMountpoint true))
      (exec (archChrootChecked (lit "gpasswd -a " ++ username ++ lit " autologin") rootMountpoint))
      (runEach exec ((lightdmScripts username).map (sedQuoted · (lightdmConf rootMountpoint))) t)
  else if displaymanager = lit "sddm" then
    (true, runEach exec [sedQuoted (sddmScript username) (sddmConf rootMountpoint)] t)
  else if displaymanager = lit "lxdm" then
    (true, runEach exec [sedQuoted (lxdmScript username) (lxdmConf rootMountpoint)] t)
  else (true, t)

/-! ## A target with the editor and the tools for accounts -/

/-- The files of the target. -/
def Target.filesOf : FilesOf Target :=
  ⟨Target.files, fun files t => { t with files }, fun _ _ => rfl, fun _ => rfl, fun _ _ _ => rfl⟩

/-- A shell with the editor and the tools for accounts. -/
def runTargetTools (validName : Str → Bool) (mountpoint : Str) : Exec Str Target :=
  runSed Target.filesOf (runAccountTools validName mountpoint)

theorem accountTools_runTargetTools {validName : Str → Bool} (mountpoint : Str)
    (hnames : ∀ name, validName name = true → ',' ∉ name ∧ ':' ∉ name) :
    AccountTools (runTargetTools validName mountpoint) validName mountpoint := by
  refine (accountTools mountpoint hnames).of_eq fun line args hline => ?_
  have hnot : sedCommand (chrootTokens mountpoint args) = none := by
    unfold sedCommand chrootTokens
    split
    · next h =>
      have hprogram := Token.word.inj (List.cons.inj h).1
      exact if_neg fun hsed => absurd (hprogram.trans hsed.1) (by simp [lit_eq])
    · next h =>
      have hprogram := Token.word.inj (List.cons.inj h).1
      exact if_neg fun hsed => absurd (hprogram.trans hsed.1) (by simp [lit_eq])
    · rfl
  rw [runTargetTools, runSed, hline, Option.bind_some, hnot]

/-- A name with a dash in front is an option. -/
def acceptedName (name : Str) : Bool := ',' ∉ name ∧ ':' ∉ name ∧ name.head? ≠ some '-'

theorem acceptedName_separators (name : Str) (h : acceptedName name = true) : ',' ∉ name ∧ ':' ∉ name := by
  simp only [acceptedName, decide_eq_true_eq] at h
  exact ⟨h.1, h.2.1⟩

/-- A target that has the file with this text. -/
def configuredTarget (path text : Str) : Target :=
  ⟨⟨[lit "root"], [⟨lit "root", [], none, []⟩], []⟩, .single path text⟩

/-! ## What the scripts make of a line -/

/-- The key and the equals signs after it are replaced, where the line begins with the key. -/
def replaceKey (key replacement line : Str) : Str :=
  if key <+: line then replacement ++ (line.drop key.length).dropWhile (· == '=') else line

/-- The text is replaced, where the line begins with it. -/
def replaceStart (text replacement line : Str) : Str :=
  if text <+: line then replacement ++ line.drop text.length else line

/-- A text that stands for itself where a quoted script looks for it. -/
def PlainKey (key : Str) : Prop :=
  ∀ c ∈ key, Sed.patternSpecial c = false ∧ c ≠ '/' ∧ c ≠ '\x27' ∧ c ≠ '\x00'

instance (key : Str) : Decidable (PlainKey key) := List.decidableBAll _ key

/-- A text that stands for itself where a quoted script puts it. -/
def Scriptable (text : Str) : Prop :=
  text ≠ [] ∧ Sed.Replaceable text ∧ Quotable text

instance (text : Str) : Decidable (Scriptable text) := by
  unfold Scriptable
  infer_instance

section Scripts

variable {key text replacement : Str}

theorem Scriptable.append {text' : Str} (h : Scriptable text) (h' : Scriptable text') :
    Scriptable (text ++ text') := by
  obtain ⟨hne, hreplace, hquote, hnul⟩ := h
  obtain ⟨-, hreplace', hquote', hnul'⟩ := h'
  exact ⟨List.append_ne_nil_of_left_ne_nil hne _, hreplace.append hreplace',
    by simp [hquote, hquote'], by simp [hnul, hnul']⟩

/-- A user name. -/
theorem scriptable_of_literalWord (h : LiteralWord text) (hslash : '/' ∉ text) : Scriptable text := by
  refine ⟨h.1, fun c hc => ⟨?_, ?_, ?_, ?_⟩, h.2.quotable⟩
  · rintro rfl
    exact hslash hc
  all_goals
    rintro rfl
    exact absurd (h.2 _ hc).1 (by decide)

/-- Where a script begins a line with a text, it leaves lines that are not empty. -/
theorem tame_prefix (htext : Scriptable replacement) {f : Str → Str}
    (hf : ∀ line, f line = line ∨ ∃ rest, rest <:+ line ∧ f line = replacement ++ rest) :
    Sed.Tame fun line => some (f line) where
  newline line line' h hline := by
    obtain rfl := Option.some.inj h
    rcases hf line with heq | ⟨rest, hrest, heq⟩
    · rwa [heq]
    · rw [heq, List.mem_append, not_or]
      exact ⟨fun h => (htext.2.1 _ h).2.2.2 rfl, fun h => hline (hrest.subset h)⟩
  nonempty line hline h := by
    have h := Option.some.inj h
    rcases hf line with heq | ⟨rest, -, heq⟩
    · exact hline (heq ▸ h)
    · exact htext.1 (List.append_eq_nil_iff.mp (heq ▸ h)).1

theorem tame_replaceKey (hreplacement : Scriptable replacement) :
    Sed.Tame fun line => some (replaceKey key replacement line) :=
  tame_prefix hreplacement fun line => by
    unfold replaceKey
    split_ifs
    · exact .inr ⟨_, (List.dropWhile_suffix _).trans (List.drop_suffix _ _), rfl⟩
    · exact .inl rfl

theorem tame_replaceStart (hreplacement : Scriptable replacement) :
    Sed.Tame fun line => some (replaceStart text replacement line) :=
  tame_prefix hreplacement fun line => by
    unfold replaceStart
    split_ifs
    · exact .inr ⟨_, List.drop_suffix _ _, rfl⟩
    · exact .inl rfl

/-- **A script that replaces a key** and the equals signs after it. -/
theorem editScript_keyScript (hkey : PlainKey key) (hreplacement : Scriptable replacement) :
    EditScript (keyScript key replacement) (replaceKey key replacement) where
  quotable := by
    have hquote : '\x27' ∉ key := fun h => (hkey _ h).2.2.1 rfl
    have hnul : '\x00' ∉ key := fun h => (hkey _ h).2.2.2 rfl
    obtain ⟨-, -, hquote', hnul'⟩ := hreplacement
    constructor <;> simp [keyScript, lit_eq, *]
  edits := by
    have hscript : keyScript key replacement =
        's' :: '/' :: (('^' :: (key ++ ['=', '*'])) ++ '/' :: (replacement ++ '/' :: ['g'])) := by
      simp [keyScript, lit_eq]
    have hregex : '\x5c' ∉ '^' :: (key ++ ['=', '*']) ∧ '/' ∉ '^' :: (key ++ ['=', '*']) := by
      have hbackslash : '\x5c' ∉ key := fun h => absurd (hkey _ h).1 (by decide)
      have hslash : '/' ∉ key := fun h => (hkey _ h).2.1 rfl
      simp [hbackslash, hslash]
    have hpattern : Sed.parsePattern ('^' :: (key ++ ['=', '*'])) =
        some ⟨true, Sed.literals key ++ [Sed.Item.many '=']⟩ := by
      rw [Sed.parsePattern, Sed.parseItems_literals_append (fun c hc => (hkey c hc).1) (by simp)]
      rfl
    rw [hscript, Sed.parseCommand_substitute hregex hpattern hreplacement.2.1 (.inr rfl)]
    refine ⟨_, rfl, funext fun line => ?_⟩
    rw [Sed.Command.run, Sed.apply_atStart_many, replaceKey]
  tame := tame_replaceKey hreplacement

/-- **A script that replaces a text** at the start of a line. -/
theorem editScript_startScript (htext : PlainKey text) (hreplacement : Scriptable replacement)
    {script flags : Str} (hflags : flags = [] ∨ flags = ['g'])
    (hscript : script = lit "s/^" ++ text ++ lit "/" ++ replacement ++ lit "/" ++ flags) :
    EditScript script (replaceStart text replacement) where
  quotable := by
    have hquote : '\x27' ∉ text := fun h => (htext _ h).2.2.1 rfl
    have hnul : '\x00' ∉ text := fun h => (htext _ h).2.2.2 rfl
    obtain ⟨-, -, hquote', hnul'⟩ := hreplacement
    rcases hflags with rfl | rfl <;> constructor <;> simp [lit_eq, *]
  edits := by
    have hscript' : script =
        's' :: '/' :: (('^' :: text) ++ '/' :: (replacement ++ '/' :: flags)) := by
      simp [hscript, lit_eq]
    have hregex : '\x5c' ∉ '^' :: text ∧ '/' ∉ '^' :: text := by
      have hbackslash : '\x5c' ∉ text := fun h => absurd (htext _ h).1 (by decide)
      have hslash : '/' ∉ text := fun h => (htext _ h).2.1 rfl
      simp [hbackslash, hslash]
    have hpattern : Sed.parsePattern ('^' :: text) = some ⟨true, Sed.literals text⟩ := by
      have hitems := @Sed.parseItems_literals_append text [] (fun c hc => (htext c hc).1) (by simp)
      rw [List.append_nil] at hitems
      rw [Sed.parsePattern, hitems]
      simp [Sed.parseItems]
    rw [hscript', Sed.parseCommand_substitute hregex hpattern hreplacement.2.1 hflags]
    refine ⟨_, rfl, funext fun line => ?_⟩
    rw [Sed.Command.run, Sed.apply_atStart, replaceStart]
  tame := tame_replaceStart hreplacement

end Scripts

/-! ## gdm -/

/-- The five edits for gdm in turn. -/
def gdmLine (username line : Str) : Str :=
  replaceKey (lit "TimedLoginDelay") (lit "TimedLoginDelay=0")
    (replaceKey (lit "TimedLogin") (lit "TimedLoginEnable=" ++ username)
      (replaceKey (lit "TimedLoginEnable") (lit "TimedLoginEnable=true")
        (replaceKey (lit "AutomaticLoginEnable") (lit "AutomaticLoginEnable=true")
          (replaceKey (lit "AutomaticLogin") (lit "AutomaticLogin=" ++ username) line))))

/-- The edits in one step. -/
def gdmLineOnce (username line : Str) : Str :=
  if lit "AutomaticLogin" <+: line then
    lit "AutomaticLogin=" ++ username ++ (line.drop 14).dropWhile (· == '=')
  else if lit "TimedLoginEnable" <+: line then
    lit "TimedLoginEnable=" ++ username ++ lit "Enable=true" ++ (line.drop 16).dropWhile (· == '=')
  else if lit "TimedLogin" <+: line then
    lit "TimedLoginEnable=" ++ username ++ (line.drop 10).dropWhile (· == '=')
  else line

theorem replaceKey_of_starts {key replacement line : Str} (h : key <+: line) :
    replaceKey key replacement line =
      replacement ++ (line.drop key.length).dropWhile (· == '=') := if_pos h

theorem replaceKey_of_not_starts (key : Str) {replacement line : Str} (h : ¬ key <+: line) :
    replaceKey key replacement line = line := if_neg h

/-- **The five edits are one.** -/
theorem gdmLine_eq (username line : Str) : gdmLine username line = gdmLineOnce username line := by
  have hlength : (lit "AutomaticLogin").length = 14 ∧ (lit "TimedLoginEnable").length = 16 ∧
      (lit "TimedLogin").length = 10 := by
    simp [lit_eq]
  unfold gdmLine gdmLineOnce
  split_ifs with hauto henable htimed
  · rw [replaceKey_of_starts hauto, hlength.1,
      replaceKey_of_not_starts (lit "AutomaticLoginEnable") (by simp [lit_eq]),
      replaceKey_of_not_starts (lit "TimedLoginEnable") (by simp [lit_eq]),
      replaceKey_of_not_starts (lit "TimedLogin") (by simp [lit_eq]),
      replaceKey_of_not_starts (lit "TimedLoginDelay") (by simp [lit_eq])]
  all_goals
    have hautoEnable : ¬ lit "AutomaticLoginEnable" <+: line := fun h => hauto (.trans (by simp [lit_eq]) h)
    rw [replaceKey_of_not_starts (lit "AutomaticLogin") hauto,
      replaceKey_of_not_starts (lit "AutomaticLoginEnable") hautoEnable]
  -- The third script has put `TimedLoginEnable=true` there, and the fourth takes it for its key.
  · have hkey : lit "TimedLogin" <+: lit "TimedLoginEnable=true" ++
        (line.drop 16).dropWhile (· == '=') := by
      simp [lit_eq]
    rw [replaceKey_of_starts henable, hlength.2.1, replaceKey_of_starts hkey,
      replaceKey_of_not_starts (lit "TimedLoginDelay") (by simp [lit_eq])]
    simp [lit_eq]
  · rw [replaceKey_of_not_starts (lit "TimedLoginEnable") henable, replaceKey_of_starts htimed,
      hlength.2.2, replaceKey_of_not_starts (lit "TimedLoginDelay") (by simp [lit_eq])]
  · rw [replaceKey_of_not_starts (lit "TimedLoginEnable") henable,
      replaceKey_of_not_starts (lit "TimedLogin") htimed,
      replaceKey_of_not_starts (lit "TimedLoginDelay")]
    exact fun h => htimed (.trans (by simp [lit_eq]) h)

theorem tame_gdmLine {username : Str} (hname : Scriptable username) :
    Sed.Tame fun line => some (gdmLine username line) := by
  have htame {key replacement : Str} (h : Scriptable replacement) :
      Sed.Tame fun line => some (replaceKey key replacement line) := tame_replaceKey h
  refine (htame (.append ?_ hname)).bind ((htame ?_).bind ((htame ?_).bind
    ((htame (.append ?_ hname)).bind (htame ?_)))) <;>
  · rw [lit_ofList]
    decide

/-- No line is left that assigns `AutomaticLoginEnable` or `TimedLoginDelay`. -/
theorem not_prefix_gdmLine (username line : Str) :
    ¬ lit "AutomaticLoginEnable" <+: gdmLine username line ∧
      ¬ lit "TimedLoginDelay" <+: gdmLine username line := by
  rw [gdmLine_eq]
  unfold gdmLineOnce
  split_ifs with hauto henable htimed
  · simp [lit_eq]
  · simp [lit_eq]
  · simp [lit_eq]
  · exact ⟨fun h => hauto (.trans (by simp [lit_eq]) h), fun h => htimed (.trans (by simp [lit_eq]) h)⟩

/-- The line that names the user comes from one where nothing stands after the equals signs. -/
theorem gdmLine_eq_automaticLogin_iff (username line : Str) :
    gdmLine username line = lit "AutomaticLogin=" ++ username ↔
      ∃ n, line = lit "AutomaticLogin" ++ List.replicate n '=' := by
  rw [gdmLine_eq]
  unfold gdmLineOnce
  split_ifs with hauto henable htimed
  · obtain ⟨rest, rfl⟩ := hauto
    have hdrop : (lit "AutomaticLogin" ++ rest).drop 14 = rest := by simp [lit_eq]
    rw [hdrop, List.append_right_eq_self, List.dropWhile_eq_nil_iff]
    simp only [List.append_cancel_left_eq, beq_iff_eq]
    constructor
    · exact fun h => ⟨rest.length, List.eq_replicate_iff.mpr ⟨rfl, h⟩⟩
    · rintro ⟨n, rfl⟩ c hc
      exact List.eq_of_mem_replicate hc
  all_goals
    have hnot : ¬ ∃ n, line = lit "AutomaticLogin" ++ List.replicate n '=' := by
      rintro ⟨n, rfl⟩
      exact hauto (List.prefix_append _ _)
    simp only [hnot, iff_false]
  · simp [lit_eq]
  · simp [lit_eq]
  · rintro rfl
    exact hauto (.trans (by simp [lit_eq]) (List.prefix_append (lit "AutomaticLogin=") username))

/-! ## The files after a call -/

/-- The target after an edit of a file, if the file is there. -/
def Target.edited (f : Str → Str) (path : Str) (t : Target) : Target :=
  { t with files := t.files.editIfThere (fun line => some (f line)) path }

section Calls

variable {exec : Exec Str Target} {username rootMountpoint : Str} {t : Target}

/-- A file of the target has a plain path. -/
theorem plainWord_conf (hroot : LiteralWord rootMountpoint) {path : Str} (hpath : Literal path) :
    PlainWord (rootMountpoint ++ path) :=
  LiteralWord.plainWord ⟨List.append_ne_nil_of_left_ne_nil hroot.1 _, hroot.2.append hpath⟩

theorem enableAutologin_gdm_eq (htool : SedTool exec Target.filesOf)
    (hroot : LiteralWord rootMountpoint) (hname : LiteralWord username) (hslash : '/' ∉ username) :
    User.enableAutologin exec (lit "gdm") username rootMountpoint t =
      (true, t.edited (gdmLine username) (gdmConf rootMountpoint)) := by
  have huser := scriptable_of_literalWord hname hslash
  have hscripts : List.Forall₂ EditScript (gdmScripts username)
      [replaceKey (lit "AutomaticLogin") (lit "AutomaticLogin=" ++ username),
        replaceKey (lit "AutomaticLoginEnable") (lit "AutomaticLoginEnable=true"),
        replaceKey (lit "TimedLoginEnable") (lit "TimedLoginEnable=true"),
        replaceKey (lit "TimedLogin") (lit "TimedLoginEnable=" ++ username),
        replaceKey (lit "TimedLoginDelay") (lit "TimedLoginDelay=0")] := by
    refine .cons (editScript_keyScript ?_ (.append ?_ huser)) (.cons (editScript_keyScript ?_ ?_)
      (.cons (editScript_keyScript ?_ ?_) (.cons (editScript_keyScript ?_ (.append ?_ huser))
        (.cons (editScript_keyScript ?_ ?_) .nil)))) <;>
    · rw [lit_ofList]
      decide
  rw [User.enableAutologin, if_pos rfl]
  exact congrArg (Prod.mk true) (htool.runEach_quoted
    (plainWord_conf hroot (by rw [lit_ofList]; decide)) hscripts)

theorem enableAutologin_sddm_eq (htool : SedTool exec Target.filesOf)
    (hroot : LiteralWord rootMountpoint) (hname : LiteralWord username) (hslash : '/' ∉ username) :
    User.enableAutologin exec (lit "sddm") username rootMountpoint t =
      (true, t.edited (replaceStart (lit "User=") (lit "User=" ++ username))
        (sddmConf rootMountpoint)) := by
  have hscript : EditScript (sddmScript username)
      (replaceStart (lit "User=") (lit "User=" ++ username)) := by
    refine editScript_startScript ?_ (.append ?_ (scriptable_of_literalWord hname hslash)) (.inr rfl) ?_
    · rw [lit_ofList]; decide
    · rw [lit_ofList]; decide
    · simp [sddmScript, lit_eq]
  have hgdm : lit "sddm" ≠ lit "gdm" ∧ lit "sddm" ≠ lit "lightdm" := by simp [lit_eq]
  rw [User.enableAutologin, if_neg hgdm.1, if_neg hgdm.2, if_pos rfl]
  exact congrArg (Prod.mk true) (htool.runEach_quoted
    (plainWord_conf hroot (by rw [lit_ofList]; decide)) (.cons hscript .nil))

theorem enableAutologin_lxdm_eq (htool : SedTool exec Target.filesOf)
    (hroot : LiteralWord rootMountpoint) (hname : LiteralWord username) (hslash : '/' ∉ username) :
    User.enableAutologin exec (lit "lxdm") username rootMountpoint t =
      (true, t.edited (replaceStart (lit "# autologin=dgod") (lit "autologin=" ++ username))
        (lxdmConf rootMountpoint)) := by
  have hscript : EditScript (lxdmScript username)
      (replaceStart (lit "# autologin=dgod") (lit "autologin=" ++ username)) := by
    refine editScript_startScript ?_ (.append ?_ (scriptable_of_literalWord hname hslash)) (.inr rfl) ?_
    · rw [lit_ofList]; decide
    · rw [lit_ofList]; decide
    · simp [lxdmScript, lit_eq]
  have hgdm : lit "lxdm" ≠ lit "gdm" ∧ lit "lxdm" ≠ lit "lightdm" ∧ lit "lxdm" ≠ lit "sddm" := by
    simp [lit_eq]
  rw [User.enableAutologin, if_neg hgdm.1, if_neg hgdm.2.1, if_neg hgdm.2.2, if_pos rfl]
  exact congrArg (Prod.mk true) (htool.runEach_quoted
    (plainWord_conf hroot (by rw [lit_ofList]; decide)) (.cons hscript .nil))

/-- **gdm is never told to log in automatically**: the call succeeds, and afterwards no line assigns
`AutomaticLoginEnable` or `TimedLoginDelay`; a line names the user iff a line had the key
`AutomaticLogin` and nothing but equals signs after it. -/
theorem enableAutologin_gdm (htool : SedTool exec Target.filesOf)
    (hroot : LiteralWord rootMountpoint) (hname : LiteralWord username) (hslash : '/' ∉ username)
    (hedit : t.files.Editable (gdmConf rootMountpoint)) {before : Str}
    (hbefore : t.files.content (gdmConf rootMountpoint) = some before) :
    ∃ after, User.enableAutologin exec (lit "gdm") username rootMountpoint t =
        (true, { t with files := t.files.set (gdmConf rootMountpoint) (some after) }) ∧
      (∀ line ∈ Sed.textLines after,
        ¬ lit "AutomaticLoginEnable" <+: line ∧ ¬ lit "TimedLoginDelay" <+: line) ∧
      (lit "AutomaticLogin=" ++ username ∈ Sed.textLines after ↔
        ∃ n, lit "AutomaticLogin" ++ List.replicate n '=' ∈ Sed.textLines before) := by
  refine ⟨Sed.editText (fun line => some (gdmLine username line)) before, ?_, ?_, ?_⟩
  · rw [enableAutologin_gdm_eq htool hroot hname hslash, Target.edited,
      FileSystem.editIfThere_of_content hedit hbefore]
  all_goals rw [Sed.textLines_editText (tame_gdmLine (scriptable_of_literalWord hname hslash)), List.filterMap_eq_map']
  · intro line hline
    obtain ⟨line', -, rfl⟩ := List.mem_map.mp hline
    exact not_prefix_gdmLine username line'
  · simp only [List.mem_map, gdmLine_eq_automaticLogin_iff]
    constructor
    · rintro ⟨line, hline, n, rfl⟩
      exact ⟨n, hline⟩
    · rintro ⟨n, hline⟩
      exact ⟨_, hline, n, rfl⟩

/-- The configuration that gdm is installed with. -/
def packagedCustomConf : Str := lit "[daemon]\n#WaylandEnable=false\nAutomaticLogin=\n"

theorem enableAutologin_gdm_packaged :
    ∃ after, User.enableAutologin (runTargetTools acceptedName (lit "/mnt")) (lit "gdm") (lit "user")
        (lit "/mnt") (configuredTarget (gdmConf (lit "/mnt")) packagedCustomConf) =
        (true, { configuredTarget (gdmConf (lit "/mnt")) packagedCustomConf with
          files := (configuredTarget (gdmConf (lit "/mnt")) packagedCustomConf).files.set
            (gdmConf (lit "/mnt")) (some after) }) ∧
      (∀ line ∈ Sed.textLines after,
        ¬ lit "AutomaticLoginEnable" <+: line ∧ ¬ lit "TimedLoginDelay" <+: line) ∧
      (lit "AutomaticLogin=" ++ lit "user" ∈ Sed.textLines after ↔
        ∃ n, lit "AutomaticLogin" ++ List.replicate n '=' ∈ Sed.textLines packagedCustomConf) := by
  refine enableAutologin_gdm (sedTool _ _) ?_ ?_ ?_ ⟨rfl, rfl⟩ (FileSystem.content_single _ _)
  all_goals
    rw [lit_ofList]
    decide

/-! ## A sequence of calls -/

/-- Calls with one user after the other. -/
def enableEach (exec : Exec Str Target) (displaymanager rootMountpoint : Str) (usernames : List Str)
    (t : Target) : Target :=
  usernames.foldl (fun t username =>
    (User.enableAutologin exec displaymanager username rootMountpoint t).2) t

theorem edited_edited {f g : Str → Str} {path : Str} (hf : Sed.Tame fun line => some (f line)) :
    (t.edited f path).edited g path = t.edited (fun line => g (f line)) path := by
  rw [Target.edited, Target.edited, FileSystem.editIfThere_editIfThere hf]
  rfl

/-- A text that stays in front is replaced again. -/
theorem replaceStart_replaceStart {text user user' line : Str} :
    replaceStart text (text ++ user') (replaceStart text (text ++ user) line) =
      replaceStart text (text ++ (user' ++ user)) line := by
  unfold replaceStart
  split_ifs with hfirst hsecond
  · simp [List.append_assoc]
  · exact absurd (List.append_assoc _ _ _ ▸ List.prefix_append _ _) hsecond
  · rfl

theorem enableEach_sddm (htool : SedTool exec Target.filesOf) (hroot : LiteralWord rootMountpoint)
    {usernames : List Str} (hnames : ∀ username ∈ usernames, LiteralWord username ∧ '/' ∉ username) :
    enableEach exec (lit "sddm") rootMountpoint usernames t =
      t.edited (replaceStart (lit "User=") (lit "User=" ++ usernames.reverse.flatten))
        (sddmConf rootMountpoint) := by
  induction usernames generalizing t with
  | nil =>
    have hid : replaceStart (lit "User=") (lit "User=" ++ [].reverse.flatten) = id := by
      funext line
      unfold replaceStart
      split_ifs with h
      · obtain ⟨rest, rfl⟩ := h
        simp
      · rfl
    rw [hid, Target.edited]
    exact congrArg (fun files => { t with files }) FileSystem.editIfThere_some.symm
  | cons username usernames ih =>
    obtain ⟨⟨hname, hslash⟩, hnames⟩ := List.forall_mem_cons.mp hnames
    have hfirst := @enableAutologin_sddm_eq exec username rootMountpoint t htool hroot hname hslash
    have huser : Scriptable (lit "User=" ++ username) :=
      .append (by rw [lit_ofList]; decide) (scriptable_of_literalWord hname hslash)
    rw [enableEach, List.foldl_cons, hfirst, ← enableEach, ih hnames,
      edited_edited (tame_replaceStart huser)]
    simp only [replaceStart_replaceStart, List.reverse_cons, List.flatten_append,
      List.flatten_singleton]

theorem enableEach_lxdm (htool : SedTool exec Target.filesOf) (hroot : LiteralWord rootMountpoint)
    {username : Str} (hname : LiteralWord username ∧ '/' ∉ username) {usernames : List Str}
    (hnames : ∀ username ∈ usernames, LiteralWord username ∧ '/' ∉ username) :
    enableEach exec (lit "lxdm") rootMountpoint (username :: usernames) t =
      t.edited (replaceStart (lit "# autologin=dgod") (lit "autologin=" ++ username))
        (lxdmConf rootMountpoint) := by
  have hfirst {user : Str} (hname : LiteralWord user ∧ '/' ∉ user) (t : Target) :=
    @enableAutologin_lxdm_eq exec user rootMountpoint t htool hroot hname.1 hname.2
  have htame : Sed.Tame fun line =>
      some (replaceStart (lit "# autologin=dgod") (lit "autologin=" ++ username) line) :=
    tame_replaceStart (.append (by rw [lit_ofList]; decide)
      (scriptable_of_literalWord hname.1 hname.2))
  -- The line that the first call has made is not found again.
  have hagain (user line : Str) :
      replaceStart (lit "# autologin=dgod") (lit "autologin=" ++ user)
        (replaceStart (lit "# autologin=dgod") (lit "autologin=" ++ username) line) =
      replaceStart (lit "# autologin=dgod") (lit "autologin=" ++ username) line := by
    refine if_neg ?_
    unfold replaceStart
    split_ifs with h
    · simp [lit_eq]
    · exact h
  rw [enableEach, List.foldl_cons, hfirst hname t]
  clear hname
  induction usernames with
  | nil => rfl
  | cons user usernames ih =>
    obtain ⟨huser, hnames⟩ := List.forall_mem_cons.mp hnames
    rw [List.foldl_cons, hfirst huser, edited_edited htame]
    simp only [hagain]
    exact ih hnames

/-- **After calls with a sequence of users**, sddm's line has the last user in front of all the
others and of what was there, and lxdm's line has the first user. -/
theorem enableAutologin_runs (htool : SedTool exec Target.filesOf)
    (hroot : LiteralWord rootMountpoint) {usernames : List Str}
    (hnames : ∀ username ∈ usernames, LiteralWord username ∧ '/' ∉ username) :
    enableEach exec (lit "sddm") rootMountpoint usernames t =
        t.edited (replaceStart (lit "User=") (lit "User=" ++ usernames.reverse.flatten))
          (sddmConf rootMountpoint) ∧
      enableEach exec (lit "lxdm") rootMountpoint usernames t =
        match usernames with
        | [] => t
        | username :: _ =>
          t.edited (replaceStart (lit "# autologin=dgod") (lit "autologin=" ++ username))
            (lxdmConf rootMountpoint) := by
  refine ⟨enableEach_sddm htool hroot hnames, ?_⟩
  rcases usernames with _ | ⟨username, usernames⟩
  · rfl
  · obtain ⟨hname, hnames⟩ := List.forall_mem_cons.mp hnames
    exact enableEach_lxdm htool hroot hname hnames

theorem enableAutologin_runs_twice :
    enableEach (runTargetTools acceptedName (lit "/mnt")) (lit "sddm") (lit "/mnt") [lit "a", lit "b"]
          (configuredTarget (sddmConf (lit "/mnt")) (lit "User=\n")) =
        (configuredTarget (sddmConf (lit "/mnt")) (lit "User=\n")).edited
          (replaceStart (lit "User=") (lit "User=" ++ [lit "a", lit "b"].reverse.flatten))
          (sddmConf (lit "/mnt")) ∧
      enableEach (runTargetTools acceptedName (lit "/mnt")) (lit "lxdm") (lit "/mnt") [lit "a", lit "b"]
          (configuredTarget (sddmConf (lit "/mnt")) (lit "User=\n")) =
        (configuredTarget (sddmConf (lit "/mnt")) (lit "User=\n")).edited
          (replaceStart (lit "# autologin=dgod") (lit "autologin=" ++ lit "a"))
          (lxdmConf (lit "/mnt")) := by
  refine enableAutologin_runs (sedTool _ _) (by rw [lit_ofList]; decide) ?_
  repeat rw [lit_ofList]
  decide

/-! ## lightdm -/

theorem enableAutologin_lightdm_eq (htool : SedTool exec Target.filesOf) {validName : Str → Bool}
    (htools : AccountTools exec validName rootMountpoint)
    (hoption : validName (lit "--systemautologin") = false) (hroot : LiteralWord rootMountpoint)
    (hname : LiteralWord username) (hslash : '/' ∉ username) :
    User.enableAutologin exec (lit "lightdm") username rootMountpoint t =
      (false, t.edited (fun line =>
        replaceStart (lit "#autologin-user-timeout=0") (lit "autologin-user-timeout=0")
          (replaceStart (lit "#autologin-user=") (lit "autologin-user=" ++ username) line))
        (lightdmConf rootMountpoint)) := by
  have hscripts : List.Forall₂ EditScript (lightdmScripts username)
      [replaceStart (lit "#autologin-user=") (lit "autologin-user=" ++ username),
        replaceStart (lit "#autologin-user-timeout=0") (lit "autologin-user-timeout=0")] := by
    refine .cons (editScript_startScript ?_ (.append ?_ (scriptable_of_literalWord hname hslash))
      (.inl rfl) ?_) (.cons (editScript_startScript ?_ ?_ (.inl rfl) ?_) .nil)
    · rw [lit_ofList]; decide
    · rw [lit_ofList]; decide
    · simp [lit_eq]
    · rw [lit_ofList]; decide
    · rw [lit_ofList]; decide
    · simp [lit_eq]
  have hpath : PlainWord (lightdmConf rootMountpoint) :=
    plainWord_conf hroot (by rw [lit_ofList]; decide)
  have hfiles := @SedTool.runEach_quoted _ _ _ _ t htool hpath _ _ hscripts
  have hgroup : User.createGroup (lit "autologin") rootMountpoint true =
      createGroup (lit "--systemautologin") rootMountpoint := by
    simp [User.createGroup, createGroup, lit_eq]
  have hrefused := htools.groupadd _ _ (parse_createGroup hroot
    (show LiteralWord (lit "--systemautologin") by rw [lit_ofList]; decide))
  have hgdm : lit "lightdm" ≠ lit "gdm" := by simp [lit_eq]
  rw [User.enableAutologin, if_neg hgdm, if_pos rfl, hfiles, hgroup, andThen, hrefused, attempt,
    Target.onAccounts, if_neg (by simp [hoption])]
  rfl

/-- **With lightdm the function always fails**, since the flag of the system group and its name are one
word, which is no name of a group; `lightdm.conf` names the user then. With any other display manager
it succeeds. The accounts stay as they are. -/
theorem enableAutologin_fst (htool : SedTool exec Target.filesOf) {validName : Str → Bool}
    (htools : AccountTools exec validName rootMountpoint)
    (hoption : validName (lit "--systemautologin") = false) (hroot : LiteralWord rootMountpoint)
    (hname : LiteralWord username) (hslash : '/' ∉ username) (displaymanager : Str) :
    (User.enableAutologin exec displaymanager username rootMountpoint t).1 =
        decide (displaymanager ≠ lit "lightdm") ∧
      (User.enableAutologin exec displaymanager username rootMountpoint t).2.accounts =
        t.accounts ∧
      (displaymanager = lit "lightdm" →
        (User.enableAutologin exec displaymanager username rootMountpoint t).2 =
          t.edited (fun line =>
            replaceStart (lit "#autologin-user-timeout=0") (lit "autologin-user-timeout=0")
              (replaceStart (lit "#autologin-user=") (lit "autologin-user=" ++ username) line))
            (lightdmConf rootMountpoint)) := by
  by_cases hlightdm : displaymanager = lit "lightdm"
  · rw [hlightdm, enableAutologin_lightdm_eq htool htools hoption hroot hname hslash]
    exact ⟨by simp, rfl, fun _ => rfl⟩
  rw [decide_eq_true hlightdm]
  simp only [hlightdm, false_implies, and_true]
  by_cases h : displaymanager = lit "gdm"
  · rw [h, enableAutologin_gdm_eq htool hroot hname hslash]
    exact ⟨rfl, rfl⟩
  by_cases h' : displaymanager = lit "sddm"
  · rw [h', enableAutologin_sddm_eq htool hroot hname hslash]
    exact ⟨rfl, rfl⟩
  by_cases h'' : displaymanager = lit "lxdm"
  · rw [h'', enableAutologin_lxdm_eq htool hroot hname hslash]
    exact ⟨rfl, rfl⟩
  · rw [User.enableAutologin, if_neg h, if_neg hlightdm, if_neg h', if_neg h'']
    exact ⟨rfl, rfl⟩

/-- The configuration that lightdm is installed with. -/
def packagedLightdmConf : Str := lit "[Seat:*]\n#autologin-user=\n#autologin-user-timeout=0\n"

theorem enableAutologin_fst_lightdm :
    let t := configuredTarget (lightdmConf (lit "/mnt")) packagedLightdmConf
    (User.enableAutologin (runTargetTools acceptedName (lit "/mnt")) (lit "lightdm") (lit "user")
        (lit "/mnt") t).1 = decide (lit "lightdm" ≠ lit "lightdm") ∧
      (User.enableAutologin (runTargetTools acceptedName (lit "/mnt")) (lit "lightdm") (lit "user")
        (lit "/mnt") t).2.accounts = t.accounts ∧
      (lit "lightdm" = lit "lightdm" →
        (User.enableAutologin (runTargetTools acceptedName (lit "/mnt")) (lit "lightdm") (lit "user")
          (lit "/mnt") t).2 = t.edited (fun line =>
            replaceStart (lit "#autologin-user-timeout=0") (lit "autologin-user-timeout=0")
              (replaceStart (lit "#autologin-user=") (lit "autologin-user=" ++ lit "user") line))
            (lightdmConf (lit "/mnt"))) := by
  refine enableAutologin_fst (sedTool _ _)
    (accountTools_runTargetTools (lit "/mnt") acceptedName_separators) ?_ ?_ ?_ ?_ (lit "lightdm")
  all_goals
    rw [lit_ofList]
    decide

end Calls

end CliInstaller
