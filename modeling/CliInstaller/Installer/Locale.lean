import CliInstaller.Gucc.GrubConfig
import CliInstaller.Gucc.StreamEdits
import CliInstaller.Installer.CommandWords

/-!
# The locale of the target

The locales that are offered are read from the host's `/etc/locale.gen`, where most of them stand behind
a `#`. `set_locale` writes the target's `/etc/locale.conf`, lets `sed` take away the `#` in front of the
chosen locale in the target's `/etc/locale.gen`, and runs `locale-gen`, which generates the locales that
stand there without one. A locale that is offered is generated, if the target has the lines that offer
locales, and these have nothing but one `#` in front of the name.

Source: `gucc/src/locale.cpp`.

## Main definitions

* `getPossibleLocales`: the locales that are offered
* `prepareLocaleSet`, `setLocale`: the function
* `activeLocales`: the locales that `locale-gen` generates
* `Listed`: a line offers a locale right behind its `#`, or without one

## Main results

* `mem_getPossibleLocales_iff`: which locales are offered
* `setLocale_generates`: a locale that is offered is generated, and every variable has it
-/

namespace CliInstaller

open Shell Splitting Commands

/-! ## The locales that are offered -/

/-- The blanks between the fields of a line. -/
def fieldBlank (c : Char) : Bool := c = ' ' || c = '\t'

/-- The first field of a line. -/
def firstField (line : Str) : Str := (line.dropWhile fieldBlank).takeWhile fun c => !fieldBlank c

/-- `sed 's/#//g'` -/
def removeHashes (line : Str) : Str :=
  (Sed.Substitution.mk ⟨false, [Sed.Item.literal '#']⟩ [] true).apply line

/-- The output of `cat /etc/locale.gen | grep -v '#  ' | sed 's/#//g' | awk '/UTF-8/ {print $1}'`. -/
def possibleLocalesOutput (localeGen : Str) : Str :=
  Sed.unlines (((((Sed.textLines localeGen).filter fun line => !decide (lit "#  " <:+: line)).map
    removeHashes).filter fun line => decide (lit "UTF-8" <:+: line)).map firstField) []

/-- `locale::get_possible_locales` -/
def getPossibleLocales (localeGen : Str) : List Str :=
  makeMultiline (execOutput (possibleLocalesOutput localeGen)) false '\n'

/-! ## The function -/

/-- The variables of `LOCALE_CONFIG_PART`. -/
def localeVariables : List Str :=
  [lit "LANG", lit "LC_NUMERIC", lit "LC_TIME", lit "LC_MONETARY", lit "LC_PAPER", lit "LC_NAME",
    lit "LC_ADDRESS", lit "LC_TELEPHONE", lit "LC_MEASUREMENT", lit "LC_IDENTIFICATION",
    lit "LC_MESSAGES"]

def localeConfigText (locale : Str) : Str :=
  Sed.unlines (localeVariables.map fun name => name ++ '=' :: '\x22' :: locale ++ ['\x22']) []

def localeConfigPath (mountpoint : Str) : Str := mountpoint ++ lit "/etc/locale.conf"

def localeGenPath (mountpoint : Str) : Str := mountpoint ++ lit "/etc/locale.gen"

/-- `"s/#{0}/{0}/"` -/
def localeScript (locale : Str) : Str := lit "s/#" ++ locale ++ lit "/" ++ locale ++ lit "/"

/-- The files of the target, and the locales that have been generated. -/
structure LocaleTarget where
  files : FileSystem
  generated : List Str

/-- `locale::prepare_locale_set` -/
def prepareLocaleSet (exec : Exec Str LocaleTarget) (locale mountpoint : Str) (s : LocaleTarget) :
    Bool × LocaleTarget :=
  match createFileForOverwrite s.files (localeConfigPath mountpoint) (localeConfigText locale) with
  | (false, files) => (false, { s with files })
  | (true, files) =>
    (true, (exec (sedDoubleQuoted (localeScript locale) (localeGenPath mountpoint)) { s with files }).2)

/-- **`locale::set_locale`** -/
def setLocale (exec : Exec Str LocaleTarget) (locale mountpoint : Str) : LocaleTarget → Bool × LocaleTarget :=
  andThen (prepareLocaleSet exec locale mountpoint)
    (exec (archChrootChecked (lit "locale-gen") mountpoint))

/-! ## What is generated -/

/-- The locales that stand in a text of `locale.gen` without a `#`. -/
def activeLocales (localeGen : Str) : List Str :=
  ((Sed.textLines localeGen).map firstField).filter fun field =>
    !field.isEmpty && field.head? != some '#'

/-- The files of the target. -/
def LocaleTarget.filesOf : FilesOf LocaleTarget :=
  ⟨LocaleTarget.files, fun files s => { s with files }, fun _ _ => rfl, fun _ => rfl, fun _ _ _ => rfl⟩

/-- **What `locale-gen` does**: where it succeeds, it has generated the active locales. -/
structure LocaleGen (exec : Exec Str LocaleTarget) (mountpoint : Str) : Prop where
  generates : ∀ line s s', parse line = some ([.word (lit "arch-chroot"), .word mountpoint,
      .word (lit "locale-gen")] ++ logTokens) → exec line s = (true, s') →
    s' = { s with generated := activeLocales (readWholeFile s.files (localeGenPath mountpoint)) }

/-- The characters of the name of a locale. -/
def localeChar (c : Char) : Bool := c.isAlphanum || ['_', '.', '@', '-'].contains c

/-- The name of a locale. -/
def LocaleName (locale : Str) : Prop := locale ≠ [] ∧ ∀ c ∈ locale, localeChar c = true

instance (locale : Str) : Decidable (LocaleName locale) :=
  @instDecidableAnd _ _ _ (List.decidableBAll _ locale)

/-- The line offers a locale. -/
def Offers (line : Str) : Prop := ¬ lit "#  " <:+: line ∧ lit "UTF-8" <:+: removeHashes line

/-- **A listed locale**: its name stands right behind the only `#`, or at the start of the line. -/
def Listed (line : Str) : Prop :=
  ∃ rest, '#' ∉ rest ∧ (∀ c ∈ rest.head?, fieldBlank c = false) ∧ (line = rest ∨ line = '#' :: rest)

section Offered

variable {line locale localeGen : Str}

theorem removeHashes_eq (line : Str) : removeHashes line = line.filter (· ≠ '#') :=
  Sed.replaceEach_literal

theorem parseCommand_removeHashes :
    ∃ cmd, Sed.parseCommand (lit "s/#//g") = some cmd ∧
      cmd.run = fun line => some (removeHashes line) := by
  rw [lit_ofList]
  exact ⟨_, rfl, rfl⟩

/-- **The locales that are offered** are the first fields of the lines that offer one. -/
theorem mem_getPossibleLocales_iff :
    locale ∈ getPossibleLocales localeGen ↔
      locale ≠ [] ∧ ∃ line ∈ Sed.textLines localeGen, Offers line ∧
        firstField (removeHashes line) = locale := by
  have hfields : ∀ field ∈ (((((Sed.textLines localeGen).filter fun line =>
      !decide (lit "#  " <:+: line)).map removeHashes).filter fun line =>
        decide (lit "UTF-8" <:+: line)).map firstField), '\n' ∉ field := by
    simp only [List.mem_map, List.mem_filter]
    rintro _ ⟨_, ⟨⟨line, ⟨hline, -⟩, rfl⟩, -⟩, rfl⟩ hnewline
    refine Sed.not_mem_textLines hline ?_
    rw [removeHashes_eq] at hnewline
    exact (List.mem_filter.mp ((List.dropWhile_suffix _).subset
      ((List.takeWhile_prefix _).subset hnewline))).1
  rw [getPossibleLocales, makeMultiline_execOutput, possibleLocalesOutput, Sed.unlines,
    List.append_nil, pieces_flatMap_concat hfields]
  simp only [List.mem_filter, List.mem_map, Offers]
  constructor
  · rintro ⟨⟨_, ⟨⟨line, ⟨hline, hcomment⟩, rfl⟩, hutf⟩, rfl⟩, hne⟩
    exact ⟨by simpa using hne, line, hline, ⟨by simpa using hcomment, by simpa using hutf⟩, rfl⟩
  · rintro ⟨hne, line, hline, ⟨hcomment, hutf⟩, rfl⟩
    exact ⟨⟨_, ⟨⟨line, ⟨hline, by simpa using hcomment⟩, rfl⟩, by simpa using hutf⟩, rfl⟩,
      by simpa using hne⟩

end Offered

/-! ## The edit of `locale.gen` -/

section Edit

variable {locale : Str}

theorem LocaleName.not_mem (h : LocaleName locale) {c : Char} (hc : localeChar c = false) :
    c ∉ locale := fun hmem => absurd (h.2 c hmem) (by simp [hc])

theorem LocaleName.replaceable (h : LocaleName locale) : Sed.Replaceable locale := by
  intro c hc
  have hchar := h.2 c hc
  refine ⟨?_, ?_, ?_, ?_⟩ <;>
  · rintro rfl
    exact absurd hchar (by decide)

theorem LocaleName.doubleQuotable (h : LocaleName locale) : DoubleQuotable locale := by
  intro c hc
  have hchar := h.2 c hc
  refine ⟨?_, ?_, ?_, ?_⟩ <;>
  · rintro rfl
    exact absurd hchar (by decide)

/-- The locale without the `#` that stands right before it. -/
def uncommentLocale (locale line : Str) : Str :=
  Sed.replaceFirst (Sed.Item.literal '#' :: Sed.dotted locale) locale line

theorem parseCommand_localeScript (h : LocaleName locale) :
    ∃ cmd, Sed.parseCommand (localeScript locale) = some cmd ∧
      cmd.run = fun line => some (uncommentLocale locale line) := by
  have hscript : localeScript locale =
      's' :: '/' :: (('#' :: locale) ++ '/' :: (locale ++ '/' :: [])) := by
    simp [localeScript, lit_eq]
  have hregex : '\x5c' ∉ '#' :: locale ∧ '/' ∉ '#' :: locale := by
    simp [h.not_mem (c := '\x5c') (by decide), h.not_mem (c := '/') (by decide)]
  have hitems : Sed.parseItems ('#' :: locale) = some (Sed.Item.literal '#' :: Sed.dotted locale) := by
    refine Sed.parseItems_dotted (List.forall_mem_cons.mpr ⟨.inr rfl, fun c hc => ?_⟩)
    rw [or_iff_not_imp_left, Bool.eq_false_iff]
    intro hdot hspecial
    have hchar := h.2 c hc
    simp only [Sed.patternSpecial, List.contains_eq_mem, List.mem_cons, List.not_mem_nil, or_false,
      decide_eq_true_eq] at hspecial
    rcases hspecial with rfl | rfl | rfl | rfl | rfl | rfl | rfl
    · exact absurd hchar (by decide)
    · exact hdot rfl
    all_goals exact absurd hchar (by decide)
  have hpattern : Sed.parsePattern ('#' :: locale) =
      some ⟨false, Sed.Item.literal '#' :: Sed.dotted locale⟩ := by
    rw [Sed.parsePattern, hitems, Option.map_some]
    · simp
    · simp
  rw [hscript, Sed.parseCommand_substitute hregex hpattern h.replaceable (.inl rfl)]
  exact ⟨_, rfl, rfl⟩

/-- The script stands between double quotes as it is. -/
theorem doubleQuotable_localeScript (h : LocaleName locale) :
    DoubleQuotable (localeScript locale) ∧ '\x00' ∉ localeScript locale := by
  have hlocale := h.doubleQuotable
  have hnul := h.not_mem (c := '\x00') (by decide)
  constructor
  · refine ((DoubleQuotable.append (.append (.append ?_ hlocale) ?_) hlocale).append ?_) <;>
    · rw [lit_ofList]
      decide
  · simp [localeScript, lit_eq, hnul]

theorem tame_uncommentLocale (h : LocaleName locale) :
    Sed.Tame fun line => some (uncommentLocale locale line) :=
  Sed.tame_replaceFirst h.1 (h.not_mem (by decide))

/-- **A line that lists the locale** is left with the locale and without the `#`. -/
theorem uncommentLocale_listed {line : Str} (hlisted : Listed line)
    (hfield : firstField (removeHashes line) = locale) :
    firstField (uncommentLocale locale line) = locale ∧ '#' ∉ locale := by
  obtain ⟨rest, hhash, hblank, hline⟩ := hlisted
  have hremoved : removeHashes line = rest := by
    have hkept : rest.filter (· ≠ '#') = rest := by
      rw [List.filter_eq_self]
      exact fun c hc => decide_eq_true fun h => hhash (h ▸ hc)
    rcases hline with rfl | rfl
    · rw [removeHashes_eq, hkept]
    · rw [removeHashes_eq, List.filter_cons_of_neg (by simp), hkept]
  have hstart : rest.dropWhile fieldBlank = rest := by
    rcases rest with _ | ⟨c, rest⟩
    · rfl
    · rw [List.dropWhile_cons_of_neg (by simp [hblank c rfl])]
  rw [hremoved] at hfield
  have hmem : '#' ∉ locale := by
    rw [← hfield, firstField, hstart]
    exact fun h => hhash ((List.takeWhile_prefix _).subset h)
  have hedited : uncommentLocale locale line = rest := by
    rcases hline with rfl | rfl
    · exact Sed.replaceFirst_of_not_mem hhash
    · have hsplit : rest = locale ++ rest.dropWhile fun c => !fieldBlank c := by
        conv_lhs => rw [← List.takeWhile_append_dropWhile (p := fun c => !fieldBlank c) (l := rest)]
        rw [← hfield, firstField, hstart]
      have hmatch : Sed.matchLength (Sed.dotted ('#' :: locale)) ('#' :: rest) =
          some ('#' :: locale).length := by
        conv_lhs => rw [hsplit]
        exact Sed.matchLength_of_matches (Sed.matches_dotted ('#' :: locale))
          (fun _ => Sed.starred_dotted) _
      have hdotted : Sed.dotted ('#' :: locale) = Sed.Item.literal '#' :: Sed.dotted locale := rfl
      rw [uncommentLocale, ← hdotted, Sed.replaceFirst_of_matchLength hmatch, List.length_cons,
        List.drop_succ_cons]
      conv_rhs => rw [hsplit]
      conv_lhs => rw [hsplit, List.drop_left]
  exact ⟨by rw [hedited, hfield], hmem⟩

end Edit

/-! ## A locale that is offered is generated -/

/-- The lines of the configuration, each with the locale. -/
theorem textLines_localeConfigText {locale : Str} (h : LocaleName locale) :
    (Sed.textLines (localeConfigText locale)).map grubAssignment =
      localeVariables.map fun name => some (name, locale) := by
  have hvariable : ∀ name ∈ localeVariables, isName name = true ∧ '=' ∉ name ∧ '\n' ∉ name := by
    unfold localeVariables
    repeat rw [lit_ofList]
    decide
  have hquoted : readValue ('\x22' :: locale ++ ['\x22']) = some locale := by
    have hlast : (locale ++ ['\x22']).getLast? = some '\x22' := List.getLast?_concat
    have hinner : DoubleQuotable (locale ++ ['\x22']).dropLast := by
      rw [List.dropLast_concat]
      exact h.doubleQuotable
    rw [List.cons_append, readValue, if_pos ⟨hlast, hinner⟩, List.dropLast_concat]
  have hlines : ∀ line ∈ localeVariables.map fun name => name ++ '=' :: '\x22' :: locale ++ ['\x22'],
      '\n' ∉ line := by
    intro line hline
    obtain ⟨name, hmem, rfl⟩ := List.mem_map.mp hline
    simp [(hvariable name hmem).2.2, h.not_mem (c := '\n') (by decide)]
  rw [localeConfigText, Sed.textLines_unlines hlines, List.map_map]
  refine List.map_congr_left fun name hmem => ?_
  obtain ⟨hname, hequals, -⟩ := hvariable name hmem
  have hline : name ++ '=' :: '\x22' :: locale ++ ['\x22'] =
      name ++ '=' :: ('\x22' :: locale ++ ['\x22']) := by
    simp
  rw [Function.comp_apply, hline, grubAssignment_eq hequals, if_pos hname, hquoted, Option.map_some]

theorem parse_localeGen {mountpoint : Str} (hmountpoint : LiteralWord mountpoint) :
    parse (archChrootChecked (lit "locale-gen") mountpoint) =
      some ([.word (lit "arch-chroot"), .word mountpoint, .word (lit "locale-gen")] ++ logTokens) := by
  have hwords : words blank (lit "locale-gen") = [lit "locale-gen"] :=
    LiteralWord.words (by rw [lit_ofList]; decide)
  rw [parse_archChrootChecked hmountpoint (by rw [lit_ofList]; decide), hwords]
  rfl

/-- A shell in which `locale-gen` generates the active locales, and nothing else is found. -/
def runLocaleGen (mountpoint line : Str) (s : LocaleTarget) : Bool × LocaleTarget :=
  if parse line = some ([.word (lit "arch-chroot"), .word mountpoint, .word (lit "locale-gen")] ++
      logTokens) then
    (true, { s with generated := activeLocales (readWholeFile s.files (localeGenPath mountpoint)) })
  else (false, s)

/-- The same shell with the editor. -/
def runLocaleTools (mountpoint : Str) : Exec Str LocaleTarget :=
  runSed LocaleTarget.filesOf (runLocaleGen mountpoint)

theorem runLocaleTools_localeGen {mountpoint line : Str} (s : LocaleTarget)
    (h : parse line = some ([.word (lit "arch-chroot"), .word mountpoint, .word (lit "locale-gen")] ++
      logTokens)) :
    runLocaleTools mountpoint line s =
      (true, { s with
        generated := activeLocales (readWholeFile s.files (localeGenPath mountpoint)) }) := by
  have hnot : sedCommand ([.word (lit "arch-chroot"), .word mountpoint, .word (lit "locale-gen")] ++
      logTokens) = none := rfl
  rw [runLocaleTools, runSed, h, Option.bind_some, hnot]
  exact if_pos h

/-- **The shell does what `locale-gen` is said to do.** -/
theorem localeGen (mountpoint : Str) : LocaleGen (runLocaleTools mountpoint) mountpoint where
  generates _ s _ hline hrun := by
    rw [runLocaleTools_localeGen s hline] at hrun
    exact (Prod.mk.inj hrun).2.symm

section Set

variable {exec : Exec Str LocaleTarget} {locale mountpoint hostText text : Str} {s s' : LocaleTarget}

/-- **A locale that the host offers is generated** when `set_locale` succeeds, if the lines that offer
locales are lines of the target's file, too, and list them right behind their only `#`; and every
variable of the configuration has the locale. -/
theorem setLocale_generates (htool : SedTool exec LocaleTarget.filesOf)
    (hgen : LocaleGen exec mountpoint) (hmountpoint : LiteralWord mountpoint)
    (hedit : s.files.Editable (localeGenPath mountpoint))
    (htext : s.files.content (localeGenPath mountpoint) = some text)
    (hlisted : ∀ line ∈ Sed.textLines hostText, Offers line → line ∈ Sed.textLines text ∧ Listed line)
    (hlocale : locale ∈ getPossibleLocales hostText) (hname : LocaleName locale)
    (h : setLocale exec locale mountpoint s = (true, s')) :
    locale ∈ s'.generated ∧ ∃ config, s'.files.content (localeConfigPath mountpoint) = some config ∧
      (Sed.textLines config).map grubAssignment =
        localeVariables.map fun name => some (name, locale) := by
  obtain ⟨s₁, hprepare, hrun⟩ := andThen_eq_true_iff.mp h
  obtain ⟨cmd, hcmd, hcmdRun⟩ := parseCommand_localeScript hname
  obtain ⟨hquotable, hnul⟩ := doubleQuotable_localeScript hname
  have hpath : PlainWord (localeGenPath mountpoint) :=
    LiteralWord.plainWord ⟨List.append_ne_nil_of_left_ne_nil hmountpoint.1 _,
      hmountpoint.2.append (by rw [lit_ofList]; decide)⟩
  have hpaths : localeGenPath mountpoint ≠ localeConfigPath mountpoint := by
    simp [localeGenPath, localeConfigPath, lit_eq]
  have hwritable : s.files.writable (localeConfigPath mountpoint) = true := by
    by_contra hwritable
    rw [prepareLocaleSet, createFileForOverwrite, if_neg hwritable] at hprepare
    cases hprepare
  obtain ⟨files, hfiles⟩ : ∃ files, files = s.files.set (localeConfigPath mountpoint)
      (some (localeConfigText locale)) := ⟨_, rfl⟩
  have hs₁ : s₁ = ⟨files.editIfThere (fun line => some (uncommentLocale locale line))
      (localeGenPath mountpoint), s.generated⟩ := by
    rw [prepareLocaleSet, createFileForOverwrite_of_writable hwritable, ← hfiles] at hprepare
    have hsed := @SedTool.snd_edit _ _ _ _ ⟨files, s.generated⟩ _ _
      (htool.doubleQuoted hquotable hnul hpath hcmd)
    rw [hcmdRun] at hsed
    exact (Prod.mk.inj hprepare).2.symm.trans hsed
  have hedit' : files.Editable (localeGenPath mountpoint) := hfiles ▸ hedit
  have hgenText : s₁.files.content (localeGenPath mountpoint) =
      some (Sed.editText (fun line => some (uncommentLocale locale line)) text) := by
    rw [hs₁, FileSystem.content_editIfThere hedit', hfiles,
      FileSystem.content_set_of_ne _ _ hpaths, htext, Option.map_some]
  have hreadable : s₁.files.readable (localeGenPath mountpoint) = true := by
    rw [hs₁]
    exact (FileSystem.editable_editIfThere.mpr hedit').1
  have hs' := hgen.generates _ _ _ (parse_localeGen hmountpoint) hrun
  rw [readWholeFile_of_readable hgenText hreadable] at hs'
  refine ⟨?_, localeConfigText locale, ?_, textLines_localeConfigText hname⟩
  · obtain ⟨-, line, hline, hoffers, hfield⟩ := mem_getPossibleLocales_iff.mp hlocale
    obtain ⟨htarget, hlist⟩ := hlisted line hline hoffers
    obtain ⟨hactive, hhash⟩ := uncommentLocale_listed hlist hfield
    rw [hs', activeLocales, Sed.textLines_editText (tame_uncommentLocale hname),
      List.filterMap_eq_map', List.mem_filter, List.map_map, List.mem_map]
    refine ⟨⟨line, htarget, hactive⟩, ?_⟩
    obtain ⟨c, rest, rfl⟩ := List.exists_cons_of_ne_nil hname.1
    have hc : c ≠ '#' := fun h => hhash (h ▸ List.mem_cons_self)
    simp [hc]
  · rw [hs', hs₁]
    exact (FileSystem.content_editIfThere_of_ne hpaths.symm).trans
      (hfiles ▸ FileSystem.content_set_self _ _ _)

/-- A line of a `locale.gen`. -/
def americanLine : Str := lit "#en_US.UTF-8 UTF-8  "

/-- A target on which no locale is active; it has a line more than the host. -/
def silentTarget : LocaleTarget :=
  ⟨.single (localeGenPath (lit "/mnt")) (Sed.unlines [lit "#C.UTF-8 UTF-8  ", americanLine] []), []⟩

theorem setLocale_generates_american :
    ∃ s', setLocale (runLocaleTools (lit "/mnt")) (lit "en_US.UTF-8") (lit "/mnt") silentTarget =
        (true, s') ∧ lit "en_US.UTF-8" ∈ s'.generated ∧
      ∃ config, s'.files.content (localeConfigPath (lit "/mnt")) = some config ∧
        (Sed.textLines config).map grubAssignment =
          localeVariables.map fun name => some (name, lit "en_US.UTF-8") := by
  have hroot : LiteralWord (lit "/mnt") := by
    rw [lit_ofList]
    decide
  have hlines : Sed.textLines (Sed.unlines [americanLine] []) = [americanLine] := by
    rw [americanLine, lit_ofList]
    decide
  have htarget : americanLine ∈
      Sed.textLines (Sed.unlines [lit "#C.UTF-8 UTF-8  ", americanLine] []) := by
    rw [Sed.textLines_unlines (by simp [americanLine, lit_eq])]
    exact List.mem_cons_of_mem _ List.mem_cons_self
  have hlist : Listed americanLine :=
    ⟨lit "en_US.UTF-8 UTF-8  ", by simp [lit_eq], by simp [lit_eq, fieldBlank],
      .inr (by simp [americanLine, lit_eq])⟩
  have hoffers : Offers americanLine ∧ firstField (removeHashes americanLine) = lit "en_US.UTF-8" := by
    rw [Offers, removeHashes_eq, americanLine]
    repeat rw [lit_ofList]
    decide
  have hlisted : ∀ line ∈ Sed.textLines (Sed.unlines [americanLine] []), Offers line →
      line ∈ Sed.textLines (Sed.unlines [lit "#C.UTF-8 UTF-8  ", americanLine] []) ∧ Listed line := by
    rw [hlines]
    exact List.forall_mem_singleton.mpr fun _ => ⟨htarget, hlist⟩
  have hoffered : lit "en_US.UTF-8" ∈ getPossibleLocales (Sed.unlines [americanLine] []) := by
    rw [mem_getPossibleLocales_iff, hlines]
    exact ⟨by simp [lit_eq], americanLine, List.mem_singleton_self _, hoffers⟩
  have hgen := runLocaleTools_localeGen
    (prepareLocaleSet (runLocaleTools (lit "/mnt")) (lit "en_US.UTF-8") (lit "/mnt") silentTarget).2
    (parse_localeGen hroot)
  have hrun : setLocale (runLocaleTools (lit "/mnt")) (lit "en_US.UTF-8") (lit "/mnt") silentTarget =
      (true, _) := andThen_eq_true_iff.mpr ⟨_, rfl, hgen⟩
  refine ⟨_, hrun, setLocale_generates (sedTool _ _) (localeGen _) hroot ⟨rfl, rfl⟩
    (FileSystem.content_single _ _) hlisted hoffered ?_ hrun⟩
  rw [lit_ofList]
  decide

end Set

end CliInstaller
