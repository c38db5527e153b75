import CliInstaller.Installer.Locale

/-!
# The generated fstab

`run_genfstab_on_mount` lets `genfstab` write the fstab of the target, and edits it: the mountpoint is
taken away once from each line if there is a swap file, a pair of options for a btrfs subvolume is
taken away, and the sources that a query finds among the datasets which zfs mounts itself are commented
out. The pattern of the second edit reaches to the last comma of the line, so the options behind the
pair go with it, but the last.

Source: `gucc/src/fstab.cpp`.

## Main definitions

* `runGenfstabOnMount`: the function
* `SubvolLine`: an entry with the options of a btrfs subvolume; `edited` is what is left of it
* `covers`, `commentSources`: the lines that are commented out

## Main results

* `runGenfstab_datasets`: no source that the query finds is left
* `runGenfstab_options`: what becomes of the options of a btrfs subvolume
-/

namespace CliInstaller

open Shell Splitting Commands

/-! ## The function -/

/-- `fstab_filepath` -/
def fstabPath (rootMountpoint : Str) : Str := rootMountpoint ++ lit "/etc/fstab"

def fstabCmd (rootMountpoint : Str) : Str :=
  lit "genfstab -U -p " ++ rootMountpoint ++ lit " > " ++ fstabPath rootMountpoint

/-- The command that takes the mountpoint away; it escapes the slash in front. -/
def stripMountCmd (rootMountpoint : Str) : Str :=
  lit "sed -i \x22s/\x5c\x5c" ++ rootMountpoint ++ lit "//\x22 " ++ fstabPath rootMountpoint

/-- `"s/subvolid=.*,subvol=\/.*,//g"` -/
def subvolScript : Str := lit "s/subvolid=.*,subvol=\x5c/.*,//g"

/-- The test whether a source is a dataset that zfs mounts. -/
def datasetQueryCmd (msource : Str) : Str :=
  lit "zfs list -H -o mountpoint,name | grep '^/' | awk '\x7bprint $2\x7d' | grep -q '^" ++ msource ++
    lit "$'"

/-- The script that comments the lines of a source out. -/
def commentScript (msource : Str) : Str := lit "\x5c|^" ++ msource ++ lit "[[:space:]]| s/^#*/#/"

/-- `sed -e '{script}' -i {path}` -/
def commentCmd (msource path : Str) : Str :=
  lit "sed -e '" ++ commentScript msource ++ lit "' -i " ++ path

/-- The line begins with a letter or a comma: `grep '^[a-z,A-Z]'`. -/
def beginsWithLetter (line : Str) : Bool := line.head?.any fun c => c.isAlpha || c = ','

/-- `msource_list`: the first fields of these lines. -/
def msourceList (fstab : Str) : List Str :=
  makeMultiline (execOutput (Sed.unlines (((Sed.textLines fstab).filter beginsWithLetter).map
    firstField) [])) false '\n'

/-- The loop over the sources. -/
def commentDatasets (exec : Exec Str FileSystem) (path : Str) : List Str → FileSystem → FileSystem
  | [], fs => fs
  | msource :: msources, fs =>
    match exec (datasetQueryCmd msource) fs with
    | (true, fs) => commentDatasets exec path msources (exec (commentCmd msource path) fs).2
    | (false, fs) => commentDatasets exec path msources fs

/-- The edits. -/
def editFstab (exec : Exec Str FileSystem) (rootMountpoint : Str) (fs : FileSystem) : FileSystem :=
  let fs := if fs.fileExists (rootMountpoint ++ lit "/swapfile") then
    (exec (stripMountCmd rootMountpoint) fs).2 else fs
  let fs := (exec (sedQuoted subvolScript (fstabPath rootMountpoint)) fs).2
  commentDatasets exec (fstabPath rootMountpoint)
    (msourceList (readWholeFile fs (fstabPath rootMountpoint))) fs

/-- **`run_genfstab_on_mount`** -/
def runGenfstabOnMount (exec : Exec Str FileSystem) (rootMountpoint : Str) (fs : FileSystem) :
    Bool × FileSystem :=
  match exec (fstabCmd rootMountpoint) fs with
  | (false, fs) => (false, fs)
  | (true, fs) => (true, editFstab exec rootMountpoint fs)

/-! ## The options of a subvolume -/

/-- `subvolid=` -/
def subvolidKey : Str := lit "subvolid="

/-- `,subvol=/` -/
def subvolMark : Str := lit ",subvol=/"

/-- The items of `subvolid=.*,subvol=\/.*,`. -/
def subvolItems : List Sed.Item :=
  Sed.literals subvolidKey ++ ⟨fun _ => true, true⟩ ::
    (Sed.literals subvolMark ++ [⟨fun _ => true, true⟩, .literal ','])

/-- The pair of options, and what reaches to the last comma, is taken away. -/
def stripSubvol (line : Str) : Str := Sed.replaceEach subvolItems [] 0 false line

/-- No key begins in the text, whatever follows it. -/
def Keyless (head : Str) : Prop := ¬ subvolidKey <:+: head ∧ ∀ c ∈ head.getLast?, c ∉ subvolidKey

instance (head : Str) : Decidable (Keyless head) :=
  @instDecidableAnd _ _ _ (Option.decidableForallMem _)

section Subvolumes

variable {line head rest i q : Str}

theorem matches_subvolItems_iff :
    Sed.Matches subvolItems line ↔ ∃ i q, line = subvolidKey ++ i ++ subvolMark ++ q ++ [','] := by
  have hany (items : List Sed.Item) (text : Str) :
      Sed.Matches (⟨fun _ => true, true⟩ :: items) text ↔
        ∃ run rest, text = run ++ rest ∧ Sed.Matches items rest := by
    simp [Sed.matches_starred_iff]
  have hcomma (text : Str) : Sed.Matches [Sed.Item.literal ','] text ↔ text = [','] :=
    @Sed.matches_literals_iff [','] text
  simp only [subvolItems, Sed.matches_literals_append_iff, hany, hcomma]
  constructor
  · rintro ⟨_, rfl, i, _, rfl, _, rfl, q, _, rfl, rfl⟩
    exact ⟨i, q, by simp⟩
  · rintro ⟨i, q, rfl⟩
    exact ⟨_, by simp only [List.append_assoc], i, _, rfl, _, rfl, q, _, rfl, rfl⟩

/-- The match reaches to the last comma. -/
theorem matchLength_subvolItems (hrest : ',' ∉ rest) :
    Sed.matchLength subvolItems (subvolidKey ++ i ++ subvolMark ++ q ++ [','] ++ rest) =
      some (subvolidKey ++ i ++ subvolMark ++ q ++ [',']).length := by
  refine Sed.matchLength_eq_some_iff.mpr ⟨Sed.mem_lengths_iff.mpr
    ⟨_, rest, rfl, rfl, matches_subvolItems_iff.mpr ⟨i, q, rfl⟩⟩, fun m hm => ?_⟩
  obtain ⟨mid, rest', hline, rfl, hmatch⟩ := Sed.mem_lengths_iff.mp hm
  obtain ⟨i', q', rfl⟩ := matches_subvolItems_iff.mp hmatch
  rcases List.append_eq_append_iff.mp hline with ⟨more, hmid, hmore⟩ | ⟨more, hmid, -⟩
  · -- a longer match would have its last comma in the rest
    have hlast : ',' ∈ (subvolidKey ++ i ++ subvolMark ++ q ++ [','] ++ more).getLast? := by
      rw [← hmid, List.getLast?_concat]
      rfl
    rcases more with _ | ⟨c, more⟩
    · rw [hmid, List.append_nil]
    · rw [List.getLast?_append_of_ne_nil _ (List.cons_ne_nil c more)] at hlast
      refine absurd ?_ hrest
      rw [hmore]
      exact List.mem_append_left _ (List.mem_of_getLast? hlast)
  · exact List.IsPrefix.length_le ⟨more, hmid.symm⟩

theorem Keyless.not_begins (h : Keyless head) {text : Str} (htext : text <:+ head) (hne : text ≠ []) :
    ¬ subvolidKey <+: text ++ rest := by
  intro hkey
  rcases List.prefix_or_prefix_of_prefix hkey (List.prefix_append text rest) with hkey | hkey
  · exact h.1 (hkey.isInfix.trans htext.isInfix)
  · obtain ⟨before, rfl⟩ := htext
    have hlast : text.getLast hne ∈ (before ++ text).getLast? := by
      rw [List.getLast?_append_of_ne_nil _ hne, List.getLast?_eq_getLast_of_ne_nil hne]
      rfl
    exact h.2 _ hlast (hkey.subset (List.getLast_mem hne))

theorem matchLength_of_not_begins (h : ¬ subvolidKey <+: line) :
    Sed.matchLength subvolItems line = none := by
  rw [subvolItems, Sed.matchLength_literals_append, if_neg h]

/-- A text where no key begins stays in front. -/
theorem stripSubvol_append (h : Keyless head) : stripSubvol (head ++ rest) = head ++ stripSubvol rest :=
  Sed.replaceEach_append fun _ htext hne => matchLength_of_not_begins (h.not_begins htext hne)

/-- A line without the key stays as it is. -/
theorem stripSubvol_keyless (h : ¬ subvolidKey <:+: line) : stripSubvol line = line :=
  Sed.replaceEach_of_none fun _ htext =>
    matchLength_of_not_begins fun hkey => h (hkey.isInfix.trans htext.isInfix)

/-- **What stands behind the last comma** is left. -/
theorem stripSubvol_pair (hrest : ',' ∉ rest) :
    stripSubvol (subvolidKey ++ i ++ subvolMark ++ q ++ [','] ++ rest) = rest := by
  have hmatch := @matchLength_subvolItems rest i q hrest
  rw [List.length_append, List.length_singleton] at hmatch
  have hlength : (subvolidKey ++ i ++ subvolMark ++ q).length <
      (subvolidKey ++ i ++ subvolMark ++ q ++ [','] ++ rest).length := by
    simp only [List.length_append, List.length_singleton]
    omega
  have hdrop : (subvolidKey ++ i ++ subvolMark ++ q ++ [','] ++ rest).drop
      ((subvolidKey ++ i ++ subvolMark ++ q).length + 1) = rest :=
    List.drop_left' (by rw [List.length_append, List.length_singleton])
  rw [stripSubvol, Sed.replaceEach_of_matchLength hmatch hlength, hdrop, List.nil_append]
  refine Sed.replaceEach_of_none fun text htext => Sed.matchLength_eq_none_iff.mpr ?_
  rintro _ rest' rfl hmid
  obtain ⟨i', q', rfl⟩ := matches_subvolItems_iff.mp hmid
  exact hrest (htext.subset (by simp))

/-- **A pair that no option follows** stays as it is. -/
theorem stripSubvol_last (hi : ',' ∉ i) (hq : ',' ∉ q) :
    stripSubvol (subvolidKey ++ i ++ subvolMark ++ q) = subvolidKey ++ i ++ subvolMark ++ q := by
  refine Sed.replaceEach_of_none fun text htext => Sed.matchLength_eq_none_iff.mpr ?_
  rintro _ rest rfl hmatch
  obtain ⟨i', q', rfl⟩ := matches_subvolItems_iff.mp hmatch
  have hcount := htext.sublist.count_le ','
  have hkey : subvolidKey.count ',' = 0 ∧ subvolMark.count ',' = 1 := by
    simp [subvolidKey, subvolMark, lit_eq]
  simp only [List.count_append, List.count_eq_zero_of_not_mem hi, List.count_eq_zero_of_not_mem hq,
    hkey, List.count_singleton_self] at hcount
  omega

end Subvolumes

/-- The entry of a btrfs subvolume: the text before the options, the options before the pair, its id
and its path, the options behind it, and the text after the options. -/
structure SubvolLine where
  head : Str
  before : List Str
  id : Str
  path : Str
  after : List Str
  tail : Str

namespace SubvolLine

/-- The pair of options. -/
def pair (e : SubvolLine) : List Str := [subvolidKey ++ e.id, lit "subvol=/" ++ e.path]

/-- The line with these options. -/
def withOptions (e : SubvolLine) (options : List Str) : Str :=
  e.head ++ [','].intercalate options ++ e.tail

/-- The line. -/
def line (e : SubvolLine) : Str := e.withOptions (e.before ++ e.pair ++ e.after)

/-- What the edit makes of it: the last option takes the place of the pair and of what follows it. -/
def edited (e : SubvolLine) : Str :=
  match e.after.getLast? with
  | some option => e.withOptions (e.before ++ [option])
  | none => e.line

/-- The options have no comma, the text after them neither, and no key begins before the pair. -/
structure WellFormed (e : SubvolLine) : Prop where
  commas : ∀ option ∈ e.tail :: (e.before ++ e.pair ++ e.after), ',' ∉ option
  keyless : Keyless (e.head ++ e.before.flatMap (· ++ [',']))

variable {e : SubvolLine}

theorem withOptions_append (options : List Str) {option : Str} {rest : List Str} :
    e.withOptions (options ++ option :: rest) =
      e.head ++ options.flatMap (· ++ [',']) ++
        (option ++ rest.flatMap (',' :: ·) ++ e.tail) := by
  rw [withOptions, intercalate_append_cons, intercalate_cons_eq]
  simp only [List.append_assoc]

theorem withOptions_concat (options : List Str) {option : Str} :
    e.withOptions (options ++ [option]) =
      e.head ++ options.flatMap (· ++ [',']) ++ (option ++ e.tail) := by
  rw [withOptions_append, List.flatMap_nil, List.append_nil]

/-- The entry from the key of the pair on. -/
theorem line_eq : e.line = e.head ++ e.before.flatMap (· ++ [',']) ++
    (subvolidKey ++ e.id ++ subvolMark ++ e.path ++ e.after.flatMap (',' :: ·) ++ e.tail) := by
  rw [line, pair, List.append_assoc, List.cons_append, withOptions_append]
  simp [subvolMark, lit_eq]

/-- **The edit of an entry.** -/
theorem stripSubvol_line (h : e.WellFormed) : stripSubvol e.line = e.edited := by
  have hcommas (option : Str) (hoption : option ∈ e.tail :: (e.before ++ e.pair ++ e.after)) :
      ',' ∉ option := h.commas option hoption
  have htail : ',' ∉ e.tail := h.commas _ List.mem_cons_self
  rw [line_eq, stripSubvol_append h.keyless]
  rcases List.eq_nil_or_concat e.after with hafter | ⟨options, last, hafter⟩
  · have hid : ',' ∉ e.id := fun hmem => hcommas (subvolidKey ++ e.id) (by simp [pair])
      (List.mem_append_right _ hmem)
    have hpath : ',' ∉ e.path ++ e.tail := by
      rw [List.mem_append, not_or]
      exact ⟨fun hmem => hcommas (lit "subvol=/" ++ e.path) (by simp [pair])
        (List.mem_append_right _ hmem), htail⟩
    have hlast := stripSubvol_last hid hpath
    rw [edited, hafter, List.getLast?_nil, line_eq, hafter, List.flatMap_nil, List.append_nil,
      List.append_assoc _ e.path, hlast]
  · have hlast : ',' ∉ last ++ e.tail := by
      rw [List.mem_append, not_or]
      exact ⟨hcommas last (by simp [hafter]), htail⟩
    have hpair := @stripSubvol_pair _ e.id (e.path ++ options.flatMap (',' :: ·)) hlast
    have hsplit : subvolidKey ++ e.id ++ subvolMark ++ e.path ++ e.after.flatMap (',' :: ·) ++ e.tail =
        subvolidKey ++ e.id ++ subvolMark ++ (e.path ++ options.flatMap (',' :: ·)) ++ [','] ++
          (last ++ e.tail) := by
      simp [hafter]
    rw [hsplit, hpair, edited, hafter, List.concat_eq_append, List.getLast?_concat]
    exact (withOptions_concat e.before).symm

/-- The options are read back from the line. -/
theorem withOptions_inj {options options' : List Str} (h : ∀ option ∈ options, ',' ∉ option)
    (h' : ∀ option ∈ options', ',' ∉ option) (hne : options ≠ []) (hne' : options' ≠ [])
    (heq : e.withOptions options = e.withOptions options') : options = options' := by
  have hjoined := List.append_cancel_left (List.append_cancel_right heq)
  rw [← List.splitOn_intercalate ',' h hne, hjoined, List.splitOn_intercalate ',' h' hne']

/-- **Only the pair is taken away** iff one option follows it. -/
theorem edited_eq_iff (h : e.WellFormed) :
    e.edited = e.withOptions (e.before ++ e.after) ↔ e.after.length = 1 := by
  have hcommas := (List.forall_mem_cons.mp h.commas).2
  rcases List.eq_nil_or_concat e.after with hafter | ⟨options, last, hafter⟩
  · have hedited : e.edited = e.withOptions (e.before ++ e.pair) := by
      rw [edited, hafter, List.getLast?_nil, line, hafter, List.append_nil]
    rw [hedited, hafter, List.append_nil]
    refine iff_of_false (fun heq => ?_) (by simp)
    rcases e.before.eq_nil_or_concat with hbefore | ⟨options, last, hbefore⟩
    · have hlength := congrArg List.length heq
      simp [hbefore, withOptions, pair, subvolidKey, lit_eq] at hlength
      omega
    · have hne : e.before ≠ [] := by simp [hbefore]
      have hall : ∀ option ∈ e.before ++ e.pair, ',' ∉ option := fun option hoption =>
        hcommas option (List.mem_append_left _ hoption)
      have hpair := withOptions_inj hall (fun option hoption => hall option
        (List.mem_append_left _ hoption)) (List.append_ne_nil_of_left_ne_nil hne _) hne heq
      simp [pair] at hpair
  · have hedited : e.edited = e.withOptions (e.before ++ [last]) := by
      rw [edited, hafter, List.concat_eq_append, List.getLast?_concat]
    rw [hedited, hafter, List.concat_eq_append]
    constructor
    · intro heq
      have hall : ∀ option ∈ e.before ++ (options ++ [last]), ',' ∉ option := by
        intro option hoption
        refine hcommas option ?_
        rw [hafter, List.concat_eq_append]
        simp only [List.mem_append] at hoption ⊢
        tauto
      have hlast : ∀ option ∈ e.before ++ [last], ',' ∉ option := by
        intro option hoption
        refine hall option ?_
        simp only [List.mem_append] at hoption ⊢
        tauto
      have hoptions := List.append_cancel_left
        (withOptions_inj hlast hall (by simp) (by simp) heq)
      rw [← hoptions, List.length_singleton]
    · intro hone
      obtain rfl : options = [] := by
        rw [List.length_append, List.length_singleton] at hone
        exact List.eq_nil_of_length_eq_zero (by omega)
      rfl

end SubvolLine

/-! ## The sources -/

/-- The source begins the line, and a blank follows; a dot in the source stands for any character. -/
def covers (msource line : Str) : Bool :=
  (Sed.matchLength (Sed.dotted msource ++ [⟨Sed.isSpace, false⟩]) line).isSome

/-- A line of one of the sources is commented out. -/
def commentSources (msources : List Str) (line : Str) : Str :=
  if msources.any (covers · line) then '#' :: line else line

/-- The characters of the name of a dataset. -/
def datasetChar (c : Char) : Bool := c.isAlphanum || ['/', '_', '-', '.', ':'].contains c

/-- The name of a dataset. -/
def DatasetName (name : Str) : Prop := beginsWithLetter name = true ∧ ∀ c ∈ name, datasetChar c = true

instance (name : Str) : Decidable (DatasetName name) :=
  @instDecidableAnd _ _ _ (List.decidableBAll _ name)

section Sources

variable {msource line : Str}

theorem covers_iff : covers msource line = true ↔
    ∃ field c rest, line = field ++ c :: rest ∧ Sed.Matches (Sed.dotted msource) field ∧
      Sed.isSpace c = true := by
  rw [covers, Sed.isSome_matchLength_iff]
  constructor
  · rintro ⟨_, rest, rfl, hmatch⟩
    obtain ⟨field, _, rfl, hfield, hspace⟩ := Sed.matches_append_iff.mp hmatch
    cases hspace with
    | one hc hspace =>
      obtain rfl := Sed.matches_nil_iff.mp hspace
      exact ⟨field, _, rest, by simp, hfield, hc⟩
  · rintro ⟨field, c, rest, rfl, hfield, hc⟩
    exact ⟨field ++ [c], rest, by simp, Sed.matches_append_iff.mpr
      ⟨field, [c], rfl, hfield, .one hc .nil⟩⟩

theorem not_fieldBlank_of_letter {c : Char} (h : beginsWithLetter (c :: line) = true) :
    fieldBlank c = false := by
  by_contra hc
  have hc := Bool.of_not_eq_false hc
  simp only [fieldBlank, Bool.or_eq_true, decide_eq_true_eq] at hc
  rcases hc with rfl | rfl <;> simp [beginsWithLetter] at h

theorem dropWhile_of_letter (h : beginsWithLetter line = true) : line.dropWhile fieldBlank = line := by
  rcases line with _ | ⟨c, line⟩
  · rfl
  · exact List.dropWhile_cons_of_neg (by simp [not_fieldBlank_of_letter h])

/-- **A source covers the lines** that it is the first field of. -/
theorem covers_of_firstField (hletter : beginsWithLetter line = true)
    (hblank : ∃ c ∈ line, fieldBlank c = true) : covers (firstField line) line = true := by
  have hsplit : line = firstField line ++ line.dropWhile fun c => !fieldBlank c := by
    rw [firstField, dropWhile_of_letter hletter, List.takeWhile_append_dropWhile]
  rcases hrest : line.dropWhile (fun c => !fieldBlank c) with _ | ⟨c, rest⟩
  · obtain ⟨c, hc, hcBlank⟩ := hblank
    have hnot := List.dropWhile_eq_nil_iff.mp hrest c hc
    simp [hcBlank] at hnot
  · have hc : fieldBlank c = true := by
      have hnot := List.head?_dropWhile_not (fun c => !fieldBlank c) line
      rw [hrest] at hnot
      simpa using hnot
    refine covers_iff.mpr ⟨firstField line, c, rest, hrest ▸ hsplit, Sed.matches_dotted _, ?_⟩
    simp only [fieldBlank, Bool.or_eq_true, decide_eq_true_eq] at hc
    rcases hc with rfl | rfl <;> decide

theorem DatasetName.not_mem (h : DatasetName msource) {c : Char} (hc : datasetChar c = false) :
    c ∉ msource := fun hmem => absurd (h.2 c hmem) (by simp [hc])

/-- What a dataset covers begins as it does. -/
theorem DatasetName.head_eq (h : DatasetName msource) (hcovers : covers msource line = true) :
    line.head? = msource.head? := by
  obtain ⟨hletter, hchars⟩ := h
  rcases msource with _ | ⟨c, msource⟩
  · simp [beginsWithLetter] at hletter
  · have hdot : c ≠ '.' := by
      rintro rfl
      simp [beginsWithLetter] at hletter
    have hitems : Sed.dotted (c :: msource) = Sed.Item.literal c :: Sed.dotted msource := by
      simp [Sed.dotted, hdot]
    obtain ⟨field, d, rest, rfl, hfield, -⟩ := covers_iff.mp hcovers
    rw [hitems] at hfield
    cases hfield with
    | one hc _ => rw [← beq_iff_eq.mp hc]; rfl

theorem DatasetName.not_covers_comment (h : DatasetName msource) :
    covers msource ('#' :: line) = false := by
  by_contra hcovers
  have hhead := h.head_eq (Bool.of_not_eq_false hcovers)
  have hletter := h.1
  rw [beginsWithLetter, ← hhead] at hletter
  simp at hletter

/-- The script that comments a source out. -/
theorem parseCommand_comment (h : DatasetName msource) :
    ∃ cmd, Sed.parseCommand (commentScript msource) = some cmd ∧
      cmd.run = fun line => some (commentSources [msource] line) := by
  obtain ⟨space, hspace⟩ : ∃ space, space = lit "[[:space:]]" := ⟨_, rfl⟩
  have hscript : commentScript msource =
      '\x5c' :: '|' :: (('^' :: (msource ++ space)) ++ '|' :: lit " s/^#*/#/") := by
    simp [commentScript, hspace, lit_eq]
  have hregex : '\x5c' ∉ '|' :: '^' :: (msource ++ space) ∧ '|' ∉ '^' :: (msource ++ space) := by
    simp [hspace, lit_eq, h.not_mem (c := '\x5c') (by decide), h.not_mem (c := '|') (by decide)]
  have hspecial : ∀ c ∈ msource, c = '.' ∨ Sed.patternSpecial c = false := by
    intro c hc
    rw [or_iff_not_imp_left, Bool.eq_false_iff]
    intro hdot hspecial
    have hchar := h.2 c hc
    simp only [Sed.patternSpecial, List.contains_eq_mem, List.mem_cons, List.not_mem_nil, or_false,
      decide_eq_true_eq] at hspecial
    rcases hspecial with rfl | rfl | rfl | rfl | rfl | rfl | rfl
    · exact absurd hchar (by decide)
    · exact hdot rfl
    all_goals exact absurd hchar (by decide)
  have hspaceItems : Sed.parseItems space = some [⟨Sed.isSpace, false⟩] := by
    rw [hspace, lit_ofList]
    rfl
  have hpattern : Sed.parsePattern ('^' :: (msource ++ space)) =
      some ⟨true, Sed.dotted msource ++ [⟨Sed.isSpace, false⟩]⟩ := by
    rw [Sed.parsePattern, Sed.parseItems_dotted_append hspecial, hspaceItems]
    · rfl
    · rw [hspace, lit_ofList]
      decide
  have hsubstitution : (Sed.parseSubstitution ((lit " s/^#*/#/").dropWhile (· == ' '))) =
      some ⟨⟨true, Sed.literals [] ++ [Sed.Item.many '#']⟩, ['#'], false⟩ := by
    rw [lit_ofList]
    rfl
  rw [hscript, Sed.parseCommand_addressed hregex.1 hregex.2 hpattern (by simp [lit_eq]) hsubstitution]
  refine ⟨_, rfl, funext fun line => ?_⟩
  simp only [Sed.Command.run, Sed.Pattern.found, if_true, Sed.apply_atStart_many, List.nil_prefix]
  have hcomment : commentSources [msource] line =
      if covers msource line then '#' :: line else line := by
    simp [commentSources]
  rw [hcomment, covers]
  split_ifs with hcovers
  · -- a line that is covered begins with a letter
    have hkept : line.dropWhile (· == '#') = line := by
      rcases line with _ | ⟨c, line⟩
      · rfl
      · refine List.dropWhile_cons_of_neg fun hc => ?_
        rw [beq_iff_eq.mp hc, ← covers, h.not_covers_comment] at hcovers
        exact absurd hcovers Bool.false_ne_true
    rw [List.length_nil, List.drop_zero, hkept, List.singleton_append]
  · rfl

/-- **Sources in turn**: each line of one of them is commented out once. -/
theorem commentSources_commentSources {msources : List Str} (h : ∀ msource ∈ msources, DatasetName msource) :
    commentSources msources (commentSources [msource] line) = commentSources (msource :: msources) line := by
  unfold commentSources
  simp only [List.any_cons, List.any_nil, Bool.or_false]
  by_cases hcovers : covers msource line = true
  · have hnone : msources.any (covers · ('#' :: line)) = false := by
      rw [List.any_eq_false]
      exact fun msource hmsource => Bool.eq_false_iff.mp (h msource hmsource).not_covers_comment
    simp only [hcovers, if_true, hnone, Bool.true_or]
    rfl
  · simp [hcovers]

end Sources

/-! ## The edits of the file -/

section Edits

variable {exec : Exec Str FileSystem} {path : Str} {fs : FileSystem} {ls : List Str}

/-- The file can be edited, and has these lines. -/
def HasLines (fs : FileSystem) (path : Str) (ls : List Str) : Prop :=
  fs.Editable path ∧ fs.content path = some (Sed.unlines ls []) ∧ ∀ line ∈ ls, '\n' ∉ line

/-- An edit of the lines. -/
theorem HasLines.edit {line : Str} {f : Str → Str} (h : HasLines fs path ls)
    (hexec : CarriesOut exec line (FilesOf.self.on (·.edit (fun line => some (f line)) path)))
    (hf : ∀ line, '\n' ∉ line → '\n' ∉ f line) :
    HasLines (exec line fs).2 path (ls.map f) := by
  obtain ⟨hedit, htext, hnewline⟩ := h
  have hfs : (exec line fs).2 = fs.editIfThere (fun line => some (f line)) path :=
    SedTool.snd_edit hexec
  refine ⟨hfs ▸ FileSystem.editable_editIfThere.mpr hedit, ?_, ?_⟩
  · rw [hfs, FileSystem.content_editIfThere hedit, htext, Option.map_some, Sed.editText_unlines hnewline,
      List.filterMap_eq_map']
  · simp only [List.mem_map]
    rintro _ ⟨line, hline, rfl⟩
    exact hf line (hnewline line hline)

theorem newline_commentSources {msources : List Str} {line : Str} (h : '\n' ∉ line) :
    '\n' ∉ commentSources msources line := by
  unfold commentSources
  split_ifs <;> simp [h]

theorem parse_commentCmd {msource : Str} (h : DatasetName msource) (hpath : PlainWord path) :
    parse (commentCmd msource path) = some [.word (lit "sed"), .word (lit "-e"),
      .word (commentScript msource), .word (lit "-i"), .word path] := by
  have hscript : Quotable (commentScript msource) := by
    simp [commentScript, Quotable, lit_eq, h.not_mem (c := '\x27') (by decide),
      h.not_mem (c := '\x00') (by decide)]
  have hline : commentCmd msource path = lit "sed" ++ ' ' :: (lit "-e" ++ ' ' ::
      ('\x27' :: commentScript msource ++ '\x27' :: ' ' :: (lit "-i" ++ ' ' :: path))) := by
    simp [commentCmd, lit_eq]
  rw [hline, parse_plainWord (by rw [lit_ofList]; decide),
    parse_plainWord (by rw [lit_ofList]; decide), parse_quoted hscript,
    parse_plainWord (by rw [lit_ofList]; decide), parse_last hpath]
  rfl

/-- **The sources that are found** are commented out. -/
theorem HasLines.commentDatasets {mounted : Str → Bool} {msources : List Str}
    (htool : SedTool exec FilesOf.self) (hpath : PlainWord path)
    (hquery : ∀ msource ∈ msources, ∀ fs, exec (datasetQueryCmd msource) fs = (mounted msource, fs))
    (hnames : ∀ msource ∈ msources, mounted msource = true → DatasetName msource)
    (h : HasLines fs path ls) :
    HasLines (CliInstaller.commentDatasets exec path msources fs) path
      (ls.map (commentSources (msources.filter mounted))) := by
  induction msources generalizing fs ls with
  | nil =>
    have hsame : commentSources [] = id := funext fun _ => rfl
    rw [List.filter_nil, hsame, List.map_id]
    exact h
  | cons msource msources ih =>
    obtain ⟨hquery₁, hquery⟩ := List.forall_mem_cons.mp hquery
    obtain ⟨hname, hnames⟩ := List.forall_mem_cons.mp hnames
    rw [CliInstaller.commentDatasets, hquery₁]
    rcases hmounted : mounted msource with _ | _
    · rw [List.filter_cons_of_neg (by simp [hmounted])]
      exact ih hquery hnames h
    · obtain ⟨cmd, hcmd, hrun⟩ := parseCommand_comment (hname hmounted)
      have hcomment := htool.editsOption _ _ _ _ (parse_commentCmd (hname hmounted) hpath) hcmd
      rw [hrun] at hcomment
      have hnext := ih hquery hnames (h.edit hcomment fun _ => newline_commentSources)
      rw [List.map_map] at hnext
      rw [List.filter_cons_of_pos hmounted]
      convert hnext using 2
      refine funext fun line => (commentSources_commentSources fun name hname => ?_).symm
      obtain ⟨hmem, hmounted⟩ := List.mem_filter.mp hname
      exact hnames name hmem hmounted

/-- A mountpoint right below the root, of characters that stand for themselves in a pattern. -/
structure TopMount (rootMountpoint : Str) : Prop where
  literal : LiteralWord rootMountpoint
  slash : ∃ name, rootMountpoint = '/' :: name ∧ '/' ∉ name
  plain : ∀ c ∈ rootMountpoint, Sed.patternSpecial c = false

/-- The first occurrence of the mountpoint is taken away. -/
def stripMount (rootMountpoint line : Str) : Str :=
  Sed.replaceFirst (Sed.literals rootMountpoint) [] line

/-- The script of the first edit, which the shell reads in double quotes. -/
theorem TopMount.parse_stripMountCmd {root : Str} (h : TopMount root) :
    ∃ script cmd, parse (stripMountCmd root) = some [.word (lit "sed"), .word (lit "-i"),
        .word script, .word (fstabPath root)] ∧
      Sed.parseCommand script = some cmd ∧ cmd.run = fun line => some (stripMount root line) := by
  obtain ⟨name, rfl, hname⟩ := h.slash
  have hpath : PlainWord (fstabPath ('/' :: name)) :=
    LiteralWord.plainWord ⟨List.cons_ne_nil _ _, h.literal.2.append (by rw [lit_ofList]; decide)⟩
  have hline : stripMountCmd ('/' :: name) = lit "sed" ++ ' ' :: (lit "-i" ++ ' ' ::
      ('\x22' :: ['s', '/'] ++ '\x5c' :: '\x5c' :: (('/' :: name) ++ ['/', '/']) ++ '\x22' :: ' ' ::
        fstabPath ('/' :: name))) := by
    simp [stripMountCmd, lit_eq]
  have hroot : DoubleQuotable ('/' :: name) ∧ '\x00' ∉ '/' :: name :=
    ⟨h.literal.doubleQuotable, h.literal.2.quotable.2⟩
  have hparse := @parse_doubleQuoted_escape ['s', '/'] (fstabPath ('/' :: name))
    (('/' :: name) ++ ['/', '/']) (by decide) (by decide) (by decide)
    (hroot.1.append (by decide)) (by simpa using hroot.2) (by simp)
  have hescape : '\x5c' ∉ '/' :: name := fun hmem =>
    absurd (h.plain _ hmem) (by decide)
  have hread : Sed.readPart '/' ('\x5c' :: '/' :: (name ++ '/' :: ['/'])) =
      some ('/' :: name, [] ++ '/' :: []) := by
    rw [Sed.readPart, Sed.readPart_append hescape hname]
    rfl
  have hitems : Sed.parseItems ('/' :: name) = some (Sed.literals ('/' :: name)) := by
    have hitems := @Sed.parseItems_literals_append ('/' :: name) [] h.plain (by simp)
    simpa [Sed.parseItems] using hitems
  have hpattern : Sed.parsePattern ('/' :: name) = some ⟨false, Sed.literals ('/' :: name)⟩ := by
    rw [Sed.parsePattern, hitems, Option.map_some]
    · simp
    · simp
  have hscript : Sed.parseCommand (['s', '/'] ++ '\x5c' :: (('/' :: name) ++ ['/', '/'])) =
      some (.substitute none ⟨⟨false, Sed.literals ('/' :: name)⟩, [], false⟩) :=
    Sed.parseCommand_of_readPart hread hpattern (by simp [Sed.Replaceable]) (.inl rfl)
  refine ⟨_, _, ?_, hscript, rfl⟩
  rw [hline, parse_plainWord (by rw [lit_ofList]; decide),
    parse_plainWord (by rw [lit_ofList]; decide), hparse, parse_last hpath]
  rfl

theorem newline_stripMount {root line : Str} (h : '\n' ∉ line) : '\n' ∉ stripMount root line :=
  fun hmem => (Sed.mem_replaceFirst hmem).elim List.not_mem_nil h

theorem newline_stripSubvol {line : Str} (h : '\n' ∉ line) : '\n' ∉ stripSubvol line :=
  fun hmem => (Sed.mem_replaceEach hmem).elim List.not_mem_nil h

/-- The script of the second edit. -/
theorem parseCommand_subvolScript :
    ∃ cmd, Sed.parseCommand subvolScript = some cmd ∧ cmd.run = fun line => some (stripSubvol line) := by
  have hitems : subvolItems = Sed.literals ['s', 'u', 'b', 'v', 'o', 'l', 'i', 'd', '='] ++
      ⟨fun _ => true, true⟩ :: (Sed.literals [',', 's', 'u', 'b', 'v', 'o', 'l', '=', '/'] ++
        [⟨fun _ => true, true⟩, .literal ',']) := by
    rw [subvolItems, subvolidKey, subvolMark, lit_ofList, lit_ofList]
  rw [subvolScript, lit_ofList]
  refine ⟨_, rfl, funext fun line => ?_⟩
  rw [stripSubvol, hitems]
  rfl

/-- The lines after the first two edits. -/
def strippedLines (rootMountpoint : Str) (swapfile : Bool) (ls : List Str) : List Str :=
  ls.map fun line => stripSubvol (if swapfile then stripMount rootMountpoint line else line)

/-- The sources that are asked for. -/
def sourcesOf (ls : List Str) : List Str := (ls.filter beginsWithLetter).map firstField

theorem msourceList_unlines (h : ∀ line ∈ ls, '\n' ∉ line) :
    msourceList (Sed.unlines ls []) = sourcesOf ls := by
  have hsub {field line : Str} (hfield : field = firstField line) : field ⊆ line := by
    subst hfield
    exact fun c hc => (List.dropWhile_suffix _).subset ((List.takeWhile_prefix _).subset hc)
  have hnewline : ∀ field ∈ sourcesOf ls, '\n' ∉ field := by
    simp only [sourcesOf, List.mem_map, List.mem_filter]
    rintro _ ⟨line, ⟨hline, -⟩, rfl⟩ hmem
    exact h line hline (hsub rfl hmem)
  have hne : ∀ field ∈ sourcesOf ls, field ≠ [] := by
    simp only [sourcesOf, List.mem_map, List.mem_filter]
    rintro _ ⟨line, ⟨-, hletter⟩, rfl⟩ hempty
    rw [firstField, dropWhile_of_letter hletter] at hempty
    rcases line with _ | ⟨c, line⟩
    · simp [beginsWithLetter] at hletter
    · have hc := not_fieldBlank_of_letter hletter
      rw [List.takeWhile_cons_of_pos (by simp [hc])] at hempty
      cases hempty
  rw [msourceList, Sed.textLines_unlines h, makeMultiline_execOutput, Sed.unlines, List.append_nil]
  exact (Splitting.pieces_flatMap_concat hnewline).trans
    (List.filter_eq_self.mpr fun field hfield => decide_eq_true (hne field hfield))

/-- **The lines of the edited fstab.** -/
theorem HasLines.editFstab {root : Str} {mounted : Str → Bool} (htool : SedTool exec FilesOf.self)
    (hroot : LiteralWord root)
    (hmount : fs.fileExists (root ++ lit "/swapfile") = true → TopMount root)
    (h : HasLines fs (fstabPath root) ls)
    (hquery : ∀ msource ∈ sourcesOf (strippedLines root (fs.fileExists (root ++ lit "/swapfile")) ls),
      ∀ fs, exec (datasetQueryCmd msource) fs = (mounted msource, fs))
    (hnames : ∀ msource, mounted msource = true → DatasetName msource) :
    HasLines (CliInstaller.editFstab exec root fs) (fstabPath root)
      ((strippedLines root (fs.fileExists (root ++ lit "/swapfile")) ls).map
        (commentSources ((sourcesOf (strippedLines root (fs.fileExists (root ++ lit "/swapfile"))
          ls)).filter mounted))) := by
  have hpath : PlainWord (fstabPath root) :=
    LiteralWord.plainWord ⟨List.append_ne_nil_of_left_ne_nil hroot.1 _,
      hroot.2.append (by rw [lit_ofList]; decide)⟩
  obtain ⟨cmd, hcmd, hrun⟩ := parseCommand_subvolScript
  have hquotable : Quotable subvolScript := by
    rw [subvolScript, lit_ofList]
    decide
  have hsubvol := htool.quoted hquotable hpath hcmd
  rw [hrun] at hsubvol
  obtain ⟨swapfile, hswapfile⟩ : ∃ swapfile, fs.fileExists (root ++ lit "/swapfile") = swapfile :=
    ⟨_, rfl⟩
  rw [hswapfile] at hmount hquery ⊢
  have hstripped : HasLines (exec (sedQuoted subvolScript (fstabPath root)) (if swapfile then
      (exec (stripMountCmd root) fs).2 else fs)).2 (fstabPath root) (strippedLines root swapfile ls) := by
    cases swapfile with
    | false => exact h.edit hsubvol fun _ => newline_stripSubvol
    | true =>
      obtain ⟨script, cmd, hparse, hcmd, hrun⟩ := (hmount rfl).parse_stripMountCmd
      have hmount := htool.edits _ _ _ _ hparse hcmd
      rw [hrun] at hmount
      have hboth := (h.edit hmount fun _ => newline_stripMount).edit hsubvol
        fun _ => newline_stripSubvol
      rw [List.map_map] at hboth
      exact hboth
  have htext := readWholeFile_of_readable hstripped.2.1 hstripped.1.1
  have hcommented := hstripped.commentDatasets htool hpath hquery fun msource _ => hnames msource
  rw [← msourceList_unlines hstripped.2.2, ← htext] at hcommented
  rw [← msourceList_unlines hstripped.2.2, ← htext]
  unfold CliInstaller.editFstab
  rw [hswapfile]
  exact hcommented

end Edits

/-! ## A shell with the tools -/

/-- A shell with the editor, in which `genfstab` writes these lines and the query finds these
sources. -/
def runFstabTools (root : Str) (ls names : List Str) : Exec Str FileSystem :=
  runSed FilesOf.self fun line fs =>
    if line = fstabCmd root then (true, fs.set (fstabPath root) (some (Sed.unlines ls [])))
    else (names.any (line = datasetQueryCmd ·), fs)

section Tools

variable {root : Str} {ls names : List Str}

theorem runFstabTools_fstab (fs : FileSystem) : runFstabTools root ls names (fstabCmd root) fs =
    (true, fs.set (fstabPath root) (some (Sed.unlines ls []))) := by
  have hline : fstabCmd root = lit "genfstab" ++ ' ' ::
      (lit "-U -p " ++ root ++ lit " > " ++ fstabPath root) := by
    simp [fstabCmd, lit_eq]
  have hnot : (parse (fstabCmd root)).bind sedCommand = none := by
    rw [hline]
    exact sedCommand_of_ne (by rw [lit_ofList]; decide) (by simp [lit_eq])
  rw [runFstabTools, runSed, hnot]
  exact if_pos rfl

theorem runFstabTools_query (msource : Str) (fs : FileSystem) :
    runFstabTools root ls names (datasetQueryCmd msource) fs = (names.contains msource, fs) := by
  have hline : datasetQueryCmd msource = lit "zfs" ++ ' ' ::
      (lit "list -H -o mountpoint,name | grep '^/' | awk '\x7bprint $2\x7d' | grep -q '^" ++ msource ++
        lit "$'") := by
    simp [datasetQueryCmd, lit_eq]
  have hnot : (parse (datasetQueryCmd msource)).bind sedCommand = none := by
    rw [hline]
    exact sedCommand_of_ne (by rw [lit_ofList]; decide) (by simp [lit_eq])
  have hother : datasetQueryCmd msource ≠ fstabCmd root := by
    simp [datasetQueryCmd, fstabCmd, lit_eq]
  have hinj (name : Str) : datasetQueryCmd msource = datasetQueryCmd name ↔ msource = name :=
    ⟨fun h => List.append_cancel_left (List.append_cancel_right h), fun h => h ▸ rfl⟩
  rw [runFstabTools, runSed, hnot]
  refine (if_neg hother).trans ?_
  simp only [hinj, Prod.mk.injEq, and_true]
  rw [Bool.eq_iff_iff, List.any_eq_true, List.contains_iff_mem]
  simp

theorem hasLines_set {fs : FileSystem} {path : Str} (h : fs.Editable path)
    (hls : ∀ line ∈ ls, '\n' ∉ line) :
    HasLines (fs.set path (some (Sed.unlines ls []))) path ls :=
  ⟨h, FileSystem.content_set_self _ _ _, hls⟩

end Tools

/-! ## The fstab of the target -/

section Run

variable {exec : Exec Str FileSystem} {root : Str} {fs fs₁ : FileSystem} {ls : List Str}
  {mounted : Str → Bool}

/-- **No source that the query finds is left**: the lines that it covers are commented out, and no other
one is. -/
theorem runGenfstab_datasets (htool : SedTool exec FilesOf.self) (hroot : LiteralWord root)
    (hmount : fs₁.fileExists (root ++ lit "/swapfile") = true → TopMount root)
    (hgen : exec (fstabCmd root) fs = (true, fs₁)) (hlines : HasLines fs₁ (fstabPath root) ls)
    (hquery : ∀ msource ∈ sourcesOf (strippedLines root (fs₁.fileExists (root ++ lit "/swapfile")) ls),
      ∀ fs, exec (datasetQueryCmd msource) fs = (mounted msource, fs))
    (hnames : ∀ msource, mounted msource = true → DatasetName msource) :
    ∃ fs' ls', runGenfstabOnMount exec root fs = (true, fs') ∧
      fs'.content (fstabPath root) = some (Sed.unlines ls' []) ∧
      List.Forall₂ (fun line line' => line' = if ∃ msource ∈ sourcesOf (strippedLines root
          (fs₁.fileExists (root ++ lit "/swapfile")) ls), mounted msource = true ∧
            covers msource line = true then '#' :: line else line)
        (strippedLines root (fs₁.fileExists (root ++ lit "/swapfile")) ls) ls' ∧
      ∀ line ∈ ls', beginsWithLetter line = true → (∃ c ∈ line, fieldBlank c = true) →
        mounted (firstField line) = false := by
  have hedited := hlines.editFstab htool hroot hmount hquery hnames
  obtain ⟨stripped, hstripped⟩ : ∃ stripped, stripped =
    strippedLines root (fs₁.fileExists (root ++ lit "/swapfile")) ls := ⟨_, rfl⟩
  rw [← hstripped] at hedited ⊢
  have hcomment (line : Str) : commentSources ((sourcesOf stripped).filter mounted) line =
      if ∃ msource ∈ sourcesOf stripped, mounted msource = true ∧ covers msource line = true then
        '#' :: line else line := by
    simp only [commentSources, List.any_eq_true, List.mem_filter, and_assoc]
  refine ⟨_, _, ?_, hedited.2.1, ?_, ?_⟩
  · rw [runGenfstabOnMount, hgen]
  · rw [List.forall₂_map_right_iff, List.forall₂_same]
    exact fun line _ => hcomment line
  · simp only [List.mem_map]
    rintro _ ⟨line, hline, rfl⟩ hletter hblank
    rw [hcomment] at hletter hblank ⊢
    split_ifs at hletter hblank ⊢ with hcovered
    · simp [beginsWithLetter] at hletter
    · by_contra hmounted
      exact hcovered ⟨firstField line, List.mem_map_of_mem (List.mem_filter.mpr ⟨hline, hletter⟩),
        Bool.of_not_eq_false hmounted, covers_of_firstField hletter hblank⟩

/-- The entry of a dataset. -/
def datasetLine : Str := lit "rpool/home\t/home\tzfs\trw\t0 0"

/-- The entry of a btrfs subvolume with one option behind the pair. -/
def rootSubvolLine : SubvolLine where
  head := lit "UUID=ab\t/\tbtrfs\t"
  before := [lit "rw"]
  id := lit "256"
  path := lit "@"
  after := [lit "subvol=@"]
  tail := lit "\t0 0"

theorem topMount_mnt : TopMount (lit "/mnt") where
  literal := by rw [lit_ofList]; decide
  slash := ⟨lit "mnt", by simp [lit_eq], by simp [lit_eq]⟩
  plain := by simp [lit_eq, Sed.patternSpecial]

theorem runGenfstab_datasets_home :
    ∃ fs' ls', runGenfstabOnMount (runFstabTools (lit "/mnt") [datasetLine] [lit "rpool/home"])
        (lit "/mnt") (.single [] []) = (true, fs') ∧
      fs'.content (fstabPath (lit "/mnt")) = some (Sed.unlines ls' []) ∧
      ∀ line ∈ ls', beginsWithLetter line = true → (∃ c ∈ line, fieldBlank c = true) →
        [lit "rpool/home"].contains (firstField line) = false := by
  have hnewline : ∀ line ∈ [datasetLine], '\n' ∉ line := by
    simp [datasetLine, lit_eq]
  have hgen := @runFstabTools_fstab (lit "/mnt") [datasetLine] [lit "rpool/home"] (.single [] [])
  obtain ⟨fs', ls', hrun, htext, -, hnone⟩ := runGenfstab_datasets (sedTool _ _) topMount_mnt.literal
    (fun _ => topMount_mnt) hgen (hasLines_set ⟨rfl, rfl⟩ hnewline) (fun msource _ fs => runFstabTools_query msource fs) (by
      simp only [List.contains_iff_mem, List.mem_singleton]
      rintro _ rfl
      rw [lit_ofList]
      decide)
  exact ⟨fs', ls', hrun, htext, hnone⟩

/-- **The options of a btrfs subvolume**: without an option behind the pair nothing changes, otherwise
the last one takes the place of the pair and of all that follow it. A line is that of `genfstab`, without
the mountpoint if there is a swap file; a source that is found comments it out after this edit. -/
theorem runGenfstab_options (htool : SedTool exec FilesOf.self) (hroot : LiteralWord root)
    (hmount : fs₁.fileExists (root ++ lit "/swapfile") = true → TopMount root)
    (hgen : exec (fstabCmd root) fs = (true, fs₁)) (hlines : HasLines fs₁ (fstabPath root) ls)
    (hquery : ∀ msource ∈ sourcesOf (strippedLines root (fs₁.fileExists (root ++ lit "/swapfile")) ls),
      ∀ fs, exec (datasetQueryCmd msource) fs = (mounted msource, fs))
    (hnames : ∀ msource, mounted msource = true → DatasetName msource) :
    ∃ fs' ls', runGenfstabOnMount exec root fs = (true, fs') ∧
      fs'.content (fstabPath root) = some (Sed.unlines (ls'.map (commentSources
        ((sourcesOf (strippedLines root (fs₁.fileExists (root ++ lit "/swapfile")) ls)).filter
          mounted))) []) ∧
      List.Forall₂ (fun line line' => (¬ subvolidKey <:+: line → line' = line) ∧
        ∀ e : SubvolLine, e.WellFormed → e.line = line → line' = e.edited ∧
          (line' = e.withOptions (e.before ++ e.after) ↔ e.after.length = 1))
        (ls.map fun line => if fs₁.fileExists (root ++ lit "/swapfile") then stripMount root line
          else line) ls' := by
  have hedited := hlines.editFstab htool hroot hmount hquery hnames
  refine ⟨_, _, ?_, hedited.2.1, ?_⟩
  · rw [runGenfstabOnMount, hgen]
  · rw [strippedLines, List.forall₂_map_left_iff, List.forall₂_map_right_iff, List.forall₂_same]
    refine fun line _ => ⟨stripSubvol_keyless, fun e he hline => ?_⟩
    rw [← hline]
    exact ⟨SubvolLine.stripSubvol_line he,
      SubvolLine.stripSubvol_line he ▸ SubvolLine.edited_eq_iff he⟩

theorem wellFormed_rootSubvolLine : rootSubvolLine.WellFormed := by
  unfold rootSubvolLine
  constructor
  · simp [SubvolLine.pair, subvolidKey, lit_eq]
  · have hlast : (lit "UUID=ab\t/\tbtrfs\t" ++ [lit "rw"].flatMap (· ++ [','])).getLast? = some ',' := by
      simp [lit_eq]
    constructor
    · simp only [subvolidKey]
      repeat rw [lit_ofList]
      decide
    · rw [hlast]
      rintro _ ⟨⟩
      simp [subvolidKey, lit_eq]

theorem runGenfstab_options_root :
    ∃ fs' line', runGenfstabOnMount (runFstabTools (lit "/mnt") [rootSubvolLine.line] []) (lit "/mnt")
        (.single [] []) = (true, fs') ∧
      fs'.content (fstabPath (lit "/mnt")) = some (Sed.unlines [line'] []) ∧
      line' = rootSubvolLine.withOptions [lit "rw", lit "subvol=@"] := by
  have hnewline : ∀ line ∈ [rootSubvolLine.line], '\n' ∉ line := by
    simp [rootSubvolLine, SubvolLine.line, SubvolLine.withOptions, SubvolLine.pair, subvolidKey, lit_eq]
  have hpath : fstabPath (lit "/mnt") ≠ lit "/mnt" ++ lit "/swapfile" := by
    simp [fstabPath, lit_eq]
  have hgen := @runFstabTools_fstab (lit "/mnt") [rootSubvolLine.line] [] (.single [] [])
  have hlines := @hasLines_set [rootSubvolLine.line] (.single [] []) (fstabPath (lit "/mnt"))
    ⟨rfl, rfl⟩ hnewline
  have hswapfile : ((FileSystem.single [] []).set (fstabPath (lit "/mnt"))
      (some (Sed.unlines [rootSubvolLine.line] []))).fileExists (lit "/mnt" ++ lit "/swapfile") = false := by
    rw [FileSystem.fileExists, FileSystem.content_set_of_ne _ _ hpath.symm]
    simp [FileSystem.single, lit_eq]
  obtain ⟨fs', ls', hrun, htext, hall⟩ := runGenfstab_options (sedTool _ _) topMount_mnt.literal
    (fun _ => topMount_mnt) hgen hlines (fun msource _ fs => runFstabTools_query msource fs) (by simp)
  have hsame (msources : List Str) : commentSources (msources.filter fun msource =>
      ([] : List Str).contains msource) = id := by
    simp only [List.contains_nil, List.filter_false]
    exact funext fun _ => rfl
  rw [hsame, List.map_id] at htext
  simp only [hswapfile, Bool.false_eq_true, if_false, List.map_id'] at hall
  obtain ⟨line', _, ⟨-, hline⟩, hnil, rfl⟩ := List.forall₂_cons_left_iff.mp hall
  obtain rfl := List.forall₂_nil_left_iff.mp hnil
  exact ⟨fs', line', hrun, htext, ((hline _ wellFormed_rootSubvolLine rfl).2).mpr rfl⟩

end Run

end CliInstaller
