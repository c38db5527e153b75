import CliInstaller.Cpp.Runtime

/-!
# `gucc::profile`

The network profiles are a TOML document. The parsers go down to the arrays of packages without
looking whether a table, an array or a string is there, so every valid document that has another
shape makes them dereference a null pointer or an empty optional.

Source: `gucc/src/package_profiles.cpp`.

## Main definitions

* `TomlNode`, `TomlTable`: what the TOML library returns
* `parseBaseProfiles`, `parseDesktopProfiles`, `parseNetProfiles`: the three parsers
* `ProfilesParsed`: what they are meant to do with a document
* `WellFormed`: the documents that have the expected shape

## Main results

* `parseNetProfiles_eq`: the third parser is the other two, one after the other
* `profilesParsed_iff`: when the parsers do what they are meant to
-/

namespace CliInstaller

/-! ## Documents -/

/-- A node; the entries of a table are in the order of their keys. -/
inductive TomlNode where
  | table (entries : List (Str × TomlNode))
  | array (elems : List TomlNode)
  | string (value : Str)
  /-- a number, a truth value, a date or a time -/
  | other

/-- `toml::table` -/
abbrev TomlTable := List (Str × TomlNode)

/-- `toml::node_view`: a node, or no node. -/
abbrev NodeView := Option TomlNode

/-- `table[key]` -/
def TomlTable.view (table : TomlTable) (key : Str) : NodeView :=
  (table.find? fun entry => entry.1 = key).map Prod.snd

namespace NodeView

/-- `as_table()`: null for a node of another type. -/
def asTable : NodeView → Option TomlTable
  | some (.table entries) => some entries
  | _ => none

/-- `as_array()`: null for a node of another type. -/
def asArray : NodeView → Option (List TomlNode)
  | some (.array elems) => some elems
  | _ => none

/-- `view[key]`: no node where there is no table. -/
def view (node : NodeView) (key : Str) : NodeView := node.asTable.bind fun table => table.view key

end NodeView

/-- `node.value<std::string_view>()` -/
def TomlNode.stringValue : TomlNode → Option Str
  | .string value => some value
  | _ => none

/-! ## The parsers -/

structure BaseProfiles where
  basePackages : List Str
  baseDesktopPackages : List Str
  deriving DecidableEq, Repr

structure DesktopProfile where
  profileName : Str
  packages : List Str
  deriving DecidableEq, Repr

@[ext]
structure NetProfiles where
  baseProfiles : BaseProfiles
  desktopProfiles : List DesktopProfile
  deriving DecidableEq, Repr

/-- `*p`, for a pointer that may be null. -/
def deref {α : Type} : Option α → Except Fault α
  | some a => .ok a
  | none => .error .nullPointer

/-- `opt.value()`, where no exception can leave. -/
def optionalValue {α : Type} : Option α → Except Fault α
  | some a => .ok a
  | none => .error .emptyOptional

/-- `parse_toml_array`, into an empty vector. -/
def parseTomlArray (arr : Option (List TomlNode)) : Except Fault (List Str) := do
  let elems ← deref arr
  elems.mapM fun nodeEl => optionalValue nodeEl.stringValue

/-- The profile of one entry of the table of desktops. -/
def parseDesktopEntry (entry : Str × TomlNode) : Except Fault DesktopProfile := do
  let valueTable ← deref (NodeView.asTable (some entry.2))
  let packages ← parseTomlArray (valueTable.view (lit "packages")).asArray
  return { profileName := entry.1, packages }

section Parsers

variable (toml : Str → Option TomlTable)

/-- `parse_base_profiles`; `toml` is `toml::parse`, which fails on what is no document. -/
def parseBaseProfiles (configContent : Str) : Except Fault (Option BaseProfiles) :=
  match toml configContent with
  | none => .ok none
  | some netprofTable => do
    let base := netprofTable.view (lit "base-packages")
    let basePackages ← parseTomlArray (base.view (lit "packages")).asArray
    let baseDesktopPackages ←
      parseTomlArray ((base.view (lit "desktop")).view (lit "packages")).asArray
    return some { basePackages, baseDesktopPackages }

def parseDesktopProfiles (configContent : Str) : Except Fault (Option (List DesktopProfile)) :=
  match toml configContent with
  | none => .ok none
  | some netprofTable => do
    let desktopTable ← deref (netprofTable.view (lit "desktop")).asTable
    let desktopProfiles ← desktopTable.mapM parseDesktopEntry
    return some desktopProfiles

def parseNetProfiles (configContent : Str) : Except Fault (Option NetProfiles) :=
  match toml configContent with
  | none => .ok none
  | some netprofTable => do
    let base := netprofTable.view (lit "base-packages")
    let basePackages ← parseTomlArray (base.view (lit "packages")).asArray
    let baseDesktopPackages ←
      parseTomlArray ((base.view (lit "desktop")).view (lit "packages")).asArray
    let desktopTable ← deref (netprofTable.view (lit "desktop")).asTable
    let desktopProfiles ← desktopTable.mapM parseDesktopEntry
    return some { baseProfiles := { basePackages, baseDesktopPackages }, desktopProfiles }

/-- **The parsers do what they are meant to**: each returns profiles or nothing, and the third
returns profiles iff the other two do, and the same. -/
structure ProfilesParsed (configContent : Str) : Prop where
  base : ∃ r, parseBaseProfiles toml configContent = .ok r
  desktop : ∃ r, parseDesktopProfiles toml configContent = .ok r
  net : ∃ r, parseNetProfiles toml configContent = .ok r
  succeeds : (∃ net, parseNetProfiles toml configContent = .ok (some net)) ↔
    (∃ base, parseBaseProfiles toml configContent = .ok (some base)) ∧
      ∃ desktop, parseDesktopProfiles toml configContent = .ok (some desktop)
  same : ∀ net base desktop, parseNetProfiles toml configContent = .ok (some net) →
    parseBaseProfiles toml configContent = .ok (some base) →
    parseDesktopProfiles toml configContent = .ok (some desktop) →
    net = ⟨base, desktop⟩

end Parsers

/-- An array of strings. -/
def IsStrings (node : NodeView) : Prop :=
  ∃ packages : List Str, node = some (.array (packages.map .string))

/-- **The expected shape**: two arrays of strings for the base, and a table of desktops, each a
table with an array of strings. -/
structure WellFormed (table : TomlTable) : Prop where
  base : IsStrings ((table.view (lit "base-packages")).view (lit "packages"))
  baseDesktop : IsStrings
    (((table.view (lit "base-packages")).view (lit "desktop")).view (lit "packages"))
  desktop : ∃ desktopTable, table.view (lit "desktop") = some (.table desktopTable) ∧
    ∀ entry ∈ desktopTable, ∃ valueTable : TomlTable, entry.2 = .table valueTable ∧
      IsStrings (valueTable.view (lit "packages"))

/-! ## When a parser returns -/

section Returns

variable {α : Type} {a : α} {o : Option α} {node : NodeView} {packages : List Str}

theorem deref_eq_ok : deref o = .ok a ↔ o = some a := by
  cases o <;> simp [deref]

theorem optionalValue_eq_ok : optionalValue o = .ok a ↔ o = some a := by
  cases o <;> simp [optionalValue]

theorem asTable_eq_some {table : TomlTable} : node.asTable = some table ↔ node = some (.table table) := by
  rcases node with _ | (_ | _ | _ | _) <;> simp [NodeView.asTable]

theorem asArray_eq_some {elems : List TomlNode} :
    node.asArray = some elems ↔ node = some (.array elems) := by
  rcases node with _ | (_ | _ | _ | _) <;> simp [NodeView.asArray]

theorem stringValue_eq_some {nodeEl : TomlNode} {value : Str} :
    nodeEl.stringValue = some value ↔ nodeEl = .string value := by
  cases nodeEl <;> simp [TomlNode.stringValue]

/-- An array is read iff it is there, and holds strings only. -/
theorem parseTomlArray_eq_ok :
    parseTomlArray node.asArray = .ok packages ↔ node = some (.array (packages.map .string)) := by
  rw [parseTomlArray, bind_eq_ok]
  simp only [deref_eq_ok, asArray_eq_some, mapM_eq_ok, optionalValue_eq_ok, stringValue_eq_some]
  rw [show (∃ elems, node = some (.array elems) ∧
      List.Forall₂ (fun nodeEl value => nodeEl = TomlNode.string value) elems packages) ↔
    ∃ elems, node = some (.array elems) ∧ elems = packages.map .string by
      simp only [← List.forall₂_map_right_iff, List.forall₂_eq_eq_eq]]
  simp

theorem exists_parseTomlArray_iff :
    (∃ packages, parseTomlArray node.asArray = .ok packages) ↔ IsStrings node :=
  exists_congr fun _ => parseTomlArray_eq_ok

theorem exists_parseDesktopEntry_iff {entry : Str × TomlNode} :
    (∃ profile, parseDesktopEntry entry = .ok profile) ↔
      ∃ valueTable : TomlTable, entry.2 = .table valueTable ∧
        IsStrings (valueTable.view (lit "packages")) := by
  simp only [parseDesktopEntry, bind_eq_ok, deref_eq_ok, asTable_eq_some, Option.some.injEq]
  constructor
  · rintro ⟨profile, valueTable, htable, packages, hpackages, -⟩
    exact ⟨valueTable, htable, exists_parseTomlArray_iff.mp ⟨packages, hpackages⟩⟩
  · rintro ⟨valueTable, htable, hstrings⟩
    obtain ⟨packages, hpackages⟩ := exists_parseTomlArray_iff.mpr hstrings
    exact ⟨_, valueTable, htable, packages, hpackages, rfl⟩

end Returns

section Parsed

variable {toml : Str → Option TomlTable} {configContent : Str} {table : TomlTable}

theorem exists_parseBaseProfiles_iff (h : toml configContent = some table) :
    (∃ base, parseBaseProfiles toml configContent = .ok (some base)) ↔
      IsStrings ((table.view (lit "base-packages")).view (lit "packages")) ∧ IsStrings
        (((table.view (lit "base-packages")).view (lit "desktop")).view (lit "packages")) := by
  rw [parseBaseProfiles, h, ← exists_parseTomlArray_iff, ← exists_parseTomlArray_iff]
  simp only [bind_eq_ok]
  constructor
  · rintro ⟨-, packages, hpackages, desktop, hdesktop, -⟩
    exact ⟨⟨packages, hpackages⟩, desktop, hdesktop⟩
  · rintro ⟨⟨packages, hpackages⟩, desktop, hdesktop⟩
    exact ⟨_, packages, hpackages, desktop, hdesktop, rfl⟩

theorem exists_parseDesktopProfiles_iff (h : toml configContent = some table) :
    (∃ desktop, parseDesktopProfiles toml configContent = .ok (some desktop)) ↔
      ∃ desktopTable, table.view (lit "desktop") = some (.table desktopTable) ∧
        ∀ entry ∈ desktopTable, ∃ valueTable : TomlTable, entry.2 = .table valueTable ∧
          IsStrings (valueTable.view (lit "packages")) := by
  rw [parseDesktopProfiles, h]
  simp only [bind_eq_ok, deref_eq_ok, asTable_eq_some, ← exists_parseDesktopEntry_iff,
    ← exists_mapM_iff]
  constructor
  · rintro ⟨-, desktopTable, htable, profiles, hprofiles, -⟩
    exact ⟨desktopTable, htable, profiles, hprofiles⟩
  · rintro ⟨desktopTable, htable, profiles, hprofiles⟩
    exact ⟨_, desktopTable, htable, profiles, hprofiles, rfl⟩

/-- **The third parser is the other two**, one after the other. -/
theorem parseNetProfiles_eq (toml : Str → Option TomlTable) (configContent : Str) :
    parseNetProfiles toml configContent = do
      let base ← parseBaseProfiles toml configContent
      let desktop ← parseDesktopProfiles toml configContent
      return base.bind fun base => desktop.map fun desktop => ⟨base, desktop⟩ := by
  rw [parseNetProfiles, parseBaseProfiles, parseDesktopProfiles]
  rcases toml configContent with _ | table
  · rfl
  · simp

/-- It returns profiles iff the other two do, and the same. -/
theorem parseNetProfiles_eq_ok {net : NetProfiles} :
    parseNetProfiles toml configContent = .ok (some net) ↔
      parseBaseProfiles toml configContent = .ok (some net.baseProfiles) ∧
        parseDesktopProfiles toml configContent = .ok (some net.desktopProfiles) := by
  rw [parseNetProfiles_eq]
  rcases parseBaseProfiles toml configContent with fault | _ | base <;>
    rcases parseDesktopProfiles toml configContent with fault' | _ | desktop <;>
      simp [bind, Except.bind, pure, Except.pure, NetProfiles.ext_iff, eq_comm]

/-- Of a document, a parser that returns at all returns profiles. -/
theorem exists_some_of_returns (h : toml configContent = some table)
    {base : Option BaseProfiles} {desktop : Option (List DesktopProfile)}
    (hbase : parseBaseProfiles toml configContent = .ok base)
    (hdesktop : parseDesktopProfiles toml configContent = .ok desktop) :
    (∃ base', base = some base') ∧ ∃ desktop', desktop = some desktop' := by
  rw [parseBaseProfiles, h] at hbase
  rw [parseDesktopProfiles, h] at hdesktop
  simp only [bind_eq_ok] at hbase hdesktop
  obtain ⟨_, _, _, _, hbase⟩ := hbase
  obtain ⟨_, _, _, _, hdesktop⟩ := hdesktop
  exact ⟨⟨_, (Except.ok.inj hbase).symm⟩, _, (Except.ok.inj hdesktop).symm⟩

/-- **When the parsers do what they are meant to**: when the document has the expected shape. -/
theorem profilesParsed_iff (toml : Str → Option TomlTable) (configContent : Str) :
    ProfilesParsed toml configContent ↔
      ∀ table, toml configContent = some table → WellFormed table := by
  constructor
  · rintro ⟨⟨base, hbase⟩, ⟨desktop, hdesktop⟩, -, -, -⟩ table htable
    obtain ⟨⟨base, rfl⟩, desktop, rfl⟩ := exists_some_of_returns htable hbase hdesktop
    obtain ⟨hpackages, hdesktopPackages⟩ := (exists_parseBaseProfiles_iff htable).mp ⟨base, hbase⟩
    exact ⟨hpackages, hdesktopPackages,
      (exists_parseDesktopProfiles_iff htable).mp ⟨desktop, hdesktop⟩⟩
  · intro h
    -- What the third parser does follows from the other two, whatever the document is.
    have hreturns : (∃ base, parseBaseProfiles toml configContent = .ok base) ∧
        ∃ desktop, parseDesktopProfiles toml configContent = .ok desktop := by
      rcases htable : toml configContent with _ | table
      · exact ⟨⟨none, by rw [parseBaseProfiles, htable]⟩,
          none, by rw [parseDesktopProfiles, htable]⟩
      · have hshape := h table htable
        obtain ⟨base, hbase⟩ :=
          (exists_parseBaseProfiles_iff htable).mpr ⟨hshape.base, hshape.baseDesktop⟩
        obtain ⟨desktop, hdesktop⟩ := (exists_parseDesktopProfiles_iff htable).mpr hshape.desktop
        exact ⟨⟨_, hbase⟩, _, hdesktop⟩
    obtain ⟨⟨base, hbase⟩, desktop, hdesktop⟩ := hreturns
    refine ⟨⟨base, hbase⟩, ⟨desktop, hdesktop⟩,
      ⟨base.bind fun base => desktop.map fun desktop => ⟨base, desktop⟩, ?_⟩, ?_, ?_⟩
    · rw [parseNetProfiles_eq, hbase, hdesktop]
      rfl
    · simp only [parseNetProfiles_eq_ok]
      constructor
      · rintro ⟨net, hbase, hdesktop⟩
        exact ⟨⟨_, hbase⟩, _, hdesktop⟩
      · rintro ⟨⟨base, hbase⟩, desktop, hdesktop⟩
        exact ⟨⟨base, desktop⟩, hbase, hdesktop⟩
    · intro net base' desktop' hnet hbase' hdesktop'
      obtain ⟨hnetBase, hnetDesktop⟩ := parseNetProfiles_eq_ok.mp hnet
      refine NetProfiles.ext ?_ ?_
      · exact Option.some.inj (Except.ok.inj (hnetBase.symm.trans hbase'))
      · exact Option.some.inj (Except.ok.inj (hnetDesktop.symm.trans hdesktop'))

end Parsed

/-- The empty document has no table, so no array is there. -/
theorem emptyDocument_not_parsed : ¬ ProfilesParsed (fun _ => some []) [] := by
  rintro ⟨⟨base, hbase⟩, -⟩
  cases hbase

end CliInstaller
