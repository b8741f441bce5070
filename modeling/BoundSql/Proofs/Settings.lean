import BoundSql.Config.Files
import BoundSql.Proofs.Toml.Entries
import BoundSql.Proofs.Toml.Printing
import Mathlib.Data.List.Nodup

/-!
# Saved settings

Settings are saved with an entry for each of them and read back entry by entry, so a text may also
hold entries for some settings only.  How strings are written is left open: `settings_kept` holds of
every printer that writes strings as TOML does, and `Toml.quote`, with which settings are saved, is
one of them.
-/

namespace BoundSql

/-- The settings by their keys. -/
inductive Setting where
  | path
  | logLevel
  | fastPath
deriving DecidableEq, Repr

namespace Setting

/-- The key of a setting. -/
def name : Setting → String
  | path => "path"
  | logLevel => "log_level"
  | fastPath => "fast_path"

/-- All settings, in the order in which they are saved. -/
def all : List Setting := [path, logLevel, fastPath]

theorem name_injective {a b : Setting} (h : a.name = b.name) : a = b := by
  revert h
  cases a <;> cases b <;> decide

theorem isBareKey_name (a : Setting) : Toml.IsBareKey a.name := by
  cases a <;> exact ⟨by decide, List.all_eq_true.1 (by decide)⟩

end Setting

namespace Config

/-- The member of a document that keeps a setting; a path that is not set is not kept. -/
def member? (c : Config) : Setting → Option (String × Toml)
  | .path => c.path.map fun p => (Setting.path.name, .text p)
  | .logLevel => some (Setting.logLevel.name, .text c.logLevel)
  | .fastPath => some (Setting.fastPath.name, .boolean c.fastPath)

/-- The entry of a setting, with strings as the printer writes them. -/
def entry (write : String → List Char) (c : Config) : Setting → List Char
  | .path =>
    match c.path with
    | some p => Toml.assignment Setting.path.name (write p)
    | none => []
  | .logLevel => Toml.assignment Setting.logLevel.name (write c.logLevel)
  | .fastPath =>
    Toml.assignment Setting.fastPath.name (if c.fastPath then "true" else "false").toList

/-- The text with the entries of these settings. -/
def textOf (write : String → List Char) (c : Config) (keys : List Setting) : String :=
  String.ofList (keys.flatMap (c.entry write))

/-- These settings of `c`, and the defaults of the others. -/
def only (c : Config) (keys : List Setting) : Config where
  path := if .path ∈ keys then c.path else ({} : Config).path
  logLevel := if .logLevel ∈ keys then c.logLevel else ({} : Config).logLevel
  fastPath := if .fastPath ∈ keys then c.fastPath else ({} : Config).fastPath

theorem only_all (c : Config) : c.only Setting.all = c := rfl

theorem text_eq_textOf (c : Config) : c.text = c.textOf Toml.quote Setting.all := by
  have hpath : pathLine c.path = c.entry Toml.quote .path := by
    rw [entry]
    cases c.path <;> rfl
  rw [text, textOf, Setting.all, List.flatMap_cons, List.flatMap_cons, List.flatMap_singleton,
    hpath, List.append_assoc]
  rfl

/-! ### Members -/

theorem eq_name_of_member? {c : Config} {a : Setting} {m : String × Toml}
    (h : c.member? a = some m) : m.1 = a.name := by
  cases a with
  | path =>
    obtain ⟨p, -, rfl⟩ := Option.map_eq_some_iff.1 h
    rfl
  | logLevel | fastPath =>
    cases h
    rfl

/-- Each setting has a key of its own. -/
theorem nodup_members (c : Config) {keys : List Setting} (h : keys.Nodup) :
    ((keys.filterMap c.member?).map Prod.fst).Nodup := by
  rw [List.map_filterMap]
  refine List.Nodup.filterMap (fun a b k ha hb => Setting.name_injective ?_) h
  obtain ⟨m, hm, rfl⟩ := Option.map_eq_some_iff.1 ha
  obtain ⟨m', hm', heq⟩ := Option.map_eq_some_iff.1 hb
  rw [← eq_name_of_member? hm, ← eq_name_of_member? hm', heq]

/-- The entry of a setting writes its member. -/
theorem entry_of_member? {write : String → List Char} (hwrite : ∀ s, Toml.Writes s (write s))
    {c : Config} {a : Setting} {m : String × Toml} (h : c.member? a = some m) :
    Toml.Entry m (c.entry write a) := by
  cases a with
  | path =>
    obtain ⟨p, hp, rfl⟩ := Option.map_eq_some_iff.1 h
    rw [entry, hp]
    exact .mk Setting.path.isBareKey_name (.text (hwrite p))
  | logLevel =>
    cases h
    exact .mk Setting.logLevel.isBareKey_name (.text (hwrite c.logLevel))
  | fastPath =>
    cases h
    exact .mk Setting.fastPath.isBareKey_name (.boolean c.fastPath)

theorem entry_of_member?_none {write : String → List Char} {c : Config} {a : Setting}
    (h : c.member? a = none) : c.entry write a = [] := by
  cases a with
  | path => rw [entry, Option.map_eq_none_iff.1 h]
  | logLevel | fastPath => cases h

theorem exists_entries {write : String → List Char} (hwrite : ∀ s, Toml.Writes s (write s))
    (c : Config) (keys : List Setting) :
    ∃ ts, List.Forall₂ Toml.Entry (keys.filterMap c.member?) ts ∧
      ts.flatten = keys.flatMap (c.entry write) := by
  induction keys with
  | nil => exact ⟨[], .nil, rfl⟩
  | cons a keys ih =>
    obtain ⟨ts, hts, hflatten⟩ := ih
    rw [List.flatMap_cons, ← hflatten]
    cases h : c.member? a with
    | none => exact ⟨ts, by rwa [List.filterMap_cons_none h], by rw [entry_of_member?_none h]; rfl⟩
    | some m =>
      refine ⟨c.entry write a :: ts, ?_, List.flatten_cons⟩
      rw [List.filterMap_cons_some h]
      exact .cons (entry_of_member? hwrite h) hts

/-- The settings with one of them as in `c`; a path that is not set there replaces none. -/
def put (c acc : Config) : Setting → Config
  | .path => { acc with path := c.path.or acc.path }
  | .logLevel => { acc with logLevel := c.logLevel }
  | .fastPath => { acc with fastPath := c.fastPath }

theorem addMember?_member {c : Config} {a : Setting} {m : String × Toml} (h : c.member? a = some m)
    (acc : Config) : acc.addMember? m = some (c.put acc a) := by
  cases a with
  | path =>
    obtain ⟨p, hp, rfl⟩ := Option.map_eq_some_iff.1 h
    rw [put, hp]
    rfl
  | logLevel | fastPath =>
    cases h
    rfl

theorem put_of_member?_none {c : Config} {a : Setting} (h : c.member? a = none) (acc : Config) :
    c.put acc a = acc := by
  cases a with
  | path => rw [put, Option.map_eq_none_iff.1 h, Option.none_or]
  | logLevel | fastPath => cases h

theorem foldlM_members (c : Config) (keys : List Setting) (acc : Config) :
    (keys.filterMap c.member?).foldlM addMember? acc = some (keys.foldl c.put acc) := by
  induction keys generalizing acc with
  | nil => rfl
  | cons a keys ih =>
    rw [List.foldl_cons, ← ih]
    cases h : c.member? a with
    | none => rw [List.filterMap_cons_none h, put_of_member?_none h]
    | some m =>
      rw [List.filterMap_cons_some h, List.foldlM_cons, addMember?_member h]
      rfl

/-- A setting that is put again stays as it is, so it only matters which are put. -/
theorem foldl_put (c : Config) (keys : List Setting) (acc : Config) :
    keys.foldl c.put acc =
      { path := if .path ∈ keys then c.path.or acc.path else acc.path
        logLevel := if .logLevel ∈ keys then c.logLevel else acc.logLevel
        fastPath := if .fastPath ∈ keys then c.fastPath else acc.fastPath } := by
  induction keys generalizing acc with
  | nil => rfl
  | cons a keys ih =>
    rw [List.foldl_cons, ih]
    cases a with
    | path => cases h : c.path <;> simp [put, h]
    | logLevel | fastPath => simp [put]

/-- **Entries for some settings are read as these settings, with the defaults of the others.** -/
theorem ofText_textOf {write : String → List Char} (hwrite : ∀ s, Toml.Writes s (write s))
    (c : Config) {keys : List Setting} (h : keys.Nodup) :
    ofText (c.textOf write keys) = .ok (c.only keys) := by
  obtain ⟨ts, hts, hflatten⟩ := exists_entries hwrite c keys
  rw [ofText, textOf, ← hflatten, Toml.ofText?_entries hts (nodup_members c h), Option.bind_some,
    foldlM_members, foldl_put]
  simp only [Option.or_none]
  rfl

/-- **Settings that are saved are read back.**  The text that is saved is read as the settings, also
from the file that it is saved in.  However a printer writes strings, as long as it is in a way of
TOML, entries for all settings are read as the settings, and entries for some of them, in any order,
as these settings with the defaults of the others. -/
theorem settings_kept (c : Config) :
    ofText c.text = .ok c ∧
    (∀ fs path, load (c.save fs path) path = .ok c) ∧
    ∀ write : String → List Char, (∀ s, Toml.Writes s (write s)) →
      ofText (c.textOf write Setting.all) = .ok c ∧
      ∀ keys : List Setting, keys.Nodup → ofText (c.textOf write keys) = .ok (c.only keys) := by
  have hall : Setting.all.Nodup := by decide
  have htext : ofText c.text = .ok c := by
    rw [text_eq_textOf, ofText_textOf Toml.writes_quote c hall, only_all]
  refine ⟨htext, fun fs path => ?_, fun write hwrite => ⟨?_, fun keys hkeys => ?_⟩⟩
  · rw [load, save, Files.read?_write]
    change (ofText c.text).mapError _ = _
    rw [htext]
    rfl
  · rw [ofText_textOf hwrite c hall, only_all]
  · exact ofText_textOf hwrite c hkeys

/-- Two entries, one of them for a path of two lines. -/
theorem settings_kept_lines :
    let c : Config := { path := some "data\nbase", logLevel := "C:\\log", fastPath := false }
    let keys : List Setting := [.fastPath, .path]
    (∀ s, Toml.Writes s (Toml.quoteLines s)) ∧ keys.Nodup ∧
      c.textOf Toml.quoteLines keys =
        "fast_path = false\npath = \"\"\"\ndata\nbase\"\"\"\n" ∧
      ofText "fast_path = false\npath = \"\"\"\ndata\nbase\"\"\"\n" =
        .ok { path := some "data\nbase", logLevel := "warn", fastPath := false } := by
  intro c keys
  have hkeys : keys.Nodup := by decide
  have htext : c.textOf Toml.quoteLines keys =
      "fast_path = false\npath = \"\"\"\ndata\nbase\"\"\"\n" := by decide
  have hread := ((settings_kept c).2.2 Toml.quoteLines Toml.writes_quoteLines).2 keys hkeys
  rw [htext] at hread
  exact ⟨Toml.writes_quoteLines, hkeys, htext, hread⟩

end Config

end BoundSql
