import ChartScript.Config.Setting
import ChartScript.Text.Split

/-!
# Configurations

A configuration is a tree of named sections and settings. A setting is addressed by a dotted key, of
which every segment but the last names a section.

* `Config.get` reads a setting and falls back to a default where there is none, or no value.
* `Config.set` writes a setting and opens the sections on the way to it. It fails exactly where
  something that is no section is in the way, and then nothing is changed.
* `Config.overridden` lays another tree over a configuration: sections are merged and everything else
  is replaced.
-/

namespace ChartScript

/-- Why a configuration cannot be read, written or set. -/
inductive ConfigError where
  /-- The last section of a key is no section. -/
  | notSection
  /-- A section of a key, and not the last one, is no section. -/
  | notOpenable
  /-- A text is not well-formed. -/
  | malformed
  /-- A text does not hold a section. -/
  | rootNotMapping
  /-- There is no file to write to. -/
  | noFile
deriving DecidableEq

/-- The message of an error, if it has one. -/
def ConfigError.message? : ConfigError → Option String
  | .rootNotMapping => some "Configuration root must be a mapping"
  | .noFile => some "No configuration file to save to"
  | _ => none

/-- What a path of names leads to. -/
def Setting.at? : List String → Setting → Option Setting
  | [], d => some d
  | name :: path, .dict entries => (Section.find? (.name name) entries).bind (at? path)
  | _ :: _, _ => none

/-- A section with a setting put at the end of a path, which has a first name and further ones. -/
def Section.put (d : Setting) (entries : Section) :
    String → List String → Except ConfigError Section
  | name, [] => .ok (Section.bind (.name name) d entries)
  | name, next :: path =>
    match Section.find? (.name name) entries with
    | none => return Section.bind (.name name) (.dict (← put d [] next path)) entries
    | some (.dict sub) => return Section.bind (.name name) (.dict (← put d sub next path)) entries
    | some _ => .error (if path.isEmpty then .notSection else .notOpenable)

mutual

/-- A section with the entries of another laid over it. -/
def Section.overridden (entries : Section) : List (Key × Setting) → Section
  | [] => entries
  | (key, d) :: rest =>
    Section.overridden (Section.bind key (Setting.laidOver (Section.find? key entries) d) entries)
      rest

/-- A setting laid over what was there. -/
def Setting.laidOver (old : Option Setting) : Setting → Setting
  | .dict entries =>
    match old with
    | some (.dict sub) => .dict (Section.overridden sub entries)
    | _ => .dict entries
  | d => d

end

/-- A configuration. -/
structure Config where
  /-- The outermost section. -/
  entries : Section
deriving Inhabited

namespace Config

/-- The settings that hold where no other ones are given. -/
def standard : Config where
  entries := [
    (.name "app", .dict [(.name "name", .text "Star Script"), (.name "log_level", .text "INFO"),
      (.name "log_file", .null)]),
    (.name "runtime", .dict [(.name "op_limit", .int 1000000), (.name "series_length", .int 200),
      (.name "base_price", .float 100.0), (.name "price_step", .float 0.5)]),
    (.name "strategy", .dict [(.name "commission_percent", .float 0.0),
      (.name "default_qty", .int 1)]),
    (.name "conformance", .dict [(.name "fixtures_dir", .text "tests/fixtures"),
      (.name "report_path", .text "parser-diff.json")])]

/-- The configuration as one setting. -/
def toSetting (c : Config) : Setting := .dict c.entries

/-- What a dotted key leads to, or the default if that is nothing or no value. -/
def get (c : Config) (key : String) (default : Setting) : Setting :=
  match c.toSetting.at? (Text.pathSegments key) with
  | none | some .null => default
  | some d => d

/-- The configuration with a setting at a dotted key. -/
def set (c : Config) (key : String) (d : Setting) : Except ConfigError Config :=
  match Text.pathSegments key with
  | [] => .ok c
  | name :: path => return { entries := ← Section.put d c.entries name path }

/-- The configuration with other settings laid over it. -/
def overridden (c : Config) (entries : Section) : Config where
  entries := Section.overridden c.entries entries

/-- The standard settings with those of a section laid over them; a setting that counts as false has
none. -/
def ofSetting (d : Setting) : Except ConfigError Config :=
  match d with
  | .dict entries => .ok (standard.overridden entries)
  | d => if d.isTrue then .error .rootNotMapping else .ok standard

end Config

end ChartScript
