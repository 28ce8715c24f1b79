import ChartScript.Config.File
import ChartScript.Proofs.Lens
import Mathlib

/-!
# Settings laid over others

A configuration file overrides what it mentions and nothing else. That is a statement about single
paths, while the sections of the file are merged entry by entry, a whole tree at a time. The two come
together in one law for a setting that is laid over another one
(`ChartScript.Setting.at?_laidOver`): where the upper layer has something, it is laid over what the
lower layer has at the same path; where something that is no section is in the way in the upper layer,
there is nothing; and anywhere else the lower layer shows through. So whether a path is open is decided
by the upper layer alone.

A section stands here for a mapping, which has no key twice, and its keys are names
(`ChartScript.Section.isNamed`). Without that a second entry of a name would be laid over the first one.

The main result is `ChartScript.Config.ofSetting_layered`.
-/

namespace ChartScript

/-! ### Sections with different names -/

mutual

/-- Whether every section of a setting has names as keys, and none of them twice. -/
def Setting.isNamed : Setting → Bool
  | .dict entries => Section.isNamed entries
  | _ => true

/-- Whether the entries of a section have names as keys, and none of them twice, and so on inside. -/
def Section.isNamed : List (Key × Setting) → Bool
  | [] => true
  | (key, d) :: rest =>
    key.isName && (Section.find? key rest).isNone && d.isNamed && Section.isNamed rest

end

variable {d : Setting} {entries base : Section} {name : String} {path : List String}

theorem Section.of_isNamed_cons {key : Key} (h : Section.isNamed ((key, d) :: entries)) :
    ∃ name, key = .name name ∧ Section.find? (.name name) entries = none ∧ d.isNamed ∧
      Section.isNamed entries := by
  simp only [Section.isNamed, Bool.and_eq_true, Option.isNone_iff_eq_none] at h
  obtain ⟨⟨⟨hname, hnew⟩, hd⟩, hrest⟩ := h
  cases key with
  | name name => exact ⟨name, rfl, hnew, hd, hrest⟩
  | null | bool | int | float => cases hname

/-- An entry is what its name leads to. -/
theorem Section.find?_of_mem (h : Section.isNamed entries) :
    ∀ entry ∈ entries, ∃ name, entry.1 = .name name ∧
      Section.find? (.name name) entries = some entry.2 := by
  induction entries with
  | nil => simp
  | cons entry rest ih =>
    obtain ⟨key, d⟩ := entry
    obtain ⟨first, rfl, hnew, -, hrest⟩ := Section.of_isNamed_cons h
    rintro entry (_ | ⟨_, hmem⟩)
    · exact ⟨first, rfl, by simp [Section.find?_cons]⟩
    · obtain ⟨name, hkey, hfound⟩ := ih hrest entry hmem
      refine ⟨name, hkey, ?_⟩
      rw [Section.find?_cons, if_neg, hfound]
      -- the first name does not come again
      rw [Key.same_name, Key.name.injEq]
      rintro rfl
      rw [hnew] at hfound
      cases hfound

theorem Section.isNamed_of_find? (h : Section.isNamed entries)
    (hfound : Section.find? (.name name) entries = some d) : d.isNamed := by
  induction entries with
  | nil => cases hfound
  | cons entry rest ih =>
    obtain ⟨key, e⟩ := entry
    obtain ⟨first, rfl, -, he, hrest⟩ := Section.of_isNamed_cons h
    rw [Section.find?_cons] at hfound
    split at hfound
    · cases hfound
      exact he
    · exact ih hrest hfound

/-! ### Paths, one after the other -/

/-- A path that goes on leads on from where it has come to. -/
theorem Setting.at?_append (d : Setting) (front path : List String) :
    d.at? (front ++ path) = (d.at? front).bind (Setting.at? path) := by
  induction front generalizing d with
  | nil => rfl
  | cons name front ih =>
    cases d with
    | dict entries =>
      rw [List.cons_append, Setting.at?, Setting.at?, Option.bind_assoc]
      exact Option.bind_congr fun next _ => ih next
    | _ => rfl

/-- Something that is in the way of a path leaves nothing at its end. -/
theorem Setting.at?_of_isBlocked (h : d.IsBlocked path) : d.at? path = none := by
  obtain ⟨front, found, ⟨rest, rfl⟩, hne, hat, hfound⟩ := h
  rw [Setting.at?_append, hat, Option.bind_some]
  rcases rest with _ | ⟨name, rest⟩
  · simp at hne
  · cases found with
    | dict => cases hfound
    | _ => rfl

/-! ### Two layers -/

/-- Over nothing, a setting is itself. -/
theorem Setting.laidOver_none (d : Setting) : Setting.laidOver none d = d := by
  cases d <;> rfl

/-- **A name in two layers.** -/
theorem Section.find?_overridden (h : Section.isNamed entries) (base : Section) (name : String) :
    Section.find? (.name name) (Section.overridden base entries) =
      match Section.find? (.name name) entries with
      | none => Section.find? (.name name) base
      | some d => some (Setting.laidOver (Section.find? (.name name) base) d) := by
  induction entries generalizing base with
  | nil => rfl
  | cons entry rest ih =>
    obtain ⟨key, d⟩ := entry
    obtain ⟨first, rfl, hnew, -, hrest⟩ := Section.of_isNamed_cons h
    rw [Section.overridden, ih hrest, Section.find?_cons]
    by_cases hfirst : first = name
    · subst hfirst
      simp [hnew]
    · simp [hfirst, Section.find?_bind_of_ne]

/-- The first step of a path in two layers, of which the lower one may be missing. -/
theorem Setting.at?_laidOver_cons (h : Section.isNamed entries) (old : Option Setting) :
    (Setting.laidOver old (.dict entries)).at? (name :: path) =
      match Section.find? (.name name) entries with
      | none => old.bind (Setting.at? (name :: path))
      | some d => (Setting.laidOver (old.bind (Setting.at? [name])) d).at? path := by
  rcases old with _ | (_ | _ | _ | _ | _ | _ | sub)
  case some.dict =>
    have hone : (some (Setting.dict sub)).bind (Setting.at? [name]) =
        Section.find? (.name name) sub := by
      rw [Option.bind_some, Setting.at?]
      exact Option.bind_fun_some _
    rw [Setting.laidOver, Setting.at?, Section.find?_overridden h, hone]
    rcases Section.find? (.name name) entries with _ | d <;> rfl
  all_goals
    -- there is no section below, so the upper layer stands for itself
    rw [Setting.laidOver, Setting.at?]
    · rcases Section.find? (.name name) entries with _ | d
      · rfl
      · exact congrArg (Setting.at? path) (Setting.laidOver_none d).symm
    · simp

/-- **A path in two layers.** -/
theorem Setting.at?_laidOver (h : d.isNamed) (old : Option Setting) (path : List String) :
    match d.at? path with
    | some found =>
      (Setting.laidOver old d).at? path =
        some (Setting.laidOver (old.bind (Setting.at? path)) found)
    | none =>
      (d.IsBlocked path → (Setting.laidOver old d).at? path = none) ∧
      (¬ d.IsBlocked path → (Setting.laidOver old d).at? path = old.bind (Setting.at? path)) := by
  induction path generalizing d old with
  | nil =>
    have hold : old.bind (Setting.at? []) = old := Option.bind_fun_some old
    show some (Setting.laidOver old d) = some (Setting.laidOver (old.bind (Setting.at? [])) d)
    rw [hold]
  | cons name path ih =>
    cases d with
    | dict entries =>
      have hn : Section.isNamed entries := h
      rw [Setting.at?_laidOver_cons hn, Setting.isBlocked_cons, Setting.at?, Section.opened]
      rcases hfound : Section.find? (.name name) entries with _ | next
      · exact ⟨fun hblocked => absurd hblocked (Setting.not_isBlocked_empty path), fun _ => rfl⟩
      · have hpath : (old.bind (Setting.at? [name])).bind (Setting.at? path) =
            old.bind (Setting.at? (name :: path)) := by
          rw [Option.bind_assoc]
          exact Option.bind_congr fun d _ => (Setting.at?_append d [name] path).symm
        have hnext := ih (Section.isNamed_of_find? hn hfound) (old.bind (Setting.at? [name]))
        rwa [hpath] at hnext
    | null | bool | int | float | text | list =>
      exact ⟨fun _ => rfl, fun hfree =>
        absurd (Setting.isBlocked_of_not_isSection rfl (List.cons_ne_nil _ _)) hfree⟩

/-! ### The same layer twice -/

/-- Laying a section over another one makes no difference if none of its entries does. -/
theorem Section.overridden_eq_self (hentries : ∀ entry ∈ entries, ∃ name found,
      entry.1 = .name name ∧ Section.find? (.name name) base = some found ∧
        Setting.laidOver (some found) entry.2 = found) :
    Section.overridden base entries = base := by
  induction entries with
  | nil => rfl
  | cons entry rest ih =>
    obtain ⟨key, d⟩ := entry
    obtain ⟨⟨name, found, hkey, hfound, hsame⟩, hrest⟩ := List.forall_mem_cons.1 hentries
    cases hkey
    rw [Section.overridden, hfound, hsame, Section.bind_found hfound, ih hrest]

/-- Laying a section over another one a second time makes no difference if that is so for each of its
entries. -/
theorem Section.overridden_overridden (h : Section.isNamed entries) (base : Section)
    (hentries : ∀ entry ∈ entries, ∀ old,
      Setting.laidOver (some (Setting.laidOver old entry.2)) entry.2 =
        Setting.laidOver old entry.2) :
    Section.overridden (Section.overridden base entries) entries =
      Section.overridden base entries := by
  refine Section.overridden_eq_self fun entry hmem => ?_
  obtain ⟨name, hkey, hfound⟩ := Section.find?_of_mem h entry hmem
  refine ⟨name, _, hkey, ?_, hentries entry hmem (Section.find? (.name name) base)⟩
  rw [Section.find?_overridden h, hfound]

mutual

/-- **Laying a setting over another one a second time makes no difference.** -/
theorem Setting.laidOver_laidOver : (d : Setting) → d.isNamed → ∀ old,
    Setting.laidOver (some (Setting.laidOver old d)) d = Setting.laidOver old d
  | .null, _, _ | .bool _, _, _ | .int _, _, _ | .float _, _, _ | .text _, _, _ | .list _, _, _ =>
    rfl
  | .dict entries, h, old => by
    have hentries := Section.laidOver_laidOver entries h
    rcases old with _ | (_ | _ | _ | _ | _ | _ | sub)
    case some.dict =>
      exact congrArg Setting.dict (Section.overridden_overridden h sub hentries)
    all_goals
      -- the section came as it is, and now it is laid over itself
      refine congrArg Setting.dict (Section.overridden_eq_self fun entry hmem => ?_)
      obtain ⟨name, hkey, hfound⟩ := Section.find?_of_mem h entry hmem
      have hsame := hentries entry hmem none
      rw [Setting.laidOver_none] at hsame
      exact ⟨name, entry.2, hkey, hfound, hsame⟩

/-- No entry of a section makes a difference the second time. -/
theorem Section.laidOver_laidOver : (entries : List (Key × Setting)) → Section.isNamed entries →
    ∀ entry ∈ entries, ∀ old, Setting.laidOver (some (Setting.laidOver old entry.2)) entry.2 =
      Setting.laidOver old entry.2
  | [], _ => by simp
  | (key, d) :: rest, h => by
    obtain ⟨name, -, -, hd, hrest⟩ := Section.of_isNamed_cons h
    exact List.forall_mem_cons.2
      ⟨Setting.laidOver_laidOver d hd, Section.laidOver_laidOver rest hrest⟩

end

/-! ### Configurations -/

/-- **What the keys of a configuration read as** that is another one with a section laid over it. -/
structure Config.Layered (below : Config) (entries : Section) (c : Config) : Prop where
  /-- What is bound to something that is no section reads as that, unless that is no value. -/
  leaf : ∀ key fallback found, (Setting.dict entries).at? (Text.pathSegments key) = some found →
    found.isSection = false → c.get key fallback = match found with | .null => fallback | d => d
  /-- Behind something that is no section there is nothing. -/
  behind : ∀ key fallback, (Setting.dict entries).IsBlocked (Text.pathSegments key) →
    c.get key fallback = fallback
  /-- What the section does not mention reads as it did. -/
  elsewhere : ∀ key fallback, (Setting.dict entries).at? (Text.pathSegments key) = none →
    ¬ (Setting.dict entries).IsBlocked (Text.pathSegments key) →
      c.get key fallback = below.get key fallback
  /-- What is bound to a section reads as that, laid over the section that was there, if there was
  one. -/
  inside : ∀ key fallback sub,
    (Setting.dict entries).at? (Text.pathSegments key) = some (.dict sub) →
      c.get key fallback = match below.toSetting.at? (Text.pathSegments key) with
        | some (.dict old) => .dict (Section.overridden old sub)
        | _ => .dict sub

theorem Config.layered_overridden (h : Section.isNamed entries) (c : Config) :
    c.Layered entries (c.overridden entries) := by
  have hat : ∀ key, (c.overridden entries).toSetting.at? (Text.pathSegments key) =
      (Setting.laidOver (some c.toSetting) (.dict entries)).at? (Text.pathSegments key) :=
    fun _ => rfl
  have hlaw := fun key => Setting.at?_laidOver (d := .dict entries) h (some c.toSetting)
    (Text.pathSegments key)
  constructor
  case leaf =>
    intro key fallback found hfound hleaf
    have hkey := hlaw key
    rw [hfound] at hkey
    rw [Config.get, hat, hkey]
    cases found with
    | dict sub => cases hleaf
    | _ => rfl
  case behind =>
    intro key fallback hblocked
    have hkey := hlaw key
    rw [Setting.at?_of_isBlocked hblocked] at hkey
    rw [Config.get, hat, hkey.1 hblocked]
  case elsewhere =>
    intro key fallback hnone hfree
    have hkey := hlaw key
    rw [hnone] at hkey
    rw [Config.get, hat, hkey.2 hfree]
    rfl
  case inside =>
    intro key fallback sub hsub
    have hkey := hlaw key
    rw [hsub] at hkey
    rw [Config.get, hat, hkey, Option.bind_some]
    rcases c.toSetting.at? (Text.pathSegments key) with _ | (_ | _ | _ | _ | _ | _ | old) <;> rfl

/-- **A configuration file overrides exactly what it mentions.** A section of different names, and any
text that holds it, makes a configuration. What a key reads as there is decided by the section where it
binds the key or has something that is no section in its way, and is what the standard settings have
anywhere else. The same section laid over it once more changes nothing. -/
theorem Config.ofSetting_layered (h : Section.isNamed entries) :
    ∃ c, Config.ofSetting (.dict entries) = .ok c ∧
      (∀ text, Yaml.read? text = some (.dict entries) → Config.ofText text = .ok c) ∧
      Config.standard.Layered entries c ∧ c.overridden entries = c := by
  refine ⟨Config.standard.overridden entries, rfl, fun text hread => ?_,
    Config.layered_overridden h _, ?_⟩
  · rw [Config.ofText, hread]
    rfl
  · exact congrArg Config.mk
      (Section.overridden_overridden h _ (Section.laidOver_laidOver entries h))

/-- A file that overrides a limit, adds a section and takes another one away. -/
def layeredText : List Char := "runtime:\n  op_limit: 5\n  extra: \x7b\x7d\napp:".toList

/-- What the file holds. -/
def layeredEntries : Section := [
  (.name "runtime", .dict [(.name "op_limit", .int 5), (.name "extra", .dict [])]),
  (.name "app", .null)]

theorem Config.ofSetting_layered_text :
    Section.isNamed layeredEntries = true ∧
    Yaml.read? layeredText = some (.dict layeredEntries) ∧ ∃ c,
      Config.ofText layeredText = .ok c ∧
      c.get "runtime.op_limit" .null = .int 5 ∧ c.get "runtime.series_length" .null = .int 200 ∧
      c.get "runtime.extra" .null = .dict [] ∧ c.get "app.name" (.text "none") = .text "none" ∧
      c.overridden layeredEntries = c := by
  have hnamed : Section.isNamed layeredEntries = true := rfl
  have hread : Yaml.read? layeredText = some (.dict layeredEntries) := by cbv
  have hlimit : Text.pathSegments "runtime.op_limit" = ["runtime", "op_limit"] := by decide
  have hlength : Text.pathSegments "runtime.series_length" = ["runtime", "series_length"] := by
    decide
  have hextra : Text.pathSegments "runtime.extra" = ["runtime", "extra"] := by decide
  have hname : Text.pathSegments "app.name" = ["app", "name"] := by decide
  obtain ⟨c, -, htext, hlayered, hagain⟩ := Config.ofSetting_layered hnamed
  refine ⟨hnamed, hread, c, htext _ hread, ?_, ?_, ?_, ?_, hagain⟩
  · exact hlayered.leaf _ _ (.int 5) (by rw [hlimit]; rfl) rfl
  · rw [hlayered.elsewhere _ _ (by rw [hlength]; rfl) ?_, Config.get, hlength]
    · rfl
    · -- there are sections all the way
      rw [hlength, Setting.isBlocked_cons]
      exact fun hblocked => Setting.not_isBlocked_nil _ (Setting.isBlocked_cons.1 hblocked)
  · rw [hlayered.inside _ _ [] (by rw [hextra]; rfl), hextra]
    rfl
  · refine hlayered.behind _ _ ?_
    rw [hname]
    exact ⟨["app"], .null, ⟨["name"], rfl⟩, by decide, rfl, rfl⟩

end ChartScript
