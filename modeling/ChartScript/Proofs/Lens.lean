import ChartScript.Config.Basic

/-!
# Reading what was set

Setting a dotted key and reading it are a lens on the tree of a configuration: what was set is read
back, and nothing else is touched. The exception are two keys of which one is a beginning of the other,
since what the longer one addresses is a part of what the shorter one addresses.

There is one reason why a key cannot be set, and that is something on the way that is no section
(`ChartScript.Setting.IsBlocked`). The absent value is such a thing, though it is read as if there were
nothing. A section that is missing is no reason, because it is opened on the way.

The tree is set in place, and sections are opened before it is known whether the walk comes to its end
(`ChartScript.Config.setInPlace`). That a walk which ends early leaves nothing behind is because behind
a section that was opened nothing is in the way any more. So the two ways to set a key agree
(`ChartScript.Config.setInPlace_eq`), and the main result is `ChartScript.Config.set_lens`.
-/

namespace ChartScript

/-! ### What is in the way -/

/-- Whether a setting is a section. -/
def Setting.isSection : Setting → Bool
  | .dict _ => true
  | _ => false

/-- Something that is no section is in the way of a path: a proper beginning of it leads there. -/
def Setting.IsBlocked (d : Setting) (path : List String) : Prop :=
  ∃ front found, front <+: path ∧ front ≠ path ∧ d.at? front = some found ∧ found.isSection = false

/-- What a name leads to once the section that is missing there is opened. -/
def Section.opened (entries : Section) (name : String) : Setting :=
  (Section.find? (.name name) entries).getD (.dict [])

variable {d : Setting} {entries entries' : Section} {name : String} {path other : List String}

theorem Setting.not_isBlocked_nil (d : Setting) : ¬ d.IsBlocked [] := by
  rintro ⟨front, found, hfront, hne, -⟩
  exact hne (List.prefix_nil.1 hfront)

/-- What is no section is in the way of any further name. -/
theorem Setting.isBlocked_of_not_isSection (h : d.isSection = false) (hp : path ≠ []) :
    d.IsBlocked path :=
  ⟨[], d, List.nil_prefix, hp.symm, rfl, h⟩

theorem Setting.at?_empty (h : path ≠ []) : (Setting.dict []).at? path = none := by
  rcases path with _ | ⟨name, path⟩
  · exact absurd rfl h
  · rfl

/-- Opening a section makes no difference to what is read. -/
theorem Setting.at?_cons (h : path ≠ []) :
    (Setting.dict entries).at? (name :: path) = (Section.opened entries name).at? path := by
  rw [Setting.at?, Section.opened]
  rcases Section.find? (.name name) entries with _ | next
  · exact (Setting.at?_empty h).symm
  · rfl

/-- Nothing is in the way in an empty section. -/
theorem Setting.not_isBlocked_empty (path : List String) : ¬ (Setting.dict []).IsBlocked path := by
  rintro ⟨front, found, -, -, hat, hfound⟩
  rcases front with _ | ⟨first, front⟩
  · cases hat
    cases hfound
  · cases hat

/-- **A section is in nobody's way**, and neither is one that is missing. -/
theorem Setting.isBlocked_cons :
    (Setting.dict entries).IsBlocked (name :: path) ↔
      (Section.opened entries name).IsBlocked path := by
  have hcons : (Setting.dict entries).IsBlocked (name :: path) ↔
      ∃ next, Section.find? (.name name) entries = some next ∧ next.IsBlocked path := by
    constructor
    · rintro ⟨_ | ⟨first, front⟩, found, hfront, hne, hat, hfound⟩
      · cases hat
        cases hfound
      · obtain ⟨rfl, hrest⟩ := List.cons_prefix_cons.1 hfront
        obtain ⟨next, hnext, hat⟩ := Option.bind_eq_some_iff.1 hat
        exact ⟨next, hnext, front, found, hrest, by simpa using hne, hat, hfound⟩
    · rintro ⟨next, hnext, front, found, hfront, hne, hat, hfound⟩
      refine ⟨name :: front, found, List.cons_prefix_cons.2 ⟨rfl, hfront⟩, by simpa using hne, ?_,
        hfound⟩
      rw [Setting.at?, hnext, Option.bind_some, hat]
  rw [hcons, Section.opened]
  rcases Section.find? (.name name) entries with _ | next
  · simpa using Setting.not_isBlocked_empty path
  · simp

/-! ### Putting a setting -/

theorem Section.put_cons (d : Setting) (entries : Section) (name next : String)
    (path : List String) :
    Section.put d entries name (next :: path) =
      match Section.opened entries name with
      | .dict sub => (Section.put d sub next path).map fun sub =>
          Section.bind (.name name) (.dict sub) entries
      | _ => .error (if path.isEmpty then .notSection else .notOpenable) := by
  rw [Section.put, Section.opened]
  rcases Section.find? (.name name) entries with _ | (_ | _ | _ | _ | _ | _ | sub) <;> rfl

/-- **A setting can be put unless something is in the way.** -/
theorem Section.exists_put (d : Setting) (entries : Section) (name : String) (path : List String) :
    (∃ e, Section.put d entries name path = .error e ∧
      (Setting.dict entries).IsBlocked (name :: path)) ∨
    ∃ entries', Section.put d entries name path = .ok entries' ∧
      ¬ (Setting.dict entries).IsBlocked (name :: path) := by
  induction path generalizing entries name with
  | nil =>
    refine .inr ⟨_, rfl, ?_⟩
    rw [Setting.isBlocked_cons]
    exact Setting.not_isBlocked_nil _
  | cons next path ih =>
    rw [Setting.isBlocked_cons, Section.put_cons]
    rcases hopened : Section.opened entries name with _ | _ | _ | _ | _ | _ | sub
    case dict =>
      rcases ih sub next with ⟨e, he, hblocked⟩ | ⟨sub', hsub, hfree⟩
      · exact .inl ⟨e, by simp only [he]; rfl, hblocked⟩
      · exact .inr ⟨_, by simp only [hsub]; rfl, hfree⟩
    all_goals exact .inl ⟨_, rfl, Setting.isBlocked_of_not_isSection rfl (List.cons_ne_nil _ _)⟩

theorem Section.opened_bind_self (name : String) (d : Setting) (entries : Section) :
    Section.opened (Section.bind (.name name) d entries) name = d := by
  rw [Section.opened, Section.find?_bind_self, Option.getD_some]

theorem Section.at?_bind_of_ne {first : String} (h : first ≠ name) (d : Setting)
    (entries : Section) (path : List String) :
    (Setting.dict (Section.bind (.name name) d entries)).at? (first :: path) =
      (Setting.dict entries).at? (first :: path) := by
  rw [Setting.at?, Section.find?_bind_of_ne (by simpa using h.symm), Setting.at?]

/-- How a setting was put: at the end of the path, and behind a longer path in a section. -/
theorem Section.of_put_cons {next : String}
    (h : Section.put d entries name (next :: path) = .ok entries') :
    ∃ sub sub', Section.opened entries name = .dict sub ∧ Section.put d sub next path = .ok sub' ∧
      entries' = Section.bind (.name name) (.dict sub') entries := by
  rw [Section.put_cons] at h
  split at h
  · rename_i sub hopened
    rcases hsub : Section.put d sub next path with e | sub'
    · rw [hsub] at h
      cases h
    · rw [hsub] at h
      cases h
      exact ⟨sub, sub', hopened, hsub, rfl⟩
  · cases h

/-- **What was put is found at its path.** -/
theorem Section.at?_put (h : Section.put d entries name path = .ok entries') :
    (Setting.dict entries').at? (name :: path) = some d := by
  induction path generalizing entries name entries' with
  | nil =>
    cases h
    rw [Setting.at?, Section.find?_bind_self]
    rfl
  | cons next path ih =>
    obtain ⟨sub, sub', -, hsub, rfl⟩ := Section.of_put_cons h
    rw [Setting.at?_cons (List.cons_ne_nil _ _), Section.opened_bind_self, ih hsub]

/-- **Another path leads to what it did before**, unless one of the two goes on where the other one
ends. -/
theorem Section.at?_put_of_apart (h : Section.put d entries name path = .ok entries')
    (hother : ¬ other <+: name :: path) (hpath : ¬ name :: path <+: other) :
    (Setting.dict entries').at? other = (Setting.dict entries).at? other := by
  induction path generalizing entries name entries' other with
  | nil =>
    cases h
    rcases other with _ | ⟨first, other⟩
    · exact absurd List.nil_prefix hother
    · refine Section.at?_bind_of_ne ?_ _ _ _
      rintro rfl
      exact hpath (List.cons_prefix_cons.2 ⟨rfl, List.nil_prefix⟩)
  | cons next path ih =>
    obtain ⟨sub, sub', hopened, hsub, rfl⟩ := Section.of_put_cons h
    rcases other with _ | ⟨first, other⟩
    · exact absurd List.nil_prefix hother
    by_cases hfirst : first = name
    · subst hfirst
      rw [List.cons_prefix_cons, not_and] at hother hpath
      have hne : other ≠ [] := by
        rintro rfl
        exact hother rfl List.nil_prefix
      rw [Setting.at?_cons hne, Setting.at?_cons hne, Section.opened_bind_self, hopened]
      exact ih hsub (hother rfl) (hpath rfl)
    · exact Section.at?_bind_of_ne hfirst _ _ _

/-! ### Setting in place -/

/-- Binding a name to what it is bound to makes no difference. -/
theorem Section.bind_found (h : Section.find? (.name name) entries = some d) :
    Section.bind (.name name) d entries = entries := by
  induction entries with
  | nil => cases h
  | cons entry entries ih =>
    rw [Section.find?_cons] at h
    rw [Section.bind]
    split at h <;> rename_i hkey
    · cases h
      rw [if_pos hkey]
    · rw [if_neg hkey, ih h]

/-- Only the last setting that is bound to a name stays. -/
theorem Section.bind_bind (name : String) (d d' : Setting) (entries : Section) :
    Section.bind (.name name) d' (Section.bind (.name name) d entries) =
      Section.bind (.name name) d' entries := by
  induction entries with
  | nil => simp [Section.bind]
  | cons entry entries ih =>
    by_cases hkey : entry.1.same (.name name) <;> simp [Section.bind, hkey, ih]

/-- Puts a setting at the end of a path by going down the tree, with what becomes of the tree: a section
that is missing is opened before the next name is looked at, and stays where it is if the walk comes to
something that is no section. -/
def Section.putInPlace (d : Setting) (entries : Section) :
    String → List String → Section × Except ConfigError Unit
  | name, [] => (Section.bind (.name name) d entries, .ok ())
  | name, next :: path =>
    let entries :=
      if (Section.find? (.name name) entries).isSome then entries
      else Section.bind (.name name) (.dict []) entries
    match Section.find? (.name name) entries with
    | some (.dict sub) =>
      let (sub, result) := putInPlace d sub next path
      (Section.bind (.name name) (.dict sub) entries, result)
    | _ => (entries, .error (if path.isEmpty then .notSection else .notOpenable))

/-- **A walk that ends early leaves nothing behind.** -/
theorem Section.putInPlace_eq (d : Setting) (entries : Section) (name : String)
    (path : List String) :
    Section.putInPlace d entries name path =
      match Section.put d entries name path with
      | .ok entries' => (entries', .ok ())
      | .error e => (entries, .error e) := by
  induction path generalizing entries name with
  | nil => rfl
  | cons next path ih =>
    rw [Section.putInPlace, Section.put_cons, Section.opened]
    rcases hfound : Section.find? (.name name) entries with _ | (_ | _ | _ | _ | _ | _ | sub)
    case none =>
      -- nothing is in the way in the section that is opened here
      obtain ⟨e, -, hblocked⟩ | ⟨sub, hsub, -⟩ := Section.exists_put d [] next path
      · exact absurd hblocked (Setting.not_isBlocked_empty _)
      · simp [ih, hsub, Except.map, Section.bind_bind]
    case some.dict =>
      rcases hsub : Section.put d sub next path with e | sub'
      · simp [hfound, ih, hsub, Except.map, Section.bind_found hfound]
      · simp [hfound, ih, hsub, Except.map]
    all_goals simp [hfound]

/-- Sets a dotted key in place, with what becomes of the configuration. -/
def Config.setInPlace (c : Config) (key : String) (d : Setting) : Config × Except ConfigError Unit :=
  match Text.pathSegments key with
  | [] => (c, .ok ())
  | name :: path =>
    let (entries, result) := Section.putInPlace d c.entries name path
    ({ entries }, result)

theorem Config.setInPlace_eq (c : Config) (key : String) (d : Setting) :
    c.setInPlace key d =
      match c.set key d with
      | .ok c' => (c', .ok ())
      | .error e => (c, .error e) := by
  rw [Config.setInPlace, Config.set]
  rcases Text.pathSegments key with _ | ⟨name, path⟩
  · rfl
  · simp only [Section.putInPlace_eq]
    rcases Section.put d c.entries name path with e | entries' <;> rfl

/-! ### The lens -/

/-- **Setting and reading are a lens.** A dotted key cannot be set if and only if something that is no
section is in its way, and then the configuration stays as it is. After it was set it reads as what it
was set to, unless that is no value. And any other key reads as before, with any fallback, if neither
of the two is a beginning of the other. -/
theorem Config.set_lens (c : Config) (key : String) (d : Setting) :
    match c.set key d with
    | .error e =>
      c.toSetting.IsBlocked (Text.pathSegments key) ∧ c.setInPlace key d = (c, .error e)
    | .ok c' =>
      ¬ c.toSetting.IsBlocked (Text.pathSegments key) ∧ c.setInPlace key d = (c', .ok ()) ∧
      (∀ fallback, c'.get key fallback = match d with | .null => fallback | d => d) ∧
      ∀ other, ¬ Text.pathSegments other <+: Text.pathSegments key →
        ¬ Text.pathSegments key <+: Text.pathSegments other →
          ∀ fallback, c'.get other fallback = c.get other fallback := by
  rw [Config.setInPlace_eq, Config.set]
  obtain ⟨name, path, hkey⟩ : ∃ name path, Text.pathSegments key = name :: path := by
    refine List.exists_cons_of_ne_nil ?_
    simpa [Text.pathSegments] using Text.split_ne_nil '.' key.toList
  simp only [hkey]
  obtain ⟨e, he, hblocked⟩ | ⟨entries, hput, hfree⟩ := Section.exists_put d c.entries name path
  · rw [he]
    exact ⟨hblocked, rfl⟩
  · rw [hput]
    refine ⟨hfree, rfl, fun fallback => ?_, fun other hother hpath fallback => ?_⟩
    · rw [Config.get, hkey, Config.toSetting, Section.at?_put hput]
      cases d <;> rfl
    · rw [Config.get, Config.get, Config.toSetting, Section.at?_put_of_apart hput hother hpath,
        Config.toSetting]

end ChartScript
