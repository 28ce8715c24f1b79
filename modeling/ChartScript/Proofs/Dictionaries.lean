import ChartScript.Data.Canonical
import ChartScript.Proofs.LongSums
import ChartScript.Proofs.Units

/-!
# Programs from plain data

A program that was written as plain data is rebuilt as it was. The other way round, data that describe
a program may hold more than the program: entries that nothing reads, a flag that counts as true and
is not `true`, an order of the entries. What is *kept* (`ChartScript.Exchange.kept`) is what the table
of kinds says (`ChartScript.Exchange.fields?`), and it is what the rebuilt program is written as.

The kinds are looked at from the outside to the inside and from left to right. So the kinds of all nodes
of a tree stand in a row (`ChartScript.Exchange.tags`), and rebuilding fails on the first one that is
not known, whatever comes behind it, and only on such a kind. This is stated once for any piece of data
(`ChartScript.Exchange.Rebuilds`) and holds of the pieces one after another
(`ChartScript.Exchange.Rebuilds.bind`).

All this is up to the bound on nesting, which data of half as many levels keep
(`ChartScript.Exchange.descentProgram_le`). How deep a program goes down that is written and rebuilt is
seen in its trees (`ChartScript.Exchange.descentProgram_toDatum_le_iff`). The main result is
`ChartScript.Program.rebuild_exact`.
-/

namespace ChartScript

namespace Exchange

/-! ### The table of kinds -/

/-- What a field of a node holds. -/
inductive FieldKind where
  /-- Any datum. -/
  | value
  /-- A text. -/
  | name
  /-- A node. -/
  | node
  /-- A list of nodes. -/
  | nodes
  /-- Whether something is so; it may be missing. -/
  | flag

/-- A field of a node: its key and what it holds. -/
abbrev Field := String × FieldKind

/-- The fields of the nodes of a kind, in their order. -/
def fields? : String → Option (List Field)
  | "Number" | "String" => some [("value", .value)]
  | "Identifier" => some [("name", .name), ("keyword", .flag)]
  | "Array" => some [("items", .nodes)]
  | "Index" => some [("target", .node), ("index", .node)]
  | "Unary" => some [("op", .name), ("expr", .node)]
  | "Binary" => some [("op", .name), ("left", .node), ("right", .node)]
  | "Call" => some [("callee", .name), ("args", .nodes)]
  | _ => none

/-- Whether a tag is none of the kinds. -/
def isUnknown : Datum → Bool
  | .text kind => (fields? kind).isNone
  | _ => true

/-- The fields of a node of a known kind; there are none if the kind is not known. -/
def fieldsOf (entries : List (String × Datum)) : List Field :=
  match kindOf entries with
  | .text kind => (fields? kind).getD []
  | _ => []

/-! ### Data that describe a program -/

/-- The nodes that a field holds. -/
def partsIn (entries : List (String × Datum)) : Field → List Datum
  | (key, .node) => (Datum.find? key entries).toList
  | (key, .nodes) =>
    match Datum.find? key entries with
    | some (.list items) => items
    | _ => []
  | _ => []

/-- The entries have a field. -/
def Carries (entries : List (String × Datum)) : Field → Prop
  | (key, .value) | (key, .node) => ∃ d, Datum.find? key entries = some d
  | (key, .name) => ∃ s, Datum.find? key entries = some (.text s)
  | (key, .nodes) => ∃ items, Datum.find? key entries = some (.list items)
  | (_, .flag) => True

/-- **Data that have the shape of a node**: a dictionary with a text as its tag or none. If this is one
of the kinds then the fields of the kind are there, and the nodes in them are of such a shape, too. -/
inductive Shaped : Datum → Prop
  /-- A node and its parts. -/
  | node {entries : List (String × Datum)} :
      (kindOf entries = .null ∨ ∃ kind, kindOf entries = .text kind) →
      (∀ f ∈ fieldsOf entries, Carries entries f) →
      (∀ f ∈ fieldsOf entries, ∀ d ∈ partsIn entries f, Shaped d) → Shaped (.dict entries)

theorem sizeOf_of_mem_partsIn {entries : List (String × Datum)} {f : Field} {d : Datum}
    (h : d ∈ partsIn entries f) : sizeOf d < sizeOf entries := by
  revert h
  fun_cases partsIn entries f with
  | case1 key =>
    intro h
    exact sizeOf_of_find? (Option.mem_toList.1 h)
  | case2 key items hitems =>
    intro h
    have := List.sizeOf_lt_of_mem h
    have := sizeOf_of_find? hitems
    simp only [Datum.list.sizeOf_spec] at this
    omega
  | case3 | case4 => nofun

/-- The tags of a tree, from the outside to the inside and from left to right. -/
def tags (d : Datum) : List Datum :=
  match d with
  | .dict entries =>
    kindOf entries :: (fieldsOf entries).flatMap fun f =>
      (partsIn entries f).attach.flatMap fun ⟨part, _⟩ => tags part
  | _ => []
termination_by sizeOf d
decreasing_by
  rename_i h
  have := sizeOf_of_mem_partsIn h
  simp only [Datum.dict.sizeOf_spec]
  omega

/-- The entry of a field, given what is kept of the nodes in it. A flag is only written where it is
set. -/
def entryOf (entries : List (String × Datum)) (parts : List Datum) : Field → List (String × Datum)
  | (key, .value) | (key, .name) => (Datum.find? key entries).toList.map fun d => (key, d)
  | (key, .node) => parts.map fun d => (key, d)
  | (key, .nodes) => [(key, .list parts)]
  | (key, .flag) =>
    if ((Datum.find? key entries).map Datum.isTrue).getD false then [(key, .bool true)] else []

/-- What is kept of a tree: the tags and the fields of the kinds, in their order. -/
def kept (d : Datum) : Datum :=
  match d with
  | .dict entries =>
    .dict (("type", kindOf entries) :: (fieldsOf entries).flatMap fun f =>
      entryOf entries ((partsIn entries f).attach.map fun ⟨part, _⟩ => kept part) f)
  | d => d
termination_by sizeOf d
decreasing_by
  rename_i h
  have := sizeOf_of_mem_partsIn h
  simp only [Datum.dict.sizeOf_spec]
  omega

/-- The tags of the nodes that a field holds. -/
def tagsIn (entries : List (String × Datum)) (f : Field) : List Datum :=
  (partsIn entries f).flatMap tags

/-- What is kept of a field. -/
def keptIn (entries : List (String × Datum)) (f : Field) : List (String × Datum) :=
  entryOf entries ((partsIn entries f).map kept) f

theorem tags_dict (entries : List (String × Datum)) :
    tags (.dict entries) = kindOf entries :: (fieldsOf entries).flatMap (tagsIn entries) := by
  rw [tags]
  simp only [List.flatMap_subtype, List.unattach_attach]
  rfl

theorem kept_dict (entries : List (String × Datum)) :
    kept (.dict entries) =
      .dict (("type", kindOf entries) :: (fieldsOf entries).flatMap (keptIn entries)) := by
  rw [kept]
  simp only [List.map_subtype, List.unattach_attach]
  rfl

/-! ### Rebuilding one piece after another -/

/-- **What comes of rebuilding pieces of data** whose tags are given: if none of the tags is unknown
then there is a result, and it is good; otherwise the first unknown one is the reason why there is
none. -/
def Rebuilds {α : Type} (outcome : Except ExchangeError α) (tags : List Datum)
    (good : α → Prop) : Prop :=
  match tags.find? isUnknown with
  | some kind => outcome = .error (.unknownKind kind)
  | none => ∃ a, outcome = .ok a ∧ good a

section Rebuilds

variable {α β : Type} {outcome : Except ExchangeError α} {next : α → Except ExchangeError β}
  {ts us : List Datum} {good : α → Prop} {good' : β → Prop} {kind : Datum}

theorem Rebuilds.pure {a : α} (h : good a) : Rebuilds (.ok a) [] good := ⟨a, rfl, h⟩

theorem Rebuilds.imp {good'' : α → Prop} (h : Rebuilds outcome ts good)
    (himp : ∀ a, good a → good'' a) : Rebuilds outcome ts good'' := by
  rw [Rebuilds] at h ⊢
  split at h
  · exact h
  · obtain ⟨a, ha, hgood⟩ := h
    exact ⟨a, ha, himp a hgood⟩

theorem Rebuilds.unknown (h : isUnknown kind) :
    Rebuilds (.error (.unknownKind kind)) (kind :: ts) good := by
  rw [Rebuilds, List.find?_cons_of_pos h]

theorem Rebuilds.known (hk : isUnknown kind = false) (h : Rebuilds outcome ts good) :
    Rebuilds outcome (kind :: ts) good := by
  rwa [Rebuilds, List.find?_cons_of_neg (by simp [hk])]

/-- **One piece after another is rebuilt.** -/
theorem Rebuilds.bind (h : Rebuilds outcome ts good)
    (hnext : ∀ a, good a → Rebuilds (next a) us good') :
    Rebuilds (outcome >>= next) (ts ++ us) good' := by
  rw [Rebuilds, List.find?_append]
  rw [Rebuilds] at h
  rcases hts : ts.find? isUnknown with _ | kind
  · rw [hts] at h
    obtain ⟨a, rfl, ha⟩ := h
    exact hnext a ha
  · rw [hts] at h
    rw [h]
    rfl

/-- What is made of the result is what is made of the whole. -/
theorem Rebuilds.last (h : Rebuilds outcome ts good)
    (hnext : ∀ a, good a → ∃ b, next a = .ok b ∧ good' b) :
    Rebuilds (outcome >>= next) ts good' := by
  rw [← List.append_nil ts]
  refine h.bind fun a ha => ?_
  obtain ⟨b, hb, hgood⟩ := hnext a ha
  rw [hb]
  exact .pure hgood

/-- **Items are rebuilt one by one.** -/
theorem Rebuilds.mapM {read : Datum → Except ExchangeError α} {tagsOf : Datum → List Datum}
    {write : α → Datum} {keptOf : Datum → Datum} {items : List Datum}
    (h : ∀ d ∈ items, Rebuilds (read d) (tagsOf d) fun a => write a = keptOf d) :
    Rebuilds (items.mapM read) (items.flatMap tagsOf) fun as =>
      as.map write = items.map keptOf := by
  induction items with
  | nil => exact .pure rfl
  | cons d items ih =>
    obtain ⟨hd, hitems⟩ := List.forall_mem_cons.1 h
    rw [List.mapM_cons, List.flatMap_cons]
    refine hd.bind fun a ha => (ih hitems).last fun as has => ⟨_, rfl, ?_⟩
    rw [List.map_cons, List.map_cons, ha, has]

end Rebuilds

/-! ### Nodes -/

section Fields

variable {key : String} {entries : List (String × Datum)} {d : Datum}

/-- A node is rebuilt as what is kept of it. -/
def RebuildsNode (d : Datum) : Prop :=
  Rebuilds (Node.ofDatum d) (tags d) fun n => n.toDatum = kept d

theorem rebuilds_value (h : Carries entries (key, .value)) :
    Rebuilds (field key entries) (tagsIn entries (key, .value)) fun d =>
      keptIn entries (key, .value) = [(key, d)] := by
  obtain ⟨d, hd⟩ := h
  rw [field_of_found hd]
  exact .pure (by simp [keptIn, entryOf, hd])

theorem rebuilds_name (h : Carries entries (key, .name)) :
    Rebuilds (field key entries) (tagsIn entries (key, .name)) fun d =>
      ∃ s, d = .text s ∧ keptIn entries (key, .name) = [(key, .text s)] := by
  obtain ⟨s, hs⟩ := h
  rw [field_of_found hs]
  exact .pure ⟨s, rfl, by simp [keptIn, entryOf, hs]⟩

theorem rebuilds_part (h : Carries entries (key, .node))
    (hparts : ∀ d ∈ partsIn entries (key, .node), RebuildsNode d) :
    Rebuilds (Node.ofPart key entries) (tagsIn entries (key, .node)) fun n =>
      keptIn entries (key, .node) = [(key, n.toDatum)] := by
  obtain ⟨d, hd⟩ := h
  have hpart : partsIn entries (key, .node) = [d] := by rw [partsIn, hd]; rfl
  rw [hpart, List.forall_mem_singleton] at hparts
  rw [ofPart_of_found hd, tagsIn, hpart, List.flatMap_singleton]
  refine hparts.imp fun n hn => ?_
  rw [keptIn, hpart, hn]
  rfl

theorem ofData_eq_mapM (items : List Datum) : Node.ofData items = items.mapM Node.ofDatum := by
  induction items with
  | nil => rw [Node.ofData]; rfl
  | cons d items ih => rw [Node.ofData, List.mapM_cons, ih]

theorem rebuilds_items (h : Carries entries (key, .nodes))
    (hparts : ∀ d ∈ partsIn entries (key, .nodes), RebuildsNode d) :
    Rebuilds (Node.ofItems key entries) (tagsIn entries (key, .nodes)) fun ns =>
      keptIn entries (key, .nodes) = [(key, .list (ns.map Node.toDatum))] := by
  obtain ⟨items, hitems⟩ := h
  have hpart : partsIn entries (key, .nodes) = items := by rw [partsIn, hitems]
  rw [hpart] at hparts
  rw [ofItems_of_found hitems, ofData_eq_mapM, tagsIn, hpart]
  refine (Rebuilds.mapM hparts).imp fun ns hns => ?_
  rw [keptIn, hpart, hns]
  rfl

theorem keptIn_flag : keptIn entries (key, .flag) =
    if ((Datum.find? key entries).map Datum.isTrue).getD false then [(key, .bool true)] else [] :=
  rfl

end Fields

/-- **Data of the shape of a node are rebuilt as what is kept of them**, if all kinds are known. -/
theorem Shaped.rebuildsNode {d : Datum} (h : Shaped d) : RebuildsNode d := by
  induction h with
  | @node entries htag hcarries _ ih =>
    rw [RebuildsNode, tags_dict, kept_dict, Node.ofDatum]
    split <;> rename_i hkind
    case h_9 =>
      rcases htag with htag | ⟨kind, htag⟩
      · rw [htag]
        exact .unknown rfl
      · rw [htag]
        refine .unknown ?_
        rw [isUnknown, fields?.eq_def]
        split <;> simp_all
    all_goals
      simp only [fieldsOf, hkind, fields?, Option.getD_some, List.forall_mem_cons,
        List.flatMap_cons, List.flatMap_nil, List.append_nil] at hcarries ih ⊢
      refine .known rfl ?_
    case h_1 | h_2 =>
      refine (rebuilds_value hcarries.1).last fun d hd => ⟨_, rfl, ?_⟩
      simp [Node.toDatum, hd]
    case h_3 =>
      refine (rebuilds_name hcarries.1).last ?_
      rintro _ ⟨s, rfl, hs⟩
      refine ⟨_, rfl, ?_⟩
      simp [Node.toDatum, hs, keptIn_flag]
    case h_4 =>
      refine (rebuilds_items hcarries.1 ih.1).last fun ns hns => ⟨_, rfl, ?_⟩
      simp [Node.toDatum, hns]
    case h_5 =>
      refine (rebuilds_part hcarries.1 ih.1).bind fun t ht => ?_
      refine (rebuilds_part hcarries.2.1 ih.2.1).last fun i hi => ⟨_, rfl, ?_⟩
      simp [Node.toDatum, ht, hi]
    case h_6 =>
      refine (rebuilds_name hcarries.1).bind ?_
      rintro _ ⟨op, rfl, hop⟩
      refine (rebuilds_part hcarries.2.1 ih.2.1).last fun n hn => ⟨_, rfl, ?_⟩
      simp [Node.toDatum, hop, hn]
    case h_7 =>
      refine (rebuilds_name hcarries.1).bind ?_
      rintro _ ⟨op, rfl, hop⟩
      refine (rebuilds_part hcarries.2.1 ih.2.1).bind fun l hl => ?_
      refine (rebuilds_part hcarries.2.2.1 ih.2.2.1).last fun r hr => ⟨_, rfl, ?_⟩
      simp [Node.toDatum, hop, hl, hr]
    case h_8 =>
      refine (rebuilds_name hcarries.1).bind ?_
      rintro _ ⟨callee, rfl, hcallee⟩
      refine (rebuilds_items hcarries.2.1 ih.2.1).last fun ns hns => ⟨_, rfl, ?_⟩
      simp [Node.toDatum, hcallee, hns]

/-! ### Programs -/

/-- Data that have the shape of a statement: a dictionary with a text as its target and an expression
that has the shape of a node. -/
inductive ShapedStatement : Datum → Prop
  /-- A statement and its expression. -/
  | statement {entries : List (String × Datum)} : Carries entries ("id", .name) →
      Carries entries ("expr", .node) → (∀ d ∈ partsIn entries ("expr", .node), Shaped d) →
      ShapedStatement (.dict entries)

/-- Data that have the shape of a program: a dictionary with a list of texts and a list of statements,
each of which may be missing. -/
inductive ShapedProgram : Datum → Prop
  /-- A program and its statements. -/
  | program {entries : List (String × Datum)} :
      (Datum.find? "indicators" entries = none ∨
        ∃ lines : List String,
          Datum.find? "indicators" entries = some (.list (lines.map .text))) →
      (Datum.find? "assignments" entries = none ∨ Carries entries ("assignments", .nodes)) →
      (∀ d ∈ partsIn entries ("assignments", .nodes), ShapedStatement d) →
      ShapedProgram (.dict entries)

/-- The tags in a statement. -/
def statementTags : Datum → List Datum
  | .dict entries => tagsIn entries ("expr", .node)
  | _ => []

/-- What is kept of a statement. -/
def keptStatement : Datum → Datum
  | .dict entries => .dict (keptIn entries ("id", .name) ++ keptIn entries ("expr", .node))
  | d => d

/-- The tags in a program, statement by statement. -/
def programTags : Datum → List Datum
  | .dict entries => (partsIn entries ("assignments", .nodes)).flatMap statementTags
  | _ => []

/-- What is kept of a program. A list that is missing is kept as an empty one. -/
def keptProgram : Datum → Datum
  | .dict entries =>
    .dict [("indicators", .list (partsIn entries ("indicators", .nodes))),
      ("assignments", .list ((partsIn entries ("assignments", .nodes)).map keptStatement))]
  | d => d

theorem ShapedStatement.rebuilds {d : Datum} (h : ShapedStatement d) :
    Rebuilds (Assignment.ofDatum d) (statementTags d) fun a => a.toDatum = keptStatement d := by
  obtain ⟨htarget, hexpr, hparts⟩ := h
  refine (rebuilds_name htarget).bind ?_
  rintro _ ⟨target, rfl, ht⟩
  refine (rebuilds_part hexpr fun d hd => (hparts d hd).rebuildsNode).last fun n hn => ⟨_, rfl, ?_⟩
  simp [Assignment.toDatum, keptStatement, ht, hn]

theorem ofEntry_list (items : List Datum) :
    Assignment.ofEntry (some (.list items)) = items.mapM Assignment.ofDatum := by
  cases items <;> rfl

/-- **Data of the shape of a program are read as what is kept of them**, if all kinds are known. -/
theorem ShapedProgram.rebuilds {d : Datum} (h : ShapedProgram d) :
    Rebuilds (Program.ofDatum d) (programTags d) fun p => p.toDatum = keptProgram d := by
  obtain ⟨hindicators, hassignments, hparts⟩ := h
  rename_i entries
  have hentry : Rebuilds (Assignment.ofEntry (Datum.find? "assignments" entries))
      ((partsIn entries ("assignments", .nodes)).flatMap statementTags) fun as =>
        as.map Assignment.toDatum =
          (partsIn entries ("assignments", .nodes)).map keptStatement := by
    rcases hassignments with hnone | ⟨items, hitems⟩
    · rw [partsIn, hnone]
      exact .pure rfl
    · rw [hitems, ofEntry_list]
      rw [partsIn, hitems] at hparts ⊢
      exact .mapM fun d hd => (hparts d hd).rebuilds
  have hlines : ∃ lines, indicatorLines (Datum.find? "indicators" entries) = .ok lines ∧
      lines.map Datum.text = partsIn entries ("indicators", .nodes) := by
    rcases hindicators with hnone | ⟨lines, hlines⟩
    · exact ⟨[], by rw [hnone]; rfl, by rw [partsIn, hnone]; rfl⟩
    · refine ⟨lines, ?_, by rw [partsIn, hlines]⟩
      rw [hlines, indicatorLines]
      exact mapM_map_eq_ok (fun s => show Exchange.name (.text s) = .ok s from rfl) lines
  obtain ⟨lines, hlines, hkept⟩ := hlines
  refine hentry.last fun as has => ⟨⟨lines, as⟩, ?_, ?_⟩
  · rw [hlines]
    rfl
  · rw [Program.toDatum, has, hkept, keptProgram]

/-! ### How deep reading goes down -/

theorem reached_le {α : Type} (step : Except ExchangeError α) (behind : Nat) :
    reached step behind ≤ behind := by
  cases step with
  | ok => exact le_rfl
  | error => exact Nat.zero_le _

theorem descentPart_of_found {key : String} {entries : List (String × Datum)} {d : Datum}
    (h : Datum.find? key entries = some d) : descentPart key entries = descent d := by
  rw [descentPart]
  split <;> simp_all

theorem levels_of_find? {key : String} {entries : List (String × Datum)} {d : Datum}
    (hkey : Datum.isLocation key = false) (h : Datum.find? key entries = some d) :
    d.levels ≤ Datum.levelsOfEntries entries := by
  induction entries with
  | nil => cases h
  | cons entry entries ih =>
    obtain ⟨other, value⟩ := entry
    rw [Datum.find?_cons] at h
    rw [Datum.levelsOfEntries]
    split at h
    · rename_i heq
      cases h
      cases heq
      rw [if_neg (by simp [hkey])]
      exact le_max_left _ _
    · split
      · exact ih h
      · exact (ih h).trans (le_max_right _ _)

mutual

/-- **Reading goes down two calls for a level of the data.** -/
theorem descent_le (d : Datum) : descent d ≤ 2 * d.levels + 2 := by
  match d with
  | .dict entries =>
    rw [descent, Datum.levels]
    split
    case h_1 =>
      have := descentItems_le "items" rfl entries
      omega
    case h_2 =>
      have := descentPart_le "target" rfl entries
      have := (reached_le (Node.ofPart "target" entries) _).trans
        (descentPart_le "index" rfl entries)
      omega
    case h_3 =>
      have := (reached_le (field "op" entries >>= name) _).trans
        (descentPart_le "expr" rfl entries)
      omega
    case h_4 =>
      have := descentPart_le "left" rfl entries
      have := (reached_le (Node.ofPart "left" entries) _).trans
        (descentPart_le "right" rfl entries)
      have := reached_le (field "op" entries >>= name) (max (descentPart "left" entries)
        (reached (Node.ofPart "left" entries) (descentPart "right" entries)))
      omega
    case h_5 =>
      have := (reached_le (field "callee" entries >>= name) _).trans
        (descentItems_le "args" rfl entries)
      omega
    case h_6 => omega
  | .null | .bool _ | .int _ | .float _ | .text _ | .list _ => simp [descent]
termination_by sizeOf d

/-- The same of the expression of an entry. -/
theorem descentPart_le (key : String) (hkey : Datum.isLocation key = false)
    (entries : List (String × Datum)) :
    descentPart key entries ≤ 2 * Datum.levelsOfEntries entries + 2 := by
  rw [descentPart]
  split <;> rename_i hfind
  · exact Nat.zero_le _
  · have := sizeOf_of_find? hfind
    have := levels_of_find? hkey hfind
    refine (descent_le _).trans ?_
    omega
termination_by sizeOf entries

/-- The same of the expressions of an entry. -/
theorem descentItems_le (key : String) (hkey : Datum.isLocation key = false)
    (entries : List (String × Datum)) :
    descentItems key entries ≤ 2 * Datum.levelsOfEntries entries + 2 := by
  rw [descentItems]
  split
  · rename_i items hfind
    have hsize := sizeOf_of_find? hfind
    have : sizeOf items < sizeOf entries := by
      rw [Datum.list.sizeOf_spec] at hsize
      omega
    have := levels_of_find? hkey hfind
    rw [Datum.levels] at this
    refine (Nat.add_le_add_right (descentAll_le _) 1).trans ?_
    omega
  · exact Nat.le_add_left _ _
termination_by sizeOf entries

/-- The same of several data. -/
theorem descentAll_le (items : List Datum) :
    descentAll items ≤ 2 * Datum.levelsOfItems items + 2 := by
  match items with
  | [] => simp [descentAll]
  | d :: rest =>
    rw [descentAll, Datum.levelsOfItems]
    have := descent_le d
    have := (reached_le (Node.ofDatum d) _).trans (descentAll_le rest)
    omega
termination_by sizeOf items

end

/-- **Rebuilding goes down at most twice as far as the data have levels.** So data that have a
canonical form are not too deep to be rebuilt. -/
theorem descentProgram_le (d : Datum) : descentProgram d ≤ 2 * d.levels := by
  have hstatement : ∀ d, descentStatement d ≤ 2 * d.levels := by
    intro d
    cases d with
    | dict entries =>
      rw [Datum.levels]
      exact (reached_le _ _).trans (descentPart_le "expr" rfl entries)
    | _ => exact Nat.zero_le _
  have hstatements : ∀ items, descentStatements items ≤ 2 * Datum.levelsOfItems items := by
    intro items
    induction items with
    | nil => exact Nat.zero_le _
    | cons d items ih =>
      rw [descentStatements, Datum.levelsOfItems]
      have := hstatement d
      have := (reached_le (Assignment.ofDatum d) _).trans ih
      omega
  fun_cases descentProgram d with
  | case1 entries items hitems =>
    have := levels_of_find? (by rfl) hitems
    have := hstatements items
    simp only [Datum.levels] at *
    omega
  | case2 | case3 => exact Nat.zero_le _

/-! ### How deep rebuilding a tree goes down -/

end Exchange

/-- Going down to rebuild an expression: a node is told from others in one call and built in another, and
items and arguments are gone through in a third. -/
def Node.Descent.rebuilding : Node.Descent where
  leaf := 2
  item := 3
  target := 2
  position := 2
  operand := 2
  argument := 3

namespace Exchange

theorem descentItems_of_found {key : String} {entries : List (String × Datum)} {items : List Datum}
    (h : Datum.find? key entries = some (.list items)) :
    descentItems key entries = descentAll items + 1 := by
  rw [descentItems]
  split <;> simp_all

theorem descentAll_map {nodes : List Node}
    (h : ∀ t ∈ nodes, descent t.toDatum = t.depth .rebuilding) :
    descentAll (nodes.map Node.toDatum) = Node.depthAll .rebuilding nodes := by
  induction nodes with
  | nil => rw [List.map_nil, descentAll, Node.depthAll]
  | cons t nodes ih =>
    obtain ⟨ht, h⟩ := List.forall_mem_cons.1 h
    rw [List.map_cons, descentAll, Node.ofDatum_toDatum, reached, Node.depthAll, ht, ih h]

/-- **Reading what a tree was written as goes down into the tree.** -/
theorem descent_toDatum (node : Node) : descent node.toDatum = node.depth .rebuilding := by
  have hname : ∀ (key s : String) (entries : List (String × Datum)),
      Datum.find? key entries = some (.text s) → (field key entries >>= name) = .ok s :=
    fun key s entries h => by rw [field_of_found h]; rfl
  induction node using Node.induct with
  | number value | string value | identifier s marker =>
    rw [Node.toDatum, descent]
    simp only [List.cons_append, kindOf_here, Node.depth]
    rfl
  | array items ih =>
    rw [Node.toDatum, descent, Node.toData_eq_map]
    simp only [kindOf_here]
    rw [descentItems_of_found (find?_further (by decide) find?_here), descentAll_map ih, Node.depth]
    rfl
  | index target position iht ihp =>
    rw [Node.toDatum, descent]
    simp only [kindOf_here]
    rw [descentPart_of_found (find?_further (by decide) find?_here), iht,
      ofPart_of_found (find?_further (by decide) find?_here), Node.ofDatum_toDatum, reached,
      descentPart_of_found (find?_further (by decide) (find?_further (by decide) find?_here)), ihp,
      Node.depth]
    exact (Nat.add_max_add_right _ _ _).symm
  | unary op operand ih =>
    rw [Node.toDatum, descent]
    simp only [kindOf_here]
    rw [hname _ op _ (find?_further (by decide) find?_here), reached,
      descentPart_of_found (find?_further (by decide) (find?_further (by decide) find?_here)), ih,
      Node.depth]
    rfl
  | binary op left right ihl ihr =>
    rw [Node.toDatum, descent]
    simp only [kindOf_here]
    rw [hname _ op _ (find?_further (by decide) find?_here), reached,
      descentPart_of_found (find?_further (by decide) (find?_further (by decide) find?_here)), ihl,
      ofPart_of_found (find?_further (by decide) (find?_further (by decide) find?_here)),
      Node.ofDatum_toDatum, reached,
      descentPart_of_found (find?_further (by decide) (find?_further (by decide)
        (find?_further (by decide) find?_here))), ihr, Node.depth]
    rfl
  | call callee args ih =>
    rw [Node.toDatum, descent, Node.toData_eq_map]
    simp only [kindOf_here]
    rw [hname _ callee _ (find?_further (by decide) find?_here), reached,
      descentItems_of_found (find?_further (by decide) (find?_further (by decide) find?_here)),
      descentAll_map ih, Node.depth]
    rfl

/-- **Rebuilding a program goes down into its statements**, each for itself. -/
theorem descentProgram_toDatum_le_iff (p : Program) {limit : Nat} :
    descentProgram p.toDatum ≤ limit ↔
      ∀ a ∈ p.assignments, a.expr.depth .rebuilding ≤ limit := by
  have hstatement : ∀ a : Assignment, descentStatement a.toDatum = a.expr.depth .rebuilding := by
    intro a
    rw [Assignment.toDatum, descentStatement, field_of_found find?_here,
      descentPart_of_found (find?_further (by decide) find?_here), descent_toDatum]
    rfl
  have hfound : Datum.find? "assignments" [("indicators", Datum.list (p.indicators.map .text)),
      ("assignments", .list (p.assignments.map Assignment.toDatum))] =
        some (.list (p.assignments.map Assignment.toDatum)) :=
    find?_further (by decide) find?_here
  rw [Program.toDatum, descentProgram, hfound]
  show descentStatements _ ≤ limit ↔ _
  generalize p.assignments = as
  induction as with
  | nil => simp [descentStatements]
  | cons a as ih =>
    rw [List.map_cons, descentStatements, hstatement, Assignment.ofDatum_toDatum, reached,
      Nat.max_le, ih, List.forall_mem_cons]

end Exchange

open Exchange
open Syntax (depthLimit)

/-- **Programs and their plain data are inverse**, up to the bound on nesting. A program is rebuilt as
it was. And data that have the shape of a program are rebuilt unless some kind is not known: what fails
is the first such kind, and what is rebuilt is written as what is kept of the data. -/
theorem Program.rebuild_exact :
    (∀ p : Program, descentProgram p.toDatum ≤ depthLimit → Program.rebuild p.toDatum = .ok p) ∧
    ∀ d, ShapedProgram d → descentProgram d ≤ depthLimit →
      match (programTags d).find? isUnknown with
      | some kind => Program.rebuild d = .error (.malformed (.unknownKind kind))
      | none => ∃ p, Program.rebuild d = .ok p ∧ p.toDatum = keptProgram d := by
  refine ⟨fun p hp => ?_, fun d hd hshallow => ?_⟩
  · rw [Program.rebuild, if_pos hp, p.ofDatum_toDatum]
    rfl
  · have hrebuilds := hd.rebuilds
    rw [Program.rebuild, if_pos hshallow]
    rw [Rebuilds] at hrebuilds
    split at hrebuilds
    · rw [hrebuilds]
      rfl
    · obtain ⟨p, hp, hkept⟩ := hrebuilds
      refine ⟨p, ?_, hkept⟩
      rw [hp]
      rfl

/-- A call with a note on its place, of a marker whose flag is a text and of an argument without items
that is of the given kind. -/
def callData (kind : String) : Datum :=
  .dict [("assignments", .list [.dict [("expr", .dict [
    ("args", .list [.dict [("keyword", .text "yes"), ("name", .text "t"), ("type", .text "Identifier")],
      .dict [("type", .text kind), ("items", .list [])]]),
    ("callee", .text "f"), ("type", .text "Call"), ("loc", .int 3)]), ("id", .text "_call")]])]

theorem shaped_callData {kind : String} (h : kind = "Array" ∨ kind = "Tuple") :
    ShapedProgram (callData kind) := by
  have hmarker : Shaped (.dict [("keyword", .text "yes"), ("name", .text "t"),
      ("type", .text "Identifier")]) := by
    refine .node (.inr ⟨_, rfl⟩) ?_ ?_
    · show ∀ f ∈ [("name", FieldKind.name), ("keyword", .flag)], Carries _ f
      simp [Carries, Datum.find?]
    · show ∀ f ∈ [("name", FieldKind.name), ("keyword", .flag)], ∀ d ∈ partsIn _ f, Shaped d
      simp [partsIn]
  have hargument : Shaped (.dict [("type", .text kind), ("items", .list [])]) := by
    refine .node (.inr ⟨_, rfl⟩) ?_ ?_ <;> rcases h with rfl | rfl <;>
      simp [fieldsOf, kindOf, fields?, Carries, partsIn, Datum.find?]
  refine .program (.inl rfl) (.inr ⟨_, rfl⟩) (List.forall_mem_singleton.2 ?_)
  refine .statement ⟨_, rfl⟩ ⟨_, rfl⟩ (List.forall_mem_singleton.2 ?_)
  refine .node (.inr ⟨_, rfl⟩) ?_ ?_
  · show ∀ f ∈ [("callee", FieldKind.name), ("args", .nodes)], Carries _ f
    simp [Carries, Datum.find?]
  · show ∀ f ∈ [("callee", FieldKind.name), ("args", .nodes)], ∀ d ∈ partsIn _ f, Shaped d
    simp [partsIn, Datum.find?, hmarker, hargument]

theorem programTags_callData {kind : String} (h : kind = "Array" ∨ kind = "Tuple") :
    programTags (callData kind) = [.text "Call", .text "Identifier", .text kind] := by
  rcases h with rfl | rfl <;>
    simp [programTags, callData, partsIn, statementTags, tagsIn, tags_dict, fieldsOf, kindOf, fields?,
      Datum.find?]

/-- The program of such a call. -/
def callProgram : Program :=
  { indicators := [],
    assignments := [⟨"_call", .call "f" [.identifier "t" true, .array []]⟩] }

theorem toDatum_callProgram : callProgram.toDatum =
    .dict [("indicators", .list []), ("assignments", .list [.dict [("id", .text "_call"),
      ("expr", .dict [("type", .text "Call"), ("callee", .text "f"),
        ("args", .list [.dict [("type", .text "Identifier"), ("name", .text "t"),
          ("keyword", .bool true)], .dict [("type", .text "Array"), ("items", .list [])]])])]])] := by
  simp [callProgram, Program.toDatum, Assignment.toDatum, Node.toDatum]

theorem keptProgram_callData : keptProgram (callData "Array") = callProgram.toDatum := by
  rw [toDatum_callProgram]
  simp [keptProgram, callData, partsIn, keptStatement, keptIn, entryOf, kept_dict, fieldsOf, kindOf,
    fields?, Datum.find?, Datum.isTrue]

theorem Program.eq_of_toDatum_eq {p q : Program} (h : p.toDatum = q.toDatum) : p = q :=
  Except.ok.inj (by rw [← p.ofDatum_toDatum, h, q.ofDatum_toDatum])

theorem Program.rebuild_exact_calls :
    Program.rebuild callProgram.toDatum = .ok callProgram ∧
    Program.rebuild (callData "Array") = .ok callProgram ∧
    Program.rebuild (callData "Tuple") = .error (.malformed (.unknownKind (.text "Tuple"))) := by
  refine ⟨Program.rebuild_exact.1 _ ((descentProgram_le _).trans (by decide)), ?_, ?_⟩
  · have h := Program.rebuild_exact.2 _ (shaped_callData (.inl rfl))
      ((descentProgram_le _).trans (by decide))
    rw [programTags_callData (.inl rfl)] at h
    obtain ⟨p, hrebuild, hkept⟩ := h
    cases Program.eq_of_toDatum_eq (hkept.trans keptProgram_callData)
    exact hrebuild
  · have h := Program.rebuild_exact.2 _ (shaped_callData (.inr rfl))
      ((descentProgram_le _).trans (by decide))
    rwa [programTags_callData (.inr rfl)] at h

/-! ### Where they are not inverse -/

theorem descentProgram_onesProgram (n : Nat) :
    descentProgram (onesProgram n).toDatum ≤ depthLimit ↔ 2 + n * 2 ≤ depthLimit := by
  rw [descentProgram_toDatum_le_iff, onesProgram, List.forall_mem_singleton, Node.depth_ones]
  rfl

/-- A flag that counts as true is written as `true`, and a list that is missing as an empty one. And a
sum of seven hundred ones is not rebuilt. -/
theorem Program.rebuild_not_inverse :
    (∃ p, Program.rebuild (callData "Array") = .ok p ∧ p.toDatum =
      .dict [("indicators", .list []), ("assignments", .list [.dict [("id", .text "_call"),
        ("expr", .dict [("type", .text "Call"), ("callee", .text "f"),
          ("args", .list [.dict [("type", .text "Identifier"), ("name", .text "t"),
            ("keyword", .bool true)], .dict [("type", .text "Array"), ("items", .list [])]])])]])]) ∧
    Program.rebuild (onesProgram 699).toDatum = .error .tooDeep := by
  refine ⟨⟨callProgram, ?_, toDatum_callProgram⟩, ?_⟩
  · have h := (shaped_callData (.inl rfl)).rebuilds
    rw [Rebuilds, programTags_callData (.inl rfl)] at h
    obtain ⟨p, hp, hkept⟩ := h
    cases Program.eq_of_toDatum_eq (hkept.trans keptProgram_callData)
    rw [Program.rebuild, hp, if_pos ((descentProgram_le _).trans (by decide))]
    rfl
  · exact if_neg fun h => absurd ((descentProgram_onesProgram 699).1 h) (by decide)

end ChartScript
