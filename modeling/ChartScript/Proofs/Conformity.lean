import ChartScript.Conformance
import ChartScript.Proofs.Canonicity
import ChartScript.Proofs.LongSums
import ChartScript.Proofs.Units

/-!
# What a conformance run reports

A conformance run compares canonical forms, and these leave things out. What they leave out are notes on
places and the order of entries, and no tree has any of them: of its parts, its names and its markers
nothing is lost. So two programs are alike if and only if their canonical forms are
(`ChartScript.Program.alike_canonical`), as long as the literals of one of them are no lists or
dictionaries, and the literals of a program that was read are none
(`ChartScript.Program.isScalar_of_read`).

Canonical forms are made up to a bound on nesting. Where the line reader goes beyond it there is no
report at all (`ChartScript.Report.compare_ones`). Where only the reference reader does the sample is
reported, and rightly so, since programs that are alike have as many levels
(`ChartScript.Program.levels_of_alike`).

The main result is `ChartScript.Report.compare_exact`.
-/

namespace ChartScript

open Grammar (bind_eq_ok forall₂_imp_of_mem mapM_eq_ok_iff of_mapM_eq_ok)
open Datum (isScalar keyLe alikeEntries alikeItems canonicalEntries isLocation)

/-! ### Rows -/

section Rows

variable {α : Type} {as bs : List α} {R : α → α → Prop} {write : α → Datum}

/-- Rows are alike where what they are written as is alike one by one. -/
theorem alikeItems_map_iff (h : ∀ a ∈ as, ∀ b, (write a).alike (write b) = true ↔ R a b) :
    alikeItems (as.map write) (bs.map write) = true ↔ List.Forall₂ R as bs := by
  rw [Datum.alikeItems_iff, List.forall₂_map_left_iff, List.forall₂_map_right_iff]
  exact ⟨forall₂_imp_of_mem fun a ha b => (h a ha b).1,
    forall₂_imp_of_mem fun a ha b => (h a ha b).2⟩

theorem levelsOfItems_map_congr
    (h : List.Forall₂ (fun a b => (write b).levels = (write a).levels) as bs) :
    Datum.levelsOfItems (bs.map write) = Datum.levelsOfItems (as.map write) :=
  Datum.levelsOfItems_congr
    (List.forall₂_map_left_iff.2 (List.forall₂_map_right_iff.2 h))

end Rows

/-! ### Literals -/

mutual

/-- The literals of an expression. -/
def Node.literals : Node → List Datum
  | .number value | .string value => [value]
  | .identifier _ _ => []
  | .array items => Node.literalsAll items
  | .index target position => target.literals ++ position.literals
  | .unary _ operand => operand.literals
  | .binary _ left right => left.literals ++ right.literals
  | .call _ args => Node.literalsAll args

/-- The literals of several expressions. -/
def Node.literalsAll : List Node → List Datum
  | [] => []
  | node :: nodes => node.literals ++ Node.literalsAll nodes

end

theorem Node.literalsAll_eq_flatMap (nodes : List Node) :
    Node.literalsAll nodes = nodes.flatMap Node.literals := by
  induction nodes with
  | nil => rfl
  | cons node nodes ih => rw [Node.literalsAll, ih, List.flatMap_cons]

/-- What is true of the literals of several expressions is true of those of each. -/
theorem literals_of_mem {P : Datum → Prop} {nodes : List Node}
    (h : ∀ d ∈ Node.literalsAll nodes, P d) {t : Node} (ht : t ∈ nodes) : ∀ d ∈ t.literals, P d := by
  rw [Node.literalsAll_eq_flatMap] at h
  exact fun d hd => h d (List.mem_flatMap.2 ⟨t, ht, hd⟩)

/-- The literals of a program. -/
def Program.literals (p : Program) : List Datum := p.assignments.flatMap (·.expr.literals)

/-! ### Nodes -/

/-- The kind of a node. -/
def Node.kind : Node → String
  | .number _ => "Number"
  | .string _ => "String"
  | .identifier _ _ => "Identifier"
  | .array _ => "Array"
  | .index _ _ => "Index"
  | .unary _ _ => "Unary"
  | .binary _ _ _ => "Binary"
  | .call _ _ => "Call"

/-- The entries of a node behind its kind, with canonical values. -/
def Node.fields : Node → List (String × Datum)
  | .number value | .string value => [("value", value.canonical)]
  | .identifier name marker =>
    ("name", .text name) :: if marker then [("keyword", .bool true)] else []
  | .array items => [("items", .list (items.map fun t => t.toDatum.canonical))]
  | .index target position =>
    [("target", target.toDatum.canonical), ("index", position.toDatum.canonical)]
  | .unary op operand => [("op", .text op), ("expr", operand.toDatum.canonical)]
  | .binary op left right =>
    [("op", .text op), ("left", left.toDatum.canonical), ("right", right.toDatum.canonical)]
  | .call callee args =>
    [("callee", .text callee), ("args", .list (args.map fun t => t.toDatum.canonical))]

theorem Node.canonical_toDatum (n : Node) :
    n.toDatum.canonical = .dict ((("type", .text n.kind) :: n.fields).mergeSort keyLe) := by
  cases n with
  | identifier name marker =>
    cases marker <;>
      simp [Node.toDatum, Datum.canonical, canonicalEntries, isLocation, Node.kind, Node.fields]
  | _ =>
    simp [Node.toDatum, Datum.canonical, canonicalEntries, isLocation, Node.kind, Node.fields,
      Datum.canonicalItems_eq_map, Function.comp_def]

theorem Node.nodup_fields (n : Node) :
    ((("type", Datum.text n.kind) :: n.fields).map (·.1)).Nodup := by
  cases n with
  | identifier name marker => cases marker <;> simp [Node.fields]
  | _ => simp [Node.fields]

/-- Nodes of different kinds are not alike. -/
theorem Node.not_alike_of_kind_ne {n m : Node} (h : n.kind ≠ m.kind) :
    n.toDatum.canonical.alike m.toDatum.canonical = false := by
  rw [n.canonical_toDatum, m.canonical_toDatum, Datum.alike_mergeSort m.nodup_fields, Datum.alike,
    alikeEntries, Datum.find?_cons, if_pos rfl]
  simp [Datum.alike, h]

/-- Nodes of one kind are alike if their fields are. -/
theorem Node.alike_of_kind_eq {n m : Node} (h : n.kind = m.kind) :
    n.toDatum.canonical.alike m.toDatum.canonical =
      (n.fields.length == m.fields.length && alikeEntries n.fields m.fields) := by
  have hkey := (List.nodup_cons.1 n.nodup_fields).1
  rw [n.canonical_toDatum, m.canonical_toDatum, Datum.alike_mergeSort m.nodup_fields, Datum.alike,
    alikeEntries, Datum.find?_cons, if_pos rfl, Datum.alikeEntries_cons_of_not_mem hkey]
  simp [Datum.alike, h]

theorem Node.alikeAll_iff {items items' : List Node} : Node.alikeAll true items items' = true ↔
    List.Forall₂ (fun t t' : Node => t.alike true t' = true) items items' := by
  induction items generalizing items' with
  | nil => cases items' <;> simp [Node.alikeAll]
  | cons t items ih => cases items' <;> simp [Node.alikeAll, ih]

theorem alikeItems_map {items items' : List Node}
    (h : ∀ t ∈ items, ∀ t' : Node, t.toDatum.canonical.alike t'.toDatum.canonical = t.alike true t') :
    alikeItems (items.map fun t => t.toDatum.canonical) (items'.map fun t => t.toDatum.canonical) =
      Node.alikeAll true items items' := by
  rw [Bool.eq_iff_iff, alikeItems_map_iff fun t ht t' => by rw [h t ht t'], Node.alikeAll_iff]

/-- **Trees are alike if and only if their canonical forms are**, where the literals of one of them are
scalars. -/
theorem Node.alike_canonical {n : Node} (hn : ∀ d ∈ n.literals, d.isScalar) (m : Node) :
    n.toDatum.canonical.alike m.toDatum.canonical = n.alike true m := by
  induction n using Node.induct generalizing m with
  | number value =>
    cases m with
    | number value' =>
      refine Eq.trans (Node.alike_of_kind_eq rfl) ?_
      simp [Node.fields, alikeEntries, Datum.find?_cons, Node.alike,
        Datum.alike_canonical_of_isScalar (hn value (by simp [Node.literals]))]
    | _ => exact Node.not_alike_of_kind_ne (by simp [Node.kind])
  | string value =>
    cases m with
    | string value' =>
      refine Eq.trans (Node.alike_of_kind_eq rfl) ?_
      simp [Node.fields, alikeEntries, Datum.find?_cons, Node.alike,
        Datum.alike_canonical_of_isScalar (hn value (by simp [Node.literals]))]
    | _ => exact Node.not_alike_of_kind_ne (by simp [Node.kind])
  | identifier name marker =>
    cases m with
    | identifier name' marker' =>
      refine Eq.trans (Node.alike_of_kind_eq rfl) ?_
      cases marker <;> cases marker' <;>
        simp [Node.fields, alikeEntries, Datum.find?_cons, Node.alike, Datum.alike]
    | _ => exact Node.not_alike_of_kind_ne (by simp [Node.kind])
  | array items ih =>
    cases m with
    | array items' =>
      refine Eq.trans (Node.alike_of_kind_eq rfl) ?_
      simp [Node.fields, alikeEntries, Datum.find?_cons, Node.alike, Datum.alike,
        alikeItems_map fun t ht => ih t ht (literals_of_mem hn ht)]
    | _ => exact Node.not_alike_of_kind_ne (by simp [Node.kind])
  | index t p iht ihp =>
    cases m with
    | index t' p' =>
      refine Eq.trans (Node.alike_of_kind_eq rfl) ?_
      simp only [Node.literals, List.forall_mem_append] at hn
      simp [Node.fields, alikeEntries, Datum.find?_cons, Node.alike, iht hn.1, ihp hn.2]
    | _ => exact Node.not_alike_of_kind_ne (by simp [Node.kind])
  | unary op e ih =>
    cases m with
    | unary op' e' =>
      refine Eq.trans (Node.alike_of_kind_eq rfl) ?_
      simp [Node.fields, alikeEntries, Datum.find?_cons, Node.alike, Datum.alike, ih hn]
    | _ => exact Node.not_alike_of_kind_ne (by simp [Node.kind])
  | binary op l r ihl ihr =>
    cases m with
    | binary op' l' r' =>
      refine Eq.trans (Node.alike_of_kind_eq rfl) ?_
      simp only [Node.literals, List.forall_mem_append] at hn
      simp [Node.fields, alikeEntries, Datum.find?_cons, Node.alike, Datum.alike, ihl hn.1, ihr hn.2,
        Bool.and_assoc]
    | _ => exact Node.not_alike_of_kind_ne (by simp [Node.kind])
  | call callee args ih =>
    cases m with
    | call callee' args' =>
      refine Eq.trans (Node.alike_of_kind_eq rfl) ?_
      simp [Node.fields, alikeEntries, Datum.find?_cons, Node.alike, Datum.alike,
        alikeItems_map fun t ht => ih t ht (literals_of_mem hn ht)]
    | _ => exact Node.not_alike_of_kind_ne (by simp [Node.kind])

theorem Assignment.alike_canonical {a : Assignment} (ha : ∀ d ∈ a.expr.literals, d.isScalar)
    (b : Assignment) : a.toDatum.canonical.alike b.toDatum.canonical = a.alike true b := by
  have hcanonical : ∀ a : Assignment, a.toDatum.canonical =
      .dict ([("id", .text a.target), ("expr", a.expr.toDatum.canonical)].mergeSort keyLe) := by
    intro a
    simp [Assignment.toDatum, Datum.canonical, canonicalEntries, isLocation]
  rw [hcanonical, hcanonical, Datum.alike_mergeSort (by simp)]
  simp [Datum.alike, alikeEntries, Datum.find?_cons, Assignment.alike, Node.alike_canonical ha]

theorem Assignment.alikeAll_iff {as bs : List Assignment} :
    Assignment.alikeAll true as bs = true ↔
      List.Forall₂ (fun a b : Assignment => a.alike true b = true) as bs := by
  induction as generalizing bs with
  | nil => cases bs <;> simp [Assignment.alikeAll]
  | cons a as ih => cases bs <;> simp [Assignment.alikeAll, ih]

theorem alikeItems_statements {as bs : List Assignment}
    (h : ∀ a ∈ as, ∀ d ∈ a.expr.literals, d.isScalar) :
    alikeItems (as.map fun a => a.toDatum.canonical) (bs.map fun b => b.toDatum.canonical) =
      Assignment.alikeAll true as bs := by
  rw [Bool.eq_iff_iff, Assignment.alikeAll_iff,
    alikeItems_map_iff fun a ha b => by rw [Assignment.alike_canonical (h a ha)]]

theorem alikeItems_texts (lines lines' : List String) :
    alikeItems (lines.map .text) (lines'.map .text) = (lines == lines') := by
  rw [Bool.eq_iff_iff, beq_iff_eq, alikeItems_map_iff fun s _ t => by rw [Datum.alike, beq_iff_eq],
    List.forall₂_eq_eq_eq]

/-- **Programs are alike if and only if their canonical forms are.** -/
theorem Program.alike_canonical {p : Program} (hp : ∀ d ∈ p.literals, d.isScalar) (q : Program) :
    p.canonical.alike q.canonical = p.alike true q := by
  have hcanonical : ∀ p : Program, p.canonical =
      .dict ([("indicators", .list (p.indicators.map .text)),
        ("assignments", .list (p.assignments.map fun a => a.toDatum.canonical))].mergeSort keyLe) := by
    intro p
    simp [Program.canonical, Program.toDatum, Datum.canonical, canonicalEntries, isLocation,
      Datum.canonicalItems_eq_map, Function.comp_def]
  have hliterals : ∀ a ∈ p.assignments, ∀ d ∈ a.expr.literals, d.isScalar :=
    fun a ha d hd => hp d (List.mem_flatMap.2 ⟨a, ha, hd⟩)
  rw [hcanonical, hcanonical, Datum.alike_mergeSort (by simp)]
  simp [Datum.alike, alikeEntries, Datum.find?_cons, Program.alike, alikeItems_texts,
    alikeItems_statements hliterals]

/-! ### Levels -/

/-- **Trees that are alike have as many levels.** -/
theorem Node.levels_of_alike {n m : Node} (hn : ∀ d ∈ n.literals, d.isScalar)
    (h : n.alike true m) : m.toDatum.levels = n.toDatum.levels := by
  induction n using Node.induct generalizing m with
  | number value | string value =>
    cases m <;> simp only [Node.alike, Bool.false_eq_true] at h
    have hlevels := Datum.levels_of_alike_scalar (hn value (by simp [Node.literals])) h
    simp [Node.toDatum, Datum.levels, Datum.levelsOfEntries, isLocation, hlevels]
  | identifier name marker =>
    cases m <;> simp only [Node.alike, Bool.false_eq_true] at h
    rename_i name' marker'
    cases marker <;> cases marker' <;>
      simp [Node.toDatum, Datum.levels, Datum.levelsOfEntries, isLocation]
  | array items ih =>
    cases m <;> simp only [Node.alike, Bool.false_eq_true] at h
    have hlevels := levelsOfItems_map_congr (forall₂_imp_of_mem
      (fun t ht _ => ih t ht (literals_of_mem hn ht)) (Node.alikeAll_iff.1 h))
    simp [Node.toDatum, Datum.levels, Datum.levelsOfEntries, isLocation, hlevels]
  | index t p iht ihp =>
    cases m <;> simp only [Node.alike, Bool.false_eq_true, Bool.and_eq_true] at h
    simp only [Node.literals, List.forall_mem_append] at hn
    simp [Node.toDatum, Datum.levels, Datum.levelsOfEntries, isLocation, iht hn.1 h.1, ihp hn.2 h.2]
  | unary op e ih =>
    cases m <;> simp only [Node.alike, Bool.false_eq_true, Bool.and_eq_true] at h
    simp [Node.toDatum, Datum.levels, Datum.levelsOfEntries, isLocation, ih hn h.2]
  | binary op l r ihl ihr =>
    cases m <;> simp only [Node.alike, Bool.false_eq_true, Bool.and_eq_true] at h
    simp only [Node.literals, List.forall_mem_append] at hn
    simp [Node.toDatum, Datum.levels, Datum.levelsOfEntries, isLocation, ihl hn.1 h.1.2,
      ihr hn.2 h.2]
  | call callee args ih =>
    cases m <;> simp only [Node.alike, Bool.false_eq_true, Bool.and_eq_true] at h
    have hlevels := levelsOfItems_map_congr (forall₂_imp_of_mem
      (fun t ht _ => ih t ht (literals_of_mem hn ht)) (Node.alikeAll_iff.1 h.2))
    simp [Node.toDatum, Datum.levels, Datum.levelsOfEntries, isLocation, hlevels]

theorem Program.levels_of_alike {p q : Program} (hp : ∀ d ∈ p.literals, d.isScalar)
    (h : p.alike true q) : q.toDatum.levels = p.toDatum.levels := by
  rw [Program.alike, Bool.and_eq_true, beq_iff_eq, Assignment.alikeAll_iff] at h
  have hlevels : Datum.levelsOfItems (q.assignments.map Assignment.toDatum) =
      Datum.levelsOfItems (p.assignments.map Assignment.toDatum) := by
    refine levelsOfItems_map_congr (forall₂_imp_of_mem (fun a ha b hab => ?_) h.2)
    rw [Assignment.alike, Bool.and_eq_true] at hab
    have hexpr := Node.levels_of_alike (fun d hd => hp d (List.mem_flatMap.2 ⟨a, ha, hd⟩)) hab.2
    simp [Assignment.toDatum, Datum.levels, Datum.levelsOfEntries, isLocation, hexpr]
  simp [Program.toDatum, Datum.levels, Datum.levelsOfEntries, isLocation, hlevels, h.1]

/-! ### What was read -/

/-- The literals of a legible tree are scalars. -/
theorem Syntax.Legible.isScalar {P : Float → Prop} {t : Node} (h : Syntax.Legible P t) :
    ∀ d ∈ t.literals, d.isScalar := by
  have hall : ∀ {ts : List Node}, (∀ t ∈ ts, ∀ d ∈ t.literals, d.isScalar) →
      ∀ d ∈ Node.literalsAll ts, d.isScalar := by
    intro ts hts d hd
    rw [Node.literalsAll_eq_flatMap] at hd
    obtain ⟨t, ht, hd⟩ := List.mem_flatMap.1 hd
    exact hts t ht d hd
  induction h with
  | int | float | string => exact List.forall_mem_singleton.2 rfl
  | name => exact nofun
  | array _ ih => exact hall ih
  | index _ _ iht ihi => exact List.forall_mem_append.2 ⟨iht, ihi⟩
  | unary _ _ ih => exact ih
  | sum _ _ _ ihl ihr | product _ _ _ ihl ihr | power _ _ ihl ihr =>
    exact List.forall_mem_append.2 ⟨ihl, ihr⟩
  | @call f args _ _ _ _ ihp ihv =>
    refine hall fun t ht => ?_
    rcases (Node.mem_of_splitArgs args).2.2 t ht with ht | ⟨entry, hentry, rfl⟩ | ⟨name, rfl⟩
    · exact ihp t ht
    · exact ihv entry hentry
    · exact nofun

theorem Program.isScalar_of_read {source : String} {p : Program}
    (h : Program.read source = .ok p) : ∀ d ∈ p.literals, d.isScalar := by
  intro d hd
  obtain ⟨a, ha, hd⟩ := List.mem_flatMap.1 hd
  exact (Syntax.legible_of_read h a ha).expr.isScalar d hd

/-! ### Reports -/

/-- Whether the reference reader drifts from the line reader on a sample: it refuses the sample, or it
makes another program of it. -/
def Reference.drifts (reference : Reference) (sample : Sample) : Bool :=
  match Program.read sample.source, reference sample.source with
  | .ok p, .ok q => !p.alike true q
  | _, _ => true

/-- What a report says on a sample on which the readers do not agree: its name, the canonical form of
what the line reader makes of it, and that of what the reference reader makes of it or the reason why
there is none. -/
def Reference.record (reference : Reference) (sample : Sample) : Mismatch where
  name := sample.name
  hand :=
    match Program.read sample.source with
    | .ok p => p.canonical
    | .error _ => .null
  gen :=
    match reference.outcome sample.source with
    | .ok d => d
    | .error message => .dict [("error", .text message)]

/-- A sample whose program has a canonical form. -/
def Sample.IsComparable (sample : Sample) : Prop :=
  ∃ p, Program.read sample.source = .ok p ∧ p.toDatum.levels ≤ Datum.canonicalLimit

section Outcome

variable {reference : Reference} {source : String}

theorem Reference.outcome_of_error {message : String} (h : reference source = .error message) :
    reference.outcome source = .error message := by
  rw [Reference.outcome, h]
  rfl

theorem Reference.outcome_of_ok {q : Program} (h : reference source = .ok q) :
    reference.outcome source =
      match q.canonical? with
      | some d => .ok d
      | none => .error "maximum recursion depth exceeded" := by
  rw [Reference.outcome, h]
  rfl

end Outcome

/-- **A sample is reported if and only if the reference reader drifts on it.** -/
theorem Report.compareOn_eq {reference : Reference} {sample : Sample} (h : sample.IsComparable) :
    Report.compareOn reference sample =
      .ok (if reference.drifts sample then some (reference.record sample) else none) := by
  obtain ⟨p, hp, hlevels⟩ := h
  have hscalar := Program.isScalar_of_read hp
  have hcanonical : p.canonical? = some p.canonical := if_pos hlevels
  have hon : Report.compareOn reference sample =
      .ok (reference.mismatch? sample p.canonical) := by
    simp only [Report.compareOn, hp, hcanonical]
  rw [hon, Reference.mismatch?, Reference.record, Reference.drifts, hp]
  rcases hq : reference sample.source with message | q
  · rw [Reference.outcome_of_error hq]
    rfl
  rw [Reference.outcome_of_ok hq]
  by_cases hlevels' : q.toDatum.levels ≤ Datum.canonicalLimit
  · have hcanonical' : q.canonical? = some q.canonical := if_pos hlevels'
    simp only [hcanonical', Program.alike_canonical hscalar]
    cases p.alike true q <;> rfl
  · -- what is nested too deep is not alike to what is not
    have hcanonical' : q.canonical? = none := if_neg hlevels'
    have halike : p.alike true q = false := by
      rw [Bool.eq_false_iff]
      intro halike
      rw [Program.levels_of_alike hscalar halike] at hlevels'
      exact hlevels' hlevels
    simp only [hcanonical', halike]
    rfl

/-- **A report on samples** that have canonical forms counts them, and records those on which the
reference reader drifts, in their order. -/
theorem Report.compare_eq {reference : Reference} {samples : List Sample}
    (h : ∀ sample ∈ samples, sample.IsComparable) :
    Report.compare reference samples = .ok
      { samples := samples.length,
        mismatches := (samples.filter reference.drifts).map reference.record } := by
  have hrecords : (samples.map fun sample =>
      if reference.drifts sample then some (reference.record sample) else none).filterMap id =
        (samples.filter reference.drifts).map reference.record := by
    rw [List.filterMap_map, ← List.filterMap_eq_map, List.filterMap_filter]
    rfl
  have hsamples : samples.mapM (Report.compareOn reference) = .ok (samples.map fun sample =>
      if reference.drifts sample then some (reference.record sample) else none) :=
    mapM_eq_ok_iff.2 (List.forall₂_map_right_iff.2 (List.forall₂_same.2
      fun sample hs => Report.compareOn_eq (h sample hs)))
  rw [Report.compare, hsamples, ← hrecords]
  rfl

/-- A sample on which a run comes to something has a canonical form. -/
theorem Report.isComparable_of_compareOn {reference : Reference} {sample : Sample}
    {found : Option Mismatch} (h : Report.compareOn reference sample = .ok found) :
    sample.IsComparable := by
  rw [Report.compareOn] at h
  cases hp : Program.read sample.source with
  | error e =>
    rw [hp] at h
    cases h
  | ok p =>
    rw [hp] at h
    cases hc : p.canonical? with
    | none =>
      simp only [hc] at h
      cases h
    | some hand => exact ⟨p, hp, (Datum.of_canonical?_eq_some hc).1⟩

/-- **There is a report** if and only if every sample has a canonical form. -/
theorem Report.exists_compare_iff {reference : Reference} {samples : List Sample} :
    (∃ r, Report.compare reference samples = .ok r) ↔
      ∀ sample ∈ samples, sample.IsComparable := by
  refine ⟨?_, fun h => ⟨_, Report.compare_eq h⟩⟩
  rintro ⟨r, hr⟩ sample hs
  obtain ⟨found, hfound, -⟩ := bind_eq_ok hr
  obtain ⟨m, -, hm⟩ := (of_mapM_eq_ok hfound).1 sample hs
  exact Report.isComparable_of_compareOn hm

/-- **A conformance report is exact**, and there is one if and only if no sample is nested too deep. It
counts the samples and records, in their order, those that the reference reader refuses or makes another
program of; it is fine if and only if there are none. Two programs are the same in this sense, which tells
markers from other names, if and only if their canonical forms are alike. The canonical form is a fixed
point, and entries that locate make no difference to it. -/
theorem Report.compare_exact (reference : Reference) (samples : List Sample) :
    ((∃ r, Report.compare reference samples = .ok r) ↔
      ∀ sample ∈ samples, sample.IsComparable) ∧
    (∀ r, Report.compare reference samples = .ok r →
      r.samples = samples.length ∧
        r.mismatches = (samples.filter reference.drifts).map reference.record ∧
        (r.ok = true ↔ ∀ sample ∈ samples, reference.drifts sample = false)) ∧
    (∀ (p q : Program) (c c' : Datum), (∀ d ∈ p.literals, d.isLiteral) →
      p.canonical? = some c → q.canonical? = some c' →
        (c.alike c' = true ↔ p.alike true q = true)) ∧
    (∀ d c : Datum, d.canonical? = some c → c.canonical? = some c) ∧
    ∀ d d' : Datum, d.unlocated = d'.unlocated → d.canonical? = d'.canonical? := by
  refine ⟨Report.exists_compare_iff, ?_, ?_, fun _ _ => Datum.canonical?_idem,
    fun _ _ => Datum.canonical?_congr⟩
  · intro r hr
    cases (Report.compare_eq (Report.exists_compare_iff.1 ⟨r, hr⟩)).symm.trans hr
    exact ⟨rfl, rfl, by simp [Report.ok]⟩
  · intro p q c c' hp hc hc'
    have hscalar : ∀ d ∈ p.literals, d.isScalar := fun d hd => (Bool.and_eq_true_iff.1 (hp d hd)).1
    rw [(Datum.of_canonical?_eq_some hc).2, (Datum.of_canonical?_eq_some hc').2]
    exact Bool.eq_iff_iff.1 (Program.alike_canonical hscalar q)

/-- A reference reader that reads a single one, takes two ones for a single one, and refuses everything
else. -/
def shortReference : Reference := fun source =>
  if source = onesSource 0 ∨ source = onesSource 1 then .ok (onesProgram 0) else .error "refused"

theorem Report.compare_exact_short : ∃ r, Report.compare shortReference
    [⟨"one", onesSource 0⟩, ⟨"two", onesSource 1⟩, ⟨"three", onesSource 2⟩] = .ok r ∧
      r.samples = 3 ∧ r.mismatches.map (·.name) = ["two", "three"] ∧ r.ok = false := by
  have hcomparable : ∀ sample ∈ [Sample.mk "one" (onesSource 0), ⟨"two", onesSource 1⟩,
      ⟨"three", onesSource 2⟩], sample.IsComparable := by
    simp only [List.forall_mem_cons]
    exact ⟨⟨_, Program.read_ones 0, by decide⟩, ⟨_, Program.read_ones 1, by decide⟩,
      ⟨_, Program.read_ones 2, by decide⟩, nofun⟩
  obtain ⟨hreport, hexact, -⟩ := Report.compare_exact shortReference
    [⟨"one", onesSource 0⟩, ⟨"two", onesSource 1⟩, ⟨"three", onesSource 2⟩]
  obtain ⟨r, hr⟩ := hreport.2 hcomparable
  obtain ⟨hsamples, hmismatches, -⟩ := hexact r hr
  have hone : shortReference.drifts ⟨"one", onesSource 0⟩ = false := by
    rw [Reference.drifts, Program.read_ones]
    rfl
  have htwo : shortReference.drifts ⟨"two", onesSource 1⟩ = true := by
    rw [Reference.drifts, Program.read_ones]
    rfl
  have hthree : shortReference.drifts ⟨"three", onesSource 2⟩ = true := by
    rw [Reference.drifts, Program.read_ones]
    rfl
  have hdrifts : ([Sample.mk "one" (onesSource 0), ⟨"two", onesSource 1⟩,
      ⟨"three", onesSource 2⟩].filter shortReference.drifts) =
        [⟨"two", onesSource 1⟩, ⟨"three", onesSource 2⟩] := by
    simp [hone, htwo, hthree]
  refine ⟨r, hr, hsamples, ?_, ?_⟩
  · rw [hmismatches, hdrifts]
    rfl
  · rw [Report.ok, hmismatches, hdrifts]
    rfl

/-! ### Where there is no report -/

theorem Node.levels_ones (n : Nat) : (ones n).toDatum.levels = n + 1 := by
  induction n with
  | zero => rfl
  | succ n ih =>
    rw [ones, Node.toDatum]
    simp [Datum.levels, Datum.levelsOfEntries, isLocation, ih, Node.toDatum]

theorem Program.levels_ones (n : Nat) : (onesProgram n).toDatum.levels = n + 4 := by
  simp [onesProgram, Program.toDatum, Assignment.toDatum, Datum.levels, Datum.levelsOfEntries,
    Datum.levelsOfItems, isLocation, Node.levels_ones]

/-- **A run ends on a sum that is nested too deep.** -/
theorem Report.compare_ones (reference : Reference) (name : String) {n : Nat}
    (h : Datum.canonicalLimit < n + 4) :
    Report.compare reference [⟨name, onesSource n⟩] = .error .tooDeep := by
  have hcanonical : (onesProgram n).canonical? = none := by
    rw [Program.canonical?, Datum.canonical?, Program.levels_ones, if_neg (by omega)]
  have hon : Report.compareOn reference ⟨name, onesSource n⟩ = .error .tooDeep := by
    rw [Report.compareOn, Program.read_ones]
    simp only [hcanonical]
  rw [Report.compare, List.mapM_cons, hon]
  rfl

/-- A sum of five hundred ones is read, and there is no report on it, whatever the reference reader makes
of it. -/
theorem Report.compare_of_long_sum : Program.read (onesSource 499) = .ok (onesProgram 499) ∧
    Report.compare (fun _ => .ok ⟨[], []⟩) [⟨"sum", onesSource 499⟩] = .error .tooDeep :=
  ⟨Program.read_ones 499, Report.compare_ones _ "sum" (by decide)⟩

end ChartScript
