import ChartScript.Proofs.Evaluation
import ChartScript.Proofs.FloatTexts
import ChartScript.Proofs.RoundTrip
import ChartScript.Syntax.Unit

/-!
# Programs in units

A unit carries a program through three writings: the program is written as plain data, the data as
JSON, and the JSON between quotes. Each of them is undone by its reader, so the unit gives the program
back (`ChartScript.Program.ofUnit?_toUnit`).

Plain data holds any program (`ChartScript.Program.ofDatum_toDatum`). JSON does not hold every datum,
but it holds what a program that was read is made of: its integers are literals, and so have no more
digits than are read again.
-/

namespace ChartScript

open Exchange
open Syntax (Legible intNode)

/-! ### Trees as plain data -/

section Entries

variable {key other : String} {d : Datum} {entries : List (String × Datum)}

theorem find?_here : Datum.find? key ((key, d) :: entries) = some d := by
  rw [Datum.find?_cons, if_pos rfl]

theorem find?_further (h : other ≠ key) {found : Datum}
    (hfound : Datum.find? key entries = some found) :
    Datum.find? key ((other, d) :: entries) = some found := by
  rw [Datum.find?_cons, if_neg h, hfound]

/-- The kind of a node is written first. -/
theorem kindOf_here : kindOf (("type", d) :: entries) = d := by
  rw [kindOf, find?_here, Option.getD_some]

theorem field_of_found (h : Datum.find? key entries = some d) : field key entries = .ok d := by
  rw [field, h]

theorem ofPart_of_found (h : Datum.find? key entries = some d) :
    Node.ofPart key entries = Node.ofDatum d := by
  rw [Node.ofPart]
  split
  · rename_i hnone
    rw [h] at hnone
    cases hnone
  · rename_i d' hd
    rw [h] at hd
    cases hd
    rfl

theorem ofItems_of_found {items : List Datum} (h : Datum.find? key entries = some (.list items)) :
    Node.ofItems key entries = Node.ofData items := by
  rw [Node.ofItems]
  split <;> simp_all

end Entries

theorem ofData_map {nodes : List Node} (h : ∀ t ∈ nodes, Node.ofDatum t.toDatum = .ok t) :
    Node.ofData (nodes.map Node.toDatum) = .ok nodes := by
  induction nodes with
  | nil => rw [List.map_nil, Node.ofData]
  | cons node nodes ih =>
    obtain ⟨hnode, hnodes⟩ := List.forall_mem_cons.1 h
    rw [List.map_cons, Node.ofData, hnode, ih hnodes]
    rfl

/-- **A tree is read as it was written.** -/
theorem Node.ofDatum_toDatum (node : Node) : Node.ofDatum node.toDatum = .ok node := by
  induction node using Node.induct with
  | number value | string value =>
    rw [Node.toDatum, Node.ofDatum]
    simp only [kindOf_here]
    rw [field_of_found (find?_further (by decide) find?_here)]
    rfl
  | identifier name marker =>
    rw [Node.toDatum, Node.ofDatum]
    simp only [List.cons_append, List.nil_append, kindOf_here]
    rw [field_of_found (find?_further (by decide) find?_here)]
    cases marker
    · rfl
    · rfl
  | array items ih =>
    rw [Node.toDatum, Node.ofDatum, Node.toData_eq_map]
    simp only [kindOf_here]
    rw [ofItems_of_found (find?_further (by decide) find?_here), ofData_map ih]
    rfl
  | index target position iht ihp =>
    rw [Node.toDatum, Node.ofDatum]
    simp only [kindOf_here]
    rw [ofPart_of_found (find?_further (by decide) find?_here), iht,
      ofPart_of_found (find?_further (by decide) (find?_further (by decide) find?_here)), ihp]
    rfl
  | unary op operand ih =>
    rw [Node.toDatum, Node.ofDatum]
    simp only [kindOf_here]
    rw [field_of_found (find?_further (by decide) find?_here),
      ofPart_of_found (find?_further (by decide) (find?_further (by decide) find?_here)), ih]
    rfl
  | binary op left right ihl ihr =>
    rw [Node.toDatum, Node.ofDatum]
    simp only [kindOf_here]
    rw [field_of_found (find?_further (by decide) find?_here),
      ofPart_of_found (find?_further (by decide) (find?_further (by decide) find?_here)), ihl,
      ofPart_of_found (find?_further (by decide) (find?_further (by decide)
        (find?_further (by decide) find?_here))), ihr]
    rfl
  | call callee args ih =>
    rw [Node.toDatum, Node.ofDatum, Node.toData_eq_map]
    simp only [kindOf_here]
    rw [field_of_found (find?_further (by decide) find?_here),
      ofItems_of_found (find?_further (by decide) (find?_further (by decide) find?_here)),
      ofData_map ih]
    rfl

theorem Assignment.ofDatum_toDatum (a : Assignment) : Assignment.ofDatum a.toDatum = .ok a := by
  rw [Assignment.toDatum, Assignment.ofDatum, field_of_found find?_here,
    ofPart_of_found (find?_further (by decide) find?_here), Node.ofDatum_toDatum]
  rfl

/-- Items that are read one by one as they were written. -/
theorem mapM_map_eq_ok {α β ε : Type} {f : β → Except ε α} {g : α → β} (h : ∀ a, f (g a) = .ok a)
    (as : List α) : (as.map g).mapM f = .ok as :=
  Grammar.mapM_eq_ok_iff.2 (List.forall₂_map_left_iff.2 (List.forall₂_same.2 fun a _ => h a))

/-- **A program is read as it was written.** -/
theorem Program.ofDatum_toDatum (p : Program) : Program.ofDatum p.toDatum = .ok p := by
  have hentry : ∀ as : List Assignment,
      Assignment.ofEntry (some (.list (as.map Assignment.toDatum))) = .ok as := by
    intro as
    cases as with
    | nil => rfl
    | cons a as => exact mapM_map_eq_ok Assignment.ofDatum_toDatum (a :: as)
  have htexts : texts (p.indicators.map .text) = .ok p.indicators :=
    mapM_map_eq_ok (fun s => show Exchange.name (.text s) = .ok s from rfl) p.indicators
  rw [Program.toDatum, Program.ofDatum, find?_further (by decide) find?_here, find?_here, hentry,
    indicatorLines, htexts]
  rfl

/-! ### What programs are made of -/

section Storable

variable {P : Float → Prop}

/-- **A legible tree is stored.** -/
theorem Syntax.Legible.storable {t : Node} (h : Legible P t) : t.toDatum.Storable P := by
  have hlist : ∀ {ts : List Node}, (∀ t ∈ ts, t.toDatum.Storable P) →
      (Datum.list (ts.map Node.toDatum)).Storable P := by
    intro ts hts
    refine .list fun d hd => ?_
    obtain ⟨t, ht, rfl⟩ := List.mem_map.1 hd
    exact hts t ht
  have htwo : ∀ {key : String} {c d : Datum}, "type" ≠ key → c.Storable P → d.Storable P →
      (Datum.dict [("type", c), (key, d)]).Storable P := by
    intro key c d hkey hc hd
    exact .dict (by simpa using hkey) (by simpa using ⟨hc, hd⟩)
  have hbinary : ∀ {op : String} {l r : Node}, l.toDatum.Storable P → r.toDatum.Storable P →
      (Node.binary op l r).toDatum.Storable P := by
    intro op l r hl hr
    rw [Node.toDatum]
    exact .dict (by simp) (by simpa using ⟨.text _, .text _, hl, hr⟩)
  have hmarker : ∀ name, (Node.identifier name true).toDatum.Storable P := by
    intro name
    rw [Node.toDatum]
    exact .dict (by simp) (by simpa using ⟨.text _, .text _, .bool _⟩)
  induction h with
  | int n hn =>
    rw [intNode, Node.toDatum]
    exact htwo (by decide) (.text _) (.int _ (by simpa using hn))
  | float x hx =>
    rw [Node.toDatum]
    exact htwo (by decide) (.text _) (.float _ hx)
  | string s =>
    rw [Node.toDatum]
    exact htwo (by decide) (.text _) (.text _)
  | name _ =>
    rw [Node.toDatum]
    exact htwo (by decide) (.text _) (.text _)
  | array _ ih =>
    rw [Node.toDatum, Node.toData_eq_map]
    exact htwo (by decide) (.text _) (hlist ih)
  | index _ _ ihl ihr =>
    rw [Node.toDatum]
    exact .dict (by simp) (by simpa using ⟨.text _, ihl, ihr⟩)
  | unary _ _ ih =>
    rw [Node.toDatum]
    exact .dict (by simp) (by simpa using ⟨.text _, .text _, ih⟩)
  | sum _ _ _ ihl ihr | product _ _ _ ihl ihr | power _ _ ihl ihr => exact hbinary ihl ihr
  | @call f args _ _ _ _ ihp ihv =>
    have hargs : ∀ t ∈ args, t.toDatum.Storable P := by
      intro t ht
      rcases (Node.mem_of_splitArgs args).2.2 t ht with ht | ⟨entry, hentry, rfl⟩ | ⟨name, rfl⟩
      · exact ihp t ht
      · exact ihv entry hentry
      · exact hmarker name
    rw [Node.toDatum, Node.toData_eq_map]
    exact .dict (by simp) (by simpa using ⟨.text _, .text _, hlist hargs⟩)

/-- **A program of legible statements is stored.** -/
theorem Program.storable {p : Program} (h : ∀ a ∈ p.assignments, Legible P a.expr) :
    p.toDatum.Storable P := by
  have hindicators : (Datum.list (p.indicators.map .text)).Storable P := by
    refine .list fun d hd => ?_
    obtain ⟨s, -, rfl⟩ := List.mem_map.1 hd
    exact .text s
  have hassignments : (Datum.list (p.assignments.map Assignment.toDatum)).Storable P := by
    refine .list fun d hd => ?_
    obtain ⟨a, ha, rfl⟩ := List.mem_map.1 hd
    exact .dict (by simp) (by simpa using ⟨.text _, (h a ha).storable⟩)
  exact .dict (by simp) (by simpa using ⟨hindicators, hassignments⟩)

end Storable

/-- **A unit gives back the plain data that it carries.** -/
theorem Program.unitDatum?_toUnit {p : Program}
    (h : ∀ a ∈ p.assignments, Syntax.LegibleStatement Syntax.IsUnsigned a) :
    Program.unitDatum? p.toUnit = some p.toDatum := by
  have hread : Json.read? (Json.compact p.toDatum) = some p.toDatum :=
    Json.read?_compact (fun _ hx => Json.readsAs_float hx)
      (Program.storable fun a ha => (h a ha).expr)
  rw [Program.unitDatum?, Program.toUnit, List.append_assoc, Syntax.behind?_append]
  simp only [Option.bind_eq_bind, Option.bind_some, Text.unquote?_quoted, if_true, hread]

/-- **The unit of legible statements gives them back.** -/
theorem Program.ofUnit?_toUnit {p : Program}
    (h : ∀ a ∈ p.assignments, Syntax.LegibleStatement Syntax.IsUnsigned a) :
    Program.ofUnit? p.toUnit = some p := by
  rw [Program.ofUnit?, Program.unitDatum?_toUnit h]
  simp only [Option.bind_eq_bind, Option.bind_some, Program.ofDatum_toDatum]
  rfl

end ChartScript
