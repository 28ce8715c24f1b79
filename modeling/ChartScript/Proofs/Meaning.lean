import ChartScript.Proofs.Statements
import ChartScript.Syntax.Source

/-!
# What the statements of the grammar describe

A line of a source gives the grammar at most one statement. What that statement says is a line in the
sense of the line reader (`ChartScript.Grammar.Says`), provided that every number has a value and the
reserved target is not assigned to.

Written as plain data and read back, the statements of a source make up the program of the lines that
they say (`ChartScript.Grammar.programOf_of_says`). And statements that can be written as plain data
say lines (`ChartScript.Grammar.says_of_toDatum?`), so that this is all there is.
-/

namespace ChartScript.Grammar

open Exchange
open ChartScript.Syntax (Line Spells)

/-- **What the statements of a line say.** The expression must not depend on the filler. -/
inductive Says : List Statement → Line → Prop
  /-- No statement says nothing. -/
  | nothing : Says [] .ignored
  /-- An indicator line. -/
  | indicator (text : String) : Says [.indicator text] (.indicator text)
  /-- An assignment. -/
  | assignment (span : Span) {target : String} {expr : Tree} {n : Node} : target ≠ "" →
      target ≠ callTarget → (∀ filler, expr.node? filler = some n) →
      Says [.assignment target expr span] (.statement { target, expr := n })
  /-- A call. -/
  | call (span : Span) {callee : String} {args : List Tree} {n : Node} :
      (∀ filler, (Tree.call callee args span).node? filler = some n) →
      Says [.call callee args span] (.statement { target := callTarget, expr := n })

/-! ### Plain data and back -/

theorem assignmentOf_assignmentDatum {id value : Datum} {target : String} {n : Node}
    (hid : (if id.isTrue then name id else .ok callTarget) = .ok target)
    (hv : nodeOf value = .ok n) (span : Span) :
    assignmentOf (assignmentDatum id value span) = .ok { target, expr := n } := by
  rw [assignmentDatum, nodeDatum]
  generalize hentries : ("type", Datum.text "Assignment") :: [("id", id), ("expr", value)] ++
    [("loc", span.toDatum)] = entries
  have ht : targetOf entries = .ok target := by
    rw [← hentries]
    exact hid
  have he : nodeAt "expr" entries = .ok n := by
    rw [← hentries]
    exact (nodeAt_of_find? rfl).trans hv
  show (targetOf entries >>= fun target => nodeAt "expr" entries >>= fun expr =>
    pure ({ target, expr } : Assignment)) = _
  rw [ht, he]
  rfl

/-- A tree that does not depend on the filler is written and read back as its plain tree. -/
theorem toDatum_of_forall {tree : Tree} {n : Node} (h : ∀ filler, tree.node? filler = some n) :
    ∃ d, tree.toDatum = .ok d ∧ nodeOf d = .ok n := by
  obtain ⟨d, hd⟩ := Tree.toDatum_of_node? (h 0) (h 1)
  exact ⟨d, hd, Tree.nodeOf_toDatum (h 0) hd⟩

/-- The statements of a line, written and read back. -/
theorem Says.toDatum? {group : List Statement} {line : Line} (h : Says group line) :
    ∃ data, group.mapM Statement.toDatum? = .ok data ∧
      (data.filterMap id).mapM assignmentOf = .ok line.statement?.toList ∧
      group.filterMap Statement.indicator? = line.indicator?.toList.map .text := by
  cases h with
  | nothing => exact ⟨[], rfl, rfl, rfl⟩
  | indicator text => exact ⟨[none], rfl, rfl, rfl⟩
  | @assignment span target expr n hne ht hn =>
    obtain ⟨d, hd, hof⟩ := toDatum_of_forall hn
    have hid : (if (Datum.text target).isTrue then name (.text target) else .ok callTarget) =
        .ok target := if_pos (by simpa [Datum.isTrue] using hne)
    refine ⟨[some (assignmentDatum (.text target) d span)], ?_, ?_, rfl⟩
    · have ht' : target ≠ "_call" := ht
      simp only [List.mapM_cons, List.mapM_nil, Statement.toDatum?, hd]
      show (if target = "_call" then _ else _) >>= _ = _
      rw [if_neg ht']
      rfl
    · show [assignmentDatum (.text target) d span].mapM assignmentOf = _
      rw [List.mapM_cons, assignmentOf_assignmentDatum hid hof]
      rfl
  | @call span callee args n hn =>
    obtain ⟨d, hd, hof⟩ := toDatum_of_forall hn
    refine ⟨[some (assignmentDatum .null d span)], ?_, ?_, rfl⟩
    · simp only [List.mapM_cons, List.mapM_nil, Statement.toDatum?, hd]
      rfl
    · show [assignmentDatum .null d span].mapM assignmentOf = _
      rw [List.mapM_cons, assignmentOf_assignmentDatum rfl hof]
      rfl

/-! ### Whole sources -/

/-- The statements of several lines, written and read back. -/
theorem toDatum?_of_says {groups : List (List Statement)} {lines : List Line}
    (h : List.Forall₂ Says groups lines) :
    ∃ data, groups.flatten.mapM Statement.toDatum? = .ok data ∧
      (data.filterMap id).mapM assignmentOf = .ok (lines.filterMap Line.statement?) ∧
      groups.flatten.filterMap Statement.indicator? =
        (lines.filterMap Line.indicator?).map .text := by
  induction h with
  | nil => exact ⟨[], rfl, rfl, rfl⟩
  | @cons group line groups lines hg _ ih =>
    obtain ⟨first, hfirst, hstatement, hindicator⟩ := hg.toDatum?
    obtain ⟨more, hmore, hstatements, hindicators⟩ := ih
    refine ⟨first ++ more, ?_, ?_, ?_⟩
    · rw [List.flatten_cons, List.mapM_append, hfirst, hmore]
      rfl
    · rw [List.filterMap_append, List.mapM_append, hstatement, hstatements]
      cases line <;> rfl
    · rw [List.flatten_cons, List.filterMap_append, hindicator, hindicators]
      cases line <;> rfl

theorem texts_map_text (names : List String) : texts (names.map .text) = .ok names := by
  induction names with
  | nil => rfl
  | cons s names ih =>
    rw [texts] at ih ⊢
    rw [List.map_cons, List.mapM_cons, ih]
    rfl

/-- **The statements of a source describe the program** of the lines that they say. -/
theorem programOf_of_says {groups : List (List Statement)} {lines : List Line}
    (h : List.Forall₂ Says groups lines) (span : Option Span) :
    ∃ d, Script.toDatum { statements := groups.flatten, span } = .ok d ∧
      programOf d = .ok (Program.ofLines lines) := by
  obtain ⟨data, hdata, hstatements, hindicators⟩ := toDatum?_of_says h
  refine ⟨_, by rw [Script.toDatum, hdata]; rfl, ?_⟩
  rw [hindicators, nodeDatum]
  show (((data.filterMap id).mapM assignmentOf) >>= fun assignments =>
    texts ((lines.filterMap Line.indicator?).map .text) >>= fun indicators =>
    pure ({ indicators, assignments } : Program)) = _
  rw [hstatements, texts_map_text]
  rfl

/-- A tree that can be written as plain data does not depend on the filler. -/
theorem forall_of_toDatum {tree : Tree} {d : Datum} {P : Nat → Node → Prop}
    (hd : tree.toDatum = .ok d) (h : ∀ filler, ∃ n, tree.node? filler = some n ∧ P filler n) :
    ∃ n, ∀ filler, tree.node? filler = some n := by
  obtain ⟨n, hn, -⟩ := h 0
  refine ⟨n, fun filler => ?_⟩
  obtain ⟨m, hm, -⟩ := h filler
  -- the data know nothing of the filler
  have heq := (Tree.nodeOf_toDatum hn hd).symm.trans (Tree.nodeOf_toDatum hm hd)
  cases heq
  exact hm

/-- **Statements that can be written as plain data say a line**, unless a name is empty. -/
theorem says_of_toDatum? {words : List Word} {group : List Statement} (h : Gives words group)
    (hd : ∀ statement ∈ group, ∃ d, statement.toDatum? = .ok d)
    (hne : ∀ word ∈ words, word.saying ≠ .name []) : ∃ line, Says group line := by
  cases h with
  | nothing => exact ⟨_, .nothing⟩
  | indicator => exact ⟨_, .indicator _⟩
  | @assignment text s s' span words expr hp hs =>
    obtain ⟨d, hd⟩ := hd _ List.mem_cons_self
    obtain ⟨value, hv, hd⟩ := bind_eq_ok hd
    obtain ⟨n, hn⟩ := forall_of_toDatum hv hs
    refine ⟨_, .assignment span ?_ (fun ht => ?_) hn⟩
    · intro ht
      rw [String.ofList_eq_empty_iff] at ht
      exact hne _ List.mem_cons_self (ht ▸ rfl)
    · -- an assignment to the reserved target is not written
      rw [if_pos (show String.ofList text = "_call" from ht)] at hd
      cases hd
  | @call s s' span saying name words args hn hp hs =>
    obtain ⟨d, hd⟩ := hd _ List.mem_cons_self
    obtain ⟨value, hv, hd⟩ := bind_eq_ok hd
    obtain ⟨n, hn⟩ := forall_of_toDatum hv hs
    exact ⟨_, .call span hn⟩

end ChartScript.Grammar
