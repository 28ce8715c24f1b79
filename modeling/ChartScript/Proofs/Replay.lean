import ChartScript.Proofs.StarRuns
import ChartScript.Proofs.Units

/-!
# A unit replays its script

A unit carries a program whose calls go through the star namespace, and runs it in a fresh environment
in which that namespace is bound. The script itself runs in a fresh environment without it. If the
script does not stray, the two runs end alike (`ChartScript.Program.endAlike_of_read`): the unit gives its
program back (`ChartScript.Program.ofUnit?_toUnit`), and the statements run in lockstep
(`ChartScript.Node.Redirectable.runsAlike_run`). A template can tell them apart, as it can name what the
bindings hold (`ChartScript.not_endAlike_template`).
-/

namespace ChartScript

open Syntax
open Grammar (bind_eq_ok)

/-- **A program that a unit can replay.** It does not rebind what the unit relies on, and it does not
tell the star namespace from the names of the host. -/
structure Program.Redirectable (p : Program) : Prop where
  /-- The names of the host that stand in the star namespace stay bound to it. -/
  targets : ∀ a ∈ p.assignments, a.target ∉ keptNames
  /-- No expression means something else behind `star`. -/
  exprs : ∀ a ∈ p.assignments, a.expr.Redirectable

/-- The statements in the star namespace are those of the program, with their calls sent there. -/
theorem assignments_of_toStar {p q : Program} (h : p.toStar = .ok q) :
    q.assignments = p.assignments.map fun a => { a with expr := a.expr.toStar } := by
  obtain ⟨bs, hmap, hq⟩ := bind_eq_ok h
  clear h
  cases hq
  show bs = _
  generalize p.assignments = as at hmap ⊢
  induction as generalizing bs with
  | nil =>
    cases hmap
    rfl
  | cons a as ih =>
    rw [List.mapM_cons] at hmap
    obtain ⟨b, hb, hmap⟩ := bind_eq_ok hmap
    obtain ⟨more, hmore, hmap⟩ := bind_eq_ok hmap
    cases hmap
    rw [Assignment.toStar] at hb
    split at hb
    · cases hb
    · cases hb
      rw [List.map_cons, ih more hmore]

/-- **The run of a script and the run of its unit end alike.** The unit gives back the program with its
calls sent through the star namespace. For any budget and configuration with which the script does not
stray, whatever the methods of plain values come to, both runs complete, or both fail at the same
statement with the same kind of fault. What they leave behind is the same but for the name `star`: the
bindings, the plots, the inputs, the number of operations and the orders and trades. -/
theorem Program.endAlike_of_read {source : String} {p q : Program}
    (hread : Program.read source = .ok p) (hstar : p.toStar = .ok q) (h : p.Redirectable) :
    Program.ofUnit? q.toUnit = some q ∧
      ∀ (methods : PlainMethods) (opLimit : Value) (config : Option Config) (env : Env),
        Env.fresh methods opLimit config = .ok env → p.run.Stays env →
          Assignment.EndAlike p.assignments q.assignments env env.withStar := by
  refine ⟨Program.ofUnit?_toUnit (legible_of_toStar hstar (legible_of_read hread)), ?_⟩
  intro methods opLimit config env hfresh hstays
  refine endAlike_of_forall ?_ (Env.mirrors_withStar hfresh) hstays
  -- every statement and its counterpart run alike, so all of them do
  rw [assignments_of_toStar hstar, List.forall₂_map_right_iff, List.forall₂_same]
  exact fun a ha => (h.exprs a ha).runsAlike_run fun _ => h.targets a ha

/-- A script that calls the host by three of its names. -/
def crossingSource : String := "x = ta.sma(close, 3)\ny = input(5) + x.len\nplot(x - y, title = \"a\")"

/-- The program of that script. -/
def crossingProgram : Program where
  indicators := []
  assignments := [
    { target := "x", expr := .call "ta.sma" [.identifier "close" false, .number (.int 3)] },
    { target := "y"
      expr := .binary "+" (.call "input" [.number (.int 5)]) (.identifier "x.len" false) },
    { target := callTarget
      expr := .call "plot" [.binary "-" (.identifier "x" false) (.identifier "y" false),
        .identifier "title" true, .string (.text "a")] }]

theorem endAlike_crossing : ∃ q env, Program.read crossingSource = .ok crossingProgram ∧
    crossingProgram.toStar = .ok q ∧ Env.fresh PlainMethods.untold .null none = .ok env ∧
      crossingProgram.run.Stays env ∧ Program.ofUnit? q.toUnit = some q ∧
        Assignment.EndAlike crossingProgram.assignments q.assignments env env.withStar := by
  have hread : Program.read crossingSource = .ok crossingProgram := by
    with_unfolding_all rfl
  obtain ⟨q, hq⟩ : ∃ q : Program, q = { crossingProgram with
    assignments := crossingProgram.assignments.map fun a => { a with expr := a.expr.toStar } } :=
    ⟨_, rfl⟩
  have hstar : crossingProgram.toStar = .ok q := by
    rw [hq]
    with_unfolding_all rfl
  have hfresh := Env.fresh_standard .null
  have hstays : crossingProgram.run.Stays (Env.ofBindings (hostBindings (closingPrices 200 100.0 0.5))
      (.ofValue (budgetValue .null none))) := by
    rw [Run.Stays]
    decide +kernel
  have hredirectable : crossingProgram.Redirectable := by
    constructor
    · decide
    · simp only [crossingProgram, List.forall_mem_cons]
      refine ⟨?_, ?_, ?_, by simp⟩
      all_goals
        constructor
        all_goals simp [Node.parts, Node.allParts]
        all_goals decide
  obtain ⟨hunit, hrun⟩ := Program.endAlike_of_read hread hstar hredirectable
  exact ⟨q, _, hread, hstar, hfresh, hstays, hunit,
    hrun PlainMethods.untold .null none _ hfresh hstays⟩

/-- A script that fills in a template with something out of the star namespace. -/
def templateSource : String :=
  "s = \"\x7b0._env.bindings[star][color].red\x7d\"\nx = s.format(input)"

/-- The program of that script. -/
def templateProgram : Program where
  indicators := []
  assignments := [
    { target := "s", expr := .string (.text "\x7b0._env.bindings[star][color].red\x7d") },
    { target := "x", expr := .call "s.format" [.identifier "input" false] }]

/-- The run of that script fails, since nothing is bound to `star`, and the run of its unit completes. -/
theorem not_endAlike_template : ∃ q env, Program.read templateSource = .ok templateProgram ∧
    templateProgram.toStar = .ok q ∧ templateProgram.Redirectable ∧
      Env.fresh PlainMethods.untold .null none = .ok env ∧
      (templateProgram.run.run env).1 = .error (.noKey (some "star")) ∧
      (q.run.run env.withStar).1 = .ok () ∧
      ((q.run.run env.withStar).2.get? "x") = some (.text "rgb(255,0,0)") ∧
      ¬ Assignment.EndAlike templateProgram.assignments q.assignments env env.withStar := by
  have hredirectable : templateProgram.Redirectable := by
    constructor
    · decide
    · simp only [templateProgram, List.forall_mem_cons]
      refine ⟨?_, ?_, by simp⟩
      all_goals
        constructor
        all_goals simp [Node.parts, Node.allParts]
        all_goals decide
  have hfresh := Env.fresh_standard .null
  have hfails : (templateProgram.run.run (Env.ofBindings (hostBindings (closingPrices 200 100.0 0.5))
      (.ofValue (budgetValue .null none)))).1 = .error (.noKey (some "star")) := by
    with_unfolding_all rfl
  have hcompletes : (templateProgram.run.run (Env.ofBindings (hostBindings (closingPrices 200 100.0 0.5))
      (.ofValue (budgetValue .null none))).withStar).1 = .ok () := by
    with_unfolding_all rfl
  refine ⟨templateProgram, _, by with_unfolding_all rfl, by with_unfolding_all rfl, hredirectable,
    hfresh, hfails, hcompletes, by with_unfolding_all rfl, fun h => ?_⟩
  cases h with
  | completes final final' hrun =>
    rw [Program.run, hrun] at hfails
    cases hfails
  | fails place fault fault' final final' hfailsAt hfailsAt' =>
    rw [Program.run, hfailsAt'.run_eq] at hcompletes
    cases hcompletes

end ChartScript
