import ChartScript.Proofs.Growth
import ChartScript.Proofs.Metering
import ChartScript.Proofs.RoundTrip
import ChartScript.Proofs.StarRuns

/-!
# Names read back

Only statements bind names. Whatever goes on while an expression is evaluated – counting, calls of the
host, the evaluation of its parts – the names stay as they are (`ChartScript.Continuing`). So a name
that a statement has bound reads back as the value that was bound, from the statement on to the next
one that binds it, between statements as well as inside them (`ChartScript.Assignment.Passes`); and
every other name reads as it did before the statement.

Two kinds of names are taken before the bindings are looked at. The names `true` and `false` are the
truth values, and a name that starts with an underscore never resolves. They may be assigned to like
any other, but the value does not come back (`ChartScript.Value.underName`).
-/

namespace ChartScript

open ChartScript.Text (pathSegments)

/-! ### The states that a run passes -/

/-- The parts of an expression that are evaluated before it, in order. -/
def Node.operands : Node → List Node
  | .number _ | .string _ | .identifier _ _ => []
  | .array items => items
  | .index target position => [target, position]
  | .unary _ operand => [operand]
  | .binary _ left right => [left, right]
  | .call _ args => args

/-- While one expression is evaluated from one state, another one is evaluated from another state. -/
inductive Node.Visits : Node → Env → Node → Env → Prop
  /-- The expression itself. -/
  | self (node : Node) (env : Env) : Node.Visits node env node env
  /-- A part of the expression is evaluated when the node has been counted and the parts before it have
  their values. -/
  | part {node t inner : Node} {before behind : List Node} {env env₁ env₂ now : Env}
      {values : List Value} : node.operands = before ++ t :: behind → tick.run env = (.ok (), env₁) →
      (Node.evalAll levelLimit before).run env₁ = (.ok values, env₂) →
      Node.Visits t env₂ inner now → Node.Visits node env inner now

theorem Node.Visits.bindings {node inner : Node} {env now : Env} (h : node.Visits env inner now) :
    now.bindings = env.bindings := by
  induction h with
  | self => rfl
  | @part node t inner before behind env env₁ env₂ now values _ htick hbefore _ ih =>
    have hcounted := (continuing_tick env).bindings
    have hvalues := (Continuing.evalAll levelLimit before env₁).bindings
    rw [htick] at hcounted
    rw [hbefore] at hvalues
    exact ih.trans (hvalues.trans hcounted)

/-- A statement leaves a name alone: it is a bare call, it binds another name, or it comes to no
value. -/
def Assignment.Leaves (a : Assignment) (name : String) (env : Env) : Prop :=
  a.isCall ∨ a.target ≠ name ∨ ∃ fault, (a.run.run env).1 = .error fault

/-- **The states that statements pass**, one after the other, as long as a name is left alone: the
first state, those inside the first statement and, where it leaves the name alone, those of the
statements behind it. A session goes on behind a statement that failed. -/
inductive Assignment.Passes (name : String) : List Assignment → Env → Env → Prop
  /-- Before the first statement. -/
  | now (rest : List Assignment) (env : Env) : Assignment.Passes name rest env env
  /-- Inside the first statement, where some part of its expression comes to be evaluated. -/
  | within {a : Assignment} {rest : List Assignment} {inner : Node} {env now : Env} :
      a.expr.Visits env inner now → Assignment.Passes name (a :: rest) env now
  /-- Behind the first statement. -/
  | behind {a : Assignment} {rest : List Assignment} {env now : Env} : a.Leaves name env →
      Assignment.Passes name rest (a.run.run env).2 now → Assignment.Passes name (a :: rest) env now

theorem Assignment.Leaves.get? {a : Assignment} {name : String} {env : Env} (h : a.Leaves name env) :
    (a.run.run env).2.get? name = env.get? name := by
  have hkept : ((a.expr.evaluate.run env).2).get? name = env.get? name :=
    congrArg (Datum.find? name) (Continuing.evaluate a.expr env).bindings
  rw [Assignment.Leaves] at h
  rw [Assignment.run, run_bind] at h ⊢
  rcases hrun : a.expr.evaluate.run env with ⟨fault | v, env'⟩
  all_goals rw [hrun] at hkept
  · exact hkept
  · rw [hrun] at h
    simp only [Assignment.store] at h ⊢
    split
    · exact hkept
    · rename_i hcall
      rw [if_neg hcall] at h
      obtain hcall' | hne | ⟨fault, hfault⟩ := h
      · exact absurd hcall' hcall
      · exact (env'.get?_bind_of_ne hne.symm v).trans hkept
      · cases hfault

theorem Assignment.Passes.get? {name : String} {rest : List Assignment} {env now : Env}
    (h : Assignment.Passes name rest env now) : now.get? name = env.get? name := by
  induction h with
  | now => rfl
  | within hvisits => exact congrArg (Datum.find? name) hvisits.bindings
  | behind hleaves _ ih => exact ih.trans hleaves.get?

/-! ### Reading a name -/

/-- What a single name reads as, where it may be bound to a value. -/
def Value.underName (name : String) (bound : Option Value) : Value :=
  if name = "true" then .bool true
  else if name = "false" then .bool false
  else if isHidden name then .unresolved name
  else bound.getD (.unresolved name)

theorem Env.resolve?_single {name : String} (h : pathSegments name = [name]) (env : Env) :
    env.resolve? name = if isHidden name then none else env.get? name := by
  rw [Env.resolve?, Value.resolve?, h, follow?_dict]
  split
  · rfl
  · exact Option.bind_fun_some _

/-- **A single name reads as what it is bound to.** -/
theorem run_name {name : String} (h : pathSegments name = [name]) {env : Env} (hroom : env.HasRoom) :
    (Node.identifier name false).evaluate.run env =
      (.ok (.underName name (env.get? name)), env.counted 1) := by
  rw [Node.evaluate_eq_evaluateDirectly _ _ (.inl (by simp [Node.fits, levelLimit])),
    Node.evaluateDirectly, run_bind_ok (run_tick hroom), identifierValue, Value.underName]
  split
  · rfl
  · split
    · rfl
    · rw [if_neg (by decide), resolved, run_get_bind, Env.lookUp, if_neg (by simp [Env.looksIntoLibrary, h])]
      show (Except.ok (((env.counted 1).resolve? name).getD (.unresolved name)), env.counted 1) = _
      rw [(env.counted 1).resolve?_single h]
      split <;> rfl

/-- What is evaluated to a value has had an operation left for it. -/
theorem Env.hasRoom_of_evaluate {node : Node} {env env' : Env} {v : Value}
    (h : node.evaluate.run env = (.ok v, env')) : env.HasRoom := by
  rcases hb : env.budget.objection? (env.opCount + 1) with _ | fault
  · exact hb
  · rw [node.evaluate_of_objection hb] at h
    cases h

/-! ### Targets -/

/-- A text without a point is one segment. -/
theorem split_of_not_mem {text : List Char} (h : '.' ∉ text) : Text.split '.' text = [text] := by
  induction text with
  | nil => rfl
  | cons c text ih =>
    simp only [List.mem_cons, not_or] at h
    rw [Text.split, if_neg (Ne.symm h.1), ih h.2]

/-- The targets of a program that was read are single names. -/
theorem Program.pathSegments_target {source : String} {p : Program}
    (hread : Program.read source = .ok p) {a : Assignment} (ha : a ∈ p.assignments)
    (hcall : a.isCall = false) : pathSegments a.target = [a.target] := by
  cases Syntax.legible_of_read hread a ha with
  | call => simp [Assignment.isCall] at hcall
  | @assignment target expr _ hleading =>
    have hpoint : '.' ∉ target.toList := by
      rcases htext : target.toList with _ | ⟨c, rest⟩
      · simp
      · rw [htext] at hleading
        obtain ⟨hc, hrest⟩ := Syntax.isLeading_cons.1 hleading
        rintro (_ | _)
        · exact absurd hc (by decide)
        · rename_i hmem
          exact absurd (hrest _ hmem) (by decide)
    show pathSegments target = [target]
    rw [pathSegments, split_of_not_mem hpoint, List.map_singleton, String.ofList_toList]

/-- **A name reads back as what was assigned to it**, up to the next statement that binds it, and all
other names read as before the assignment. -/
theorem Program.reads_back {source : String} {p : Program} (hread : Program.read source = .ok p)
    {a : Assignment} (ha : a ∈ p.assignments) (hcall : a.isCall = false) {env env' : Env} {v : Value}
    (hv : a.expr.evaluate.run env = (.ok v, env')) (later : List Assignment) :
    a.run.run env = (.ok (), env'.bind a.target v) ∧
    (∀ now, Assignment.Passes a.target later (env'.bind a.target v) now → now.HasRoom →
      (Node.identifier a.target false).evaluate.run now =
        (.ok (.underName a.target (some v)), now.counted 1)) ∧
    ∀ y, pathSegments y = [y] → y ≠ a.target → ∃ w,
      (Node.identifier y false).evaluate.run env = (.ok w, env.counted 1) ∧
      ∀ now, Assignment.Passes y later (env'.bind a.target v) now → now.HasRoom →
        (Node.identifier y false).evaluate.run now = (.ok w, now.counted 1) := by
  refine ⟨?_, fun now hpasses hroom => ?_, fun y hy hne => ?_⟩
  · rw [Assignment.run, run_bind_ok hv, Assignment.store, if_neg (by simp [hcall])]
    rfl
  · rw [run_name (pathSegments_target hread ha hcall) hroom, hpasses.get?, Env.get?_bind_self]
  · refine ⟨_, run_name hy (Env.hasRoom_of_evaluate hv), fun now hpasses hroom => ?_⟩
    have hkept : env'.get? y = env.get? y := by
      have hnames := (Continuing.evaluate a.expr env).bindings
      rw [hv] at hnames
      exact congrArg (Datum.find? y) hnames
    rw [run_name hy hroom, hpasses.get?, env'.get?_bind_of_ne hne, hkept]

/-- The name `x` is read inside the second statement of a program, behind the first operation there. -/
theorem Program.reads_back_inside : ∃ p env now, Program.read "x = 2\ny = x + 1" = .ok p ∧
    Env.fresh PlainMethods.untold .null none = .ok env ∧
    Assignment.Passes "x" p.assignments.tail ((env.counted 1).bind "x" (.int 2)) now ∧
    now.opCount = env.opCount + 2 ∧ now.HasRoom ∧
    (Node.identifier "x" false).evaluate.run now = (.ok (.int 2), now.counted 1) := by
  have hread : Program.read "x = 2\ny = x + 1" = .ok ⟨[], [⟨"x", .number (.int 2)⟩,
      ⟨"y", .binary "+" (.identifier "x" false) (.number (.int 1))⟩]⟩ := by
    with_unfolding_all rfl
  obtain ⟨env, hfresh⟩ := Env.exists_fresh .null
  have hbudget : env.budget = .unlimited := (Env.of_fresh hfresh).2.1
  have hv : (Node.number (.int 2)).evaluate.run env = (.ok (.int 2), env.counted 1) := by
    rw [Node.evaluate_eq_evaluateDirectly _ _ (.inl (by decide)), Node.evaluateDirectly,
      run_bind_ok (run_tick (Env.hasRoom_of_unlimited hbudget))]
    rfl
  have hpasses : Assignment.Passes "x"
      [⟨"y", .binary "+" (.identifier "x" false) (.number (.int 1))⟩]
      ((env.counted 1).bind "x" (.int 2)) (((env.counted 1).bind "x" (.int 2)).counted 1) :=
    .within (.part (show _ = [] ++ Node.identifier "x" false :: [.number (.int 1)] from rfl)
      (run_tick (Env.hasRoom_of_unlimited hbudget)) rfl (.self _ _))
  have hroom : (((env.counted 1).bind "x" (.int 2)).counted 1).HasRoom :=
    Env.hasRoom_of_unlimited hbudget
  exact ⟨_, env, _, hread, hfresh, hpasses, rfl, hroom,
    (Program.reads_back hread List.mem_cons_self (by decide) hv _).2.1 _ hpasses hroom⟩

/-- The values of `true = 1` and `_a = 1` are bound and do not come back. -/
theorem Program.read_back_reserved : ∃ p env, Program.read "true = 1\n_a = 1" = .ok p ∧
    Env.fresh PlainMethods.untold .null none = .ok env ∧ (p.run.run env).1 = .ok () ∧
    (p.run.run env).2.get? "true" = some (.int 1) ∧ (p.run.run env).2.get? "_a" = some (.int 1) ∧
    ((Node.identifier "true" false).evaluate.run (p.run.run env).2).1 = .ok (.bool true) ∧
    ((Node.identifier "_a" false).evaluate.run (p.run.run env).2).1 = .ok (.unresolved "_a") := by
  have hread : Program.read "true = 1\n_a = 1" = .ok ⟨[], [⟨"true", .number (.int 1)⟩,
      ⟨"_a", .number (.int 1)⟩]⟩ := by
    with_unfolding_all rfl
  obtain ⟨env, hfresh⟩ := Env.exists_fresh .null
  have hbudget : env.budget = .unlimited := (Env.of_fresh hfresh).2.1
  have hrun : (Program.run ⟨[], [⟨"true", .number (.int 1)⟩, ⟨"_a", .number (.int 1)⟩]⟩).run env =
      (.ok (), (((env.counted 1).bind "true" (.int 1)).counted 1).bind "_a" (.int 1)) := by
    rcases env with ⟨bindings, plots, inputs, opCount, budget, engine, methods, strays⟩
    obtain rfl : budget = .unlimited := hbudget
    rfl
  have hroom : ((((env.counted 1).bind "true" (.int 1)).counted 1).bind "_a" (.int 1)).HasRoom :=
    Env.hasRoom_of_unlimited hbudget
  refine ⟨_, env, hread, hfresh, ?_⟩
  rw [hrun, run_name (by decide) hroom, run_name (by decide) hroom]
  refine ⟨rfl, ?_, Env.get?_bind_self _ _ _, rfl, rfl⟩
  rw [Env.get?_bind_of_ne (by decide)]
  exact Env.get?_bind_self _ _ (env.counted 1)

end ChartScript
