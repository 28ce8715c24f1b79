import ChartScript.Proofs.Congruence
import ChartScript.Syntax.Source

/-!
# The budget of operations

A run with a budget is compared with the same run without one. The one notion is
`ChartScript.Metered`: as far as the budget reaches, the computation does the same with and without it;
where the budget does not reach, it stops one operation behind the budget, and what it has left behind
there is a beginning of what it leaves behind without a budget. Every computation of a run is of this
kind, because it is put together from steps that are: counting, which is where a run stops, and all
others, which do not look at the budget.

The number of operations of a run that completes is the number of nodes of its expressions
(`ChartScript.Program.size`), since evaluation by parts counts every node once.
-/

namespace ChartScript

/-! ### Budgets -/

/-- The budget of a number of operations. -/
def Budget.ops (limit : Nat) : Budget := .ofValue (.int limit)

/-- The fault of a run that exceeds a number of operations. -/
def Fault.beyond (limit : Nat) : Fault := .overBudget (String.ofList (Number.intText limit))

/-- An environment with another budget. -/
def Env.withBudget (env : Env) (budget : Budget) : Env := { env with budget }

/-- A budget objects to the first count behind it. -/
theorem Budget.objection?_ops (limit count : Nat) :
    (Budget.ops limit).objection? count = if limit < count then some (.beyond limit) else none := by
  have hlt : (Num.int limit).lt (.int count) = decide (limit < count) := by
    show decide ((limit : Int) < (count : Int)) = _
    simp
  show (if (Num.int limit).lt (.int count) = true then _ else _) = _
  simp only [hlt, decide_eq_true_eq]
  rfl

/-- Counting where the budget does not object. -/
theorem run_tick_ok {env : Env} (h : env.budget.objection? (env.opCount + 1) = none) :
    tick.run env = (.ok (), { env with opCount := env.opCount + 1 }) := by
  rw [tick, run_modify_bind, run_get_bind]
  simp only [h]
  rfl

/-- Whether the budget objects or not, counting leaves the next count behind. -/
theorem run_tick_snd (env : Env) : (tick.run env).2 = { env with opCount := env.opCount + 1 } := by
  rw [tick, run_modify_bind, run_get_bind]
  split <;> rfl

/-- There is an operation left. -/
def Env.HasRoom (env : Env) : Prop := env.budget.objection? (env.opCount + 1) = none

theorem Env.hasRoom_of_unlimited {env : Env} (h : env.budget = .unlimited) : env.HasRoom := by
  rw [Env.HasRoom, h]
  rfl

/-- An environment that has counted so many operations more. -/
def Env.counted (count : Nat) (env : Env) : Env := { env with opCount := env.opCount + count }

theorem Env.counted_counted (env : Env) (first second : Nat) :
    (env.counted first).counted second = env.counted (first + second) := by
  simp only [counted, Nat.add_assoc]

theorem run_tick {env : Env} (h : env.HasRoom) : tick.run env = (.ok (), env.counted 1) :=
  run_tick_ok h

/-- Counting where the budget objects. -/
theorem run_tick_error {env : Env} {fault : Fault}
    (h : env.budget.objection? (env.opCount + 1) = some fault) :
    tick.run env = (.error fault, { env with opCount := env.opCount + 1 }) := by
  rw [tick, run_modify_bind, run_get_bind]
  simp only [h]
  rfl

/-- An evaluation that is not allowed its first operation counts it and does nothing else. -/
theorem Node.evaluate_of_objection (node : Node) {env : Env} {fault : Fault}
    (h : env.budget.objection? (env.opCount + 1) = some fault) :
    node.evaluate.run env = (.error fault, { env with opCount := env.opCount + 1 }) := by
  have hentered : ∀ links value, (entered levelLimit links value).run env =
      (.error fault, { env with opCount := env.opCount + 1 }) :=
    fun links value => run_bind_error (run_tick_error h) _
  rw [Node.evaluate]
  cases node <;> exact hentered _ _

/-- **With the budget spent, any evaluation stops at once.** -/
theorem Node.evaluate_of_spent (node : Node) {env : Env} {limit : Nat} (hb : env.budget = .ops limit)
    (hspent : limit ≤ env.opCount) :
    node.evaluate.run env = (.error (.beyond limit), { env with opCount := env.opCount + 1 }) := by
  refine node.evaluate_of_objection ?_
  rw [hb, Budget.objection?_ops, if_pos (by omega)]

/-! ### Metered computations -/

/-- **What a budget does to a computation**, said against its run without one. -/
structure Metered {α : Type} (r : Run α) : Prop where
  /-- Strays are never taken back. -/
  rises : Rises r
  /-- No budget comes into being. -/
  budget : ∀ env : Env, env.budget = .unlimited → (r.run env).2.budget = .unlimited
  /-- The count and the logs only grow. -/
  grows : ∀ env : Env, env.budget = .unlimited → Run.Stays r env → env.Grows (r.run env).2
  /-- A budget that suffices makes no difference. -/
  within : ∀ env : Env, env.budget = .unlimited → Run.Stays r env → ∀ limit,
    (r.run env).2.opCount ≤ limit → r.run (env.withBudget (.ops limit)) =
      ((r.run env).1, (r.run env).2.withBudget (.ops limit))
  /-- A budget that does not suffice stops the computation one operation behind it. -/
  stops : ∀ env : Env, env.budget = .unlimited → Run.Stays r env → ∀ limit, env.opCount ≤ limit →
    limit < (r.run env).2.opCount → ∃ stop : Env,
      r.run (env.withBudget (.ops limit)) = (.error (.beyond limit), stop) ∧
        stop.budget = .ops limit ∧ stop.opCount = limit + 1 ∧ env.Grows stop ∧
        stop.Grows (r.run env).2

section Metered

variable {α β : Type}

theorem metered_tick : Metered tick := by
  have hfree : ∀ env : Env, env.budget = .unlimited →
      tick.run env = (.ok (), { env with opCount := env.opCount + 1 }) := by
    intro env hb
    exact run_tick_ok (by rw [hb]; rfl)
  constructor
  · intro env
    rw [run_tick_snd]
  · intro env hb
    rw [hfree env hb]
    exact hb
  · intro env hb _
    rw [hfree env hb]
    exact { Env.Grows.refl env with opCount := Nat.le_succ _ }
  · intro env hb _ limit hle
    rw [hfree env hb] at hle ⊢
    refine run_tick_ok ?_
    show (Budget.ops limit).objection? (env.opCount + 1) = none
    rw [Budget.objection?_ops, if_neg (Nat.not_lt.2 hle)]
  · intro env hb _ limit hle hlt
    rw [hfree env hb] at hlt ⊢
    have hcount : env.opCount = limit := by
      have : limit < env.opCount + 1 := hlt
      omega
    have hobjects : (env.withBudget (.ops limit)).budget.objection?
        ((env.withBudget (.ops limit)).opCount + 1) = some (.beyond limit) := by
      show (Budget.ops limit).objection? (env.opCount + 1) = _
      rw [Budget.objection?_ops, if_pos hlt]
    refine ⟨_, run_tick_error hobjects, rfl, congrArg (· + 1) hcount, ?_, ?_⟩
    · exact { Env.Grows.refl env with opCount := Nat.le_succ _ }
    · exact ⟨Nat.le_refl _, List.prefix_rfl, fun _ h => h, .refl _⟩

/-- What the host does is not counted. -/
theorem Hosted.opCount {r : Run α} (h : Hosted r) (env : Env) :
    (r.run env).2.opCount = env.opCount := by
  rw [h.run_snd env]
  rfl

theorem Hosted.metered {r : Run α} (h : Hosted r) : Metered r := by
  constructor
  · exact h.rises
  · intro env hb
    rw [h.run_snd env]
    exact hb
  · intro env _
    exact h.grows env
  · intro env _ hstays limit _
    have hrun := h.run_eq env (env.withBudget (.ops limit)) ⟨rfl, rfl⟩ hstays
    refine hrun.trans (Prod.ext rfl ?_)
    exact (congrArg (·.withBudget (.ops limit)) (h.run_snd env)).symm
  · intro env _ _ limit hle hlt
    rw [h.opCount env] at hlt
    omega

theorem Metered.bind {r : Run α} {f : α → Run β} (h : Metered r) (hf : ∀ a, Metered (f a)) :
    Metered (r >>= f) := by
  have hrises := fun a => (hf a).rises
  -- without a budget the first part ends in a state without a budget, from which the second goes on
  constructor
  · exact h.rises.bind hrises
  · intro env hb
    have hb' := h.budget env hb
    rw [run_bind]
    rcases hr : r.run env with ⟨fault | a, env'⟩
    all_goals rw [hr] at hb'
    · exact hb'
    · exact (hf a).budget env' hb'
  · intro env hb hstays
    have hb' := h.budget env hb
    have hg := h.grows env hb (hstays.first h.rises hrises)
    rw [run_bind]
    rcases hr : r.run env with ⟨fault | a, env'⟩
    all_goals rw [hr] at hb' hg
    · exact hg
    · exact hg.trans ((hf a).grows env' hb' (hstays.second h.rises hrises hr))
  · intro env hb hstays limit
    have hb' := h.budget env hb
    have hw := h.within env hb (hstays.first h.rises hrises) limit
    rcases hr : r.run env with ⟨fault | a, env'⟩
    all_goals rw [hr] at hb' hw
    · rw [run_bind_error hr]
      intro hle
      rw [run_bind_error (hw hle)]
    · have hstays' := hstays.second h.rises hrises hr
      rw [run_bind_ok hr]
      intro hle
      have hg : env'.Grows ((f a).run env').2 := (hf a).grows env' hb' hstays'
      rw [run_bind_ok (hw (hg.opCount.trans hle))]
      exact (hf a).within env' hb' hstays' limit hle
  · intro env hb hstays limit hle
    have hfirst := hstays.first h.rises hrises
    have hb' := h.budget env hb
    have hg := h.grows env hb hfirst
    have hw := h.within env hb hfirst limit
    have hs := h.stops env hb hfirst limit hle
    rcases hr : r.run env with ⟨fault | a, env'⟩
    all_goals rw [hr] at hb' hg hw hs
    · rw [run_bind_error hr]
      intro hlt
      obtain ⟨stop, hrun, hstop⟩ := hs hlt
      exact ⟨stop, run_bind_error hrun f, hstop⟩
    · have hstays' := hstays.second h.rises hrises hr
      rw [run_bind_ok hr]
      intro hlt
      rcases Nat.lt_or_ge limit env'.opCount with hsooner | hlater
      · obtain ⟨stop, hrun, hbudget, hcount, hbefore, hbehind⟩ := hs hsooner
        exact ⟨stop, run_bind_error hrun f, hbudget, hcount, hbefore,
          hbehind.trans ((hf a).grows env' hb' hstays')⟩
      · obtain ⟨stop, hrun, hbudget, hcount, hbefore, hbehind⟩ :=
          (hf a).stops env' hb' hstays' limit hlater hlt
        refine ⟨stop, ?_, hbudget, hcount, hg.trans hbefore, hbehind⟩
        rw [run_bind_ok (hw hlater)]
        exact hrun

/-- What looks at the environment first, and sees the same whatever the budget is. -/
theorem metered_get {f : Env → Run β} (h : ∀ env, Metered (f env))
    (hf : ∀ (env : Env) budget, f (env.withBudget budget) = f env) : Metered (get >>= f) := by
  constructor
  · exact fun env => (h env).rises env
  · exact fun env => (h env).budget env
  · exact fun env => (h env).grows env
  · intro env hb hstays limit hle
    rw [run_get_bind, hf]
    exact (h env).within env hb hstays limit hle
  · intro env hb hstays limit hle hlt
    rw [run_get_bind, hf]
    exact (h env).stops env hb hstays limit hle hlt

/-- Binding a name is nothing that a budget or a log has to do with. -/
theorem metered_binding (name : String) (v : Value) : Metered (binding name v) := by
  constructor
  · exact fun env => Nat.le_refl _
  · exact fun env hb => hb
  · exact fun env _ _ => ⟨Nat.le_refl _, List.prefix_rfl, fun _ h => h, .refl _⟩
  · exact fun env _ _ limit _ => rfl
  · intro env _ _ limit hle hlt
    have : limit < env.opCount := hlt
    omega

/-! ### The steps of a run -/

theorem metered_congruence : Congruence fun r _ => Metered r :=
  ⟨fun hr hf => hr.bind hf, metered_tick, fun h => h.metered⟩

theorem metered_resolved (name : String) : Metered (resolved name) :=
  metered_get (fun env => (hosted_lookUp env name).metered) fun _ _ => rfl

theorem metered_calling (callee : String) {values : Run (List Value)} (h : Metered values) :
    Metered (calling callee values) :=
  metered_get (fun _ => h.bind fun _ => (hosted_callValue _ _ _).metered) fun _ _ => rfl

theorem metered_evaluate (node : Node) : Metered node.evaluate :=
  metered_congruence.evaluate <| metered_congruence.covers metered_resolved
    (fun callee {_ _} h => metered_calling callee h) node

theorem metered_run (a : Assignment) : Metered a.run :=
  (metered_evaluate a.expr).bind fun v => metered_congruence.store fun _ => metered_binding _ v

/-- **Running statements is metered.** -/
theorem metered_runAll (assignments : List Assignment) : Metered (Assignment.runAll assignments) :=
  metered_congruence.runAll fun a _ => metered_run a

end Metered

/-! ### The number of operations -/

/-- A computation that counts a number of operations if it completes. -/
def Counts {α : Type} (number : Nat) (r : Run α) : Prop :=
  ∀ env a env', r.run env = (.ok a, env') → env'.opCount = env.opCount + number

section Counts

variable {α β : Type}

theorem counts_tick : Counts 1 tick := by
  intro env a env' h
  rcases hb : env.budget.objection? (env.opCount + 1) with _ | fault
  · rw [run_tick_ok hb] at h
    cases h
    rfl
  · rw [run_tick_error hb] at h
    cases h

theorem Hosted.counts {r : Run α} (h : Hosted r) : Counts 0 r := by
  intro env a env' hrun
  have hcount := h.opCount env
  rw [hrun] at hcount
  exact hcount

theorem Counts.bind {m n : Nat} {r : Run α} {f : α → Run β} (h : Counts m r)
    (hf : ∀ a, Counts n (f a)) : Counts (m + n) (r >>= f) := by
  intro env b env'' hrun
  rcases hr : r.run env with ⟨fault | a, env'⟩
  · rw [run_bind_error hr] at hrun
    cases hrun
  · rw [run_bind_ok hr] at hrun
    rw [hf a env' b env'' hrun, h env a env' hr, Nat.add_assoc]

theorem Counts.get {n : Nat} {f : Env → Run β} (h : ∀ env, Counts n (f env)) :
    Counts n (get >>= f) := fun env b env' hrun => h env env b env' hrun

/-- A node is counted before its parts. -/
theorem Counts.behind_tick {n : Nat} {r : Run α} (h : Counts n r) :
    Counts (n + 1) (do tick; r) := by
  rw [Nat.add_comm]
  exact counts_tick.bind fun _ => h

theorem counts_identifierValue (name : String) (marker : Bool) :
    Counts 0 (identifierValue name marker) := by
  rw [identifierValue]
  split
  · exact (hosted_pure _).counts
  · split
    · exact (hosted_pure _).counts
    · split
      · exact (hosted_pure _).counts
      · exact .get fun env => (hosted_lookUp env name).counts

theorem counts_calling (callee : String) {n : Nat} {values : Run (List Value)}
    (h : Counts n values) : Counts n (calling callee values) :=
  .get fun _ => h.bind fun _ => (hosted_callValue _ _ _).counts

theorem counts_evaluateAllDirectly {nodes : List Node}
    (h : ∀ t ∈ nodes, Counts t.size t.evaluateDirectly) :
    Counts (Node.sizeAll nodes) (Node.evaluateAllDirectly nodes) := by
  induction nodes with
  | nil => exact (hosted_pure []).counts
  | cons node nodes ih =>
    obtain ⟨hnode, hnodes⟩ := List.forall_mem_cons.1 h
    rw [Node.evaluateAllDirectly, Node.sizeAll]
    exact hnode.bind fun v => (ih hnodes).bind fun vs => (hosted_pure _).counts

/-- **Direct evaluation counts every node once.** -/
theorem Node.counts_evaluateDirectly (node : Node) : Counts node.size node.evaluateDirectly := by
  induction node using Node.induct with
  | number value | string value =>
    rw [Node.evaluateDirectly, Node.size]
    exact (hosted_pure _).counts.behind_tick
  | identifier name marker =>
    rw [Node.evaluateDirectly, Node.size]
    exact (counts_identifierValue name marker).behind_tick
  | array items ih =>
    rw [Node.evaluateDirectly, Node.size]
    exact ((counts_evaluateAllDirectly ih).bind fun vs => (hosted_pure _).counts).behind_tick
  | index target position iht ihp =>
    rw [Node.evaluateDirectly, Node.size]
    exact (iht.bind fun v => ihp.bind fun i => (hosted_subscripted v i).counts).behind_tick
  | unary op operand ih =>
    rw [Node.evaluateDirectly, Node.size]
    exact (ih.bind fun v => (hosted_signed op v).counts).behind_tick
  | binary op left right ihl ihr =>
    rw [Node.evaluateDirectly, Node.size]
    exact (ihl.bind fun v => ihr.bind fun w => (hosted_operate op v w).counts).behind_tick
  | call callee args ih =>
    rw [Node.evaluateDirectly, Node.size]
    exact (counts_calling callee (counts_evaluateAllDirectly ih)).behind_tick

/-- An evaluation that completes has not gone too deep, and so has counted every node once. -/
theorem Node.counts_evaluate (node : Node) : Counts node.size node.evaluate := by
  intro env v env' hrun
  have h := node.agreesInRoom_evalUnder levelLimit false .nil env
  rw [bind_finish_nil] at h
  have hdirect := h.resolve_left (by rw [← Node.evaluate, hrun]; rintro ⟨⟩)
  exact node.counts_evaluateDirectly env v env' (hdirect.symm.trans hrun)

theorem counts_run (a : Assignment) : Counts a.expr.size a.run := by
  have hstore : ∀ v, Counts 0 (a.store v) := by
    intro v
    rw [Assignment.store]
    split
    · exact (hosted_pure _).counts
    · intro env _ env' hrun
      cases hrun
      rfl
  exact a.expr.counts_evaluate.bind hstore

end Counts

/-- The number of nodes of all expressions of a program, markers included. -/
def Program.size (p : Program) : Nat := (p.assignments.map fun a => a.expr.size).sum

/-- **A run that completes has counted the nodes of its program.** -/
theorem Program.counts_run (p : Program) : Counts p.size p.run := by
  rw [Program.size, Program.run]
  induction p.assignments with
  | nil => exact (hosted_pure ()).counts
  | cons a rest ih =>
    rw [List.map_cons, List.sum_cons, Assignment.runAll]
    exact (ChartScript.counts_run a).bind fun _ => ih

/-! ### Runs with a budget -/

/-- A configuration makes no fresh environment, or makes the same one for all operation limits: the
limit goes into the budget and nowhere else. -/
theorem Env.fresh_cases (methods : PlainMethods) (config : Option Config) :
    (∃ fault, ∀ opLimit, Env.fresh methods opLimit config = .error fault) ∨
      ∃ close engine, ∀ opLimit, Env.fresh methods opLimit config =
        .ok { Env.ofBindings (hostBindings close) (.ofValue (budgetValue opLimit config)) with
          engine, methods } := by
  simp only [Env.fresh]
  generalize config.getD .standard = c
  generalize (c.value "runtime.series_length" (.int 200)).toInt = length
  generalize (c.value "runtime.base_price" (.float 100.0)).toFloat = base
  generalize (c.value "runtime.price_step" (.float 0.5)).toFloat = step
  generalize (c.value "strategy.commission_percent" (.float 0.0)).toFloat = commission
  generalize (c.value "strategy.default_qty" (.int 1)).toInt = quantity
  rcases length with fault | length
  · exact .inl ⟨fault, fun _ => rfl⟩
  rcases base with fault | base
  · exact .inl ⟨fault, fun _ => rfl⟩
  rcases step with fault | step
  · exact .inl ⟨fault, fun _ => rfl⟩
  rcases commission with fault | commission
  · exact .inl ⟨fault, fun _ => rfl⟩
  rcases quantity with fault | quantity
  · exact .inl ⟨fault, fun _ => rfl⟩
  · exact .inr ⟨_, _, fun _ => rfl⟩

/-- A fresh environment has the names and the budget it was given, and has counted nothing. -/
theorem Env.of_fresh {methods : PlainMethods} {opLimit : Value} {config : Option Config} {env : Env}
    (h : Env.fresh methods opLimit config = .ok env) :
    (∃ close, env.bindings = hostBindings close) ∧
      env.budget = .ofValue (budgetValue opLimit config) ∧ env.opCount = 0 := by
  rcases Env.fresh_cases methods config with ⟨fault, hfresh⟩ | ⟨close, engine, hfresh⟩
  · rw [hfresh] at h
    cases h
  · rw [hfresh] at h
    cases h
    exact ⟨⟨close, rfl⟩, rfl, rfl⟩

/-- What a dotted key leads to in the standard configuration. -/
theorem Config.value_standard {key : String} {segments : List String} {d default : Setting}
    (hkey : Text.pathSegments key = segments)
    (hat : Config.standard.toSetting.at? segments = some d) (hd : d ≠ .null) :
    Config.standard.value key default = .ofSetting d := by
  rw [Config.value, Config.get, hkey, hat]
  cases d <;> first | rfl | exact absurd rfl hd

/-- The environment that the standard configuration makes. -/
theorem Env.fresh_standard (opLimit : Value) : Env.fresh PlainMethods.untold opLimit none =
    .ok (Env.ofBindings (hostBindings (closingPrices 200 100.0 0.5))
      (.ofValue (budgetValue opLimit none))) := by
  have hlength : Config.standard.value "runtime.series_length" (.int 200) = .int 200 :=
    Config.value_standard (by decide : _ = ["runtime", "series_length"]) rfl nofun
  have hbase : Config.standard.value "runtime.base_price" (.float 100.0) = .float 100.0 :=
    Config.value_standard (by decide : _ = ["runtime", "base_price"]) rfl nofun
  have hstep : Config.standard.value "runtime.price_step" (.float 0.5) = .float 0.5 :=
    Config.value_standard (by decide : _ = ["runtime", "price_step"]) rfl nofun
  have hcommission :
      Config.standard.value "strategy.commission_percent" (.float 0.0) = .float 0.0 :=
    Config.value_standard (by decide : _ = ["strategy", "commission_percent"]) rfl nofun
  have hquantity : Config.standard.value "strategy.default_qty" (.int 1) = .int 1 :=
    Config.value_standard (by decide : _ = ["strategy", "default_qty"]) rfl nofun
  simp only [Env.fresh, Option.getD_none, hlength, hbase, hstep, hcommission, hquantity]
  rfl

/-- The standard configuration makes an environment. -/
theorem Env.exists_fresh (opLimit : Value) :
    ∃ env, Env.fresh PlainMethods.untold opLimit none = .ok env :=
  ⟨_, Env.fresh_standard opLimit⟩

/-- **What a budget does to a run.** The environment at the start is compared with the one that has no
budget and is like it in all else. -/
structure Program.RunsWithin (p : Program) (limit : Nat) (env : Env) : Prop where
  /-- A run that completes without the budget counts the nodes of the program. It completes with the
  budget exactly when there are no more of them than it allows, and then leaves the same behind. -/
  completes : ∀ final : Env, p.run.run (env.withBudget .unlimited) = (.ok (), final) →
    final.opCount = p.size ∧ ((p.run.run env).1 = .ok () ↔ p.size ≤ limit) ∧
      (p.size ≤ limit → p.run.run env = (.ok (), final.withBudget env.budget))
  /-- A run that fails without the budget, fails in the same manner if the budget reaches so far. -/
  fails : ∀ (fault : Fault) (final : Env),
    p.run.run (env.withBudget .unlimited) = (.error fault, final) → final.opCount ≤ limit →
      p.run.run env = (.error fault, final.withBudget env.budget)
  /-- In any other case the run stops one operation behind the budget, with a beginning of the effects
  of the run without it. From then on all evaluations stop at their first node. -/
  stops : ∀ (result : Except Fault Unit) (final : Env),
    p.run.run (env.withBudget .unlimited) = (result, final) → limit < final.opCount →
      ∃ stop : Env, p.run.run env = (.error (.beyond limit), stop) ∧ stop.opCount = limit + 1 ∧
        stop.plots <+: final.plots ∧ stop.engine.entries <+: final.engine.entries ∧
        stop.engine.exits <+: final.engine.exits ∧ stop.engine.orders <+: final.engine.orders ∧
        stop.engine.trades <+: final.engine.trades ∧
        ∀ (node : Node) (later : Env), later.budget = stop.budget → stop.opCount ≤ later.opCount →
          node.evaluate.run later =
            (.error (.beyond limit), { later with opCount := later.opCount + 1 })

/-- **The budget of a run is exact and otherwise makes no difference**, if the run without it does not
stray. -/
theorem Program.run_budget (p : Program) (methods : PlainMethods) (config : Option Config)
    (limit : Nat) {env : Env} (hfresh : Env.fresh methods (.int limit) config = .ok env)
    (hstays : p.run.Stays (env.withBudget .unlimited)) : p.RunsWithin limit env := by
  obtain ⟨-, hbudget, hcount⟩ := Env.of_fresh hfresh
  change env.budget = .ops limit at hbudget
  have hmetered : Metered p.run := metered_runAll p.assignments
  have henv : (env.withBudget .unlimited).withBudget (.ops limit) = env := by
    rw [← hbudget]
    rfl
  have hwithin := hmetered.within (env.withBudget .unlimited) rfl hstays limit
  have hstops := hmetered.stops (env.withBudget .unlimited) rfl hstays limit
    (hcount.le.trans (Nat.zero_le _))
  rw [henv] at hwithin hstops
  constructor
  · intro final hrun
    rw [hrun] at hwithin hstops
    have hsize : final.opCount = p.size := by
      have := p.counts_run _ _ _ hrun
      rw [this]
      show env.opCount + p.size = p.size
      rw [hcount, Nat.zero_add]
    rw [← hsize]
    refine ⟨rfl, ⟨?_, ?_⟩, ?_⟩
    · intro hok
      by_contra hmore
      obtain ⟨stop, hstop, -⟩ := hstops (Nat.not_le.1 hmore)
      rw [hstop] at hok
      cases hok
    · intro hle
      rw [hwithin hle]
    · intro hle
      rw [hwithin hle, hbudget]
  · intro fault final hrun hle
    rw [hrun] at hwithin
    rw [hwithin hle, hbudget]
  · intro result final hrun hlt
    rw [hrun] at hstops
    obtain ⟨stop, hstop, hsame, hnext, -, hgrows⟩ := hstops hlt
    refine ⟨stop, hstop, hnext, hgrows.plots, hgrows.engine.entries, hgrows.engine.exits,
      hgrows.engine.orders, hgrows.engine.trades, ?_⟩
    intro node later hlater hspent
    exact node.evaluate_of_spent (hlater.trans hsame) (by omega)

/-- The statements `plot(1)` and `x = plot(2) + close` with a budget of three operations. -/
theorem run_budget_plots : ∃ env, Env.fresh PlainMethods.untold (.int 3) none = .ok env ∧
    (Program.mk [] [⟨callTarget, .call "plot" [.number (.int 1)]⟩,
      ⟨"x", .binary "+" (.call "plot" [.number (.int 2)]) (.identifier "close" false)⟩]).RunsWithin
        3 env := by
  refine ⟨_, Env.fresh_standard (.int 3),
    Program.run_budget _ PlainMethods.untold none 3 (Env.fresh_standard (.int 3)) ?_⟩
  rw [Run.Stays]
  decide +kernel

/-- The statements `strategy.exit("a")` and `x = strategy.exits.clear()`. -/
def clearingProgram : Program where
  indicators := []
  assignments := [⟨callTarget, .call "strategy.exit" [.string (.text "a")]⟩,
    ⟨"x", .call "strategy.exits.clear" []⟩]

/-- With a budget of two operations that program stops behind the exit. Without a budget it goes on and
clears the exits, so that what it leaves behind does not begin with that exit. -/
theorem not_runsWithin_of_clearing : ∃ env, Env.fresh PlainMethods.untold (.int 2) none = .ok env ∧
    Program.read "strategy.exit(\"a\")\nx = strategy.exits.clear()" = .ok clearingProgram ∧
    (clearingProgram.run.run env).2.engine.exits = [.text "a"] ∧
    (clearingProgram.run.run (env.withBudget .unlimited)).2.engine.exits = [] ∧
    ¬ clearingProgram.RunsWithin 2 env := by
  refine ⟨_, Env.fresh_standard (.int 2), by with_unfolding_all rfl, rfl, rfl, fun h => ?_⟩
  obtain ⟨stop, hrun, -, -, -, ⟨more, hmore⟩, -⟩ := h.stops _ _ rfl (by decide)
  cases hrun
  cases hmore

end ChartScript
