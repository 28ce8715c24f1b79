import ChartScript.Proofs.Arrangement
import ChartScript.Proofs.Effects
import ChartScript.Syntax.Source

/-!
# Positional and named arguments

Arguments are taken apart twice: by a reader of the tree, who sees which argument is a marker
(`ChartScript.Node.splitArgs`), and by a running call, which sees only values
(`ChartScript.splitValues`). The whole point is that the call follows the tree
(`ChartScript.Node.run_call`): a host function is given the values of the positional arguments and of
the named ones as they stand in the tree, whatever the order, the repetitions and the names.

There is one exception among the names. A marker is evaluated like any other identifier, so one that is
called `true` or `false` becomes a truth value and names nothing (`ChartScript.Node.asEvaluated`). It and
the value behind it are then two positional arguments.
-/

namespace ChartScript

namespace Node

/-! ### Rows of arguments -/

/-- Takes arguments apart that each come with something of their own. -/
def splitRows : List (Node × α) → List (Node × α) × List (String × Node × α)
  | [] => ([], [])
  | (.identifier name true, _) :: row :: rest =>
    let (positional, named) := splitRows rest
    (positional, (name, row) :: named)
  | row :: rest =>
    let (positional, named) := splitRows rest
    (row :: positional, named)

/-- A marker that is not taken with a value behind it has none. -/
theorem eq_nil_of_isMarker {row : Node × α} {rest : List (Node × α)}
    (hne : ∀ name v next more, row = (.identifier name true, v) → rest = next :: more → False)
    (h : row.1.isMarker = true) : rest = [] := by
  obtain ⟨node, v⟩ := row
  cases node with
  | identifier name marker =>
    cases h
    cases rest with
    | nil => rfl
    | cons next more => exact (hne name v next more rfl rfl).elim
  | _ => cases h

theorem splitArgs_single (node : Node) : splitArgs [node] = ([node], []) := by
  cases node with
  | identifier name marker => cases marker <;> rfl
  | _ => rfl

/-- **Rows come apart as the arguments in them do.** -/
theorem splitArgs_map_fst (rows : List (Node × α)) :
    splitArgs (rows.map Prod.fst) =
      ((splitRows rows).1.map Prod.fst, (splitRows rows).2.map fun entry => (entry.1, entry.2.1)) := by
  fun_induction splitRows rows with
  | case1 => rfl
  | case2 name v row rest positional named heq ih =>
    rw [heq] at ih
    rw [List.map_cons, List.map_cons, splitArgs_pair, ih]
    rfl
  | case3 row rest hne positional named heq ih =>
    rw [heq] at ih
    cases hmarker : row.1.isMarker with
    | false =>
      rw [List.map_cons, splitArgs_cons hmarker, ih]
      rfl
    | true =>
      obtain rfl := eq_nil_of_isMarker hne hmarker
      cases heq
      exact splitArgs_single row.1

/-! ### Arguments as they are evaluated -/

/-- What an argument counts as once it is evaluated: the two truth values are no names. -/
def asEvaluated : Node → Node
  | .identifier name true => .identifier name (name != "true" && name != "false")
  | node => node

/-- An argument counts as what it is, unless it is a marker with the name of a truth value. -/
theorem map_asEvaluated {args : List Node}
    (h : ∀ name, .identifier name true ∈ args → name ≠ "true" ∧ name ≠ "false") :
    args.map asEvaluated = args := by
  have hself : ∀ node ∈ args, asEvaluated node = id node := by
    intro node hnode
    fun_cases asEvaluated node with
    | case1 name =>
      obtain ⟨htrue, hfalse⟩ := h name hnode
      simp [htrue, hfalse]
    | case2 => rfl
  rw [List.map_congr_left hself, List.map_id]

end Node

/-- Named arguments, of which a later one replaces an earlier one of its name. -/
def namedValues (named : List (String × Node × Value)) : Options :=
  named.foldl (fun options entry => Datum.bind entry.1 entry.2.2 options) []

/-- A row of an argument and its value, where the value tells whether the argument is a marker. -/
def IsTold (row : Node × Value) : Prop :=
  (∃ name, row = (.identifier name true, .keyword name)) ∨
    (row.1.isMarker = false ∧ ∀ name, row.2 ≠ .keyword name)

/-- **Values come apart as their arguments do**, if they tell which arguments are markers. -/
theorem splitValues_go_map_snd (rows : List (Node × Value)) (h : ∀ row ∈ rows, IsTold row)
    (positional : List Value) (named : Options) :
    splitValues.go positional named (rows.map Prod.snd) =
      (positional.reverse ++ (Node.splitRows rows).1.map Prod.snd,
        (Node.splitRows rows).2.foldl (fun options entry => Datum.bind entry.1 entry.2.2 options)
          named) := by
  -- along the splitter of the tree, for whatever the splitter of values has taken apart before
  fun_induction Node.splitRows rows generalizing positional named with
  | case1 => simp [splitValues.go]
  | case2 name v row rest positional' named' heq ih =>
    obtain ⟨hmarker, hrow, hrest⟩ := by simpa only [List.forall_mem_cons] using h
    rcases hmarker with ⟨name', hname⟩ | ⟨hmarker, -⟩
    · cases hname
      rw [heq] at ih
      rw [List.map_cons, List.map_cons, splitValues.go, ih hrest]
      rfl
    · cases hmarker
  | case3 row rest hne positional' named' heq ih =>
    obtain ⟨hrow, hrest⟩ := List.forall_mem_cons.1 h
    rw [heq] at ih
    rcases hrow with ⟨name, rfl⟩ | ⟨-, hvalue⟩
    · -- a marker that has no value behind it stands at the end
      obtain rfl := Node.eq_nil_of_isMarker hne rfl
      cases heq
      simp [splitValues.go]
    · rw [List.map_cons, splitValues.go, ih hrest]
      · simp
      · exact fun name _ _ hkeyword => absurd hkeyword (hvalue name)

/-! ### Calls -/

/-- The value of a marker. -/
def markerValue (name : String) : Value :=
  if name = "true" then .bool true else if name = "false" then .bool false else .keyword name

theorem identifierValue_marker (name : String) :
    identifierValue name true = pure (markerValue name) := by
  rw [identifierValue, markerValue]
  split_ifs with htrue hfalse hmarker
  · rfl
  · rfl
  · rfl
  · exact absurd rfl hmarker

theorem eq_markerValue {room : Nat} {name : String} {env env' : Env} {v : Value}
    (h : ((Node.identifier name true).evalUnder room false []).run env = (.ok v, env')) :
    v = markerValue name := by
  rw [Node.evalUnder, identifierValue_marker, entered] at h
  obtain ⟨-, middle, -, h⟩ := of_run_bind_eq_ok h
  obtain ⟨w, middle', hw, h⟩ := of_run_bind_eq_ok h
  cases hw
  cases h
  rfl

/-- An argument counts as a marker exactly if its value tells so. -/
theorem isTold_asEvaluated {room : Nat} {node : Node} {env env' : Env} {v : Value}
    (h : (node.evalUnder room false []).run env = (.ok v, env'))
    (hv : node.isMarker = false → ∀ name, v ≠ .keyword name) : IsTold (node.asEvaluated, v) := by
  fun_cases Node.asEvaluated node with
  | case1 name =>
    rw [eq_markerValue h, markerValue]
    by_cases htrue : name = "true"
    · exact .inr ⟨by simp [Node.isMarker, htrue], by simp [htrue]⟩
    · by_cases hfalse : name = "false"
      · exact .inr ⟨by simp [Node.isMarker, hfalse], by simp [hfalse]⟩
      · exact .inl ⟨name, by simp [htrue, hfalse]⟩
  | case2 node hne =>
    have hmarker : node.isMarker = false := by
      cases node with
      | identifier name marker =>
        cases marker with
        | false => rfl
        | true => exact (hne name rfl).elim
      | _ => rfl
    exact .inr ⟨hmarker, hv hmarker⟩

/-- The values of several arguments tell which of them are markers. -/
theorem isTold_of_evalAll {room : Nat} {args : List Node} {env env' : Env} {values : List Value}
    (h : (Node.evalAll room args).run env = (.ok values, env'))
    (hv : ∀ row ∈ args.zip values, row.1.isMarker = false → ∀ name, row.2 ≠ .keyword name) :
    args.length = values.length ∧ ∀ row ∈ (args.map Node.asEvaluated).zip values, IsTold row := by
  induction args generalizing env values with
  | nil =>
    cases h
    simp
  | cons node args ih =>
    rw [Node.evalAll] at h
    obtain ⟨v, middle, hnode, h⟩ := of_run_bind_eq_ok h
    obtain ⟨rest, middle', hargs, h⟩ := of_run_bind_eq_ok h
    cases h
    obtain ⟨hfirst, hrest⟩ := List.forall_mem_cons.1 hv
    obtain ⟨hlength, htold⟩ := ih hargs hrest
    exact ⟨congrArg Nat.succ hlength,
      List.forall_mem_cons.2 ⟨isTold_asEvaluated hnode hfirst, htold⟩⟩

/-- The arguments of a call as they are evaluated, each with its value. -/
def evaluatedRows (args : List Node) (values : List Value) : List (Node × Value) :=
  (args.map Node.asEvaluated).zip values

theorem map_fst_evaluatedRows {args : List Node} {values : List Value}
    (h : args.length = values.length) :
    (evaluatedRows args values).map Prod.fst = args.map Node.asEvaluated :=
  List.map_fst_zip (by rw [List.length_map, h])

theorem map_snd_evaluatedRows {args : List Node} {values : List Value}
    (h : args.length = values.length) : (evaluatedRows args values).map Prod.snd = values :=
  List.map_snd_zip (by rw [List.length_map, h])

/-- **A call follows its tree.** Where the callee can be called and all arguments have values, of which
only those of markers are keywords, what is called is given the values of the positional
arguments in their order, and those of the named ones under their names, of which a later one replaces
an earlier one. Only a marker called `true` or `false` counts as a positional argument. -/
theorem Node.run_call {callee : String} {args : List Node} {room : Nat} {env entered called : Env}
    {f : Callable} {values : List Value} (henter : (enter room).run env = (.ok (), entered))
    (hcallee : (entered.resolve? callee).bind Value.function? = some f)
    (hvalues : (Node.evalAll (room - argumentLevels) args).run entered = (.ok values, called))
    (hkeywords : ∀ row ∈ args.zip values, row.1.isMarker = false → ∀ name, row.2 ≠ .keyword name)
    (chained : Bool) (links : List Link) :
    ((Node.call callee args).evalUnder room chained links).run env =
        ((f.call ((splitRows (evaluatedRows args values)).1.map Prod.snd)
          (namedValues (splitRows (evaluatedRows args values)).2)).adapt (callFault callee) >>=
            finish links).run called ∧
      splitArgs (args.map asEvaluated) =
        ((splitRows (evaluatedRows args values)).1.map Prod.fst,
          (splitRows (evaluatedRows args values)).2.map fun entry => (entry.1, entry.2.1)) ∧
      ((∀ name, .identifier name true ∈ args → name ≠ "true" ∧ name ≠ "false") →
        args.map asEvaluated = args) := by
  obtain ⟨hlength, htold⟩ := isTold_of_evalAll hvalues hkeywords
  have hsplit : splitValues values =
      ((splitRows (evaluatedRows args values)).1.map Prod.snd,
        namedValues (splitRows (evaluatedRows args values)).2) := by
    have hgo := splitValues_go_map_snd (evaluatedRows args values) htold [] []
    rw [map_snd_evaluatedRows hlength] at hgo
    exact hgo
  -- the callee is looked up before its arguments are evaluated, and called behind them
  refine ⟨?_, ?_, map_asEvaluated⟩
  · have hcall : (callValue callee (entered.resolve? callee) values) =
        (f.call ((splitRows (evaluatedRows args values)).1.map Prod.snd)
          (namedValues (splitRows (evaluatedRows args values)).2)).adapt (callFault callee) := by
      rw [callValue, hcallee, hsplit]
    rw [Node.evalUnder, ChartScript.entered, run_bind_ok henter, run_bind, run_get_bind,
      run_bind_ok hvalues, hcall, ← run_bind]
  · rw [← splitArgs_map_fst, map_fst_evaluatedRows hlength]

/-- The arguments `1, a = 2, 3, a = 4`. -/
def Node.repeatedArgs : List Node :=
  .number (.int 1) :: Node.pair "a" (.number (.int 2)) ++
    .number (.int 3) :: Node.pair "a" (.number (.int 4))

/-- The two positional arguments come in their order, and the later one of two of a name counts. -/
theorem Node.run_call_repeated :
    ∃ entered called values,
      (enter levelLimit).run (Env.ofBindings [("f", .function .gather)] .unlimited) =
        (.ok (), entered) ∧
      (entered.resolve? "f").bind Value.function? = some (.host .gather) ∧
      (Node.evalAll (levelLimit - argumentLevels) repeatedArgs).run entered = (.ok values, called) ∧
      (∀ row ∈ repeatedArgs.zip values, row.1.isMarker = false →
        ∀ name, row.2 ≠ .keyword name) ∧
      ((Node.call "f" repeatedArgs).evalUnder levelLimit false []).run
          (Env.ofBindings [("f", .function .gather)] .unlimited) =
        ((HostFunction.gather.call [.int 1, .int 3] [("a", .int 4)]).adapt (callFault "f") >>=
          finish []).run called := by
  have hkeywords : ∀ row ∈ repeatedArgs.zip [.int 1, .keyword "a", .int 2, .int 3, .keyword "a",
      .int 4], row.1.isMarker = false → ∀ name, row.2 ≠ Value.keyword name := by
    simp [repeatedArgs, pair, isMarker]
  exact ⟨_, _, _, rfl, rfl, rfl, hkeywords, (run_call (f := .host .gather) rfl rfl rfl hkeywords false []).1⟩

/-- The call `f(true = 1)` names an argument in its tree and gives two positional ones when it runs. -/
theorem Node.run_named_true :
    Program.read "x = f(true = 1)" =
        .ok (.ofLines [.statement ⟨"x", .call "f" [.identifier "true" true, .number (.int 1)]⟩]) ∧
      splitArgs [.identifier "true" true, .number (.int 1)] = ([], [("true", .number (.int 1))]) ∧
      ((Node.call "f" [.identifier "true" true, .number (.int 1)]).evaluate.run
          (Env.ofBindings [("f", .function .gather)] .unlimited)).1 =
        .ok (.dict [("args", .list [.bool true, .int 1]), ("kwargs", .dict [])]) := by
  refine ⟨?_, rfl, rfl⟩
  with_unfolding_all rfl

end ChartScript
