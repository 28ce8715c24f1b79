import ChartScript.Proofs.Replay

/-!
# The two outputs of a script

A script is shipped as a unit or as text in the star namespace. The unit carries the tree; the text is
written and read again. For finite literals the two agree but for one thing, which is how a call is
written: its named arguments stand behind the positional ones. The whole point is that this is all
(`ChartScript.Program.run_text_eq_run_unit`).

Both conditions are needed. A script in which a positional argument stands behind a named one may run
differently, since arguments are evaluated in the order in which they stand
(`ChartScript.plots_of_moved_argument`), and a literal beyond the floats is written as a name
(`ChartScript.get?_of_infinite`).
-/

namespace ChartScript

open Syntax
open Grammar (bind_eq_ok)

namespace Node

/-! ### Named arguments behind the positional ones -/

/-- Whether no positional argument stands behind a named one. -/
def namedLast : List Node → Bool
  | [] => true
  | .identifier _ true :: _ :: rest => (splitArgs rest).1.isEmpty && namedLast rest
  | _ :: rest => namedLast rest

/-- **No positional argument stands behind a named one**, in no call of the expression. -/
def NamedLast (node : Node) : Prop :=
  ∀ callee args, .call callee args ∈ node.parts → namedLast args = true

/-- Then the arguments are put together in the order in which they stand. -/
theorem joinArgs_splitArgs {args : List Node} (h : namedLast args = true) :
    joinArgs (splitArgs args).1 (splitArgs args).2 = args := by
  fun_induction splitArgs args with
  | case1 => rfl
  | case2 name value rest positional named heq ih =>
    rw [namedLast, heq, Bool.and_eq_true, List.isEmpty_iff] at h
    obtain ⟨rfl, hrest⟩ := h
    have hjoin := ih hrest
    rw [heq] at hjoin
    show .identifier name true :: value :: joinArgs [] named = _
    rw [hjoin]
  | case3 arg rest hne positional named heq ih =>
    have hrest : namedLast rest = true := by
      rw [namedLast.eq_def] at h
      split at h
      · rename_i heq'
        cases heq'
      · rename_i heq'
        cases heq'
        exact absurd rfl (hne _ _ _ rfl)
      · rename_i heq'
        cases heq'
        exact h
    have hjoin := ih hrest
    rw [heq] at hjoin
    show arg :: joinArgs positional named = _
    rw [hjoin]

theorem namedLast_map_toStar (args : List Node) : namedLast (args.map toStar) = namedLast args := by
  fun_induction namedLast args with
  | case1 => rfl
  | case2 name value rest ih =>
    rw [List.map_cons, List.map_cons, toStar, namedLast, splitArgs_map_toStar, ih]
    simp
  | case3 arg rest hne ih =>
    rw [List.map_cons, ← ih, namedLast.eq_def]
    split
    · rename_i heq
      cases heq
    · rename_i name value rest' heq
      obtain ⟨harg, hrest⟩ := List.cons.inj heq
      cases arg <;> simp [toStar] at harg
      obtain ⟨rfl, rfl⟩ := harg
      obtain ⟨value', more, rfl, -, -⟩ := List.map_eq_cons_iff.1 hrest
      exact absurd rfl (hne _ _ _ rfl)
    · rename_i heq
      cases heq
      rfl

/-- The parts of an expression in the star namespace are those of the expression. -/
theorem parts_toStar (node : Node) : node.toStar.parts = node.parts.map toStar := by
  have hall : ∀ nodes : List Node, (∀ t ∈ nodes, t.toStar.parts = t.parts.map toStar) →
      allParts (nodes.map toStar) = (allParts nodes).map toStar := by
    intro nodes h
    induction nodes with
    | nil => rfl
    | cons t nodes ih =>
      obtain ⟨ht, h⟩ := List.forall_mem_cons.1 h
      rw [List.map_cons, allParts, allParts, List.map_append, ht, ih h]
  induction node using Node.induct with
  | number | string | identifier => simp [toStar, parts]
  | array items ih => simp [toStar, parts, hall items ih]
  | index target position iht ihp => simp [toStar, parts, iht, ihp]
  | unary op operand ih => simp [toStar, parts, ih]
  | binary op left right ihl ihr => simp [toStar, parts, ihl, ihr]
  | call callee args ih => simp [toStar, parts, hall args ih]

theorem NamedLast.toStar {node : Node} (h : node.NamedLast) : node.toStar.NamedLast := by
  intro callee args hcall
  rw [parts_toStar] at hcall
  obtain ⟨part, hpart, heq⟩ := List.mem_map.1 hcall
  cases part <;> simp [Node.toStar] at heq
  obtain ⟨-, rfl⟩ := heq
  rw [namedLast_map_toStar]
  exact h _ _ hpart

/-- **Then nothing is moved.** -/
theorem NamedLast.arranged_eq {node : Node} (h : node.NamedLast) : node.arranged = node := by
  have hmap : ∀ nodes : List Node, (∀ t ∈ nodes, t.NamedLast) →
      (∀ t ∈ nodes, t.NamedLast → t.arranged = t) → nodes.map arranged = nodes := by
    intro nodes hlast ih
    exact List.map_congr_left (fun t ht => ih t ht (hlast t ht)) |>.trans (List.map_id' nodes)
  have hinside : ∀ {nodes : List Node} {node : Node}, (∀ part ∈ allParts nodes, part ∈ node.parts) →
      node.NamedLast → ∀ t ∈ nodes, t.NamedLast := by
    intro nodes node hsub hlast t ht callee args hcall
    exact hlast callee args (hsub _ (mem_allParts.2 ⟨t, ht, hcall⟩))
  induction node using Node.induct with
  | number | string | identifier => simp [arranged]
  | array items ih =>
    rw [arranged, allArranged_eq_map, hmap items (hinside (by simp +contextual [parts]) h) ih]
  | index target position iht ihp =>
    rw [arranged, iht fun f as hc => h f as (by simp [parts, hc]),
      ihp fun f as hc => h f as (by simp [parts, hc])]
  | unary op operand ih => rw [arranged, ih fun f as hc => h f as (by simp [parts, hc])]
  | binary op left right ihl ihr =>
    rw [arranged, ihl fun f as hc => h f as (by simp [parts, hc]),
      ihr fun f as hc => h f as (by simp [parts, hc])]
  | call callee args ih =>
    have hargs : ∀ t ∈ args, t.NamedLast := hinside (by simp +contextual [parts]) h
    obtain ⟨hpositional, hnamed, -⟩ := mem_of_splitArgs args
    have hp : (splitArgs args).1.map arranged = (splitArgs args).1 :=
      hmap _ (fun t ht => hargs t (hpositional t ht)) fun t ht => ih t (hpositional t ht)
    have hn : (splitArgs args).2.map (fun e => (e.1, e.2.arranged)) = (splitArgs args).2 := by
      refine (List.map_congr_left fun e he => ?_).trans (List.map_id' _)
      rw [ih e.2 (hnamed e he) (hargs e.2 (hnamed e he))]
    rw [arranged, arrangedArgs_eq]
    simp only [hp, hn]
    rw [joinArgs_splitArgs (h callee args (by simp [parts]))]

end Node

/-! ### The text and the unit -/

/-- **The text in the star namespace is read as the program that is written**, with the named
arguments of every call behind the positional ones. -/
theorem read_of_render {source : String} {p q : Program} {text : List Char}
    (hread : Program.read source = .ok p) (hstar : p.toStar = .ok q) (hrender : q.render = .ok text)
    (hfinite : ∀ a ∈ p.assignments, ∀ x, .number (.float x) ∈ a.expr.parts → x.isFinite)
    (hshallow : ∀ line ∈ lines text, isShallow line) :
    Program.read (String.ofList text) =
      .ok { indicators := [], assignments := q.assignments.map Assignment.arranged } := by
  have hlegible : ∀ b ∈ q.assignments, LegibleStatement Number.IsLiteral b := by
    intro b hb
    refine (legible_of_toStar hstar (legible_of_read hread) b hb).imp fun x hx hu => ?_
    rw [assignments_of_toStar hstar] at hb
    obtain ⟨a, ha, rfl⟩ := List.mem_map.1 hb
    simp only [Node.parts_toStar] at hx
    obtain ⟨part, hpart, heq⟩ := List.mem_map.1 hx
    cases part <;> simp [Node.toStar] at heq
    rw [heq] at hpart
    exact Number.isLiteral_of_unsigned hu (hfinite a ha x hpart)
  rw [Program.render] at hrender
  rcases mapM_render_of_legible hlegible with hr | ⟨texts, hr, hlines⟩
  · rw [hr] at hrender
    cases hrender
  · rw [hr] at hrender
    cases hrender
    exact (read_of_readsBack hlines hshallow).1

/-- **The two outputs of a script mean the same, but for the place of named arguments.** Where a script
has a unit and a text in the star namespace, within the bound on nesting and with finite floats, the
unit gives back the program in the star namespace, and the text is read as this program with the
named arguments of every call behind the positional ones. So if no positional argument of the script
stands behind a named one, running what is read from the text is running the unit, for any budget and
configuration: it ends with the same bindings, plots, inputs, number of operations, orders and trades,
or it fails with the same fault. -/
theorem Program.run_text_eq_run_unit {source : String} {p q : Program} {text : List Char}
    (hread : Program.read source = .ok p) (hstar : p.toStar = .ok q) (hrender : q.render = .ok text)
    (hfinite : ∀ a ∈ p.assignments, ∀ x, .number (.float x) ∈ a.expr.parts → x.isFinite)
    (hshallow : ∀ line ∈ lines text, isShallow line) :
    Program.ofUnit? q.toUnit = some q ∧ ∃ r, Program.read (String.ofList text) = .ok r ∧
      r.assignments = q.assignments.map Assignment.arranged ∧
        ((∀ a ∈ p.assignments, a.expr.NamedLast) →
          ∀ (methods : PlainMethods) (opLimit : Value) (config : Option Config) (env : Env),
            Env.fresh methods opLimit config = .ok env →
              r.run.run env.withStar = q.run.run env.withStar) := by
  refine ⟨Program.ofUnit?_toUnit (legible_of_toStar hstar (legible_of_read hread)), _,
    read_of_render hread hstar hrender hfinite hshallow, rfl, ?_⟩
  intro hlast methods opLimit config env _
  -- nothing is moved, so the statements are the same
  have hsame : q.assignments.map Assignment.arranged = q.assignments := by
    rw [assignments_of_toStar hstar, List.map_map]
    refine List.map_congr_left fun a ha => ?_
    rw [Function.comp_apply, Assignment.arranged, (hlast a ha).toStar.arranged_eq]
  simp only [Program.run, hsame]

/-- A script without a positional argument behind a named one. -/
def levelSource : String := "x = 0.5 * -2\nplot(f([x, 1], plot(3)), title = \"a\\n\", shift = plot(4))"

/-- The program of that script. -/
def levelProgram : Program where
  indicators := []
  assignments := [
    { target := "x"
      expr := .binary "*" (.number (.float 0.5)) (.unary "-" (.number (.int 2))) },
    { target := callTarget
      expr := .call "plot" [
        .call "f" [.array [.identifier "x" false, .number (.int 1)],
          .call "plot" [.number (.int 3)]],
        .identifier "title" true, .string (.text "a\n"),
        .identifier "shift" true, .call "plot" [.number (.int 4)]] }]

theorem run_text_eq_run_unit_level : ∃ (q r : Program) (text : List Char) (env : Env),
    Program.read levelSource = .ok levelProgram ∧ levelProgram.toStar = .ok q ∧
      q.render = .ok text ∧ Program.ofUnit? q.toUnit = some q ∧
        Program.read (String.ofList text) = .ok r ∧
        Env.fresh PlainMethods.untold .null none = .ok env ∧
          r.run.run env.withStar = q.run.run env.withStar := by
  have hread : Program.read levelSource = .ok levelProgram := by
    with_unfolding_all rfl
  obtain ⟨q, hq⟩ : ∃ q : Program, q = { levelProgram with
    assignments := levelProgram.assignments.map fun a => { a with expr := a.expr.toStar } } :=
    ⟨_, rfl⟩
  have hstar : levelProgram.toStar = .ok q := by
    rw [hq]
    with_unfolding_all rfl
  obtain ⟨text, htext⟩ : ∃ text, text = ("x = 0.5 * -2\nstar.plot(f([x, 1], star.plot(3)), " ++
    "\x7b title: \"a\\n\", shift: star.plot(4) \x7d)").toList := ⟨_, rfl⟩
  have hrender : q.render = .ok text := by
    rw [hq, htext]
    with_unfolding_all rfl
  have hfinite : ∀ a ∈ levelProgram.assignments, ∀ x, .number (.float x) ∈ a.expr.parts →
      x.isFinite := by
    simp [levelProgram, Node.parts, Node.allParts]
    decide +kernel
  have hshallow : ∀ line ∈ lines text, isShallow line := by
    rw [htext]
    decide +kernel
  have hlast : ∀ a ∈ levelProgram.assignments, a.expr.NamedLast := by
    simp only [levelProgram, List.forall_mem_cons]
    refine ⟨?_, ?_, by simp⟩
    · intro callee args hcall
      simp [Node.parts] at hcall
    · intro callee args hcall
      simp [Node.parts, Node.allParts] at hcall
      rcases hcall with ⟨rfl, rfl⟩ | ⟨rfl, rfl⟩ | ⟨rfl, rfl⟩ | ⟨rfl, rfl⟩ <;> rfl
  obtain ⟨env, hfresh⟩ := Env.exists_fresh .null
  obtain ⟨hunit, r, hr, -, hrun⟩ :=
    Program.run_text_eq_run_unit hread hstar hrender hfinite hshallow
  exact ⟨q, r, text, env, hread, hstar, hrender, hunit, hr, hfresh,
    hrun hlast PlainMethods.untold .null none env hfresh⟩

/-! ### A named argument that is moved -/

/-- A call in which a positional argument stands behind a named one. -/
def movedSource : String := "f(a = plot(1), plot(2))"

/-- The program of that script. -/
def movedProgram : Program where
  indicators := []
  assignments := [
    { target := callTarget
      expr := .call "f" [.identifier "a" true, .call "plot" [.number (.int 1)],
        .call "plot" [.number (.int 2)]] }]

/-- What is written of it in the star namespace. -/
def movedText : String := "f(star.plot(2), \x7b a: star.plot(1) \x7d)"

/-- **Where a named argument is moved, the two outputs may mean different things**: the unit plots 1 and
then 2, the text plots 2 and then 1. -/
theorem plots_of_moved_argument : ∃ (q r : Program) (env : Env),
    Program.read movedSource = .ok movedProgram ∧ movedProgram.toStar = .ok q ∧
      q.render = .ok movedText.toList ∧ Program.ofUnit? q.toUnit = some q ∧
        Program.read movedText = .ok r ∧ Env.fresh PlainMethods.untold .null none = .ok env ∧
          (q.run.run env.withStar).1 = .ok () ∧
            (q.run.run env.withStar).2.plots.map Plot.args = [[.int 1], [.int 2]] ∧
              (r.run.run env.withStar).1 = .ok () ∧
                (r.run.run env.withStar).2.plots.map Plot.args = [[.int 2], [.int 1]] := by
  have hread : Program.read movedSource = .ok movedProgram := by
    with_unfolding_all rfl
  obtain ⟨q, hq⟩ : ∃ q : Program, q = { movedProgram with
    assignments := movedProgram.assignments.map fun a => { a with expr := a.expr.toStar } } :=
    ⟨_, rfl⟩
  have hstar : movedProgram.toStar = .ok q := by
    rw [hq]
    with_unfolding_all rfl
  have hrender : q.render = .ok movedText.toList := by
    rw [hq]
    with_unfolding_all rfl
  have hunit : Program.ofUnit? q.toUnit = some q :=
    Program.ofUnit?_toUnit (legible_of_toStar hstar (legible_of_read hread))
  obtain ⟨r, hr⟩ : ∃ r : Program, r = { q with
    assignments := q.assignments.map Assignment.arranged } := ⟨_, rfl⟩
  have hagain : Program.read movedText = .ok r := by
    rw [hr, hq]
    with_unfolding_all rfl
  -- the fresh environment of the standard configuration, in its parts
  rcases Env.fresh_cases PlainMethods.untold none with ⟨fault, hfault⟩ | ⟨close, engine, hfresh⟩
  · obtain ⟨env, henv⟩ := Env.exists_fresh .null
    rw [hfault] at henv
    cases henv
  · refine ⟨q, r, _, hread, hstar, hrender, hunit, hagain, hfresh .null, ?_⟩
    rw [hr, hq]
    exact ⟨rfl, rfl, rfl, rfl⟩

/-! ### A literal that is infinite -/

/-- A program that binds a float. -/
def floatProgram (x : Float) : Program where
  indicators := []
  assignments := [{ target := "x", expr := .number (.float x) }]

/-- The infinity is written as a name. -/
theorem render_of_infinite {x : Float} (h : x.toModel.unpack = .infinity .positive) :
    (floatProgram x).render = .ok "x = inf".toList := by
  have htext : Number.floatText .positional x = "inf".toList := by
    rw [Number.floatText, Number.Exact.ofFloat, h]
    rfl
  have hexpr : (Node.number (.float x)).render = .ok "inf".toList := by
    rw [Node.render]
    exact congrArg Except.ok htext
  simp only [Program.render, floatProgram, List.mapM_cons, List.mapM_nil, Assignment.render, hexpr]
  rfl

/-- **A literal that is infinite is not in the text.** It is written as a name, so the unit binds the
infinity, and the text binds a name that stands for itself. -/
theorem get?_of_infinite {x : Float} (h : x.toModel.unpack = .infinity .positive) :
    (floatProgram x).toStar = .ok (floatProgram x) ∧
      (floatProgram x).render = .ok "x = inf".toList ∧
        ∃ r, Program.read "x = inf" = .ok r ∧
          ∀ methods env, Env.fresh methods .null none = .ok env →
          ((floatProgram x).run.run env.withStar).2.get? "x" = some (.float x) ∧
            (r.run.run env.withStar).2.get? "x" = some (.unresolved "inf") := by
  obtain ⟨r, hr⟩ : ∃ r : Program, r = { indicators := [], assignments := [
    { target := "x", expr := .identifier "inf" false }] } := ⟨_, rfl⟩
  have hagain : Program.read "x = inf" = .ok r := by
    rw [hr]
    with_unfolding_all rfl
  refine ⟨rfl, render_of_infinite h, r, hagain, fun methods env henv => ?_⟩
  rcases Env.fresh_cases methods none with ⟨fault, hfault⟩ | ⟨close, engine, hfresh⟩
  · rw [hfault] at henv
    cases henv
  · rw [hfresh] at henv
    cases henv
    rw [hr]
    exact ⟨rfl, rfl⟩

end ChartScript
