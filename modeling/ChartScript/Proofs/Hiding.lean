import ChartScript.Proofs.StarRuns

/-!
# Names that cannot be observed

A script may bind a name that starts with an underscore, but has no way to what the name is bound to,
as long as it does not stray. This is said by a comparison of two runs. Two states are alike
(`ChartScript.Env.Alike`) if they differ at most in the bindings of such names. A computation that cannot
tell such states apart (`ChartScript.SameForAlike`) gives the same value or the same fault in both, and
leaves states behind that are alike again.

The relation is a congruence, so that there are only three places to look at: counting, which reads the
count and the budget; the host, which reads the single name `close`; and a dotted name, of which only
the first segment is looked up among the bindings. A segment that starts with an underscore is given up
before it is looked up, and this is the reason why the theorem holds
(`ChartScript.Env.Alike.resolve?`). A field of a template is not given up in this manner, so that filling
in a template can show a name that a script has no way to (`ChartScript.Env.observed_by_template`).
-/

namespace ChartScript

open Syntax (startsWith)

/-! ### States that are alike -/

/-- **Two states are alike**: they differ at most in the bindings of names that start with an
underscore. -/
structure Env.Alike (env env' : Env) : Prop where
  /-- Any other name is bound to the same, or is bound in neither. -/
  names : ∀ name, startsWith name "_" = false → env'.get? name = env.get? name
  /-- The plots. -/
  plots : env'.plots = env.plots
  /-- The inputs. -/
  inputs : env'.inputs = env.inputs
  /-- The number of operations so far. -/
  opCount : env'.opCount = env.opCount
  /-- The budget of operations. -/
  budget : env'.budget = env.budget
  /-- The strategy. -/
  engine : env'.engine = env.engine
  /-- The methods of plain values. -/
  methods : env'.methods = env.methods
  /-- The number of strays so far. -/
  strays : env'.strays = env.strays

theorem isHidden_of_startsWith {segment : String} (h : startsWith segment "_" = true) :
    isHidden segment = true := by
  have hprefix : ['_'].isPrefixOf segment.toList = true := h
  rw [isHidden]
  rcases hsegment : segment.toList with _ | ⟨c, rest⟩
  · rfl
  · rw [hsegment] at hprefix
    simp only [List.isPrefixOf, Bool.and_true, beq_iff_eq] at hprefix
    simp [← hprefix]

namespace Env.Alike

variable {env env' : Env} (h : env.Alike env')

include h

/-- **A dotted name stands for the same.** -/
theorem resolve? (path : String) : env'.resolve? path = env.resolve? path := by
  refine Env.resolve?_congr h.engine fun segment rest _ hshown => h.names segment ?_
  by_contra hstarts
  rw [isHidden_of_startsWith (by simpa using hstarts)] at hshown
  cases hshown

/-- What has been recorded is the same. -/
theorem withRecords_left : env'.withRecords env = env' := by
  rw [Env.withRecords, ← h.plots, ← h.inputs, ← h.engine, ← h.strays]

/-- New records leave the states alike. -/
theorem withRecords (other : Env) : (env.withRecords other).Alike (env'.withRecords other) :=
  ⟨h.names, rfl, rfl, h.opCount, h.budget, rfl, h.methods, rfl⟩

/-- So does counting. -/
theorem count :
    Env.Alike { env with opCount := env.opCount + 1 } { env' with opCount := env'.opCount + 1 } :=
  { h with opCount := congrArg (· + 1) h.opCount }

/-- So does binding a name to the same value in both, whatever the name. -/
theorem bind (name : String) (v : Value) : (env.bind name v).Alike (env'.bind name v) := by
  refine { h with names := fun other hother => ?_ }
  rcases eq_or_ne other name with rfl | hne
  · rw [Env.get?_bind_self, Env.get?_bind_self]
  · rw [Env.get?_bind_of_ne hne, Env.get?_bind_of_ne hne, h.names other hother]

end Env.Alike

/-! ### Computations that cannot tell -/

/-- Two computations, begun in two states that are alike, give the same result and leave states behind
that are alike, if the first does not stray. -/
structure SameForAlike {α : Type} (r s : Run α) : Prop where
  /-- Strays are never taken back. -/
  rises : Rises r
  /-- The result is the same, and the states are alike. -/
  same : ∀ env env', Env.Alike env env' → Run.Stays r env →
    (s.run env').1 = (r.run env).1 ∧ (r.run env).2.Alike (s.run env').2

section SameForAlike

variable {α β : Type}

theorem SameForAlike.bind {r s : Run α} {f g : α → Run β} (h : SameForAlike r s)
    (hf : ∀ a, SameForAlike (f a) (g a)) : SameForAlike (r >>= f) (s >>= g) := by
  have hrises := fun a => (hf a).rises
  refine ⟨h.rises.bind hrises, fun env env' halike hstays => ?_⟩
  obtain ⟨hresult, hnext⟩ := h.same env env' halike (hstays.first h.rises hrises)
  rw [run_bind, run_bind]
  rcases hr : r.run env with ⟨result, next⟩
  rcases hs : s.run env' with ⟨result', next'⟩
  rw [hr, hs] at hresult hnext
  obtain rfl : result' = result := hresult
  cases result' with
  | ok a => exact (hf a).same next next' hnext (hstays.second h.rises hrises hr)
  | error fault => exact ⟨rfl, hnext⟩

/-- Looking at the two states first, which may show what differs. -/
theorem SameForAlike.get {f g : Env → Run β}
    (h : ∀ env env', Env.Alike env env' → SameForAlike (f env) (g env'))
    (hrises : ∀ env, Rises (f env)) : SameForAlike (get >>= f) (get >>= g) :=
  ⟨fun env => hrises env env,
    fun env env' halike hstays => (h env env' halike).same env env' halike hstays⟩

theorem sameForAlike_tick : SameForAlike tick tick := by
  refine ⟨fun env => (run_tick_snd env).symm ▸ Nat.le_refl _, fun env env' halike _ => ?_⟩
  have hobjection : env'.budget.objection? (env'.opCount + 1) =
      env.budget.objection? (env.opCount + 1) := by rw [halike.budget, halike.opCount]
  rcases hobjects : env.budget.objection? (env.opCount + 1) with _ | fault
  · rw [run_tick_ok hobjects, run_tick_ok (hobjection.trans hobjects)]
    exact ⟨rfl, halike.count⟩
  · rw [run_tick_error hobjects, run_tick_error (hobjection.trans hobjects)]
    exact ⟨rfl, halike.count⟩

theorem Hosted.sameForAlike {r : Run α} (h : Hosted r) : SameForAlike r r := by
  refine ⟨h.rises, fun env env' halike hstays => ?_⟩
  have hrun := h.run_eq env env' ⟨halike.names "close" (by decide), halike.methods⟩ hstays
  rw [halike.withRecords_left] at hrun
  rw [hrun, h.run_snd env]
  exact ⟨rfl, halike.withRecords _⟩

theorem sameForAlike_congruence : Congruence SameForAlike :=
  ⟨fun h hf => h.bind hf, sameForAlike_tick, fun h => h.sameForAlike⟩

theorem sameForAlike_resolved (name : String) : SameForAlike (resolved name) (resolved name) := by
  refine .get (fun env env' halike => ?_) fun env => (hosted_lookUp env name).rises
  rw [Env.lookUp_congr (halike.resolve? name)]
  exact (hosted_lookUp env name).sameForAlike

theorem sameForAlike_calling (callee : String) {values values' : Run (List Value)}
    (h : SameForAlike values values') :
    SameForAlike (calling callee values) (calling callee values') := by
  refine .get (fun env env' halike => ?_)
    fun env => h.rises.bind fun vs => (hosted_callValue _ _ _).rises
  rw [halike.resolve? callee]
  exact h.bind fun vs => (hosted_callValue _ _ _).sameForAlike

/-- **Evaluation cannot tell states that are alike.** -/
theorem Node.sameForAlike_evaluate (node : Node) : SameForAlike node.evaluate node.evaluate := by
  have heval := sameForAlike_congruence.evaluate
    (sameForAlike_congruence.covers sameForAlike_resolved sameForAlike_calling node)
  rwa [node.redirected_id] at heval

theorem Assignment.sameForAlike_run (a : Assignment) : SameForAlike a.run a.run :=
  a.expr.sameForAlike_evaluate.bind fun v => sameForAlike_congruence.store fun _ =>
    ⟨fun _ => Nat.le_refl _, fun _ _ halike _ => ⟨rfl, halike.bind a.target v⟩⟩

/-- **Nor can statements, one after the other.** -/
theorem Assignment.sameForAlike_runAll (assignments : List Assignment) :
    SameForAlike (Assignment.runAll assignments) (Assignment.runAll assignments) :=
  sameForAlike_congruence.runAll fun a _ => a.sameForAlike_run

end SameForAlike

/-- **What a name that starts with an underscore is bound to cannot be observed** by a run that does not
stray. In two states that differ at most in the bindings of such names, any expression has the same value
or the same fault, any statements come to the same end, and the states behind differ again at most in
such bindings. -/
theorem Env.Alike.unobserved {env env' : Env} (h : env.Alike env') :
    (∀ node : Node, node.evaluate.Stays env →
      (node.evaluate.run env').1 = (node.evaluate.run env).1 ∧
        (node.evaluate.run env).2.Alike (node.evaluate.run env').2) ∧
    ∀ assignments : List Assignment, (Assignment.runAll assignments).Stays env →
      ((Assignment.runAll assignments).run env').1 = ((Assignment.runAll assignments).run env).1 ∧
        ((Assignment.runAll assignments).run env).2.Alike
          ((Assignment.runAll assignments).run env').2 :=
  ⟨fun node hstays => node.sameForAlike_evaluate.same env env' h hstays,
    fun assignments hstays => (Assignment.sameForAlike_runAll assignments).same env env' h hstays⟩

/-- The binding of a name that starts with an underscore may be left out. -/
theorem Env.alike_of_unbound (bindings : List (String × Value)) (v : Value) (budget : Budget) :
    (Env.ofBindings (("_a", v) :: bindings) budget).Alike (Env.ofBindings bindings budget) := by
  refine ⟨fun name hname => ?_, rfl, rfl, rfl, rfl, rfl, rfl, rfl⟩
  have hne : "_a" ≠ name := by
    rintro rfl
    exact absurd hname (by decide)
  exact ((Datum.find?_cons _ _ _).trans (if_neg hne)).symm

/-- The sum `a + _a` and the statement `b = _a` where `_a` is a number, and where it is not bound. -/
theorem Env.unobserved_of_unbound :
    let env := Env.ofBindings [("_a", .int 1), ("a", .int 2)] .unlimited
    let env' := Env.ofBindings [("a", .int 2)] .unlimited
    let sum : Node := .binary "+" (.identifier "a" false) (.identifier "_a" false)
    let copy : List Assignment := [⟨"b", .identifier "_a" false⟩]
    env.get? "_a" = some (.int 1) ∧ env'.get? "_a" = none ∧ env.Alike env' ∧
      sum.evaluate.Stays env ∧ (Assignment.runAll copy).Stays env ∧
      (sum.evaluate.run env').1 = (sum.evaluate.run env).1 ∧
      ((Assignment.runAll copy).run env).2.Alike ((Assignment.runAll copy).run env').2 := by
  intro env env' sum copy
  have halike : env.Alike env' := Env.alike_of_unbound [("a", .int 2)] (.int 1) .unlimited
  have hsum : sum.evaluate.Stays env := rfl
  have hcopy : (Assignment.runAll copy).Stays env := rfl
  exact ⟨rfl, rfl, halike, hsum, hcopy, (halike.unobserved.1 sum hsum).1,
    (halike.unobserved.2 copy hcopy).2⟩

/-- Filling in a template shows the value of `_a` where it is bound, and finds no such name where it is
not. -/
theorem Env.observed_by_template :
    let bindings := [("s", Value.text "\x7b0._env.bindings[_a]\x7d"), ("input", .space .input)]
    let env := Env.ofBindings (("_a", .text "x") :: bindings) .unlimited
    let env' := Env.ofBindings bindings .unlimited
    let filling : Node := .call "s.format" [.identifier "input" false]
    env.Alike env' ∧ (filling.evaluate.run env).1 = .ok (.text "x") ∧
      (filling.evaluate.run env').1 = .error (.noKey (some "_a")) :=
  ⟨Env.alike_of_unbound _ _ _, by with_unfolding_all rfl, by with_unfolding_all rfl⟩

end ChartScript
