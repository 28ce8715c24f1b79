import ChartScript.Proofs.Metering

/-!
# What evaluation leaves alone, and what it adds

An expression is evaluated for its value, and a script can rely on it for what it does not do. No
statement is executed, so no name comes to be bound, unbound or bound to something else; the budget is
not touched; and all that is recorded is added behind what was recorded before. That holds of an
evaluation that fails as well as of one that gives a value, since what was done before a fault stays
done.

The notion is `ChartScript.Env.Continues`, and evaluation respects it because the steps that it is put
together from do (`ChartScript.Continuing.evalUnder`). A state continues itself, so it does not follow
from there that anything is counted. But every evaluation begins by counting its first node
(`ChartScript.Node.evaluate_eq_tick`).
-/

namespace ChartScript

/-! ### States that continue others -/

/-- **A state continues another one**: the names and the budget are the same and, if nothing has strayed
in between, no less is counted, and the logs are the same or longer. -/
structure Env.Continues (env env' : Env) : Prop where
  /-- What the names are bound to. -/
  bindings : env'.bindings = env.bindings
  /-- The budget of operations. -/
  budget : env'.budget = env.budget
  /-- The strays. -/
  strays : env.strays ≤ env'.strays
  /-- The count and the logs. -/
  grows : env'.strays = env.strays → env.Grows env'

theorem Env.Continues.refl (env : Env) : env.Continues env :=
  ⟨rfl, rfl, Nat.le_refl _, fun _ => .refl env⟩

theorem Env.Continues.trans {env env' env'' : Env} (h : env.Continues env')
    (h' : env'.Continues env'') : env.Continues env'' := by
  refine ⟨h'.bindings.trans h.bindings, h'.budget.trans h.budget, h.strays.trans h'.strays, ?_⟩
  intro hstays
  have hmiddle : env'.strays = env.strays := Nat.le_antisymm (h'.strays.trans hstays.le) h.strays
  exact (h.grows hmiddle).trans (h'.grows (hstays.trans hmiddle.symm))

/-- A computation that leaves a state behind that continues the one it began in. -/
def Continuing {α : Type} (r : Run α) : Prop := ∀ env : Env, env.Continues (r.run env).2

section Continuing

variable {α β : Type}

theorem Hosted.continuing {r : Run α} (h : Hosted r) : Continuing r := by
  intro env
  have hbindings : (r.run env).2.bindings = env.bindings := by
    rw [h.run_snd env]
    rfl
  have hbudget : (r.run env).2.budget = env.budget := by
    rw [h.run_snd env]
    rfl
  exact ⟨hbindings, hbudget, h.rises env, h.grows env⟩

theorem continuing_tick : Continuing tick := by
  intro env
  rw [run_tick_snd]
  exact ⟨rfl, rfl, Nat.le_refl _, fun _ => { Env.Grows.refl env with opCount := Nat.le_succ _ }⟩

theorem Continuing.bind {r : Run α} {f : α → Run β} (h : Continuing r) (hf : ∀ a, Continuing (f a)) :
    Continuing (r >>= f) := by
  intro env
  have hr := h env
  rw [run_bind]
  rcases hrun : r.run env with ⟨fault | a, env'⟩
  all_goals rw [hrun] at hr
  · exact hr
  · exact hr.trans (hf a env')

theorem Continuing.get {f : Env → Run β} (h : ∀ env, Continuing (f env)) :
    Continuing (get >>= f) := fun env => h env env

theorem continuing_calling (callee : String) {values : Run (List Value)} (h : Continuing values) :
    Continuing (calling callee values) :=
  .get fun _ => h.bind fun _ => (hosted_callValue _ _ _).continuing

/-! ### Evaluation -/

theorem continuing_congruence : Congruence fun r _ => Continuing r :=
  ⟨fun h hf => h.bind hf, continuing_tick, fun h => h.continuing⟩

theorem continuing_resolved (name : String) : Continuing (resolved name) :=
  .get fun env => (hosted_lookUp env name).continuing

/-- **Evaluation leaves behind a state that continues the one it began in**, down to any level and in
any chain. -/
theorem Continuing.evalUnder (node : Node) (room : Nat) (chained : Bool) {links : List Link}
    (hlinks : ∀ link ∈ links, Continuing link.operand) :
    Continuing (node.evalUnder room chained links) := by
  have hcovers : Covers (fun r _ => Continuing r) id node :=
    continuing_congruence.covers continuing_resolved
      (fun callee {_ _} h => continuing_calling callee h) node
  have hsame : List.Forall₂ (fun l l' : Link => l.op = l'.op ∧ Continuing l.operand) links links :=
    List.forall₂_same.2 fun link hlink => ⟨rfl, hlinks link hlink⟩
  exact continuing_congruence.evalUnder hcovers room chained hsame

theorem Continuing.evaluate (node : Node) : Continuing node.evaluate :=
  .evalUnder node _ _ (by simp)

theorem Continuing.evalAll (room : Nat) (nodes : List Node) :
    Continuing (Node.evalAll room nodes) := by
  induction nodes with
  | nil => exact (hosted_pure []).continuing
  | cons node nodes ih =>
    rw [Node.evalAll]
    exact (Continuing.evalUnder node room false (by simp)).bind fun v => ih.bind fun vs =>
      (hosted_pure _).continuing

end Continuing

end ChartScript
