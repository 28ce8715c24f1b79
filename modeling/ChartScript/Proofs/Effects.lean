import ChartScript.Eval.Session
import Mathlib

/-!
# What evaluation leaves behind

A script reaches the outside only through the functions of the host, and they leave behind what they
do in three places of the environment: the plots, the inputs and the strategy. The whole point is
`ChartScript.Hosted`: a computation of the host looks at nothing else but these places, the name `close`
and the methods of plain values that only compute something, it changes nothing else, and what it adds
to a log stands behind what was there.

All this is said of runs that do not stray (`ChartScript.Run.Stays`). Where a script strays none of it
is kept: a method that clears a list takes from a log, and one that fills in a template can look at every
name. What is left is that a stray is noted and never taken back (`ChartScript.Rises`), so that the parts
of a run that does not stray do not stray either.

The logs of the strategy are its entries, exits, orders and trades. That they only grow
(`ChartScript.Engine.Grows`) is shown call by call, also for calls that fail half-way.
-/

namespace ChartScript

/-! ### Computations with a state

The rules by which a computation that may fail, and keeps what it has done, is run step by step. -/

section Stateful

variable {σ α β : Type}

/-- A computation in two parts: the second part starts where the first has ended, unless it failed. -/
theorem run_bind (r : ExceptT Fault (StateM σ) α) (f : α → ExceptT Fault (StateM σ) β) (s : σ) :
    (r >>= f).run s =
      match r.run s with
      | (.ok a, s') => (f a).run s'
      | (.error fault, s') => (.error fault, s') := by
  rw [ExceptT.run_bind]
  show (StateT.bind r.run _ : StateM σ _) s = _
  rw [StateT.bind]
  rcases r.run s with ⟨_ | _, s'⟩ <;> rfl

theorem run_bind_ok {r : ExceptT Fault (StateM σ) α} {s s' : σ} {a : α} (h : r.run s = (.ok a, s'))
    (f : α → ExceptT Fault (StateM σ) β) : (r >>= f).run s = (f a).run s' := by
  rw [run_bind, h]

theorem run_bind_error {r : ExceptT Fault (StateM σ) α} {s s' : σ} {fault : Fault}
    (h : r.run s = (.error fault, s')) (f : α → ExceptT Fault (StateM σ) β) :
    (r >>= f).run s = (.error fault, s') := by
  rw [run_bind, h]

/-- A computation in two parts that went well: both parts did. -/
theorem of_run_bind_eq_ok {r : ExceptT Fault (StateM σ) α} {f : α → ExceptT Fault (StateM σ) β}
    {s s' : σ} {b : β} (h : (r >>= f).run s = (.ok b, s')) :
    ∃ a middle, r.run s = (.ok a, middle) ∧ (f a).run middle = (.ok b, s') := by
  rw [run_bind] at h
  rcases hr : r.run s with ⟨fault | a, middle⟩
  · rw [hr] at h
    cases h
  · rw [hr] at h
    exact ⟨a, middle, rfl, h⟩

theorem run_lift_bind (x : Except Fault α) (f : α → ExceptT Fault (StateM σ) β) (s : σ) :
    (liftM x >>= f).run s =
      match x with
      | .ok a => (f a).run s
      | .error fault => (.error fault, s) := by
  cases x <;> rfl

theorem run_get_bind (f : σ → ExceptT Fault (StateM σ) β) (s : σ) :
    (get >>= f).run s = (f s).run s := rfl

theorem run_modify_bind (g : σ → σ) (f : PUnit → ExceptT Fault (StateM σ) β) (s : σ) :
    (modify g >>= f).run s = (f ()).run (g s) := rfl

end Stateful

/-! ### The logs of a strategy -/

/-- A strategy has the entries, exits, orders and trades of an earlier state, and perhaps more behind
them. -/
structure Engine.Grows (e e' : Engine) : Prop where
  /-- The entries. -/
  entries : e.entries <+: e'.entries
  /-- The exits. -/
  exits : e.exits <+: e'.exits
  /-- The orders. -/
  orders : e.orders <+: e'.orders
  /-- The trades. -/
  trades : e.trades <+: e'.trades

namespace Engine

/-- Nothing is added where the logs are the same. -/
theorem Grows.of_eq {e e' : Engine} (hentries : e'.entries = e.entries) (hexits : e'.exits = e.exits)
    (horders : e'.orders = e.orders) (htrades : e'.trades = e.trades) : e.Grows e' :=
  ⟨hentries ▸ List.prefix_rfl, hexits ▸ List.prefix_rfl, horders ▸ List.prefix_rfl,
    htrades ▸ List.prefix_rfl⟩

theorem Grows.refl (e : Engine) : e.Grows e := .of_eq rfl rfl rfl rfl

theorem Grows.trans {e e' e'' : Engine} (h : e.Grows e') (h' : e'.Grows e'') : e.Grows e'' :=
  ⟨h.entries.trans h'.entries, h.exits.trans h'.exits, h.orders.trans h'.orders,
    h.trades.trans h'.trades⟩

/-- A computation with a strategy, begun in a state, only adds to its logs, whether it fails or
not. -/
def Adds (e : Engine) (r : Trading α) : Prop := e.Grows (r.run e).2

section Adds

variable {α β : Type} {e : Engine}

theorem adds_pure (a : α) : e.Adds (pure a) := .refl e

theorem adds_throw (fault : Fault) : e.Adds (throw fault : Trading α) := .refl e

theorem adds_get_bind {f : Engine → Trading β} (h : e.Adds (f e)) : e.Adds (get >>= f) := h

theorem adds_set_bind {e' : Engine} (he : e.Grows e') {f : PUnit → Trading β} (h : e'.Adds (f ())) :
    e.Adds (set e' >>= f) := he.trans h

theorem adds_modify {g : Engine → Engine} (hg : e.Grows (g e)) : e.Adds (modify g) := hg

theorem adds_modify_bind {g : Engine → Engine} (hg : e.Grows (g e)) {f : PUnit → Trading β}
    (h : (g e).Adds (f ())) : e.Adds (modify g >>= f) := hg.trans h

theorem adds_lift_bind {x : Except Fault α} {f : α → Trading β} (h : ∀ a, e.Adds (f a)) :
    e.Adds (liftM x >>= f) := by
  cases x with
  | error fault => exact .refl e
  | ok a => exact h a

theorem adds_bind {r : Trading α} {f : α → Trading β} (h : e.Adds r) (hf : ∀ a e', Adds e' (f a)) :
    e.Adds (r >>= f) := by
  rw [Adds, run_bind]
  rw [Adds] at h
  rcases hr : r.run e with ⟨fault | a, e'⟩
  · rw [hr] at h
    exact h
  · rw [hr] at h
    exact h.trans (hf a e')

end Adds

/-! ### The calls of a strategy -/

variable {e : Engine}

theorem adds_nameNow_bind {id : Value} {f : String → Trading β} (h : ∀ name, e.Adds (f name)) :
    e.Adds (nameNow id >>= f) := adds_get_bind (adds_lift_bind h)

theorem adds_applyBuy (r : Request) (qty : Int) (commission : Float) :
    e.Adds (applyBuy r qty commission) := by
  refine adds_get_bind (adds_lift_bind fun average => ?_)
  refine adds_set_bind ?_ (adds_nameNow_bind fun name => adds_modify ?_)
  · exact .of_eq rfl rfl rfl rfl
  · exact { Grows.refl _ with trades := List.prefix_append _ _ }

theorem adds_applySell (r : Request) (qty : Int) (commission : Float) :
    e.Adds (applySell r qty commission) := by
  refine adds_get_bind (adds_lift_bind fun gain => ?_)
  refine adds_set_bind ?_ (adds_nameNow_bind fun name => adds_modify ?_)
  · exact .of_eq rfl rfl rfl rfl
  · exact { Grows.refl _ with trades := List.prefix_append _ _ }

theorem adds_fill (r : Request) : e.Adds (fill r) := by
  rw [fill]
  refine adds_get_bind ?_
  simp only []
  split
  · exact adds_nameNow_bind fun _ => adds_pure none
  · refine adds_lift_bind fun cost => adds_get_bind (adds_modify_bind (.of_eq rfl rfl rfl rfl) ?_)
    have hrecord : ∀ (e' : Engine) (o : String → Order), e'.Adds do
        let order := o (← nameNow r.id)
        modify fun e => { e with orders := e.orders ++ [order] }
        return some order := by
      intro e' o
      refine adds_nameNow_bind fun name => adds_modify_bind ?_ (adds_pure _)
      exact { Grows.refl _ with orders := List.prefix_append _ _ }
    cases r.side with
    | buy => exact adds_bind (adds_applyBuy r _ _) fun _ e' => hrecord e' _
    | sell => exact adds_bind (adds_applySell r _ _) fun _ e' => hrecord e' _

theorem adds_order (price : Except Fault Float) (positional : List Value) (named : Options) :
    e.Adds (order price positional named) := by
  refine adds_lift_bind fun bound => ?_
  split
  · refine adds_get_bind (adds_lift_bind fun request => ?_)
    cases request with
    | some r => exact adds_bind (adds_fill r) fun _ _ => adds_pure _
    | none => exact adds_pure _
  · exact adds_throw _

theorem adds_entry (price : Except Fault Float) (positional : List Value) (named : Options) :
    e.Adds (entry price positional named) := by
  refine adds_lift_bind fun bound => ?_
  split
  · refine adds_get_bind (adds_modify_bind ?_ (adds_order _ _ _))
    exact { Grows.refl _ with entries := List.prefix_append _ _ }
  · exact adds_throw _

theorem adds_exit (price : Except Fault Float) (positional : List Value) (named : Options) :
    e.Adds (exit price positional named) := by
  refine adds_lift_bind fun bound => ?_
  split
  · refine adds_modify_bind ?_ (adds_get_bind ?_)
    · exact { Grows.refl _ with exits := List.prefix_append _ _ }
    · simp only []
      split
      · exact adds_order _ _ _
      · exact adds_pure _
  · exact adds_throw _

theorem adds_profit (price : Except Fault Float) : e.Adds (profit price) := by
  refine adds_get_bind (adds_lift_bind fun latest => adds_lift_bind fun unrealized => adds_pure _)

/-- **Every call of a strategy only adds to its logs.** -/
theorem adds_call (f : StrategyFunction) (price : Except Fault Float) (positional : List Value)
    (named : Options) : e.Adds (call f price positional named) := by
  cases f with
  | entry => exact adds_entry price positional named
  | exit => exact adds_exit price positional named
  | closeAll => exact adds_lift_bind fun bound => adds_exit _ _ _
  | order => exact adds_order price positional named
  | position => exact adds_lift_bind fun bound => adds_get_bind (adds_pure _)
  | pnl => exact adds_lift_bind fun bound => adds_bind (adds_profit price) fun _ _ => adds_pure _
  | summary =>
    refine adds_lift_bind fun bound => adds_get_bind ?_
    exact adds_bind (adds_profit price) fun _ _ => adds_pure _
  | priceSource => exact adds_lift_bind fun bound => adds_lift_bind fun latest => adds_pure _

end Engine

/-! ### The logs of an environment -/

/-- An environment has counted no less than at an earlier time, and has the plots, the titles of the
inputs and the logs of the strategy that it had, and perhaps more. -/
structure Env.Grows (env env' : Env) : Prop where
  /-- The number of operations. -/
  opCount : env.opCount ≤ env'.opCount
  /-- The plots. -/
  plots : env.plots <+: env'.plots
  /-- The titles of the inputs. -/
  inputs : ∀ title, (Datum.find? title env.inputs).isSome → (Datum.find? title env'.inputs).isSome
  /-- The strategy. -/
  engine : env.engine.Grows env'.engine

theorem Env.Grows.refl (env : Env) : env.Grows env :=
  ⟨Nat.le_refl _, List.prefix_rfl, fun _ h => h, .refl _⟩

theorem Env.Grows.trans {env env' env'' : Env} (h : env.Grows env') (h' : env'.Grows env'') :
    env.Grows env'' :=
  ⟨h.opCount.trans h'.opCount, h.plots.trans h'.plots, fun _ ht => h'.inputs _ (h.inputs _ ht),
    h.engine.trans h'.engine⟩

/-! ### Strays -/

/-- A computation that never takes a stray back. -/
def Rises {α : Type} (r : Run α) : Prop := ∀ env : Env, env.strays ≤ (r.run env).2.strays

section Strays

variable {α β : Type} {r : Run α} {f : α → Run β}

theorem Rises.bind (h : Rises r) (hf : ∀ a, Rises (f a)) : Rises (r >>= f) := by
  intro env
  have hr := h env
  rw [run_bind]
  rcases hrun : r.run env with ⟨fault | a, env'⟩
  all_goals rw [hrun] at hr
  · exact hr
  · exact hr.trans (hf a env')

theorem rises_stray : Rises stray := fun _ => Nat.le_succ _

/-- The first part of a computation that does not stray. -/
theorem Run.Stays.first {env : Env} (h : Run.Stays (r >>= f) env) (hr : Rises r)
    (hf : ∀ a, Rises (f a)) : Run.Stays r env := by
  have hrise := hr env
  rw [Run.Stays, run_bind] at h
  rw [Run.Stays]
  rcases hrun : r.run env with ⟨fault | a, env'⟩
  all_goals rw [hrun] at h hrise
  · exact h
  · exact Nat.le_antisymm ((hf a env').trans h.le) hrise

/-- The second part of a computation that does not stray. -/
theorem Run.Stays.second {env env' : Env} {a : α} (h : Run.Stays (r >>= f) env) (hr : Rises r)
    (hf : ∀ a, Rises (f a)) (hrun : r.run env = (.ok a, env')) : Run.Stays (f a) env' := by
  have hfirst : env'.strays = env.strays := by
    have := h.first hr hf
    rwa [Run.Stays, hrun] at this
  rw [Run.Stays, run_bind_ok hrun] at h
  exact h.trans hfirst.symm

/-- What begins with a stray strays. -/
theorem not_stays_stray_bind {f : PUnit → Run β} (hf : Rises (f ())) (env : Env) :
    ¬ Run.Stays (stray >>= f) env := by
  intro h
  have hrise := hf { env with strays := env.strays + 1 }
  rw [Run.Stays, stray, run_modify_bind] at h
  exact absurd (hrise.trans h.le) (Nat.not_succ_le_self _)

end Strays

/-! ### Computations of the host -/

/-- An environment with the plots, the inputs, the strategy and the strays of another one. -/
def Env.withRecords (env other : Env) : Env :=
  { env with
    plots := other.plots
    inputs := other.inputs
    engine := other.engine
    strays := other.strays }

/-- **Two environments are the same to the host**, the records aside: `close` is bound to the same, and
the methods of plain values come to the same. -/
structure Env.SameToHost (env base : Env) : Prop where
  /-- The name `close`. -/
  close : base.get? "close" = env.get? "close"
  /-- The methods. -/
  methods : base.methods = env.methods

/-- **What a computation of the host is.** It changes nothing but the plots, the inputs and the
strategy. As long as it does not stray, it only adds to the logs, and nothing else matters to it than
these, what `close` is bound to and the methods of plain values. -/
structure Hosted (r : Run α) : Prop where
  /-- Strays are never taken back. -/
  rises : Rises r
  /-- Nothing but the records is changed. -/
  run_snd : ∀ env : Env, (r.run env).2 = env.withRecords (r.run env).2
  /-- The logs grow. -/
  grows : ∀ env : Env, Run.Stays r env → env.Grows (r.run env).2
  /-- The rest of the environment does not matter. -/
  run_eq : ∀ env base : Env, env.SameToHost base → Run.Stays r env →
    r.run (base.withRecords env) = ((r.run env).1, base.withRecords (r.run env).2)

section Hosted

variable {α β : Type}

/-- Where nothing is recorded there is nothing to show. -/
theorem hosted_pure (a : α) : Hosted (pure a) :=
  ⟨fun _ => Nat.le_refl _, fun _ => rfl, fun env _ => .refl env, fun _ _ _ _ => rfl⟩

theorem hosted_throw (fault : Fault) : Hosted (throw fault : Run α) :=
  ⟨fun _ => Nat.le_refl _, fun _ => rfl, fun env _ => .refl env, fun _ _ _ _ => rfl⟩

theorem run_ofExcept (x : Except Fault α) (env : Env) : (ofExcept x).run env = (x, env) := by
  cases x <;> rfl

theorem hosted_ofExcept (x : Except Fault α) : Hosted (ofExcept x) := by
  cases x with
  | error fault => exact hosted_throw fault
  | ok a => exact hosted_pure a

theorem Hosted.bind {r : Run α} {f : α → Run β} (h : Hosted r) (hf : ∀ a, Hosted (f a)) :
    Hosted (r >>= f) := by
  have hrises := fun a => (hf a).rises
  constructor
  · exact h.rises.bind hrises
  · intro env
    have hframe := h.run_snd env
    rw [run_bind]
    rcases hrun : r.run env with ⟨fault | a, env'⟩
    all_goals rw [hrun] at hframe
    · exact hframe
    · have hsame : env' = env.withRecords env' := hframe
      refine ((hf a).run_snd env').trans ?_
      rw [hsame]
      rfl
  · intro env hstays
    have hr := h.grows env (hstays.first h.rises hrises)
    rw [run_bind]
    rcases hrun : r.run env with ⟨fault | a, env'⟩
    all_goals rw [hrun] at hr
    · exact hr
    · exact hr.trans ((hf a).grows env' (hstays.second h.rises hrises hrun))
  · intro env base hbase hstays
    have hr := h.run_eq env base hbase (hstays.first h.rises hrises)
    have hframe := h.run_snd env
    rcases hrun : r.run env with ⟨fault | a, env'⟩
    all_goals rw [hrun] at hr hframe
    · rw [run_bind_error hr, run_bind_error hrun]
    · rw [run_bind_ok hr, run_bind_ok hrun]
      have hclose : env'.get? "close" = env.get? "close" := congrArg (·.get? "close") hframe
      have hmethods : env'.methods = env.methods := congrArg (·.methods) hframe
      exact (hf a).run_eq env' base
        ⟨hbase.close.trans hclose.symm, hbase.methods.trans hmethods.symm⟩
        (hstays.second h.rises hrises hrun)

/-- What strays at once needs only to change nothing but the records. -/
theorem hosted_stray_bind {r : Run β} (hrises : Rises r)
    (hframe : ∀ env : Env, (r.run env).2 = env.withRecords (r.run env).2) :
    Hosted (do stray; r) := by
  refine ⟨rises_stray.bind fun _ => hrises, fun env => ?_,
    fun env hstays => (not_stays_stray_bind hrises env hstays).elim,
    fun env _ _ hstays => (not_stays_stray_bind hrises env hstays).elim⟩
  rw [stray, run_modify_bind]
  exact hframe { env with strays := env.strays + 1 }

/-- What looks at the environment first, and sees the same where the records are the same and all else
is the same to the host. -/
theorem hosted_get {f : Env → Run β} (h : ∀ env, Hosted (f env))
    (hf : ∀ env base : Env, env.SameToHost base → f (base.withRecords env) = f env) :
    Hosted (get >>= f) := by
  refine ⟨fun env => (h env).rises env, fun env => (h env).run_snd env,
    fun env => (h env).grows env, fun env base hbase hstays => ?_⟩
  rw [run_get_bind, run_get_bind, hf env base hbase]
  exact (h env).run_eq env base hbase hstays

/-- What adds to the plots or the inputs. -/
theorem hosted_modify {g : Env → Env} (hstrays : ∀ env : Env, (g env).strays = env.strays)
    (hgrows : ∀ env : Env, env.Grows (g env))
    (hg : ∀ env base : Env, g (base.withRecords env) = base.withRecords (g env)) :
    Hosted (modify g) :=
  ⟨fun env => (hstrays env).ge, fun env => hg env env, fun env _ => hgrows env,
    fun env base _ _ => Prod.ext rfl (hg env base)⟩

theorem run_withEngine (action : Trading α) (env : Env) : (withEngine action).run env =
    ((action.run env.engine).1, { env with engine := (action.run env.engine).2 }) := by
  rw [withEngine, run_get_bind]
  rcases action.run env.engine with ⟨_ | _, e⟩ <;> rfl

/-- What a strategy does is done to the strategy of the environment. -/
theorem hosted_withEngine {action : Trading α} (h : ∀ e, Engine.Adds e action) :
    Hosted (withEngine action) := by
  refine ⟨fun env => ?_, fun env => ?_, fun env _ => ?_, fun env base _ _ => ?_⟩
  · rw [run_withEngine]
  · rw [run_withEngine]
    rfl
  · rw [run_withEngine]
    exact { Env.Grows.refl env with engine := h env.engine }
  · rw [run_withEngine, run_withEngine]
    rfl

/-! ### The functions of the host -/

theorem hosted_computed (f : List Value → Options → Except Fault Value) (positional : List Value)
    (named : Options) : Hosted (computed f positional named) :=
  hosted_get (fun _ => hosted_ofExcept _) fun _ _ _ => rfl

/-- An input adds a title, or gives a title that is there another value. -/
theorem hosted_input (positional : List Value) (named : Options) :
    Hosted (input positional named) := by
  refine .bind (hosted_ofExcept _) fun bound => ?_
  split
  · split
    · exact hosted_pure _
    · refine hosted_get (fun env => .bind (hosted_ofExcept _) fun key => .bind (hosted_modify ?_ ?_ ?_)
        fun _ => hosted_pure _) fun _ _ _ => rfl
      · exact fun _ => rfl
      · intro env
        refine { Env.Grows.refl env with inputs := fun title ht => ?_ }
        rcases eq_or_ne title (String.ofList key) with rfl | hne
        · simp
        · rwa [Datum.find?_bind_of_ne hne]
      · intro env base
        rfl
  · exact hosted_throw _

theorem hosted_plot (positional : List Value) (named : Options) : Hosted (plot positional named) := by
  refine .bind (hosted_ofExcept _) fun bound => .bind (hosted_modify ?_ ?_ ?_) fun _ => hosted_pure _
  · exact fun _ => rfl
  · intro env
    exact { Env.Grows.refl env with plots := List.prefix_append _ _ }
  · intro env base
    rfl

theorem securityBase_withRecords {env base : Env} (hclose : base.get? "close" = env.get? "close")
    (expr : Value) : securityBase (base.withRecords env) expr = securityBase env expr := by
  have hget : (base.withRecords env).get? "close" = env.get? "close" := hclose
  unfold securityBase
  rw [hget]
  rfl

/-- **Every function of the host is a computation of the host.** -/
theorem hosted_call (f : HostFunction) (positional : List Value) (named : Options) :
    Hosted (f.call positional named) := by
  cases f with
  | ta f => exact hosted_computed _ _ _
  | math f => exact hosted_computed _ _ _
  | rgb => exact hosted_computed _ _ _
  | input => exact hosted_input _ _
  | security =>
    refine hosted_get (fun _ => hosted_computed _ _ _) fun env base hbase => ?_
    have heq : security (base.withRecords env) = security env := by
      funext positional named
      simp only [security, securityBase_withRecords hbase.close]
    rw [heq]
  | plot => exact hosted_plot _ _
  | strategy f =>
    refine hosted_get (fun _ => hosted_withEngine fun e => e.adds_call _ _ _ _)
      fun env base hbase => ?_
    have hget : (base.withRecords env).get? "close" = env.get? "close" := hbase.close
    rw [Env.latestPrice, Env.latestPrice, hget]
  | gather => exact hosted_pure _
  | echo => exact hosted_ofExcept _

/-! ### Methods of plain values -/

/-- A method that reaches further changes nothing but the strategy, and that without a further stray. -/
theorem run_ownMethod (owner : Value) (name : String) (positional : List Value) (named : Options)
    (env : Env) : ∃ e, ((owner.ownMethod name positional named).run env).2 = { env with engine := e } := by
  have hfill : ∀ template : Env → Except Fault (List Char), ((do
      let filled ← ofExcept (template (← get))
      return Value.text (String.ofList filled) : Run Value).run env).2 = env := by
    intro template
    rw [run_get_bind, run_bind, run_ofExcept]
    cases template env <;> rfl
  rw [Value.ownMethod.eq_def]
  split
  · split
    · exact ⟨_, congrArg Prod.snd (run_withEngine _ _)⟩
    · exact ⟨_, rfl⟩
  · exact ⟨_, hfill _⟩
  · exact ⟨_, hfill _⟩
  · exact ⟨_, hfill _⟩
  · exact ⟨_, rfl⟩

theorem hosted_callMethod (owner : Value) (name : String) (positional : List Value)
    (named : Options) : Hosted (owner.callMethod name positional named) := by
  rw [Value.callMethod.eq_def]
  split
  · exact .bind (hosted_ofExcept _) fun _ => hosted_pure _
  · split
    · refine hosted_stray_bind (fun env => ?_) fun env => ?_
      all_goals obtain ⟨e, he⟩ := run_ownMethod owner name positional named env
      · rw [he]
      · rw [he]
        rfl
    · refine hosted_get (fun _ => hosted_ofExcept _) fun env base hbase => ?_
      have hmethods : (base.withRecords env).methods = env.methods := hbase.methods
      rw [hmethods]
      rfl

/-- **Everything that can be called is a computation of the host.** -/
theorem hosted_callable (f : Callable) (positional : List Value) (named : Options) :
    Hosted (f.call positional named) := by
  cases f with
  | host f => exact hosted_call f positional named
  | method owner name => exact hosted_callMethod owner name positional named
  | foreign => exact hosted_stray_bind (fun _ => Nat.le_refl _) fun _ => rfl

/-! ### The steps of evaluation that call the host -/

/-- Where a name resolves to the same, it reads the same. -/
theorem Env.lookUp_congr {env env' : Env} {name : String}
    (h : env'.resolve? name = env.resolve? name) : env'.lookUp name = env.lookUp name := by
  rw [lookUp, lookUp, looksIntoLibrary, looksIntoLibrary, h]

theorem hosted_lookUp (env : Env) (name : String) : Hosted (env.lookUp name) := by
  rw [Env.lookUp]
  split
  · exact hosted_stray_bind (fun _ => Nat.le_refl _) fun _ => rfl
  · exact hosted_pure _

theorem hosted_operate (op : String) (left right : Value) : Hosted (operate op left right) :=
  hosted_get (fun _ => hosted_ofExcept _) fun _ _ _ => rfl

theorem hosted_signed (op : String) (v : Value) : Hosted (signed op v) :=
  hosted_get (fun _ => hosted_ofExcept _) fun _ _ _ => rfl

theorem hosted_subscriptedBy (s : Series) (f : Callable) : Hosted (subscriptedBy s f) := by
  refine .bind (hosted_callable _ _ _) fun index => ?_
  split
  · exact hosted_throw _
  · exact hosted_get (fun _ => hosted_ofExcept _) fun _ _ _ => rfl

theorem hosted_partsFor (s : Series) (parts : List Value) : Hosted (partsFor s parts) := by
  induction parts with
  | nil => exact hosted_pure []
  | cons part rest ih =>
    refine .bind ?_ fun v => .bind ih fun values => hosted_pure _
    rw [partFor]
    split
    · exact hosted_callable _ _ _
    · exact hosted_pure _

theorem hosted_subscriptedByParts (s : Series) (parts : List Value) :
    Hosted (subscriptedByParts s parts) := by
  rw [subscriptedByParts]
  split
  · exact hosted_throw _
  · exact .bind (hosted_partsFor s parts) fun values =>
      hosted_get (fun _ => hosted_ofExcept _) fun _ _ _ => rfl

theorem hosted_subscripted (target index : Value) : Hosted (subscripted target index) := by
  refine hosted_get (fun env => ?_) fun _ _ _ => rfl
  simp only []
  split
  · exact hosted_subscriptedBy _ _
  · exact hosted_subscriptedByParts _ _
  · exact hosted_ofExcept _

/-- Giving faults another name does not make a difference. -/
theorem Hosted.adapt {r : Run α} (h : Hosted r) (rename : Fault → Fault) :
    Hosted (r.adapt rename) := by
  have hrun : ∀ env, (r.adapt rename).run env = ((r.run env).1.mapError rename, (r.run env).2) :=
    fun _ => rfl
  constructor
  · exact h.rises
  · exact h.run_snd
  · exact h.grows
  · intro env base hbase hstays
    rw [hrun, hrun, h.run_eq env base hbase hstays]

theorem hosted_callValue (callee : String) (target : Option Value) (values : List Value) :
    Hosted (callValue callee target values) := by
  unfold callValue
  split
  · exact hosted_pure _
  · exact (hosted_callable _ _ _).adapt _

end Hosted

end ChartScript
