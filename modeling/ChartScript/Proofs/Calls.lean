import ChartScript.Proofs.Description
import ChartScript.Proofs.Fills

/-!
# Calls of a strategy

An entry, an exit and an order have the same three steps. The call first notes what it is and makes the
arguments of an order out of its own; the arguments are read, which gives a request or none; the request
is filled. The whole point is `ChartScript.StrategyCall.run_perform`: the first two steps are plain
computations (`ChartScript.StrategyCall.noted` and `ChartScript.StrategyCall.asked`), so that all that
can happen half-way happens while a request is filled, and is said by `ChartScript.Engine.FillsTo`.

The other functions leave the strategy as it is. So a position is sound in every state that a strategy
can come to (`ChartScript.Engine.Reachable.sound`).
-/

namespace ChartScript

open Engine
open Grammar (bind_eq_ok)
open Number (ceiling)

/-- A call of a function of the strategy, with the latest price at its time. -/
structure StrategyCall where
  /-- The function. -/
  function : StrategyFunction
  /-- The latest price, if there is one. -/
  price : Except Fault Float
  /-- The positional arguments. -/
  positional : List Value
  /-- The named arguments. -/
  named : Options

/-- Whether a function trades. The others only show something. -/
def StrategyFunction.trades : StrategyFunction → Bool
  | .entry | .exit | .closeAll | .order => true
  | .position | .pnl | .summary | .priceSource => false

/-- The request that the arguments of an order come to. -/
def Engine.asked (e : Engine) (price : Except Fault Float) (positional : List Value)
    (named : Options) : Except Fault (Option Request) := do
  let bound ← orderSignature.bind positional named
  match bound.args with
  | [id, action, qty] => request e price id action qty (mergedOptions bound.rest bound.options)
  | _ => throw .wrongType

namespace StrategyCall

/-- Carries out a call. -/
def perform (c : StrategyCall) : Trading Value := Engine.call c.function c.price c.positional c.named

/-- Carries out calls one after the other, up to the first that fails. -/
def performAll : List StrategyCall → Trading Unit
  | [] => return
  | c :: rest => do
    let _ ← c.perform
    performAll rest

/-- The positional arguments, and in front of them the name under which all is closed. -/
def arguments (c : StrategyCall) : List Value :=
  match c.function with
  | .closeAll => .text "close_all" :: c.positional
  | _ => c.positional

/-- The name that a call gives: its first argument, or the one that is named so. -/
def name? (c : StrategyCall) : Option Value := c.arguments.head?.or (Datum.find? "id" c.named)

/-- What a call comes to before anything is read or filled: the strategy with the entry or the exit
noted, and the arguments of the order to be placed, if there is one. -/
def prepared (c : StrategyCall) (e : Engine) :
    Except Fault (Engine × Option (List Value × Options)) :=
  match c.function with
  | .order => .ok (e, some (c.positional, c.named))
  | .entry => do
    let bound ← namedSignature.bind c.arguments c.named
    match bound.args with
    | [id] =>
      let (side, rest) := direction bound.rest
      let (qty, rest) := entryQty e.defaultQty (Datum.find? "qty" bound.options) rest
      return ({ e with entries := e.entries ++ [(id, qty)] },
        some (id :: .text side.name :: qty :: rest,
          bound.options.filter fun option => option.1 != "qty"))
    | _ => throw .wrongType
  | .exit | .closeAll => do
    let bound ← namedSignature.bind c.arguments c.named
    match bound.args with
    | [id] =>
      return ({ e with exits := e.exits ++ [id] },
        if 0 < e.position.size then
          some (id :: .text Side.sell.name :: .int e.position.size :: bound.rest, bound.options)
        else none)
    | _ => throw .wrongType
  | .position | .pnl | .summary | .priceSource => .ok (e, none)

/-- The strategy with the entry or the exit of a call noted. -/
def noted (c : StrategyCall) (e : Engine) : Engine :=
  match c.prepared e with
  | .ok (e', _) => e'
  | .error _ => e

/-- The request that a call comes to. -/
def asked (c : StrategyCall) (e : Engine) : Except Fault (Option Request) := do
  match ← c.prepared e with
  | (e', some (positional, named)) => e'.asked c.price positional named
  | (_, none) => return none

end StrategyCall

/-! ### The three steps of a call -/

variable {e e' : Engine} {c : StrategyCall} {r : Request} {price : Except Fault Float}
  {positional : List Value} {named : Options}

theorem Engine.run_order (price : Except Fault Float) (positional : List Value) (named : Options)
    (e : Engine) :
    (order price positional named).run e =
      match e.asked price positional named with
      | .error fault => (.error fault, e)
      | .ok none => (.ok .null, e)
      | .ok (some r) => (fill r >>= fun o => return orderValue o).run e := by
  rw [order, Engine.asked, run_lift_bind]
  cases orderSignature.bind positional named with
  | error fault => rfl
  | ok bound =>
    obtain ⟨args, rest, options⟩ := bound
    match args with
    | [id, action, qty] =>
      show ((get : Trading Engine) >>= _ : Trading Value).run e = _
      rw [run_get_bind]
      dsimp only
      rw [run_lift_bind]
      show _ = match request e price id action qty (mergedOptions rest options) with
        | .error fault => _
        | .ok none => _
        | .ok (some r) => _
      rcases request e price id action qty (mergedOptions rest options) with fault | _ | r <;> rfl
    | [] | [_] | [_, _] | _ :: _ :: _ :: _ :: _ => rfl

/-- A function that takes any arguments refuses only the name of its object. -/
theorem Signature.bind_anything (positional : List Value) (named : Options) :
    Signature.anything.bind positional named =
      if (Datum.find? "self" named).isSome then .error .wrongType
      else .ok { args := [], rest := positional, options := named } := by
  simp [Signature.bind, Signature.anything, Signature.hasParam, bindParams]

/-- Closing all is an exit under a fixed name. -/
theorem Engine.run_closeAll (price : Except Fault Float) (positional : List Value) (named : Options)
    (e : Engine) :
    (closeAll price positional named).run e =
      (exit price (.text "close_all" :: positional) named).run e := by
  rw [closeAll, run_lift_bind, Signature.bind_anything]
  -- what the one signature refuses, the other refuses with the same fault
  split_ifs with hself
  · have hbind : namedSignature.bind (.text "close_all" :: positional) named =
        .error .wrongType := by
      rw [Signature.bind, if_pos (by rw [hself]; rfl)]
    rw [exit, run_lift_bind, hbind]
  · rfl

namespace StrategyCall

theorem run_entry (h : c.function = .entry) :
    (entry c.price c.positional c.named).run e =
      match c.asked e with
      | .error fault => (.error fault, c.noted e)
      | .ok none => (.ok .null, c.noted e)
      | .ok (some r) => (fill r >>= fun o => return orderValue o).run (c.noted e) := by
  have harguments : c.arguments = c.positional := by rw [arguments, h]
  rw [entry, run_lift_bind, asked, noted, prepared, h, harguments]
  dsimp only
  cases namedSignature.bind c.positional c.named with
  | error fault => rfl
  | ok bound =>
    obtain ⟨args, rest, options⟩ := bound
    match args with
    | [id] => exact run_order _ _ _ _
    | [] | _ :: _ :: _ => rfl

theorem run_exit (h : c.function = .exit ∨ c.function = .closeAll) :
    (exit c.price c.arguments c.named).run e =
      match c.asked e with
      | .error fault => (.error fault, c.noted e)
      | .ok none => (.ok .null, c.noted e)
      | .ok (some r) => (fill r >>= fun o => return orderValue o).run (c.noted e) := by
  have hprepared : c.prepared e = (do
      let bound ← namedSignature.bind c.arguments c.named
      match bound.args with
      | [id] =>
        return ({ e with exits := e.exits ++ [id] },
          if 0 < e.position.size then
            some (id :: .text Side.sell.name :: .int e.position.size :: bound.rest, bound.options)
          else none)
      | _ => throw .wrongType) := by
    rw [prepared]
    rcases h with h | h <;> rw [h]
  rw [exit, run_lift_bind]
  cases hbind : namedSignature.bind c.arguments c.named with
  | error fault =>
    rw [hbind] at hprepared
    rw [asked, noted, hprepared]
    rfl
  | ok bound =>
    obtain ⟨args, rest, options⟩ := bound
    rw [hbind] at hprepared
    match args with
    | [id] =>
      change c.prepared e = .ok (_, if _ then _ else _) at hprepared
      show (if 0 < e.position.size then _ else _ : Trading Value).run _ = _
      rw [asked, noted, hprepared]
      split_ifs
      · exact run_order _ _ _ _
      · rfl
    | [] | _ :: _ :: _ =>
      rw [asked, noted, hprepared]
      rfl

/-- **The three steps of a call that trades.** -/
theorem run_perform (h : c.function.trades = true) (e : Engine) :
    c.perform.run e =
      match c.asked e with
      | .error fault => (.error fault, c.noted e)
      | .ok none => (.ok .null, c.noted e)
      | .ok (some r) => (fill r >>= fun o => return orderValue o).run (c.noted e) := by
  rw [perform]
  cases hf : c.function with
  | entry => exact run_entry hf
  | exit =>
    have harguments : c.arguments = c.positional := by rw [arguments, hf]
    show (exit c.price c.positional c.named).run e = _
    rw [← harguments]
    exact run_exit (.inl hf)
  | closeAll =>
    have harguments : c.arguments = .text "close_all" :: c.positional := by rw [arguments, hf]
    show (closeAll c.price c.positional c.named).run e = _
    rw [run_closeAll, ← harguments]
    exact run_exit (.inr hf)
  | order =>
    show (order c.price c.positional c.named).run e = _
    rw [run_order, asked, noted, prepared, hf]
    rfl
  | position | pnl | summary | priceSource => rw [hf] at h; cases h

end StrategyCall

/-! ### Calls that only show something -/

/-- A computation with a strategy, begun in a state, leaves it as it is. -/
def Engine.Keeps (e : Engine) (r : Trading α) : Prop := (r.run e).2 = e

section Keeps

variable {α β : Type}

theorem Engine.keeps_pure (a : α) : e.Keeps (pure a) := rfl

theorem Engine.keeps_get_bind {f : Engine → Trading β} (h : e.Keeps (f e)) : e.Keeps (get >>= f) := h

theorem Engine.keeps_lift_bind {x : Except Fault α} {f : α → Trading β} (h : ∀ a, e.Keeps (f a)) :
    e.Keeps (liftM x >>= f) := by
  cases x with
  | error fault => rfl
  | ok a => exact h a

theorem Engine.keeps_bind {r : Trading α} {f : α → Trading β} (h : e.Keeps r)
    (hf : ∀ a, e.Keeps (f a)) : e.Keeps (r >>= f) := by
  rw [Keeps] at h
  rw [Keeps, run_bind]
  -- either way the state behind the first part is the one before it
  rcases hr : r.run e with ⟨_ | a, e'⟩
  all_goals
    rw [hr] at h
    cases h
  · rfl
  · exact hf a

theorem Engine.keeps_profit (price : Except Fault Float) : e.Keeps (profit price) :=
  keeps_get_bind (keeps_lift_bind fun _ => keeps_lift_bind fun _ => keeps_pure _)

/-- **A call that does not trade changes nothing.** -/
theorem StrategyCall.keeps_perform (h : c.function.trades = false) : e.Keeps c.perform := by
  rw [perform]
  cases hf : c.function with
  | entry | exit | closeAll | order => rw [hf] at h; cases h
  | position => exact keeps_lift_bind fun _ => keeps_get_bind (keeps_pure _)
  | pnl => exact keeps_lift_bind fun _ => keeps_bind (keeps_profit _) fun _ => keeps_pure _
  | summary =>
    exact keeps_lift_bind fun _ => keeps_get_bind (keeps_bind (keeps_profit _) fun _ => keeps_pure _)
  | priceSource => exact keeps_lift_bind fun _ => keeps_lift_bind fun _ => keeps_pure _

end Keeps

/-! ### What is asked for -/

/-- The first parameter is given by the first argument or by name. -/
theorem head?_of_bindParams {name : String} {params : List (String × Option Value)}
    {args : List Value} (h : bindParams named ((name, none) :: params) positional = some args) :
    args.head? = positional.head?.or (Datum.find? name named) := by
  cases positional with
  | nil =>
    rw [bindParams, Option.or_none] at h
    cases hnamed : Datum.find? name named with
    | none =>
      rw [hnamed] at h
      cases h
    | some v =>
      rw [hnamed] at h
      obtain ⟨rest, -, rfl⟩ := Option.map_eq_some_iff.1 h
      rfl
  | cons v positional =>
    rw [bindParams] at h
    split_ifs at h
    obtain ⟨rest, -, rfl⟩ := Option.map_eq_some_iff.1 h
    rfl

theorem Signature.head?_args_of_bind {s : Signature} {bound : Bound} {name : String}
    {params : List (String × Option Value)} (hparams : s.params = (name, none) :: params)
    (h : s.bind positional named = .ok bound) :
    bound.args.head? = positional.head?.or (Datum.find? name named) := by
  rw [Signature.bind, hparams] at h
  split_ifs at h
  split at h
  · rename_i hargs
    cases h
    exact head?_of_bindParams hargs
  · cases h

theorem Engine.of_request {id action qty : Value} {options : Options}
    (h : request e price id action qty options = .ok (some r)) :
    r.id = id ∧ r.wanted.natAbs < ceiling := by
  rw [request] at h
  obtain ⟨slippage, -, h⟩ := bind_eq_ok h
  obtain ⟨share, -, h⟩ := bind_eq_ok h
  obtain ⟨side?, -, h⟩ := bind_eq_ok h
  cases side? with
  | none =>
    obtain ⟨name, -, h⟩ := bind_eq_ok h
    cases h
  | some side =>
    obtain ⟨requested, -, h⟩ := bind_eq_ok h
    obtain ⟨wanted, hwanted, h⟩ := bind_eq_ok h
    obtain ⟨price, -, h⟩ := bind_eq_ok h
    cases h
    refine ⟨rfl, ?_⟩
    rw [Value.floatToInt] at hwanted
    split at hwanted
    · rename_i htruncate
      cases hwanted
      exact Number.natAbs_lt_of_truncate? htruncate
    · cases hwanted

theorem Engine.of_asked (h : e.asked price positional named = .ok (some r)) :
    positional.head?.or (Datum.find? "id" named) = some r.id ∧ r.wanted.natAbs < ceiling := by
  obtain ⟨bound, hbound, h⟩ := bind_eq_ok h
  have hhead := Signature.head?_args_of_bind rfl hbound
  obtain ⟨args, rest, options⟩ := bound
  match args with
  | [id, action, qty] =>
    obtain ⟨rfl, hwanted⟩ := of_request h
    exact ⟨hhead.symm, hwanted⟩
  | [] | [_] | [_, _] | _ :: _ :: _ :: _ :: _ => cases h

namespace StrategyCall

/-- What a call notes, and that an order it places has the name that it gives. -/
theorem of_prepared {o : Option (List Value × Options)} (h : c.prepared e = .ok (e', o)) :
    (e' = e ∨
      (c.function = .entry ∧ ∃ id qty, c.name? = some id ∧
        e' = { e with entries := e.entries ++ [(id, qty)] }) ∨
      ((c.function = .exit ∨ c.function = .closeAll) ∧ ∃ id, c.name? = some id ∧
        e' = { e with exits := e.exits ++ [id] })) ∧
    ∀ positional named, o = some (positional, named) →
      positional.head?.or (Datum.find? "id" named) = c.name? := by
  rw [prepared] at h
  cases hf : c.function with
  | order =>
    rw [hf] at h
    cases h
    refine ⟨.inl rfl, fun positional named ho => ?_⟩
    cases ho
    rw [name?, arguments, hf]
  | position | pnl | summary | priceSource =>
    rw [hf] at h
    cases h
    exact ⟨.inl rfl, fun _ _ ho => nomatch ho⟩
  | entry =>
    rw [hf] at h
    obtain ⟨⟨args, rest, options⟩, hbound, h⟩ := bind_eq_ok h
    have hhead := Signature.head?_args_of_bind rfl hbound
    match args with
    | [id] =>
      cases h
      refine ⟨.inr (.inl ⟨rfl, id, _, hhead.symm, rfl⟩), fun positional named ho => ?_⟩
      cases ho
      exact hhead
    | [] | _ :: _ :: _ => cases h
  | exit | closeAll =>
    rw [hf] at h
    obtain ⟨⟨args, rest, options⟩, hbound, h⟩ := bind_eq_ok h
    have hhead := Signature.head?_args_of_bind rfl hbound
    match args with
    | [id] =>
      cases h
      refine ⟨.inr (.inr ⟨by simp, id, hhead.symm, rfl⟩), fun positional named ho => ?_⟩
      split_ifs at ho
      cases ho
      exact hhead
    | [] | _ :: _ :: _ => cases h

/-- The note of a call. -/
theorem noted_cases (c : StrategyCall) (e : Engine) :
    c.noted e = e ∨
      (c.function = .entry ∧ ∃ id qty, c.name? = some id ∧
        c.noted e = { e with entries := e.entries ++ [(id, qty)] }) ∨
      ((c.function = .exit ∨ c.function = .closeAll) ∧ ∃ id, c.name? = some id ∧
        c.noted e = { e with exits := e.exits ++ [id] }) := by
  rw [noted]
  cases h : c.prepared e with
  | error fault => exact .inl rfl
  | ok p => exact (of_prepared h).1

/-- A note leaves the figures, the orders and the trades alone. -/
theorem noted_eq (c : StrategyCall) (e : Engine) :
    (c.noted e).ledger = e.ledger ∧ (c.noted e).orders = e.orders ∧ (c.noted e).trades = e.trades := by
  rcases noted_cases c e with h | ⟨-, id, qty, -, h⟩ | ⟨-, id, -, h⟩
  all_goals
    rw [h]
    exact ⟨rfl, rfl, rfl⟩

theorem position_noted (c : StrategyCall) (e : Engine) : (c.noted e).position = e.position := by
  rcases noted_cases c e with h | ⟨-, id, qty, -, h⟩ | ⟨-, id, -, h⟩
  all_goals
    rw [h]

/-- The request of a call has the name that the call gives, and asks for no more than a float can
hold. -/
theorem of_asked (h : c.asked e = .ok (some r)) :
    c.name? = some r.id ∧ r.wanted.natAbs < ceiling := by
  obtain ⟨⟨e', o⟩, hprepared, h⟩ := bind_eq_ok h
  match o with
  | none => cases h
  | some (positional, named) =>
    rw [← (of_prepared hprepared).2 _ _ rfl]
    exact Engine.of_asked h

end StrategyCall

/-! ### Reachable states -/

theorem Engine.Sound.of_ledger (h : e.Sound) (hledger : e'.ledger = e.ledger) : e'.Sound := by
  have hsize : e'.position.size = e.position.size := congrArg Ledger.size hledger
  exact ⟨hsize ▸ h.nonneg, hsize ▸ h.lt⟩

/-- A call that has something to ask for fills the request. -/
theorem StrategyCall.perform_fillsTo (h : e.Sound) (htrades : c.function.trades = true)
    (hasked : c.asked e = .ok (some r)) :
    ∃ result e', FillsTo r (c.noted e) result e' ∧
      c.perform.run e = (result.map orderValue, e') := by
  refine ⟨_, _, fillsTo (h.of_ledger (c.noted_eq e).1) (of_asked hasked).2, ?_⟩
  rw [run_perform htrades, hasked]
  dsimp only
  rw [run_bind]
  rcases (fill r).run (c.noted e) with ⟨_ | _, e'⟩ <;> rfl

/-- A call leaves a sound position behind, whether it fails or not. -/
theorem StrategyCall.sound_perform (h : e.Sound) (c : StrategyCall) : (c.perform.run e).2.Sound := by
  cases htrades : c.function.trades with
  | false =>
    rw [keeps_perform htrades]
    exact h
  | true =>
    have hnoted : (c.noted e).Sound := h.of_ledger (c.noted_eq e).1
    -- without a request the call ends with its note
    match hasked : c.asked e with
    | .error fault | .ok none =>
      rw [run_perform htrades, hasked]
      exact hnoted
    | .ok (some r) =>
      obtain ⟨result, e', hfill, hrun⟩ := perform_fillsTo h htrades hasked
      rw [hrun]
      exact hfill.sound hnoted

/-- A state that a strategy can come to: by calls of any kind, at any prices, of which each can fail. -/
inductive Engine.Reachable : Engine → Prop where
  /-- The state before the first call. -/
  | fresh (commission : Float) (defaultQty : Value) : Reachable (.fresh commission defaultQty)
  /-- The state after one more call. -/
  | perform {e : Engine} (h : Reachable e) (c : StrategyCall) : Reachable (c.perform.run e).2

theorem Engine.sound_fresh (commission : Float) (defaultQty : Value) :
    (fresh commission defaultQty).Sound :=
  ⟨le_rfl, Int.natCast_pos.2 Number.ceiling_pos⟩

/-- **The position is sound in every state that a strategy can come to.** -/
theorem Engine.Reachable.sound (h : e.Reachable) : e.Sound := by
  induction h with
  | fresh commission defaultQty => exact sound_fresh commission defaultQty
  | perform _ c ih => exact c.sound_perform ih

end ChartScript
