import ChartScript.Proofs.Calls
import ChartScript.Proofs.Settling

/-!
# The trades are a complete ledger

A strategy writes its orders and its trades in two places and keeps its figures in a third. The whole
point is that the trades alone tell everything (`ChartScript.StrategyCall.kept_performAll`): the figures
are what comes of posting them one after the other (`ChartScript.Engine.Kept.ledger`), each of them is
allowed where it stands, and there is one for every order.

Order and trade show the name of the call each at its own time. The name is the same, except where it
holds the trades themselves, by itself or through other lists of the strategy: the order then shows one
trade more (`ChartScript.StrategyCall.trades_as_name`). What the name holds depends on the state, so each
call stands with the state that it finds (`ChartScript.StrategyCall.steps`).
-/

namespace ChartScript

open Engine
open Number (ceiling)

/-! ### Trades after trades -/

namespace Ledger

/-- Trades that are allowed one after the other. -/
def Accepts : Ledger → List Trade → Prop
  | _, [] => True
  | l, t :: trades => l.Allows t ∧ (l.post t).Accepts trades

theorem accepts_concat (l : Ledger) (trades : List Trade) (t : Trade) :
    l.Accepts (trades ++ [t]) ↔ l.Accepts trades ∧ (trades.foldl post l).Allows t := by
  induction trades generalizing l with
  | nil => simp [Accepts]
  | cons first trades ih =>
    rw [List.cons_append, Accepts, ih, Accepts, List.foldl_cons, and_assoc]

/-- Figures of a position that is never short, and has no average price where nothing is held. -/
structure Long (l : Ledger) : Prop where
  /-- Not short. -/
  nonneg : 0 ≤ l.size
  /-- No average price of nothing. -/
  flat : l.size = 0 → l.average = 0.0

theorem long_opening : opening.Long := ⟨le_rfl, fun _ => rfl⟩

theorem Long.post {l : Ledger} (h : l.Long) {t : Trade} (ht : l.Allows t) : (l.post t).Long := by
  have hnonneg := h.nonneg
  have hpos := ht.pos
  rw [Ledger.post]
  cases hside : t.side with
  | buy =>
    refine ⟨?_, fun hzero => ?_⟩
    · show 0 ≤ l.size + t.qty
      omega
    · change l.size + t.qty = 0 at hzero
      omega
  | sell =>
    refine ⟨Int.sub_nonneg_of_le (ht.le hside), fun hzero => ?_⟩
    change l.size - t.qty = 0 at hzero
    exact if_pos hzero

/-- **No row of trades that are allowed leads to a short position.** -/
theorem Long.foldl {l : Ledger} (h : l.Long) {trades : List Trade} (ht : l.Accepts trades) :
    (trades.foldl Ledger.post l).Long := by
  induction trades generalizing l with
  | nil => exact h
  | cons t trades ih => exact ih (h.post ht.1) ht.2

end Ledger

/-! ### What is kept -/

/-- A trade settles the order of a call that found the given state. -/
structure StrategyCall.Settles (c : StrategyCall) (e : Engine) (o : Order) (t : Trade) : Prop where
  /-- They are of one side. -/
  side : o.side = t.side
  /-- They are of one quantity. -/
  qty : o.filled = t.qty
  /-- They are at one price. -/
  price : o.price = t.price
  /-- They have one name, if the name that the call gives does not hold the trades. -/
  id : (∀ name, c.name? = some name → ¬ name.Holds (c.noted e) .trades) → o.id = t.orderId

/-- Calls that are carried out one after the other, each with the state that it finds. -/
def StrategyCall.steps (e : Engine) : List StrategyCall → List (Engine × StrategyCall)
  | [] => []
  | c :: rest => (e, c) :: steps (c.perform.run e).2 rest

/-- **What a strategy keeps while calls are carried out**, all of which go well. -/
structure Engine.Kept (e : Engine) (steps : List (Engine × StrategyCall)) : Prop where
  /-- The figures are those that come of the trades. -/
  ledger : e.ledger = e.trades.foldl Ledger.post .opening
  /-- The trades are allowed one after the other. -/
  accepts : Ledger.opening.Accepts e.trades
  /-- There are as many orders as trades. -/
  length : e.orders.length = e.trades.length
  /-- Order by order, a call has placed the order, and the trade settles it. -/
  settles : ∃ placed : List (Engine × StrategyCall), placed.Sublist steps ∧
    List.Forall₂ (fun step row => step.2.Settles step.1 row.1 row.2) placed (e.orders.zip e.trades)

variable {e e' : Engine} {c : StrategyCall} {calls : List StrategyCall} {r : Request}
  {step : Engine × StrategyCall} {done : List (Engine × StrategyCall)}

theorem Engine.kept_fresh (commission : Float) (defaultQty : Value) :
    (fresh commission defaultQty).Kept [] :=
  ⟨rfl, trivial, rfl, [], .slnil, .nil⟩

/-- A call that changes neither the figures nor the orders and trades. -/
theorem Engine.Kept.same (h : e.Kept done) (step : Engine × StrategyCall)
    (hledger : e'.ledger = e.ledger) (horders : e'.orders = e.orders)
    (htrades : e'.trades = e.trades) : e'.Kept (done ++ [step]) := by
  obtain ⟨placed, hplaced, hsettles⟩ := h.settles
  refine ⟨?_, ?_, ?_, placed, hplaced.trans (List.sublist_append_left _ _), ?_⟩
  · rw [hledger, htrades, h.ledger]
  · rw [htrades]
    exact h.accepts
  · rw [horders, htrades, h.length]
  · rw [horders, htrades]
    exact hsettles

/-- A call whose request is filled. -/
theorem Engine.Kept.filled (h : e.Kept done) {t : Trade} {o : Order}
    (hsettles : step.2.Settles step.1 o t) (hallows : e.ledger.Allows t)
    (hledger : e'.ledger = e.ledger.post t) (horders : e'.orders = e.orders ++ [o])
    (htrades : e'.trades = e.trades ++ [t]) : e'.Kept (done ++ [step]) := by
  obtain ⟨placed, hplaced, hrows⟩ := h.settles
  refine ⟨?_, ?_, ?_, placed ++ [step], hplaced.append (.refl _), ?_⟩
  · rw [hledger, htrades, List.foldl_append, ← h.ledger]
    rfl
  · rw [htrades, Ledger.accepts_concat, ← h.ledger]
    exact ⟨h.accepts, hallows⟩
  · rw [horders, htrades, List.length_append, List.length_append, h.length]
    rfl
  · rw [horders, htrades, List.zip_append h.length]
    exact List.rel_append hrows (.cons hsettles .nil)

/-- Writing a trade changes no value that does not hold the trades. -/
theorem Value.settled_logged {v : Value} (h : ¬ v.Holds e .trades) (name : String) :
    v.settled (logged r e name) = v.settled (posted r e) := by
  refine Value.settled_congr fun part hpart => ?_
  have hheld : v.Holds e part := hpart.congr rfl rfl
  cases part with
  | trades => exact absurd hheld h
  | state | orders | entries | exits => rfl

/-- The trade of a request settles the order of the call that asked for it. -/
theorem StrategyCall.settles_of_asked (hname : c.name? = some r.id) {name name' : String}
    (hposted : nameText (r.id.settled (posted r (c.noted e))) = .ok name)
    (hlogged : nameText (r.id.settled (logged r (c.noted e) name)) = .ok name') :
    c.Settles e (orderOf r (c.noted e) name') (tradeOf r (c.noted e) name) where
  side := (side_tradeOf name).symm
  qty := (qty_tradeOf name).symm
  price := (price_tradeOf name).symm
  id hholds := by
    rw [Value.settled_logged (hholds r.id hname), hposted] at hlogged
    rw [orderId_tradeOf]
    exact (Except.ok.inj hlogged).symm

/-- **One call keeps it.** -/
theorem StrategyCall.kept_perform (h : e.Kept done) (hsound : e.Sound) {v : Value}
    (hrun : c.perform.run e = (.ok v, e')) : e'.Kept (done ++ [(e, c)]) := by
  cases htrades : c.function.trades with
  | false =>
    have hsame : (c.perform.run e).2 = e := keeps_perform htrades
    rw [hrun] at hsame
    cases hsame
    exact h.same _ rfl rfl rfl
  | true =>
    obtain ⟨hledger, horders, htrades'⟩ := c.noted_eq e
    have hnoted := h.same (e, c) hledger horders htrades'
    match hasked : c.asked e with
    | .error fault =>
      rw [run_perform htrades, hasked] at hrun
      cases hrun
    | .ok none =>
      rw [run_perform htrades, hasked] at hrun
      cases hrun
      exact hnoted
    | .ok (some r) =>
      obtain ⟨result, e'', hfill, hperform⟩ := perform_fillsTo hsound htrades hasked
      rw [hrun] at hperform
      -- of the five things that filling can come to, two go well
      cases hfill with
      | nothing =>
        obtain ⟨-, rfl⟩ := Prod.mk.inj hperform
        exact hnoted
      | tooLarge | unnamed | unlisted => cases hperform
      | done hpos _ hposted hlogged =>
        cases hperform
        refine h.filled (settles_of_asked (of_asked hasked).1 hposted hlogged) ?_ ?_ ?_ ?_
        · rw [← hledger]
          exact allows_tradeOf hpos _
        · rw [← hledger, post_tradeOf]
          rfl
        · rw [← horders]
        · rw [← htrades']
          rfl

theorem StrategyCall.kept_performAll_of_kept (h : e.Kept done) (hsound : e.Sound)
    (hrun : (performAll calls).run e = (.ok (), e')) : e'.Kept (done ++ steps e calls) := by
  -- on the calls that are left: each moves over to those that have been carried out
  induction calls generalizing e done with
  | nil =>
    cases hrun
    rwa [steps, List.append_nil]
  | cons c rest ih =>
    obtain ⟨v, middle, hperform, hrest⟩ := of_run_bind_eq_ok hrun
    have hmiddle : middle.Sound := by
      have := c.sound_perform hsound
      rwa [hperform] at this
    rw [steps, List.append_cons, hperform]
    exact ih (kept_perform h hsound hperform) hmiddle hrest

/-- **The trades are a complete ledger.** After any calls at any prices, all of which went well, the
figures are exactly those that come of the trades, posted one after the other from nothing; every trade
was allowed where it stands; each settles the order of a call, in the state that the call found; and the
position is never short. -/
theorem StrategyCall.kept_performAll {commission : Float} {defaultQty : Value}
    (hrun : (performAll calls).run (fresh commission defaultQty) = (.ok (), e)) :
    e.Kept (steps (fresh commission defaultQty) calls) ∧ 0 ≤ e.position.size ∧
      (e.position.size = 0 → e.position.average = 0.0) := by
  have hkept : e.Kept (steps (fresh commission defaultQty) calls) :=
    kept_performAll_of_kept (kept_fresh commission defaultQty) (sound_fresh commission defaultQty) hrun
  have hlong := Ledger.long_opening.foldl hkept.accepts
  rw [← hkept.ledger] at hlong
  exact ⟨hkept, hlong.nonneg, hlong.flat⟩

/-- Two purchases, a look at the profit, and a sale of all. -/
def StrategyCall.roundTrip : List StrategyCall :=
  [{ function := .entry, price := .ok 10.0, positional := [.text "a", .int 2], named := [] },
    { function := .order, price := .ok 12.0, positional := [.text "b", .text "Buy", .float 3.5],
      named := [("slippage", .float 0.5)] },
    { function := .pnl, price := .ok 11.0, positional := [], named := [] },
    { function := .closeAll, price := .ok 11.0, positional := [], named := [] }]

theorem StrategyCall.kept_roundTrip :
    ∃ e, (performAll roundTrip).run (fresh 0.25 (.int 1)) = (.ok (), e) ∧ e.trades.length = 3 ∧
      e.Kept (steps (fresh 0.25 (.int 1)) roundTrip) ∧ 0 ≤ e.position.size ∧
        (e.position.size = 0 → e.position.average = 0.0) := by
  have hok : ((performAll roundTrip).run (fresh 0.25 (.int 1))).1 = .ok () := by decide +kernel
  have hlength : ((performAll roundTrip).run (fresh 0.25 (.int 1))).2.trades.length = 3 := by
    decide +kernel
  rcases hrun : (performAll roundTrip).run (fresh 0.25 (.int 1)) with ⟨result, e⟩
  rw [hrun] at hok hlength
  cases hok
  exact ⟨e, rfl, hlength, kept_performAll hrun⟩

/-- A purchase whose name is the list of all trades. -/
def StrategyCall.namedByTrades : StrategyCall where
  function := .order
  price := .ok 199.5
  positional := [.live .trades, .text "buy", .int 1]
  named := []

/-- Its trade shows the name before the trade is written, and its order shows it afterwards. -/
theorem StrategyCall.trades_as_name :
    ((performAll [namedByTrades]).run (fresh 0.0 (.int 1))).1 = .ok () ∧
      ((performAll [namedByTrades]).run (fresh 0.0 (.int 1))).2.orders.map Order.id ≠
        ((performAll [namedByTrades]).run (fresh 0.0 (.int 1))).2.trades.map Trade.orderId := by
  decide +kernel

end ChartScript
