import ChartScript.Proofs.Effects
import ChartScript.Proofs.Overflow

/-!
# What filling a request comes to

A strategy keeps figures (`ChartScript.Ledger`), and a trade changes them: this is said here once, by
`ChartScript.Ledger.post`, on the figures alone and without any fault. Filling a request is more than
that. It looks at the position, it may find that there is nothing to fill, it may fail half-way, and it
writes a trade and an order. The whole point is `ChartScript.Engine.fillsTo`: filling comes to one of
five things, and in each of them the figures are either those from before, those from before with a
commission, or those after the trade.

An integer of a position or of a trade is made a float in the course of this. That it can be is an
invariant of the position (`ChartScript.Engine.Sound`).
-/

namespace ChartScript

open Number (ceiling)

/-! ### Ledgers -/

/-- The figures of a strategy: its position, and what its trades have brought and cost. -/
structure Ledger where
  /-- The size of the position. -/
  size : Int
  /-- The average price of the position. -/
  average : Float
  /-- The profit or loss of all sales. -/
  realized : Float
  /-- The number of sales without a loss. -/
  wins : Nat
  /-- The number of sales with a loss. -/
  losses : Nat
  /-- The commission paid. -/
  totalCommission : Float

namespace Ledger

/-- Nothing is held, and nothing was traded. -/
def opening : Ledger where
  size := 0
  average := 0.0
  realized := 0.0
  wins := 0
  losses := 0
  totalCommission := 0.0

/-- The profit or loss of a sale against the average price. -/
def gain (l : Ledger) (t : Trade) : Float :=
  (t.price - l.average) * Float.ofInt t.qty - t.commission

/-- The figures after a purchase, whose commission goes into the average price. -/
def buy (l : Ledger) (t : Trade) : Ledger :=
  { l with
    size := l.size + t.qty
    average := (l.average * Float.ofInt l.size + t.price * Float.ofInt t.qty + t.commission) /
      Float.ofInt (l.size + t.qty)
    totalCommission := l.totalCommission + t.commission }

/-- The figures after a sale. A profit or loss that is no number counts as a loss. -/
def sell (l : Ledger) (t : Trade) : Ledger where
  size := l.size - t.qty
  average := if l.size - t.qty = 0 then 0.0 else l.average
  realized := l.realized + l.gain t
  wins := if l.gain t >= 0.0 then l.wins + 1 else l.wins
  losses := if l.gain t >= 0.0 then l.losses else l.losses + 1
  totalCommission := l.totalCommission + t.commission

/-- **Posts a trade.** -/
def post (l : Ledger) (t : Trade) : Ledger :=
  match t.side with
  | .buy => l.buy t
  | .sell => l.sell t

/-- **What a trade must be to be posted**: it is of something, a sale is of no more than there is, and
the sale alone has a profit or loss, which is the one of the ledger. -/
structure Allows (l : Ledger) (t : Trade) : Prop where
  /-- At least one is traded. -/
  pos : 1 ≤ t.qty
  /-- No more is sold than is held. -/
  le : t.side = .sell → t.qty ≤ l.size
  /-- The profit or loss. -/
  pnl : t.pnl = match t.side with
    | .buy => none
    | .sell => some (l.gain t)

end Ledger

namespace Engine

/-- The figures of a strategy. -/
def ledger (e : Engine) : Ledger where
  size := e.position.size
  average := e.position.average
  realized := e.realized
  wins := e.wins
  losses := e.losses
  totalCommission := e.totalCommission

/-- The strategy with other figures. -/
def withLedger (e : Engine) (l : Ledger) : Engine :=
  { e with
    position := { size := l.size, average := l.average }
    realized := l.realized
    wins := l.wins
    losses := l.losses
    totalCommission := l.totalCommission }

/-! ### Integers of a position as floats -/

theorem times_eq {n : Int} (h : n.natAbs < ceiling) (x : Float) :
    times x n = .ok (x * Float.ofInt n) := by
  rw [times, Num.toFloat, Number.ofInt?_eq h]
  rfl

theorem toFloat_int_error {n : Int} (h : ceiling ≤ n.natAbs) :
    (Num.int n).toFloat = .error .tooLarge := by
  rw [Num.toFloat, Number.ofInt?_eq_none h]

/-- The average price after a purchase, where all integers are below the ceiling. -/
theorem averageAfter_eq (p : Position) (qty : Int) (hsize : p.size.natAbs < ceiling)
    (hqty : qty.natAbs < ceiling) (hsum : (p.size + qty).natAbs < ceiling) (price commission : Float) :
    averageAfter p price qty commission =
      .ok ((p.average * Float.ofInt p.size + price * Float.ofInt qty + commission) /
        Float.ofInt (p.size + qty)) := by
  rw [averageAfter, times_eq hsize, times_eq hqty, Num.toFloat, Number.ofInt?_eq hsum]
  rfl

/-- **There is none where the position becomes too large for a float.** -/
theorem averageAfter_error (p : Position) (qty : Int) (hsize : p.size.natAbs < ceiling)
    (hqty : qty.natAbs < ceiling) (hsum : ceiling ≤ (p.size + qty).natAbs) (price commission : Float) :
    averageAfter p price qty commission = .error .tooLarge := by
  rw [averageAfter, times_eq hsize, times_eq hqty, toFloat_int_error hsum]
  rfl

/-- **A position that is never short, and that a float can hold.** -/
structure Sound (e : Engine) : Prop where
  /-- Not short. -/
  nonneg : 0 ≤ e.position.size
  /-- Not too large for a float. -/
  lt : e.position.size < ceiling

/-! ### Filling a request -/

section Fill

variable (r : Request) (e : Engine)

/-- The trade that a request comes to under a name. -/
def tradeOf (name : String) : Trade :=
  let qty := executed e.position r
  let commission := r.price * Float.ofInt qty * e.commission
  let trade : Trade :=
    { side := r.side, qty, price := r.price, orderId := name, commission, pnl := none }
  match r.side with
  | .buy => trade
  | .sell => { trade with pnl := some (e.ledger.gain trade) }

/-- The order that a request comes to under a name. -/
def orderOf (name : String) : Order where
  id := name
  side := r.side
  requested := r.requested
  filled := executed e.position r
  price := r.price
  slippage := r.slippage

/-- The strategy with the commission of a request paid and no more done. -/
def charged : Engine :=
  { e with totalCommission := e.totalCommission + (tradeOf r e "").commission }

/-- The strategy with the figures after the trade and nothing written yet. -/
def posted : Engine := e.withLedger (e.ledger.post (tradeOf r e ""))

/-- The strategy with the trade posted and written. -/
def logged (name : String) : Engine :=
  { posted r e with trades := e.trades ++ [tradeOf r e name] }

/-- **What can come of filling a request.** -/
inductive FillsTo : Except Fault (Option Order) → Engine → Prop where
  /-- There is nothing to fill; the name is looked at all the same. -/
  | nothing : executed e.position r ≤ 0 →
      FillsTo ((nameText (r.id.settled e)).map fun _ => none) e
  /-- A purchase makes the position too large. Its commission is paid, but nothing is bought. -/
  | tooLarge : r.side = .buy → 1 ≤ r.wanted → ceiling ≤ e.position.size + r.wanted →
      FillsTo (.error .tooLarge) (charged r e)
  /-- The trade is posted, but the name cannot be shown. -/
  | unnamed {fault} : 1 ≤ executed e.position r →
      (r.side = .buy → e.position.size + r.wanted < ceiling) →
      nameText (r.id.settled (posted r e)) = .error fault → FillsTo (.error fault) (posted r e)
  /-- The trade is posted and written, but the name cannot be shown any more. -/
  | unlisted {name fault} : 1 ≤ executed e.position r →
      (r.side = .buy → e.position.size + r.wanted < ceiling) →
      nameText (r.id.settled (posted r e)) = .ok name →
      nameText (r.id.settled (logged r e name)) = .error fault →
      FillsTo (.error fault) (logged r e name)
  /-- The trade is posted, and trade and order are written. -/
  | done {name name'} : 1 ≤ executed e.position r →
      (r.side = .buy → e.position.size + r.wanted < ceiling) →
      nameText (r.id.settled (posted r e)) = .ok name →
      nameText (r.id.settled (logged r e name)) = .ok name' →
      FillsTo (.ok (some (orderOf r e name')))
        { logged r e name with orders := e.orders ++ [orderOf r e name'] }

variable {r e}

theorem run_nameNow_bind (id : Value) (f : String → Trading β) (e : Engine) :
    (nameNow id >>= f).run e =
      match nameText (id.settled e) with
      | .ok name => (f name).run e
      | .error fault => (.error fault, e) := by
  rw [nameNow, run_bind, run_get_bind]
  cases nameText (id.settled e) <;> rfl

/-- A quantity that is filled lies below the ceiling. -/
theorem natAbs_executed_lt (hwanted : r.wanted.natAbs < ceiling)
    (hpos : 1 ≤ executed e.position r) : (executed e.position r).natAbs < ceiling := by
  have hle : executed e.position r ≤ r.wanted := by
    unfold executed
    split
    · exact le_rfl
    · split
      · rename_i hlt
        exact hlt.le
      · exact le_rfl
  omega

theorem executed_buy (hside : r.side = .buy) : executed e.position r = r.wanted := by
  rw [executed, hside]

theorem executed_sell_le (hside : r.side = .sell) :
    executed e.position r ≤ e.position.size := by
  simp only [executed, hside]
  split
  · exact le_rfl
  · rename_i hge
    exact Int.not_lt.1 hge

/-! The parts of the trade that a request comes to. -/

@[simp] theorem side_tradeOf (name : String) : (tradeOf r e name).side = r.side := by
  unfold tradeOf
  cases hside : r.side <;> rfl

@[simp] theorem qty_tradeOf (name : String) : (tradeOf r e name).qty = executed e.position r := by
  unfold tradeOf
  cases r.side <;> rfl

@[simp] theorem price_tradeOf (name : String) : (tradeOf r e name).price = r.price := by
  unfold tradeOf
  cases r.side <;> rfl

@[simp] theorem orderId_tradeOf (name : String) : (tradeOf r e name).orderId = name := by
  unfold tradeOf
  cases r.side <;> rfl

theorem commission_tradeOf (name : String) : (tradeOf r e name).commission =
    r.price * Float.ofInt (executed e.position r) * e.commission := by
  unfold tradeOf
  cases r.side <;> rfl

/-- The figures do not depend on the name. -/
theorem post_tradeOf (name : String) : e.ledger.post (tradeOf r e name) = (posted r e).ledger := by
  obtain ⟨id, side, requested, wanted, slippage, price⟩ := r
  cases side <;> rfl

/-- The ledger allows the trade. -/
theorem allows_tradeOf (hpos : 1 ≤ executed e.position r) (name : String) :
    e.ledger.Allows (tradeOf r e name) where
  pos := by rwa [qty_tradeOf]
  le hside := by
    rw [side_tradeOf] at hside
    rw [qty_tradeOf]
    exact executed_sell_le hside
  pnl := by
    obtain ⟨id, side, requested, wanted, slippage, price⟩ := r
    cases side <;> rfl

theorem size_posted_buy (hside : r.side = .buy) :
    (posted r e).position.size = e.position.size + r.wanted := by
  obtain ⟨id, side, requested, wanted, slippage, price⟩ := r
  cases hside
  rfl

theorem size_posted_sell (hside : r.side = .sell) :
    (posted r e).position.size = e.position.size - executed e.position r := by
  obtain ⟨id, side, requested, wanted, slippage, price⟩ := r
  cases hside
  rfl

/-- The position after a trade is sound. -/
theorem Sound.posted (h : e.Sound) (hpos : 1 ≤ executed e.position r)
    (hroom : r.side = .buy → e.position.size + r.wanted < ceiling) : (posted r e).Sound := by
  have hnonneg := h.nonneg
  have hlt := h.lt
  cases hside : r.side with
  | buy =>
    have hsize := size_posted_buy (e := e) hside
    have hfilled := executed_buy (e := e) hside
    have := hroom hside
    exact ⟨by omega, by omega⟩
  | sell =>
    have hsize := size_posted_sell (e := e) hside
    have hfilled := executed_sell_le (e := e) hside
    exact ⟨by omega, by omega⟩

/-- Filling a request leaves a sound position behind, whether it fails or not. -/
theorem FillsTo.sound {e' : Engine} {result : Except Fault (Option Order)}
    (hfill : FillsTo r e result e') (h : e.Sound) : e'.Sound := by
  cases hfill with
  | nothing => exact h
  | tooLarge => exact ⟨h.nonneg, h.lt⟩
  | unnamed hpos hroom => exact h.posted hpos hroom
  | unlisted hpos hroom | done hpos hroom =>
    have hposted := h.posted hpos hroom
    exact ⟨hposted.nonneg, hposted.lt⟩

/-! ### What is carried out -/

/-- A purchase is posted and written, where the position does not become too large. -/
theorem run_applyBuy (h : e.Sound) (hside : r.side = .buy) (hwanted : r.wanted.natAbs < ceiling)
    (hpos : 1 ≤ executed e.position r) (hroom : e.position.size + r.wanted < ceiling) :
    (applyBuy r (executed e.position r) (tradeOf r e "").commission).run (charged r e) =
      match nameText (r.id.settled (posted r e)) with
      | .ok name => (.ok (), logged r e name)
      | .error fault => (.error fault, posted r e) := by
  have hnonneg := h.nonneg
  have hlt := h.lt
  have haverage := averageAfter_eq e.position (executed e.position r) (by omega)
    (natAbs_executed_lt hwanted hpos) (by rw [executed_buy hside] at hpos ⊢; omega) r.price
    (tradeOf r e "").commission
  rw [applyBuy, run_get_bind, run_lift_bind, show (charged r e).position = e.position from rfl,
    haverage]
  obtain ⟨id, side, requested, wanted, slippage, price⟩ := r
  cases hside
  exact run_nameNow_bind _ _ _

/-- A purchase fails where the position becomes too large. -/
theorem run_applyBuy_tooLarge (h : e.Sound) (hside : r.side = .buy)
    (hwanted : r.wanted.natAbs < ceiling) (hpos : 1 ≤ executed e.position r)
    (hfull : ceiling ≤ e.position.size + r.wanted) :
    (applyBuy r (executed e.position r) (tradeOf r e "").commission).run (charged r e) =
      (.error .tooLarge, charged r e) := by
  have hnonneg := h.nonneg
  have hlt := h.lt
  have haverage := averageAfter_error e.position (executed e.position r) (by omega)
    (natAbs_executed_lt hwanted hpos) (by rw [executed_buy hside] at hpos ⊢; omega) r.price
    (tradeOf r e "").commission
  rw [applyBuy, run_get_bind, run_lift_bind, show (charged r e).position = e.position from rfl,
    haverage]

/-- A sale is posted and written. -/
theorem run_applySell (hside : r.side = .sell) (hqty : (executed e.position r).natAbs < ceiling) :
    (applySell r (executed e.position r) (tradeOf r e "").commission).run (charged r e) =
      match nameText (r.id.settled (posted r e)) with
      | .ok name => (.ok (), logged r e name)
      | .error fault => (.error fault, posted r e) := by
  rw [applySell, run_get_bind, run_lift_bind, show (charged r e).position = e.position from rfl,
    times_eq hqty]
  obtain ⟨id, side, requested, wanted, slippage, price⟩ := r
  cases hside
  exact run_nameNow_bind _ _ _

/-- Writes the order of a request that was asked for in some state. -/
def listing (r : Request) (e : Engine) : Trading (Option Order) := do
  let name ← nameNow r.id
  modify fun s => { s with orders := s.orders ++ [orderOf r e name] }
  return some (orderOf r e name)

/-- Where there is something to fill, the commission is paid, the trade is done and the order is
written, in this order. -/
theorem run_fill (hpos : 1 ≤ executed e.position r) (hqty : (executed e.position r).natAbs < ceiling) :
    (fill r).run e =
      ((match r.side with
        | .buy => applyBuy r (executed e.position r) (tradeOf r e "").commission
        | .sell => applySell r (executed e.position r) (tradeOf r e "").commission) >>=
          fun _ => listing r e).run (charged r e) := by
  rw [fill, run_get_bind, charged, commission_tradeOf]
  extract_lets qty
  rw [if_neg (Int.not_le.2 hpos), run_lift_bind, times_eq hqty]
  -- the commission is paid before the sides part, and both sides go on to the order
  dsimp only
  rw [run_get_bind, run_modify_bind]
  cases r.side <;> rfl

/-- A trade that is posted and written, and the order that is written after it. -/
theorem fillsTo_of_run {trade : Trading Unit} (hpos : 1 ≤ executed e.position r)
    (hroom : r.side = .buy → e.position.size + r.wanted < ceiling)
    (htrade : trade.run (charged r e) =
      match nameText (r.id.settled (posted r e)) with
      | .ok name => (.ok (), logged r e name)
      | .error fault => (.error fault, posted r e)) :
    FillsTo r e ((trade >>= fun _ => listing r e).run (charged r e)).1
      ((trade >>= fun _ => listing r e).run (charged r e)).2 := by
  rw [run_bind, htrade]
  cases hname : nameText (r.id.settled (posted r e)) with
  | error fault => exact .unnamed hpos hroom hname
  | ok name =>
    show FillsTo r e ((listing r e).run (logged r e name)).1 ((listing r e).run (logged r e name)).2
    rw [listing, run_nameNow_bind]
    cases hlisted : nameText (r.id.settled (logged r e name)) with
    | error fault => exact .unlisted hpos hroom hname hlisted
    | ok name' => exact .done hpos hroom hname hlisted

/-- **Filling a request comes to one of these**, where the position is sound. -/
theorem fillsTo (h : e.Sound) (hwanted : r.wanted.natAbs < ceiling) :
    FillsTo r e ((fill r).run e).1 ((fill r).run e).2 := by
  rcases Int.lt_or_le 0 (executed e.position r) with hpos | hle
  · have hqty := natAbs_executed_lt hwanted hpos
    rw [run_fill hpos hqty]
    -- only a purchase can fail while it is posted, and only because of the size behind it
    cases hside : r.side with
    | buy =>
      rcases Int.lt_or_le (e.position.size + r.wanted) ceiling with hroom | hfull
      · exact fillsTo_of_run hpos (fun _ => hroom) (run_applyBuy h hside hwanted hpos hroom)
      · dsimp only
        rw [run_bind_error (run_applyBuy_tooLarge h hside hwanted hpos hfull)]
        exact .tooLarge hside (executed_buy hside ▸ hpos) hfull
    | sell =>
      have hroom : r.side = .buy → e.position.size + r.wanted < ceiling := fun hbuy =>
        nomatch hside.symm.trans hbuy
      exact fillsTo_of_run hpos hroom (run_applySell hside hqty)
  · rw [fill, run_get_bind]
    extract_lets qty
    rw [if_pos hle, run_nameNow_bind]
    have hnothing := FillsTo.nothing hle
    cases hname : nameText (r.id.settled e) with
    | error fault => rwa [hname] at hnothing
    | ok name => rwa [hname] at hnothing

end Fill

end Engine

end ChartScript
