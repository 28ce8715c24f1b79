import ChartScript.Host.Signature
import ChartScript.Value.Number
import ChartScript.Value.Shown

/-!
# The strategy engine

A simulation of trading in one position that is never short. An order is filled at once at the latest
price, moved by its slippage, and in part only if it says so. A purchase changes the average price,
commission included; a sale realises a profit or loss against it and never takes out more than there
is.

The engine takes what a script gives it. A quantity, a slippage or a share that is no finite number
counts as none given; options can come as one dictionary, as names and values in turn, or as named
arguments (`mergedOptions`).

A call that fails keeps what it has done up to there, which is why the state is inside the faults
(`Trading`).

An order is shown by its name twice, in the trade and in the order that is kept, each time as the name
is then (`nameNow`): a name can hold a part of the strategy.
-/

namespace ChartScript

/-- The state of a strategy. -/
structure Engine where
  /-- The commission, as a fraction of the traded value. -/
  commission : Float
  /-- The quantity of an entry that names none. -/
  defaultQty : Value
  /-- The position. -/
  position : Position
  /-- The profit or loss of all sales. -/
  realized : Float
  /-- The entries: their names and quantities. -/
  entries : List (Value × Value)
  /-- The names of the exits. -/
  exits : List Value
  /-- The filled orders. -/
  orders : List Order
  /-- The trades. -/
  trades : List Trade
  /-- The number of sales without a loss. -/
  wins : Nat
  /-- The number of sales with a loss. -/
  losses : Nat
  /-- The commission paid. -/
  totalCommission : Float
deriving Inhabited

namespace Engine

/-- A strategy that has not traded yet. -/
def fresh (commission : Float) (defaultQty : Value) : Engine where
  commission
  defaultQty
  position := { size := 0, average := 0.0 }
  realized := 0.0
  entries := []
  exits := []
  orders := []
  trades := []
  wins := 0
  losses := 0
  totalCommission := 0.0

/-- An entry as a script sees it. -/
def entryRecord (entry : Value × Value) : Value := .dict [("id", entry.1), ("qty", entry.2)]

/-- An exit as a script sees it. -/
def exitRecord (id : Value) : Value := .dict [("id", id)]

/-- A part of a strategy, as it is now. -/
def part (e : Engine) : EnginePart → Value
  | .state => .position e.position
  | .orders => .list (e.orders.map .order)
  | .trades => .list (e.trades.map .trade)
  | .entries => .list (e.entries.map entryRecord)
  | .exits => .list (e.exits.map exitRecord)

/-- What an attribute of a strategy holds. -/
def attribute? (e : Engine) (name : String) : Option Value :=
  match StrategyFunction.table.lookup name with
  | some f => some (.function (.strategy f))
  | none =>
    match name with
    | "long" | "short" => some (.text name)
    | "commission" => some (.commission e.commission)
    | "default_qty" => some e.defaultQty
    | "state" => some (.live .state)
    | "realized_pnl" => some (.float e.realized)
    | "entries" => some (.live .entries)
    | "exits" => some (.live .exits)
    | "orders" => some (.live .orders)
    | "trades" => some (.live .trades)
    | "winning_trades" => some (.int e.wins)
    | "losing_trades" => some (.int e.losses)
    | "total_commission" => some (.float e.totalCommission)
    | _ => none

end Engine

/-- A value that names a part of the strategy, replaced by what the part holds now. -/
def Value.opened (e : Engine) : Value → Value
  | .live part => e.part part
  | v => v

mutual

/-- A value with every part of the strategy in it replaced by what the part is looked up as. -/
def Value.replaced (look : EnginePart → Value) : Value → Value
  | .live part => look part
  | .list items => .list (Value.replacedAll look items)
  | .tuple items => .tuple (Value.replacedAll look items)
  | .dict entries => .dict (Value.replacedEntries look entries)
  | .unresolvedCall callee args => .unresolvedCall callee (Value.replacedAll look args)
  | v => v

/-- Several values with every part of the strategy in them replaced. -/
def Value.replacedAll (look : EnginePart → Value) : List Value → List Value
  | [] => []
  | v :: rest => v.replaced look :: Value.replacedAll look rest

/-- The entries of a dictionary with every part of the strategy in them replaced. -/
def Value.replacedEntries (look : EnginePart → Value) :
    List (String × Value) → List (String × Value)
  | [] => []
  | (key, v) :: rest => (key, v.replaced look) :: Value.replacedEntries look rest

end

namespace Engine

/-- What a part holds that stands both within the entries and within the exits. These two stay as they
are. -/
def partInBoth (e : Engine) : EnginePart → Value
  | .entries => .live .entries
  | .exits => .live .exits
  | part => e.part part

/-- What a part holds that stands within another one, which stays as it is. Only the entries and the
exits hold other parts, so there is no third one around it. -/
def partWithin (e : Engine) (outer part : EnginePart) : Value :=
  if part = outer then .live part else (e.part part).replaced e.partInBoth

end Engine

/-- A value with every part of the strategy in it replaced by what the part holds now, and so on with
the parts in there. A list within itself stays as it is. -/
def Value.settled (e : Engine) (v : Value) : Value :=
  v.replaced fun part => (e.part part).replaced (e.partWithin part)

/-- Several values with every part of the strategy in them replaced. -/
def Value.settledAll (e : Engine) (items : List Value) : List Value := items.map (Value.settled e)

/-- Options with every part of the strategy in their values replaced. -/
def Value.settledEntries (e : Engine) (entries : Options) : Options :=
  entries.map fun entry => (entry.1, entry.2.settled e)

/-- What can be done with a strategy: it may fail, and keeps what was done before. -/
abbrev Trading := ExceptT Fault (StateM Engine)

namespace Engine

/-! ### Options -/

/-- Names and values in turn, as options. What is no text names nothing, and a name at the end
without a value is passed over. -/
def pairedOptions : List Value → Options
  | name :: value :: rest =>
    match name.text? with
    | some key => (key, value) :: pairedOptions rest
    | none => pairedOptions rest
  | _ => []

/-- Options one after the other, of which a later one replaces an earlier one of its name. -/
def overlaid (options more : Options) : Options :=
  more.foldl (fun merged (name, value) => Datum.bind name value merged) options

/-- The options of an order, in any of their three forms. -/
def mergedOptions (trailing : List Value) (named : Options) : Options :=
  match trailing with
  | [.dict entries] => overlaid entries named
  | trailing => overlaid (overlaid [] (pairedOptions trailing)) named

/-- A value as a finite float, or the default where it is none. -/
def finiteOr (default : Float) (v : Value) : Except Fault Float :=
  match v.toFloat with
  | .ok x => .ok (if x.isFinite then x else default)
  | .error .wrongType | .error .badValue => .ok default
  | .error fault => .error fault

/-- The share of an order that is filled, within zero and one. -/
def clampedShare (x : Float) : Float :=
  let atLeast := if x > 0.0 then x else 0.0
  if atLeast < 1.0 then atLeast else 1.0

/-- A quantity that is not negative. -/
def clampedQty (x : Float) : Float := if x > 0.0 then x else 0.0

/-- A text in lower case. -/
def lower (text : List Char) : String := String.ofList (text.map Char.toLower)

/-- The side that a value names, in any letter case. -/
def side? (action : Value) : Except Fault (Option Side) := do
  let name := lower (← action.displayed)
  return if name = Side.buy.name then some .buy
    else if name = Side.sell.name then some .sell
    else none

/-- The name of an order as a text. -/
def nameText (id : Value) : Except Fault String := return String.ofList (← id.displayed)

/-- The name of an order as a text, with the parts of the strategy in it as they are now. -/
def nameNow (id : Value) : Trading String := do nameText (id.settled (← get))

/-! ### Fills -/

/-- What an order asks for, once its arguments are read. -/
structure Request where
  /-- The name of the order. -/
  id : Value
  /-- The side. -/
  side : Side
  /-- The quantity asked for. -/
  requested : Float
  /-- The quantity to be filled, as far as the position allows. -/
  wanted : Int
  /-- The slippage. -/
  slippage : Float
  /-- The price, slippage included. -/
  price : Float

/-- A float times an integer. -/
def times (x : Float) (n : Int) : Except Fault Float := do
  return x * (← (Num.int n).toFloat)

/-- The average price after a purchase. -/
def averageAfter (p : Position) (price : Float) (qty : Int) (commission : Float) :
    Except Fault Float := do
  let cost := (← times p.average p.size) + (← times price qty) + commission
  return cost / (← (Num.int (p.size + qty)).toFloat)

/-- Adds to the position. -/
def applyBuy (r : Request) (qty : Int) (commission : Float) : Trading Unit := do
  let e ← get
  let average ← averageAfter e.position r.price qty commission
  set { e with position := { size := e.position.size + qty, average } }
  let orderId ← nameNow r.id
  let trade : Trade := { side := .buy, qty, price := r.price, orderId, commission, pnl := none }
  modify fun e => { e with trades := e.trades ++ [trade] }

/-- Takes out of the position. -/
def applySell (r : Request) (qty : Int) (commission : Float) : Trading Unit := do
  let e ← get
  let pnl := (← times (r.price - e.position.average) qty) - commission
  let size := e.position.size - qty
  set { e with
    position := { size, average := if size = 0 then 0.0 else e.position.average }
    realized := e.realized + pnl
    wins := if pnl >= 0.0 then e.wins + 1 else e.wins
    losses := if pnl >= 0.0 then e.losses else e.losses + 1 }
  let orderId ← nameNow r.id
  let trade : Trade := { side := .sell, qty, price := r.price, orderId, commission, pnl := some pnl }
  modify fun e => { e with trades := e.trades ++ [trade] }

/-- The quantity that is filled. -/
def executed (p : Position) (r : Request) : Int :=
  match r.side with
  | .buy => r.wanted
  | .sell => if p.size < r.wanted then p.size else r.wanted

/-- Fills a request, if there is anything to fill. -/
def fill (r : Request) : Trading (Option Order) := do
  let qty := executed (← get).position r
  if qty ≤ 0 then
    let _ ← nameNow r.id
    return none
  let commission := (← times r.price qty) * (← get).commission
  modify fun e => { e with totalCommission := e.totalCommission + commission }
  match r.side with
  | .buy => applyBuy r qty commission
  | .sell => applySell r qty commission
  let id ← nameNow r.id
  let order : Order :=
    { id, side := r.side, requested := r.requested, filled := qty, price := r.price,
      slippage := r.slippage }
  modify fun e => { e with orders := e.orders ++ [order] }
  return some order

/-- Reads the arguments of an order. There is no request where the action is no side. -/
def request (e : Engine) (price : Except Fault Float) (id action qty : Value) (options : Options) :
    Except Fault (Option Request) := do
  let slippage ← finiteOr 0.0 ((Datum.find? "slippage" options).getD (.float 0.0))
  let share ← finiteOr 1.0
    (((Datum.find? "fillPercent" options).or (Datum.find? "fill_percent" options)).getD
      (.float 1.0))
  match ← side? (action.settled e) with
  | none => do
    let _ ← nameText (id.settled e)
    return none
  | some side => do
    let requested := clampedQty (← finiteOr 0.0 qty)
    let wanted ← Value.floatToInt (requested * clampedShare share)
    let price ← price
    let factor := match side with
      | .buy => 1.0 + slippage
      | .sell => 1.0 - slippage
    return some
      { id, side, requested, wanted, slippage, price := price * factor }

/-! ### The calls of a script -/

/-- The parameters of an order. -/
def orderSignature : Signature where
  params := [("id", none), ("action", none), ("qty", none)]
  takesRest := true
  takesOptions := true
  isMember := true

/-- A filled order as a value, or no value. -/
def orderValue : Option Order → Value
  | some o => .order o
  | none => .null

/-- Fills an order at the latest price. -/
def order (price : Except Fault Float) (positional : List Value) (named : Options) :
    Trading Value := do
  let bound ← orderSignature.bind positional named
  match bound.args with
  | [id, action, qty] => do
    let e ← get
    let options := mergedOptions bound.rest bound.options
    match ← request e price id action qty options with
    | some r => return orderValue (← fill r)
    | none => return .null
  | _ => throw .wrongType

/-- The parameters of an entry and of an exit. -/
def namedSignature : Signature where
  params := [("id", none)]
  takesRest := true
  takesOptions := true
  isMember := true

/-- The direction at the start of the arguments of an entry, and what follows it. -/
def direction : List Value → Side × List Value
  | [] => (.buy, [])
  | first :: rest =>
    match first.text? with
    | some s =>
      let name := lower s.toList
      if name = "long" then (.buy, rest)
      else if name = "short" then (.sell, rest)
      else (.buy, first :: rest)
    | none => (.buy, first :: rest)

/-- The quantity of an entry: the named one, or else a number at the start of the arguments, or else
the default. The arguments that follow are given with it. -/
def entryQty (default : Value) (named : Option Value) (args : List Value) : Value × List Value :=
  match named, args with
  | some .null, first :: rest | none, first :: rest =>
    if first.isQuantity then (first, rest) else (default, first :: rest)
  | some .null, [] | none, [] => (default, [])
  | some qty, args => (qty, args)

/-- Enters a position: notes the entry and fills an order. -/
def entry (price : Except Fault Float) (positional : List Value) (named : Options) :
    Trading Value := do
  let bound ← namedSignature.bind positional named
  match bound.args with
  | [id] => do
    let (side, rest) := direction bound.rest
    let (qty, rest) := entryQty (← get).defaultQty (Datum.find? "qty" bound.options) rest
    modify fun e => { e with entries := e.entries ++ [(id, qty)] }
    order price (id :: .text side.name :: qty :: rest)
      (bound.options.filter fun option => option.1 != "qty")
  | _ => throw .wrongType

/-- Leaves the position: notes the exit and sells all there is. -/
def exit (price : Except Fault Float) (positional : List Value) (named : Options) :
    Trading Value := do
  let bound ← namedSignature.bind positional named
  match bound.args with
  | [id] => do
    modify fun e => { e with exits := e.exits ++ [id] }
    let size := (← get).position.size
    if 0 < size then
      order price (id :: .text Side.sell.name :: .int size :: bound.rest) bound.options
    else return .null
  | _ => throw .wrongType

/-- Leaves the position under a fixed name. -/
def closeAll (price : Except Fault Float) (positional : List Value) (named : Options) :
    Trading Value := do
  let bound ← Signature.anything.bind positional named
  exit price (.text "close_all" :: bound.rest) bound.options

/-- The realised profit or loss and that of the position at the latest price. -/
def profit (price : Except Fault Float) : Trading Float := do
  let e ← get
  let unrealized ← times ((← price) - e.position.average) e.position.size
  return e.realized + unrealized

/-- The size and the average price of the position. -/
def snapshot (p : Position) : Value := .dict [("size", .int p.size), ("avg", .float p.average)]

/-- The share of sales without a loss, in percent. -/
def winRate (e : Engine) : Value :=
  let closed := e.wins + e.losses
  if closed = 0 then .int 0
  else .float (Number.ofRatio false e.wins closed * 100.0)

/-- The statistics. -/
def summary (price : Except Fault Float) : Trading Value := do
  let e ← get
  let total ← profit price
  return .dict
    [("total_trades", .int e.trades.length), ("closed_trades", .int (e.wins + e.losses)),
      ("winning_trades", .int e.wins), ("losing_trades", .int e.losses), ("win_rate", e.winRate),
      ("realized_pnl", .float e.realized), ("total_pnl", .float total),
      ("total_commission", .float e.totalCommission), ("position_size", .int e.position.size),
      ("avg_price", .float e.position.average)]

/-- The signature of a function that takes nothing. -/
def nothing (isMember : Bool) : Signature where
  params := []
  takesRest := false
  takesOptions := false
  isMember

/-- Calls a function of a strategy. -/
def call (f : StrategyFunction) (price : Except Fault Float) (positional : List Value)
    (named : Options) : Trading Value :=
  match f with
  | .entry => entry price positional named
  | .exit => exit price positional named
  | .closeAll => closeAll price positional named
  | .order => order price positional named
  | .position => do
    let _ ← Signature.anything.bind positional named
    return snapshot (← get).position
  | .pnl => do
    let _ ← Signature.anything.bind positional named
    return .float (← profit price)
  | .summary => do
    let _ ← (nothing true).bind positional named
    summary price
  | .priceSource => do
    let _ ← (nothing false).bind positional named
    return .float (← price)

end Engine

end ChartScript
