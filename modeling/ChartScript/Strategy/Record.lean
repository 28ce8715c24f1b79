/-!
# Records of trading

What a strategy leaves behind: the orders it filled, in the form in which a script sees them, and the
trades that came of them. There is one trade for every order.
-/

namespace ChartScript

/-- The two sides of a trade. -/
inductive Side where
  /-- Into the position. -/
  | buy
  /-- Out of the position. -/
  | sell
deriving DecidableEq, Inhabited

/-- The name of a side. -/
def Side.name : Side → String
  | .buy => "buy"
  | .sell => "sell"

/-- A filled order. -/
structure Order where
  /-- The name that the script gave it. -/
  id : String
  /-- The side. -/
  side : Side
  /-- The quantity that was asked for. -/
  requested : Float
  /-- The quantity that was filled. -/
  filled : Int
  /-- The price it was filled at, slippage included. -/
  price : Float
  /-- The slippage, as a fraction of the price. -/
  slippage : Float
deriving Inhabited

/-- A trade. -/
structure Trade where
  /-- The side. -/
  side : Side
  /-- The quantity. -/
  qty : Int
  /-- The price. -/
  price : Float
  /-- The name of the order. -/
  orderId : String
  /-- The commission. -/
  commission : Float
  /-- The profit or loss, which only a sale has. -/
  pnl : Option Float
deriving Inhabited

/-- A position: how much is held, and what it cost on average. -/
structure Position where
  /-- The size. -/
  size : Int
  /-- The average price. -/
  average : Float
deriving Inhabited

end ChartScript
