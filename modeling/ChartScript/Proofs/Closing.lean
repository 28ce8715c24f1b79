import ChartScript.Proofs.Clamping
import ChartScript.Proofs.Integers
import ChartScript.Proofs.Ledgers

/-!
# Leaving a position

An exit sells the position that is held, and closing all is an exit. Both place an order, and the order
takes its quantity as a float, also where it is the size of the position, which is an integer of any
length. The whole point is what this costs (`ChartScript.StrategyCall.perform_leaving`): leaving never
fails, and it sells the nearest integer that a float stands for, or all there is if this is less. So
the position is flat afterwards up to a size of `2 ^ 53`, and beyond wherever the float is not below the
size. Where it is below, the rest is left.
-/

namespace ChartScript

open Engine
open Number (ceiling nearest)

/-! ### The size of a position as the quantity of an order -/

/-- **What is filled of an integer in full**: the nearest integer that a float stands for. -/
theorem wantedOf_int {n : Int} (hpos : 0 < n) (hlt : n < ceiling) :
    wantedOf (.int n) (.float 1.0) = .ok (nearest n.toNat) := by
  obtain ⟨k, rfl⟩ := Int.eq_ofNat_of_zero_le hpos.le
  have hpos : 0 < k := by omega
  have hlt : k < ceiling := by omega
  obtain ⟨hzero, htruncate⟩ := Number.truncate?_ofNat_mul_one hpos hlt
  have hqty : finiteOr 0.0 (.int k) = .ok (Float.ofNat k) := by
    have htoFloat : (Value.int k).toFloat = .ok (Float.ofNat k) := by
      show (Num.int k).toFloat = _
      rw [Num.toFloat, Number.ofInt?_eq (n := k) hlt]
      rfl
    rw [finiteOr, htoFloat]
    simp only [(Number.isFinite_ofNat_iff k).2 hlt, if_true]
  have hshare : finiteOr 1.0 (.float 1.0) = .ok 1.0 := by with_unfolding_all rfl
  have hclamped : clampedShare 1.0 = 1.0 := by with_unfolding_all rfl
  have hkept : clampedQty (Float.ofNat k) = Float.ofNat k := if_pos hzero
  rw [wantedOf, hqty, hshare]
  show Value.floatToInt (clampedQty (Float.ofNat k) * clampedShare 1.0) = _
  rw [hkept, hclamped, Value.floatToInt, htruncate]
  rfl

/-- What leaving a position sells of it. -/
def soldOf (size : Int) : Int := min size (nearest size.toNat)

theorem soldOf_pos {size : Int} (h : 0 < size) : 0 < soldOf size := by
  have := Number.nearest_pos (n := size.toNat) (by omega)
  rw [soldOf]
  omega

/-- **The whole position is sold** if its float is not below it. -/
theorem soldOf_eq_iff {size : Int} : soldOf size = size ↔ size ≤ nearest size.toNat := min_eq_left_iff

theorem soldOf_eq_self {size : Int} (hnonneg : 0 ≤ size) (hle : size ≤ 2 ^ 53) :
    soldOf size = size := by
  rw [soldOf_eq_iff, Number.nearest_eq_self (by omega)]
  omega

/-! ### Sales -/

namespace Engine

variable {r : Request} {e e' : Engine} {result : Except Fault (Option Order)}

theorem executed_sell (hside : r.side = .sell) (p : Position) :
    executed p r = min p.size r.wanted := by
  simp only [executed, hside]
  split <;> omega

/-- A position that is sold has no average price. -/
theorem average_posted_sell (hside : r.side = .sell) (hflat : (posted r e).position.size = 0) :
    (posted r e).position.average = 0.0 := by
  obtain ⟨id, side, requested, wanted, slippage, price⟩ := r
  cases hside
  exact if_pos hflat

/-- **A sale of something under a name that can always be shown is carried out.** -/
theorem FillsTo.sold (hfill : FillsTo r e result e') (hside : r.side = .sell)
    (hpos : 0 < executed e.position r)
    (hname : ∀ s : Engine, ∃ name, nameText (r.id.settled s) = .ok name) :
    ∃ name name', result = .ok (some (orderOf r e name')) ∧
      e' = { logged r e name with orders := e.orders ++ [orderOf r e name'] } := by
  cases hfill with
  | nothing hle => omega
  | tooLarge hbuy => cases hside.symm.trans hbuy
  | unnamed _ _ hposted =>
    obtain ⟨name, hok⟩ := hname (posted r e)
    rw [hok] at hposted
    cases hposted
  | unlisted _ _ _ hlogged =>
    obtain ⟨name', hok⟩ := hname (logged r e _)
    rw [hok] at hlogged
    cases hlogged
  | done => exact ⟨_, _, rfl, rfl⟩

end Engine

namespace StrategyCall

/-! ### Leaving -/

/-- Leaving the position without options: an exit under a name, or closing all. -/
def leaving (price : Float) : Option String → StrategyCall
  | some id => { function := .exit, price := .ok price, positional := [.text id], named := [] }
  | none => { function := .closeAll, price := .ok price, positional := [], named := [] }

variable {e : Engine} {price : Float} {id? : Option String}

theorem trades_leaving (price : Float) (id? : Option String) :
    (leaving price id?).function.trades = true := by
  cases id? <;> rfl

/-- The exit is noted, and where something is held an order is placed that sells its size. -/
theorem prepared_leaving (e : Engine) (price : Float) (id? : Option String) :
    (leaving price id?).prepared e =
      .ok ({ e with exits := e.exits ++ [.text (id?.getD "close_all")] },
        if 0 < e.position.size then
          some ([.text (id?.getD "close_all"), .text Side.sell.name, .int e.position.size], [])
        else none) := by
  cases id? <;> rfl

/-- Where nothing is held, nothing is asked for. -/
theorem asked_leaving_flat (h : e.position.size = 0) : (leaving price id?).asked e = .ok none := by
  rw [asked, prepared_leaving, if_neg (by omega)]
  rfl

/-- Where something is held, leaving asks for what selling its size in full asks for. -/
theorem asked_leaving (h : 0 < e.position.size) :
    (leaving price id?).asked e =
      (placed price (id?.getD "close_all") .sell (.int e.position.size) (.float 0.0)
        (.float 1.0)).asked e := by
  rw [asked, prepared_leaving, if_pos h]
  cases id? <;> rfl

/-- What is asked for then. -/
theorem exists_asked_leaving (hsound : e.Sound) (h : 0 < e.position.size) (price : Float)
    (id? : Option String) :
    ∃ r, (leaving price id?).asked e = .ok (some r) ∧ r.id = .text (id?.getD "close_all") ∧
      r.side = .sell ∧ r.wanted = nearest e.position.size.toNat := by
  have hlt := hsound.lt
  have hfits : (Value.int e.position.size).Fits := by
    rintro n ⟨⟩
    omega
  have hzero : (Value.float 0.0).Fits := nofun
  have hone : (Value.float 1.0).Fits := nofun
  obtain ⟨r, hasked, hid, hside, hwanted⟩ :=
    exists_asked_placed e price (id?.getD "close_all") .sell hzero hone hfits
  rw [wantedOf_int h hlt] at hwanted
  exact ⟨r, (asked_leaving h).trans hasked, hid, hside, (Except.ok.inj hwanted).symm⟩

/-- Calls that all went well leave a sound position behind. -/
theorem sound_performAll {calls : List StrategyCall} {e' : Engine} (hsound : e.Sound)
    (hcalls : (performAll calls).run e = (.ok (), e')) : e'.Sound := by
  induction calls generalizing e with
  | nil =>
    cases hcalls
    exact hsound
  | cons c calls ih =>
    obtain ⟨v, middle, hperform, hrest⟩ := of_run_bind_eq_ok hcalls
    have hmiddle := c.sound_perform hsound
    rw [hperform] at hmiddle
    exact ih hmiddle hrest

/-- **Leaving a sound position never fails.** Something is sold if something is held, and a position
that is flat afterwards has no average price. -/
theorem run_leaving (hsound : e.Sound) (price : Float) (id? : Option String) :
    ∃ v e', (leaving price id?).perform.run e = (.ok v, e') ∧
      e'.position.size = e.position.size - soldOf e.position.size ∧
      (0 < e.position.size → (e'.position.size = 0 → e'.position.average = 0.0) ∧
        ∃ t, e'.trades = e.trades ++ [t] ∧ t.side = .sell ∧ t.qty = soldOf e.position.size) ∧
      (e.position.size = 0 → e'.trades = e.trades ∧ e'.position = e.position) := by
  obtain ⟨-, -, htrades⟩ := (leaving price id?).noted_eq e
  have hposition := (leaving price id?).position_noted e
  rcases Int.lt_or_eq_of_le hsound.nonneg with hpos | hzero
  · obtain ⟨r, hasked, hid, hside, hwanted⟩ := exists_asked_leaving hsound hpos price id?
    obtain ⟨result, e', hfill, hrun⟩ := perform_fillsTo hsound (trades_leaving price id?) hasked
    have hname : ∀ s : Engine, ∃ name, nameText (r.id.settled s) = .ok name := by
      intro s
      rw [hid]
      exact ⟨_, rfl⟩
    have hsold : executed ((leaving price id?).noted e).position r = soldOf e.position.size := by
      rw [executed_sell hside, hposition, hwanted, soldOf]
    obtain ⟨name, name', rfl, rfl⟩ := hfill.sold hside (hsold ▸ soldOf_pos hpos) hname
    have hsize := size_posted_sell (e := (leaving price id?).noted e) hside
    rw [hsold, hposition] at hsize
    refine ⟨_, _, hrun, hsize, fun _ => ⟨average_posted_sell hside, ?_⟩, by omega⟩
    refine ⟨tradeOf r ((leaving price id?).noted e) name, congrArg (· ++ [_]) htrades, ?_, ?_⟩
    · rw [side_tradeOf, hside]
    · rw [qty_tradeOf, hsold]
  · refine ⟨.null, (leaving price id?).noted e, ?_, ?_, by omega, fun _ => ⟨htrades, hposition⟩⟩
    · rw [run_perform (trades_leaving price id?), asked_leaving_flat hzero.symm]
    · rw [hposition, ← hzero]
      rfl

/-- **Leaving a position.** In every state after calls that all went well, at any price, an exit under
any text and closing all, without options, return normally. They sell the float of the size, or all
there is if this is less: so the position is flat afterwards if and only if the float of its size is not
below the size, which holds up to `2 ^ 53`. A flat position has no average price. Where something is
held, exactly one trade is written, which is the sale, and otherwise none. -/
theorem perform_leaving {calls : List StrategyCall} {commission : Float} {defaultQty : Value}
    (hcalls : (performAll calls).run (fresh commission defaultQty) = (.ok (), e)) (price : Float)
    (id? : Option String) :
    ∃ v e', (leaving price id?).perform.run e = (.ok v, e') ∧
      e'.position.size = e.position.size - soldOf e.position.size ∧
      (e'.position.size = 0 ↔ e.position.size ≤ nearest e.position.size.toNat) ∧
      (e.position.size ≤ 2 ^ 53 → e'.position.size = 0) ∧
      (e'.position.size = 0 → e'.position.average = 0.0) ∧
      (0 < e.position.size → ∃ t, e'.trades = e.trades ++ [t] ∧ t.side = .sell ∧
        t.qty = soldOf e.position.size ∧ (e'.position.size = 0 → t.qty = e.position.size)) ∧
      (e.position.size = 0 → e'.trades = e.trades) := by
  have hkept := kept_performAll_of_kept (kept_fresh commission defaultQty)
    (sound_fresh commission defaultQty) hcalls
  have hlong : e.ledger.Long := hkept.ledger ▸ Ledger.long_opening.foldl hkept.accepts
  have hsound : e.Sound := sound_performAll (sound_fresh commission defaultQty) hcalls
  obtain ⟨v, e', hrun, hsize, hheld, hflat⟩ := run_leaving hsound price id?
  refine ⟨v, e', hrun, hsize, ?_, fun hle => ?_, fun hzero => ?_, fun hpos => ?_, fun hzero => ?_⟩
  · rw [hsize, ← soldOf_eq_iff]
    omega
  · rw [hsize, soldOf_eq_self hsound.nonneg hle, Int.sub_self]
  · rcases Int.lt_or_eq_of_le hsound.nonneg with hpos | hnothing
    · exact (hheld hpos).1 hzero
    · rw [(hflat hnothing.symm).2]
      exact hlong.flat hnothing.symm
  · obtain ⟨-, t, htrades, hside, hqty⟩ := hheld hpos
    exact ⟨t, htrades, hside, hqty, fun hzero => by omega⟩
  · exact (hflat hzero).1

/-- Two purchases, of `2 ^ 53` and of some more. -/
def longPosition (more : Int) : List StrategyCall :=
  [{ function := .order, price := .ok 100.0, positional := [.text "a", .text "buy", .int (2 ^ 53)]
     named := [] },
    { function := .order, price := .ok 100.0, positional := [.text "b", .text "buy", .int more]
      named := [] }]

/-- A position whose float lies above it is left as a whole. -/
theorem perform_leaving_above : ∃ e e' v t,
    (performAll (longPosition 3)).run (fresh 0.0 (.int 1)) = (.ok (), e) ∧
      (leaving 101.0 (some "L")).perform.run e = (.ok v, e') ∧ e'.position.size = 0 ∧
        e'.position.average = 0.0 ∧ e'.trades = e.trades ++ [t] ∧ t.qty = 2 ^ 53 + 3 := by
  have hok : ((performAll (longPosition 3)).run (fresh 0.0 (.int 1))).1 = .ok () := by
    decide +kernel
  have hheld : ((performAll (longPosition 3)).run (fresh 0.0 (.int 1))).2.position.size =
      2 ^ 53 + 3 := by
    decide +kernel
  rcases hcalls : (performAll (longPosition 3)).run (fresh 0.0 (.int 1)) with ⟨result, e⟩
  rw [hcalls] at hok hheld
  cases hok
  change e.position.size = 2 ^ 53 + 3 at hheld
  obtain ⟨v, e', hrun, -, hiff, -, haverage, hsold, -⟩ := perform_leaving hcalls 101.0 (some "L")
  have hflat : e'.position.size = 0 := by
    rw [hiff, hheld]
    decide +kernel
  obtain ⟨t, htrades, -, -, hqty⟩ := hsold (by rw [hheld]; decide)
  exact ⟨e, e', v, t, rfl, hrun, hflat, haverage hflat, htrades, (hqty hflat).trans hheld⟩

/-- **Closing all may leave something**: of `2 ^ 53 + 1` there is one left. -/
theorem closeAll_leaves_one :
    ((performAll (longPosition 1)).run (fresh 0.0 (.int 1))).1 = .ok () ∧
      ((performAll (longPosition 1)).run (fresh 0.0 (.int 1))).2.position.size = 2 ^ 53 + 1 ∧
        ((leaving 100.0 none).perform.run
          ((performAll (longPosition 1)).run (fresh 0.0 (.int 1))).2).2.position.size = 1 := by
  decide +kernel

end StrategyCall

end ChartScript
