import ChartScript.Proofs.Calls

/-!
# What an order makes of its numbers

A script can give any values as the quantity, the slippage and the share of an order. What is no finite
number counts as none given, and what is out of its bounds is put within them, so that an order need not
be refused for its numbers. The whole point is how far this goes
(`ChartScript.StrategyCall.placed_ok_iff`). There are two ends of it, and at both an integer is too large
for a float: one that is given, and the size of the position after a purchase.
-/

namespace ChartScript

open Engine
open Number (ceiling IsShare)

/-! ### Values as floats -/

/-- A value that is not an integer too large for a float. -/
def Value.Fits (v : Value) : Prop := ∀ n, v = .int n → n.natAbs < ceiling

/-- A value that is a finite number, or spells one. -/
def Value.IsUsable (v : Value) : Prop := ∃ x, v.toFloat = .ok x ∧ x.isFinite = true

/-- A value that fits is made a float, or it is no number. -/
theorem Value.toFloat_of_fits {v : Value} (h : v.Fits) :
    (∃ x, v.toFloat = .ok x) ∨ v.toFloat = .error .badValue ∨ v.toFloat = .error .wrongType := by
  have htext : ∀ s : String, (∃ x, (Value.text s).toFloat = .ok x) ∨
      (Value.text s).toFloat = .error .badValue := by
    intro s
    rw [Value.toFloat]
    split
    · exact .inl ⟨_, rfl⟩
    · exact .inr rfl
  cases v with
  | text s | unresolved s | keyword s => exact (htext s).imp_right .inl
  | int n =>
    refine .inl ⟨Float.ofInt n, ?_⟩
    show (Num.int n).toFloat = _
    rw [Num.toFloat, Number.ofInt?_eq (h n rfl)]
  | bool b =>
    refine .inl ⟨Float.ofInt (Datum.ofBool b), ?_⟩
    show (Num.int (Datum.ofBool b)).toFloat = _
    rw [Num.toFloat, Number.ofInt?_eq]
    cases b <;> decide +kernel
  | float x | double x | half x => exact .inl ⟨x, rfl⟩
  | _ => exact .inr (.inr rfl)

namespace Engine

/-- **A value that fits gives a float**: its own, if it is usable, and else the default. -/
theorem finiteOr_of_fits {v : Value} (h : v.Fits) (default : Float) :
    (∃ x, v.toFloat = .ok x ∧ x.isFinite = true ∧ finiteOr default v = .ok x) ∨
      (¬ v.IsUsable ∧ finiteOr default v = .ok default) := by
  rw [finiteOr, Value.IsUsable]
  rcases Value.toFloat_of_fits h with ⟨x, hx⟩ | hx | hx
  · rw [hx]
    by_cases hfinite : x.isFinite = true
    · exact .inl ⟨x, rfl, hfinite, by simp [hfinite]⟩
    · refine .inr ⟨?_, by simp [hfinite]⟩
      rintro ⟨y, hy, hfinite'⟩
      cases hy
      exact hfinite hfinite'
  · rw [hx]
    exact .inr ⟨fun ⟨y, hy, _⟩ => (nomatch hy), rfl⟩
  · rw [hx]
    exact .inr ⟨fun ⟨y, hy, _⟩ => (nomatch hy), rfl⟩

theorem exists_finiteOr {v : Value} (h : v.Fits) (default : Float)
    (hdefault : default.isFinite = true) :
    ∃ x, finiteOr default v = .ok x ∧ x.isFinite = true := by
  rcases finiteOr_of_fits h default with ⟨x, -, hfinite, hx⟩ | ⟨-, hx⟩
  · exact ⟨x, hx, hfinite⟩
  · exact ⟨default, hx, hdefault⟩

/-- **An integer that is too large is an error**, whatever the default. -/
theorem finiteOr_of_not_fits {v : Value} (h : ¬ v.Fits) (default : Float) :
    finiteOr default v = .error .tooLarge := by
  obtain ⟨n, hn⟩ := not_forall.1 h
  obtain ⟨rfl, hlarge⟩ := Classical.not_imp.1 hn
  have htoFloat : (Value.int n).toFloat = .error .tooLarge := toFloat_int_error (Nat.not_lt.1 hlarge)
  rw [finiteOr, htoFloat]

/-! ### Bounds -/

/-- What is put between the bounds is a share, whatever it was. -/
theorem isShare_clampedShare (x : Float) : IsShare (clampedShare x) := by
  unfold clampedShare
  by_cases hpos : x > 0.0
  · by_cases hlt : x < 1.0
    · simpa only [if_pos hpos, if_pos hlt] using Number.isShare_of_lt hpos hlt
    · simpa only [if_pos hpos, if_neg hlt] using Number.isShare_one
  · simp only [if_neg hpos]
    split
    · exact Number.isShare_zero
    · exact Number.isShare_one

theorem isFinite_clampedQty {x : Float} (h : x.isFinite = true) : (clampedQty x).isFinite = true := by
  unfold clampedQty
  split
  · exact h
  · decide +kernel

/-- A share of a quantity has an integer part. -/
theorem exists_floatToInt {x : Float} (h : x.isFinite = true) (y : Float) :
    ∃ n, Value.floatToInt (clampedQty x * clampedShare y) = .ok n := by
  obtain ⟨n, hn⟩ := Number.exists_truncate?
    ((isShare_clampedShare y).isFinite_mul (isFinite_clampedQty h))
  exact ⟨n, by rw [Value.floatToInt, hn]⟩

end Engine

/-! ### Orders -/

/-- A price moved by a slippage, to the worse. -/
def slipped (price slippage : Float) : Side → Float
  | .buy => price * (1.0 + slippage)
  | .sell => price * (1.0 - slippage)

/-- What is to be filled of a quantity by a share. -/
def wantedOf (qty share : Value) : Except Fault Int := do
  Value.floatToInt (clampedQty (← finiteOr 0.0 qty) * clampedShare (← finiteOr 1.0 share))

namespace StrategyCall

/-- An order with both of its options. -/
def placed (price : Float) (id : String) (side : Side) (qty slippage share : Value) : StrategyCall where
  function := .order
  price := .ok price
  positional := [.text id, .text side.name, qty]
  named := [("slippage", slippage), ("fillPercent", share)]

section Placed

variable {e : Engine} {price : Float} {id : String} {side : Side} {qty slippage share : Value}

theorem asked_placed (e : Engine) (price : Float) (id : String) (side : Side)
    (qty slippage share : Value) :
    (placed price id side qty slippage share).asked e = do
      let slippage ← finiteOr 0.0 slippage
      let share ← finiteOr 1.0 share
      let qty ← finiteOr 0.0 qty
      let wanted ← Value.floatToInt (clampedQty qty * clampedShare share)
      return some
        { id := .text id, side, requested := clampedQty qty, wanted, slippage
          price := slipped price slippage side } := by
  cases side <;> rfl

/-- An order whose numbers all fit comes to a request. -/
theorem exists_asked_placed (e : Engine) (price : Float) (id : String) (side : Side)
    (hslippage : slippage.Fits) (hshare : share.Fits) (hqty : qty.Fits) :
    ∃ r, (placed price id side qty slippage share).asked e = .ok (some r) ∧ r.id = .text id ∧
      r.side = side ∧ wantedOf qty share = .ok r.wanted := by
  have hone : (1.0 : Float).isFinite = true := by decide +kernel
  have hzero : (0.0 : Float).isFinite = true := by decide +kernel
  obtain ⟨s, hs, -⟩ := exists_finiteOr hslippage 0.0 hzero
  obtain ⟨f, hf, -⟩ := exists_finiteOr hshare 1.0 hone
  obtain ⟨q, hq, hfinite⟩ := exists_finiteOr hqty 0.0 hzero
  obtain ⟨n, hn⟩ := exists_floatToInt hfinite f
  have hwanted : wantedOf qty share = .ok n := by
    rw [wantedOf, hq, hf]
    exact hn
  rw [asked_placed, hs, hf, hq]
  refine ⟨{ id := .text id, side, requested := clampedQty q, wanted := n, slippage := s
            price := slipped price s side }, ?_, rfl, rfl, hwanted⟩
  show (Value.floatToInt (clampedQty q * clampedShare f) >>= _) = _
  rw [hn]
  rfl

/-- An order with a number that does not fit comes to none. -/
theorem asked_placed_of_not_fits (h : ¬ (qty.Fits ∧ slippage.Fits ∧ share.Fits)) :
    (placed price id side qty slippage share).asked e = .error .tooLarge := by
  rw [asked_placed]
  by_cases hslippage : slippage.Fits
  · by_cases hshare : share.Fits
    · have hqty : ¬ qty.Fits := fun hqty => h ⟨hqty, hslippage, hshare⟩
      obtain ⟨s, hs, -⟩ := exists_finiteOr hslippage 0.0 (by decide +kernel)
      obtain ⟨f, hf, -⟩ := exists_finiteOr hshare 1.0 (by decide +kernel)
      rw [hs, hf, finiteOr_of_not_fits hqty]
      rfl
    · obtain ⟨s, hs, -⟩ := exists_finiteOr hslippage 0.0 (by decide +kernel)
      rw [hs, finiteOr_of_not_fits hshare]
      rfl
  · rw [finiteOr_of_not_fits hslippage]
    rfl

/-- A call whose name can always be written returns normally, once it has come to a request, exactly if
the position does not become too large. -/
theorem ok_iff_of_asked {c : StrategyCall} {r : Request} (h : e.Sound)
    (htrades : c.function.trades = true) (hasked : c.asked e = .ok (some r))
    (hname : ∀ s : Engine, ∃ name, nameText (r.id.settled s) = .ok name) :
    (∃ v, (c.perform.run e).1 = .ok v) ↔
      (r.side = .buy → e.position.size + r.wanted < ceiling) := by
  obtain ⟨result, e', hfill, hrun⟩ := perform_fillsTo h htrades hasked
  rw [hrun, ← position_noted c e]
  -- the name is no obstacle, so what remains is the size after a purchase
  cases hfill with
  | nothing hle =>
    obtain ⟨name, hok⟩ := hname (c.noted e)
    rw [hok]
    refine iff_of_true ⟨.null, rfl⟩ fun hbuy => ?_
    have hfilled := executed_buy (e := c.noted e) hbuy
    have hlt := h.lt
    rw [← position_noted c e] at hlt
    omega
  | tooLarge hbuy _ hfull =>
    refine iff_of_false (fun ⟨v, hv⟩ => nomatch hv) fun hroom => ?_
    exact Int.not_le.2 (hroom hbuy) hfull
  | unnamed _ _ hposted =>
    obtain ⟨name, hok⟩ := hname (posted r (c.noted e))
    rw [hok] at hposted
    cases hposted
  | unlisted _ _ _ hlogged =>
    obtain ⟨name', hok⟩ := hname (logged r (c.noted e) _)
    rw [hok] at hlogged
    cases hlogged
  | done _ hroom => exact iff_of_true ⟨_, rfl⟩ hroom

/-- **An order with any numbers returns normally exactly if** none of them is an integer too large for a
float, and a purchase does not make the position too large for one. A quantity that is no finite number
counts as zero. -/
theorem placed_ok_iff (h : e.Reachable) (price : Float) (id : String) (side : Side)
    (qty slippage share : Value) :
    ((∃ v, ((placed price id side qty slippage share).perform.run e).1 = .ok v) ↔
      (qty.Fits ∧ slippage.Fits ∧ share.Fits) ∧
        (side = .buy → ∀ n, wantedOf qty share = .ok n → e.position.size + n < ceiling)) ∧
    (qty.Fits → ¬ qty.IsUsable →
      (placed price id side qty slippage share).perform.run e =
        (placed price id side (.int 0) slippage share).perform.run e) := by
  have htrades : ∀ qty, (placed price id side qty slippage share).function.trades = true :=
    fun _ => rfl
  constructor
  · by_cases hfits : qty.Fits ∧ slippage.Fits ∧ share.Fits
    · obtain ⟨r, hasked, hid, hside, hwanted⟩ := exists_asked_placed e price id side hfits.2.1
        hfits.2.2 hfits.1
      have hname : ∀ s : Engine, ∃ name, nameText (r.id.settled s) = .ok name := by
        intro s
        rw [hid]
        exact ⟨_, rfl⟩
      rw [ok_iff_of_asked h.sound (htrades qty) hasked hname, and_iff_right hfits, hside, hwanted]
      exact ⟨fun hroom hbuy n hn => Except.ok.inj hn ▸ hroom hbuy, fun hroom hbuy => hroom hbuy _ rfl⟩
    · rw [run_perform (htrades qty), asked_placed_of_not_fits hfits]
      exact iff_of_false (fun ⟨v, hv⟩ => nomatch hv) fun hall => hfits hall.1
  · intro hfits hunusable
    have hqty : finiteOr 0.0 qty = finiteOr 0.0 (.int 0) := by
      rcases finiteOr_of_fits hfits 0.0 with ⟨x, hx, hfinite, -⟩ | ⟨-, hdefault⟩
      · exact absurd ⟨x, hx, hfinite⟩ hunusable
      · rw [hdefault]
        with_unfolding_all rfl
    rw [run_perform (htrades qty), run_perform (htrades _), asked_placed, asked_placed, hqty]
    rfl

/-- A quantity that spells no number. -/
theorem placed_ok_unusable :
    (fresh 0.0 (.int 1)).Reachable ∧ (Value.text "x").Fits ∧ ¬ (Value.text "x").IsUsable ∧
      (∃ v, ((placed 100.0 "a" .buy (.text "x") .null (.bool true)).perform.run
        (fresh 0.0 (.int 1))).1 = .ok v) ∧
      (placed 100.0 "a" .buy (.text "x") .null (.bool true)).perform.run (fresh 0.0 (.int 1)) =
        (placed 100.0 "a" .buy (.int 0) .null (.bool true)).perform.run (fresh 0.0 (.int 1)) := by
  have hfits : (Value.text "x").Fits := nofun
  have hunusable : ¬ (Value.text "x").IsUsable := by
    have hbad : (Value.text "x").toFloat = .error .badValue := by decide +kernel
    rintro ⟨x, hx, -⟩
    rw [hbad] at hx
    cases hx
  have hwanted : wantedOf (.text "x") (.bool true) = .ok 0 := by decide +kernel
  obtain ⟨hiff, hzero⟩ := placed_ok_iff (.fresh 0.0 (.int 1)) 100.0 "a" .buy (.text "x") .null
    (.bool true)
  refine ⟨.fresh _ _, hfits, hunusable, hiff.2 ⟨⟨hfits, nofun, nofun⟩, fun _ n hn => ?_⟩,
    hzero hfits hunusable⟩
  rw [hwanted] at hn
  cases hn
  exact Int.natCast_pos.2 Number.ceiling_pos

/-- A quantity of four hundred zeros behind a one is an error. -/
theorem placed_error :
    (fresh 0.0 (.int 1)).Reachable ∧
      ((placed 100.0 "a" .buy (.int (10 ^ 400)) (.int 0) (.int 1)).perform.run
        (fresh 0.0 (.int 1))).1 = .error .tooLarge := by
  have hlarge : ¬ (Value.int (10 ^ 400)).Fits := fun h =>
    absurd (h _ rfl) (by decide +kernel)
  rw [run_perform rfl, asked_placed_of_not_fits fun h => hlarge h.1]
  exact ⟨.fresh _ _, rfl⟩

end Placed

end StrategyCall

end ChartScript
