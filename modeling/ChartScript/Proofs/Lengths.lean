import ChartScript.Proofs.Forwarding
import ChartScript.Proofs.Overflow

/-!
# Lengths of indicators

A script can give any value as the length of an indicator, and the length is made to fit: a number
counts with its integer part, a text with the integer that it spells, and everything else is replaced
by a default. What comes out is moved into the bounds of a window. There is one exception. An infinite
float is a number, but it has no integer part, and that it has none is a fault of another kind than
that of a value which is no number (`ChartScript.Value.toInt_of_isInfinite`).

An indicator can fail on its length only, and on no length from one upwards
(`ChartScript.Indicator.exists_apply`). So the bounds of a window are all that stands between a length
and a fault, and they must be right for each indicator: the strength of a series has one place less
than there are values, since it looks at changes (`ChartScript.Indicator.ofSource_series`).

The main result is `ChartScript.windowLength_usable`.
-/

namespace ChartScript

open Float.Model (UnpackedFloat)

/-! ### Integer parts -/

/-- The number that a float stands for, if it is finite. -/
def Number.rational? (x : Float) : Option ℚ :=
  match Exact.ofFloat x with
  | .finite negative mantissa exponent =>
    some (if negative then -(mantissa * 2 ^ exponent) else mantissa * 2 ^ exponent)
  | _ => none

/-- A number without what is behind its point. -/
def integerPart (q : ℚ) : Int := if q < 0 then ⌈q⌉ else ⌊q⌋

theorem integerPart_intCast (n : Int) : integerPart n = n := by
  rw [integerPart]
  split <;> simp

theorem integerPart_neg {q : ℚ} (h : 0 ≤ q) : integerPart (-q) = -⌊q⌋ := by
  rw [integerPart]
  split
  · rw [Int.ceil_neg]
  · have hzero : q = 0 := by linarith
    simp [hzero]

/-- **The integer part of a float is that of the number that it stands for.** -/
theorem Number.truncate?_eq (x : Float) : truncate? x = (rational? x).map integerPart := by
  rw [truncate?, rational?]
  rcases Exact.ofFloat x with _ | _ | ⟨negative, m, e⟩
  · rfl
  · rfl
  have hpos : (0 : ℚ) ≤ m * 2 ^ e := by positivity
  have hfloor : ⌊(m * 2 ^ e : ℚ)⌋ = ((scaled m e).1 / (scaled m e).2 : Nat) := by
    rw [← scaled_value, Rat.floor_natCast_div_natCast, Int.natCast_div]
  cases negative with
  | false =>
    have hpart : integerPart (m * 2 ^ e) = ⌊(m * 2 ^ e : ℚ)⌋ := if_neg (not_lt.2 hpos)
    simp only [Bool.false_eq_true, if_false, Option.map_some, hpart, hfloor]
  | true =>
    simp only [if_true, Option.map_some, integerPart_neg hpos, hfloor]

/-- An infinite float stands for no number. -/
theorem Number.rational?_of_isInf {x : Float} (h : x.isInf = true) :
    rational? x = none ∧ x.isNaN = false := by
  change x.toModel.unpack.isInf = true at h
  show _ ∧ x.toModel.unpack.isNaN = false
  rw [rational?, Exact.ofFloat]
  cases hx : x.toModel.unpack with
  | infinity sign => exact ⟨rfl, rfl⟩
  | notANumber | zero sign | finite sign m e hpos => simp [hx, UnpackedFloat.isInf] at h

/-- A float that stands for no number is infinite, unless it is no number at all. -/
theorem Number.isNaN_of_rational? {x : Float} (h : rational? x = none) (hinf : x.isInf = false) :
    x.isNaN = true := by
  change x.toModel.unpack.isInf = false at hinf
  show x.toModel.unpack.isNaN = true
  rw [rational?, Exact.ofFloat] at h
  cases hx : x.toModel.unpack with
  | notANumber => rfl
  | infinity sign => simp [hx, UnpackedFloat.isInf] at hinf
  | zero sign | finite sign m e hpos => simp [hx] at h

/-! ### Values as lengths -/

namespace Value

/-- The number that a value is, if it is a finite one. -/
def rational? (v : Value) : Option ℚ :=
  v.num?.bind fun
    | .int n => some n
    | .float _ x => Number.rational? x

/-- Whether a value is an infinite float. -/
def isInfinite (v : Value) : Bool :=
  match v.num? with
  | some (.float _ x) => x.isInf
  | _ => false

variable {v : Value} {q : ℚ}

theorem toInt_of_text? {s : String} (h : v.text? = some s) :
    v.toInt = match Number.readInt? s.toList with
      | some n => .ok n
      | none => .error .badValue := by
  cases v <;> cases h <;> rfl

theorem toInt_of_num? {a : Num} (h : v.num? = some a) :
    v.toInt = match a with
      | .int n => .ok n
      | .float _ x => floatToInt x := by
  cases v <;> cases h <;> rfl

/-- What is neither a text nor a number is of a wrong type. -/
theorem toInt_of_none (htext : v.text? = none) (hnum : v.num? = none) :
    v.toInt = .error .wrongType := by
  cases v with
  | text | unresolved | keyword => cases htext
  | bool | int | float | double | half => cases hnum
  | _ => rfl

/-- **A number counts with its integer part.** -/
theorem toInt_of_rational? (h : v.rational? = some q) : v.toInt = .ok (integerPart q) := by
  obtain ⟨a, ha, hq⟩ := Option.bind_eq_some_iff.1 h
  rw [toInt_of_num? ha]
  cases a with
  | int n =>
    cases hq
    simp only [integerPart_intCast]
  | float type x =>
    simp only [floatToInt, Number.truncate?_eq, hq, Option.map_some]

/-- **An infinite float is too large for an integer.** -/
theorem toInt_of_isInfinite (h : v.isInfinite) : v.toInt = .error .tooLarge := by
  rw [isInfinite] at h
  split at h <;> rename_i hnum
  · obtain ⟨hexact, hnan⟩ := Number.rational?_of_isInf h
    rw [toInt_of_num? hnum]
    simp only [floatToInt, Number.truncate?_eq, hexact, Option.map_none, hnan, Bool.false_eq_true,
      if_false]
  · cases h

/-- What is no text and no number that is finite or infinite is refused as no integer. -/
theorem toInt_of_no_number (hinf : v.isInfinite = false) (htext : v.text? = none)
    (hexact : v.rational? = none) : v.toInt = .error .wrongType ∨ v.toInt = .error .badValue := by
  rcases hnum : v.num? with _ | (n | ⟨type, x⟩)
  · exact .inl (toInt_of_none htext hnum)
  · rw [rational?, hnum] at hexact
    cases hexact
  · rw [rational?, hnum] at hexact
    rw [isInfinite, hnum] at hinf
    right
    rw [toInt_of_num? hnum]
    have hnone : Number.rational? x = none := hexact
    simp only [floatToInt, Number.truncate?_eq, hnone, Option.map_none,
      Number.isNaN_of_rational? hnone hinf, if_true]

end Value

section Length

variable {length : Value} {available default : Int}

theorem lengthOr_of_toInt {n : Int} (h : length.toInt = .ok n) (default : Int) :
    lengthOr default length = .ok n := by
  rw [lengthOr, h]

/-- **Every value but an infinite float has a length.** -/
theorem exists_lengthOr (h : length.isInfinite = false) (default : Int) :
    ∃ n, lengthOr default length = .ok n := by
  rcases htext : length.text? with _ | s
  · rcases hexact : length.rational? with _ | q
    · rw [lengthOr]
      rcases Value.toInt_of_no_number h htext hexact with hint | hint <;> exact ⟨_, by rw [hint]⟩
    · exact ⟨_, lengthOr_of_toInt (Value.toInt_of_rational? hexact) default⟩
  · rw [lengthOr, Value.toInt_of_text? htext]
    rcases Number.readInt? s.toList with _ | n <;> exact ⟨_, rfl⟩

theorem windowLength_of_lengthOr {n : Int} (h : lengthOr default length = .ok n) :
    windowLength length available default = .ok (clampedLength n available) := by
  rw [windowLength, h]
  rfl

theorem clampedLength_eq_self {n : Int} (hpos : 1 ≤ n) (hle : n ≤ available) :
    clampedLength n available = n := by
  unfold clampedLength
  split <;> omega

theorem windowLength_of_isInfinite (h : length.isInfinite) :
    windowLength length available default = .error .tooLarge := by
  rw [windowLength, lengthOr, Value.toInt_of_isInfinite h]
  rfl

end Length

/-! ### Indicators -/

namespace Indicator

/-- **An indicator has values over every window of at least one place.** -/
theorem exists_apply (i : Indicator) {n : Int} (h : 1 ≤ n) (s : Series) :
    ∃ t, i.apply n s = .ok t := by
  have hneg : ¬ n < 0 := by omega
  have hzero : n ≠ 0 := by omega
  have hone : ¬ n < 1 := by omega
  cases i <;>
    simp [apply, compute, rolled, rolledOr, hneg, hzero, hone, bind, Except.bind, pure, Except.pure]

theorem exists_latest (i : Indicator) {n : Int} (h : 1 ≤ n) (s : Series) :
    ∃ x, i.latest n s = .ok (.float x) := by
  obtain ⟨t, ht⟩ := i.exists_apply h (i.relevant n s)
  exact ⟨t.latest, by rw [latest, ht]⟩

/-- **What an indicator comes to over a series.** The length is made to fit a number of places that is
not zero, but for the strength of a single value. -/
theorem ofSource_series (i : Indicator) {s : Series} (hs : 1 ≤ s.length) (length : Value) :
    (i = .rsi ∧ s.length = 1) ∧ i.ofSource (.series s) length = .ok (.float 50.0) ∨
    ¬ (i = .rsi ∧ s.length = 1) ∧ ∃ (available default : Int) (seen : Int → Series), 1 ≤ available ∧
      i.ofSource (.series s) length =
        (windowLength length available default >>= fun n => i.latest n (seen n)) := by
  have hcount : s.unboxed.length = s.length := Series.length_unboxed s
  cases i with
  | rsi =>
    have hsource : rsi.ofSource (.series s) length =
        if s.unboxed.length ≤ 1 then .ok (.float 50.0)
        else windowLength length (s.unboxed.length - 1) 14 >>= fun n =>
          rsi.latest n (lastValues (n.toNat + 1) s.unboxed) := rfl
    rw [hsource, hcount]
    by_cases hone : s.length ≤ 1
    · exact .inl ⟨⟨rfl, by omega⟩, if_pos hone⟩
    · exact .inr ⟨by omega, s.length - 1, 14, _, by omega, if_neg hone⟩
  | change =>
    refine .inr ⟨by simp, if 1 < s.length then s.length - 1 else 1, 1, fun _ => s.unboxed, ?_, ?_⟩
    · split <;> omega
    · rw [← hcount]
      rfl
  | sma | ema | wma | rma | stdev | highest | lowest | sum =>
    refine .inr ⟨by simp, s.length, 1, fun _ => s.unboxed, by omega, ?_⟩
    rw [← hcount]
    rfl

/-- The arguments of a call, as they are at the time, give an indicator a source and a length, each by
place, by name or by default. -/
def Takes (i : Indicator) (env : Env) (positional : List Value) (named : Options)
    (source length : Value) : Prop :=
  ∃ rest options, i.signature.bind (Value.settledAll env.engine positional)
    (Value.settledEntries env.engine named) = .ok { args := [source, length], rest, options }

section Takes

variable {i : Indicator} {env : Env} {positional : List Value} {named : Options}
  {source length : Value} {s : Series}

theorem takes_places (i : Indicator) (env : Env) (s : Series) (length : Value) :
    i.Takes env [.series s, length] [] (.series s) (length.settled env.engine) := ⟨_, _, rfl⟩

theorem takes_name (i : Indicator) (env : Env) (s : Series) (length : Value) :
    i.Takes env [.series s] [("length", length)] (.series s) (length.settled env.engine) :=
  ⟨_, _, rfl⟩

theorem Takes.run_ofSource (h : i.Takes env positional named source length) :
    ((HostFunction.ta (.indicator i)).call positional named).run env =
      (i.ofSource source length, env) := by
  obtain ⟨rest, options, hbind⟩ := h
  rw [HostFunction.call, run_computed, TaFunction.call, call, hbind]
  rfl

/-- **An indicator of a series fails on an infinite length, and on no other one.** -/
theorem Takes.run_series (h : i.Takes env positional named (.series s) length)
    (hs : 1 ≤ s.length) :
    if length.isInfinite ∧ ¬ (i = .rsi ∧ s.length = 1) then
      ((HostFunction.ta (.indicator i)).call positional named).run env = (.error .tooLarge, env)
    else
      ∃ x, ((HostFunction.ta (.indicator i)).call positional named).run env =
        (.ok (.float x), env) := by
  rw [h.run_ofSource]
  obtain ⟨hsingle, hsource⟩ | ⟨hsingle, available, default, seen, hpos, hsource⟩ :=
    i.ofSource_series hs length
  · rw [if_neg (fun hinf => hinf.2 hsingle), hsource]
    exact ⟨_, rfl⟩
  rw [hsource]
  rcases hinf : length.isInfinite with _ | _
  · rw [if_neg (by simp)]
    obtain ⟨n, hn⟩ := exists_lengthOr hinf default
    obtain ⟨x, hx⟩ := i.exists_latest (one_le_clampedLength n available)
      (seen (clampedLength n available))
    refine ⟨x, ?_⟩
    rw [windowLength_of_lengthOr hn]
    exact congrArg (·, env) hx
  · rw [if_pos ⟨rfl, hsingle⟩, windowLength_of_isInfinite hinf]
    rfl

end Takes

end Indicator

/-! ### The main result -/

/-- **Every length but an infinite one is usable.** Over some places the length comes to a window of
them, which for a finite number is its integer part if there is such a window, and for what is neither
a number nor a text the default if there is such a window. An infinite float is a fault. So an
indicator that is called with a series that has a value gives a float for every other length, and
leaves everything as it is; and with an infinite length it fails, but for the strength of a single
value, which does not look at the length. -/
theorem windowLength_usable (length : Value) :
    (∀ available default : Int, 1 ≤ available →
      if length.isInfinite then windowLength length available default = .error .tooLarge
      else ∃ n, windowLength length available default = .ok n ∧ 1 ≤ n ∧ n ≤ available ∧
        (∀ q, length.rational? = some q → 1 ≤ integerPart q → integerPart q ≤ available →
          n = integerPart q) ∧
        (length.text? = none → length.rational? = none → 1 ≤ default → default ≤ available →
          n = default)) ∧
    ∀ (i : Indicator) (s : Series), 1 ≤ s.length → ∀ env positional named,
      i.Takes env positional named (.series s) length →
        if length.isInfinite ∧ ¬ (i = .rsi ∧ s.length = 1) then
          ((HostFunction.ta (.indicator i)).call positional named).run env =
            (.error .tooLarge, env)
        else
          ∃ x, ((HostFunction.ta (.indicator i)).call positional named).run env =
            (.ok (.float x), env) := by
  refine ⟨fun available default hpos => ?_, fun i s hs env positional named h => h.run_series hs⟩
  rcases hinf : length.isInfinite with _ | _
  · obtain ⟨n, hn⟩ := exists_lengthOr hinf default
    rw [if_neg Bool.false_ne_true]
    refine ⟨_, windowLength_of_lengthOr hn, one_le_clampedLength n available,
      clampedLength_le hpos, fun q hq hlow hhigh => ?_, fun htext hexact hlow hhigh => ?_⟩
    · cases hn.symm.trans (lengthOr_of_toInt (Value.toInt_of_rational? hq) default)
      exact clampedLength_eq_self hlow hhigh
    · have hdefault : lengthOr default length = .ok default := by
        rw [lengthOr]
        rcases Value.toInt_of_no_number hinf htext hexact with hint | hint <;> rw [hint]
      cases hn.symm.trans hdefault
      exact clampedLength_eq_self hlow hhigh
  · rw [if_pos rfl, windowLength_of_isInfinite hinf]

theorem windowLength_usable_two :
    let s : Series := .ofValues [1.0, 2.0]
    let env := Env.ofBindings [] .unlimited
    (1 : Int) ≤ 3 ∧ (Value.int 2).rational? = some (2 : Int) ∧
    1 ≤ integerPart (2 : Int) ∧ integerPart (2 : Int) ≤ 3 ∧
    windowLength (.int 2) 3 1 = .ok 2 ∧ windowLength .null 3 3 = .ok 3 ∧
    1 ≤ s.length ∧
    Indicator.rsi.Takes env [.series s] [("length", .int 2)] (.series s) (.int 2) ∧
    ∃ x, ((HostFunction.ta (.indicator .rsi)).call [.series s] [("length", .int 2)]).run env =
      (.ok (.float x), env) := by
  intro s env
  have hpart := integerPart_intCast 2
  obtain ⟨hwindow, hcall⟩ := windowLength_usable (.int 2)
  obtain ⟨n, hn, -, -, hnumber, -⟩ := hwindow 3 1 (by decide)
  obtain ⟨m, hm, -, -, -, hdefault⟩ := (windowLength_usable .null).1 3 3 (by decide)
  have htakes := Indicator.takes_name .rsi env s (.int 2)
  refine ⟨by decide, rfl, by rw [hpart]; decide, by rw [hpart]; decide, ?_, ?_, by decide, htakes,
    hcall .rsi s (by decide) _ _ _ htakes⟩
  · rw [hn, hnumber _ rfl (by rw [hpart]; decide) (by rw [hpart]; decide), hpart]
  · rw [hm, hdefault rfl rfl (by decide) (by decide)]

/-- An infinite length is made to fit nothing, though there is a single window that it could fit. -/
theorem windowLength_infinity :
    windowLength (.float (1.0 / 0.0)) 1 1 = .error .tooLarge ∧
    ((HostFunction.ta (.indicator .sma)).call
      [.series (.ofValues [1.0]), .float (1.0 / 0.0)] []).run (Env.ofBindings [] .unlimited) =
      (.error .tooLarge, Env.ofBindings [] .unlimited) := by
  have hinf : (Value.float (1.0 / 0.0)).isInfinite = true := by decide
  refine ⟨windowLength_of_isInfinite hinf, ?_⟩
  have hrun := (Indicator.takes_places .sma (Env.ofBindings [] .unlimited) (.ofValues [1.0])
    (.float (1.0 / 0.0))).run_series (by decide)
  rwa [if_pos ⟨hinf, by decide⟩] at hrun

end ChartScript
