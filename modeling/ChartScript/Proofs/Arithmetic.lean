import ChartScript.Proofs.Metering
import ChartScript.Proofs.Overflow

/-!
# Arithmetic

Expressions made of number literals, the five operators and the two signs (`ChartScript.Arithmetic`)
have a number as their value, whatever happens on the way: floats know infinities and values that are
no number, and a division by zero or a result that is too large is one of these. Integers stay
integers in sums, differences and products; beside a float, and in a quotient or a power, an integer
becomes a float (`ChartScript.Operator.ieee`).

There is one gap. An integer of more than about 308 digits should become an infinity where it becomes
a float, and is refused instead (`ChartScript.Arithmetic.overflows`). This is the only way in which
arithmetic fails (`ChartScript.Arithmetic.evaluate_eq`).
-/

namespace ChartScript

open Float.Model
open Number (ceiling)

/-! ### Numbers -/

namespace Num

/-- Whether a number is a float. -/
def isFloat : Num → Bool
  | int _ => false
  | float _ _ => true

/-- Whether a number is an integer that is too large for a float. -/
def isHuge : Num → Bool
  | int n => decide (ceiling ≤ n.natAbs)
  | float _ _ => false

/-- The float that is nearest to a number. It is an infinity for an integer that is too large. -/
def nearest : Num → Float
  | int n => Float.ofInt n
  | float _ x => x

/-- A number has a float unless it is too large. -/
theorem toFloat_eq (a : Num) : a.toFloat = if a.isHuge then .error .tooLarge else .ok a.nearest := by
  cases a with
  | float type x => rfl
  | int n =>
    rw [toFloat, isHuge]
    by_cases h : ceiling ≤ n.natAbs
    · rw [Number.ofInt?_eq_none h, if_pos (decide_eq_true h)]
    · rw [Number.ofInt?_eq (Nat.not_le.1 h), if_neg (by simp [h])]
      rfl

/-- Two floats, of which both are needed. -/
theorem toFloat_both (a b : Num) {β : Type} (f : Float → Float → β) :
    (do return f (← a.toFloat) (← b.toFloat)) =
      if a.isHuge || b.isHuge then .error Fault.tooLarge else .ok (f a.nearest b.nearest) := by
  rw [a.toFloat_eq, b.toFloat_eq]
  cases a.isHuge <;> cases b.isHuge <;> rfl

end Num

/-! ### Operators -/

/-- The types of floats that numbers on their own have: a half comes out of a row only. -/
theorem FloatType.join_ne_half {s t : FloatType} (hs : s ≠ .half) (ht : t ≠ .half) :
    s.join t ≠ .half := by
  cases s <;> cases t <;> first | exact absurd rfl hs | exact absurd rfl ht | decide

theorem FloatType.within_eq {type : FloatType} (h : type ≠ .half) (f : Float → Float → Float)
    (x y : Float) : type.within f x y = f x y := by
  cases type <;> first | rfl | exact absurd rfl h

namespace Operator

/-- **An operator on numbers**, with the semantics of IEEE 754 wherever a float is involved. -/
def ieee (op : Operator) (a b : Num) : Num :=
  match op, a, b with
  | add, .int m, .int n => .int (m + n)
  | sub, .int m, .int n => .int (m - n)
  | mul, .int m, .int n => .int (m * n)
  | div, a, b | pow, a, b => .float .double (op.onFloats a.nearest b.nearest)
  | _, a, b => .float (a.floatType.join b.floatType) (op.onFloats a.nearest b.nearest)

/-- An integer is too large for the float that it should become. -/
def overflows (op : Operator) (a b : Num) : Bool :=
  (op.isReal || a.isFloat || b.isFloat) && (a.isHuge || b.isHuge)

variable {a b : Num}

/-- No half comes into being. -/
theorem floatType_ieee (op : Operator) (ha : a.floatType ≠ .half) (hb : b.floatType ≠ .half) :
    (op.ieee a b).floatType ≠ .half := by
  have hjoin := FloatType.join_ne_half ha hb
  rcases a with m | ⟨s, x⟩ <;> rcases b with n | ⟨t, y⟩ <;> cases op <;>
    first | exact hjoin | exact nofun

theorem onReals_eq {op : Operator} (hop : op.isReal) (ha : a.floatType ≠ .half)
    (hb : b.floatType ≠ .half) :
    op.onReals a b = if op.overflows a b then .error .tooLarge else .ok (op.ieee a b) := by
  have hreals : op.onReals a b = do
      return Num.float .double (op.onFloats (← a.toFloat) (← b.toFloat)) := by
    rw [onReals]
    · rfl
    · exact fun _ h => absurd h (FloatType.join_ne_half ha hb)
  have hieee : op.ieee a b = .float .double (op.onFloats a.nearest b.nearest) := by
    cases op <;> first | rfl | cases hop
  rw [hreals, overflows, hop, Bool.true_or, Bool.true_or, Bool.true_and, hieee]
  exact Num.toFloat_both a b fun x y => Num.float .double (op.onFloats x y)

/-- Beside a float the integer becomes a float, too. -/
theorem combine_eq (onInts : Int → Int → Int) (onFloats : Float → Float → Float)
    (hfloat : a.isFloat || b.isFloat) (ha : a.floatType ≠ .half) (hb : b.floatType ≠ .half) :
    Num.combine onInts onFloats a b =
      if a.isHuge || b.isHuge then .error .tooLarge
      else .ok (.float (a.floatType.join b.floatType) (onFloats a.nearest b.nearest)) := by
  have hcombine : Num.combine onInts onFloats a b = do
      let type := a.floatType.join b.floatType
      return .float type (type.within onFloats (← a.toFloat) (← b.toFloat)) := by
    rcases a with m | ⟨s, x⟩ <;> rcases b with n | ⟨t, y⟩ <;> first | rfl | cases hfloat
  rw [hcombine, ← FloatType.within_eq (FloatType.join_ne_half ha hb) onFloats]
  exact Num.toFloat_both a b fun x y =>
    Num.float (a.floatType.join b.floatType) ((a.floatType.join b.floatType).within onFloats x y)

theorem onNumbers_eq (op : Operator) (ha : a.floatType ≠ .half) (hb : b.floatType ≠ .half) :
    op.onNumbers a b = if op.overflows a b then .error .tooLarge else .ok (op.ieee a b) := by
  by_cases hreal : op.isReal
  · rw [← onReals_eq hreal ha hb]
    cases op <;> first | rfl | cases hreal
  by_cases hfloat : a.isFloat || b.isFloat
  · have hieee : op.ieee a b =
        .float (a.floatType.join b.floatType) (op.onFloats a.nearest b.nearest) := by
      rcases a with m | ⟨s, x⟩ <;> rcases b with n | ⟨t, y⟩ <;> cases op <;>
        first | exact absurd rfl hreal | rfl | cases hfloat
    rw [overflows, Bool.or_assoc, hfloat, Bool.or_true, Bool.true_and, hieee]
    cases op <;> first | exact absurd rfl hreal | exact combine_eq _ _ hfloat ha hb
  · -- two integers
    rcases a with m | ⟨s, x⟩ <;> rcases b with n | ⟨t, y⟩ <;>
      first | exact absurd rfl hfloat | skip
    cases op <;> first | exact absurd rfl hreal | rfl

/-- A number is no row, so that nothing is put together or repeated. -/
theorem onRows_numbers (op : Operator) (a b : Num) : op.onRows a.toValue b.toValue = none := by
  rcases a with m | ⟨_ | _ | _, x⟩ <;> rcases b with n | ⟨_ | _ | _, y⟩ <;> cases op <;> rfl

theorem side_number (lists : Bool) (a : Num) : side lists a.toValue = .ok (.number a) := by
  rcases a with m | ⟨_ | _ | _, x⟩ <;> rfl

/-- **An operator between two numbers** gives a number, or an integer is too large. -/
theorem apply_numbers (op : Operator) (ha : a.floatType ≠ .half) (hb : b.floatType ≠ .half) :
    op.apply a.toValue b.toValue =
      if op.overflows a b then .error .tooLarge else .ok (op.ieee a b).toValue := by
  have hvalues : op.onValues a.toValue b.toValue = Num.toValue <$> op.onNumbers a b := by
    rw [onValues, onRows_numbers]
    simp only [side_number]
    rfl
  rw [apply, hvalues, onNumbers_eq op ha hb]
  cases op.overflows a b <;> rfl

end Operator

/-! ### Division by zero -/

theorem exists_unpack_of_eq_zero {x : Float} (h : x == 0.0) :
    ∃ sign, x.toModel.unpack = .zero sign := by
  change (x.toModel.unpack.compare (0.0 : Float).toModel.unpack == some .eq) = true at h
  rw [Number.unpack_zero] at h
  cases hx : x.toModel.unpack with
  | zero sign => exact ⟨sign, rfl⟩
  | notANumber => simp [hx, UnpackedFloat.compare] at h
  | infinity sign | finite sign m e hpos =>
    cases sign <;> simp [hx, UnpackedFloat.compare] at h

/-- A float divided by zero is an infinity or no number. -/
theorem isFinite_div_zero (x : Float) {y : Float} (h : y == 0.0) : (x / y).isFinite = false := by
  obtain ⟨sign, hy⟩ := exists_unpack_of_eq_zero h
  show (Float.Model.pack (UnpackedFloat.div Format.binary64 x.toModel.unpack
    y.toModel.unpack)).unpack.isFinite = false
  have hnan : (Float.Model.pack .notANumber).unpack.isFinite = false := by decide
  have hinfinity : ∀ sign, (Float.Model.pack (.infinity sign)).unpack.isFinite = false := by decide
  rw [hy]
  cases x.toModel.unpack with
  | notANumber | zero sign => exact hnan
  | infinity sign | finite sign m e hpos => exact hinfinity _

/-! ### Expressions -/

/-- **The expressions of arithmetic.** -/
inductive Arithmetic where
  /-- An integer literal. -/
  | int (n : Int)
  /-- A float literal. -/
  | float (x : Float)
  /-- A sign before an operand. -/
  | sign (negative : Bool) (operand : Arithmetic)
  /-- An operator between two operands. -/
  | operation (op : Operator) (left right : Arithmetic)

namespace Arithmetic

/-- The syntax tree. -/
def node : Arithmetic → Node
  | int n => .number (.int n)
  | float x => .number (.float x)
  | sign negative operand => .unary (if negative then "-" else "+") operand.node
  | operation op left right => .binary op.text left.node right.node

/-- **The number that an expression stands for.** -/
def value : Arithmetic → Num
  | int n => .int n
  | float x => .float .plain x
  | sign negative operand => if negative then operand.value.negate else operand.value
  | operation op left right => op.ieee left.value right.value

/-- Whether somewhere in the expression an integer is too large for the float that it should
become. -/
def overflows : Arithmetic → Bool
  | int _ | float _ => false
  | sign _ operand => operand.overflows
  | operation op left right =>
    left.overflows || right.overflows || op.overflows left.value right.value

theorem floatType_value (t : Arithmetic) : t.value.floatType ≠ .half := by
  induction t with
  | int | float => exact nofun
  | sign negative operand ih =>
    rw [value]
    split
    · cases h : operand.value <;> rw [h] at ih <;> exact ih
    · exact ih
  | operation op left right ihl ihr => exact op.floatType_ieee ihl ihr

/-- A division by zero gives an infinity or no number. -/
theorem value_div_zero (left right : Arithmetic) (h : right.value.nearest == 0.0) :
    ∃ x, (operation .div left right).value = .float .double x ∧ x.isFinite = false :=
  ⟨_, rfl, isFinite_div_zero _ h⟩

end Arithmetic

/-! ### Evaluation -/

theorem Num.opened_toValue (a : Num) (e : Engine) : a.toValue.opened e = a.toValue := by
  rcases a with m | ⟨_ | _ | _, x⟩ <;> rfl

theorem run_operate (op : Operator) (a b : Num) (env : Env) :
    (operate op.text a.toValue b.toValue).run env = (op.apply a.toValue b.toValue, env) := by
  rw [operate, run_get_bind]
  simp only [Num.opened_toValue, applyOperator, Operator.ofText?_text]
  exact run_ofExcept _ env

theorem run_signed (negative : Bool) (a : Num) (env : Env) :
    (signed (if negative then "-" else "+") a.toValue).run env =
      (.ok (if negative then a.negate else a).toValue, env) := by
  rw [signed, run_get_bind]
  simp only [Num.opened_toValue]
  rcases a with m | ⟨_ | _ | _, x⟩ <;> cases negative <;> rfl

namespace Arithmetic

/-- What has become of a run of a tree with so many nodes, if an integer was too large. -/
def Stops (size : Nat) (env : Env) (outcome : Except Fault Value × Env) : Prop :=
  ∃ count ≤ size, outcome = (.error .tooLarge, env.counted count)

theorem Stops.of_counted {size size' count : Nat} {env : Env} {outcome : Except Fault Value × Env}
    (h : Stops size (env.counted count) outcome) (hle : count + size ≤ size') :
    Stops size' env outcome := by
  obtain ⟨more, hmore, rfl⟩ := h
  exact ⟨count + more, by omega, by rw [env.counted_counted]⟩

/-- What stops before it comes to a value does not go on. -/
theorem Stops.bind {size : Nat} {env : Env} {r : Run Value} (h : Stops size env (r.run env))
    (f : Value → Run Value) : Stops size env ((r >>= f).run env) := by
  obtain ⟨count, hcount, hrun⟩ := h
  exact ⟨count, hcount, run_bind_error hrun f⟩

/-- **Direct evaluation of arithmetic.** -/
theorem run_evaluateDirectly (t : Arithmetic) {env : Env} (hb : env.budget = .unlimited) :
    (t.overflows = false →
      t.node.evaluateDirectly.run env = (.ok t.value.toValue, env.counted t.node.size)) ∧
    (t.overflows → Stops t.node.size env (t.node.evaluateDirectly.run env)) := by
  induction t generalizing env with
  | int n | float x =>
    refine ⟨fun _ => ?_, fun h => by cases h⟩
    rw [node, Node.evaluateDirectly, run_bind_ok (run_tick (Env.hasRoom_of_unlimited hb))]
    rfl
  | sign negative operand ih =>
    obtain ⟨hvalue, hstops⟩ := ih (show (env.counted 1).budget = .unlimited from hb)
    rw [node, Node.evaluateDirectly, run_bind_ok (run_tick (Env.hasRoom_of_unlimited hb)), Node.size,
      overflows, value]
    refine ⟨fun h => ?_, fun h => ((hstops h).bind _).of_counted (by omega)⟩
    rw [run_bind_ok (hvalue h), run_signed, env.counted_counted, Nat.add_comm]
  | operation op left right ihl ihr =>
    obtain ⟨hleft, hleftstops⟩ := ihl (show (env.counted 1).budget = .unlimited from hb)
    obtain ⟨hright, hrightstops⟩ := ihr
      (show (env.counted (1 + left.node.size)).budget = .unlimited from hb)
    rw [node, Node.evaluateDirectly, run_bind_ok (run_tick (Env.hasRoom_of_unlimited hb)), Node.size,
      overflows, value]
    rcases hl : left.overflows with _ | _
    · rw [run_bind_ok (hleft hl), env.counted_counted]
      rcases hr : right.overflows with _ | _
      · -- both operands have values
        have hcount : 1 + left.node.size + right.node.size =
            left.node.size + right.node.size + 1 := by omega
        rw [run_bind_ok (hright hr), run_operate, env.counted_counted, hcount,
          op.apply_numbers left.floatType_value right.floatType_value, Bool.false_or, Bool.false_or]
        rcases op.overflows left.value right.value with _ | _
        · exact ⟨fun _ => rfl, by simp⟩
        · exact ⟨by simp, fun _ => ⟨_, Nat.le_refl _, rfl⟩⟩
      · exact ⟨by simp, fun _ => ((hrightstops hr).bind _).of_counted (by omega)⟩
    · exact ⟨by simp, fun _ => ((hleftstops hl).bind _).of_counted (by omega)⟩

/-- **Arithmetic comes to the number that it stands for**, unless an integer is too large for the float
that it should become; then the evaluation fails, and this is the only way in which it can. Apart from
the operations that are counted nothing changes in either case. -/
theorem evaluate_eq (t : Arithmetic) {env : Env} (hfits : t.node.fits levelLimit false)
    (hb : env.budget = .unlimited) :
    (t.overflows = false →
      t.node.evaluate.run env = (.ok t.value.toValue, env.counted t.node.size)) ∧
    (t.overflows → Stops t.node.size env (t.node.evaluate.run env)) ∧
    ∀ left right, t = operation .div left right → right.value.nearest == 0.0 →
      ∃ x, t.value = .float .double x ∧ x.isFinite = false := by
  rw [Node.evaluate_eq_evaluateDirectly _ _ (.inl hfits)]
  obtain ⟨hvalue, hstops⟩ := t.run_evaluateDirectly hb
  refine ⟨hvalue, hstops, ?_⟩
  rintro left right rfl hzero
  exact value_div_zero left right hzero

/-- The expression `1 / 0 - 2.5`, of which the first part is an infinity. -/
theorem evaluate_eq_infinity :
    let t : Arithmetic := operation .sub (operation .div (int 1) (int 0)) (float 2.5)
    let env := Env.ofBindings [] .unlimited
    t.node.fits levelLimit false ∧ t.overflows = false ∧
      t.node.evaluate.run env = (.ok t.value.toValue, env.counted t.node.size) := by
  have hfits : (operation .sub (operation .div (int 1) (int 0)) (float 2.5)).node.fits levelLimit
      false := by decide
  have hoverflows : (operation .sub (operation .div (int 1) (int 0)) (float 2.5)).overflows =
      false := by decide +kernel
  exact ⟨hfits, hoverflows, (evaluate_eq _ hfits rfl).1 hoverflows⟩

/-- The square of an integer of 401 digits is no infinity but a fault. -/
theorem evaluate_huge :
    let t : Arithmetic := operation .pow (int (10 ^ 400)) (int 2)
    t.node.fits levelLimit false ∧
      (t.node.evaluate.run (Env.ofBindings [] .unlimited)).1 = .error .tooLarge := by
  have hfits : (operation .pow (int (10 ^ 400)) (int 2)).node.fits levelLimit false := by
    decide
  have hoverflows : (operation .pow (int (10 ^ 400)) (int 2)).overflows := by decide +kernel
  have hbudget : (Env.ofBindings [] .unlimited).budget = .unlimited := rfl
  obtain ⟨count, -, hrun⟩ := (run_evaluateDirectly _ hbudget).2 hoverflows
  refine ⟨hfits, ?_⟩
  rw [Node.evaluate_eq_evaluateDirectly _ _ (.inl hfits)]
  exact congrArg Prod.fst hrun

end Arithmetic

end ChartScript
