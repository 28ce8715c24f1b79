import ChartScript.Proofs.Arrangement
import ChartScript.Proofs.Effects

/-!
# Evaluation by parts

Evaluation follows a chain of operators along its left side: it counts the operators of the chain,
evaluates the operand at its foot and then applies the links. The meaning of an expression needs none
of this: `ChartScript.Node.evaluateDirectly` counts a node, evaluates its parts from left to right and
puts the values together. The two are the same
(`ChartScript.Node.evaluate_eq_evaluateDirectly`), in value or fault and in everything that is left
behind, as far as the expression is followed at all: direct evaluation has no bound on the levels.

The bound on the levels is handled by a relation between computations, which are the same wherever the
first one does not go too deep (`ChartScript.AgreesInRoom`). Evaluation is put together from steps that
keep it.
-/

namespace ChartScript

/-! ### Induction over expressions -/

/-- Induction over expressions, where the items of a list and the arguments of a call are known one by
one. -/
theorem Node.induct {P : Node → Prop} (number : ∀ value, P (.number value))
    (string : ∀ value, P (.string value))
    (identifier : ∀ name marker, P (.identifier name marker))
    (array : ∀ items, (∀ t ∈ items, P t) → P (.array items))
    (index : ∀ target position, P target → P position → P (.index target position))
    (unary : ∀ op operand, P operand → P (.unary op operand))
    (binary : ∀ op left right, P left → P right → P (.binary op left right))
    (call : ∀ callee args, (∀ t ∈ args, P t) → P (.call callee args)) (node : Node) : P node :=
  Node.rec (motive_1 := P) (motive_2 := fun nodes => ∀ t ∈ nodes, P t) number string identifier array
    index unary binary call (by simp) (fun _ _ ht hts => List.forall_mem_cons.2 ⟨ht, hts⟩) node

/-! ### Direct evaluation -/

/-- A call: the callee is looked up before the arguments are evaluated. -/
def calling (callee : String) (values : Run (List Value)) : Run Value := do
  let target := (← get).resolve? callee
  callValue callee target (← values)

mutual

/-- **Evaluates an expression directly**: the node is counted, its parts are evaluated from left to
right, and their values are put together. -/
def Node.evaluateDirectly : Node → Run Value
  | .number d | .string d => do
    tick
    return .ofDatum d
  | .identifier name marker => do
    tick
    identifierValue name marker
  | .array items => do
    tick
    return .list (← Node.evaluateAllDirectly items)
  | .index target position => do
    tick
    let v ← target.evaluateDirectly
    let i ← position.evaluateDirectly
    subscripted v i
  | .unary op operand => do
    tick
    signed op (← operand.evaluateDirectly)
  | .binary op left right => do
    tick
    let v ← left.evaluateDirectly
    let w ← right.evaluateDirectly
    operate op v w
  | .call callee args => do
    tick
    calling callee (Node.evaluateAllDirectly args)

/-- Evaluates several expressions directly, from left to right. -/
def Node.evaluateAllDirectly : List Node → Run (List Value)
  | [] => return []
  | node :: nodes => do
    let v ← node.evaluateDirectly
    return v :: (← Node.evaluateAllDirectly nodes)

end

/-! ### Waiting links

The links that wait for a value are applied to it behind its evaluation. Said of the evaluation and the
links together, each rule is an equation between computations. -/

theorem finish_cons (link : Link) (links : List Link) (v : Value) :
    finish (link :: links) v = (do let w ← link.operand; operate link.op v w) >>= finish links := rfl

theorem bind_finish_cons (r : Run Value) (link : Link) (links : List Link) :
    r >>= finish (link :: links) =
      (do let v ← r; let w ← link.operand; operate link.op v w) >>= finish links := by
  rw [bind_assoc]
  rfl

theorem bind_finish_nil (r : Run Value) : r >>= finish [] = r := bind_pure r

/-- An operator that is no link of a longer chain. -/
theorem bind_finish_singleton (r : Run Value) (op : String) (operand : Run Value) :
    r >>= finish [⟨op, operand⟩] = (do let v ← r; let w ← operand; operate op v w) := by
  rw [bind_finish_cons, bind_finish_nil]

/-! ### The bound on the levels -/

mutual

/-- Whether an expression is followed to its last level, if there is room for so many levels. The flag
says that it may continue a chain of operators, which has one level. -/
def Node.fits (room : Nat) (chained : Bool) : Node → Bool
  | .number _ | .string _ | .identifier _ _ => 0 < room
  | .array items => 0 < room && Node.allFit (room - itemLevels) items
  | .index target position => 0 < room && target.fits (room - operandLevels) false
    && position.fits (room - operandLevels) false
  | .unary _ operand => 0 < room && operand.fits (room - operandLevels) false
  | .call _ args => 0 < room && Node.allFit (room - argumentLevels) args
  | .binary op left right =>
    if chained && op != "^" then left.fits room true && right.fits room false
    else 0 < room && left.fits (room - itemLevels) (op != "^")
      && right.fits (room - itemLevels) false

/-- Whether several expressions are followed to their last levels. -/
def Node.allFit (room : Nat) : List Node → Bool
  | [] => true
  | node :: nodes => node.fits room false && Node.allFit room nodes

end

theorem enter_eq_tick {room : Nat} (h : 0 < room) : enter room = tick := if_neg (by omega)

/-- Waiting links may as well be applied behind the whole evaluation. -/
theorem entered_eq {room : Nat} (h : 0 < room) (links : List Link) (value : Run Value) :
    entered room links value = (do tick; value) >>= finish links := by
  rw [entered, enter_eq_tick h, bind_assoc]

theorem evalAll_eq_of_allFit {room : Nat} {nodes : List Node}
    (h : ∀ t ∈ nodes, t.fits room false → t.evalUnder room false [] = t.evaluateDirectly)
    (hfit : Node.allFit room nodes) : Node.evalAll room nodes = Node.evaluateAllDirectly nodes := by
  induction nodes with
  | nil => rfl
  | cons node nodes ih =>
    obtain ⟨hnode, hnodes⟩ := List.forall_mem_cons.1 h
    rw [Node.allFit, Bool.and_eq_true] at hfit
    rw [Node.evalAll, Node.evaluateAllDirectly, hnode hfit.1, ih hnodes hfit.2]

/-- **Where there is room enough, evaluation with links waiting is direct evaluation and then the
links.** -/
theorem Node.evalUnder_eq_of_fits (node : Node) {room : Nat} {chained : Bool}
    (h : node.fits room chained) (links : List Link) :
    node.evalUnder room chained links = node.evaluateDirectly >>= finish links := by
  induction node using Node.induct generalizing room chained links with
  | number value | string value =>
    rw [Node.fits, decide_eq_true_eq] at h
    rw [Node.evalUnder, Node.evaluateDirectly, entered_eq h]
  | identifier name marker =>
    rw [Node.fits, decide_eq_true_eq] at h
    rw [Node.evalUnder, Node.evaluateDirectly, entered_eq h]
  | array items ih =>
    simp only [Node.fits, Bool.and_eq_true, decide_eq_true_eq] at h
    have hitems := evalAll_eq_of_allFit (fun t ht hfit => by rw [ih t ht hfit, bind_finish_nil]) h.2
    rw [Node.evalUnder, Node.evaluateDirectly, entered_eq h.1, hitems]
  | index target position iht ihp =>
    simp only [Node.fits, Bool.and_eq_true, decide_eq_true_eq] at h
    rw [Node.evalUnder, Node.evaluateDirectly, entered_eq h.1.1, iht h.1.2, ihp h.2,
      bind_finish_nil, bind_finish_nil]
  | unary op operand ih =>
    simp only [Node.fits, Bool.and_eq_true, decide_eq_true_eq] at h
    rw [Node.evalUnder, Node.evaluateDirectly, entered_eq h.1, ih h.2, bind_finish_nil]
  | binary op left right ihl ihr =>
    rw [Node.fits] at h
    rw [Node.evalUnder, Node.evaluateDirectly]
    split at h
    · -- the operator is a link of the chain that is being followed
      rename_i hc
      rw [Bool.and_eq_true] at h
      rw [if_pos hc, ihl h.1, ihr h.2, bind_finish_nil, bind_finish_cons]
      simp only [bind_assoc]
    · rename_i hc
      simp only [Bool.and_eq_true, decide_eq_true_eq] at h
      rw [if_neg hc, entered_eq h.1.1, ihl h.1.2, ihr h.2, bind_finish_nil, bind_finish_singleton]
  | call callee args ih =>
    simp only [Node.fits, Bool.and_eq_true, decide_eq_true_eq] at h
    have hargs := evalAll_eq_of_allFit (fun t ht hfit => by rw [ih t ht hfit, bind_finish_nil]) h.2
    rw [Node.evalUnder, Node.evaluateDirectly, entered_eq h.1, hargs]
    rfl

/-! ### Evaluation up to the bound -/

/-- Two computations are the same wherever the first does not go too deep. -/
def AgreesInRoom {α : Type} (r s : Run α) : Prop :=
  ∀ env, (r.run env).1 = .error .tooDeep ∨ r.run env = s.run env

section AgreesInRoom

variable {α β : Type}

theorem AgreesInRoom.refl (r : Run α) : AgreesInRoom r r := fun _ => .inr rfl

theorem AgreesInRoom.bind {r s : Run α} {f g : α → Run β} (h : AgreesInRoom r s)
    (hf : ∀ a, AgreesInRoom (f a) (g a)) : AgreesInRoom (r >>= f) (s >>= g) := by
  intro env
  rcases h env with hdeep | heq
  · left
    rcases hr : r.run env with ⟨fault | a, env'⟩
    · rw [hr] at hdeep
      obtain rfl := Except.error.inj hdeep
      rw [run_bind_error hr]
    · rw [hr] at hdeep
      cases hdeep
  · rw [run_bind, run_bind, heq]
    rcases s.run env with ⟨fault | a, env'⟩
    · exact .inr rfl
    · exact hf a env'

theorem agreesInRoom_enter (room : Nat) : AgreesInRoom (enter room) tick := by
  intro env
  rcases Nat.eq_zero_or_pos room with rfl | hpos
  · exact .inl rfl
  · rw [enter_eq_tick hpos]
    exact .inr rfl

/-- Two rows of links with the same operators and operands that agree. -/
def LinksAgree : List Link → List Link → Prop :=
  List.Forall₂ fun link link' => link.op = link'.op ∧ AgreesInRoom link.operand link'.operand

theorem LinksAgree.finish {links links' : List Link} (h : LinksAgree links links') (v : Value) :
    AgreesInRoom (finish links v) (finish links' v) := by
  induction h generalizing v with
  | nil => exact .refl _
  | @cons link link' links links' hlink hlinks ih =>
    rw [finish_cons, finish_cons, hlink.1]
    exact .bind (.bind hlink.2 fun w => .refl _) ih

theorem AgreesInRoom.entered {room : Nat} {links links' : List Link} {value value' : Run Value}
    (h : AgreesInRoom value value') (hlinks : LinksAgree links links') :
    AgreesInRoom (entered room links value) ((do tick; value') >>= ChartScript.finish links') := by
  rw [bind_assoc]
  exact .bind (agreesInRoom_enter room) fun _ => .bind h hlinks.finish

theorem agreesInRoom_evalAll {room : Nat} {nodes : List Node}
    (h : ∀ t ∈ nodes, AgreesInRoom (t.evalUnder room false []) t.evaluateDirectly) :
    AgreesInRoom (Node.evalAll room nodes) (Node.evaluateAllDirectly nodes) := by
  induction nodes with
  | nil => exact .refl _
  | cons node nodes ih =>
    obtain ⟨hnode, hnodes⟩ := List.forall_mem_cons.1 h
    rw [Node.evalAll, Node.evaluateAllDirectly]
    exact .bind hnode fun v => .bind (ih hnodes) fun vs => .refl _

/-- **Whatever the room, evaluation with links waiting is direct evaluation and then the links**,
unless it goes too deep. -/
theorem Node.agreesInRoom_evalUnder (node : Node) (room : Nat) (chained : Bool)
    {links links' : List Link} (h : LinksAgree links links') :
    AgreesInRoom (node.evalUnder room chained links) (node.evaluateDirectly >>= finish links') := by
  induction node using Node.induct generalizing room chained links links' with
  | number value | string value =>
    rw [Node.evalUnder, Node.evaluateDirectly]
    exact .entered (.refl _) h
  | identifier name marker =>
    rw [Node.evalUnder, Node.evaluateDirectly]
    exact .entered (.refl _) h
  | array items ih =>
    rw [Node.evalUnder, Node.evaluateDirectly]
    refine .entered (.bind (agreesInRoom_evalAll fun t ht => ?_) fun vs => .refl _) h
    exact bind_finish_nil t.evaluateDirectly ▸ ih t ht _ _ .nil
  | index target position iht ihp =>
    rw [Node.evalUnder, Node.evaluateDirectly]
    have ht := bind_finish_nil target.evaluateDirectly ▸ iht (room - operandLevels) false .nil
    have hp := bind_finish_nil position.evaluateDirectly ▸ ihp (room - operandLevels) false .nil
    exact .entered (.bind ht fun v => .bind hp fun i => .refl _) h
  | unary op operand ih =>
    rw [Node.evalUnder, Node.evaluateDirectly]
    have ho := bind_finish_nil operand.evaluateDirectly ▸ ih (room - operandLevels) false .nil
    exact .entered (.bind ho fun v => .refl _) h
  | binary op left right ihl ihr =>
    have hright : ∀ room, AgreesInRoom (right.evalUnder room false []) right.evaluateDirectly :=
      fun room => bind_finish_nil right.evaluateDirectly ▸ ihr room false .nil
    rw [Node.evalUnder, Node.evaluateDirectly]
    split
    · -- the operator is a link of the chain that is being followed
      have hlinks : LinksAgree (⟨op, right.evalUnder room false []⟩ :: links)
          (⟨op, right.evaluateDirectly⟩ :: links') := .cons ⟨rfl, hright room⟩ h
      have hl := ihl room true hlinks
      rw [bind_finish_cons] at hl
      rw [bind_assoc]
      exact .bind (.refl tick) fun _ => hl
    · have hlink : LinksAgree [⟨op, right.evalUnder (room - itemLevels) false []⟩]
          [⟨op, right.evaluateDirectly⟩] := .cons ⟨rfl, hright _⟩ .nil
      have hl := ihl (room - itemLevels) (op != "^") hlink
      rw [bind_finish_singleton] at hl
      exact .entered hl h
  | call callee args ih =>
    rw [Node.evalUnder, Node.evaluateDirectly]
    refine .entered (.bind (.refl _) fun env => .bind (agreesInRoom_evalAll fun t ht => ?_)
      fun vs => .refl _) h
    exact bind_finish_nil t.evaluateDirectly ▸ ih t ht _ _ .nil

end AgreesInRoom

/-- **Evaluation is direct evaluation**, for an expression that has no more levels than it is followed
to, and for any other one wherever it does not go too deep: the same value or fault, the same count of
operations, and the same plots, inputs and trades in the same order. -/
theorem Node.evaluate_eq_evaluateDirectly (node : Node) (env : Env)
    (h : node.fits levelLimit false ∨ (node.evaluate.run env).1 ≠ .error .tooDeep) :
    node.evaluate.run env = node.evaluateDirectly.run env := by
  rcases h with hfit | hroom
  · rw [Node.evaluate, Node.evalUnder_eq_of_fits node hfit, bind_finish_nil]
  · have h := node.agreesInRoom_evalUnder levelLimit false .nil env
    rw [bind_finish_nil] at h
    exact h.resolve_left hroom

/-- The sum `plot(1) + plot(2) % 3 - x` in an environment with room for four operations, which is
spent while the first operand is evaluated. -/
theorem evaluate_eq_chain :
    let sum : Node := .binary "-" (.binary "%" (.binary "+" (.call "plot" [.number (.int 1)])
      (.call "plot" [.number (.int 2)])) (.number (.int 3))) (.identifier "x" false)
    let env := Env.ofBindings [("plot", .function .plot)] (.ofValue (.int 4))
    sum.fits levelLimit false ∧ sum.evaluate.run env = sum.evaluateDirectly.run env := by
  have hfits : Node.fits levelLimit false (.binary "-" (.binary "%" (.binary "+"
      (.call "plot" [.number (.int 1)]) (.call "plot" [.number (.int 2)])) (.number (.int 3)))
      (.identifier "x" false)) := by decide
  exact ⟨hfits, Node.evaluate_eq_evaluateDirectly _ _ (.inl hfits)⟩

end ChartScript
