import ChartScript.Proofs.Evaluation
import ChartScript.Syntax.Star

/-!
# Comparing two evaluations

Two evaluations can be compared in many ways: with and without a budget, with and without the star
namespace, in two environments that hardly differ. Whatever the comparison is, it goes through an
expression in the same manner. A relation between computations that is kept by running one after the
other, and that counting and every computation of the host have to themselves, is a
`ChartScript.Congruence`. It holds between the evaluations of an expression and of the same expression
with its calls sent elsewhere, as soon as it holds for the names and the calls in it
(`ChartScript.Congruence.evalUnder`). This is the only induction over expressions that the comparisons
need.
-/

namespace ChartScript

/-! ### Calls sent elsewhere -/

mutual

/-- An expression with every callee replaced. -/
def Node.redirected (send : String → String) : Node → Node
  | .number value => .number value
  | .string value => .string value
  | .identifier name marker => .identifier name marker
  | .array items => .array (Node.allRedirected send items)
  | .index target position => .index (target.redirected send) (position.redirected send)
  | .unary op operand => .unary op (operand.redirected send)
  | .binary op left right => .binary op (left.redirected send) (right.redirected send)
  | .call callee args => .call (send callee) (Node.allRedirected send args)

/-- Several expressions with every callee replaced. -/
def Node.allRedirected (send : String → String) : List Node → List Node
  | [] => []
  | node :: nodes => node.redirected send :: Node.allRedirected send nodes

end

theorem Node.allRedirected_eq_map (send : String → String) (nodes : List Node) :
    Node.allRedirected send nodes = nodes.map (Node.redirected send) := by
  induction nodes with
  | nil => rfl
  | cons node nodes ih => rw [Node.allRedirected, ih, List.map_cons]

/-- Replacing every callee by itself changes nothing. -/
@[simp] theorem Node.redirected_id (node : Node) : node.redirected id = node := by
  induction node using Node.induct with
  | number | string | identifier => rfl
  | array items ih =>
    rw [Node.redirected, Node.allRedirected_eq_map, List.map_congr_left ih, List.map_id']
  | index target position iht ihp => rw [Node.redirected, iht, ihp]
  | unary op operand ih => rw [Node.redirected, ih]
  | binary op left right ihl ihr => rw [Node.redirected, ihl, ihr]
  | call callee args ih =>
    rw [Node.redirected, Node.allRedirected_eq_map, List.map_congr_left ih, List.map_id', id]

/-- Sending calls through the star namespace replaces callees. -/
theorem Node.toStar_eq_redirected (node : Node) :
    node.toStar = node.redirected Syntax.starCallee := by
  induction node using Node.induct with
  | number | string | identifier => rfl
  | array items ih =>
    rw [Node.toStar, Node.redirected, Node.allToStar_eq_map, Node.allRedirected_eq_map,
      List.map_congr_left ih]
  | index target position iht ihp => rw [Node.toStar, Node.redirected, iht, ihp]
  | unary op operand ih => rw [Node.toStar, Node.redirected, ih]
  | binary op left right ihl ihr => rw [Node.toStar, Node.redirected, ihl, ihr]
  | call callee args ih =>
    rw [Node.toStar, Node.redirected, Node.allToStar_eq_map, Node.allRedirected_eq_map,
      List.map_congr_left ih]

/-! ### Congruences -/

/-- Binds a name. -/
def binding (name : String) (v : Value) : Run Unit := modify (·.bind name v)

/-- A relation between computations that evaluation respects. -/
structure Congruence (R : ∀ {α : Type}, Run α → Run α → Prop) : Prop where
  /-- One after the other. -/
  bind : ∀ {α β : Type} {r s : Run α} {f g : α → Run β}, R r s → (∀ a, R (f a) (g a)) →
    R (r >>= f) (s >>= g)
  /-- Counting. -/
  tick : R tick tick
  /-- What the host does. -/
  hosted : ∀ {α : Type} {r : Run α}, Hosted r → R r r

namespace Congruence

variable {R : ∀ {α : Type}, Run α → Run α → Prop} (hR : Congruence R)

include hR

theorem enter (room : Nat) : R (enter room) (ChartScript.enter room) := by
  rw [ChartScript.enter]
  split
  · exact hR.hosted (hosted_throw _)
  · exact hR.tick

/-- Truth values and markers are the same everywhere, so that only other names have to be looked
at. -/
theorem identifierValue {name : String} {marker : Bool}
    (h : marker = false → R (resolved name) (resolved name)) :
    R (identifierValue name marker) (ChartScript.identifierValue name marker) := by
  rw [ChartScript.identifierValue]
  split
  · exact hR.hosted (hosted_pure _)
  · split
    · exact hR.hosted (hosted_pure _)
    · split
      · exact hR.hosted (hosted_pure _)
      · exact h (by simpa using ‹¬marker = true›)

/-- Rows of links with the same operators and related operands. -/
theorem finish {links links' : List Link}
    (h : List.Forall₂ (fun l l' => l.op = l'.op ∧ R l.operand l'.operand) links links') (v : Value) :
    R (finish links v) (ChartScript.finish links' v) := by
  induction h generalizing v with
  | nil => exact hR.hosted (hosted_pure v)
  | @cons l l' links links' hl _ ih =>
    rw [finish_cons, finish_cons, hl.1]
    exact hR.bind (hR.bind hl.2 fun w => hR.hosted (hosted_operate _ _ _)) ih

theorem entered {room : Nat} {links links' : List Link} {value value' : Run Value}
    (h : R value value')
    (hlinks : List.Forall₂ (fun l l' => l.op = l'.op ∧ R l.operand l'.operand) links links') :
    R (entered room links value) (ChartScript.entered room links' value') :=
  hR.bind (hR.enter room) fun _ => hR.bind h fun v => hR.finish hlinks v

theorem evalAll {send : String → String} {room : Nat} {nodes : List Node}
    (h : ∀ t ∈ nodes, R (t.evalUnder room false []) ((t.redirected send).evalUnder room false [])) :
    R (Node.evalAll room nodes) (Node.evalAll room (Node.allRedirected send nodes)) := by
  induction nodes with
  | nil => exact hR.hosted (hosted_pure [])
  | cons node nodes ih =>
    obtain ⟨hnode, hnodes⟩ := List.forall_mem_cons.1 h
    rw [Node.allRedirected, Node.evalAll, Node.evalAll]
    exact hR.bind hnode fun v => hR.bind (ih hnodes) fun vs => hR.hosted (hosted_pure _)

end Congruence

/-- A relation holds for the names and the calls of an expression, when its calls are sent
elsewhere. -/
structure Covers (R : ∀ {α : Type}, Run α → Run α → Prop) (send : String → String) (node : Node) :
    Prop where
  /-- The names, markers included. -/
  name : ∀ name marker, .identifier name marker ∈ node.parts →
    R (identifierValue name marker) (identifierValue name marker)
  /-- The calls, whatever their arguments are. -/
  call : ∀ callee args, .call callee args ∈ node.parts → ∀ {values values' : Run (List Value)},
    R values values' → R (calling callee values) (calling (send callee) values')

variable {R : ∀ {α : Type}, Run α → Run α → Prop} {send : String → String} {node : Node}

theorem Covers.of_parts (h : Covers R send node) {t : Node}
    (hparts : ∀ part ∈ t.parts, part ∈ node.parts) : Covers R send t :=
  ⟨fun name marker hn => h.name name marker (hparts _ hn),
    fun callee args hc => h.call callee args (hparts _ hc)⟩

namespace Congruence

/-- What holds for all names and all calls holds for those of an expression. -/
theorem covers (hR : Congruence R) (hname : ∀ name, R (resolved name) (resolved name))
    (hcall : ∀ (callee : String) {values values' : Run (List Value)}, R values values' →
      R (calling callee values) (calling callee values')) (node : Node) : Covers R id node :=
  ⟨fun name _ _ => hR.identifierValue fun _ => hname name, fun callee _ _ _ _ h => hcall callee h⟩

/-- **A congruence holds between evaluations** if it holds for the names and the calls of the
expression. -/
theorem evalUnder (hR : Congruence R) (h : Covers R send node) (room : Nat) (chained : Bool)
    {links links' : List Link}
    (hlinks : List.Forall₂ (fun l l' => l.op = l'.op ∧ R l.operand l'.operand) links links') :
    R (node.evalUnder room chained links) ((node.redirected send).evalUnder room chained links') := by
  induction node using Node.induct generalizing room chained links links' with
  | number value | string value =>
    rw [Node.redirected, Node.evalUnder, Node.evalUnder]
    exact hR.entered (hR.hosted (hosted_pure _)) hlinks
  | identifier name marker =>
    rw [Node.redirected, Node.evalUnder, Node.evalUnder]
    exact hR.entered (h.name name marker (by simp [Node.parts])) hlinks
  | array items ih =>
    have hitems : ∀ t ∈ items, Covers R send t := fun t ht => h.of_parts fun part hp =>
      List.mem_cons_of_mem _ (Node.mem_allParts.2 ⟨t, ht, hp⟩)
    rw [Node.redirected, Node.evalUnder, Node.evalUnder]
    refine hR.entered (hR.bind (hR.evalAll fun t ht => ?_) fun vs => hR.hosted (hosted_pure _)) hlinks
    exact ih t ht (hitems t ht) _ _ .nil
  | index target position iht ihp =>
    have ht := iht (h.of_parts (by simp +contextual [Node.parts])) (room - operandLevels) false .nil
    have hp := ihp (h.of_parts (by simp +contextual [Node.parts])) (room - operandLevels) false .nil
    rw [Node.redirected, Node.evalUnder, Node.evalUnder]
    exact hR.entered (hR.bind ht fun v => hR.bind hp fun i => hR.hosted (hosted_subscripted _ _))
      hlinks
  | unary op operand ih =>
    have ho := ih (h.of_parts (by simp +contextual [Node.parts])) (room - operandLevels) false .nil
    rw [Node.redirected, Node.evalUnder, Node.evalUnder]
    exact hR.entered (hR.bind ho fun v => hR.hosted (hosted_signed _ _)) hlinks
  | binary op left right ihl ihr =>
    have hleft : Covers R send left := h.of_parts (by simp +contextual [Node.parts])
    have hright : Covers R send right := h.of_parts (by simp +contextual [Node.parts])
    have hr := fun room => ihr hright room false .nil
    rw [Node.redirected, Node.evalUnder, Node.evalUnder]
    split
    · exact hR.bind hR.tick fun _ => ihl hleft room true (.cons ⟨rfl, hr room⟩ hlinks)
    · exact hR.entered (ihl hleft _ _ (.cons ⟨rfl, hr _⟩ .nil)) hlinks
  | call callee args ih =>
    have hargs : ∀ t ∈ args, Covers R send t := fun t ht => h.of_parts fun part hp =>
      List.mem_cons_of_mem _ (Node.mem_allParts.2 ⟨t, ht, hp⟩)
    have hvalues := hR.evalAll fun t ht => ih t ht (hargs t ht) (room - argumentLevels) false .nil
    rw [Node.redirected, Node.evalUnder, Node.evalUnder]
    exact hR.entered (h.call callee args (by simp [Node.parts]) hvalues) hlinks

/-- The same of a whole expression. -/
theorem evaluate (hR : Congruence R) (h : Covers R send node) :
    R node.evaluate (node.redirected send).evaluate := hR.evalUnder h _ _ .nil

/-! ### Statements -/

/-- A bare call binds nothing, so that only the name of another statement has to be looked at. -/
theorem store (hR : Congruence R) {a : Assignment} {v : Value}
    (h : a.isCall = false → R (binding a.target v) (binding a.target v)) :
    R (a.store v) (a.store v) := by
  rw [Assignment.store]
  split
  · exact hR.hosted (hosted_pure _)
  · exact h (by simpa using ‹¬a.isCall = true›)

/-- Statements that are run one after the other. -/
theorem runAll (hR : Congruence R) {assignments : List Assignment}
    (h : ∀ a ∈ assignments, R a.run a.run) :
    R (Assignment.runAll assignments) (Assignment.runAll assignments) := by
  induction assignments with
  | nil => exact hR.hosted (hosted_pure ())
  | cons a rest ih =>
    obtain ⟨ha, hrest⟩ := List.forall_mem_cons.1 h
    exact hR.bind ha fun _ => ih hrest

end Congruence

end ChartScript
