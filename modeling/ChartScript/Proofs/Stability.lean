import ChartScript.CommandLine.Commands
import ChartScript.Proofs.Evaluation
import ChartScript.Proofs.FloatTexts
import ChartScript.Proofs.RoundTrip

/-!
# A text in the star namespace is a fixed point

A source that is made portable is written as a text, and this text is a source again. The whole point
is that it is written as itself, character for character
(`ChartScript.CommandLine.portable_stable`): there is nothing left to be done to it.

The one thing to know is that the program may be another one the second time. Two things are lost in
the writing: the place of a named argument that stood before a positional one, and the floats that are
not finite, which are written as names (`ChartScript.Node.asWritten`). What is read from the text is
the program without them. So every step has to be followed on the program that is written *and* on the
one that is read: neither loss changes how high a tree is, how it is written or where its calls go, and
a call that was sent through the star namespace stays where it is.

All three changes go through a tree in the same way, and what they have in common is stated once
(`ChartScript.Node.IsRewriting`).
-/

namespace ChartScript

open Syntax

namespace Node

/-! ### Rewritings -/

/-- **A rewriting of expressions.** It goes through the whole tree and changes nothing but number
literals, which may become names, and calls, which stay calls. -/
structure IsRewriting (f : Node → Node) : Prop where
  /-- A number literal stays one or becomes a name. -/
  number (value : Datum) : (∃ value', f (.number value) = .number value') ∨
    ∃ name, f (.number value) = .identifier name false
  /-- String literals stay as they are. -/
  string (value : Datum) : f (.string value) = .string value
  /-- So do names and markers. -/
  identifier (name : String) (marker : Bool) : f (.identifier name marker) = .identifier name marker
  /-- The items of a list are rewritten one by one. -/
  array (items : List Node) : f (.array items) = .array (items.map f)
  /-- A subscript is rewritten on both sides. -/
  index (target position : Node) : f (.index target position) = .index (f target) (f position)
  /-- What has a sign is rewritten behind it. -/
  unary (op : String) (operand : Node) : f (.unary op operand) = .unary op (f operand)
  /-- Operands are rewritten on both sides. -/
  binary (op : String) (left right : Node) :
    f (.binary op left right) = .binary op (f left) (f right)
  /-- A call stays a call. -/
  call (callee : String) (args : List Node) :
    ∃ callee' args', f (.call callee args) = .call callee' args'

namespace IsRewriting

variable {f g : Node → Node} (hf : IsRewriting f) (hg : IsRewriting g)

include hf

theorem isMarker_eq (t : Node) : (f t).isMarker = t.isMarker := by
  cases t with
  | number value => rcases hf.number value with ⟨value', h⟩ | ⟨name, h⟩ <;> (rw [h]; rfl)
  | string | identifier => simp only [hf.string, hf.identifier]
  | array | index | unary | binary => simp only [hf.array, hf.index, hf.unary, hf.binary, isMarker]
  | call callee args =>
    obtain ⟨callee', args', h⟩ := hf.call callee args
    rw [h]
    rfl

theorem splitArgs_map_eq (args : List Node) :
    splitArgs (args.map f) =
      ((splitArgs args).1.map f, (splitArgs args).2.map fun e => (e.1, f e.2)) :=
  splitArgs_map hf.isMarker_eq (fun name => hf.identifier name true) args

theorem strength_eq (t : Node) : strength (f t) = strength t := by
  cases t with
  | number value => rcases hf.number value with ⟨value', h⟩ | ⟨name, h⟩ <;> (rw [h]; rfl)
  | string | identifier => simp only [hf.string, hf.identifier]
  | array | index | unary | binary => simp only [hf.array, hf.index, hf.unary, hf.binary, strength]
  | call callee args =>
    obtain ⟨callee', args', h⟩ := hf.call callee args
    rw [h]
    rfl

include hg in
/-- **Two rewritings agree** where they do so on number literals, and on calls with arguments on which
they agree. -/
theorem ext (hnumber : ∀ value, f (.number value) = g (.number value))
    (hcall : ∀ callee args, (∀ t ∈ args, f t = g t) → f (.call callee args) = g (.call callee args))
    (node : Node) : f node = g node := by
  induction node using Node.induct with
  | number value => exact hnumber value
  | string value => rw [hf.string, hg.string]
  | identifier name marker => rw [hf.identifier, hg.identifier]
  | array items ih => rw [hf.array, hg.array, List.map_congr_left ih]
  | index target position iht ihp => rw [hf.index, hg.index, iht, ihp]
  | unary op operand ih => rw [hf.unary, hg.unary, ih]
  | binary op left right ihl ihr => rw [hf.binary, hg.binary, ihl, ihr]
  | call callee args ih => exact hcall callee args ih

include hg in
/-- One rewriting after another is a rewriting. -/
theorem comp : IsRewriting (f ∘ g) where
  number value := by
    rcases hg.number value with ⟨value', h⟩ | ⟨name, h⟩
    · rw [Function.comp_apply, h]
      exact hf.number value'
    · rw [Function.comp_apply, h, hf.identifier]
      exact .inr ⟨name, rfl⟩
  string value := by rw [Function.comp_apply, hg.string, hf.string]
  identifier name marker := by rw [Function.comp_apply, hg.identifier, hf.identifier]
  array items := by rw [Function.comp_apply, hg.array, hf.array, List.map_map]
  index target position := by rw [Function.comp_apply, hg.index, hf.index]; rfl
  unary op operand := by rw [Function.comp_apply, hg.unary, hf.unary]; rfl
  binary op left right := by rw [Function.comp_apply, hg.binary, hf.binary]; rfl
  call callee args := by
    obtain ⟨callee', args', h⟩ := hg.call callee args
    rw [Function.comp_apply, h]
    exact hf.call callee' args'

omit hf in
/-- Expressions that are rewritten one by one are as deep as before if each of them is. -/
theorem depthAll_map {d : Descent} {nodes : List Node}
    (h : ∀ t ∈ nodes, (f t).depth d = t.depth d) : depthAll d (nodes.map f) = depthAll d nodes := by
  induction nodes with
  | nil => rfl
  | cons t nodes ih =>
    obtain ⟨ht, h⟩ := List.forall_mem_cons.1 h
    rw [List.map_cons, depthAll, depthAll, ht, ih h]

/-- **A rewriting makes no expression deeper or less deep** unless it does so with a call. -/
theorem depth_eq {d : Descent} (hcall : ∀ callee args, (∀ t ∈ args, (f t).depth d = t.depth d) →
      (f (.call callee args)).depth d = (Node.call callee args).depth d) (node : Node) :
    (f node).depth d = node.depth d := by
  induction node using Node.induct with
  | number value =>
    rcases hf.number value with ⟨value', h⟩ | ⟨name, h⟩ <;> simp only [h, depth]
  | string value => rw [hf.string]
  | identifier name marker => rw [hf.identifier]
  | array items ih => rw [hf.array, depth, depth, depthAll_map ih]
  | index target position iht ihp => rw [hf.index, depth, depth, iht, ihp]
  | unary op operand ih => rw [hf.unary, depth, depth, ih]
  | binary op left right ihl ihr => rw [hf.binary, depth, depth, ihl, ihr]
  | call callee args ih => exact hcall callee args ih

theorem wrapped_eq (demanded : Nat) (t : Node) : wrapped demanded (f t) = wrapped demanded t := by
  funext text
  rw [wrapped, wrapped, hf.strength_eq]

omit hf in
theorem renderAll_map {nodes : List Node} (h : ∀ t ∈ nodes, (f t).render = t.render) :
    renderAll (nodes.map f) = renderAll nodes := by
  induction nodes with
  | nil => rfl
  | cons t nodes ih =>
    obtain ⟨ht, h⟩ := List.forall_mem_cons.1 h
    rw [List.map_cons, renderAll, renderAll, ht, ih h]

/-- **A rewriting changes nothing in what is written** unless it does so with a literal or with one of
the calls of the expression. -/
theorem render_eq (hnumber : ∀ value, (f (.number value)).render = (Node.number value).render)
    {node : Node} (hcall : ∀ callee args, .call callee args ∈ node.parts →
      (∀ t ∈ args, (f t).render = t.render) →
        (f (.call callee args)).render = (Node.call callee args).render) :
    (f node).render = node.render := by
  induction node using Node.induct with
  | number value => exact hnumber value
  | string value => rw [hf.string]
  | identifier name marker => rw [hf.identifier]
  | array items ih =>
    have hitems : ∀ t ∈ items, (f t).render = t.render := fun t ht =>
      ih t ht fun callee args hc => hcall callee args (by
        rw [parts]
        exact List.mem_cons_of_mem _ (mem_allParts.2 ⟨t, ht, hc⟩))
    rw [hf.array, render, render, renderAll_map hitems]
  | index target position iht ihp =>
    rw [hf.index, render, render, hf.wrapped_eq,
      iht fun callee args hc => hcall callee args (by simp [parts, hc]),
      ihp fun callee args hc => hcall callee args (by simp [parts, hc])]
  | unary op operand ih =>
    rw [hf.unary, render, render, hf.wrapped_eq,
      ih fun callee args hc => hcall callee args (by simp [parts, hc])]
  | binary op left right ihl ihr =>
    simp only [hf.binary, render, hf.wrapped_eq,
      ihl fun callee args hc => hcall callee args (by simp [parts, hc]),
      ihr fun callee args hc => hcall callee args (by simp [parts, hc])]
  | call callee args ih =>
    have hargs : ∀ t ∈ args, (f t).render = t.render := fun t ht =>
      ih t ht fun callee' args' hc => hcall callee' args' (by
        rw [parts]
        exact List.mem_cons_of_mem _ (mem_allParts.2 ⟨t, ht, hc⟩))
    exact hcall callee args (by simp [parts]) hargs

end IsRewriting

/-- Calls are written alike if their arguments come apart into arguments that are written alike. -/
theorem render_call_congr {callee : String} {args args' : List Node}
    (h : renderArgs args = renderArgs args') :
    (Node.call callee args).render = (Node.call callee args').render := by
  rw [render, render, h]

/-! ### The star namespace -/

theorem isRewriting_toStar : IsRewriting toStar where
  number value := .inl ⟨value, by rw [toStar]⟩
  string value := by rw [toStar]
  identifier name marker := by rw [toStar]
  array items := by rw [toStar, allToStar_eq_map]
  index target position := by rw [toStar]
  unary op operand := by rw [toStar]
  binary op left right := by rw [toStar]
  call callee args := ⟨_, _, by rw [toStar]⟩

theorem depth_toStar (d : Descent) (node : Node) : node.toStar.depth d = node.depth d := by
  refine isRewriting_toStar.depth_eq (fun callee args ih => ?_) node
  rw [toStar, allToStar_eq_map, depth, depth, IsRewriting.depthAll_map ih]

/-- **Sending calls through the star namespace a second time changes nothing.** -/
theorem toStar_toStar (node : Node) : node.toStar.toStar = node.toStar := by
  refine (isRewriting_toStar.comp isRewriting_toStar).ext isRewriting_toStar (fun value => ?_)
    (fun callee args ih => ?_) node
  · simp only [Function.comp_apply, toStar]
  · have hargs : (args.map toStar).map toStar = args.map toStar := by
      rw [List.map_map, List.map_congr_left ih]
    simp only [Function.comp_apply, toStar, allToStar_eq_map, hargs, starCallee_idempotent]

/-! ### Named arguments behind the positional ones -/

theorem isRewriting_arranged : IsRewriting arranged where
  number value := .inl ⟨value, by rw [arranged]⟩
  string value := by rw [arranged]
  identifier name marker := by rw [arranged]
  array items := by rw [arranged, allArranged_eq_map]
  index target position := by rw [arranged]
  unary op operand := by rw [arranged]
  binary op left right := by rw [arranged]
  call callee args := ⟨_, _, by rw [arranged]⟩

theorem depthAll_append (d : Descent) (xs ys : List Node) :
    depthAll d (xs ++ ys) = max (depthAll d xs) (depthAll d ys) := by
  induction xs with
  | nil => simp [depthAll]
  | cons t xs ih => rw [List.cons_append, depthAll, depthAll, ih, max_assoc]

/-- A marker is no deeper than the value behind it. -/
theorem depthAll_pair (d : Descent) (name : String) (value : Node) :
    depthAll d (pair name value) = value.depth d := by
  have hleaf := leaf_le_depth d value
  simp only [pair, depthAll, depth]
  omega

/-- The deepest of arguments that are put together is a positional one or a value. -/
theorem depthAll_joinArgs (d : Descent) (positional : List Node) (named : List (String × Node)) :
    depthAll d (joinArgs positional named) =
      max (depthAll d positional) (depthAll d (named.map Prod.snd)) := by
  have hnamed : depthAll d (named.flatMap fun e => pair e.1 e.2) =
      depthAll d (named.map Prod.snd) := by
    induction named with
    | nil => rfl
    | cons entry named ih =>
      rw [List.flatMap_cons, depthAll_append, depthAll_pair, ih, List.map_cons, depthAll]
  rw [joinArgs, depthAll_append, hnamed]

/-- So is the deepest of arguments that are taken apart. -/
theorem depthAll_splitArgs (d : Descent) (args : List Node) :
    depthAll d args =
      max (depthAll d (splitArgs args).1) (depthAll d ((splitArgs args).2.map Prod.snd)) := by
  fun_induction splitArgs args with
  | case1 => rfl
  | case2 name value rest positional named heq ih =>
    rw [heq] at ih
    have hleaf := leaf_le_depth d value
    simp only [depthAll, depth, List.map_cons, ih]
    omega
  | case3 arg rest hne positional named heq ih =>
    rw [heq] at ih
    simp only [depthAll, ih]
    omega

theorem depth_arranged (d : Descent) (node : Node) : node.arranged.depth d = node.depth d := by
  refine isRewriting_arranged.depth_eq (fun callee args ih => ?_) node
  obtain ⟨hpositional, hnamed, -⟩ := mem_of_splitArgs args
  have hp : depthAll d ((splitArgs args).1.map arranged) = depthAll d (splitArgs args).1 :=
    IsRewriting.depthAll_map fun t ht => ih t (hpositional t ht)
  have hn : depthAll d (((splitArgs args).2.map Prod.snd).map arranged) =
      depthAll d ((splitArgs args).2.map Prod.snd) := by
    refine IsRewriting.depthAll_map fun t ht => ?_
    obtain ⟨e, he, rfl⟩ := List.mem_map.1 ht
    exact ih e.2 (hnamed e he)
  rw [arranged, arrangedArgs_eq, depth, depth, depthAll_joinArgs, depthAll_splitArgs d args, hp,
    List.map_map, ← hn, List.map_map]
  rfl

theorem map_toStar_joinArgs (positional : List Node) (named : List (String × Node)) :
    (joinArgs positional named).map toStar =
      joinArgs (positional.map toStar) (named.map fun e => (e.1, e.2.toStar)) := by
  rw [joinArgs, joinArgs, List.map_append, List.map_flatMap, List.flatMap_map]
  simp only [pair, List.map_cons, List.map_nil, toStar]

/-- Calls go where they go, however their arguments are arranged. -/
theorem toStar_arranged (node : Node) : node.arranged.toStar = node.toStar.arranged := by
  refine (isRewriting_toStar.comp isRewriting_arranged).ext
    (isRewriting_arranged.comp isRewriting_toStar) (fun value => ?_) (fun callee args ih => ?_) node
  · simp only [Function.comp_apply, toStar, arranged]
  · obtain ⟨hpositional, hnamed, -⟩ := mem_of_splitArgs args
    have hp : (splitArgs args).1.map (fun t => t.arranged.toStar) =
        (splitArgs args).1.map fun t => t.toStar.arranged :=
      List.map_congr_left fun t ht => ih t (hpositional t ht)
    have hn : (splitArgs args).2.map (fun e => (e.1, e.2.arranged.toStar)) =
        (splitArgs args).2.map fun e => (e.1, e.2.toStar.arranged) :=
      List.map_congr_left fun e he => congrArg (Prod.mk e.1) (ih e.2 (hnamed e he))
    simp only [Function.comp_apply, toStar, arranged, allToStar_eq_map, arrangedArgs_eq,
      splitArgs_map_toStar, map_toStar_joinArgs, List.map_map, hp, Function.comp_def, hn]

end Node

/-- **Arranging the arguments of a legible expression changes nothing in what is written.** -/
theorem Syntax.Legible.render_arranged {P : Float → Prop} {node : Node} (h : Legible P node) :
    node.arranged.render = node.render := by
  refine Node.isRewriting_arranged.render_eq (fun value => by rw [Node.arranged]) ?_
  intro callee args hc ih
  obtain ⟨args', heq, hsplit⟩ := (h.of_mem_parts hc).splitArgs_arranged
  obtain ⟨hpositional, hnamed, -⟩ := Node.mem_of_splitArgs args
  rw [heq]
  refine Node.render_call_congr ?_
  rw [Node.renderArgs_eq, Node.renderArgs_eq, hsplit, List.map_map, List.map_map]
  congr 1
  · exact List.map_congr_left fun t ht => ih t (hpositional t ht)
  · exact List.map_congr_left fun e he => congrArg (Prod.mk e.1) (ih e.2 (hnamed e he))

/-! ### Floats that are written as names -/

namespace Node

/-- A number literal as it is written: a float that is not finite is written as a name. -/
def literalAsWritten : Datum → Node
  | .float x =>
    if x.isFinite then .number (.float x)
    else .identifier (String.ofList (Number.floatText .positional x)) false
  | value => .number value

mutual

/-- **An expression as it is written**, which leaves only finite floats in it. -/
def asWritten : Node → Node
  | .number value => literalAsWritten value
  | .string value => .string value
  | .identifier name marker => .identifier name marker
  | .array items => .array (allAsWritten items)
  | .index target position => .index target.asWritten position.asWritten
  | .unary op operand => .unary op operand.asWritten
  | .binary op left right => .binary op left.asWritten right.asWritten
  | .call callee args => .call callee (allAsWritten args)

/-- Several expressions as they are written. -/
def allAsWritten : List Node → List Node
  | [] => []
  | node :: nodes => node.asWritten :: allAsWritten nodes

end

@[simp] theorem allAsWritten_eq_map (nodes : List Node) :
    allAsWritten nodes = nodes.map asWritten := by
  induction nodes with
  | nil => simp [allAsWritten]
  | cons node nodes ih => simp [allAsWritten, ih]

/-- A number literal is written as itself or as a name. -/
theorem literalAsWritten_cases (value : Datum) :
    literalAsWritten value = .number value ∨
      ∃ x : Float, value = .float x ∧
        literalAsWritten value =
          .identifier (String.ofList (Number.floatText .positional x)) false := by
  cases value with
  | float x =>
    rw [literalAsWritten]
    split
    · exact .inl rfl
    · exact .inr ⟨x, rfl, rfl⟩
  | _ => exact .inl rfl

theorem isRewriting_asWritten : IsRewriting asWritten where
  number value := by
    rw [asWritten]
    exact (literalAsWritten_cases value).imp (fun h => ⟨_, h⟩) fun ⟨x, _, h⟩ => ⟨_, h⟩
  string value := by rw [asWritten]
  identifier name marker := by rw [asWritten]
  array items := by rw [asWritten, allAsWritten_eq_map]
  index target position := by rw [asWritten]
  unary op operand := by rw [asWritten]
  binary op left right := by rw [asWritten]
  call callee args := ⟨_, _, by rw [asWritten]⟩

theorem depth_asWritten (d : Descent) (node : Node) : node.asWritten.depth d = node.depth d := by
  refine isRewriting_asWritten.depth_eq (fun callee args ih => ?_) node
  rw [asWritten, allAsWritten_eq_map, depth, depth, IsRewriting.depthAll_map ih]

/-- **The name of a float is what is written of the float.** -/
theorem render_asWritten (node : Node) : node.asWritten.render = node.render := by
  refine isRewriting_asWritten.render_eq (fun value => ?_) (fun callee args _ ih => ?_)
  · rw [asWritten]
    rcases literalAsWritten_cases value with h | ⟨x, rfl, h⟩
    · rw [h]
    · rw [h, render, render, String.toList_ofList, numberText]
  · obtain ⟨hpositional, hnamed, -⟩ := mem_of_splitArgs args
    rw [asWritten, allAsWritten_eq_map]
    refine render_call_congr ?_
    rw [renderArgs_eq, renderArgs_eq, isRewriting_asWritten.splitArgs_map_eq, List.map_map,
      List.map_map]
    congr 1
    · exact List.map_congr_left fun t ht => ih t (hpositional t ht)
    · exact List.map_congr_left fun e he => congrArg (Prod.mk e.1) (ih e.2 (hnamed e he))

/-- Calls go where they go, however the literals are written. -/
theorem toStar_asWritten (node : Node) : node.asWritten.toStar = node.toStar.asWritten := by
  refine (isRewriting_toStar.comp isRewriting_asWritten).ext
    (isRewriting_asWritten.comp isRewriting_toStar) (fun value => ?_) (fun callee args ih => ?_) node
  · rw [Function.comp_apply, Function.comp_apply, toStar, asWritten]
    rcases literalAsWritten_cases value with h | ⟨x, -, h⟩ <;> rw [h, toStar]
  · have hargs := List.map_congr_left ih
    simp only [Function.comp_apply, toStar, asWritten, allToStar_eq_map, allAsWritten_eq_map,
      List.map_map, hargs]

end Node

namespace Syntax

/-- A basic letter and basic word characters behind it are a name. -/
theorem isName_cons {c : Char} {rest : List Char} (hc : Grammar.isNameStart c)
    (hrest : nameRest rest = (rest, [])) : IsName (String.ofList (c :: rest)) :=
  ⟨c, rest, String.toList_ofList, Text.isNameStart_of_isNameStart hc,
    (Grammar.not_isDigit_of_isNameStart hc).1, hrest⟩

/-- What is written of a float that was read and is not finite is a name. -/
theorem isName_floatText {x : Float} (hu : IsUnsigned x) (hx : x.isFinite = false) :
    IsName (String.ofList (Number.floatText .positional x)) := by
  have hfinite : x.toModel.unpack.isFinite = false := hx
  rw [IsUnsigned] at hu
  rw [Number.floatText, Number.Exact.ofFloat]
  cases hm : x.toModel.unpack with
  | notANumber => exact isName_cons (by decide) (by decide)
  | infinity sign =>
    rw [hm] at hu
    cases hu
    exact isName_cons (by decide) (by decide)
  | zero | finite =>
    rw [hm] at hfinite
    cases hfinite

/-- **What is written of an expression that was read can be read again**, as the expression with names
in the place of the floats that are not finite. -/
theorem Legible.asWritten {node : Node} (h : Legible IsUnsigned node) :
    Legible Number.IsLiteral node.asWritten := by
  induction h with
  | int n hn =>
    rw [intNode, Node.asWritten]
    exact .int n hn
  | float x hu =>
    rw [Node.asWritten, Node.literalAsWritten]
    split
    · rename_i hx
      exact .float x (Number.isLiteral_of_unsigned hu hx)
    · rename_i hx
      exact .name (isName_floatText hu (Bool.eq_false_iff.2 hx))
  | string s =>
    rw [Node.asWritten]
    exact .string s
  | name hs =>
    rw [Node.asWritten]
    exact .name hs
  | array _ ih =>
    rw [Node.asWritten, Node.allAsWritten_eq_map]
    exact .array (List.forall_mem_map.2 ih)
  | index _ _ iht ihi =>
    rw [Node.asWritten]
    exact .index iht ihi
  | unary hm _ ih =>
    rw [Node.asWritten]
    exact .unary hm ih
  | sum hm _ _ ihl ihr =>
    rw [Node.asWritten]
    exact .sum hm ihl ihr
  | product hm _ _ ihl ihr =>
    rw [Node.asWritten]
    exact .product hm ihl ihr
  | power _ _ ihl ihr =>
    rw [Node.asWritten]
    exact .power ihl ihr
  | call hf _ hkeys _ ihp ihv =>
    rw [Node.asWritten, Node.allAsWritten_eq_map]
    refine .call hf ?_ ?_ ?_
    all_goals rw [Node.isRewriting_asWritten.splitArgs_map_eq]
    · exact List.forall_mem_map.2 ihp
    · exact List.forall_mem_map.2 hkeys
    · exact List.forall_mem_map.2 ihv

end Syntax

/-! ### Statements -/

namespace Assignment

/-- A statement as it is written. -/
def asWritten (a : Assignment) : Assignment := { a with expr := a.expr.asWritten }

theorem render_asWritten (a : Assignment) : a.asWritten.render = a.render := by
  simp only [Assignment.render, asWritten, Node.depth_asWritten, Node.render_asWritten]
  rfl

/-- What is written of a statement that was read can be read again. -/
theorem legible_asWritten {a : Assignment} (h : LegibleStatement IsUnsigned a) :
    LegibleStatement Number.IsLiteral a.asWritten := by
  cases h with
  | assignment ht hl hi he => exact .assignment ht hl hi he.asWritten
  | call hl hi he =>
    have hexpr := he.asWritten
    rw [Node.asWritten] at hexpr
    rw [Assignment.asWritten, Node.asWritten]
    exact .call hl hi hexpr

theorem render_arranged {P : Float → Prop} {a : Assignment} (h : LegibleStatement P a) :
    a.arranged.render = a.render := by
  simp only [Assignment.render, arranged, Node.depth_arranged, h.expr.render_arranged]
  rfl

/-- **A statement in the star namespace stays there**, also as it is written and with its arguments
arranged. -/
theorem toStar_of_toStar {a b : Assignment} (h : a.toStar = .ok b) :
    b.toStar = .ok b ∧ b.asWritten.arranged.toStar = .ok b.asWritten.arranged := by
  rw [Assignment.toStar] at h
  split at h
  · cases h
  · rename_i hlow
    cases h
    constructor
    · rw [Assignment.toStar, if_neg (by rwa [Node.depth_toStar]), Node.toStar_toStar]
    · have hdepth : a.expr.toStar.asWritten.arranged.depth .rewriting =
          a.expr.depth .rewriting := by
        rw [Node.depth_arranged, Node.depth_asWritten, Node.depth_toStar]
      simp only [Assignment.toStar, asWritten, arranged, hdepth, if_neg hlow, Node.toStar_arranged,
        Node.toStar_asWritten, Node.toStar_toStar]

end Assignment

/-! ### Programs -/

/-- A program whose statements stay what they are stays what it is. -/
theorem Program.toStar_eq_self {p : Program} (h : ∀ a ∈ p.assignments, a.toStar = .ok a) :
    p.toStar = .ok p := by
  rw [Program.toStar, Grammar.mapM_eq_ok_iff.2 (List.forall₂_same.2 h)]
  rfl

/-- The statements of a program in the star namespace come from statements. -/
theorem Program.of_toStar {p q : Program} (h : p.toStar = .ok q) :
    ∀ b ∈ q.assignments, ∃ a ∈ p.assignments, a.toStar = .ok b := by
  obtain ⟨assignments, hstar, h⟩ := Grammar.bind_eq_ok h
  cases h
  exact (Grammar.of_mapM_eq_ok hstar).2

/-- A program is written as before if its statements are. -/
theorem Program.render_map {p : Program} {f : Assignment → Assignment}
    (h : ∀ a ∈ p.assignments, (f a).render = a.render) (indicators : List String) :
    Program.render { indicators, assignments := p.assignments.map f } = p.render := by
  have hmap : ∀ xs : List Assignment, (∀ a ∈ xs, (f a).render = a.render) →
      (xs.map f).mapM Assignment.render = xs.mapM Assignment.render := by
    intro xs hxs
    induction xs with
    | nil => rfl
    | cons a xs ih =>
      obtain ⟨ha, hxs⟩ := List.forall_mem_cons.1 hxs
      rw [List.map_cons, List.mapM_cons, List.mapM_cons, ha, ih hxs]
  rw [Program.render, Program.render, hmap _ h]

/-- The program that is read from the text of a program. -/
def Program.readAgain (q : Program) : Program where
  indicators := []
  assignments := q.assignments.map fun a => a.asWritten.arranged

/-- **What is written is read again** as the program without the floats that are not finite and with
named arguments behind the positional ones. -/
theorem Program.read_readAgain {q : Program} {text : List Char}
    (hlegible : ∀ a ∈ q.assignments, LegibleStatement IsUnsigned a) (hrender : q.render = .ok text)
    (hshallow : ∀ line ∈ lines text, isShallow line) :
    Program.read (String.ofList text) = .ok q.readAgain := by
  have hwritten : ∀ b ∈ q.assignments.map Assignment.asWritten,
      LegibleStatement Number.IsLiteral b :=
    List.forall_mem_map.2 fun a ha => Assignment.legible_asWritten (hlegible a ha)
  have hsame := Program.render_map (p := q) (fun a _ => Assignment.render_asWritten a) []
  rw [← hsame, Program.render] at hrender
  rcases mapM_render_of_legible hwritten with hr | ⟨texts, hr, hlines⟩
  · rw [hr] at hrender
    cases hrender
  · rw [hr] at hrender
    cases hrender
    rw [(read_of_readsBack hlines hshallow).1, List.map_map]
    rfl

/-- **What is read again is written as before.** -/
theorem Program.render_readAgain {q : Program}
    (hlegible : ∀ a ∈ q.assignments, LegibleStatement IsUnsigned a) :
    q.readAgain.render = q.render := by
  refine Program.render_map (fun a ha => ?_) []
  rw [Assignment.render_arranged (Assignment.legible_asWritten (hlegible a ha)),
    Assignment.render_asWritten]

namespace CommandLine

/-- A portable program is one that was read, in the star namespace. -/
theorem of_portable {source : String} {q : Program} (h : portable source = .ok q) :
    ∃ p, Program.read source = .ok p ∧ p.toStar = .ok q := by
  rw [portable] at h
  split at h
  · cases h
  · rename_i p hread
    split at h
    · cases h
    · rename_i q' hstar
      cases h
      exact ⟨p, hread, hstar⟩

/-- **Making a text portable that was written so changes nothing.** Where a source is made portable
and written as a text, the text is made portable, unless one of its lines is beyond the bound on
nesting, and is written as itself. Behind this stands that sending any program through the star
namespace a second time comes to the same as doing it once: every name, every flag of a marker, every
literal and the order of all arguments stay, and so does the failure of a program with too many
levels.

The floats of the source need not be finite. -/
theorem portable_stable {source : String} {q : Program} {text : List Char}
    (hportable : portable source = .ok q) (hrender : q.render = .ok text)
    (hshallow : ∀ line ∈ lines text, isShallow line) :
    (∃ r, portable (String.ofList text) = .ok r ∧ r.render = .ok text) ∧
      ∀ p : Program, p.toStar >>= Program.toStar = p.toStar := by
  constructor
  · obtain ⟨p, hread, hstar⟩ := of_portable hportable
    have hlegible := legible_of_toStar hstar (legible_of_read hread)
    have hagain : q.readAgain.toStar = .ok q.readAgain := by
      refine Program.toStar_eq_self (List.forall_mem_map.2 fun b hb => ?_)
      obtain ⟨a, -, hab⟩ := Program.of_toStar hstar b hb
      exact (Assignment.toStar_of_toStar hab).2
    refine ⟨q.readAgain, ?_, (Program.render_readAgain hlegible).trans hrender⟩
    rw [portable, Program.read_readAgain hlegible hrender hshallow]
    simp only [hagain]
    rfl
  · intro p
    cases hstar : p.toStar with
    | error e => rfl
    | ok q =>
      refine Program.toStar_eq_self fun b hb => ?_
      obtain ⟨a, -, hab⟩ := Program.of_toStar hstar b hb
      exact (Assignment.toStar_of_toStar hab).1

/-- A source with a literal beyond the floats and a named argument before a positional one. -/
def beyondSource : List Char :=
  "x = 1".toList ++ List.replicate 309 '0' ++ ".0 * sma(len = 14, close)\n".toList ++
    "plot(x, [0.50, 'a'])".toList

/-- What is written of it: the literal is a name, and the named argument has moved. -/
def beyondText : List Char :=
  ("x = inf * star.ta.sma(close, \x7b len: 14 \x7d)\n" ++ "star.plot(x, [0.5, \"a\"])").toList

theorem portable_stable_beyond : ∃ q r : Program, portable (String.ofList beyondSource) = .ok q ∧
    q.render = .ok beyondText ∧ portable (String.ofList beyondText) = .ok r ∧
      r.render = .ok beyondText ∧ q.toStar = .ok q := by
  have hwritten : (match portable (String.ofList beyondSource) with
      | .ok q => q.render.toOption
      | .error _ => none) = some beyondText := by
    -- the text of a string that is made of characters need not be computed
    rw [portable, Program.read, String.toList_ofList]
    decide +kernel
  split at hwritten
  · rename_i q hportable
    have hrender : q.render = .ok beyondText := by
      cases hq : q.render with
      | error e =>
        rw [hq] at hwritten
        cases hwritten
      | ok text =>
        rw [hq] at hwritten
        exact congrArg Except.ok (Option.some.inj hwritten)
    obtain ⟨⟨r, hr, hagain⟩, hstable⟩ := portable_stable hportable hrender (by decide +kernel)
    obtain ⟨p, -, hp⟩ := of_portable hportable
    have hstar := hstable p
    rw [hp] at hstar
    exact ⟨q, r, hportable, hrender, hr, hagain, hstar⟩
  · cases hwritten

end CommandLine

end ChartScript
