import ChartScript.Syntax.Render
import ChartScript.Syntax.Star
import Mathlib

/-!
# The arrangement of arguments

A call is written with its named arguments behind the positional ones, so a tree that is written and
read again comes back *arranged* (`ChartScript.Node.arranged`): in every call the pairs of a marker
and a value stand at the end, in their order, and nothing else has moved. Taking the arguments of a
call apart gives the same before and after (`ChartScript.Node.splitArgs_joinArgs`), up to the
arrangement of the arguments themselves (`ChartScript.Node.arrangedArgs_eq`).
-/

namespace ChartScript

namespace Node

/-! ### Arguments put together -/

/-- Whether an expression is the name half of a named argument. -/
def isMarker : Node → Bool
  | .identifier _ marker => marker
  | _ => false

/-- An argument list with the named arguments behind the positional ones. -/
def joinArgs (positional : List Node) (named : List (String × Node)) : List Node :=
  positional ++ named.flatMap fun entry => pair entry.1 entry.2

/-- An expression that is no marker is a positional argument. -/
theorem splitArgs_cons {t : Node} (h : t.isMarker = false) (rest : List Node) :
    splitArgs (t :: rest) = (t :: (splitArgs rest).1, (splitArgs rest).2) := by
  cases t with
  | identifier name marker =>
    cases h
    rfl
  | _ => rfl

/-- Two argument lists come apart one by one if the first does not end with a marker. -/
theorem splitArgs_append {xs : List Node} (h : ∀ t ∈ (splitArgs xs).1, t.isMarker = false)
    (ys : List Node) : splitArgs (xs ++ ys) =
      ((splitArgs xs).1 ++ (splitArgs ys).1, (splitArgs xs).2 ++ (splitArgs ys).2) := by
  fun_induction splitArgs xs with
  | case1 => rfl
  | case2 name value rest positional named heq ih =>
    rw [heq] at ih
    rw [List.cons_append, List.cons_append, splitArgs_pair, ih h]
    rfl
  | case3 arg rest hne positional named heq ih =>
    rw [heq] at ih
    obtain ⟨harg, h⟩ := List.forall_mem_cons.1 h
    rw [List.cons_append, splitArgs_cons harg, ih h]
    rfl

/-- **Arguments that are put together come apart again.** -/
theorem splitArgs_joinArgs {positional : List Node} (h : ∀ t ∈ positional, t.isMarker = false)
    (named : List (String × Node)) : splitArgs (joinArgs positional named) = (positional, named) := by
  induction positional with
  | nil =>
    induction named with
    | nil => rfl
    | cons entry named ih =>
      rw [joinArgs, List.nil_append] at ih ⊢
      rw [List.flatMap_cons, pair, List.cons_append, List.cons_append, splitArgs_pair,
        List.nil_append, ih]
  | cons t positional ih =>
    obtain ⟨ht, h⟩ := List.forall_mem_cons.1 h
    have hcons : joinArgs (t :: positional) named = t :: joinArgs positional named := rfl
    rw [hcons, splitArgs_cons ht, ih h]

/-- What an argument list is made of: positional arguments, values and markers. -/
theorem mem_of_splitArgs (args : List Node) :
    (∀ t ∈ (splitArgs args).1, t ∈ args) ∧ (∀ entry ∈ (splitArgs args).2, entry.2 ∈ args) ∧
      ∀ t ∈ args, t ∈ (splitArgs args).1 ∨ (∃ entry ∈ (splitArgs args).2, t = entry.2) ∨
        ∃ name, t = .identifier name true := by
  fun_induction splitArgs args with
  | case1 => simp
  | case2 name value rest positional named heq ih =>
    rw [heq] at ih
    refine ⟨fun t ht => ?_, fun entry he => ?_, fun t ht => ?_⟩
    · exact List.mem_cons_of_mem _ (List.mem_cons_of_mem _ (ih.1 t ht))
    · rcases List.mem_cons.1 he with rfl | he
      · simp
      · exact List.mem_cons_of_mem _ (List.mem_cons_of_mem _ (ih.2.1 entry he))
    · rcases List.mem_cons.1 ht with rfl | ht
      · exact .inr (.inr ⟨name, rfl⟩)
      · rcases List.mem_cons.1 ht with rfl | ht
        · exact .inr (.inl ⟨_, List.mem_cons_self, rfl⟩)
        · refine (ih.2.2 t ht).imp_right fun h => h.imp_left ?_
          rintro ⟨entry, he, hv⟩
          exact ⟨entry, List.mem_cons_of_mem _ he, hv⟩
  | case3 arg rest _ positional named heq ih =>
    rw [heq] at ih
    refine ⟨fun t ht => ?_, fun entry he => ?_, fun t ht => ?_⟩
    · rcases List.mem_cons.1 ht with rfl | ht
      · exact List.mem_cons_self
      · exact List.mem_cons_of_mem _ (ih.1 t ht)
    · exact List.mem_cons_of_mem _ (ih.2.1 entry he)
    · rcases List.mem_cons.1 ht with rfl | ht
      · exact .inl List.mem_cons_self
      · exact (ih.2.2 t ht).imp_left fun h => List.mem_cons_of_mem _ h

/-- Arguments come apart in the same way after a rewriting that makes no markers and leaves those that
there are. -/
theorem splitArgs_map {f : Node → Node} (hmarker : ∀ t, (f t).isMarker = t.isMarker)
    (hname : ∀ name, f (.identifier name true) = .identifier name true) (args : List Node) :
    splitArgs (args.map f) =
      ((splitArgs args).1.map f, (splitArgs args).2.map fun e => (e.1, f e.2)) := by
  fun_induction splitArgs args with
  | case1 => rfl
  | case2 name value rest positional named heq ih =>
    rw [heq] at ih
    rw [List.map_cons, List.map_cons, hname, splitArgs_pair, ih]
    rfl
  | case3 arg rest hne positional named heq ih =>
    rw [heq] at ih
    cases hm : arg.isMarker with
    | false =>
      rw [List.map_cons, splitArgs_cons ((hmarker arg).trans hm), ih]
      rfl
    | true =>
      -- a marker that has no value behind it stands at the end
      obtain ⟨name, rfl⟩ : ∃ name, arg = .identifier name true := by
        cases arg <;> simp_all [isMarker]
      rcases rest with _ | ⟨value, rest⟩
      · cases heq
        rw [List.map_cons, hname]
        rfl
      · exact absurd rfl (hne name value rest rfl)

theorem isMarker_toStar (t : Node) : t.toStar.isMarker = t.isMarker := by
  cases t <;> simp [toStar, isMarker]

/-- Sending calls through the star namespace leaves the argument lists as they are. -/
theorem splitArgs_map_toStar (args : List Node) :
    splitArgs (args.map toStar) =
      ((splitArgs args).1.map toStar, (splitArgs args).2.map fun e => (e.1, e.2.toStar)) :=
  splitArgs_map isMarker_toStar (fun _ => by rw [toStar]) args

/-! ### Arranged expressions -/

mutual

/-- **An expression with the named arguments of every call behind the positional ones.** -/
def arranged : Node → Node
  | .number value => .number value
  | .string value => .string value
  | .identifier name marker => .identifier name marker
  | .array items => .array (allArranged items)
  | .index target position => .index target.arranged position.arranged
  | .unary op operand => .unary op operand.arranged
  | .binary op left right => .binary op left.arranged right.arranged
  | .call callee args =>
    let (positional, named) := arrangedArgs args
    .call callee (joinArgs positional named)

/-- Several expressions, arranged. -/
def allArranged : List Node → List Node
  | [] => []
  | node :: nodes => node.arranged :: allArranged nodes

/-- The arguments of a call, taken apart and arranged. -/
def arrangedArgs : List Node → List Node × List (String × Node)
  | [] => ([], [])
  | .identifier name true :: value :: rest =>
    let (positional, named) := arrangedArgs rest
    (positional, (name, value.arranged) :: named)
  | arg :: rest =>
    let (positional, named) := arrangedArgs rest
    (arg.arranged :: positional, named)

end

@[simp] theorem allArranged_eq_map (nodes : List Node) : allArranged nodes = nodes.map arranged := by
  induction nodes with
  | nil => simp [allArranged]
  | cons node nodes ih => simp [allArranged, ih]

/-- The arguments are arranged one by one. -/
theorem arrangedArgs_eq (args : List Node) :
    arrangedArgs args =
      ((splitArgs args).1.map arranged, (splitArgs args).2.map fun e => (e.1, e.2.arranged)) := by
  fun_induction splitArgs args <;> simp_all [arrangedArgs]

theorem isMarker_arranged (t : Node) : t.arranged.isMarker = t.isMarker := by
  cases t <;> simp [arranged, isMarker]

/-! ### Parts -/

mutual

/-- An expression and all expressions inside it, markers included. -/
def parts : Node → List Node
  | .number value => [.number value]
  | .string value => [.string value]
  | .identifier name marker => [.identifier name marker]
  | .array items => .array items :: allParts items
  | .index target position => .index target position :: (parts target ++ parts position)
  | .unary op operand => .unary op operand :: parts operand
  | .binary op left right => .binary op left right :: (parts left ++ parts right)
  | .call callee args => .call callee args :: allParts args

/-- The parts of several expressions. -/
def allParts : List Node → List Node
  | [] => []
  | node :: nodes => parts node ++ allParts nodes

end

theorem mem_allParts {nodes : List Node} {part : Node} :
    part ∈ allParts nodes ↔ ∃ t ∈ nodes, part ∈ t.parts := by
  induction nodes with
  | nil => simp [allParts]
  | cons node nodes ih => simp [allParts, ih]

end Node

/-- A statement with its expression arranged. -/
def Assignment.arranged (a : Assignment) : Assignment := { a with expr := a.expr.arranged }

end ChartScript
