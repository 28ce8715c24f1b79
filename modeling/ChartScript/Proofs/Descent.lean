import ChartScript.Proofs.Spelling

/-!
# The readers without their bounds

The readers of `ChartScript.Syntax.Expression` answer with a rest that carries a bound on its length,
which is what makes the descent end. Nothing else asks for the bound. `ChartScript.Syntax.bare` drops
it, and this file says what every reader does in terms of bare answers: one equation for each, with
the same cases as the definition. Whatever is shown of the readers goes through these equations.

A reader runs others and puts together what they give. Every step of that has a lemma
(`ChartScript.Syntax.bare_bind`, `ChartScript.Syntax.bare_map`, `ChartScript.Syntax.bare_pass`), and an
equation is proved by going through the definition step by step.
-/

namespace ChartScript.Syntax

/-- What a reader answers, without the bound on the rest. -/
def bare {α : Type} {p : List Lexeme → Prop} (r : Option (α × {rest : List Lexeme // p rest})) :
    Option (α × List Lexeme) :=
  r.map fun found => (found.1, found.2.1)

section Bare

variable {α β : Type} {p q : List Lexeme → Prop}

@[simp] theorem bare_none : bare (none : Option (α × {rest : List Lexeme // p rest})) = none := rfl

@[simp] theorem bare_some (a : α) (rest : List Lexeme) (h : p rest) :
    bare (some (a, (⟨rest, h⟩ : {rest : List Lexeme // p rest}))) = some (a, rest) := rfl

theorem bare_eq_some {r : Option (α × {rest : List Lexeme // p rest})} {a : α} {rest : List Lexeme}
    (h : bare r = some (a, rest)) : ∃ hp : p rest, r = some (a, ⟨rest, hp⟩) := by
  rcases r with _ | ⟨b, after, hp⟩
  · cases h
  · cases h
    exact ⟨hp, rfl⟩

/-- A reader behind another one. -/
theorem bare_bind {r : Option (α × {rest : List Lexeme // p rest})}
    {k : α × {rest : List Lexeme // p rest} → Option (β × {rest : List Lexeme // q rest})}
    {k' : α × List Lexeme → Option (β × List Lexeme)}
    (hk : ∀ a rest h, bare (k (a, ⟨rest, h⟩)) = k' (a, rest)) :
    bare (r >>= k) = (bare r).bind k' := by
  rcases r with _ | ⟨a, rest, h⟩
  · rfl
  · exact hk a rest h

/-- A reader that makes something of what another one gives. -/
theorem bare_map {r : Option (α × {rest : List Lexeme // p rest})}
    {k : α × {rest : List Lexeme // p rest} → Option (β × {rest : List Lexeme // q rest})}
    {f : α × List Lexeme → β × List Lexeme}
    (hk : ∀ a rest h, bare (k (a, ⟨rest, h⟩)) = some (f (a, rest))) :
    bare (r >>= k) = (bare r).map f := by
  rcases r with _ | ⟨a, rest, h⟩
  · rfl
  · exact hk a rest h

/-- A reader that only hands on what another one gives, with a bound of its own. -/
theorem bare_pass {r : Option (α × {rest : List Lexeme // p rest})}
    {k : α × {rest : List Lexeme // p rest} → Option (α × {rest : List Lexeme // q rest})}
    (hk : ∀ a rest h, bare (k (a, ⟨rest, h⟩)) = some (a, rest)) : bare (r >>= k) = bare r := by
  rw [bare_map (f := id) hk, Option.map_id_fun, id]

end Bare

/-! ### The levels of binding -/

theorem bare_sum? (u : List Lexeme) :
    bare (sum? u) = (bare (product? u)).bind fun (left, rest) => bare (sumTail? left rest) := by
  rw [sum?]
  exact bare_bind fun left rest h => bare_pass fun node after h' => rfl

theorem bare_sumTail? (left : Node) (u : List Lexeme) :
    bare (sumTail? left u) =
      match u with
      | .mark m :: rest =>
        match sumOperator? m with
        | none => some (left, .mark m :: rest)
        | some op => (bare (product? rest)).bind fun (right, rest) =>
          bare (sumTail? (.binary op left right) rest)
      | u => some (left, u) := by
  rw [sumTail?.eq_def]
  split
  · rename_i m rest
    dsimp only
    cases sumOperator? m with
    | none => rfl
    | some op => exact bare_bind fun right after h => bare_pass fun node after' h' => rfl
  · rename_i hu
    rcases u with _ | ⟨a, rest⟩
    · rfl
    · cases a with
      | mark m => exact (hu m rest rfl).elim
      | _ => rfl

theorem bare_product? (u : List Lexeme) :
    bare (product? u) = (bare (power? u)).bind fun (left, rest) => bare (productTail? left rest) := by
  rw [product?]
  exact bare_bind fun left rest h => bare_pass fun node after h' => rfl

theorem bare_productTail? (left : Node) (u : List Lexeme) :
    bare (productTail? left u) =
      match u with
      | .mark m :: rest =>
        match productOperator? m with
        | none => some (left, .mark m :: rest)
        | some op => (bare (power? rest)).bind fun (right, rest) =>
          bare (productTail? (.binary op left right) rest)
      | u => some (left, u) := by
  rw [productTail?.eq_def]
  split
  · rename_i m rest
    dsimp only
    cases productOperator? m with
    | none => rfl
    | some op => exact bare_bind fun right after h => bare_pass fun node after' h' => rfl
  · rename_i hu
    rcases u with _ | ⟨a, rest⟩
    · rfl
    · cases a with
      | mark m => exact (hu m rest rfl).elim
      | _ => rfl

theorem bare_power? (u : List Lexeme) :
    bare (power? u) = (bare (signed? u)).bind fun (base, rest) =>
      match rest with
      | .mark .power :: rest =>
        (bare (power? rest)).map fun (exponent, after) => (.binary "^" base exponent, after)
      | rest => some (base, rest) := by
  rw [power?]
  refine bare_bind fun base rest h => ?_
  dsimp only
  split
  · exact bare_map fun exponent after h' => rfl
  · rename_i hrest
    split
    · exact (hrest _ (by assumption) rfl HEq.rfl).elim
    · rfl

theorem bare_signed? (u : List Lexeme) :
    bare (signed? u) =
      match u with
      | .mark m :: rest =>
        match sumOperator? m with
        | none => bare (subscripted? (.mark m :: rest))
        | some op => (bare (signed? rest)).map fun (operand, after) => (.unary op operand, after)
      | u => bare (subscripted? u) := by
  rw [signed?.eq_def]
  split
  · rename_i m rest
    dsimp only
    cases sumOperator? m with
    | none => rfl
    | some op => exact bare_map fun operand after h => rfl
  · rename_i hu
    rcases u with _ | ⟨a, rest⟩
    · rfl
    · cases a with
      | mark m => exact (hu m rest rfl).elim
      | _ => rfl

theorem bare_subscripted? (u : List Lexeme) :
    bare (subscripted? u) =
      (bare (primary? u)).bind fun (target, rest) => bare (subscripts? target rest) := by
  rw [subscripted?]
  exact bare_bind fun target rest h => bare_pass fun node after h' => rfl

theorem bare_subscripts? (target : Node) (u : List Lexeme) :
    bare (subscripts? target u) =
      match u with
      | .mark .leftBracket :: rest => (bare (sum? rest)).bind fun (position, rest) =>
        match rest with
        | .mark .rightBracket :: rest => bare (subscripts? (.index target position) rest)
        | _ => none
      | u => some (target, u) := by
  rw [subscripts?.eq_def]
  split
  · refine bare_bind fun position rest h => ?_
    dsimp only
    split
    · exact bare_pass fun node after h' => rfl
    · rename_i hrest
      split
      · exact (hrest _ (by assumption) rfl HEq.rfl).elim
      · rfl
  · rename_i hu
    rcases u with _ | ⟨a, rest⟩
    · rfl
    · cases a with
      | mark m =>
        cases m with
        | leftBracket => exact (hu rest rfl).elim
        | _ => rfl
      | _ => rfl

/-! ### Primary expressions and lists -/

theorem bare_primary? (u : List Lexeme) :
    bare (primary? u) =
      match u with
      | .int n :: rest => some (intNode n, rest)
      | .float x :: rest => some (.number (.float x), rest)
      | .string s :: rest => some (.string (.text s), rest)
      | .mark .leftParen :: rest => (bare (sum? rest)).bind fun (node, rest) =>
        match rest with
        | .mark .rightParen :: after => some (node, after)
        | _ => none
      | .mark .leftBracket :: .mark .rightBracket :: rest => some (.array [], rest)
      | .mark .leftBracket :: rest =>
        (bare (items? rest)).map fun (items, after) => (.array items, after)
      | .name f :: .mark .leftParen :: .mark .rightParen :: rest => some (.call f [], rest)
      | .name f :: .mark .leftParen :: rest =>
        (bare (arguments? rest)).map fun (args, after) => (.call f args, after)
      | .name s :: rest => some (.identifier s false, rest)
      | _ => none := by
  rw [primary?.eq_def]
  split
  · rfl
  · rfl
  · rfl
  · refine bare_bind fun node rest h => ?_
    dsimp only
    split
    · rfl
    · rename_i hrest
      split
      · exact (hrest _ (by assumption) rfl HEq.rfl).elim
      · rfl
  · rfl
  · simp only
    exact bare_map fun items after h => rfl
  · rfl
  · simp only
    exact bare_map fun args after h => rfl
  · simp
  · simp

theorem bare_items? (u : List Lexeme) :
    bare (items? u) = (bare (sum? u)).bind fun (item, rest) =>
      match rest with
      | .mark .rightBracket :: after => some ([item], after)
      | .mark .comma :: rest => (bare (items? rest)).map fun (items, after) => (item :: items, after)
      | _ => none := by
  rw [items?]
  refine bare_bind fun item rest h => ?_
  dsimp only
  split
  · rfl
  · exact bare_map fun items after h' => rfl
  · rename_i hclose hcomma
    split
    · exact (hclose _ (by assumption) rfl HEq.rfl).elim
    · exact (hcomma _ (by assumption) rfl HEq.rfl).elim
    · rfl

theorem bare_arguments? (u : List Lexeme) :
    bare (arguments? u) =
      match u with
      | .mark .leftBrace :: .mark .rightBrace :: .mark .rightParen :: after => some ([], after)
      | .mark .leftBrace :: rest => (bare (options? rest)).bind fun (pairs, rest) =>
        match rest with
        | .mark .rightParen :: after => some (pairs, after)
        | _ => none
      | .name key :: .mark .assign :: rest => (bare (sum? rest)).bind fun (value, rest) =>
        (bare (moreArguments? rest)).map fun (more, after) => (Node.pair key value ++ more, after)
      | u => (bare (sum? u)).bind fun (arg, rest) =>
        (bare (moreArguments? rest)).map fun (more, after) => (arg :: more, after) := by
  rw [arguments?.eq_def]
  split
  · rfl
  · simp only
    refine bare_bind fun pairs rest h => ?_
    dsimp only
    split
    · rfl
    · rename_i hrest
      split
      · exact (hrest _ (by assumption) rfl HEq.rfl).elim
      · rfl
  · exact bare_bind fun value rest h => bare_map fun more after h' => rfl
  · simp only
    exact bare_bind fun arg rest h => bare_map fun more after h' => rfl

theorem bare_moreArguments? (u : List Lexeme) :
    bare (moreArguments? u) =
      match u with
      | .mark .rightParen :: after => some ([], after)
      | .mark .comma :: rest => bare (arguments? rest)
      | _ => none := by
  rw [moreArguments?.eq_def]
  split
  · rfl
  · exact bare_pass fun args after h => rfl
  · simp

theorem bare_options? (u : List Lexeme) :
    bare (options? u) =
      match u with
      | .name key :: .mark .colon :: rest => (bare (sum? rest)).bind fun (value, rest) =>
        match rest with
        | .mark .rightBrace :: after => some (Node.pair key value, after)
        | .mark .comma :: rest =>
          (bare (options? rest)).map fun (more, after) => (Node.pair key value ++ more, after)
        | _ => none
      | _ => none := by
  rw [options?.eq_def]
  split
  · refine bare_bind fun value rest h => ?_
    dsimp only
    split
    · rfl
    · exact bare_map fun more after h' => rfl
    · rename_i hclose hcomma
      split
      · exact (hclose _ (by assumption) rfl HEq.rfl).elim
      · exact (hcomma _ (by assumption) rfl HEq.rfl).elim
      · rfl
  · simp

/-- The reader of whole rows takes a row up to its end. -/
theorem expression?_eq_some {u : List Lexeme} {t : Node} :
    expression? u = some t ↔ bare (sum? u) = some (t, []) := by
  rw [expression?]
  rcases sum? u with _ | ⟨node, _ | ⟨a, rest⟩, h⟩ <;> simp

end ChartScript.Syntax
