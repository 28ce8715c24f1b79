import ChartScript.Proofs.Soundness
import ChartScript.Syntax.Source

/-!
# The readers take everything that is spelled

A row that spells something is read as that, whatever comes behind it, as long as what comes behind
does not hold on to it (`ChartScript.Syntax.grip`): an operator takes hold of the operand before it, a
bracket of the target of a subscript, a parenthesis of a name. Greed is harmless for that reason, and
one lexeme is always enough to choose the right case.

`ChartScript.Syntax.Reads` says for each form what its reader does on a spelled row; for a form that
leans to the left the reader is then in the middle of its loop, which is how the induction on the
rules meets the loop. With soundness this gives the exact language of the reader, and that no row
spells two expressions.
-/

namespace ChartScript.Syntax

/-! ### How a row starts -/

/-- Whether a lexeme can be the first of a primary expression. -/
def Lexeme.opensPrimary : Lexeme → Bool
  | .int _ | .float _ | .string _ | .name _ => true
  | .mark m => m == .leftParen || m == .leftBracket

/-- Whether a lexeme can be the first of an expression. -/
def Lexeme.opensOperand : Lexeme → Bool
  | .mark m => (sumOperator? m).isSome || (Lexeme.mark m).opensPrimary
  | a => a.opensPrimary

/-- Whether a lexeme can be the first of a row that is read as the form. -/
def Form.opensWith : Form → Lexeme → Bool
  | .primary, a | .subscripted, a => a.opensPrimary
  | .options, a => (a matches .mark .leftBrace)
  | .entries, a => (a matches .name _)
  | .arguments, a => a.opensOperand || (a matches .mark .leftBrace)
  | _, a => a.opensOperand

theorem opensOperand_of_opensPrimary {a : Lexeme} (h : a.opensPrimary) : a.opensOperand := by
  cases a <;> simp_all [Lexeme.opensOperand]

/-- Every spelled row starts with a lexeme that its form allows. -/
theorem Spells.opensWith {form : Form} {row : List Lexeme} {nodes : List Node}
    (h : Spells form row nodes) : ∃ a rest, row = a :: rest ∧ form.opensWith a := by
  induction h with
  | term _ ih | factor _ ih | base _ ih | plain _ ih | lastItem _ ih | positional _ ih => exact ih
  | sum _ _ _ ih | product _ _ _ ih | power _ _ ih | subscript _ _ ih | item _ _ ih =>
    obtain ⟨a, rest, rfl, ha⟩ := ih
    exact ⟨a, _, rfl, ha⟩
  | unsigned _ ih =>
    obtain ⟨a, rest, rfl, ha⟩ := ih
    exact ⟨a, rest, rfl, opensOperand_of_opensPrimary ha⟩
  | signed hm => exact ⟨_, _, rfl, by simp [Form.opensWith, Lexeme.opensOperand, hm]⟩
  | lastArgument _ ih | argument _ _ ih =>
    obtain ⟨a, rest, rfl, ha⟩ := ih
    exact ⟨a, _, rfl, by simpa [Form.opensWith] using Or.inl ha⟩
  | lastOptions _ ih =>
    obtain ⟨a, rest, rfl, ha⟩ := ih
    exact ⟨a, rest, rfl, by simpa [Form.opensWith] using Or.inr ha⟩
  | _ => exact ⟨_, _, rfl, rfl⟩

/-- Whether a form is a single expression. -/
def Form.isExpression : Form → Bool
  | .sum | .product | .power | .signed | .subscripted | .primary => true
  | _ => false

/-- A row that is no named argument does not become one when a mark follows it. -/
theorem append_mark_not_named {u v rest : List Lexeme} {m : Mark} {k : String} (hu : HasEnds u)
    (hm : m ≠ .assign) (h : ∀ rest, u ≠ .name k :: .mark .assign :: rest) :
    u ++ .mark m :: v ≠ .name k :: .mark .assign :: rest := by
  rcases u with _ | ⟨a, _ | ⟨b, u⟩⟩
  · exact absurd rfl hu.1
  · simp [hm]
  · intro heq
    simp only [List.cons_append, List.cons.injEq] at heq
    obtain ⟨rfl, rfl, -⟩ := heq
    exact h u rfl

/-- No expression starts as a named argument does. -/
theorem Spells.not_named {form : Form} {row : List Lexeme} {nodes : List Node}
    (h : Spells form row nodes) (he : form.isExpression) (k : String) (rest : List Lexeme) :
    row ≠ .name k :: .mark .assign :: rest := by
  induction h generalizing rest with
  | term _ ih | factor _ ih | base _ ih | unsigned _ ih | plain _ ih => exact ih rfl rest
  | sum hm hl _ ih =>
    refine append_mark_not_named hl.ends ?_ (ih rfl)
    rintro rfl
    cases hm
  | product hm hl _ ih =>
    refine append_mark_not_named hl.ends ?_ (ih rfl)
    rintro rfl
    cases hm
  | power hl _ ih => exact append_mark_not_named hl.ends (by simp) (ih rfl)
  | subscript ht _ ih => exact append_mark_not_named ht.ends (by simp) (ih rfl)
  | signed | int | float | string | name | parentheses | noItems | array => simp
  | noArguments | call => simp
  | _ => cases he

/-! ### What holds on to what stands before it -/

/-- **The grip** of a row on what stands before it: the level of binding at which its first lexeme
takes hold. -/
def grip : List Lexeme → Nat
  | .mark .leftParen :: _ => 6
  | .mark .leftBracket :: _ => 5
  | .mark .power :: _ => 3
  | .mark .times :: _ | .mark .divide :: _ => 2
  | .mark .plus :: _ | .mark .minus :: _ => 1
  | _ => 0

theorem grip_of_sumOperator? {m : Mark} {op : String} (h : sumOperator? m = some op)
    (rest : List Lexeme) : grip (.mark m :: rest) = 1 := by
  cases m <;> first | rfl | cases h

theorem grip_of_productOperator? {m : Mark} {op : String} (h : productOperator? m = some op)
    (rest : List Lexeme) : grip (.mark m :: rest) = 2 := by
  cases m <;> first | rfl | cases h

/-- The loop of a sum ends where nothing takes hold. -/
theorem bare_sumTail?_stop {rest : List Lexeme} (h : grip rest = 0) (t : Node) :
    bare (sumTail? t rest) = some (t, rest) := by
  rw [bare_sumTail?]
  split
  · split
    · rfl
    · rename_i hm
      rw [grip_of_sumOperator? hm] at h
      cases h
  · rfl

/-- The loop of a product ends where no factor follows. -/
theorem bare_productTail?_stop {rest : List Lexeme} (h : grip rest ≤ 1) (t : Node) :
    bare (productTail? t rest) = some (t, rest) := by
  rw [bare_productTail?]
  split
  · split
    · rfl
    · rename_i hm
      rw [grip_of_productOperator? hm] at h
      omega
  · rfl

/-- The loop of subscripts ends where no bracket follows. -/
theorem bare_subscripts?_stop {rest : List Lexeme} (h : grip rest ≤ 3) (t : Node) :
    bare (subscripts? t rest) = some (t, rest) := by
  rw [bare_subscripts?]
  split
  · simp [grip] at h
  · rfl

/-- A base has no exponent where no `^` follows. -/
theorem bare_power?_stop {u rest : List Lexeme} {t : Node} (h : grip rest ≤ 2)
    (hs : bare (signed? u) = some (t, rest)) : bare (power? u) = some (t, rest) := by
  rw [bare_power?, hs]
  simp only [Option.bind_some]
  split
  · simp [grip] at h
  · rfl

/-! ### What the readers do on a spelled row -/

/-- **What the reader of a form does** on a row that spells the nodes, before any rest that does not
hold on to the row. Behind a sum, a product and a subscripted expression the reader goes on with its
loop; the reader of a list takes the mark that closes it as well. -/
def Reads : Form → List Lexeme → List Node → Prop
  | .sum, u, [t] => ∀ rest, grip rest ≤ 1 → bare (sum? (u ++ rest)) = bare (sumTail? t rest)
  | .product, u, [t] =>
    ∀ rest, grip rest ≤ 2 → bare (product? (u ++ rest)) = bare (productTail? t rest)
  | .power, u, [t] => ∀ rest, grip rest ≤ 2 → bare (power? (u ++ rest)) = some (t, rest)
  | .signed, u, [t] => ∀ rest, grip rest ≤ 3 → bare (signed? (u ++ rest)) = some (t, rest)
  | .subscripted, u, [t] =>
    ∀ rest, grip rest ≤ 5 → bare (subscripted? (u ++ rest)) = bare (subscripts? t rest)
  | .primary, u, [t] => ∀ rest, grip rest ≤ 5 → bare (primary? (u ++ rest)) = some (t, rest)
  | .items, u, ts => ∀ rest, bare (items? (u ++ .mark .rightBracket :: rest)) = some (ts, rest)
  | .argument, u, ts => ∀ (m : Mark) rest, m = .comma ∨ m = .rightParen →
    bare (arguments? (u ++ .mark m :: rest)) =
      (bare (moreArguments? (.mark m :: rest))).map fun (more, after) => (ts ++ more, after)
  | .arguments, u, ts =>
    ∀ rest, bare (arguments? (u ++ .mark .rightParen :: rest)) = some (ts, rest)
  | .options, u, ts => ∀ rest,
    bare (arguments? (u ++ .mark .rightParen :: rest)) = some (ts, rest)
  | .entries, u, ts =>
    ∀ rest, bare (options? (u ++ .mark .rightBrace :: rest)) = some (ts, rest)
  | _, _, _ => False

/-- A sum is read as such where nothing takes hold. -/
theorem Reads.sum_stop {u : List Lexeme} {t : Node} (h : Reads .sum u [t]) {rest : List Lexeme}
    (hr : grip rest = 0) : bare (sum? (u ++ rest)) = some (t, rest) := by
  rw [h rest (by omega), bare_sumTail?_stop hr]

/-- Where an expression starts with a primary one, it has no sign. -/
theorem bare_signed?_of_opensPrimary {a : Lexeme} (h : a.opensPrimary) (u : List Lexeme) :
    bare (signed? (a :: u)) = bare (subscripted? (a :: u)) := by
  rw [bare_signed?]
  cases a with
  | mark m =>
    have hm : sumOperator? m = none := by
      cases m <;> first | rfl | cases h
    simp only [hm]
  | _ => rfl

/-- A list that is not closed at once has items. -/
theorem bare_primary?_array {u : List Lexeme} (h : ∀ v, u ≠ .mark .rightBracket :: v) :
    bare (primary? (.mark .leftBracket :: u)) =
      (bare (items? u)).map fun (items, after) => (.array items, after) := by
  rw [bare_primary?]
  split
  case h_5 heq =>
    cases heq
    exact absurd rfl (h _)
  case h_6 heq =>
    cases heq
    rfl
  all_goals simp_all

/-- A call that is not closed at once has arguments. -/
theorem bare_primary?_call {u : List Lexeme} (h : ∀ v, u ≠ .mark .rightParen :: v) (f : String) :
    bare (primary? (.name f :: .mark .leftParen :: u)) =
      (bare (arguments? u)).map fun (args, after) => (.call f args, after) := by
  rw [bare_primary?]
  split
  case h_7 heq =>
    cases heq
    exact absurd rfl (h _)
  case h_8 heq =>
    cases heq
    rfl
  case h_9 _ hne heq =>
    cases heq
    exact absurd rfl (hne _)
  all_goals simp_all

/-- A name is no call where no parenthesis follows. -/
theorem bare_primary?_name {u : List Lexeme} (h : ∀ v, u ≠ .mark .leftParen :: v) (s : String) :
    bare (primary? (.name s :: u)) = some (.identifier s false, u) := by
  rw [bare_primary?]
  split <;> simp_all

/-- An argument that has no name is an expression. -/
theorem bare_arguments?_positional {u : List Lexeme} (ho : ∀ v, u ≠ .mark .leftBrace :: v)
    (hn : ∀ k v, u ≠ .name k :: .mark .assign :: v) :
    bare (arguments? u) = (bare (sum? u)).bind fun (arg, rest) =>
      (bare (moreArguments? rest)).map fun (more, after) => (arg :: more, after) := by
  rw [bare_arguments?]
  split
  · exact absurd rfl (ho _)
  · exact absurd rfl (ho _)
  · exact absurd rfl (hn _ _)
  · rfl

/-! ### Rule by rule

Where a rule puts a mark behind its left part, that mark is what makes the loop of the left part go
on. Where a rule is chosen by its first lexeme, the row it starts with shows that no other rule is
chosen in its place. -/

section Rules

variable {u v : List Lexeme} {m : Mark} {op : String} {l r t i : Node} {ts us : List Node}

/-- No factor follows a term, so the loop of the product ends and that of the sum begins. -/
theorem Reads.term (h : Reads .product u [t]) : Reads .sum u [t] := by
  intro rest hr
  rw [bare_sum?, h rest (by omega), bare_productTail?_stop hr]
  rfl

/-- The left part of a sum leaves the reader in its loop, in front of the operator. -/
theorem Reads.sum (hm : sumOperator? m = some op) (hl : Reads .sum u [l])
    (hr : Reads .product v [r]) : Reads .sum (u ++ .mark m :: v) [.binary op l r] := by
  intro rest hg
  rw [List.append_assoc, List.cons_append, hl _ (by rw [grip_of_sumOperator? hm]), bare_sumTail?]
  simp only [hm]
  rw [hr rest (by omega), bare_productTail?_stop hg]
  rfl

/-- The left part of a product leaves the reader in its loop, in front of the operator. -/
theorem Reads.product (hm : productOperator? m = some op) (hl : Reads .product u [l])
    (hr : Reads .power v [r]) : Reads .product (u ++ .mark m :: v) [.binary op l r] := by
  intro rest hg
  rw [List.append_assoc, List.cons_append, hl _ (by rw [grip_of_productOperator? hm]),
    bare_productTail?]
  simp only [hm]
  rw [hr rest hg]
  rfl

/-- The base of a power ends at the `^`, which has no grip on an operand with signs. -/
theorem Reads.power (hl : Reads .signed u [l]) (hr : Reads .power v [r]) :
    Reads .power (u ++ .mark .power :: v) [.binary "^" l r] := by
  intro rest hg
  rw [List.append_assoc, List.cons_append, bare_power?, hl _ (by simp [grip]), Option.bind_some]
  simp only [hr rest hg]
  rfl

/-- A row that starts as a primary expression has no sign. -/
theorem Reads.unsigned (hu : Spells .subscripted u [t]) (h : Reads .subscripted u [t]) :
    Reads .signed u [t] := by
  intro rest hr
  obtain ⟨a, u, rfl, ha⟩ := hu.opensWith
  rw [List.cons_append, bare_signed?_of_opensPrimary ha, ← List.cons_append, h rest (by omega),
    bare_subscripts?_stop hr]

/-- The target of a subscript leaves the reader in its loop, in front of the bracket. -/
theorem Reads.subscript (ht : Reads .subscripted u [t]) (hi : Reads .sum v [i]) :
    Reads .subscripted (u ++ .mark .leftBracket :: (v ++ [.mark .rightBracket])) [.index t i] := by
  intro rest _
  rw [List.append_assoc, List.cons_append, List.append_assoc, ht _ (by simp [grip]),
    bare_subscripts?]
  simp only
  rw [hi.sum_stop (by rfl)]
  rfl

/-- Items start with no closing bracket, so the list is not the empty one. -/
theorem Reads.array (hu : Spells .items u ts) (h : Reads .items u ts) :
    Reads .primary (.mark .leftBracket :: (u ++ [.mark .rightBracket])) [.array ts] := by
  intro rest _
  have hi := h rest
  obtain ⟨a, u, rfl, ha⟩ := hu.opensWith
  rw [List.cons_append, List.append_assoc, bare_primary?_array, List.singleton_append, hi]
  · rfl
  · rintro v ⟨⟩
    cases ha

/-- Arguments start with no closing parenthesis, so the call is not the empty one. -/
theorem Reads.call (f : String) (hu : Spells .arguments u ts) (h : Reads .arguments u ts) :
    Reads .primary (.name f :: .mark .leftParen :: (u ++ [.mark .rightParen])) [.call f ts] := by
  intro rest _
  have hi := h rest
  obtain ⟨a, u, rfl, ha⟩ := hu.opensWith
  rw [List.cons_append, List.cons_append, List.append_assoc, bare_primary?_call,
    List.singleton_append, hi]
  · rfl
  · rintro v ⟨⟩
    cases ha

/-- An item ends at the comma, where the further items begin. -/
theorem Reads.item (hl : Reads .sum u [t]) (hr : Reads .items v ts) :
    Reads .items (u ++ .mark .comma :: v) (t :: ts) := by
  intro rest
  rw [List.append_assoc, List.cons_append, bare_items?, hl.sum_stop (by rfl), Option.bind_some]
  simp only [hr rest]
  rfl

/-- The reader looks for a named argument first, and finds none where an expression stands. -/
theorem Reads.positional (hu : Spells .sum u [t]) (h : Reads .sum u [t]) :
    Reads .argument u [t] := by
  intro m rest hm
  have hs : bare (sum? (u ++ Lexeme.mark m :: rest)) = some (t, .mark m :: rest) := by
    refine h.sum_stop ?_
    rcases hm with rfl | rfl <;> rfl
  have hn : ∀ k after, u ++ Lexeme.mark m :: rest ≠ .name k :: .mark .assign :: after := by
    intro k after
    refine append_mark_not_named hu.ends ?_ (hu.not_named rfl k)
    rintro rfl
    simp at hm
  obtain ⟨a, u, rfl, ha⟩ := hu.opensWith
  rw [bare_arguments?_positional _ hn, hs]
  · rfl
  · rintro v ⟨⟩
    cases ha

/-- The value of a named argument ends at the mark behind the argument. -/
theorem Reads.named (k : String) (h : Reads .sum u [t]) :
    Reads .argument (.name k :: .mark .assign :: u) (Node.pair k t) := by
  intro m rest hm
  rw [List.cons_append, List.cons_append, bare_arguments?]
  simp only
  rw [h.sum_stop (by rcases hm with rfl | rfl <;> rfl)]
  rfl

/-- An argument ends at the comma, where the further arguments begin. -/
theorem Reads.argument (hl : Reads .argument u us) (hr : Reads .arguments v ts) :
    Reads .arguments (u ++ .mark .comma :: v) (us ++ ts) := by
  intro rest
  rw [List.append_assoc, List.cons_append, hl _ _ (.inl rfl), bare_moreArguments?]
  simp only [hr rest]
  rfl

/-- Entries start with a name, so the braces are not the empty ones. -/
theorem Reads.options (hu : Spells .entries u ts) (h : Reads .entries u ts) :
    Reads .options (.mark .leftBrace :: (u ++ [.mark .rightBrace])) ts := by
  intro rest
  have ho := h (.mark .rightParen :: rest)
  obtain ⟨a, u, rfl, ha⟩ := hu.opensWith
  obtain ⟨k, rfl⟩ : ∃ k, a = .name k := by
    cases a <;> first | exact ⟨_, rfl⟩ | cases ha
  rw [List.cons_append] at ho
  rw [List.cons_append, List.append_assoc, List.cons_append, List.singleton_append,
    bare_arguments?]
  simp only [ho]
  rfl

/-- The value of an entry ends at the comma, where the further entries begin. -/
theorem Reads.entry (k : String) (hl : Reads .sum u [t]) (hr : Reads .entries v ts) :
    Reads .entries (.name k :: .mark .colon :: (u ++ .mark .comma :: v)) (Node.pair k t ++ ts) := by
  intro rest
  rw [List.cons_append, List.cons_append, List.append_assoc, List.cons_append, bare_options?]
  simp only
  rw [hl.sum_stop (by rfl), Option.bind_some]
  simp only [hr rest]
  rfl

end Rules

/-- **Every spelled row is read.** The induction is on the rules, and the lemma of each rule says what
the reader does on its row. -/
theorem Spells.reads {form : Form} {row : List Lexeme} {nodes : List Node}
    (h : Spells form row nodes) : Reads form row nodes := by
  induction h with
  | term _ ih => exact ih.term
  | sum hm _ _ ihl ihr => exact .sum hm ihl ihr
  | factor _ ih =>
    intro rest hr
    rw [bare_product?, ih rest hr]
    rfl
  | product hm _ _ ihl ihr => exact .product hm ihl ihr
  | base _ ih =>
    intro rest hr
    exact bare_power?_stop hr (ih rest (by omega))
  | power _ _ ihl ihr => exact ihl.power ihr
  | unsigned hu ih => exact .unsigned hu ih
  | signed hm _ ih =>
    intro rest hr
    rw [List.cons_append, bare_signed?]
    simp only [hm, ih rest hr]
    rfl
  | plain _ ih =>
    intro rest hr
    rw [bare_subscripted?, ih rest hr]
    rfl
  | subscript _ _ iht ihi => exact iht.subscript ihi
  | int | float | string =>
    intro rest _
    rw [List.singleton_append, bare_primary?]
  | name s =>
    intro rest hr
    -- a parenthesis would have a grip on the name
    refine bare_primary?_name ?_ s
    rintro v rfl
    simp [grip] at hr
  | parentheses _ ih =>
    intro rest _
    rw [List.cons_append, List.append_assoc, bare_primary?]
    simp only
    rw [ih.sum_stop (by rfl)]
    rfl
  | noItems | noArguments =>
    intro rest _
    rw [List.cons_append, bare_primary?]
    rfl
  | array hu ih => exact .array hu ih
  | call f hu ih => exact .call f hu ih
  | lastItem _ ih =>
    intro rest
    rw [bare_items?, ih.sum_stop (by rfl)]
    rfl
  | item _ _ ihl ihr => exact ihl.item ihr
  | positional hu ih => exact .positional hu ih
  | named k _ ih => exact ih.named k
  | lastArgument _ ih =>
    intro rest
    rw [ih _ _ (.inr rfl), bare_moreArguments?]
    simp
  | argument _ _ ihl ihr => exact ihl.argument ihr
  | lastOptions _ ih => exact ih
  | noEntries =>
    intro rest
    rw [List.cons_append, bare_arguments?]
    rfl
  | options hu ih => exact .options hu ih
  | lastEntry k _ ih =>
    intro rest
    rw [List.cons_append, List.cons_append, bare_options?]
    simp only
    rw [ih.sum_stop (by rfl)]
    rfl
  | entry k _ _ ihl ihr => exact ihl.entry k ihr

/-- **The language of the reader** is the grammar. -/
theorem expression?_eq_some_iff {row : List Lexeme} {t : Node} :
    expression? row = some t ↔ Spells .sum row [t] := by
  rw [expression?_eq_some]
  constructor
  · intro h
    obtain ⟨v, hv, hs⟩ := sum?_spells h
    rw [hv, List.append_nil]
    exact hs
  · intro h
    have hr : bare (sum? (row ++ [])) = some (t, []) := Reads.sum_stop h.reads rfl
    rwa [List.append_nil] at hr

/-- No row spells two expressions. -/
theorem Spells.unique {row : List Lexeme} {s t : Node} (hs : Spells .sum row [s])
    (ht : Spells .sum row [t]) : s = t :=
  Option.some.inj ((expression?_eq_some_iff.2 hs).symm.trans (expression?_eq_some_iff.2 ht))

/-- **The reader is exact.** Within the bound on nesting a row is read as an expression if and only if
it spells that expression, every other row is refused, and there is never a second expression to
choose. -/
theorem reader_exact (row : List Lexeme) :
    (∀ t, boundedExpression? row = some t ↔ nesting row ≤ depthLimit ∧ Spells .sum row [t]) ∧
      (boundedExpression? row = none ↔ depthLimit < nesting row ∨ ¬∃ t, Spells .sum row [t]) ∧
      {t | Spells .sum row [t]}.Subsingleton := by
  refine ⟨fun t => ?_, ?_, fun s hs t ht => hs.unique ht⟩
  · rw [boundedExpression?]
    split
    · rename_i hn
      rw [expression?_eq_some_iff]
      exact (and_iff_right hn).symm
    · rename_i hn
      simp [hn]
  · rw [boundedExpression?]
    split
    · rename_i hn
      rw [Option.eq_none_iff_forall_ne_some]
      simp only [ne_eq, expression?_eq_some_iff, not_exists]
      exact ⟨.inr, fun h => h.resolve_left (by omega)⟩
    · rename_i hn
      exact ⟨fun _ => .inl (by omega), fun _ => rfl⟩

end ChartScript.Syntax
