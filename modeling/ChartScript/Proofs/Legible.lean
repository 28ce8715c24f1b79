import ChartScript.Proofs.Arrangement
import ChartScript.Proofs.Lexing
import ChartScript.Proofs.Numerals
import ChartScript.Proofs.Spelling

/-!
# What a program that was read is made of

A tree may hold much that no source spells: a negative integer, a name with a blank in it, an
operator of its own making, a marker without a value. None of this is in a tree that was read from a
source, and none of it is brought in when calls are sent through the star namespace. Such a tree is
*legible* (`ChartScript.Syntax.Legible`): it can be written so that it is read again.

What floats a legible tree may hold is left open, since more has to be known of them than that they
were read.
-/

namespace ChartScript.Syntax

open ChartScript.Text
open ChartScript.Grammar (lexed)
open Node (splitArgs)

/-! ### Names -/

/-- A text that is a name as a whole. -/
def IsName (s : String) : Prop :=
  ∃ c rest, s.toList = c :: rest ∧ isNameStart c ∧ isDigit c = false ∧ nameRest rest = (rest, [])

/-- The rest of a name goes on to its end. -/
theorem nameRest_nameRest (text : List Char) :
    nameRest (nameRest text).1 = ((nameRest text).1, []) := by
  fun_induction nameRest text with
  | case1 c rest hc name after heq ih =>
    rw [heq] at ih
    rw [nameRest, if_pos hc, ih]
  | case2 | case4 | case5 => rfl
  | case3 c rest hne hc name after heq ih =>
    rw [heq] at ih
    rw [nameRest, if_pos hc, ih]
    exact fun d more h => absurd h (ne_point_of_isWordChar hc)

theorem isName_of_nameRest {c : Char} (hc : isNameStart c) (hd : isDigit c = false)
    (text : List Char) : IsName (String.ofList (c :: (nameRest text).1)) :=
  ⟨c, _, String.toList_ofList, hc, hd, nameRest_nameRest text⟩

/-- A segment and a point may stand before a name. -/
theorem nameRest_append_point {segment : List Char} (hs : ∀ c ∈ segment, isWordChar c) {c : Char}
    (hc : isNameStart c) {rest : List Char} (hr : nameRest rest = (rest, [])) :
    nameRest (segment ++ '.' :: c :: rest) = (segment ++ '.' :: c :: rest, []) := by
  induction segment with
  | nil =>
    rw [List.nil_append, nameRest, if_pos hc, hr]
  | cons d segment ih =>
    obtain ⟨hd, hs⟩ := List.forall_mem_cons.1 hs
    rw [List.cons_append, nameRest, if_pos hd, ih hs]
    exact fun e more h => absurd h (ne_point_of_isWordChar hd)

theorem IsName.behind {segment : List Char} {first : Char} (hf : isNameStart first)
    (hd : isDigit first = false) (hs : ∀ c ∈ segment, isWordChar c) {s : String} (h : IsName s) :
    IsName (String.ofList (first :: segment ++ ['.']) ++ s) := by
  obtain ⟨c, rest, heq, hc, -, hr⟩ := h
  refine ⟨first, segment ++ '.' :: c :: rest, ?_, hf, hd, nameRest_append_point hs hc hr⟩
  simp [String.toList_append, heq]

/-- Where a callee goes: nowhere, or behind one of two beginnings. -/
theorem starCallee_cases (s : String) :
    starCallee s = s ∨ starCallee s = "star." ++ s ∨ starCallee s = "star.ta." ++ s := by
  rw [starCallee]
  split
  · exact .inr (.inl rfl)
  · split
    · exact .inl rfl
    · split
      · exact .inr (.inr rfl)
      · exact .inl rfl

/-- **The star namespace keeps names names.** -/
theorem IsName.starCallee {s : String} (h : IsName s) : IsName (starCallee s) := by
  have hword : ∀ word : List Char, word.all Grammar.isNameChar → ∀ c ∈ word, isWordChar c :=
    fun _ => forall_isWordChar
  have hletter : ∀ c, isBasic c → c.isAlpha → c.isDigit = false →
      isNameStart c ∧ isDigit c = false := by
    intro c hb hc hd
    rw [isNameStart, isLetter_eq_isAlpha hb, hc, isDigit_eq_isDigit hb]
    exact ⟨rfl, hd⟩
  have hs := hletter 's' (by decide) (by decide) (by decide)
  have ht := hletter 't' (by decide) (by decide) (by decide)
  rcases starCallee_cases s with heq | heq | heq
  all_goals rw [heq]
  · exact h
  · exact h.behind hs.1 hs.2 (hword ['t', 'a', 'r'] (by decide))
  · have := (h.behind ht.1 ht.2 (hword ['a'] (by decide))).behind hs.1 hs.2
      (hword ['t', 'a', 'r'] (by decide))
    rwa [← String.append_assoc] at this

/-! ### Lexemes -/

/-- What is true of a lexeme that was cut out of a text, where the floats are known to satisfy `P`. -/
def Lexeme.Legible (P : Float → Prop) : Lexeme → Prop
  | .int n => n < 10 ^ Number.digitLimit
  | .float x => P x
  | .name s => IsName s
  | .string _ | .mark _ => True

/-- A float that has no minus sign. -/
def IsUnsigned (x : Float) : Prop := Number.Unsigned x.toModel.unpack

theorem legible_of_cut {column : Nat} {c : Char} {rest : List Char} {found : Cut}
    (h : cut column c rest = .ok found) : found.lexeme.Legible IsUnsigned := by
  rw [cut] at h
  split at h
  · rw [cutNumber] at h
    split at h
    · split at h
      · rename_i hn
        cases h
        exact Number.lt_of_literalInt? hn
      · cases h
    · split at h
      · rename_i hx
        cases h
        exact Number.unsigned_of_literalFloat? hx
      · cases h
  · split at h
    · split at h
      · cases h
      · cases h
        exact True.intro
    · split at h
      · rename_i hs _ hc
        cases h
        simp only [startsNumber, Bool.or_eq_true, not_or, Bool.not_eq_true] at hs
        exact isName_of_nameRest hc hs.1 rest
      · split at h
        · cases h
          exact True.intro
        · cases h

/-- **The lexemes of a text are legible.** -/
theorem legible_of_lexed {column : Nat} {text : List Char} {row : List Lexeme}
    (h : lexed column text = .ok row) : ∀ a ∈ row, a.Legible IsUnsigned := by
  fun_induction scanFrom column text generalizing row with
  | case1 =>
    rw [Grammar.lexed_nil] at h
    cases h
    simp
  | case2 column c rest hc ih =>
    rw [Grammar.lexed_spacing hc] at h
    exact ih h
  | case3 column c rest hc hs =>
    rw [Bool.not_eq_true] at hc
    rw [Grammar.lexed_comment hc hs] at h
    cases h
    simp
  | case4 column c rest hc hs e hcut =>
    rw [Bool.not_eq_true] at hc hs
    rw [Grammar.lexed_error hc hs hcut] at h
    cases h
  | case5 | case6 =>
    rename_i hc hs found hcut hlen e hscan ih
    rw [Bool.not_eq_true] at hc hs
    obtain ⟨found', row, hcut', hrow, rfl⟩ := Grammar.of_lexed_eq_ok hc hs h
    cases hcut.symm.trans hcut'
    exact List.forall_mem_cons.2 ⟨legible_of_cut hcut, ih hrow⟩

/-! ### Expressions -/

/-- **What an expression is that can be written and read again**, where the floats are known to
satisfy `P`. -/
inductive Legible (P : Float → Prop) : Node → Prop
  /-- A natural number with a bound. -/
  | int (n : Nat) : n < 10 ^ Number.digitLimit → Legible P (intNode n)
  /-- A float. -/
  | float (x : Float) : P x → Legible P (.number (.float x))
  /-- A text. -/
  | string (s : String) : Legible P (.string (.text s))
  /-- A name that is no marker. -/
  | name {s : String} : IsName s → Legible P (.identifier s false)
  /-- A list. -/
  | array {items : List Node} : (∀ t ∈ items, Legible P t) → Legible P (.array items)
  /-- A subscript. -/
  | index {t i : Node} : Legible P t → Legible P i → Legible P (.index t i)
  /-- A sign. -/
  | unary {m : Mark} {op : String} {t : Node} : sumOperator? m = some op → Legible P t →
      Legible P (.unary op t)
  /-- A sum. -/
  | sum {m : Mark} {op : String} {l r : Node} : sumOperator? m = some op → Legible P l →
      Legible P r → Legible P (.binary op l r)
  /-- A product. -/
  | product {m : Mark} {op : String} {l r : Node} : productOperator? m = some op → Legible P l →
      Legible P r → Legible P (.binary op l r)
  /-- A power. -/
  | power {l r : Node} : Legible P l → Legible P r → Legible P (.binary "^" l r)
  /-- A call, whose markers all have a value. -/
  | call {f : String} {args : List Node} : IsName f → (∀ t ∈ (splitArgs args).1, Legible P t) →
      (∀ entry ∈ (splitArgs args).2, IsName entry.1) →
      (∀ entry ∈ (splitArgs args).2, Legible P entry.2) → Legible P (.call f args)

/-- What an argument list is that can be written and read again. -/
structure LegibleArgs (P : Float → Prop) (args : List Node) : Prop where
  /-- The positional arguments are legible, and so no markers. -/
  positional : ∀ t ∈ (splitArgs args).1, Legible P t
  /-- The keys are names. -/
  keys : ∀ entry ∈ (splitArgs args).2, IsName entry.1
  /-- The values are legible. -/
  values : ∀ entry ∈ (splitArgs args).2, Legible P entry.2

section Legible

variable {P Q : Float → Prop}

theorem Legible.isMarker {t : Node} (h : Legible P t) : t.isMarker = false := by
  cases h <;> rfl

theorem LegibleArgs.single {t : Node} (h : Legible P t) : LegibleArgs P [t] := by
  have hs := Node.splitArgs_cons h.isMarker []
  exact ⟨by rw [hs]; simpa using h, by rw [hs]; simp, by rw [hs]; simp⟩

theorem LegibleArgs.pair {k : String} {t : Node} (hk : IsName k) (h : Legible P t) :
    LegibleArgs P (Node.pair k t) :=
  ⟨by simp [Node.pair], by simpa [Node.pair] using hk, by simpa [Node.pair] using h⟩

theorem LegibleArgs.append {xs ys : List Node} (hx : LegibleArgs P xs) (hy : LegibleArgs P ys) :
    LegibleArgs P (xs ++ ys) := by
  have hs := Node.splitArgs_append (fun t ht => (hx.positional t ht).isMarker) ys
  refine ⟨?_, ?_, ?_⟩
  · rw [hs]
    exact List.forall_mem_append.2 ⟨hx.positional, hy.positional⟩
  · rw [hs]
    exact List.forall_mem_append.2 ⟨hx.keys, hy.keys⟩
  · rw [hs]
    exact List.forall_mem_append.2 ⟨hx.values, hy.values⟩

end Legible

/-! ### What is spelled -/

/-- Whether named arguments may stand in what is read as the form. -/
def Form.takesNames : Form → Bool
  | .argument | .arguments | .options | .entries => true
  | _ => false

/-- What the nodes are that a legible row spells. -/
def LegibleAs (P : Float → Prop) (form : Form) (nodes : List Node) : Prop :=
  if form.takesNames then LegibleArgs P nodes else ∀ t ∈ nodes, Legible P t

section Spelled

variable {P : Float → Prop} {nodes : List Node}

theorem legibleAs_single {form : Form} (hf : form.takesNames = false) {t : Node} :
    LegibleAs P form [t] ↔ Legible P t := by
  simp [LegibleAs, hf]

/-- **What legible lexemes spell is legible.** -/
theorem Spells.legible {form : Form} {row : List Lexeme} (h : Spells form row nodes)
    (hrow : ∀ a ∈ row, a.Legible P) : LegibleAs P form nodes := by
  induction h with
  | term _ ih | factor _ ih | base _ ih | unsigned _ ih | plain _ ih => exact ih hrow
  | lastItem _ ih | lastArgument _ ih | lastOptions _ ih => exact ih hrow
  | positional _ ih =>
    exact LegibleArgs.single ((legibleAs_single rfl).1 (ih hrow))
  | sum hm _ _ ihl ihr =>
    simp only [List.forall_mem_append, List.forall_mem_cons] at hrow
    rw [legibleAs_single rfl] at ihl ihr ⊢
    exact .sum hm (ihl hrow.1) (ihr hrow.2.2)
  | product hm _ _ ihl ihr =>
    simp only [List.forall_mem_append, List.forall_mem_cons] at hrow
    rw [legibleAs_single rfl] at ihl ihr ⊢
    exact .product hm (ihl hrow.1) (ihr hrow.2.2)
  | power _ _ ihl ihr =>
    simp only [List.forall_mem_append, List.forall_mem_cons] at hrow
    rw [legibleAs_single rfl] at ihl ihr ⊢
    exact .power (ihl hrow.1) (ihr hrow.2.2)
  | signed hm _ ih =>
    rw [legibleAs_single rfl] at ih ⊢
    exact .unary hm (ih fun a ha => hrow a (List.mem_cons_of_mem _ ha))
  | subscript _ _ iht ihi =>
    simp only [List.forall_mem_append, List.forall_mem_cons] at hrow
    rw [legibleAs_single rfl] at iht ihi ⊢
    exact .index (iht hrow.1) (ihi hrow.2.2.1)
  | int n => exact (legibleAs_single rfl).2 (.int n (hrow _ List.mem_cons_self))
  | float x => exact (legibleAs_single rfl).2 (.float x (hrow _ List.mem_cons_self))
  | string s => exact (legibleAs_single rfl).2 (.string s)
  | name s => exact (legibleAs_single rfl).2 (.name (hrow _ List.mem_cons_self))
  | parentheses _ ih =>
    simp only [List.forall_mem_append, List.forall_mem_cons] at hrow
    exact ih hrow.2.1
  | noItems => exact (legibleAs_single rfl).2 (.array (by simp))
  | array _ ih =>
    simp only [List.forall_mem_append, List.forall_mem_cons] at hrow
    exact (legibleAs_single rfl).2 (.array (ih hrow.2.1))
  | noArguments f =>
    exact (legibleAs_single rfl).2 (.call (hrow _ List.mem_cons_self) (by simp) (by simp) (by simp))
  | call f _ ih =>
    simp only [List.forall_mem_append, List.forall_mem_cons] at hrow
    have hargs : LegibleArgs P _ := ih hrow.2.2.1
    exact (legibleAs_single rfl).2 (.call hrow.1 hargs.positional hargs.keys hargs.values)
  | item _ _ iht ihs =>
    simp only [List.forall_mem_append, List.forall_mem_cons] at hrow
    exact List.forall_mem_cons.2 ⟨(legibleAs_single rfl).1 (iht hrow.1), ihs hrow.2.2⟩
  | named k _ ih | lastEntry k _ ih =>
    simp only [List.forall_mem_cons] at hrow
    exact LegibleArgs.pair hrow.1 ((legibleAs_single rfl).1 (ih hrow.2.2))
  | argument _ _ iht ihs =>
    simp only [List.forall_mem_append, List.forall_mem_cons] at hrow
    exact LegibleArgs.append (iht hrow.1) (ihs hrow.2.2)
  | noEntries => exact ⟨by simp, by simp, by simp⟩
  | options _ ih =>
    simp only [List.forall_mem_append, List.forall_mem_cons] at hrow
    exact ih hrow.2.1
  | entry k _ _ iht ihs =>
    simp only [List.forall_mem_append, List.forall_mem_cons] at hrow
    exact LegibleArgs.append (.pair hrow.1 ((legibleAs_single rfl).1 (iht hrow.2.2.1)))
      (ihs hrow.2.2.2.2)

end Spelled

/-! ### The star namespace -/

section Star

variable {P Q : Float → Prop} {n : Node}

/-- **Sending calls through the star namespace keeps an expression legible.** -/
theorem Legible.toStar (h : Legible P n) : Legible P n.toStar := by
  induction h with
  | int m hm =>
    rw [intNode, Node.toStar]
    exact .int m hm
  | float x hx =>
    rw [Node.toStar]
    exact .float x hx
  | string s =>
    rw [Node.toStar]
    exact .string s
  | name hs =>
    rw [Node.toStar]
    exact .name hs
  | array _ ih =>
    rw [Node.toStar, Node.allToStar_eq_map]
    exact .array (List.forall_mem_map.2 ih)
  | index _ _ iht ihi =>
    rw [Node.toStar]
    exact .index iht ihi
  | unary hm _ ih =>
    rw [Node.toStar]
    exact .unary hm ih
  | sum hm _ _ ihl ihr =>
    rw [Node.toStar]
    exact .sum hm ihl ihr
  | product hm _ _ ihl ihr =>
    rw [Node.toStar]
    exact .product hm ihl ihr
  | power _ _ ihl ihr =>
    rw [Node.toStar]
    exact .power ihl ihr
  | call hf _ hkeys _ ihp ihv =>
    rw [Node.toStar, Node.allToStar_eq_map]
    refine .call hf.starCallee ?_ ?_ ?_
    all_goals rw [Node.splitArgs_map_toStar]
    · exact List.forall_mem_map.2 ihp
    · exact List.forall_mem_map.2 hkeys
    · exact List.forall_mem_map.2 ihv

/-! ### Parts of a legible expression -/

/-- More may be known of the floats of an expression. -/
theorem Legible.imp (h : Legible P n)
    (hq : ∀ x, .number (.float x) ∈ n.parts → P x → Q x) : Legible Q n := by
  induction h with
  | int m hm => exact .int m hm
  | float x hx => exact .float x (hq x (by simp [Node.parts]) hx)
  | string s => exact .string s
  | name hs => exact .name hs
  | array _ ih =>
    refine .array fun t ht => ih t ht fun x hx => hq x ?_
    rw [Node.parts]
    exact List.mem_cons_of_mem _ (Node.mem_allParts.2 ⟨t, ht, hx⟩)
  | index _ _ iht ihi =>
    exact .index (iht fun x hx => hq x (by simp [Node.parts, hx]))
      (ihi fun x hx => hq x (by simp [Node.parts, hx]))
  | unary hm _ ih => exact .unary hm (ih fun x hx => hq x (by simp [Node.parts, hx]))
  | sum hm _ _ ihl ihr =>
    exact .sum hm (ihl fun x hx => hq x (by simp [Node.parts, hx]))
      (ihr fun x hx => hq x (by simp [Node.parts, hx]))
  | product hm _ _ ihl ihr =>
    exact .product hm (ihl fun x hx => hq x (by simp [Node.parts, hx]))
      (ihr fun x hx => hq x (by simp [Node.parts, hx]))
  | power _ _ ihl ihr =>
    exact .power (ihl fun x hx => hq x (by simp [Node.parts, hx]))
      (ihr fun x hx => hq x (by simp [Node.parts, hx]))
  | @call f args hf _ hkeys _ ihp ihv =>
    have hparts : ∀ t ∈ args, ∀ x, .number (.float x) ∈ t.parts →
        .number (.float x) ∈ (Node.call f args).parts := by
      intro t ht x hx
      rw [Node.parts]
      exact List.mem_cons_of_mem _ (Node.mem_allParts.2 ⟨t, ht, hx⟩)
    obtain ⟨hpos, hnamed, -⟩ := Node.mem_of_splitArgs args
    exact .call hf (fun t ht => ihp t ht fun x hx => hq x (hparts t (hpos t ht) x hx)) hkeys
      fun e he => ihv e he fun x hx => hq x (hparts e.2 (hnamed e he) x hx)

/-- The calls in a legible expression are legible. -/
theorem Legible.of_mem_parts (h : Legible P n) {f : String} {args : List Node}
    (hc : .call f args ∈ n.parts) : Legible P (.call f args) := by
  induction h with
  | int | float | string | name => simp [intNode, Node.parts] at hc
  | array _ ih =>
    simp only [Node.parts, List.mem_cons, reduceCtorEq, false_or, Node.mem_allParts] at hc
    obtain ⟨t, ht, hc⟩ := hc
    exact ih t ht hc
  | index _ _ ihl ihr | sum _ _ _ ihl ihr | product _ _ _ ihl ihr | power _ _ ihl ihr =>
    simp only [Node.parts, List.mem_cons, reduceCtorEq, false_or, List.mem_append] at hc
    exact hc.elim ihl ihr
  | unary _ _ ih =>
    simp only [Node.parts, List.mem_cons, reduceCtorEq, false_or] at hc
    exact ih hc
  | @call f' args' hf hp hkeys hv ihp ihv =>
    rw [Node.parts, List.mem_cons] at hc
    rcases hc with hc | hc
    · cases hc
      exact .call hf hp hkeys hv
    · obtain ⟨t, ht, hc⟩ := Node.mem_allParts.1 hc
      rcases (Node.mem_of_splitArgs args').2.2 t ht with ht | ⟨e, he, rfl⟩ | ⟨name, rfl⟩
      · exact ihp t ht hc
      · exact ihv e he hc
      · simp [Node.parts] at hc

/-- **Arranging the arguments of a legible call does not change how they are taken apart.** -/
theorem Legible.splitArgs_arranged {f : String} {args : List Node} (h : Legible P (.call f args)) :
    ∃ args', (Node.call f args).arranged = .call f args' ∧
      splitArgs args' =
        ((splitArgs args).1.map Node.arranged, (splitArgs args).2.map fun e => (e.1, e.2.arranged)) := by
  refine ⟨_, by rw [Node.arranged, Node.arrangedArgs_eq], ?_⟩
  cases h with
  | call _ hp _ _ =>
    refine Node.splitArgs_joinArgs (List.forall_mem_map.2 fun t ht => ?_) _
    rw [Node.isMarker_arranged]
    exact (hp t ht).isMarker

end Star

end ChartScript.Syntax
