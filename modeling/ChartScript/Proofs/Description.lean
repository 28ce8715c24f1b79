import ChartScript.Grammar.Exchange
import ChartScript.Proofs.Spelling

/-!
# What trees with spans describe

A tree with spans becomes a plain tree in two steps: its literals get their values and it is written
as plain data (`ChartScript.Grammar.Tree.toDatum`), and the data is read as a plain tree
(`ChartScript.Grammar.nodeOf`). The first step fails where a number literal has no value. This file
gives the plain tree at once, for every tree that a reader can make
(`ChartScript.Grammar.Tree.node?`).

To say this without looking for literals that have no value, such a literal is replaced by a *filler*
of one's choice. Nothing about the values gets lost: a tree whose plain tree does not depend on the
filler has no such literal (`ChartScript.Grammar.Tree.toDatum_of_node?`).
-/

namespace ChartScript.Grammar

open Exchange
open ChartScript.Syntax (Lexeme unescape)

/-! ### The plain tree -/

/-- The value of a number literal, or the filler. -/
def numberValue (filler : Nat) (whole : List Char) (fraction : Option (List Char)) : Datum :=
  (numberDatum whole fraction).toOption.getD (.int filler)

mutual

/-- The plain tree of a tree, unless a named argument stands where none can. -/
def Tree.node? (filler : Nat) : Tree → Option Node
  | .number whole fraction _ => some (.number (numberValue filler whole fraction))
  | .string body _ => some (.string (.text (String.ofList (unescape body))))
  | .identifier name _ => some (.identifier name false)
  | .array items _ => (Tree.items? filler items).map .array
  | .index target position _ =>
    (target.node? filler).bind fun t => (position.node? filler).map (.index t)
  | .unary op operand _ => (operand.node? filler).map (.unary op)
  | .binary op left right _ =>
    (left.node? filler).bind fun l => (right.node? filler).map (.binary op l)
  | .call callee args _ => (Tree.args? filler args).map (.call callee)
  | .named _ _ _ => none

/-- The plain trees of several trees. -/
def Tree.items? (filler : Nat) : List Tree → Option (List Node)
  | [] => some []
  | tree :: trees => (tree.node? filler).bind fun n => (Tree.items? filler trees).map (n :: ·)

/-- The argument list that several trees make up: a named argument is a marker and a value. -/
def Tree.args? (filler : Nat) : List Tree → Option (List Node)
  | [] => some []
  | .named name value _ :: trees =>
    (value.node? filler).bind fun n => (Tree.args? filler trees).map (Node.pair name n ++ ·)
  | tree :: trees => (tree.node? filler).bind fun n => (Tree.args? filler trees).map (n :: ·)

end

theorem Tree.args?_named (filler : Nat) (name : String) (value : Tree) (span : Span)
    (trees : List Tree) :
    Tree.args? filler (.named name value span :: trees) =
      (value.node? filler).bind fun n => (Tree.args? filler trees).map (Node.pair name n ++ ·) := by
  rw [Tree.args?]

/-- An argument that has a plain tree has no name. -/
theorem Tree.args?_cons {filler : Nat} {tree : Tree} {n : Node} (h : tree.node? filler = some n)
    (trees : List Tree) :
    Tree.args? filler (tree :: trees) = (Tree.args? filler trees).map (n :: ·) := by
  rw [Tree.args?]
  · rw [h, Option.bind_some]
  · rintro name value span rfl
    simp [Tree.node?] at h

/-! ### Steps that may fail -/

section Steps

variable {ε α β : Type} {f : α → Except ε β} {xs : List α} {ys : List β}

/-- A step that went well came from a part that did. -/
theorem bind_eq_ok {x : Except ε α} {k : α → Except ε β} {b : β} (h : x >>= k = .ok b) :
    ∃ a, x = .ok a ∧ k a = .ok b := by
  cases x with
  | ok a => exact ⟨a, rfl, h⟩
  | error e => cases h

/-- A result that was changed was there before. -/
theorem map_eq_ok {x : Except ε α} {g : α → β} {b : β} (h : x.map g = .ok b) :
    ∃ a, x = .ok a ∧ g a = b := by
  cases x with
  | ok a => exact ⟨a, rfl, Except.ok.inj h⟩
  | error e => cases h

/-- **Steps one after the other go well** if and only if each of them does. -/
theorem mapM_eq_ok_iff : xs.mapM f = .ok ys ↔ List.Forall₂ (fun x y => f x = .ok y) xs ys := by
  constructor
  · intro h
    induction xs generalizing ys with
    | nil =>
      cases h
      exact .nil
    | cons x xs ih =>
      rw [List.mapM_cons] at h
      obtain ⟨y, hy, h⟩ := bind_eq_ok h
      obtain ⟨more, hmore, h⟩ := bind_eq_ok h
      cases h
      exact .cons hy (ih hmore)
  · intro h
    induction h with
    | nil => rfl
    | cons hy _ ih =>
      rw [List.mapM_cons, hy, ih]
      rfl

/-- What came out of steps that all went well. -/
theorem of_mapM_eq_ok (h : xs.mapM f = .ok ys) :
    (∀ x ∈ xs, ∃ y ∈ ys, f x = .ok y) ∧ ∀ y ∈ ys, ∃ x ∈ xs, f x = .ok y := by
  rw [mapM_eq_ok_iff] at h
  induction h with
  | nil => simp
  | cons hy _ ih =>
    simp only [List.forall_mem_cons, List.exists_mem_cons_iff]
    exact ⟨⟨.inl hy, fun x hx => .inr (ih.1 x hx)⟩, .inl hy, fun y hy => .inr (ih.2 y hy)⟩

/-- Where each step can only fail in one way, so can all of them one after the other. -/
theorem mapM_error_or {e : ε} {P : α → Prop} {R : α → β → Prop}
    (h : ∀ x ∈ xs, (f x = .error e ∧ P x) ∨ ∃ y, f x = .ok y ∧ R x y) :
    (xs.mapM f = .error e ∧ ∃ x ∈ xs, P x) ∨ ∃ ys, xs.mapM f = .ok ys ∧ List.Forall₂ R xs ys := by
  induction xs with
  | nil => exact .inr ⟨[], rfl, .nil⟩
  | cons x xs ih =>
    obtain ⟨hx, h⟩ := List.forall_mem_cons.1 h
    rw [List.mapM_cons]
    rcases hx with ⟨hx, hp⟩ | ⟨y, hy, hr⟩
    · rw [hx]
      exact .inl ⟨rfl, x, List.mem_cons_self, hp⟩
    rw [hy]
    rcases ih h with ⟨hxs, z, hz, hp⟩ | ⟨ys, hys, hrs⟩
    · rw [hxs]
      exact .inl ⟨rfl, z, List.mem_cons_of_mem _ hz, hp⟩
    · rw [hys]
      exact .inr ⟨y :: ys, rfl, .cons hr hrs⟩

/-- Two rows that are compared member by member may be compared otherwise, where that is known of the
members of the first. -/
theorem forall₂_imp_of_mem {R S : α → β → Prop} (h : ∀ x ∈ xs, ∀ y, R x y → S x y)
    (hr : List.Forall₂ R xs ys) : List.Forall₂ S xs ys :=
  ((List.forall₂_and_left _ _).2 ⟨h, hr⟩).imp fun _ y ⟨himp, hxy⟩ => himp y hxy

/-- Where each step goes well, all of them do. -/
theorem exists_mapM_eq_ok {R : α → β → Prop} (h : ∀ x ∈ xs, ∃ y, f x = .ok y ∧ R x y) :
    ∃ ys, xs.mapM f = .ok ys ∧ List.Forall₂ R xs ys := by
  induction xs with
  | nil => exact ⟨[], rfl, .nil⟩
  | cons x xs ih =>
    obtain ⟨⟨y, hy, hr⟩, h⟩ := List.forall_mem_cons.1 h
    obtain ⟨ys, hys, hrs⟩ := ih h
    exact ⟨y :: ys, mapM_eq_ok_iff.2 (.cons hy (mapM_eq_ok_iff.1 hys)), .cons hr hrs⟩

end Steps

/-! ### Data with spans -/

theorem field_of_find? {key : String} {entries : List (String × Datum)} {d : Datum}
    (h : Datum.find? key entries = some d) : field key entries = .ok d := by
  rw [field, h]

theorem nodeAt_of_find? {key : String} {entries : List (String × Datum)} {d : Datum}
    (h : Datum.find? key entries = some d) : nodeAt key entries = nodeOf d := by
  rw [nodeAt]
  split
  · rename_i hn
    rw [h] at hn
    cases hn
  · rename_i d' hd
    rw [h] at hd
    cases hd
    rfl

theorem nodesOf_of_find? {key : String} {entries : List (String × Datum)} {items : List Datum}
    (h : Datum.find? key entries = some (.list items)) (named : Bool) :
    nodesOf key named entries = if named then argsOf items else itemsOf items := by
  rw [nodesOf]
  split <;> simp_all

theorem argOf_nodeDatum {kind : String} (h : kind ≠ "NamedArg") (parts : List (String × Datum))
    (loc : Datum) :
    argOf (nodeDatum kind parts loc) = (nodeOf (nodeDatum kind parts loc)).map ([·]) := by
  rw [nodeDatum, argOf]
  split
  · rename_i hk
    simp [kindOf, Datum.find?_cons] at hk
    exact absurd hk h
  · cases nodeOf (.dict (("type", .text kind) :: parts ++ [("loc", loc)])) <;> rfl

/-- The data of a tree that has a plain tree are no named argument. -/
theorem argOf_toDatum {filler : Nat} {tree : Tree} {n : Node} {d : Datum}
    (hn : tree.node? filler = some n) (hd : tree.toDatum = .ok d) :
    argOf d = (nodeOf d).map ([·]) := by
  cases tree with
  | named => cases hn
  | string | identifier =>
    cases hd
    exact argOf_nodeDatum (by simp) _ _
  | number | array | unary | call =>
    obtain ⟨_, -, hd⟩ := bind_eq_ok hd
    cases hd
    exact argOf_nodeDatum (by simp) _ _
  | index | binary =>
    obtain ⟨_, -, hd⟩ := bind_eq_ok hd
    obtain ⟨_, -, hd⟩ := bind_eq_ok hd
    cases hd
    exact argOf_nodeDatum (by simp) _ _

section Entries

variable {entries : List (String × Datum)}

theorem argOf_named {name : String} {value : Datum} (hk : kindOf entries = .text "NamedArg")
    (hn : Datum.find? "name" entries = some (.text name))
    (hv : Datum.find? "value" entries = some value) :
    argOf (.dict entries) = (nodeOf value).map (Node.pair name) := by
  rw [argOf, hk]
  simp only [field_of_find? hn, nodeAt_of_find? hv]
  cases nodeOf value <;> rfl

theorem nodeOf_number {value : Datum} (hk : kindOf entries = .text "Number")
    (hv : Datum.find? "value" entries = some value) :
    nodeOf (.dict entries) = .ok (.number value) := by
  rw [nodeOf, hk]
  simp only [field_of_find? hv]
  rfl

theorem nodeOf_string {value : Datum} (hk : kindOf entries = .text "String")
    (hv : Datum.find? "value" entries = some value) :
    nodeOf (.dict entries) = .ok (.string value) := by
  rw [nodeOf, hk]
  simp only [field_of_find? hv]
  rfl

theorem nodeOf_identifier {name : String} (hk : kindOf entries = .text "Identifier")
    (hn : Datum.find? "name" entries = some (.text name)) :
    nodeOf (.dict entries) = .ok (.identifier name false) := by
  rw [nodeOf, hk]
  simp only [field_of_find? hn]
  rfl

theorem nodeOf_array {items : List Datum} {nodes : List Node} (hk : kindOf entries = .text "Array")
    (hi : Datum.find? "items" entries = some (.list items)) (h : itemsOf items = .ok nodes) :
    nodeOf (.dict entries) = .ok (.array nodes) := by
  rw [nodeOf, hk]
  simp only [nodesOf_of_find? hi]
  simp [h]

theorem nodeOf_index {target position : Datum} {t i : Node} (hk : kindOf entries = .text "Index")
    (ht : Datum.find? "object" entries = some target)
    (hi : Datum.find? "index" entries = some position) (h : nodeOf target = .ok t)
    (h' : nodeOf position = .ok i) : nodeOf (.dict entries) = .ok (.index t i) := by
  rw [nodeOf, hk]
  simp only [nodeAt_of_find? ht, nodeAt_of_find? hi, h, h']
  rfl

theorem nodeOf_unary {op : String} {operand : Datum} {n : Node} (hk : kindOf entries = .text "Unary")
    (ho : Datum.find? "operator" entries = some (.text op))
    (ha : Datum.find? "argument" entries = some operand) (h : nodeOf operand = .ok n) :
    nodeOf (.dict entries) = .ok (.unary op n) := by
  rw [nodeOf, hk]
  simp only [field_of_find? ho, nodeAt_of_find? ha, h]
  rfl

theorem nodeOf_binary {op : String} {left right : Datum} {l r : Node}
    (hk : kindOf entries = .text "Binary")
    (ho : Datum.find? "operator" entries = some (.text op))
    (hl : Datum.find? "left" entries = some left) (hr : Datum.find? "right" entries = some right)
    (h : nodeOf left = .ok l) (h' : nodeOf right = .ok r) :
    nodeOf (.dict entries) = .ok (.binary op l r) := by
  rw [nodeOf, hk]
  simp only [field_of_find? ho, nodeAt_of_find? hl, nodeAt_of_find? hr, h, h']
  rfl

theorem nodeOf_call {callee : String} {args : List Datum} {nodes : List Node}
    (hk : kindOf entries = .text "Call")
    (hc : Datum.find? "callee" entries = some (.text callee))
    (ha : Datum.find? "args" entries = some (.list args)) (h : argsOf args = .ok nodes) :
    nodeOf (.dict entries) = .ok (.call callee nodes) := by
  rw [nodeOf, hk]
  simp only [field_of_find? hc, nodesOf_of_find? ha]
  simp [h]
  rfl

end Entries

/-! ### From a tree to its plain tree -/

mutual

/-- **The data of a tree describe its plain tree.** -/
theorem Tree.nodeOf_toDatum {filler : Nat} {tree : Tree} {n : Node} {d : Datum}
    (hn : tree.node? filler = some n) (hd : tree.toDatum = .ok d) : nodeOf d = .ok n := by
  match tree with
  | .number whole fraction span =>
    cases hn
    obtain ⟨value, hv, hd⟩ := bind_eq_ok hd
    cases hd
    rw [numberValue, hv]
    exact nodeOf_number (by simp [kindOf, Datum.find?_cons])
      (by simp [Datum.find?_cons, Except.toOption])
  | .string body span =>
    cases hn
    cases hd
    exact nodeOf_string (by simp [kindOf, Datum.find?_cons]) (by simp [Datum.find?_cons])
  | .identifier name span =>
    cases hn
    cases hd
    exact nodeOf_identifier (by simp [kindOf, Datum.find?_cons]) (by simp [Datum.find?_cons])
  | .array items span =>
    obtain ⟨ns, hns, rfl⟩ := Option.map_eq_some_iff.1 hn
    obtain ⟨data, hdata, hd⟩ := bind_eq_ok hd
    cases hd
    exact nodeOf_array (by simp [kindOf, Datum.find?_cons]) (by simp [Datum.find?_cons])
      (Tree.itemsOf_toData hns hdata)
  | .index target position span =>
    obtain ⟨t, ht, hn⟩ := Option.bind_eq_some_iff.1 hn
    obtain ⟨i, hi, rfl⟩ := Option.map_eq_some_iff.1 hn
    obtain ⟨dt, hdt, hd⟩ := bind_eq_ok hd
    obtain ⟨di, hdi, hd⟩ := bind_eq_ok hd
    cases hd
    exact nodeOf_index (by simp [kindOf, Datum.find?_cons]) (by simp [Datum.find?_cons])
      (by simp [Datum.find?_cons]) (Tree.nodeOf_toDatum ht hdt) (Tree.nodeOf_toDatum hi hdi)
  | .unary op operand span =>
    obtain ⟨o, ho, rfl⟩ := Option.map_eq_some_iff.1 hn
    obtain ⟨d', hd', hd⟩ := bind_eq_ok hd
    cases hd
    exact nodeOf_unary (by simp [kindOf, Datum.find?_cons]) (by simp [Datum.find?_cons])
      (by simp [Datum.find?_cons]) (Tree.nodeOf_toDatum ho hd')
  | .binary op left right span =>
    obtain ⟨l, hl, hn⟩ := Option.bind_eq_some_iff.1 hn
    obtain ⟨r, hr, rfl⟩ := Option.map_eq_some_iff.1 hn
    obtain ⟨dl, hdl, hd⟩ := bind_eq_ok hd
    obtain ⟨dr, hdr, hd⟩ := bind_eq_ok hd
    cases hd
    exact nodeOf_binary (by simp [kindOf, Datum.find?_cons]) (by simp [Datum.find?_cons])
      (by simp [Datum.find?_cons]) (by simp [Datum.find?_cons])
      (Tree.nodeOf_toDatum hl hdl) (Tree.nodeOf_toDatum hr hdr)
  | .call callee args span =>
    obtain ⟨ns, hns, rfl⟩ := Option.map_eq_some_iff.1 hn
    obtain ⟨data, hdata, hd⟩ := bind_eq_ok hd
    cases hd
    exact nodeOf_call (by simp [kindOf, Datum.find?_cons]) (by simp [Datum.find?_cons])
      (by simp [Datum.find?_cons]) (Tree.argsOf_toData hns hdata)

theorem Tree.itemsOf_toData {filler : Nat} {trees : List Tree} {ns : List Node} {data : List Datum}
    (hn : Tree.items? filler trees = some ns) (hd : Tree.toData trees = .ok data) :
    itemsOf data = .ok ns := by
  match trees with
  | [] =>
    cases hn
    cases hd
    rw [itemsOf]
  | tree :: trees =>
    obtain ⟨n, hn', hn⟩ := Option.bind_eq_some_iff.1 hn
    obtain ⟨ns, hns, rfl⟩ := Option.map_eq_some_iff.1 hn
    obtain ⟨d, hd', hd⟩ := bind_eq_ok hd
    obtain ⟨ds, hds, hd⟩ := bind_eq_ok hd
    cases hd
    rw [itemsOf, Tree.nodeOf_toDatum hn' hd', Tree.itemsOf_toData hns hds]
    rfl

theorem Tree.argsOf_toData {filler : Nat} {trees : List Tree} {ns : List Node} {data : List Datum}
    (hn : Tree.args? filler trees = some ns) (hd : Tree.toData trees = .ok data) :
    argsOf data = .ok ns := by
  match trees with
  | [] =>
    cases hn
    cases hd
    rw [argsOf]
  | tree :: trees =>
    cases tree with
    | named name value span =>
      obtain ⟨n, hn', hn⟩ := Option.bind_eq_some_iff.1 hn
      obtain ⟨ns, hns, rfl⟩ := Option.map_eq_some_iff.1 hn
      obtain ⟨d, hd', hd⟩ := bind_eq_ok hd
      obtain ⟨ds, hds, hd⟩ := bind_eq_ok hd
      cases hd
      obtain ⟨dv, hdv, hd'⟩ := bind_eq_ok hd'
      cases hd'
      have ha : argOf (nodeDatum "NamedArg" [("name", .text name), ("value", dv)] span.toDatum) =
          .ok (Node.pair name n) := by
        rw [nodeDatum, argOf_named (by simp [kindOf, Datum.find?_cons])
          (by simp [Datum.find?_cons]; rfl) (by simp [Datum.find?_cons]; rfl),
          Tree.nodeOf_toDatum hn' hdv]
        rfl
      rw [argsOf, ha, Tree.argsOf_toData hns hds]
      rfl
    | _ =>
      obtain ⟨n, hn', hn⟩ := Option.bind_eq_some_iff.1 hn
      obtain ⟨ns, hns, rfl⟩ := Option.map_eq_some_iff.1 hn
      obtain ⟨d, hd', hd⟩ := bind_eq_ok hd
      obtain ⟨ds, hds, hd⟩ := bind_eq_ok hd
      cases hd
      rw [argsOf, argOf_toDatum hn' hd', Tree.nodeOf_toDatum hn' hd', Tree.argsOf_toData hns hds]
      rfl

end

/-! ### Literals without a value -/

/-- A number literal has a value if it does not depend on the filler. -/
theorem numberDatum_of_numberValue {whole : List Char} {fraction : Option (List Char)}
    (h : numberValue 0 whole fraction = numberValue 1 whole fraction) :
    ∃ value, numberDatum whole fraction = .ok value := by
  rw [numberValue, numberValue] at h
  cases hd : numberDatum whole fraction with
  | ok value => exact ⟨value, rfl⟩
  | error e =>
    rw [hd] at h
    cases h

/-- Where two optional values are put together so that nothing of them is lost, the result says what
both are. -/
theorem eq_some_of_bind_map {α β γ : Type} {a a' : Option α} {b b' : Option β} {f : α → β → γ}
    (hf : Function.Injective2 f) {c : γ} (h : (a.bind fun x => b.map (f x)) = some c)
    (h' : (a'.bind fun x => b'.map (f x)) = some c) :
    ∃ x y, (a = some x ∧ a' = some x) ∧ b = some y ∧ b' = some y := by
  obtain ⟨x, hx, h⟩ := Option.bind_eq_some_iff.1 h
  obtain ⟨y, hy, rfl⟩ := Option.map_eq_some_iff.1 h
  obtain ⟨x', hx', h'⟩ := Option.bind_eq_some_iff.1 h'
  obtain ⟨y', hy', heq⟩ := Option.map_eq_some_iff.1 h'
  obtain ⟨rfl, rfl⟩ := hf heq
  exact ⟨x', y', ⟨hx, hx'⟩, hy, hy'⟩

theorem injective2_cons : Function.Injective2 (List.cons (α := Node)) :=
  fun _ _ _ _ h => List.cons.inj h

mutual

/-- **A tree has data** if its plain tree does not depend on the filler. -/
theorem Tree.toDatum_of_node? {tree : Tree} {n : Node} (h : tree.node? 0 = some n)
    (h' : tree.node? 1 = some n) : ∃ d, tree.toDatum = .ok d := by
  match tree with
  | .number whole fraction span =>
    have hv : numberValue 0 whole fraction = numberValue 1 whole fraction := by
      simpa [Tree.node?] using h.trans h'.symm
    obtain ⟨value, hv⟩ := numberDatum_of_numberValue hv
    exact ⟨_, by rw [Tree.toDatum, hv]; rfl⟩
  | .string body span => exact ⟨_, rfl⟩
  | .identifier name span => exact ⟨_, rfl⟩
  | .array items span =>
    obtain ⟨ns, hns, rfl⟩ := Option.map_eq_some_iff.1 h
    obtain ⟨ns', hns', heq⟩ := Option.map_eq_some_iff.1 h'
    cases heq
    obtain ⟨data, hdata⟩ := Tree.toData_of_items? hns hns'
    exact ⟨_, by rw [Tree.toDatum, hdata]; rfl⟩
  | .index target position span =>
    obtain ⟨t, i, ht, hi⟩ := eq_some_of_bind_map (fun _ _ _ _ => Node.index.inj) h h'
    obtain ⟨dt, hdt⟩ := Tree.toDatum_of_node? ht.1 ht.2
    obtain ⟨di, hdi⟩ := Tree.toDatum_of_node? hi.1 hi.2
    exact ⟨_, by rw [Tree.toDatum, hdt, hdi]; rfl⟩
  | .unary op operand span =>
    obtain ⟨o, ho, rfl⟩ := Option.map_eq_some_iff.1 h
    obtain ⟨o', ho', heq⟩ := Option.map_eq_some_iff.1 h'
    cases heq
    obtain ⟨d, hd⟩ := Tree.toDatum_of_node? ho ho'
    exact ⟨_, by rw [Tree.toDatum, hd]; rfl⟩
  | .binary op left right span =>
    have hf : Function.Injective2 (Node.binary op) := fun _ _ _ _ h => (Node.binary.inj h).2
    obtain ⟨l, r, hl, hr⟩ := eq_some_of_bind_map hf h h'
    obtain ⟨dl, hdl⟩ := Tree.toDatum_of_node? hl.1 hl.2
    obtain ⟨dr, hdr⟩ := Tree.toDatum_of_node? hr.1 hr.2
    exact ⟨_, by rw [Tree.toDatum, hdl, hdr]; rfl⟩
  | .call callee args span =>
    obtain ⟨ns, hns, rfl⟩ := Option.map_eq_some_iff.1 h
    obtain ⟨ns', hns', heq⟩ := Option.map_eq_some_iff.1 h'
    cases heq
    obtain ⟨data, hdata⟩ := Tree.toData_of_args? hns hns'
    exact ⟨_, by rw [Tree.toDatum, hdata]; rfl⟩

theorem Tree.toData_of_items? {trees : List Tree} {ns : List Node}
    (h : Tree.items? 0 trees = some ns) (h' : Tree.items? 1 trees = some ns) :
    ∃ data, Tree.toData trees = .ok data := by
  match trees with
  | [] => exact ⟨_, rfl⟩
  | tree :: trees =>
    obtain ⟨n, ns, hn, hns⟩ := eq_some_of_bind_map injective2_cons h h'
    obtain ⟨d, hd⟩ := Tree.toDatum_of_node? hn.1 hn.2
    obtain ⟨ds, hds⟩ := Tree.toData_of_items? hns.1 hns.2
    exact ⟨_, by rw [Tree.toData, hd, hds]; rfl⟩

theorem Tree.toData_of_args? {trees : List Tree} {ns : List Node}
    (h : Tree.args? 0 trees = some ns) (h' : Tree.args? 1 trees = some ns) :
    ∃ data, Tree.toData trees = .ok data := by
  match trees with
  | [] => exact ⟨_, rfl⟩
  | tree :: trees =>
    cases tree with
    | named name value span =>
      have hf : Function.Injective2 fun n ns => Node.pair name n ++ ns := fun _ _ _ _ h => by
        simpa [Node.pair] using h
      obtain ⟨n, ns, hn, hns⟩ := eq_some_of_bind_map hf h h'
      obtain ⟨d, hd⟩ := Tree.toDatum_of_node? hn.1 hn.2
      obtain ⟨ds, hds⟩ := Tree.toData_of_args? hns.1 hns.2
      exact ⟨_, by rw [Tree.toData, Tree.toDatum, hd, hds]; rfl⟩
    | _ =>
      obtain ⟨n, ns, hn, hns⟩ := eq_some_of_bind_map injective2_cons h h'
      obtain ⟨d, hd⟩ := Tree.toDatum_of_node? hn.1 hn.2
      obtain ⟨ds, hds⟩ := Tree.toData_of_args? hns.1 hns.2
      exact ⟨_, by rw [Tree.toData, hd, hds]; rfl⟩

end

end ChartScript.Grammar
