import ChartScript.Proofs.Agreement
import ChartScript.Proofs.Outputs

/-!
# Markers are well placed

A named argument is two expressions in a row, a marker and the value, and nothing in a tree keeps the
two together. That they are together is what everything relies on that takes the arguments of a call
apart: a marker that stood alone would be written, evaluated and compared as a name.

Two things have to hold at every place of a tree (`ChartScript.Node.Orderly`). No marker stands where a
call has no argument, and in an argument list every marker has a value directly behind it that is no
marker itself (`ChartScript.Node.Paired`). Both readers see to it, each in its own way: the line reader
because it knows no other markers than those of named arguments (`ChartScript.Syntax.Legible`), the
conversion of trees with spans because it makes a marker only together with its value, whatever the data
are (`ChartScript.Grammar.markersPlaced_of_nodeOf`). The star namespace changes nothing about it.
-/

namespace ChartScript

open Syntax
open Grammar (bind_eq_ok map_eq_ok of_mapM_eq_ok)

namespace Node

/-! ### Argument lists -/

/-- **Every marker of an argument list has a value directly behind it**, which is no marker. -/
def Paired (args : List Node) : Prop :=
  ∀ before name after, args = before ++ .identifier name true :: after →
    ∃ value rest, after = value :: rest ∧ value.isMarker = false

theorem paired_nil : Paired [] := by
  intro before name after h
  simp at h

/-- An expression that is no marker may stand anywhere. -/
theorem paired_cons {t : Node} (h : t.isMarker = false) {rest : List Node} :
    Paired (t :: rest) ↔ Paired rest := by
  refine ⟨fun hp before name after heq => hp (t :: before) name after (by rw [heq]; rfl), ?_⟩
  intro hp before name after heq
  rcases before with _ | ⟨first, before⟩
  · cases heq
    cases h
  · exact hp before name after (List.cons.inj heq).2

theorem paired_pair {name : String} {value : Node} {rest : List Node} :
    Paired (.identifier name true :: value :: rest) ↔ value.isMarker = false ∧ Paired rest := by
  constructor
  · intro hp
    obtain ⟨_, _, heq, hvalue⟩ := hp [] name (value :: rest) rfl
    cases heq
    exact ⟨hvalue, (paired_cons hvalue).1 fun before key after heq =>
      hp (.identifier name true :: before) key after (by rw [heq]; rfl)⟩
  · rintro ⟨hvalue, hp⟩ before key after heq
    rcases before with _ | ⟨first, before⟩
    · cases heq
      exact ⟨value, rest, rfl, hvalue⟩
    · exact (paired_cons hvalue).2 hp before key after (List.cons.inj heq).2

/-- Markers and values that are together stay together in a longer list. -/
theorem Paired.append {xs ys : List Node} (hx : Paired xs) (hy : Paired ys) : Paired (xs ++ ys) := by
  intro before name after heq
  rcases List.append_eq_append_iff.1 heq with ⟨middle, rfl, rfl⟩ | ⟨middle, rfl, hmiddle⟩
  · exact hy middle name after rfl
  · rcases middle with _ | ⟨first, middle⟩
    · exact hy [] name after (by simpa using hmiddle.symm)
    · obtain ⟨rfl, rfl⟩ := List.cons.inj hmiddle
      obtain ⟨value, rest, rfl, hvalue⟩ := hx before name middle rfl
      exact ⟨value, rest ++ ys, rfl, hvalue⟩

/-- **Such a list comes apart cleanly**: neither a positional argument nor the value of a named one is a
marker. -/
theorem paired_iff {args : List Node} :
    Paired args ↔ (∀ t ∈ (splitArgs args).1, t.isMarker = false) ∧
      ∀ entry ∈ (splitArgs args).2, entry.2.isMarker = false := by
  fun_induction splitArgs args with
  | case1 => simp [paired_nil]
  | case2 name value rest positional named heq ih =>
    rw [heq] at ih
    rw [paired_pair, ih, List.forall_mem_cons]
    tauto
  | case3 arg rest hne positional named heq ih =>
    rw [heq] at ih
    rw [List.forall_mem_cons]
    cases hm : arg.isMarker with
    | false =>
      rw [paired_cons hm, ih]
      tauto
    | true =>
      -- what is taken for positional although it is a marker has nothing behind it
      refine iff_of_false (fun hp => ?_) (by simp)
      obtain ⟨name, rfl⟩ : ∃ name, arg = .identifier name true := by
        cases arg <;> simp_all [isMarker]
      obtain ⟨value, after, rfl, -⟩ := hp [] name rest rfl
      exact hne name value after rfl rfl

/-- Every argument is a positional one, or a half of a named one. -/
theorem length_eq_of_splitArgs (args : List Node) :
    args.length = (splitArgs args).1.length + 2 * (splitArgs args).2.length := by
  fun_induction splitArgs args with
  | case1 => rfl
  | case2 name value rest positional named heq ih =>
    rw [heq] at ih
    simp only [List.length_cons, ih]
    omega
  | case3 arg rest hne positional named heq ih =>
    rw [heq] at ih
    simp only [List.length_cons, ih]
    omega

theorem Paired.map_toStar {args : List Node} (h : Paired args) : Paired (args.map toStar) := by
  rw [paired_iff] at h ⊢
  rw [splitArgs_map_toStar]
  exact ⟨List.forall_mem_map.2 fun t ht => by rw [isMarker_toStar, h.1 t ht],
    List.forall_mem_map.2 fun entry he => by rw [isMarker_toStar, h.2 entry he]⟩

/-! ### Trees -/

/-- What is directly inside an expression: markers only among the arguments of a call, and paired
there. -/
def Orderly : Node → Prop
  | .array items => ∀ t ∈ items, t.isMarker = false
  | .index target position => target.isMarker = false ∧ position.isMarker = false
  | .unary _ operand => operand.isMarker = false
  | .binary _ left right => left.isMarker = false ∧ right.isMarker = false
  | .call _ args => Paired args
  | .number _ | .string _ | .identifier _ _ => True

theorem Orderly.toStar {t : Node} (h : t.Orderly) : t.toStar.Orderly := by
  cases t with
  | number | string | identifier => simp [Node.toStar, Orderly]
  | array items =>
    rw [Node.toStar, allToStar_eq_map]
    exact List.forall_mem_map.2 fun t ht => by rw [isMarker_toStar, h t ht]
  | index target position =>
    rw [Node.toStar]
    exact ⟨by rw [isMarker_toStar, h.1], by rw [isMarker_toStar, h.2]⟩
  | unary op operand =>
    rw [Node.toStar]
    exact (isMarker_toStar operand).trans h
  | binary op left right =>
    rw [Node.toStar]
    exact ⟨by rw [isMarker_toStar, h.1], by rw [isMarker_toStar, h.2]⟩
  | call callee args =>
    rw [Node.toStar, allToStar_eq_map]
    exact Paired.map_toStar h

/-- **Markers are well placed**: an expression is no marker itself, and everything inside it is
orderly. -/
structure MarkersPlaced (node : Node) : Prop where
  /-- The expression is no marker. -/
  outside : node.isMarker = false
  /-- What is directly inside each of its parts is in order. -/
  inside : ∀ part ∈ node.parts, part.Orderly

section MarkersPlaced

variable {t l r : Node} {ts : List Node}

theorem markersPlaced_number (value : Datum) : (number value).MarkersPlaced :=
  ⟨rfl, by simp [parts, Orderly]⟩

theorem markersPlaced_string (value : Datum) : (string value).MarkersPlaced :=
  ⟨rfl, by simp [parts, Orderly]⟩

theorem markersPlaced_name (name : String) : (identifier name false).MarkersPlaced :=
  ⟨rfl, by simp [parts, Orderly]⟩

theorem markersPlaced_array (h : ∀ t ∈ ts, t.MarkersPlaced) : (array ts).MarkersPlaced := by
  refine ⟨rfl, ?_⟩
  rw [parts, List.forall_mem_cons]
  refine ⟨fun t ht => (h t ht).outside, fun part hpart => ?_⟩
  obtain ⟨t, ht, hpart⟩ := mem_allParts.1 hpart
  exact (h t ht).inside part hpart

theorem markersPlaced_index (hl : l.MarkersPlaced) (hr : r.MarkersPlaced) :
    (index l r).MarkersPlaced := by
  refine ⟨rfl, ?_⟩
  rw [parts, List.forall_mem_cons]
  exact ⟨⟨hl.outside, hr.outside⟩, List.forall_mem_append.2 ⟨hl.inside, hr.inside⟩⟩

theorem markersPlaced_unary (op : String) (h : t.MarkersPlaced) : (unary op t).MarkersPlaced := by
  refine ⟨rfl, ?_⟩
  rw [parts, List.forall_mem_cons]
  exact ⟨h.outside, h.inside⟩

theorem markersPlaced_binary (op : String) (hl : l.MarkersPlaced) (hr : r.MarkersPlaced) :
    (binary op l r).MarkersPlaced := by
  refine ⟨rfl, ?_⟩
  rw [parts, List.forall_mem_cons]
  exact ⟨⟨hl.outside, hr.outside⟩, List.forall_mem_append.2 ⟨hl.inside, hr.inside⟩⟩

/-- An argument list in order: its markers are paired, and they are so in each of its members. -/
structure ArgsPlaced (args : List Node) : Prop where
  /-- The markers of the list. -/
  paired : Paired args
  /-- Those inside of its members. -/
  inside : ∀ t ∈ args, ∀ part ∈ t.parts, part.Orderly

theorem argsPlaced_nil : ArgsPlaced [] := ⟨paired_nil, by simp⟩

theorem ArgsPlaced.append {xs ys : List Node} (hx : ArgsPlaced xs) (hy : ArgsPlaced ys) :
    ArgsPlaced (xs ++ ys) :=
  ⟨hx.paired.append hy.paired, List.forall_mem_append.2 ⟨hx.inside, hy.inside⟩⟩

theorem MarkersPlaced.single (h : t.MarkersPlaced) : ArgsPlaced [t] :=
  ⟨(paired_cons h.outside).2 paired_nil, by simpa using h.inside⟩

/-- A marker and a value are in order as a named argument. -/
theorem MarkersPlaced.pair (h : t.MarkersPlaced) (name : String) : ArgsPlaced (Node.pair name t) := by
  refine ⟨paired_pair.2 ⟨h.outside, paired_nil⟩, ?_⟩
  rw [Node.pair, List.forall_mem_cons]
  exact ⟨by simp [parts, Orderly], by simpa using h.inside⟩

/-- Positional arguments and values that are in order make an argument list in order. -/
theorem argsPlaced_of_splitArgs (hp : ∀ t ∈ (splitArgs ts).1, t.MarkersPlaced)
    (hn : ∀ entry ∈ (splitArgs ts).2, entry.2.MarkersPlaced) : ArgsPlaced ts := by
  refine ⟨paired_iff.2 ⟨fun t ht => (hp t ht).outside, fun e he => (hn e he).outside⟩, ?_⟩
  intro t ht
  rcases (mem_of_splitArgs ts).2.2 t ht with ht | ⟨entry, he, rfl⟩ | ⟨name, rfl⟩
  · exact (hp t ht).inside
  · exact (hn entry he).inside
  · simp [parts, Orderly]

theorem ArgsPlaced.call (h : ArgsPlaced ts) (callee : String) : (Node.call callee ts).MarkersPlaced := by
  refine ⟨rfl, ?_⟩
  rw [parts, List.forall_mem_cons]
  refine ⟨h.paired, fun part hpart => ?_⟩
  obtain ⟨t, ht, hpart⟩ := mem_allParts.1 hpart
  exact h.inside t ht part hpart

theorem MarkersPlaced.toStar (h : t.MarkersPlaced) : t.toStar.MarkersPlaced := by
  refine ⟨(isMarker_toStar t).trans h.outside, ?_⟩
  rw [parts_toStar]
  exact List.forall_mem_map.2 fun part hpart => (h.inside part hpart).toStar

end MarkersPlaced

end Node

open Node

/-! ### The two readers -/

/-- Markers are well placed in what the line reader makes of a line. -/
theorem Syntax.Legible.markersPlaced {P : Float → Prop} {n : Node} (h : Legible P n) :
    n.MarkersPlaced := by
  induction h with
  | int n => exact markersPlaced_number _
  | float x => exact markersPlaced_number _
  | string s => exact markersPlaced_string _
  | name => exact markersPlaced_name _
  | array _ ih => exact markersPlaced_array ih
  | index _ _ iht ihi => exact markersPlaced_index iht ihi
  | unary _ _ ih => exact markersPlaced_unary _ ih
  | sum _ _ _ ihl ihr | product _ _ _ ihl ihr | power _ _ ihl ihr =>
    exact markersPlaced_binary _ ihl ihr
  | call _ _ _ _ ihp ihv => exact (argsPlaced_of_splitArgs ihp ihv).call _

namespace Grammar

open Exchange

/-- What is true of the nodes that several data are converted to. -/
def PlacedAs (named : Bool) (nodes : List Node) : Prop :=
  if named then ArgsPlaced nodes else ∀ t ∈ nodes, t.MarkersPlaced

theorem placedAs_nil (named : Bool) : PlacedAs named [] := by
  cases named
  · exact fun t ht => nomatch ht
  · exact argsPlaced_nil

/-- What a dictionary with spans can be converted to, and from which of its entries. -/
theorem of_nodeOf {entries : List (String × Datum)} {n : Node} (h : nodeOf (.dict entries) = .ok n) :
    (∃ value, n = .number value ∨ n = .string value) ∨ (∃ name, n = .identifier name false) ∨
      (∃ items, n = .array items ∧ nodesOf "items" false entries = .ok items) ∨
      (∃ t i, n = .index t i ∧ nodeAt "object" entries = .ok t ∧ nodeAt "index" entries = .ok i) ∨
      (∃ op t, n = .unary op t ∧ nodeAt "argument" entries = .ok t) ∨
      (∃ op l r, n = .binary op l r ∧ nodeAt "left" entries = .ok l ∧
        nodeAt "right" entries = .ok r) ∨
      ∃ callee args, n = .call callee args ∧ nodesOf "args" true entries = .ok args := by
  rw [nodeOf] at h
  split at h
  · obtain ⟨value, -, h⟩ := bind_eq_ok h
    cases h
    exact .inl ⟨value, .inl rfl⟩
  · obtain ⟨value, -, h⟩ := bind_eq_ok h
    cases h
    exact .inl ⟨value, .inr rfl⟩
  · obtain ⟨value, -, h⟩ := bind_eq_ok h
    obtain ⟨name, -, h⟩ := bind_eq_ok h
    cases h
    exact .inr (.inl ⟨name, rfl⟩)
  · obtain ⟨items, hitems, h⟩ := bind_eq_ok h
    cases h
    exact .inr (.inr (.inl ⟨items, rfl, hitems⟩))
  · obtain ⟨t, ht, h⟩ := bind_eq_ok h
    obtain ⟨i, hi, h⟩ := bind_eq_ok h
    cases h
    exact .inr (.inr (.inr (.inl ⟨t, i, rfl, ht, hi⟩)))
  · obtain ⟨value, -, h⟩ := bind_eq_ok h
    obtain ⟨op, -, h⟩ := bind_eq_ok h
    obtain ⟨t, ht, h⟩ := bind_eq_ok h
    cases h
    exact .inr (.inr (.inr (.inr (.inl ⟨op, t, rfl, ht⟩))))
  · obtain ⟨value, -, h⟩ := bind_eq_ok h
    obtain ⟨op, -, h⟩ := bind_eq_ok h
    obtain ⟨l, hl, h⟩ := bind_eq_ok h
    obtain ⟨r, hr, h⟩ := bind_eq_ok h
    cases h
    exact .inr (.inr (.inr (.inr (.inr (.inl ⟨op, l, r, rfl, hl, hr⟩)))))
  · obtain ⟨args, hargs, h⟩ := bind_eq_ok h
    obtain ⟨value, -, h⟩ := bind_eq_ok h
    obtain ⟨callee, -, h⟩ := bind_eq_ok h
    cases h
    exact .inr (.inr (.inr (.inr (.inr (.inr ⟨callee, args, rfl, hargs⟩)))))
  · cases h

mutual

/-- **Markers are well placed in whatever is converted**: no datum describes a tree in which they are
not. -/
theorem markersPlaced_of_nodeOf {d : Datum} {n : Node} (h : nodeOf d = .ok n) : n.MarkersPlaced := by
  cases d with
  | dict entries =>
    rcases of_nodeOf h with ⟨value, rfl | rfl⟩ | ⟨name, rfl⟩ | ⟨items, rfl, hitems⟩ |
      ⟨t, i, rfl, ht, hi⟩ | ⟨op, t, rfl, ht⟩ | ⟨op, l, r, rfl, hl, hr⟩ | ⟨callee, args, rfl, hargs⟩
    · exact markersPlaced_number value
    · exact markersPlaced_string value
    · exact markersPlaced_name name
    · exact markersPlaced_array (placedAs_of_nodesOf hitems)
    · exact markersPlaced_index (markersPlaced_of_nodeAt ht) (markersPlaced_of_nodeAt hi)
    · exact markersPlaced_unary op (markersPlaced_of_nodeAt ht)
    · exact markersPlaced_binary op (markersPlaced_of_nodeAt hl) (markersPlaced_of_nodeAt hr)
    · exact ArgsPlaced.call (placedAs_of_nodesOf hargs) callee
  | null | bool | int | float | text | list => rw [nodeOf.eq_def] at h; cases h
termination_by 2 * sizeOf d

theorem markersPlaced_of_nodeAt {key : String} {entries : List (String × Datum)} {n : Node}
    (h : nodeAt key entries = .ok n) : n.MarkersPlaced := by
  rw [nodeAt] at h
  split at h
  · cases h
  · rename_i d hd
    have := sizeOf_of_find? hd
    exact markersPlaced_of_nodeOf h
termination_by 2 * sizeOf entries

theorem placedAs_of_nodesOf {key : String} {named : Bool} {entries : List (String × Datum)}
    {nodes : List Node} (h : nodesOf key named entries = .ok nodes) : PlacedAs named nodes := by
  rw [nodesOf] at h
  split at h
  · cases h
    exact placedAs_nil named
  · rename_i items hitems
    have := sizeOf_of_find? hitems
    have : sizeOf items < sizeOf entries := by simp at this; omega
    cases named
    · exact placedAs_of_itemsOf h
    · exact placedAs_of_argsOf h
  · split at h
    · cases h
      exact placedAs_nil named
    · cases h
  · cases h
    exact placedAs_nil named
  · cases h
  · cases h
termination_by 2 * sizeOf entries

theorem placedAs_of_itemsOf {data : List Datum} {nodes : List Node} (h : itemsOf data = .ok nodes) :
    PlacedAs false nodes := by
  cases data with
  | nil =>
    rw [itemsOf] at h
    cases h
    exact placedAs_nil false
  | cons d rest =>
    rw [itemsOf] at h
    obtain ⟨n, hn, h⟩ := bind_eq_ok h
    obtain ⟨more, hmore, h⟩ := bind_eq_ok h
    cases h
    exact List.forall_mem_cons.2 ⟨markersPlaced_of_nodeOf hn, placedAs_of_itemsOf hmore⟩
termination_by 2 * sizeOf data

theorem placedAs_of_argsOf {data : List Datum} {nodes : List Node} (h : argsOf data = .ok nodes) :
    PlacedAs true nodes := by
  cases data with
  | nil =>
    rw [argsOf] at h
    cases h
    exact placedAs_nil true
  | cons d rest =>
    rw [argsOf] at h
    obtain ⟨first, hfirst, h⟩ := bind_eq_ok h
    obtain ⟨more, hmore, h⟩ := bind_eq_ok h
    cases h
    exact ArgsPlaced.append (placedAs_of_argOf hfirst) (placedAs_of_argsOf hmore)
termination_by 2 * sizeOf data

/-- A marker is made together with its value only. -/
theorem placedAs_of_argOf {d : Datum} {nodes : List Node} (h : argOf d = .ok nodes) :
    PlacedAs true nodes := by
  cases d with
  | dict entries =>
    rw [argOf] at h
    split at h
    · obtain ⟨value, -, h⟩ := bind_eq_ok h
      obtain ⟨key, -, h⟩ := bind_eq_ok h
      obtain ⟨t, ht, h⟩ := bind_eq_ok h
      cases h
      exact (markersPlaced_of_nodeAt ht).pair key
    · obtain ⟨t, ht, h⟩ := bind_eq_ok h
      cases h
      exact (markersPlaced_of_nodeOf ht).single
  | null | bool | int | float | text | list => rw [argOf.eq_def] at h; cases h
termination_by 2 * sizeOf d + 1

end

/-- So they are in every statement of a program that is converted. -/
theorem markersPlaced_of_programOf {d : Datum} {p : Program} (h : programOf d = .ok p) :
    ∀ a ∈ p.assignments, a.expr.MarkersPlaced := by
  obtain ⟨entries, -, h⟩ := bind_eq_ok h
  obtain ⟨assignments, hassignments, h⟩ := bind_eq_ok h
  obtain ⟨indicators, -, h⟩ := bind_eq_ok h
  cases h
  rw [assignmentsOf.eq_def] at hassignments
  split at hassignments
  · cases hassignments
    simp
  · cases hassignments
    simp
  · cases hassignments
    simp
  · intro a ha
    obtain ⟨datum, -, hdatum⟩ := (of_mapM_eq_ok hassignments).2 a ha
    obtain ⟨entries, -, hdatum⟩ := bind_eq_ok hdatum
    obtain ⟨target, -, hdatum⟩ := bind_eq_ok hdatum
    obtain ⟨expr, hexpr, hdatum⟩ := bind_eq_ok hdatum
    cases hdatum
    exact markersPlaced_of_nodeAt hexpr
  · cases hassignments
  · cases hassignments
  · cases hassignments

end Grammar

/-! ### Programs -/

/-- **The programs that a source comes to**: what either reader makes of it, and what becomes of that in
the star namespace. -/
inductive Program.ComesOf (source : String) : Program → Prop where
  /-- The line reader. -/
  | lines {p : Program} : Program.read source = .ok p → ComesOf source p
  /-- The grammar. -/
  | grammar {p : Program} : Grammar.readByGrammar source = .ok p → ComesOf source p
  /-- The star namespace. -/
  | star {p q : Program} : ComesOf source p → p.toStar = .ok q → ComesOf source q

theorem Program.ComesOf.markersPlaced {source : String} {p : Program} (h : ComesOf source p) :
    ∀ a ∈ p.assignments, a.expr.MarkersPlaced := by
  induction h with
  | lines h => exact fun a ha => (legible_of_read h a ha).expr.markersPlaced
  | grammar h =>
    rw [Grammar.readByGrammar] at h
    split at h
    · cases h
    · split at h
      · cases h
      · rename_i hp
        cases h
        exact Grammar.markersPlaced_of_programOf hp
  | star _ hstar ih =>
    intro b hb
    rw [assignments_of_toStar hstar] at hb
    obtain ⟨a, ha, rfl⟩ := List.mem_map.1 hb
    exact (ih a ha).toStar

/-- **Markers are always well placed**: in every program that a source comes to, a marker stands only
among the arguments of a call, and directly behind it stands a value that is no marker. So every call
comes apart without a marker among its positional arguments and without losing anything, and what is
put together again, the named arguments behind the positional ones, comes apart in the same way. -/
theorem Program.markers_wellPlaced {source : String} {p : Program} (h : ComesOf source p) :
    ∀ a ∈ p.assignments, a.expr.MarkersPlaced ∧
      ∀ callee args, .call callee args ∈ a.expr.parts →
        (∀ t ∈ (splitArgs args).1, t.isMarker = false) ∧
          args.length = (splitArgs args).1.length + 2 * (splitArgs args).2.length ∧
            splitArgs (joinArgs (splitArgs args).1 (splitArgs args).2) = splitArgs args := by
  intro a ha
  have hplaced := h.markersPlaced a ha
  refine ⟨hplaced, fun callee args hcall => ?_⟩
  have hpaired : Paired args := hplaced.inside _ hcall
  have hpositional := (paired_iff.1 hpaired).1
  exact ⟨hpositional, length_eq_of_splitArgs args, splitArgs_joinArgs hpositional _⟩

/-- A call with named arguments of both forms, in front of a comment that the line reader does not
know. -/
def mixedSource : String := "f(a = -1, g(x), \x7b b: [y] \x7d) /* c"

/-- Its arguments. -/
def mixedArgs : List Node :=
  [.identifier "a" true, .unary "-" (.number (.int 1)), .call "g" [.identifier "x" false],
    .identifier "b" true, .array [.identifier "y" false]]

theorem Program.markers_wellPlaced_mixed :
    ∃ p, ComesOf mixedSource p ∧ p.assignments = [⟨callTarget, .call "f" mixedArgs⟩] ∧
      (Node.call "f" mixedArgs).MarkersPlaced ∧
        mixedArgs.length = (splitArgs mixedArgs).1.length + 2 * (splitArgs mixedArgs).2.length := by
  have hread : Grammar.readByGrammar mixedSource =
      .ok { indicators := [], assignments := [⟨callTarget, .call "f" mixedArgs⟩] } := by
    cbv
  have hcomes := ComesOf.grammar hread
  obtain ⟨hplaced, hcalls⟩ := Program.markers_wellPlaced hcomes _ List.mem_cons_self
  have hcall : .call "f" mixedArgs ∈ (Node.call "f" mixedArgs).parts := by
    rw [parts]
    exact List.mem_cons_self
  exact ⟨_, hcomes, rfl, hplaced, (hcalls "f" mixedArgs hcall).2.1⟩

end ChartScript
