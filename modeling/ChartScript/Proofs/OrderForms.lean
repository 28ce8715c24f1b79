import ChartScript.Proofs.Calls
import ChartScript.Proofs.Forwarding
import ChartScript.Proofs.Settling

/-!
# The forms of an order

An order can be given its options in three forms, and an entry its quantity in four. Which form is meant
is guessed from the values: a text in front is a direction, a number is a quantity, a single dictionary
is all options. The whole point is that no guess goes wrong, as long as no option has a name that means
something else (`ChartScript.Engine.run_forms`): every form of an order comes to the same, and every
form of an entry to a purchase.

There is one exception in the second part. An entry is noted before it is filled, so a name that holds
the entries, by itself or through the exits, is shown with one entry more than an order would show it
with (`ChartScript.Engine.entry_shows_itself`).
-/

namespace ChartScript

open Grammar (bind_eq_ok)

namespace Engine

/-! ### Options in three forms -/

/-- Names that an entry or an order takes for something else than an option: those of the object and of
the parameters, and the directions in any letter case. -/
def isReserved (name : String) : Bool :=
  ["self", "id", "action", "qty"].contains name || ["long", "short"].contains (lower name.toList)

/-- Options of different names, none of which is reserved. -/
structure PlainOptions (options : Options) : Prop where
  /-- The names differ. -/
  nodup : (options.map Prod.fst).Nodup
  /-- No name is reserved. -/
  free : ∀ option ∈ options, isReserved option.1 = false

/-- Names and values in turn. -/
inductive InTurn : List Value → Options → Prop where
  /-- Nothing. -/
  | nil : InTurn [] []
  /-- A name and a value, and what follows. -/
  | pair {name value : Value} {key : String} {row : List Value} {options : Options} :
      name.text? = some key → InTurn row options →
        InTurn (name :: value :: row) ((key, value) :: options)

/-- **How options are given** behind the other arguments of an order, and by name. -/
inductive GivenAs (options : Options) : List Value → Options → Prop where
  /-- As one dictionary. -/
  | mapping : GivenAs options [.dict options] []
  /-- As names and values in turn. -/
  | pairs {row : List Value} : InTurn row options → GivenAs options row []
  /-- As named arguments. -/
  | named : GivenAs options [] options

variable {options named : Options} {trailing : List Value}

/-- A key that is not bound yet goes to the end. -/
theorem bind_of_not_mem {key : String} {entries : Options} (h : key ∉ entries.map Prod.fst)
    (value : Value) : Datum.bind key value entries = entries ++ [(key, value)] := by
  induction entries with
  | nil => rfl
  | cons entry entries ih =>
    rw [List.map_cons, List.mem_cons, not_or] at h
    rw [Datum.bind, if_neg (Ne.symm h.1), ih h.2, List.cons_append]

/-- Options of different names are put one behind the other. -/
theorem overlaid_of_nodup {base : Options} (h : ((base ++ options).map Prod.fst).Nodup) :
    overlaid base options = base ++ options := by
  induction options generalizing base with
  | nil => rw [List.append_nil]; rfl
  | cons option options ih =>
    have hnew : option.1 ∉ base.map Prod.fst := by
      rw [List.map_append, List.map_cons, List.nodup_append] at h
      exact fun hmem => h.2.2 _ hmem _ List.mem_cons_self rfl
    rw [overlaid_cons, bind_of_not_mem hnew, ih (by rwa [← List.append_cons]), ← List.append_cons]

theorem pairedOptions_of_inTurn {row : List Value} (h : InTurn row options) :
    pairedOptions row = options := by
  induction h with
  | nil => rfl
  | pair hname _ ih =>
    simp only [pairedOptions, hname, ih]

/-- **In each of the three forms the options are the same.** -/
theorem mergedOptions_of_givenAs (h : GivenAs options trailing named)
    (hnodup : (options.map Prod.fst).Nodup) : mergedOptions trailing named = options := by
  have hself : overlaid [] options = options := overlaid_of_nodup hnodup
  cases h with
  | mapping => rfl
  | named =>
    show overlaid (overlaid [] []) options = options
    exact hself
  | pairs hrow =>
    rw [mergedOptions.eq_def]
    split
    · -- a single dictionary is no name and value
      cases hrow
    · rw [pairedOptions_of_inTurn hrow, hself]
      rfl

/-- What is given by name is an option. -/
theorem GivenAs.subset (h : GivenAs options trailing named) : named ⊆ options := by
  cases h with
  | mapping | pairs => exact List.nil_subset _
  | named => exact List.Subset.refl _

/-! ### An order in three forms -/

theorem find?_eq_none {name : String} (h : ∀ option ∈ named, option.1 ≠ name) :
    Datum.find? name named = none := by
  rw [Datum.find?, List.find?_eq_none.2 fun option hmem => by simpa using h option hmem]
  rfl

/-- Named arguments become options if none is named like a parameter or like the object. -/
theorem bind_free {s : Signature} (htakes : s.takesOptions)
    (hfree : ∀ option ∈ named, option.1 ≠ "self" ∧ s.hasParam option.1 = false)
    {positional : List Value} {bound : Bound} (hbound : s.bind positional [] = .ok bound) :
    s.bind positional named = .ok { bound with options := named } := by
  have hextends : Extends (fun _ => true) [] named := List.filter_eq_nil_iff.2 (by simp)
  have hparams (name : String) (hname : s.hasParam name) : Datum.find? name named = none := by
    refine find?_eq_none fun option hmem heq => ?_
    rw [← heq, (hfree option hmem).2] at hname
    cases hname
  have hself : Datum.find? "self" named = none :=
    find?_eq_none fun option hmem => (hfree option hmem).1
  rw [(Signature.bind_extends hextends htakes (fun name hname _ => hparams name hname)
    (fun _ _ => hself) hbound).2]
  rw [List.filter_eq_self.2 fun option hmem => by rw [(hfree option hmem).2]; rfl]

theorem PlainOptions.ne (hplain : PlainOptions options) (h : named ⊆ options) (name : String)
    (hname : isReserved name = true) : ∀ option ∈ named, option.1 ≠ name := by
  rintro option hmem rfl
  rw [hplain.free option (h hmem)] at hname
  cases hname

/-- The arguments of an order are bound to its parameters, and the options are left. -/
theorem bind_order (hplain : PlainOptions options) (h : GivenAs options trailing named)
    (id action qty : Value) :
    orderSignature.bind (id :: action :: qty :: trailing) named =
      .ok { args := [id, action, qty], rest := trailing, options := named } := by
  have hbound : orderSignature.bind (id :: action :: qty :: trailing) [] =
      .ok { args := [id, action, qty], rest := trailing, options := [] } := rfl
  refine bind_free rfl (fun option hmem => ?_) hbound
  have hid := hplain.ne h.subset "id" (by decide) option hmem
  have haction := hplain.ne h.subset "action" (by decide) option hmem
  have hqty := hplain.ne h.subset "qty" (by decide) option hmem
  refine ⟨hplain.ne h.subset "self" (by decide) option hmem, ?_⟩
  simp [Signature.hasParam, orderSignature, hid.symm, haction.symm, hqty.symm]

/-- **What an order asks for does not depend on the form of its options.** -/
theorem asked_of_givenAs (hplain : PlainOptions options) (h : GivenAs options trailing named)
    (e : Engine) (price : Except Fault Float) (id action qty : Value) :
    e.asked price (id :: action :: qty :: trailing) named =
      request e price id action qty options := by
  rw [asked, bind_order hplain h]
  show request e price id action qty (mergedOptions trailing named) = _
  rw [mergedOptions_of_givenAs h hplain.nodup]

/-- **An order comes to the same in every form.** -/
theorem run_order_of_givenAs (hplain : PlainOptions options) (h : GivenAs options trailing named)
    {trailing' : List Value} {named' : Options} (h' : GivenAs options trailing' named')
    (price : Except Fault Float) (id action qty : Value) (e : Engine) :
    (order price (id :: action :: qty :: trailing) named).run e =
      (order price (id :: action :: qty :: trailing') named').run e := by
  rw [run_order, run_order, asked_of_givenAs hplain h, asked_of_givenAs hplain h']

/-! ### An entry in four forms -/

/-- The strategy with an entry noted. -/
def noting (entry : Value × Value) (e : Engine) : Engine :=
  { e with entries := e.entries ++ [entry] }

/-- The word for a purchase, in any letter case, or nothing. -/
inductive IsFront : List Value → Prop where
  /-- Nothing. -/
  | none : IsFront []
  /-- The word. -/
  | long {word : Value} {s : String} : word.text? = some s → lower s.toList = "long" →
      IsFront [word]

/-- **How a quantity and options are given** to an entry, behind its name and by name. The word for a
purchase may stand in front. -/
inductive EntryGivenAs (options : Options) (qty : Value) : List Value → Options → Prop where
  /-- The quantity by place. -/
  | byPlace {front trailing : List Value} {named : Options} : IsFront front →
      GivenAs options trailing named → EntryGivenAs options qty (front ++ qty :: trailing) named
  /-- The quantity as a named argument, anywhere among the others. -/
  | byName {front trailing : List Value} {before after : Options} : IsFront front →
      GivenAs options trailing (before ++ after) →
      EntryGivenAs options qty (front ++ trailing) (before ++ ("qty", qty) :: after)

variable {front args : List Value} {qty : Value}

/-- What stands behind the word for a purchase. -/
theorem direction_append (hfront : IsFront front) (h : direction args = (.buy, args)) :
    direction (front ++ args) = (.buy, args) := by
  cases hfront with
  | none => exact h
  | long hword hlong => simp [direction, hword, hlong]

/-- A quantity is no direction. -/
theorem direction_of_isQuantity (hqty : qty.isQuantity) (trailing : List Value) :
    direction (qty :: trailing) = (.buy, qty :: trailing) := by
  cases qty <;> first | rfl | cases hqty

/-- Options are no direction. -/
theorem direction_of_givenAs (hplain : PlainOptions options) (h : GivenAs options trailing named) :
    direction trailing = (.buy, trailing) := by
  cases h with
  | mapping | named => rfl
  | pairs hrow =>
    cases hrow with
    | nil => rfl
    | @pair name value key row rest hname _ =>
      have hfree := hplain.free (key, value) List.mem_cons_self
      simp only [isReserved, Bool.or_eq_false_iff, List.contains_eq_mem, List.mem_cons,
        List.not_mem_nil, or_false, decide_eq_false_iff_not, not_or] at hfree
      simp [direction, hname, hfree.2]

/-- A quantity at the start of the arguments, where none is named. -/
theorem entryQty_byPlace (hqty : qty.isQuantity) (default : Value) (trailing : List Value) :
    entryQty default none (qty :: trailing) = (qty, trailing) := by
  rw [entryQty, if_pos hqty]

/-- A named quantity. -/
theorem entryQty_byName (hqty : qty.isQuantity) (default : Value) (trailing : List Value) :
    entryQty default (some qty) trailing = (qty, trailing) := by
  cases qty <;> first | rfl | cases hqty

/-- The name of an entry is bound, and the rest is left. -/
theorem bind_entry (hfree : ∀ option ∈ named, option.1 ≠ "self" ∧ option.1 ≠ "id")
    (id : Value) (args : List Value) :
    namedSignature.bind (id :: args) named =
      .ok { args := [id], rest := args, options := named } := by
  have hbound : namedSignature.bind (id :: args) [] =
      .ok { args := [id], rest := args, options := [] } := rfl
  refine bind_free rfl (fun option hmem => ?_) hbound
  obtain ⟨hself, hid⟩ := hfree option hmem
  exact ⟨hself, by simp [Signature.hasParam, namedSignature, hid.symm]⟩

/-- What an entry does, once its direction and its quantity are read. -/
theorem run_entry_of_read {id : Value} {rest : List Value}
    (hfree : ∀ option ∈ named, option.1 ≠ "self" ∧ option.1 ≠ "id")
    (hdirection : direction args = (.buy, rest))
    (hqty : ∀ default, entryQty default (Datum.find? "qty" named) rest = (qty, trailing))
    (price : Except Fault Float) (e : Engine) :
    (entry price (id :: args) named).run e =
      (order price (id :: .text Side.buy.name :: qty :: trailing)
        (named.filter fun option => option.1 != "qty")).run (e.noting (id, qty)) := by
  rw [entry, run_lift_bind, bind_entry hfree]
  simp only [hdirection, run_get_bind, hqty]
  rfl

section Named

variable {before after : Options} {key : String} {value : Value}

/-- An argument that is named among others. -/
theorem find?_between (h : ∀ option ∈ before ++ after, option.1 ≠ key) :
    Datum.find? key (before ++ (key, value) :: after) = some value := by
  have hbefore : before.find? (fun option => option.1 == key) = none :=
    List.find?_eq_none.2 fun option hmem => by simpa using h option (List.mem_append_left _ hmem)
  rw [Datum.find?, List.find?_append, hbefore, Option.none_or, List.find?_cons_of_pos (by simp)]
  rfl

/-- The others. -/
theorem filter_between (h : ∀ option ∈ before ++ after, option.1 ≠ key) :
    ((before ++ (key, value) :: after).filter fun option => option.1 != key) = before ++ after := by
  rw [List.filter_append, List.filter_cons_of_neg (by simp), ← List.filter_append]
  exact List.filter_eq_self.2 fun option hmem => bne_iff_ne.2 (h option hmem)

end Named

/-- **An entry is noted and places an order for a purchase**, with its options in one of their forms. -/
theorem run_entry_of_givenAs (hplain : PlainOptions options) (hqty : qty.isQuantity)
    (h : EntryGivenAs options qty args named) (price : Except Fault Float) (id : Value) :
    ∃ trailing named', GivenAs options trailing named' ∧ ∀ e : Engine,
      (entry price (id :: args) named).run e =
        (order price (id :: .text Side.buy.name :: qty :: trailing) named').run
          (e.noting (id, qty)) := by
  cases h with
  | @byPlace front trailing named hfront hgiven =>
    have hne := hplain.ne hgiven.subset
    have hfree : ∀ option ∈ named, option.1 ≠ "self" ∧ option.1 ≠ "id" := fun option hmem =>
      ⟨hne "self" (by decide) option hmem, hne "id" (by decide) option hmem⟩
    have hdirection := direction_append hfront (direction_of_isQuantity hqty trailing)
    have hread : ∀ default, entryQty default (Datum.find? "qty" named) (qty :: trailing) =
        (qty, trailing) := by
      intro default
      rw [find?_eq_none (hne "qty" (by decide)), entryQty_byPlace hqty]
    have hkept : (named.filter fun option => option.1 != "qty") = named :=
      List.filter_eq_self.2 fun option hmem => bne_iff_ne.2 (hne "qty" (by decide) option hmem)
    refine ⟨trailing, named, hgiven, fun e => ?_⟩
    rw [run_entry_of_read hfree hdirection hread, hkept]
  | @byName front trailing before after hfront hgiven =>
    have hne := hplain.ne hgiven.subset
    have hfree : ∀ option ∈ before ++ ("qty", qty) :: after,
        option.1 ≠ "self" ∧ option.1 ≠ "id" := by
      intro option hmem
      rw [List.mem_append, List.mem_cons, or_left_comm, ← List.mem_append] at hmem
      obtain rfl | hmem := hmem
      · exact ⟨by simp, by simp⟩
      · exact ⟨hne "self" (by decide) option hmem, hne "id" (by decide) option hmem⟩
    have hdirection := direction_append hfront (direction_of_givenAs hplain hgiven)
    have hread : ∀ default, entryQty default
        (Datum.find? "qty" (before ++ ("qty", qty) :: after)) trailing = (qty, trailing) := by
      intro default
      rw [find?_between (hne "qty" (by decide)), entryQty_byName hqty]
    refine ⟨trailing, before ++ after, hgiven, fun e => ?_⟩
    rw [run_entry_of_read hfree hdirection hread, filter_between (hne "qty" (by decide))]

/-! ### An entry that is noted before its order is placed -/

/-- **A computation overlooks an entry** in the states in which a name does not hold the entries: what
it comes to is the same, the entry aside, if the entry is noted first. And it comes to such a state. -/
def Overlooks (id : Value) (entry : Value × Value) (r : Trading α) : Prop :=
  ∀ e : Engine, ¬ id.Holds e .entries →
    r.run (e.noting entry) = ((r.run e).1, (r.run e).2.noting entry) ∧
      ¬ id.Holds (r.run e).2 .entries

/-- **A change passes an entry by**: it leaves the entries and the exits as they are, and it makes the same
of the strategy if the entry is noted first. -/
structure PassesBy (entry : Value × Value) (change : Engine → Engine) : Prop where
  /-- The entry may be noted before or after. -/
  noting : ∀ e : Engine, change (e.noting entry) = (change e).noting entry
  /-- The entries stay. -/
  entries : ∀ e, (change e).entries = e.entries
  /-- The exits stay. -/
  exits : ∀ e, (change e).exits = e.exits

section Overlooks

variable {α β : Type} {entry : Value × Value} {id : Value} {r : Request} {e : Engine}

/-- What such a change leaves does not hold the entries if what it found did not. -/
theorem PassesBy.not_holds {change : Engine → Engine} (h : PassesBy entry change)
    (he : ¬ id.Holds e .entries) : ¬ id.Holds (change e) .entries :=
  fun hafter => he (hafter.congr (h.entries e).symm (h.exits e).symm)

theorem overlooks_pure (a : α) : Overlooks id entry (pure a) := fun _ he => ⟨rfl, he⟩

theorem overlooks_lift (x : Except Fault α) : Overlooks id entry (liftM x : Trading α) := by
  intro e he
  cases x <;> exact ⟨rfl, he⟩

theorem overlooks_modify {change : Engine → Engine} (h : PassesBy entry change) :
    Overlooks id entry (modify change) := by
  intro e he
  refine ⟨?_, h.not_holds he⟩
  show (Except.ok PUnit.unit, change (e.noting entry)) = _
  rw [h.noting]
  rfl

theorem Overlooks.bind {m : Trading α} {f : α → Trading β} (h : Overlooks id entry m)
    (hf : ∀ a, Overlooks id entry (f a)) : Overlooks id entry (m >>= f) := by
  intro e he
  obtain ⟨hm, hafter⟩ := h e he
  rw [run_bind, run_bind, hm]
  rcases hrun : m.run e with ⟨fault | a, e'⟩
  · rw [hrun] at hafter
    exact ⟨rfl, hafter⟩
  · rw [hrun] at hafter
    exact hf a e' hafter

/-- What looks at the strategy first, and does the same with the entry noted. -/
theorem overlooks_get_bind {f : Engine → Trading β} (hf : ∀ e, Overlooks id entry (f e))
    (hsame : ∀ e : Engine, ¬ id.Holds e .entries → f (e.noting entry) = f e) :
    Overlooks id entry (get >>= f) := by
  intro e he
  rw [run_get_bind, run_get_bind, hsame e he]
  exact hf e e he

/-- A name that does not hold the entries is the same with one entry more. -/
theorem settled_noting (hid : ¬ id.Holds e .entries) :
    id.settled (e.noting entry) = id.settled e := by
  refine (Value.settled_congr fun part hpart => ?_).symm
  cases part with
  | entries => exact absurd hpart hid
  | state | orders | trades | exits => rfl

theorem overlooks_nameNow : Overlooks id entry (nameNow id) :=
  overlooks_get_bind (fun _ => overlooks_lift _) fun e he => by rw [settled_noting he]

/-- What computes something from the strategy, changes the strategy with it and goes on. -/
theorem overlooks_update {x : Engine → Except Fault α} {change : Engine → α → Engine}
    {f : α → Trading β} (hx : ∀ e : Engine, x (e.noting entry) = x e)
    (hchange : ∀ a, PassesBy entry (change · a)) (hf : ∀ a, Overlooks id entry (f a)) :
    Overlooks id entry (do
      let e ← get
      let a ← x e
      set (change e a)
      f a) := by
  intro e he
  rw [run_get_bind, run_get_bind, run_lift_bind, run_lift_bind, hx]
  cases x e with
  | error fault => exact ⟨rfl, he⟩
  | ok a =>
    show (f a).run (change (e.noting entry) a) = _ ∧ _
    rw [(hchange a).noting]
    exact hf a (change e a) ((hchange a).not_holds he)

theorem overlooks_applyBuy (qty : Int) (commission : Float) :
    Overlooks r.id entry (applyBuy r qty commission) :=
  overlooks_update (fun _ => rfl) (fun _ => ⟨fun _ => rfl, fun _ => rfl, fun _ => rfl⟩) fun _ =>
    overlooks_nameNow.bind fun _ => overlooks_modify ⟨fun _ => rfl, fun _ => rfl, fun _ => rfl⟩

theorem overlooks_applySell (qty : Int) (commission : Float) :
    Overlooks r.id entry (applySell r qty commission) :=
  overlooks_update (fun _ => rfl) (fun _ => ⟨fun _ => rfl, fun _ => rfl, fun _ => rfl⟩) fun _ =>
    overlooks_nameNow.bind fun _ => overlooks_modify ⟨fun _ => rfl, fun _ => rfl, fun _ => rfl⟩

/-- **Filling a request overlooks an entry**, if the name of the request does not hold the entries. -/
theorem overlooks_fill : Overlooks r.id entry (fill r) := by
  rw [fill]
  refine overlooks_get_bind (fun e => ?_) fun _ _ => rfl
  simp only []
  split
  · exact overlooks_nameNow.bind fun _ => overlooks_pure none
  · refine (overlooks_lift _).bind fun cost => overlooks_get_bind (fun e => ?_) fun _ _ => rfl
    refine .bind (overlooks_modify ⟨fun _ => rfl, fun _ => rfl, fun _ => rfl⟩) fun _ => ?_
    have hrecord (o : String → Order) : Overlooks r.id entry do
        let order := o (← nameNow r.id)
        modify fun e => { e with orders := e.orders ++ [order] }
        return some order :=
      overlooks_nameNow.bind fun _ =>
        .bind (overlooks_modify ⟨fun _ => rfl, fun _ => rfl, fun _ => rfl⟩) fun _ => overlooks_pure _
    cases r.side with
    | buy => exact (overlooks_applyBuy _ _).bind fun _ => hrecord _
    | sell => exact (overlooks_applySell _ _).bind fun _ => hrecord _

/-- **Nor does an order look at the entries**, if neither its name nor its action holds them. -/
theorem run_order_noting {action : Value} (hplain : PlainOptions options)
    (h : GivenAs options trailing named) (hid : ¬ id.Holds e .entries)
    (haction : ¬ action.Holds e .entries) (price : Except Fault Float) :
    (order price (id :: action :: qty :: trailing) named).run (e.noting entry) =
      (((order price (id :: action :: qty :: trailing) named).run e).1,
        ((order price (id :: action :: qty :: trailing) named).run e).2.noting entry) := by
  have hasked : (e.noting entry).asked price (id :: action :: qty :: trailing) named =
      e.asked price (id :: action :: qty :: trailing) named := by
    rw [asked_of_givenAs hplain h, asked_of_givenAs hplain h, request, request,
      settled_noting hid, settled_noting haction]
  rw [run_order, run_order, hasked]
  cases hrequest : e.asked price (id :: action :: qty :: trailing) named with
  | error fault => rfl
  | ok r? =>
    cases r? with
    | none => rfl
    | some r =>
      rw [asked_of_givenAs hplain h] at hrequest
      obtain ⟨rfl, -⟩ := of_request hrequest
      exact (overlooks_fill.bind (fun _ => overlooks_pure _) e hid).1

end Overlooks

/-! ### All forms -/

/-- **All forms of an order come to the same.** For every state, price, name, action and quantity, and
for options of different names none of which means something else: an order comes to the same in each
form of its options. For a number as the quantity, so does an entry in each form of the quantity and the
options. It comes to what an order for a purchase comes to after the entry is noted. The order may as
well come before the note, unless the name holds the entries at that time. -/
theorem run_forms (hplain : PlainOptions options) (price : Except Fault Float) (id qty : Value)
    (e : Engine) :
    (∀ action {trailing named trailing' named'}, GivenAs options trailing named →
      GivenAs options trailing' named' →
        (order price (id :: action :: qty :: trailing) named).run e =
          (order price (id :: action :: qty :: trailing') named').run e) ∧
    (qty.isQuantity → ∀ {args named args' named'}, EntryGivenAs options qty args named →
      EntryGivenAs options qty args' named' →
        (entry price (id :: args) named).run e = (entry price (id :: args') named').run e) ∧
    (qty.isQuantity → ∀ {args named trailing named'}, EntryGivenAs options qty args named →
      GivenAs options trailing named' →
        (entry price (id :: args) named).run e =
            (order price (id :: .text "buy" :: qty :: trailing) named').run (e.noting (id, qty)) ∧
          (¬ id.Holds e .entries →
            (entry price (id :: args) named).run e =
              (((order price (id :: .text "buy" :: qty :: trailing) named').run e).1,
                ((order price (id :: .text "buy" :: qty :: trailing) named').run e).2.noting
                  (id, qty)))) := by
  have horder {action : Value} {trailing named trailing' named'} (h : GivenAs options trailing named)
      (h' : GivenAs options trailing' named') (e : Engine) :=
    run_order_of_givenAs hplain h h' price id action qty e
  have hentry (hqty : qty.isQuantity) {args named trailing named'}
      (h : EntryGivenAs options qty args named) (h' : GivenAs options trailing named') :
      (entry price (id :: args) named).run e =
        (order price (id :: .text "buy" :: qty :: trailing) named').run (e.noting (id, qty)) := by
    obtain ⟨trailing'', named'', hgiven, hrun⟩ := run_entry_of_givenAs hplain hqty h price id
    rw [hrun e]
    exact horder hgiven h' _
  refine ⟨fun action _ _ _ _ h h' => horder h h' e, fun hqty _ _ _ _ h h' => ?_,
    fun hqty _ _ _ _ h h' => ⟨hentry hqty h h', fun hid => ?_⟩⟩
  · rw [hentry hqty h .named, hentry hqty h' .named]
  · rw [hentry hqty h h']
    exact run_order_noting hplain h' hid (Value.not_holds fun _ => rfl) price

/-- A purchase of four, of which two are filled. -/
theorem run_forms_halfFilled :
    let options : Options := [("slippage", .float 0.5), ("fillPercent", .float 0.5)]
    let e := fresh 0.25 (.int 1)
    (entry (.ok 100.0) [.text "a", .text "LONG", .dict options] [("qty", .int 4)]).run e =
      (((order (.ok 100.0) [.text "a", .text "buy", .int 4, .text "slippage", .float 0.5,
          .text "fillPercent", .float 0.5] []).run e).1,
        ((order (.ok 100.0) [.text "a", .text "buy", .int 4, .text "slippage", .float 0.5,
          .text "fillPercent", .float 0.5] []).run e).2.noting (.text "a", .int 4)) ∧
      ((entry (.ok 100.0) [.text "a", .text "LONG", .dict options] [("qty", .int 4)]).run
        e).2.position.size = 2 := by
  intro options e
  have hplain : PlainOptions options := ⟨by decide, by decide⟩
  have hentry : EntryGivenAs options (.int 4) ([.text "LONG"] ++ [.dict options])
      ([] ++ ("qty", .int 4) :: []) := .byName (.long rfl (by decide)) .mapping
  refine ⟨((run_forms hplain (.ok 100.0) (.text "a") (.int 4) e).2.2 rfl hentry
    (.pairs (.pair rfl (.pair rfl .nil)))).2 (Value.not_holds fun _ => rfl), ?_⟩
  decide +kernel

/-- **A name that holds the entries shows the entry itself**: an order shows it without. -/
theorem entry_shows_itself :
    ((entry (.ok 100.0) [.live .entries, .int 1] []).run (fresh 0.0 (.int 1))).2.orders.map Order.id ≠
      ((order (.ok 100.0) [.live .entries, .text "buy", .int 1] []).run
        (fresh 0.0 (.int 1))).2.orders.map Order.id := by
  decide +kernel

end Engine

end ChartScript
