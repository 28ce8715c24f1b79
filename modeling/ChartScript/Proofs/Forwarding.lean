import ChartScript.Proofs.Metering
import ChartScript.Proofs.Surplus

/-!
# Named arguments that are handed on

What further named arguments do to a call of the host (`ChartScript.HostFunction.call_extends`). The
functions that compute are settled in `ChartScript.Proofs.Surplus`. An input and a plot look at a title
among their options and at nothing else.

The calls of a strategy are another matter, since an entry and an exit hand on to their order whatever
they do not read themselves (`ChartScript.StrategyFunction.handsOn`). The order is given its side and
its quantity by place, and refuses the two by name. So an exit refuses more names while there is
something to sell than it does without. The whole point is
`ChartScript.StrategyFunction.refuses_iff`, which says where each refused name is refused. The functions
that show something of the strategy are of two kinds: the position and the profit take any argument, the
statistics and the latest price take none.
-/

namespace ChartScript

open Engine
open Grammar (bind_eq_ok)

/-! ### Orders -/

namespace Engine

/-- The options of an order. -/
def orderOptions : List String := ["slippage", "fillPercent", "fill_percent"]

/-- A request depends on no other options. -/
theorem request_congr {e : Engine} {price : Except Fault Float} {id action qty : Value}
    {options options' : Options}
    (h : ∀ name ∈ orderOptions, Datum.find? name options = Datum.find? name options') :
    request e price id action qty options = request e price id action qty options' := by
  rw [request, request, h "slippage" (by decide), h "fillPercent" (by decide),
    h "fill_percent" (by decide)]

section Asked

variable {extra : String → Bool} {named more : Options} {positional : List Value}
  {e : Engine} {price : Except Fault Float}

theorem overlaid_cons (options : Options) (option : String × Value) (more : Options) :
    overlaid options (option :: more) = overlaid (Datum.bind option.1 option.2 options) more := rfl

theorem find?_overlaid {name : String} (hname : extra name = false) {base base' : Options}
    (h : Extends extra named more) (hbase : Datum.find? name base' = Datum.find? name base) :
    Datum.find? name (overlaid base' more) = Datum.find? name (overlaid base named) := by
  induction more generalizing named base base' with
  | nil =>
    cases h
    exact hbase
  | cons option more ih =>
    obtain ⟨other, v⟩ := option
    rw [overlaid_cons]
    rcases hextra : extra other with _ | _
    · -- the option is on both sides
      rw [Extends, List.filter_cons_of_pos (by simp [hextra])] at h
      subst h
      rw [overlaid_cons]
      refine ih rfl ?_
      rcases eq_or_ne name other with rfl | hne
      · rw [Datum.find?_bind_self, Datum.find?_bind_self]
      · rw [Datum.find?_bind_of_ne hne, Datum.find?_bind_of_ne hne, hbase]
    · rw [Extends, List.filter_cons_of_neg (by simp [hextra])] at h
      refine ih h ?_
      rw [Datum.find?_bind_of_ne, hbase]
      rintro rfl
      rw [hname] at hextra
      cases hextra

/-- The options of an order are looked up with the same results. -/
theorem find?_mergedOptions {name : String} (hname : extra name = false) (h : Extends extra named more)
    (trailing : List Value) :
    Datum.find? name (mergedOptions trailing more) =
      Datum.find? name (mergedOptions trailing named) := by
  rw [mergedOptions.eq_def, mergedOptions.eq_def]
  split <;> exact find?_overlaid hname h rfl

/-- **An order with further options asks for the same.** -/
theorem asked_extends (h : Extends extra named more)
    (hoptions : ∀ name ∈ orderOptions, extra name = false)
    (hparams : ∀ name, orderSignature.hasParam name → extra name → Datum.find? name more = none)
    (hself : extra "self" → Datum.find? "self" more = none) {o : Option Request}
    (hasked : e.asked price positional named = .ok o) : e.asked price positional more = .ok o := by
  obtain ⟨⟨args, rest, options⟩, hbound, ho⟩ := bind_eq_ok hasked
  obtain ⟨rfl, hmore⟩ := Signature.bind_extends h rfl hparams (fun _ => hself) hbound
  rw [asked, hmore]
  dsimp only at ho
  split at ho
  · rw [← ho]
    exact request_congr fun name hname => find?_mergedOptions (hoptions name hname)
      (h.filter fun name => !orderSignature.hasParam name) rest
  · cases ho

/-- An order that is given a parameter twice, or the name of its object, is refused. -/
theorem asked_refused {name : String}
    (hname : name = "self" ∨ name ∈ (orderSignature.params.take positional.length).map Prod.fst)
    (hgiven : (Datum.find? name more).isSome) :
    e.asked price positional more = .error .wrongType := by
  have hbind : orderSignature.bind positional more = .error .wrongType := by
    obtain rfl | hplace := hname
    · exact Signature.bind_self rfl hgiven
    · exact Signature.bind_given_twice hplace hgiven
  rw [asked, hbind]
  rfl

end Asked

end Engine

/-! ### Calls of a strategy -/

/-- The named arguments that a function hands on to its order: those that it does not read itself. -/
def StrategyFunction.handsOn (f : StrategyFunction) (name : String) : Bool :=
  match f with
  | .entry => name != "id" && name != "qty"
  | .exit | .closeAll => name != "id"
  | .order | .position | .pnl | .summary | .priceSource => true

/-- The parameters and the options that a function of the strategy documents. -/
def StrategyFunction.documented : StrategyFunction → List String
  | .order => orderSignature.params.map Prod.fst ++ orderOptions
  | .entry => "id" :: "qty" :: orderOptions
  | .exit => "id" :: orderOptions
  | .closeAll => orderOptions
  | .position | .pnl | .summary | .priceSource => []

/-- What a function of the strategy refuses as the name of a further argument, though it documents
nothing of that name. -/
def StrategyFunction.refuses (holding : Bool) (f : StrategyFunction) (name : String) : Bool :=
  match f with
  | .order | .position | .pnl => name == "self"
  -- a side or a quantity is handed on to an order that is given both by place
  | .entry => name == "self" || name == "action"
  | .exit => name == "self" || holding && (name == "action" || name == "qty")
  | .closeAll => name == "self" || name == "id" || holding && (name == "action" || name == "qty")
  -- nothing at all is taken
  | .summary | .priceSource => true

/-- The options of an order are documented for every function that trades. -/
theorem StrategyFunction.mem_documented {f : StrategyFunction} (htrades : f.trades) {name : String}
    (hname : name ∈ orderOptions) : name ∈ f.documented := by
  cases f with
  | order => exact List.mem_append_right _ hname
  | entry => exact .tail _ (.tail _ hname)
  | exit => exact .tail _ hname
  | closeAll => exact hname
  | position | pnl | summary | priceSource => cases htrades

theorem hasParam_namedSignature (name : String) : namedSignature.hasParam name = (name == "id") := by
  simp [Signature.hasParam, namedSignature, Bool.beq_eq_decide_eq, eq_comm]

theorem hasParam_orderSignature (name : String) :
    orderSignature.hasParam name ↔ "id" = name ∨ "action" = name ∨ "qty" = name := by
  simp [Signature.hasParam, orderSignature]

/-- **Why a name is refused.** It is that of the object, or that of a parameter that is given by place:
either to the function itself, or to the order, to which the name is handed on. -/
theorem StrategyFunction.refuses_iff {holding : Bool} {f : StrategyFunction} (htrades : f.trades)
    {name : String} :
    f.refuses holding name ↔ name = "self" ∨ (f = .closeAll ∧ name = "id") ∨
      (f = .entry ∨ (f = .exit ∨ f = .closeAll) ∧ holding) ∧
        orderSignature.hasParam name ∧ f.handsOn name := by
  rw [hasParam_orderSignature]
  cases f with
  | order | entry | exit | closeAll => grind [refuses, handsOn]
  | position | pnl | summary | priceSource => cases htrades

/-- Whether there is something to sell. -/
def Engine.holding (e : Engine) : Bool := decide (0 < e.position.size)

namespace StrategyCall

variable {extra : String → Bool} {named more : Options} {positional : List Value} {e e' : Engine}
  {c : StrategyCall} {o : Option (List Value × Options)}

/-- The same call with other named arguments. -/
def withNamed (c : StrategyCall) (more : Options) : StrategyCall := { c with named := more }

/-- What an entry and an exit read of their arguments, and what they leave for an order. -/
theorem bind_namedSignature (hextends : Extends extra named more)
    (hself : extra "self" → Datum.find? "self" more = none)
    (hid : extra "id" → Datum.find? "id" more = none) {bound : Bound}
    (hbound : namedSignature.bind positional named = .ok bound) :
    bound.options = (named.filter fun arg => arg.1 != "id") ∧
      namedSignature.bind positional more =
        .ok { bound with options := more.filter fun arg => arg.1 != "id" } := by
  have hfilter (options : Options) : (options.filter fun arg => !namedSignature.hasParam arg.1) =
      options.filter fun arg => arg.1 != "id" :=
    List.filter_congr fun arg _ => by rw [hasParam_namedSignature]; rfl
  rw [← hfilter, ← hfilter]
  refine Signature.bind_extends hextends rfl (fun name hparam => ?_) (fun _ => hself) hbound
  rw [hasParam_namedSignature, beq_iff_eq] at hparam
  exact hparam ▸ hid

/-- **The order that a call prepares is given the arguments that are handed on**, and further named
arguments do not change anything else about it. -/
theorem prepared_withNamed (hextends : Extends extra c.named more)
    (hself : extra "self" → Datum.find? "self" more = none)
    (hid : extra "id" → Datum.find? "id" more = none)
    (hqty : c.function = .entry → extra "qty" = false) (h : c.prepared e = .ok (e', o)) :
    (∀ order ∈ o, order.2 = c.named.filter fun arg => c.function.handsOn arg.1) ∧
      (c.withNamed more).prepared e =
        .ok (e', o.map fun order =>
          (order.1, more.filter fun arg => c.function.handsOn arg.1)) := by
  obtain ⟨f, price, positional, named⟩ := c
  have hall (options : Options) : (options.filter fun _ => true) = options :=
    List.filter_eq_self.2 fun _ _ => rfl
  cases f with
  | order =>
    cases h
    refine ⟨?_, ?_⟩
    · rintro _ ⟨⟩
      exact (hall named).symm
    · show Except.ok (e, some (positional, more)) =
        .ok (e, some (positional, more.filter fun _ => true))
      rw [hall]
  | position | pnl | summary | priceSource =>
    cases h
    exact ⟨by simp, rfl⟩
  | entry =>
    obtain ⟨⟨args, rest, options⟩, hbound, h⟩ := bind_eq_ok h
    obtain ⟨rfl, hmore⟩ := bind_namedSignature hextends hself hid hbound
    have hfilter (options : Options) :
        ((options.filter fun arg => arg.1 != "id").filter fun arg => arg.1 != "qty") =
          options.filter fun arg => StrategyFunction.handsOn .entry arg.1 := by
      rw [List.filter_filter]
      exact List.filter_congr fun arg _ => Bool.and_comm _ _
    have hgiven : Datum.find? "qty" (more.filter fun arg => arg.1 != "id") =
        Datum.find? "qty" (named.filter fun arg => arg.1 != "id") :=
      (hextends.filter fun name => name != "id").find?_eq fun hextra => by
        rw [hqty rfl] at hextra
        cases hextra
    match args with
    | [id] =>
      cases h
      refine ⟨?_, ?_⟩
      · rintro _ ⟨⟩
        exact hfilter named
      · simp only [prepared, withNamed, arguments] at hmore ⊢
        rw [hmore]
        show Except.ok (_, some (_, _)) = _
        dsimp only
        rw [hgiven, hfilter]
        rfl
    | [] | _ :: _ :: _ => cases h
  | exit | closeAll =>
    obtain ⟨⟨args, rest, options⟩, hbound, h⟩ := bind_eq_ok h
    obtain ⟨rfl, hmore⟩ := bind_namedSignature hextends hself hid hbound
    match args with
    | [id] =>
      cases h
      refine ⟨?_, ?_⟩
      · intro order horder
        split_ifs at horder
        · cases horder
          rfl
        · cases horder
      · simp only [prepared, withNamed, arguments] at hmore ⊢
        rw [hmore]
        show Except.ok (_, ite _ _ _) = Except.ok (_, Option.map _ (ite _ _ _))
        split_ifs <;> rfl
    | [] | _ :: _ :: _ => cases h

/-- When there is an order to be placed, and that it is given its parameters by place if the call is
not an order itself. -/
theorem of_prepared_some {order : List Value × Options} (h : c.prepared e = .ok (e', some order)) :
    c.function = .order ∨
      (c.function = .entry ∨ (c.function = .exit ∨ c.function = .closeAll) ∧ e.holding) ∧
        3 ≤ order.1.length := by
  obtain ⟨f, price, positional, named⟩ := c
  cases f with
  | order => exact .inl rfl
  | position | pnl | summary | priceSource => cases h
  | entry =>
    obtain ⟨bound, -, h⟩ := bind_eq_ok h
    split at h
    · cases h
      exact .inr ⟨.inl rfl, by simp⟩
    · cases h
  | exit | closeAll =>
    obtain ⟨bound, -, h⟩ := bind_eq_ok h
    split at h
    · have horder := congrArg Prod.snd (Except.ok.inj h)
      dsimp only at horder
      split_ifs at horder with hholding
      cases horder
      exact .inr ⟨.inr ⟨by simp, decide_eq_true hholding⟩, by simp⟩
    · cases h

/-- Only an exit places no order, and only if there is nothing to sell. -/
theorem of_prepared_none (htrades : c.function.trades) (h : c.prepared e = .ok (e', none)) :
    (c.function = .exit ∨ c.function = .closeAll) ∧ e.holding = false := by
  obtain ⟨f, price, positional, named⟩ := c
  cases f with
  | order => cases h
  | position | pnl | summary | priceSource => cases htrades
  | entry =>
    obtain ⟨bound, -, h⟩ := bind_eq_ok h
    split at h <;> cases h
  | exit | closeAll =>
    obtain ⟨bound, -, h⟩ := bind_eq_ok h
    split at h
    · have horder := congrArg Prod.snd (Except.ok.inj h)
      dsimp only at horder
      split_ifs at horder with hholding
      exact ⟨by simp, decide_eq_false hholding⟩
    · cases h

theorem asked_withNamed_self (htrades : c.function.trades)
    (hgiven : (Datum.find? "self" more).isSome) : (c.withNamed more).asked e = .error .wrongType := by
  obtain ⟨f, price, positional, named⟩ := c
  cases f with
  | order => exact Engine.asked_refused (.inl rfl) hgiven
  | entry | exit | closeAll =>
    rw [asked, prepared]
    simp only [withNamed]
    rw [Signature.bind_self rfl hgiven]
    rfl
  | position | pnl | summary | priceSource => cases htrades

theorem asked_withNamed_id (hf : c.function = .closeAll) (hgiven : (Datum.find? "id" more).isSome) :
    (c.withNamed more).asked e = .error .wrongType := by
  obtain ⟨f, price, positional, named⟩ := c
  cases hf
  rw [asked, prepared]
  simp only [withNamed]
  rw [Signature.bind_given_twice (by simp [arguments, namedSignature]) hgiven]
  rfl

theorem eq_closeAll (htrades : c.function.trades)
    (hdocumented : ∀ name ∈ c.function.documented, extra name = false) (hextra : extra "id") :
    c.function = .closeAll := by
  cases hf : c.function with
  | closeAll => rfl
  | order | entry | exit =>
    rw [hdocumented "id" (by rw [hf]; decide)] at hextra
    cases hextra
  | position | pnl | summary | priceSource => rw [hf] at htrades; cases htrades

section Trading

variable {r? : Option Request} (htrades : c.function.trades) (hextends : Extends extra c.named more)
  (hdocumented : ∀ name ∈ c.function.documented, extra name = false)

include htrades hextends hdocumented

/-- **Further named arguments that are not refused leave the note and the request of a call as they
are.** -/
theorem asked_withNamed (hmeets : ¬ Meets extra (c.function.refuses e.holding) more)
    (h : c.asked e = .ok r?) :
    (c.withNamed more).asked e = .ok r? ∧ (c.withNamed more).noted e = c.noted e := by
  obtain ⟨⟨e', o⟩, hprepared, h⟩ := bind_eq_ok h
  have hself (hextra : extra "self") : Datum.find? "self" more = none :=
    find?_of_not_meets hmeets hextra ((StrategyFunction.refuses_iff htrades).2 (.inl rfl))
  have hid (hextra : extra "id") : Datum.find? "id" more = none :=
    find?_of_not_meets hmeets hextra ((StrategyFunction.refuses_iff htrades).2
      (.inr (.inl ⟨eq_closeAll htrades hdocumented hextra, rfl⟩)))
  obtain ⟨hhanded, hmore⟩ := prepared_withNamed hextends hself hid
    (fun hf => hdocumented "qty" (by rw [hf]; decide)) hprepared
  refine ⟨?_, by rw [noted, noted, hmore, hprepared]⟩
  rw [asked, hmore]
  cases o with
  | none => exact h
  | some order =>
    obtain ⟨positional, named⟩ := order
    obtain rfl := hhanded _ rfl
    refine Engine.asked_extends (hextends.filter c.function.handsOn)
      (fun name hname => hdocumented name (StrategyFunction.mem_documented htrades hname))
      (fun name hparam hextra => ?_) (fun hextra => ?_) h
    · rw [Datum.find?_filter]
      split_ifs with hhands
      · obtain horder | ⟨hplaces, -⟩ := of_prepared_some hprepared
        · have hmem : name ∈ c.function.documented := by
            rw [horder]
            exact List.mem_append_left _ (Signature.mem_params hparam)
          rw [hdocumented name hmem] at hextra
          cases hextra
        · exact find?_of_not_meets hmeets hextra
            ((StrategyFunction.refuses_iff htrades).2 (.inr (.inr ⟨hplaces, hparam, hhands⟩)))
      · rfl
    · rw [Datum.find?_filter, hself hextra, ite_self]

/-- **A call that is given a name that it refuses comes to no request.** -/
theorem asked_withNamed_of_meets (hmeets : Meets extra (c.function.refuses e.holding) more)
    (h : c.asked e = .ok r?) : (c.withNamed more).asked e = .error .wrongType := by
  obtain ⟨⟨e', o⟩, hprepared, h⟩ := bind_eq_ok h
  obtain ⟨name, hextra, hrefused, hgiven⟩ := hmeets
  by_cases hself : (Datum.find? "self" more).isSome
  · exact asked_withNamed_self htrades hself
  by_cases hid : c.function = .closeAll ∧ (Datum.find? "id" more).isSome
  · exact asked_withNamed_id hid.1 hid.2
  obtain ⟨-, hmore⟩ := prepared_withNamed hextends (fun _ => by simpa using hself)
    (fun hextra => by simpa [eq_closeAll htrades hdocumented hextra] using hid)
    (fun hf => hdocumented "qty" (by rw [hf]; decide)) hprepared
  rw [asked, hmore]
  obtain rfl | ⟨hf, rfl⟩ | ⟨hplaces, hparam, hhands⟩ :=
    (StrategyFunction.refuses_iff htrades).1 hrefused
  · exact absurd hgiven hself
  · exact absurd ⟨hf, hgiven⟩ hid
  · cases o with
    | none =>
      obtain ⟨hf, hholding⟩ := of_prepared_none htrades hprepared
      obtain hentry | ⟨-, hholding'⟩ := hplaces
      · rw [hentry] at hf
        simp at hf
      · rw [hholding] at hholding'
        cases hholding'
    | some order =>
      refine Engine.asked_refused (.inr ?_) (by rwa [Datum.find?_filter, if_pos hhands])
      obtain horder | ⟨-, hlength⟩ := of_prepared_some hprepared
      · simp [horder] at hplaces
      · rw [List.take_of_length_le hlength]
        exact Signature.mem_params hparam

end Trading

theorem run_anything_bind (positional : List Value) (named : Options) (r : Trading Value) :
    (do let _ ← Signature.anything.bind positional named; r : Trading Value).run e =
      if (Datum.find? "self" named).isSome then (.error .wrongType, e) else r.run e := by
  rw [run_lift_bind, Signature.bind_anything]
  split_ifs <;> rfl

theorem perform_withNamed_of_not_trades (htrades : c.function.trades = false)
    (hextends : Extends extra c.named more) {v : Value} (hrun : c.perform.run e = (.ok v, e')) :
    Undisturbed extra (c.function.refuses e.holding) more (.ok v, e')
      ((c.withNamed more).perform.run e) := by
  obtain ⟨f, price, positional, named⟩ := c
  cases f with
  | order | entry | exit | closeAll => cases htrades
  | position | pnl =>
    simp only [perform, call, withNamed, run_anything_bind] at hrun ⊢
    refine ⟨fun hmeets => ?_, fun hmeets => ?_⟩
    · rw [hextends.find?_eq fun hextra => find?_of_not_meets hmeets hextra rfl]
      exact hrun
    · rw [if_pos (isSelf_of_meets hmeets)]
  | summary | priceSource =>
    refine ⟨fun hmeets => ?_, fun hmeets => ?_⟩
    · rw [hextends.eq_of_not_meets hmeets]
      exact hrun
    · obtain ⟨name, -, -, hgiven⟩ := hmeets
      rw [perform]
      simp only [withNamed, call]
      rw [run_lift_bind, Signature.bind_no_options rfl rfl hgiven]

/-- **What further named arguments do to a call that succeeds without them**: nothing, unless one of
them is refused. -/
theorem perform_withNamed (hextends : Extends extra c.named more)
    (hdocumented : ∀ name ∈ c.function.documented, extra name = false) {v : Value}
    (hrun : c.perform.run e = (.ok v, e')) :
    Undisturbed extra (c.function.refuses e.holding) more (.ok v, e')
      ((c.withNamed more).perform.run e) := by
  rcases htrades : c.function.trades with _ | _
  · exact perform_withNamed_of_not_trades htrades hextends hrun
  obtain ⟨r?, hasked⟩ : ∃ r?, c.asked e = .ok r? := by
    rw [run_perform htrades] at hrun
    split at hrun
    · cases hrun
    · exact ⟨_, ‹_›⟩
    · exact ⟨_, ‹_›⟩
  rw [run_perform htrades, hasked] at hrun
  refine ⟨fun hmeets => ?_, fun hmeets => ?_⟩
  · obtain ⟨hmore, hnoted⟩ := asked_withNamed htrades hextends hdocumented hmeets hasked
    rw [run_perform (c := c.withNamed more) htrades, hmore, hnoted]
    exact hrun
  · rw [run_perform (c := c.withNamed more) htrades,
      asked_withNamed_of_meets htrades hextends hdocumented hmeets hasked]

end StrategyCall

/-! ### Calls of the host -/

/-- Whether the host itself offers a function, and not an embedder. -/
def HostFunction.isOffered : HostFunction → Bool
  | .gather | .echo => false
  | _ => true

/-- The parameters and the options that a function documents. -/
def HostFunction.documented : HostFunction → List String
  | .ta (.indicator i) => i.signature.params.map Prod.fst
  | .ta (.crossing _) => Crossing.signature.params.map Prod.fst
  | .ta .avg | .ta .max | .ta .min => ["length"]
  | .math f => f.signature.params.map Prod.fst
  | .rgb => rgbSignature.params.map Prod.fst
  | .security => securitySignature.params.map Prod.fst
  | .input => "title" :: inputSignature.params.map Prod.fst
  | .plot => "title" :: plotSignature.params.map Prod.fst
  | .strategy f => f.documented
  | .gather | .echo => []

/-- What a call refuses as the name of a further argument, though nothing of that name is
documented. -/
def HostFunction.refuses (env : Env) (positional : List Value) (f : HostFunction) (name : String) :
    Bool :=
  match f with
  -- no member of an object
  | .plot => false
  -- the arguments are handed on to an indicator, whose source is given by place
  | .ta .avg | .ta .max | .ta .min =>
    name == "self" || name == "source" && isSourced (Value.settledAll env.engine positional)
  | .strategy f => f.refuses env.engine.holding name
  | _ => name == "self"

/-- The environment after a call, but for the options of a plot that the call has added. -/
def Env.SameButOptions (env env' env'' : Env) : Prop :=
  env'' = env' ∨ ∃ p options, env'.plots = env.plots ++ [p] ∧
    env'' = { env' with plots := env.plots ++ [{ p with options }] }

section Host

variable {extra refuses : String → Bool} {named more : Options} {positional : List Value}
  {env env' : Env} {v : Value}

theorem meets_settledEntries (e : Engine) :
    Meets extra refuses (Value.settledEntries e more) ↔ Meets extra refuses more := by
  simp only [Meets, Value.find?_settledEntries, Option.isSome_map]

theorem run_computed (f : List Value → Options → Except Fault Value) (positional : List Value)
    (named : Options) (env : Env) :
    (computed f positional named).run env =
      (f (Value.settledAll env.engine positional) (Value.settledEntries env.engine named), env) :=
  run_ofExcept _ env

theorem undisturbed_computed {f : List Value → Options → Except Fault Value}
    (hf : Ignores extra refuses (f (Value.settledAll env.engine positional)))
    (h : Extends extra named more) (hrun : (computed f positional named).run env = (.ok v, env')) :
    Undisturbed extra refuses more (.ok v, env') ((computed f positional more).run env) := by
  rw [run_computed, Prod.mk.injEq] at hrun
  obtain ⟨hv, rfl⟩ := hrun
  obtain ⟨hsame, hrefused⟩ := hf _ _ v (h.settled env.engine) hv
  rw [meets_settledEntries] at hsame hrefused
  rw [run_computed]
  exact ⟨fun hmeets => by rw [hsame hmeets], fun hmeets => by rw [hrefused hmeets]⟩

theorem titleOf_extends (h : Extends extra named more) (htitle : extra "title" = false)
    (rest : List Value) : titleOf rest more = titleOf rest named := by
  unfold titleOf
  rw [h.find?_eq]
  intro hextra
  rw [htitle] at hextra
  cases hextra

theorem undisturbed_input (h : Extends extra named more) (htitle : extra "title" = false)
    (hparams : ∀ name ∈ inputSignature.params.map Prod.fst, extra name = false)
    (hrun : (input positional named).run env = (.ok v, env')) :
    Undisturbed extra (· == "self") more (.ok v, env') ((input positional more).run env) := by
  rw [input, run_bind, run_ofExcept] at hrun ⊢
  refine ⟨fun hmeets => ?_, fun hmeets => ?_⟩
  · cases hbound : inputSignature.bind positional named with
    | error fault =>
      rw [hbound] at hrun
      cases hrun
    | ok bound =>
      have hself (hextra : extra "self") : Datum.find? "self" more = none :=
        find?_of_not_meets hmeets hextra rfl
      obtain ⟨hoptions, hmore⟩ :=
        Signature.bind_extends h rfl (find?_of_documented hparams) (fun _ => hself) hbound
      have hsame :=
        titleOf_extends (h.filter fun name => !inputSignature.hasParam name) htitle bound.rest
      rw [← hoptions] at hsame
      rw [hbound] at hrun
      rw [hmore]
      dsimp only at hrun ⊢
      rw [hsame]
      exact hrun
  · rw [Signature.bind_self rfl (isSelf_of_meets hmeets)]

theorem sameButOptions_plot (h : Extends extra named more) (htitle : extra "title" = false)
    (hparams : ∀ name ∈ plotSignature.params.map Prod.fst, extra name = false)
    (hrun : (plot positional named).run env = (.ok v, env')) :
    ∃ env'', (plot positional more).run env = (.ok v, env'') ∧ env.SameButOptions env' env'' := by
  rw [plot, run_bind, run_ofExcept] at hrun ⊢
  cases hbound : plotSignature.bind positional named with
  | error fault =>
    rw [hbound] at hrun
    cases hrun
  | ok bound =>
    obtain ⟨hoptions, hmore⟩ :=
      Signature.bind_extends h rfl (find?_of_documented hparams) nofun hbound
    have hsame :=
      titleOf_extends (h.filter fun name => !plotSignature.hasParam name) htitle bound.rest
    rw [← hoptions] at hsame
    rw [hbound] at hrun
    rw [hmore]
    dsimp only at hrun ⊢
    rw [hsame]
    cases hrun
    exact ⟨_, rfl, .inr ⟨_, _, rfl, rfl⟩⟩

theorem undisturbed_strategy (f : StrategyFunction) (price : Except Fault Float)
    (h : Extends extra named more) (hdocumented : ∀ name ∈ f.documented, extra name = false)
    (hrun : (withEngine (Engine.call f price positional named)).run env = (.ok v, env')) :
    Undisturbed extra (f.refuses env.engine.holding) more (.ok v, env')
      ((withEngine (Engine.call f price positional more)).run env) := by
  rw [run_withEngine, Prod.mk.injEq] at hrun
  obtain ⟨hv, rfl⟩ := hrun
  obtain ⟨hsame, hrefused⟩ := StrategyCall.perform_withNamed
    (c := { function := f, price, positional, named }) h hdocumented (Prod.ext hv rfl)
  rw [run_withEngine]
  refine ⟨fun hmeets => ?_, fun hmeets => hrefused hmeets⟩
  rw [show (Engine.call f price positional more).run env.engine = _ from hsame hmeets]
  rfl

/-- **What further named arguments do to a call of the host that succeeds without them.** The call
comes to the same value and has the same effects, but for the options of a plot, unless one of the
arguments is refused. Then the call fails. -/
theorem HostFunction.call_extends (f : HostFunction) (hoffered : f.isOffered)
    (hdocumented : ∀ name ∈ f.documented, extra name = false) (h : Extends extra named more)
    (hrun : (f.call positional named).run env = (.ok v, env')) :
    (¬ Meets extra (f.refuses env positional) more →
      ∃ env'', (f.call positional more).run env = (.ok v, env'') ∧
        env.SameButOptions env' env'') ∧
    (Meets extra (f.refuses env positional) more →
      ((f.call positional more).run env).1 = .error .wrongType) := by
  suffices hother : f ≠ .plot → Undisturbed extra (f.refuses env positional) more (.ok v, env')
      ((f.call positional more).run env) by
    rcases eq_or_ne f .plot with rfl | hf
    · refine ⟨fun _ => ?_, ?_⟩
      · exact sameButOptions_plot h (hdocumented "title" (.head _))
          (fun name hname => hdocumented name (.tail _ hname)) hrun
      · rintro ⟨name, -, hrefused, -⟩
        cases hrefused
    · exact ⟨fun hmeets => ⟨env', (hother hf).1 hmeets, .inl rfl⟩, (hother hf).2⟩
  intro hf
  cases f with
  | ta f =>
    cases f with
    | indicator i => exact undisturbed_computed (i.ignores hdocumented) h hrun
    | crossing c => exact undisturbed_computed (c.ignores hdocumented) h hrun
    | avg | max | min =>
      exact undisturbed_computed (ignores_overloaded _ _ (hdocumented "length" (.head _))) h hrun
  | math f => exact undisturbed_computed (f.ignores hdocumented) h hrun
  | rgb => exact undisturbed_computed (ignores_rgb hdocumented) h hrun
  | security => exact undisturbed_computed (ignores_security env hdocumented) h hrun
  | input =>
    exact undisturbed_input h (hdocumented "title" (.head _))
      (fun name hname => hdocumented name (.tail _ hname)) hrun
  | plot => exact absurd rfl hf
  | strategy f =>
    rw [HostFunction.call, run_get_bind] at hrun ⊢
    exact undisturbed_strategy f env.latestPrice h hdocumented hrun
  | gather | echo => cases hoffered

end Host

theorem HostFunction.call_extends_closeAll :
    let env := Env.ofBindings [] .unlimited
    let env' := { env with engine := { env.engine with exits := [.text "close_all"] } }
    (HostFunction.strategy .closeAll).isOffered ∧
    (∀ name ∈ (HostFunction.strategy .closeAll).documented, (name == "foo") = false) ∧
    Extends (· == "foo") [] [("foo", .int 1)] ∧
    ((HostFunction.strategy .closeAll).call [] []).run env = (.ok .null, env') ∧
    ∃ env'', ((HostFunction.strategy .closeAll).call [] [("foo", .int 1)]).run env =
      (.ok .null, env'') ∧ env.SameButOptions env' env'' := by
  have hmeets : ¬ Meets (· == "foo")
      ((HostFunction.strategy .closeAll).refuses (Env.ofBindings [] .unlimited) [])
      [("foo", .int 1)] := by
    rintro ⟨name, hname, hrefused, -⟩
    rw [beq_iff_eq.1 hname] at hrefused
    cases hrefused
  exact ⟨rfl, by decide, rfl, rfl,
    ((HostFunction.strategy .closeAll).call_extends rfl (by decide) rfl rfl).1 hmeets⟩

/-- The statistics are refused with an argument of which nothing is known. -/
theorem HostFunction.summary_with_unknown :
    let env := Env.ofBindings (hostBindings (closingPrices 200 100.0 0.5)) .unlimited
    Env.fresh PlainMethods.untold .null none = .ok env ∧
    (∃ v, (((HostFunction.strategy .summary).call [] []).run env).1 = .ok v) ∧
    (((HostFunction.strategy .summary).call [] [("foo", .int 1)]).run env).1 =
      .error .wrongType :=
  ⟨Env.fresh_standard .null, ⟨_, rfl⟩, rfl⟩

end ChartScript
