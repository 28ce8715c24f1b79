import ChartScript.Proofs.Calls

/-!
# Named arguments that nobody asked for

What happens to a call when it is given further named arguments, of which the function documents
nothing (`ChartScript.Extends`). Most functions take any named argument and do not look at it, and so
the call is the same as before. The one exception is a name that the function refuses
(`ChartScript.Meets`): every function of an object refuses `self`, which is the name of the object. The
two sides together are `ChartScript.Ignores`, and it is shown here for the functions that compute.

A function that serves two ends takes all its arguments as they come and hands them on to an indicator
if the first one is a source. The indicator is then given its source by place, and refuses it by name.
-/

namespace ChartScript

open Engine
open Grammar (bind_eq_ok)

/-! ### Further named arguments -/

/-- Named arguments with further ones anywhere among them. The names of the further ones are told by
`extra`. -/
def Extends (extra : String → Bool) (named more : Options) : Prop :=
  (more.filter fun option => !extra option.1) = named

section Extends

variable {extra : String → Bool} {named more : Options} {name : String}

theorem Datum.find?_filter {α : Type} (p : String → Bool) (entries : List (String × α)) (name : String) :
    Datum.find? name (entries.filter fun entry => p entry.1) =
      if p name then Datum.find? name entries else none := by
  induction entries with
  | nil => simp
  | cons entry entries ih =>
    rw [Datum.find?_cons]
    rcases hp : p entry.1 with _ | _
    · rw [List.filter_cons_of_neg (by simp [hp]), ih]
      split
      · rename_i hname
        rw [if_neg]
        rintro rfl
        rw [hp] at hname
        cases hname
      · rfl
    · rw [List.filter_cons_of_pos (by simp [hp]), Datum.find?_cons, ih]
      split
      · rename_i hname
        rw [← hname, hp]
        rfl
      · rfl

/-- A name is looked up with the same result, unless it is that of a further argument. -/
theorem Extends.find?_eq (h : Extends extra named more)
    (hclear : extra name → Datum.find? name more = none) :
    Datum.find? name more = Datum.find? name named := by
  rw [← h, Datum.find?_filter fun name => !extra name]
  rcases hextra : extra name with _ | _
  · rfl
  · exact hclear hextra

/-- Other arguments may be left out on both sides. -/
theorem Extends.filter (h : Extends extra named more) (p : String → Bool) :
    Extends extra (named.filter fun option => p option.1) (more.filter fun option => p option.1) := by
  rw [Extends, ← h, List.filter_filter, List.filter_filter]
  exact List.filter_congr fun option _ => Bool.and_comm _ _

/-- The values may be replaced by what they hold now. -/
theorem Extends.settled (h : Extends extra named more) (e : Engine) :
    Extends extra (Value.settledEntries e named) (Value.settledEntries e more) := by
  rw [Extends, Value.settledEntries, List.filter_map, ← h]
  rfl

theorem Value.find?_settledEntries (e : Engine) (more : Options) (name : String) :
    Datum.find? name (Value.settledEntries e more) =
      (Datum.find? name more).map (Value.settled e) := by
  induction more with
  | nil => rfl
  | cons option more ih =>
    rw [Value.settledEntries, List.map_cons, Datum.find?_cons, Datum.find?_cons, ← Value.settledEntries,
      ih]
    split <;> rfl

end Extends

/-! ### Signatures -/

namespace Signature

variable {s : Signature} {extra : String → Bool} {named more : Options} {positional : List Value}
  {bound : Bound} {name : String}

theorem mem_params (hparam : s.hasParam name) : name ∈ s.params.map Prod.fst := by
  obtain ⟨param, hmem, hname⟩ := List.any_eq_true.1 hparam
  exact List.mem_map.2 ⟨param, hmem, beq_iff_eq.1 hname⟩

/-- What is bound to parameters depends on the arguments that are named like them. -/
theorem bindParams_congr {params : List (String × Option Value)}
    (h : ∀ param ∈ params, Datum.find? param.1 more = Datum.find? param.1 named) :
    bindParams more params positional = bindParams named params positional := by
  induction params generalizing positional with
  | nil => rfl
  | cons param params ih =>
    obtain ⟨name, default?⟩ := param
    obtain ⟨hname, hparams⟩ := List.forall_mem_cons.1 h
    cases positional with
    | nil => rw [bindParams, bindParams, hname, ih hparams]
    | cons v positional => rw [bindParams, bindParams, hname, ih hparams]

/-- A parameter that is given by its place must not be given by its name as well. -/
theorem bindParams_eq_none {params : List (String × Option Value)}
    (hplace : name ∈ (params.take positional.length).map Prod.fst)
    (hgiven : (Datum.find? name more).isSome) : bindParams more params positional = none := by
  induction params generalizing positional with
  | nil => simp at hplace
  | cons param params ih =>
    obtain ⟨other, default?⟩ := param
    cases positional with
    | nil => simp at hplace
    | cons v positional =>
      rw [bindParams]
      split
      · rfl
      · rename_i hother
        rw [List.length_cons, List.take_succ_cons, List.map_cons, List.mem_cons] at hplace
        obtain rfl | hplace := hplace
        · exact absurd hgiven hother
        · rw [ih hplace]
          rfl

theorem bind_given_twice (hplace : name ∈ (s.params.take positional.length).map Prod.fst)
    (hgiven : (Datum.find? name more).isSome) : s.bind positional more = .error .wrongType := by
  rw [bind, bindParams_eq_none hplace hgiven]
  split_ifs <;> rfl

theorem bind_self (hmember : s.isMember) (hgiven : (Datum.find? "self" more).isSome) :
    s.bind positional more = .error .wrongType := by
  rw [bind, if_pos (by rw [hmember, hgiven]; rfl)]

theorem bind_no_options (htakes : s.takesOptions = false) (hparam : s.hasParam name = false)
    (hgiven : (Datum.find? name more).isSome) : s.bind positional more = .error .wrongType := by
  have hoptions : (more.filter fun arg => !s.hasParam arg.1).isEmpty = false := by
    rw [List.isEmpty_eq_false_iff, ne_eq, List.filter_eq_nil_iff]
    intro hall
    obtain ⟨v, hv⟩ := Option.isSome_iff_exists.1 hgiven
    obtain ⟨option, hfound, -⟩ := Option.map_eq_some_iff.1 hv
    have hname := List.find?_some hfound
    rw [beq_iff_eq] at hname
    exact hall option (List.mem_of_find?_eq_some hfound) (by rw [hname, hparam]; rfl)
  rw [bind, htakes, hoptions]
  split_ifs <;> first | rfl | simp_all

/-- **Further named arguments become further options**, unless one of them is named like a parameter or
like the object that a member belongs to. -/
theorem bind_extends (h : Extends extra named more) (htakes : s.takesOptions)
    (hparams : ∀ name, s.hasParam name → extra name → Datum.find? name more = none)
    (hself : s.isMember → extra "self" → Datum.find? "self" more = none)
    (hbound : s.bind positional named = .ok bound) :
    bound.options = (named.filter fun arg => !s.hasParam arg.1) ∧
      s.bind positional more =
        .ok { bound with options := more.filter fun arg => !s.hasParam arg.1 } := by
  have hargs : bindParams more s.params positional = bindParams named s.params positional :=
    bindParams_congr fun param hparam => h.find?_eq
      (hparams param.1 (List.any_eq_true.2 ⟨param, hparam, by simp⟩))
  rw [bind, htakes] at hbound ⊢
  split_ifs at hbound with hmember hrest hoptions
  · have hmember' : ¬(s.isMember && (Datum.find? "self" more).isSome) := by
      intro hself'
      rw [Bool.and_eq_true] at hself'
      rw [h.find?_eq (hself hself'.1)] at hself'
      exact hmember (by simpa using hself')
    rw [if_neg hmember', if_neg hrest, if_neg (by simp), hargs]
    split at hbound
    · rename_i args hbind
      cases hbound
      exact ⟨rfl, rfl⟩
    · cases hbound

end Signature

/-! ### Functions that compute -/

/-- Some further argument has a name that is refused. -/
def Meets (extra refuses : String → Bool) (more : Options) : Prop :=
  ∃ name, extra name ∧ refuses name ∧ (Datum.find? name more).isSome

/-- **What further named arguments do to a computation that succeeds without them**: nothing, unless
one of them is refused. -/
def Ignores {α : Type} (extra refuses : String → Bool) (f : Options → Except Fault α) : Prop :=
  ∀ named more a, Extends extra named more → f named = .ok a →
    (¬ Meets extra refuses more → f more = .ok a) ∧
    (Meets extra refuses more → f more = .error .wrongType)

/-- The same for a computation with a state, from the outcome without the further arguments and the one
with them. -/
def Undisturbed {σ : Type} (extra refuses : String → Bool) (more : Options)
    (outcome outcome' : Except Fault Value × σ) : Prop :=
  (¬ Meets extra refuses more → outcome' = outcome) ∧
  (Meets extra refuses more → outcome'.1 = .error .wrongType)

section Ignores

variable {α : Type} {extra refuses : String → Bool} {named more : Options}
  {positional : List Value}

/-- A name that is not refused is not given. -/
theorem find?_of_not_meets (h : ¬ Meets extra refuses more) {name : String} (hextra : extra name)
    (hrefuses : refuses name) : Datum.find? name more = none := by
  by_contra hne
  exact h ⟨name, hextra, hrefuses, Option.isSome_iff_ne_none.2 hne⟩

/-- Where every name is refused, there is nothing further. -/
theorem Extends.eq_of_not_meets (h : Extends extra named more)
    (hmeets : ¬ Meets extra (fun _ => true) more) : more = named := by
  rw [← h, eq_comm, List.filter_eq_self]
  intro option hoption
  by_contra hextra
  refine hmeets ⟨option.1, by simpa using hextra, rfl, ?_⟩
  rw [Datum.find?, Option.isSome_map, List.find?_isSome]
  exact ⟨option, hoption, beq_self_eq_true _⟩

theorem isSelf_of_meets (h : Meets extra (· == "self") more) : (Datum.find? "self" more).isSome := by
  obtain ⟨name, -, hname, hgiven⟩ := h
  rwa [beq_iff_eq.1 hname] at hgiven

/-- What does not look at the options of a call is the same with further ones. -/
theorem bind_of_extends {s : Signature} (htakes : s.takesOptions) {f : Bound → Except Fault α}
    (hf : ∀ (bound : Bound) options, f { bound with options } = f bound) (h : Extends extra named more)
    (hparams : ∀ name, s.hasParam name → extra name → Datum.find? name more = none)
    (hself : s.isMember → extra "self" → Datum.find? "self" more = none) {a : α}
    (ha : s.bind positional named >>= f = .ok a) : s.bind positional more >>= f = .ok a := by
  obtain ⟨bound, hbound, ha⟩ := bind_eq_ok ha
  rw [(Signature.bind_extends h htakes hparams hself hbound).2]
  exact (hf bound _).trans ha

/-- Documented parameters are not among the names of further arguments. -/
theorem find?_of_documented {s : Signature}
    (hdocumented : ∀ name ∈ s.params.map Prod.fst, extra name = false) (name : String)
    (hparam : s.hasParam name) (hextra : extra name) : Datum.find? name more = none := by
  rw [hdocumented name (Signature.mem_params hparam)] at hextra
  cases hextra

/-- A member that does not look at its options refuses only the name of its object. -/
theorem ignores_bind {s : Signature} (hmember : s.isMember) (htakes : s.takesOptions)
    (hdocumented : ∀ name ∈ s.params.map Prod.fst, extra name = false) {f : Bound → Except Fault α}
    (hf : ∀ (bound : Bound) options, f { bound with options } = f bound) :
    Ignores extra (· == "self") fun named => s.bind positional named >>= f := by
  refine fun named more a h ha => ⟨fun hmeets => ?_, fun hmeets => ?_⟩
  · exact bind_of_extends htakes hf h (find?_of_documented hdocumented)
      (fun _ hself => find?_of_not_meets hmeets hself rfl) ha
  · show s.bind positional more >>= f = _
    rw [Signature.bind_self hmember (isSelf_of_meets hmeets)]
    rfl

theorem Indicator.ignores (i : Indicator)
    (hdocumented : ∀ name ∈ i.signature.params.map Prod.fst, extra name = false) :
    Ignores extra (· == "self") (i.call positional) :=
  ignores_bind rfl rfl hdocumented fun _ _ => rfl

theorem Crossing.ignores (c : Crossing)
    (hdocumented : ∀ name ∈ Crossing.signature.params.map Prod.fst, extra name = false) :
    Ignores extra (· == "self") (c.call positional) :=
  ignores_bind rfl rfl hdocumented fun _ _ => rfl

theorem MathFunction.ignores (f : MathFunction)
    (hdocumented : ∀ name ∈ f.signature.params.map Prod.fst, extra name = false) :
    Ignores extra (· == "self") (f.call positional) := by
  refine ignores_bind ?_ ?_ hdocumented fun _ _ => rfl
  · cases f <;> rfl
  · cases f <;> rfl

theorem ignores_rgb (hdocumented : ∀ name ∈ rgbSignature.params.map Prod.fst, extra name = false) :
    Ignores extra (· == "self") (rgb positional) :=
  ignores_bind rfl rfl hdocumented fun _ _ => rfl

theorem ignores_security (env : Env)
    (hdocumented : ∀ name ∈ securitySignature.params.map Prod.fst, extra name = false) :
    Ignores extra (· == "self") (security env positional) :=
  ignores_bind rfl rfl hdocumented fun _ _ => rfl

/-- Whether arguments make an indicator of a function that serves two ends: the first is a source, and
at most a length follows. -/
def isSourced : List Value → Bool
  | [] => false
  | first :: rest => (first.toSeries? matches .ok (some _)) && rest.length ≤ 1

theorem seriesOrNumbers_of_isSourced (i : Indicator) (r : Reduction) (h : isSourced positional)
    (options : Options) : seriesOrNumbers i r positional options = i.call positional options := by
  cases positional with
  | nil => cases h
  | cons first rest =>
    rw [isSourced, Bool.and_eq_true] at h
    obtain ⟨hsource, hlength⟩ := h
    rw [seriesOrNumbers]
    split at hsource
    · rename_i s hs
      rw [hs]
      show (if _ then _ else _) = _
      rw [if_pos (by simpa using hlength)]
    · cases hsource

theorem seriesOrNumbers_of_not_isSourced (i : Indicator) (r : Reduction)
    (h : isSourced positional = false) (options options' : Options) :
    seriesOrNumbers i r positional options = seriesOrNumbers i r positional options' := by
  cases positional with
  | nil => rfl
  | cons first rest =>
    rw [seriesOrNumbers, seriesOrNumbers]
    rcases hs : first.toSeries? with fault | _ | s
    · rfl
    · rfl
    · rw [isSourced, hs] at h
      have hlength : ¬ rest.length ≤ 1 := by simpa using h
      show (if _ then _ else _) = (if _ then _ else _)
      rw [if_neg (by simpa using hlength), if_neg (by simpa using hlength)]

/-- **A function that serves two ends** refuses the name of its source where it is an indicator. -/
theorem ignores_overloaded (i : Indicator) (r : Reduction) (hextra : extra "length" = false) :
    Ignores extra (fun name => name == "self" || name == "source" && isSourced positional)
      fun named => Signature.anything.bind positional named >>= fun bound =>
        seriesOrNumbers i r bound.rest bound.options := by
  intro named more a h ha
  simp only [Signature.bind_anything] at ha ⊢
  split_ifs at ha with hnamed
  · cases ha
  change seriesOrNumbers i r positional named = .ok a at ha
  refine ⟨fun hmeets => ?_, ?_⟩
  · have hself : extra "self" → Datum.find? "self" more = none :=
      fun hextra => find?_of_not_meets hmeets hextra rfl
    rw [if_neg (by rwa [h.find?_eq hself])]
    show seriesOrNumbers i r positional more = .ok a
    rcases hsourced : isSourced positional with _ | _
    · rw [← ha]
      exact seriesOrNumbers_of_not_isSourced i r hsourced _ _
    · rw [seriesOrNumbers_of_isSourced i r hsourced] at ha ⊢
      refine bind_of_extends rfl (fun _ _ => rfl) h (fun name hparam hname => ?_) (fun _ => hself) ha
      have hparam : "source" = name ∨ "length" = name := by
        simpa [Signature.hasParam, Indicator.signature] using hparam
      obtain rfl | rfl := hparam
      · exact find?_of_not_meets hmeets hname (by simp [hsourced])
      · rw [hextra] at hname
        cases hname
  · rintro ⟨name, -, hrefused, hgiven⟩
    split_ifs with hself
    · rfl
    show seriesOrNumbers i r positional more = .error .wrongType
    simp only [Bool.or_eq_true, beq_iff_eq, Bool.and_eq_true] at hrefused
    obtain rfl | ⟨rfl, hsourced⟩ := hrefused
    · exact absurd hgiven hself
    · have hplace : "source" ∈ (i.signature.params.take positional.length).map Prod.fst := by
        cases positional with
        | nil => cases hsourced
        | cons first rest => simp [Indicator.signature]
      rw [seriesOrNumbers_of_isSourced i r hsourced, Indicator.call,
        Signature.bind_given_twice hplace hgiven]
      rfl

end Ignores

end ChartScript
