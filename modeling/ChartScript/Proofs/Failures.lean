import ChartScript.Proofs.Calls

/-!
# What a failing call leaves behind

A call that fails takes back nothing of what it has done. Yet there is little that it can have done. An
order reads all its arguments before it fills anything, and an entry or an exit has only been noted
until then. So what is left behind is the note, and nothing else
(`ChartScript.StrategyCall.noted_of_error`).

This leaves one thing open. Filling can itself break off (`ChartScript.StrategyCall.Breaks`), because a
purchase makes the position too large for a float, or because the name cannot be written. Then a part of
the trade has been done, and `ChartScript.Engine.FillsTo` says which part.
-/

namespace ChartScript

open Engine
open Number (ceiling)

variable {e e' : Engine} {c : StrategyCall} {r : Request}

/-! ### What can be shown -/

section Shown

variable {look look' : EnginePart → Value}

mutual

/-- Whether a value can be shown does not change as long as it does not change for what is put in the
place of the parts. -/
theorem Value.isShowable_replaced_congr (v : Value)
    (h : ∀ part, (look part).isShowable = (look' part).isShowable) :
    (v.replaced look).isShowable = (v.replaced look').isShowable := by
  cases v with
  | live part => exact h part
  | list items | tuple items | unresolvedCall callee items =>
    exact Value.areShowable_replacedAll_congr items h
  | dict entries => exact Value.areShowableEntries_replacedEntries_congr entries h
  | _ => rfl

theorem Value.areShowable_replacedAll_congr (items : List Value)
    (h : ∀ part, (look part).isShowable = (look' part).isShowable) :
    Value.areShowable (Value.replacedAll look items) =
      Value.areShowable (Value.replacedAll look' items) := by
  match items with
  | [] => rfl
  | v :: rest =>
    rw [Value.replacedAll, Value.replacedAll, Value.areShowable, Value.areShowable,
      Value.isShowable_replaced_congr v h, Value.areShowable_replacedAll_congr rest h]

theorem Value.areShowableEntries_replacedEntries_congr (entries : List (String × Value))
    (h : ∀ part, (look part).isShowable = (look' part).isShowable) :
    Value.areShowableEntries (Value.replacedEntries look entries) =
      Value.areShowableEntries (Value.replacedEntries look' entries) := by
  match entries with
  | [] => rfl
  | (key, v) :: rest =>
    rw [Value.replacedEntries, Value.replacedEntries, Value.areShowableEntries,
      Value.areShowableEntries, Value.isShowable_replaced_congr v h,
      Value.areShowableEntries_replacedEntries_congr rest h]

end

theorem Value.replacedAll_map {α : Type} (f : α → Value) (as : List α) :
    Value.replacedAll look (as.map f) = as.map fun a => (f a).replaced look := by
  induction as with
  | nil => rfl
  | cons a as ih => rw [List.map_cons, Value.replacedAll, ih, List.map_cons]

/-- Values of which each can be shown. -/
theorem Value.areShowable_map {α : Type} {f : α → Value} (h : ∀ a, (f a).isShowable = true)
    (as : List α) : Value.areShowable (as.map f) = true := by
  induction as with
  | nil => rfl
  | cons a as ih => rw [List.map_cons, Value.areShowable, h, ih, Bool.and_self]

/-- The position, the orders and the trades can always be shown. The entries and the exits hold what a
script gave them. -/
theorem Engine.isShowable_replaced_part_congr (hentries : e'.entries = e.entries)
    (hexits : e'.exits = e.exits) (h : ∀ part, (look' part).isShowable = (look part).isShowable)
    (part : EnginePart) :
    ((e'.part part).replaced look').isShowable = ((e.part part).replaced look).isShowable := by
  cases part with
  | state => rfl
  | orders | trades =>
    simp only [Engine.part, Value.replaced, Value.replacedAll_map, Value.isShowable]
    rw [Value.areShowable_map fun _ => rfl, Value.areShowable_map fun _ => rfl]
  | entries =>
    rw [Engine.part, hentries]
    exact Value.isShowable_replaced_congr (e.part .entries) h
  | exits =>
    rw [Engine.part, hexits]
    exact Value.isShowable_replaced_congr (e.part .exits) h

end Shown

/-- Whether a value can be shown does not depend on the figures, the orders and the trades. -/
theorem Value.isShowable_settled_congr (v : Value) (hentries : e'.entries = e.entries)
    (hexits : e'.exits = e.exits) : (v.settled e').isShowable = (v.settled e).isShowable := by
  -- from the inside to the outside: in both lists, within one, and in the value
  have hinBoth (part : EnginePart) :
      (e'.partInBoth part).isShowable = (e.partInBoth part).isShowable := by
    cases part with
    | state | entries | exits => rfl
    | orders | trades =>
      exact (Value.areShowable_map (fun _ => rfl) _).trans (Value.areShowable_map (fun _ => rfl) _).symm
  have hwithin (outer part : EnginePart) :
      (e'.partWithin outer part).isShowable = (e.partWithin outer part).isShowable := by
    rw [partWithin, partWithin]
    split
    · rfl
    · exact isShowable_replaced_part_congr hentries hexits hinBoth part
  exact Value.isShowable_replaced_congr v fun part =>
    isShowable_replaced_part_congr hentries hexits (hwithin part) part

/-- Whether a name can be shown does not depend on the figures, the orders and the trades. -/
theorem Engine.exists_nameText {id : Value} (h : (id.settled e).isShowable = true) (e' : Engine)
    (hentries : e'.entries = e.entries) (hexits : e'.exits = e.exits) :
    ∃ name, nameText (id.settled e') = .ok name := by
  have hshowable : (id.settled e').isShowable = true := by
    rw [Value.isShowable_settled_congr id hentries hexits, h]
  refine ⟨String.ofList (id.settled e').display, ?_⟩
  rw [nameText, Value.displayed, if_pos hshowable]
  rfl

/-! ### Failing calls -/

/-- **Filling breaks off half-way.** There is something to fill, but a purchase makes the position too
large for a float, or the name of the order cannot be written. -/
def StrategyCall.Breaks (c : StrategyCall) (e : Engine) : Prop :=
  ∃ r, c.asked e = .ok (some r) ∧ 1 ≤ executed e.position r ∧
    ((r.side = .buy ∧ ceiling ≤ e.position.size + r.wanted) ∨
      (r.id.settled (c.noted e)).isShowable = false)

/-- Filling that fails and does not break off has done nothing. -/
theorem Engine.FillsTo.eq_of_error {fault : Fault} (hfill : FillsTo r e (.error fault) e')
    (hroom : 1 ≤ executed e.position r → r.side = .buy → e.position.size + r.wanted < ceiling)
    (hname : 1 ≤ executed e.position r → (r.id.settled e).isShowable = true) : e' = e := by
  generalize hresult : (Except.error fault : Except Fault (Option Order)) = result at hfill
  cases hfill with
  | nothing => rfl
  | done => cases hresult
  -- a name that can be shown before the trade can be shown after it
  | tooLarge hside hwanted hfull =>
    have := hroom (executed_buy hside ▸ hwanted) hside
    omega
  | unnamed hpos _ hposted =>
    obtain ⟨name, hok⟩ := exists_nameText (hname hpos) (posted r e) rfl rfl
    rw [hok] at hposted
    cases hposted
  | unlisted hpos _ _ hlogged =>
    obtain ⟨name', hok⟩ := exists_nameText (hname hpos) (logged r e _) rfl rfl
    rw [hok] at hlogged
    cases hlogged

/-- **A failing call leaves nothing behind but its note**, unless filling breaks off: an order changes
nothing at all, an entry leaves at most the entry, and an exit and closing all leave at most the exit. -/
theorem StrategyCall.noted_of_error (h : e.Reachable) (htrades : c.function.trades = true)
    (hwhole : ¬ c.Breaks e) {fault : Fault} (hrun : c.perform.run e = (.error fault, e')) :
    e' = c.noted e ∧
      (e' = e ∨
        (c.function = .entry ∧ ∃ id qty, c.name? = some id ∧
          e' = { e with entries := e.entries ++ [(id, qty)] }) ∨
        ((c.function = .exit ∨ c.function = .closeAll) ∧ ∃ id, c.name? = some id ∧
          e' = { e with exits := e.exits ++ [id] })) := by
  have hnoted : e' = c.noted e := by
    -- a fault before there is a request leaves the note, and so does one that does not break off
    match hasked : c.asked e with
    | .error fault' =>
      rw [run_perform htrades, hasked] at hrun
      exact (Prod.mk.inj hrun).2.symm
    | .ok none =>
      rw [run_perform htrades, hasked] at hrun
      cases hrun
    | .ok (some r) =>
      obtain ⟨result, e'', hfill, hperform⟩ := perform_fillsTo h.sound htrades hasked
      rw [hrun] at hperform
      cases result with
      | ok o => cases hperform
      | error fault' =>
        obtain ⟨-, rfl⟩ := Prod.mk.inj hperform
        refine hfill.eq_of_error (fun hpos hside => ?_) (fun hpos => ?_)
        · rw [position_noted] at hpos ⊢
          exact Int.not_le.1 fun hfull => hwhole ⟨r, hasked, hpos, .inl ⟨hside, hfull⟩⟩
        · rw [position_noted] at hpos
          exact Bool.of_not_eq_false fun hname => hwhole ⟨r, hasked, hpos, .inr hname⟩
  exact ⟨hnoted, hnoted ▸ noted_cases c e⟩

/-- An entry with an argument that its order does not take. -/
def StrategyCall.misnamed : StrategyCall where
  function := .entry
  price := .ok 100.0
  positional := [.text "L", .int 1]
  named := [("action", .text "buy")]

theorem StrategyCall.asked_misnamed (commission : Float) (defaultQty : Value) :
    misnamed.asked (fresh commission defaultQty) = .error .wrongType := rfl

theorem StrategyCall.noted_of_error_misnamed :
    ∃ e', (fresh 0.0 (.int 1)).Reachable ∧ misnamed.function.trades = true ∧
      ¬ misnamed.Breaks (fresh 0.0 (.int 1)) ∧
      misnamed.perform.run (fresh 0.0 (.int 1)) = (.error .wrongType, e') ∧
      e' = misnamed.noted (fresh 0.0 (.int 1)) := by
  have hwhole : ¬ misnamed.Breaks (fresh 0.0 (.int 1)) := by
    rintro ⟨r, hasked, -⟩
    rw [asked_misnamed] at hasked
    cases hasked
  exact ⟨_, .fresh _ _, rfl, hwhole, rfl, (noted_of_error (.fresh _ _) rfl hwhole rfl).1⟩

/-- The entry stays although the call fails. -/
theorem StrategyCall.entry_of_misnamed :
    (fresh 0.0 (.int 1)).Reachable ∧
      (misnamed.perform.run (fresh 0.0 (.int 1))).1 = .error .wrongType ∧
      (fresh 0.0 (.int 1)).entries = [] ∧
      (misnamed.perform.run (fresh 0.0 (.int 1))).2.entries = [(.text "L", .int 1)] :=
  ⟨.fresh _ _, rfl, rfl, rfl⟩

end ChartScript
