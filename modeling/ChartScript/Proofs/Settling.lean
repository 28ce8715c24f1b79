import ChartScript.Strategy.Engine

/-!
# Names that hold parts of the strategy

A name can be any value, so it can hold the lists of the strategy, and what it is shown as then changes
while a call is carried out. The lists can hold one another, since the entries and the exits hold names
again. So what a name depends on are the parts in it, the parts in these, and so on
(`ChartScript.Value.Holds`): it is shown alike in two states that agree on all of them
(`ChartScript.Value.settled_congr`), and they are the same parts in two states with the same entries and
exits (`ChartScript.Value.Holds.congr`).
-/

namespace ChartScript

open Engine

mutual

/-- Whether a part of the strategy stands in a value. -/
def Value.mentions (part : EnginePart) : Value → Bool
  | .live other => other == part
  | .list items | .tuple items | .unresolvedCall _ items => Value.anyMentions part items
  | .dict entries => Value.anyEntryMentions part entries
  | _ => false

/-- Whether a part of the strategy stands in one of several values. -/
def Value.anyMentions (part : EnginePart) : List Value → Bool
  | [] => false
  | v :: rest => v.mentions part || Value.anyMentions part rest

/-- Whether a part of the strategy stands in an entry of a dictionary. -/
def Value.anyEntryMentions (part : EnginePart) : List (String × Value) → Bool
  | [] => false
  | (_, v) :: rest => v.mentions part || Value.anyEntryMentions part rest

end

/-- **A value holds a part of the strategy**, in a state of it: the part stands in the value itself, or
in what another part holds that stands there, and so on. -/
inductive Value.Holds (e : Engine) (part : EnginePart) : Value → Prop where
  /-- The part stands in the value. -/
  | here {v : Value} : v.mentions part = true → Holds e part v
  /-- The part stands further within a part that stands in the value. -/
  | within {v : Value} {outer : EnginePart} :
      v.mentions outer = true → Holds e part (e.part outer) → Holds e part v

variable {e e' : Engine} {v : Value} {part : EnginePart}

/-! ### Which parts a value holds -/

/-- A value in which no part stands holds none. -/
theorem Value.not_holds (h : ∀ outer, v.mentions outer = false) : ¬ v.Holds e part := by
  rintro (hpart | ⟨houter, -⟩)
  · rw [h] at hpart
    cases hpart
  · rw [h] at houter
    cases houter

theorem Value.anyMentions_map {α : Type} {f : α → Value} (h : ∀ a, (f a).mentions part = false)
    (as : List α) : Value.anyMentions part (as.map f) = false := by
  induction as with
  | nil => rfl
  | cons a as ih => rw [List.map_cons, Value.anyMentions, h, ih, Bool.or_self]

/-- **The same parts are held in two states** with the same entries and exits: no other part holds
parts. -/
theorem Value.Holds.congr (h : v.Holds e part) (hentries : e'.entries = e.entries)
    (hexits : e'.exits = e.exits) : v.Holds e' part := by
  induction h with
  | here hpart => exact .here hpart
  | @within v outer houter hinner ih =>
    cases outer with
    | entries | exits =>
      refine .within houter ?_
      simpa only [Engine.part, hentries, hexits] using ih
    | state => exact absurd hinner (Value.not_holds fun _ => rfl)
    | orders => exact absurd hinner (Value.not_holds fun _ => Value.anyMentions_map (fun _ => rfl) _)
    | trades => exact absurd hinner (Value.not_holds fun _ => Value.anyMentions_map (fun _ => rfl) _)

/-! ### What a value is shown as -/

section Replaced

variable {look look' : EnginePart → Value}

mutual

/-- What is put in the place of a part counts only if the part stands there. -/
theorem Value.replaced_congr (v : Value)
    (h : ∀ part, v.mentions part = true → look part = look' part) :
    v.replaced look = v.replaced look' := by
  cases v with
  | live part => exact h part (by simp [Value.mentions])
  | list items => rw [Value.replaced, Value.replaced, Value.replacedAll_congr items h]
  | tuple items => rw [Value.replaced, Value.replaced, Value.replacedAll_congr items h]
  | unresolvedCall callee items =>
    rw [Value.replaced, Value.replaced, Value.replacedAll_congr items h]
  | dict entries => rw [Value.replaced, Value.replaced, Value.replacedEntries_congr entries h]
  | _ => rfl

theorem Value.replacedAll_congr (items : List Value)
    (h : ∀ part, Value.anyMentions part items = true → look part = look' part) :
    Value.replacedAll look items = Value.replacedAll look' items := by
  match items with
  | [] => rfl
  | v :: rest =>
    rw [Value.replacedAll, Value.replacedAll,
      Value.replaced_congr v fun part hv => h part (by simp [Value.anyMentions, hv]),
      Value.replacedAll_congr rest fun part hv => h part (by simp [Value.anyMentions, hv])]

theorem Value.replacedEntries_congr (entries : List (String × Value))
    (h : ∀ part, Value.anyEntryMentions part entries = true → look part = look' part) :
    Value.replacedEntries look entries = Value.replacedEntries look' entries := by
  match entries with
  | [] => rfl
  | (key, v) :: rest =>
    rw [Value.replacedEntries, Value.replacedEntries,
      Value.replaced_congr v fun part hv => h part (by simp [Value.anyEntryMentions, hv]),
      Value.replacedEntries_congr rest fun part hv => h part (by simp [Value.anyEntryMentions, hv])]

end

end Replaced

/-- **A value is the same in two states that agree on the parts that it holds.** -/
theorem Value.settled_congr (h : ∀ part, v.Holds e part → e.part part = e'.part part) :
    v.settled e = v.settled e' := by
  -- from the outside to the inside: the parts in the value, the parts in one of these, and those in both
  refine Value.replaced_congr v fun part hpart => ?_
  rw [h part (.here hpart)]
  refine Value.replaced_congr _ fun inner hinner => ?_
  rw [← h part (.here hpart)] at hinner
  rw [partWithin, partWithin, h inner (.within hpart (.here hinner))]
  split
  · rfl
  · refine Value.replaced_congr _ fun last hlast => ?_
    rw [← h inner (.within hpart (.here hinner))] at hlast
    have hsame := h last (.within hpart (.within hinner (.here hlast)))
    cases last with
    | entries | exits => rfl
    | state | orders | trades => exact hsame

end ChartScript
