import ChartScript.Proofs.Descent

/-!
# What the readers answer is spelled

Every answer of a reader is right by the grammar of `ChartScript.Proofs.Spelling`: what the reader
has taken off the row spells the nodes that it gives. The readers that go on behind something – the
further terms of a sum, the subscripts, what follows an argument – take what has been read so far as
a premise and extend it; that is how a left-leaning rule comes out of a loop.

The induction is the descent of the readers itself, with the same measure.
-/

namespace ChartScript.Syntax

mutual

theorem sum?_spells {u rest : List Lexeme} {t : Node} (h : bare (sum? u) = some (t, rest)) :
    ∃ v, u = v ++ rest ∧ Spells .sum v [t] := by
  rw [bare_sum?] at h
  obtain ⟨⟨left, mid⟩, hp, ht⟩ := Option.bind_eq_some_iff.1 h
  have hlt : mid.length < u.length := (bare_eq_some hp).1
  obtain ⟨v, hv, hl⟩ := product?_spells hp
  obtain ⟨w, hw, hs⟩ := sumTail?_spells hl.term ht
  exact ⟨v ++ w, by simp [hv, hw], hs⟩
termination_by 8 * u.length + 6

theorem sumTail?_spells {w u rest : List Lexeme} {left t : Node} (hl : Spells .sum w [left])
    (h : bare (sumTail? left u) = some (t, rest)) : ∃ v, u = v ++ rest ∧ Spells .sum (w ++ v) [t] := by
  rw [bare_sumTail?] at h
  split at h
  · rename_i m u
    split at h
    · cases h
      exact ⟨[], rfl, by simpa using hl⟩
    · rename_i op hm
      obtain ⟨⟨right, mid⟩, hp, ht⟩ := Option.bind_eq_some_iff.1 h
      have hlt : mid.length < u.length := (bare_eq_some hp).1
      obtain ⟨v, hv, hr⟩ := product?_spells hp
      -- what has been read so far is the left operand of the next round
      obtain ⟨v', hv', hs⟩ := sumTail?_spells (hl.sum hm hr) ht
      exact ⟨.mark m :: (v ++ v'), by simp [hv, hv'], by simpa using hs⟩
  · cases h
    exact ⟨[], rfl, by simpa using hl⟩
termination_by 8 * u.length

theorem product?_spells {u rest : List Lexeme} {t : Node} (h : bare (product? u) = some (t, rest)) :
    ∃ v, u = v ++ rest ∧ Spells .product v [t] := by
  rw [bare_product?] at h
  obtain ⟨⟨left, mid⟩, hp, ht⟩ := Option.bind_eq_some_iff.1 h
  have hlt : mid.length < u.length := (bare_eq_some hp).1
  obtain ⟨v, hv, hl⟩ := power?_spells hp
  obtain ⟨w, hw, hs⟩ := productTail?_spells hl.factor ht
  exact ⟨v ++ w, by simp [hv, hw], hs⟩
termination_by 8 * u.length + 5

theorem productTail?_spells {w u rest : List Lexeme} {left t : Node}
    (hl : Spells .product w [left]) (h : bare (productTail? left u) = some (t, rest)) :
    ∃ v, u = v ++ rest ∧ Spells .product (w ++ v) [t] := by
  rw [bare_productTail?] at h
  split at h
  · rename_i m u
    split at h
    · cases h
      exact ⟨[], rfl, by simpa using hl⟩
    · rename_i op hm
      obtain ⟨⟨right, mid⟩, hp, ht⟩ := Option.bind_eq_some_iff.1 h
      have hlt : mid.length < u.length := (bare_eq_some hp).1
      obtain ⟨v, hv, hr⟩ := power?_spells hp
      obtain ⟨v', hv', hs⟩ := productTail?_spells (hl.product hm hr) ht
      exact ⟨.mark m :: (v ++ v'), by simp [hv, hv'], by simpa using hs⟩
  · cases h
    exact ⟨[], rfl, by simpa using hl⟩
termination_by 8 * u.length

theorem power?_spells {u rest : List Lexeme} {t : Node} (h : bare (power? u) = some (t, rest)) :
    ∃ v, u = v ++ rest ∧ Spells .power v [t] := by
  rw [bare_power?] at h
  obtain ⟨⟨base, mid⟩, hb, he⟩ := Option.bind_eq_some_iff.1 h
  have hlt : mid.length < u.length := (bare_eq_some hb).1
  obtain ⟨v, hv, hl⟩ := signed?_spells hb
  simp only at he
  split at he
  · rename_i mid
    obtain ⟨⟨exponent, after⟩, hp, heq⟩ := Option.map_eq_some_iff.1 he
    cases heq
    simp only [List.length_cons] at hlt
    obtain ⟨w, hw, hr⟩ := power?_spells hp
    exact ⟨v ++ .mark .power :: w, by simp [hv, hw], hl.power hr⟩
  · cases he
    exact ⟨v, hv, hl.base⟩
termination_by 8 * u.length + 4

theorem signed?_spells {u rest : List Lexeme} {t : Node} (h : bare (signed? u) = some (t, rest)) :
    ∃ v, u = v ++ rest ∧ Spells .signed v [t] := by
  rw [bare_signed?] at h
  split at h
  · rename_i m u
    split at h
    · obtain ⟨v, hv, hs⟩ := subscripted?_spells h
      exact ⟨v, hv, hs.unsigned⟩
    · rename_i op hm
      obtain ⟨⟨operand, after⟩, hs, heq⟩ := Option.map_eq_some_iff.1 h
      cases heq
      obtain ⟨v, hv, ho⟩ := signed?_spells hs
      exact ⟨.mark m :: v, by simp [hv], ho.signed hm⟩
  · obtain ⟨v, hv, hs⟩ := subscripted?_spells h
    exact ⟨v, hv, hs.unsigned⟩
termination_by 8 * u.length + 3

theorem subscripted?_spells {u rest : List Lexeme} {t : Node}
    (h : bare (subscripted? u) = some (t, rest)) :
    ∃ v, u = v ++ rest ∧ Spells .subscripted v [t] := by
  rw [bare_subscripted?] at h
  obtain ⟨⟨target, mid⟩, hp, hs⟩ := Option.bind_eq_some_iff.1 h
  have hlt : mid.length < u.length := (bare_eq_some hp).1
  obtain ⟨v, hv, ht⟩ := primary?_spells hp
  obtain ⟨w, hw, hi⟩ := subscripts?_spells ht.plain hs
  exact ⟨v ++ w, by simp [hv, hw], hi⟩
termination_by 8 * u.length + 2

theorem subscripts?_spells {w u rest : List Lexeme} {target t : Node}
    (ht : Spells .subscripted w [target]) (h : bare (subscripts? target u) = some (t, rest)) :
    ∃ v, u = v ++ rest ∧ Spells .subscripted (w ++ v) [t] := by
  rw [bare_subscripts?] at h
  split at h
  · rename_i u
    obtain ⟨⟨position, mid⟩, hp, hs⟩ := Option.bind_eq_some_iff.1 h
    have hlt : mid.length < u.length := (bare_eq_some hp).1
    simp only at hs
    split at hs
    · rename_i mid
      simp only [List.length_cons] at hlt
      obtain ⟨v, hv, hi⟩ := sum?_spells hp
      -- what has been read so far is the target of the next subscript
      obtain ⟨v', hv', hx⟩ := subscripts?_spells (ht.subscript hi) hs
      exact ⟨.mark .leftBracket :: (v ++ .mark .rightBracket :: v'), by simp [hv, hv'],
        by simpa using hx⟩
    · cases hs
  · cases h
    exact ⟨[], rfl, by simpa using ht⟩
termination_by 8 * u.length

theorem primary?_spells {u rest : List Lexeme} {t : Node} (h : bare (primary? u) = some (t, rest)) :
    ∃ v, u = v ++ rest ∧ Spells .primary v [t] := by
  rw [bare_primary?] at h
  split at h
  · cases h
    exact ⟨_, rfl, .int _⟩
  · cases h
    exact ⟨_, rfl, .float _⟩
  · cases h
    exact ⟨_, rfl, .string _⟩
  · -- parentheses
    obtain ⟨⟨node, mid⟩, hs, hc⟩ := Option.bind_eq_some_iff.1 h
    simp only at hc
    split at hc
    · cases hc
      obtain ⟨v, hv, ht⟩ := sum?_spells hs
      exact ⟨_, by simp [hv], ht.parentheses⟩
    · cases hc
  · cases h
    exact ⟨_, rfl, .noItems⟩
  · obtain ⟨⟨items, after⟩, hi, heq⟩ := Option.map_eq_some_iff.1 h
    cases heq
    obtain ⟨v, hv, ht⟩ := items?_spells hi
    exact ⟨_, by simp [hv], ht.array⟩
  · cases h
    exact ⟨_, rfl, .noArguments _⟩
  · obtain ⟨⟨args, after⟩, ha, heq⟩ := Option.map_eq_some_iff.1 h
    cases heq
    obtain ⟨v, hv, ht⟩ := arguments?_spells ha
    exact ⟨_, by simp [hv], ht.call _⟩
  · cases h
    exact ⟨_, rfl, .name _⟩
  · cases h
termination_by 8 * u.length + 1

theorem items?_spells {u rest : List Lexeme} {ts : List Node}
    (h : bare (items? u) = some (ts, rest)) :
    ∃ v, u = v ++ .mark .rightBracket :: rest ∧ Spells .items v ts := by
  rw [bare_items?] at h
  obtain ⟨⟨item, mid⟩, hs, hc⟩ := Option.bind_eq_some_iff.1 h
  have hlt : mid.length < u.length := (bare_eq_some hs).1
  obtain ⟨v, hv, ht⟩ := sum?_spells hs
  simp only at hc
  split at hc
  · cases hc
    exact ⟨v, hv, ht.lastItem⟩
  · rename_i mid
    obtain ⟨⟨items, after⟩, hi, heq⟩ := Option.map_eq_some_iff.1 hc
    cases heq
    simp only [List.length_cons] at hlt
    obtain ⟨w, hw, hts⟩ := items?_spells hi
    exact ⟨v ++ .mark .comma :: w, by simp [hv, hw], ht.item hts⟩
  · cases hc
termination_by 8 * u.length + 7

theorem arguments?_spells {u rest : List Lexeme} {ts : List Node}
    (h : bare (arguments? u) = some (ts, rest)) :
    ∃ v, u = v ++ .mark .rightParen :: rest ∧ Spells .arguments v ts := by
  rw [bare_arguments?] at h
  split at h
  · cases h
    exact ⟨_, rfl, .lastOptions .noEntries⟩
  · obtain ⟨⟨pairs, mid⟩, ho, hc⟩ := Option.bind_eq_some_iff.1 h
    simp only at hc
    split at hc
    · cases hc
      obtain ⟨v, hv, ht⟩ := options?_spells ho
      exact ⟨.mark .leftBrace :: (v ++ [.mark .rightBrace]), by simp [hv], .lastOptions ht.options⟩
    · cases hc
  · rename_i key u
    obtain ⟨⟨value, mid⟩, hs, hm⟩ := Option.bind_eq_some_iff.1 h
    have hlt : mid.length < u.length := (bare_eq_some hs).1
    obtain ⟨⟨more, after⟩, hm, heq⟩ := Option.map_eq_some_iff.1 hm
    cases heq
    obtain ⟨v, hv, ht⟩ := sum?_spells hs
    obtain ⟨w, hw, hts⟩ := moreArguments?_spells (ht.named key) hm
    exact ⟨w, by simpa [hv] using hw, hts⟩
  · obtain ⟨⟨arg, mid⟩, hs, hm⟩ := Option.bind_eq_some_iff.1 h
    have hlt : mid.length < u.length := (bare_eq_some hs).1
    obtain ⟨⟨more, after⟩, hm, heq⟩ := Option.map_eq_some_iff.1 hm
    cases heq
    obtain ⟨v, hv, ht⟩ := sum?_spells hs
    obtain ⟨w, hw, hts⟩ := moreArguments?_spells ht.positional hm
    exact ⟨w, by simpa [hv] using hw, hts⟩
termination_by 8 * u.length + 7

theorem moreArguments?_spells {w u rest : List Lexeme} {ws ts : List Node}
    (hw : Spells .argument w ws) (h : bare (moreArguments? u) = some (ts, rest)) :
    ∃ v, w ++ u = v ++ .mark .rightParen :: rest ∧ Spells .arguments v (ws ++ ts) := by
  rw [bare_moreArguments?] at h
  split at h
  · cases h
    exact ⟨w, rfl, by simpa using hw.lastArgument⟩
  · obtain ⟨v, hv, hts⟩ := arguments?_spells h
    exact ⟨w ++ .mark .comma :: v, by simp [hv], hw.argument hts⟩
  · cases h
termination_by 8 * u.length

theorem options?_spells {u rest : List Lexeme} {ts : List Node}
    (h : bare (options? u) = some (ts, rest)) :
    ∃ v, u = v ++ .mark .rightBrace :: rest ∧ Spells .entries v ts := by
  rw [bare_options?] at h
  split at h
  · rename_i key u
    obtain ⟨⟨value, mid⟩, hs, hc⟩ := Option.bind_eq_some_iff.1 h
    have hlt : mid.length < u.length := (bare_eq_some hs).1
    obtain ⟨v, hv, ht⟩ := sum?_spells hs
    simp only at hc
    split at hc
    · cases hc
      exact ⟨.name key :: .mark .colon :: v, by simp [hv], ht.lastEntry key⟩
    · rename_i mid
      obtain ⟨⟨more, after⟩, ho, heq⟩ := Option.map_eq_some_iff.1 hc
      cases heq
      simp only [List.length_cons] at hlt
      obtain ⟨w, hw, hts⟩ := options?_spells ho
      exact ⟨.name key :: .mark .colon :: (v ++ .mark .comma :: w), by simp [hv, hw],
        ht.entry key hts⟩
    · cases hc
  · cases h
termination_by 8 * u.length

end

end ChartScript.Syntax
