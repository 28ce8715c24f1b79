import ChartScript.Data.Canonical
import Mathlib.Data.List.Forall2

/-!
# Canonical forms

The canonical form of a datum says what the datum says, apart from the order of entries and from what
only locates. It is its own canonical form (`ChartScript.Datum.canonical?_idem`), and it does not change
when entries that locate are added or taken away at any level
(`ChartScript.Datum.canonical?_congr`).

That entries are sorted makes no difference to whether data are alike
(`ChartScript.Datum.alike_mergeSort`), since of entries with different keys each is found wherever it
stands.
-/

namespace ChartScript.Datum

variable {items items' : List Datum} {entries entries' others : List (String × Datum)}

/-! ### Items and entries -/

theorem canonicalItems_eq_map (items : List Datum) : canonicalItems items = items.map canonical := by
  induction items with
  | nil => rfl
  | cons d items ih => rw [canonicalItems, ih, List.map_cons]

theorem keyLe_trans (a b c : String × Datum) (hab : keyLe a b = true) (hbc : keyLe b c = true) :
    keyLe a c = true := by
  simp only [keyLe, decide_eq_true_eq] at hab hbc ⊢
  exact String.le_trans hab hbc

theorem keyLe_total (a b : String × Datum) : (keyLe a b || keyLe b a) = true := by
  simpa [keyLe] using String.le_total a.1 b.1

theorem mergeSort_mergeSort (entries : List (String × Datum)) :
    (entries.mergeSort keyLe).mergeSort keyLe = entries.mergeSort keyLe :=
  List.mergeSort_of_pairwise (List.pairwise_mergeSort keyLe_trans keyLe_total entries)

/-- Entries that do not locate and have canonical values stay as they are. -/
theorem canonicalEntries_eq_self
    (h : ∀ entry ∈ entries, isLocation entry.1 = false ∧ entry.2.canonical = entry.2) :
    canonicalEntries entries = entries := by
  induction entries with
  | nil => rfl
  | cons entry entries ih =>
    obtain ⟨⟨hkey, hvalue⟩, hentries⟩ := List.forall_mem_cons.1 h
    rw [canonicalEntries, if_neg (by simp [hkey]), hvalue, ih hentries]

mutual

/-- **The canonical form is its own canonical form.** -/
theorem canonical_canonical : (d : Datum) → d.canonical.canonical = d.canonical
  | .null | .bool _ | .int _ | .float _ | .text _ => rfl
  | .list items => by
    rw [canonical, canonical, canonicalItems_canonicalItems items]
  | .dict entries => by
    have h : ∀ entry ∈ (canonicalEntries entries).mergeSort keyLe,
        isLocation entry.1 = false ∧ entry.2.canonical = entry.2 := by
      intro entry he
      exact canonical_of_mem_canonicalEntries entries entry
        ((List.mergeSort_perm _ _).mem_iff.1 he)
    rw [canonical, canonical, canonicalEntries_eq_self h, mergeSort_mergeSort]

theorem canonicalItems_canonicalItems :
    (items : List Datum) → canonicalItems (canonicalItems items) = canonicalItems items
  | [] => rfl
  | d :: items => by
    rw [canonicalItems, canonicalItems, canonical_canonical d, canonicalItems_canonicalItems items]

theorem canonical_of_mem_canonicalEntries : (entries : List (String × Datum)) →
    ∀ entry ∈ canonicalEntries entries, isLocation entry.1 = false ∧ entry.2.canonical = entry.2
  | [] => nofun
  | (key, value) :: entries => by
    rw [canonicalEntries]
    split <;> rename_i hkey
    · exact canonical_of_mem_canonicalEntries entries
    · exact List.forall_mem_cons.2 ⟨⟨by simpa using hkey, canonical_canonical value⟩,
        canonical_of_mem_canonicalEntries entries⟩

end

/-! ### Levels -/

theorem levelsOfEntries_perm (h : entries.Perm entries') :
    levelsOfEntries entries = levelsOfEntries entries' := by
  induction h with
  | nil => rfl
  | cons entry _ ih => rw [levelsOfEntries, levelsOfEntries, ih]
  | swap a b entries =>
    simp only [levelsOfEntries]
    split <;> split <;> simp [Nat.max_left_comm]
  | trans _ _ ih ih' => rw [ih, ih']

mutual

/-- The canonical form has as many levels as the datum. -/
theorem levels_canonical : (d : Datum) → d.canonical.levels = d.levels
  | .null | .bool _ | .int _ | .float _ | .text _ => rfl
  | .list items => by rw [canonical, levels, levels, levelsOfItems_canonicalItems items]
  | .dict entries => by
    rw [canonical, levels, levels, levelsOfEntries_perm (List.mergeSort_perm _ _),
      levelsOfEntries_canonicalEntries entries]

theorem levelsOfItems_canonicalItems : (items : List Datum) →
    levelsOfItems (canonicalItems items) = levelsOfItems items
  | [] => rfl
  | d :: items => by
    rw [canonicalItems, levelsOfItems, levelsOfItems, levels_canonical d,
      levelsOfItems_canonicalItems items]

theorem levelsOfEntries_canonicalEntries : (entries : List (String × Datum)) →
    levelsOfEntries (canonicalEntries entries) = levelsOfEntries entries
  | [] => rfl
  | (key, value) :: entries => by
    rw [canonicalEntries, levelsOfEntries]
    split <;> rename_i hkey
    · exact levelsOfEntries_canonicalEntries entries
    · rw [levelsOfEntries, if_neg hkey, levels_canonical value,
        levelsOfEntries_canonicalEntries entries]

end

theorem of_canonical?_eq_some {d c : Datum} (h : d.canonical? = some c) :
    d.levels ≤ canonicalLimit ∧ c = d.canonical := by
  rw [canonical?] at h
  split at h <;> rename_i hlevels
  · exact ⟨hlevels, (Option.some.inj h).symm⟩
  · cases h

/-- **What has a canonical form has it as a fixed point.** -/
theorem canonical?_idem {d c : Datum} (h : d.canonical? = some c) : c.canonical? = some c := by
  obtain ⟨hlevels, rfl⟩ := of_canonical?_eq_some h
  rw [canonical?, levels_canonical, if_pos hlevels, canonical_canonical]

/-! ### Entries that locate -/

mutual

/-- A datum without the entries that locate, at every level. -/
def unlocated : Datum → Datum
  | null => null
  | bool b => bool b
  | int n => int n
  | float x => float x
  | text s => text s
  | list items => list (unlocatedItems items)
  | dict entries => dict (unlocatedEntries entries)

/-- The items of a list without the entries that locate. -/
def unlocatedItems : List Datum → List Datum
  | [] => []
  | item :: items => unlocated item :: unlocatedItems items

/-- The entries that do not locate, with such values. -/
def unlocatedEntries : List (String × Datum) → List (String × Datum)
  | [] => []
  | (key, value) :: entries =>
    if isLocation key then unlocatedEntries entries
    else (key, unlocated value) :: unlocatedEntries entries

end

mutual

theorem canonical_unlocated : (d : Datum) → d.unlocated.canonical = d.canonical
  | .null | .bool _ | .int _ | .float _ | .text _ => rfl
  | .list items => by rw [unlocated, canonical, canonical, canonicalItems_unlocatedItems items]
  | .dict entries => by rw [unlocated, canonical, canonical, canonicalEntries_unlocatedEntries entries]

theorem canonicalItems_unlocatedItems : (items : List Datum) →
    canonicalItems (unlocatedItems items) = canonicalItems items
  | [] => rfl
  | d :: items => by
    rw [unlocatedItems, canonicalItems, canonicalItems, canonical_unlocated d,
      canonicalItems_unlocatedItems items]

theorem canonicalEntries_unlocatedEntries : (entries : List (String × Datum)) →
    canonicalEntries (unlocatedEntries entries) = canonicalEntries entries
  | [] => rfl
  | (key, value) :: entries => by
    rw [unlocatedEntries, canonicalEntries]
    split <;> rename_i hkey
    · exact canonicalEntries_unlocatedEntries entries
    · rw [canonicalEntries, if_neg hkey, canonical_unlocated value,
        canonicalEntries_unlocatedEntries entries]

end

/-- **Entries that locate make no difference**, at whatever level they stand. -/
theorem canonical?_congr {d d' : Datum} (h : d.unlocated = d'.unlocated) :
    d.canonical? = d'.canonical? := by
  have hcanonical : d.canonical = d'.canonical := by
    rw [← canonical_unlocated d, h, canonical_unlocated]
  rw [canonical?, canonical?, ← levels_canonical, ← levels_canonical d', hcanonical]

/-! ### Likeness -/

/-- Whether a datum is neither a list nor a dictionary. -/
def isScalar : Datum → Bool
  | .list _ | .dict _ => false
  | _ => true

/-- Whether a datum is a literal: a scalar, and no float that is not a number, which is not even like
itself. -/
def isLiteral (d : Datum) : Bool := d.isScalar && d.alike d

/-- A scalar is like the canonical form of what it is like. -/
theorem alike_canonical_of_isScalar {d : Datum} (h : d.isScalar) (e : Datum) :
    d.canonical.alike e.canonical = d.alike e := by
  cases d <;> cases h <;> cases e <;> simp [canonical, alike]

/-- Only a scalar is like a scalar. -/
theorem levels_of_alike_scalar {d e : Datum} (h : d.isScalar) (ha : d.alike e) :
    e.levels = d.levels := by
  cases d <;> cases h <;> cases e <;> first | rfl | simp [alike] at ha

theorem alikeItems_iff : alikeItems items items' = true ↔
    List.Forall₂ (fun d d' : Datum => d.alike d' = true) items items' := by
  induction items generalizing items' with
  | nil => cases items' <;> simp [alikeItems]
  | cons d items ih => cases items' <;> simp [alikeItems, ih]

theorem levelsOfItems_congr
    (h : List.Forall₂ (fun d d' : Datum => d'.levels = d.levels) items items') :
    levelsOfItems items' = levelsOfItems items := by
  induction h with
  | nil => rfl
  | cons hd _ ih => rw [levelsOfItems, levelsOfItems, hd, ih]

/-- Of entries with different keys each is found wherever it stands. -/
theorem find?_perm {key : String} (hnodup : (entries.map (·.1)).Nodup) (h : entries.Perm entries') :
    find? key entries = find? key entries' := by
  induction h with
  | nil => rfl
  | cons entry _ ih => rw [find?_cons, find?_cons, ih (List.nodup_cons.1 hnodup).2]
  | swap a b entries =>
    have hne : b.1 ≠ a.1 := by
      simp only [List.map_cons, List.nodup_cons, List.mem_cons, not_or] at hnodup
      exact hnodup.1.1
    simp only [find?_cons]
    split <;> split <;> rename_i hb ha
    · exact absurd (hb.trans ha.symm) hne
    all_goals rfl
  | trans h _ ih ih' => rw [ih hnodup, ih' ((h.map _).nodup_iff.1 hnodup)]

theorem alikeEntries_eq_all (entries others : List (String × Datum)) :
    alikeEntries entries others =
      entries.all fun entry => (find? entry.1 others).any entry.2.alike := by
  induction entries with
  | nil => rfl
  | cons entry entries ih =>
    rw [alikeEntries, ih, List.all_cons]
    rcases find? entry.1 others with _ | other <;> rfl

/-- An entry that has no counterpart is not looked for. -/
theorem alikeEntries_cons_of_not_mem {key : String} (h : key ∉ entries.map (·.1)) (value : Datum) :
    alikeEntries entries ((key, value) :: others) = alikeEntries entries others := by
  rw [alikeEntries_eq_all, alikeEntries_eq_all, Bool.eq_iff_iff, List.all_eq_true, List.all_eq_true]
  refine forall₂_congr fun entry he => ?_
  rw [find?_cons, if_neg]
  rintro rfl
  exact h (List.mem_map_of_mem he)

/-- **Being sorted makes no difference to likeness.** -/
theorem alike_mergeSort (hnodup : (others.map (·.1)).Nodup) :
    (dict (entries.mergeSort keyLe)).alike (dict (others.mergeSort keyLe)) =
      (dict entries).alike (dict others) := by
  have hfind : ∀ key, find? key (others.mergeSort keyLe) = find? key others := by
    intro key
    exact (find?_perm hnodup (List.mergeSort_perm _ _).symm).symm
  rw [alike, alike, List.length_mergeSort, List.length_mergeSort, alikeEntries_eq_all,
    alikeEntries_eq_all, (List.mergeSort_perm entries keyLe).all_eq]
  simp only [hfind]

end ChartScript.Datum
