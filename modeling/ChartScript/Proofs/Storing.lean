import ChartScript.Proofs.Escaping
import ChartScript.Proofs.Numerals
import ChartScript.Proofs.Rendering

/-!
# Plain data that is stored and read again

JSON gives data back (`ChartScript.Json.read?_compact`) as far as it can hold them: an integer must not
have too many digits, and the keys of a dictionary are all different
(`ChartScript.Datum.Storable`). The argument goes by lexemes. The text of a datum is cut into the same
lexemes whatever follows it, and from these lexemes the datum is read, with the lexemes of what follows
left over (`ChartScript.Json.ReadsAs`). A list or a dictionary is read as soon as its parts are, so the
induction is on the datum. What floats come back is left open, as a predicate on them.
-/

namespace ChartScript

/-- **Data that JSON gives back**: integers have no more digits than are read, the floats are of a
kind whose text is read as the float, and a dictionary names no key twice. -/
inductive Datum.Storable (P : Float → Prop) : Datum → Prop
  /-- The absent value. -/
  | null : Storable P .null
  /-- A truth value. -/
  | bool (b : Bool) : Storable P (.bool b)
  /-- An integer with a bound. -/
  | int (n : Int) : n.natAbs < 10 ^ Number.digitLimit → Storable P (.int n)
  /-- A float. -/
  | float (x : Float) : P x → Storable P (.float x)
  /-- A text. -/
  | text (s : String) : Storable P (.text s)
  /-- A list. -/
  | list {items : List Datum} : (∀ d ∈ items, Storable P d) → Storable P (.list items)
  /-- A dictionary. -/
  | dict {entries : List (String × Datum)} : (entries.map Prod.fst).Nodup →
    (∀ entry ∈ entries, Storable P entry.2) → Storable P (.dict entries)

namespace Json

/-! ### Lexemes -/

/-- Where a bare word ends. -/
def EndsBare (rest : List Char) : Prop := ∀ c ∈ rest.head?, isBare c = false

/-- A text is cut into lexemes, whatever follows it. -/
def CutsInto (text : List Char) (lexemes : List Lexeme) : Prop :=
  ∀ rest, EndsBare rest → lexemes? (text ++ rest) = (lexemes? rest).map (lexemes ++ ·)

/-- A bare word is one lexeme. -/
theorem cutsInto_bare {text : List Char} {d : Datum} (hne : text ≠ []) (hbare : ∀ c ∈ text, isBare c)
    (hvalue : bareValue? text = some d) : CutsInto text [.value d] := by
  intro rest hrest
  obtain ⟨c, tail, rfl⟩ := List.exists_cons_of_ne_nil hne
  obtain ⟨hc, htail⟩ := List.forall_mem_cons.1 hbare
  have hstop : ∀ c ∈ rest.head?, isBare c = false := hrest
  obtain ⟨htake, hdrop⟩ := Text.takeWhile_append_stop htail hstop
  have hblank : ¬ (c = ' ' || c = '\t' || c = '\n' || c = '\r') := by
    intro h
    simp only [Bool.or_eq_true, decide_eq_true_eq] at h
    rcases h with ((rfl | rfl) | rfl) | rfl <;> exact absurd hc (by decide)
  have hquote : c ≠ '"' := by
    rintro rfl
    exact absurd hc (by decide)
  rw [List.cons_append, lexemes?, if_neg hblank, if_neg hquote, if_pos hc]
  simp only [htake, hdrop, hvalue, Option.bind_eq_bind, Option.bind_some]
  rcases lexemes? rest with _ | more <;> rfl

/-- A bracket, a brace, a comma or a colon is one lexeme. -/
theorem lexemes?_mark {c : Char} (h : c ∈ ['[', ']', '\x7b', '\x7d', ',', ':']) (rest : List Char) :
    lexemes? (c :: rest) = (lexemes? rest).map (.mark c :: ·) := by
  have hc : ∀ c ∈ ['[', ']', '\x7b', '\x7d', ',', ':'],
      (c = ' ' || c = '\t' || c = '\n' || c = '\r') = false ∧ c ≠ '"' ∧ isBare c = false := by
    intro c hc
    simp only [List.mem_cons, List.not_mem_nil, or_false] at hc
    rcases hc with rfl | rfl | rfl | rfl | rfl | rfl
    all_goals exact ⟨rfl, by decide, rfl⟩
  obtain ⟨hblank, hquote, hbare⟩ := hc c h
  rw [lexemes?, if_neg (by simp [hblank]), if_neg hquote, if_neg (by simp [hbare])]

theorem lexemes?_space (rest : List Char) : lexemes? (' ' :: rest) = lexemes? rest := by
  rw [lexemes?, if_pos (by decide)]

/-- A string is one lexeme. -/
theorem cutsInto_text (s : String) : CutsInto (stringText s) [.text s] := by
  intro rest _
  have hbody := stringBody?_flatMap s.toList rest
  have heq : stringText s ++ rest = '"' :: (s.toList.flatMap stringChar ++ '"' :: rest) := by
    simp [stringText]
  rw [heq, lexemes?, if_neg (by decide), if_pos rfl]
  split
  · rename_i hnone
    rw [hbody] at hnone
    cases hnone
  · rename_i us more hsome
    rw [hbody] at hsome
    cases hsome
    rw [joinPairs_units, String.ofList_toList]
    rfl

/-! ### Reading without measuring

The readers carry along that they use lexemes up. Here they are without it. -/

/-- What was read, and the lexemes that are left. -/
def plain {α : Type} {lexemes : List Lexeme} (read : Option (α × Rest lexemes)) :
    Option (α × List Lexeme) := read.map fun (a, rest) => (a, rest.1)

/-- Reads one datum. -/
def datumOf? (lexemes : List Lexeme) : Option (Datum × List Lexeme) := plain (datum? lexemes)

/-- Reads the items of a list that has some, and its closing bracket. -/
def itemsOf? (lexemes : List Lexeme) : Option (List Datum × List Lexeme) := plain (items? lexemes)

/-- Reads the entries of a dictionary that has some, and its closing brace. -/
def entriesOf? (lexemes : List Lexeme) : Option (List (String × Datum) × List Lexeme) :=
  plain (entries? lexemes)

theorem plain_text (s : String) (rest : List Lexeme) :
    datumOf? (.text s :: rest) = some (.text s, rest) := by
  rw [datumOf?, datum?]
  rfl

theorem plain_value (d : Datum) (rest : List Lexeme) :
    datumOf? (.value d :: rest) = some (d, rest) := by
  rw [datumOf?, datum?]
  rfl

theorem plain_emptyList (rest : List Lexeme) :
    datumOf? (.mark '[' :: .mark ']' :: rest) = some (.list [], rest) := by
  rw [datumOf?, datum?]
  rfl

theorem plain_emptyDict (rest : List Lexeme) :
    datumOf? (.mark '\x7b' :: .mark '\x7d' :: rest) = some (.dict [], rest) := by
  rw [datumOf?, datum?]
  rfl

theorem plain_list {first : Lexeme} (h : first ≠ .mark ']') (rest : List Lexeme) :
    datumOf? (.mark '[' :: first :: rest) =
      (itemsOf? (first :: rest)).map fun (items, rest) => (.list items, rest) := by
  rw [datumOf?, itemsOf?, datum?]
  · rcases items? (first :: rest) with _ | ⟨items, rest', h'⟩ <;> rfl
  · rintro rest' heq
    exact h (List.cons.inj heq).1

theorem plain_dict {first : Lexeme} (h : first ≠ .mark '\x7d') (rest : List Lexeme) :
    datumOf? (.mark '\x7b' :: first :: rest) =
      (entriesOf? (first :: rest)).map fun (entries, rest) => (.dict entries, rest) := by
  rw [datumOf?, entriesOf?, datum?]
  · rcases entries? (first :: rest) with _ | ⟨entries, rest', h'⟩ <;> rfl
  · rintro rest' heq
    exact h (List.cons.inj heq).1

/-- The last item of a list. -/
theorem plain_lastItem {lexemes rest : List Lexeme} {item : Datum}
    (h : datumOf? lexemes = some (item, .mark ']' :: rest)) :
    itemsOf? lexemes = some ([item], rest) := by
  obtain ⟨⟨d, rest', hlen⟩, hd, heq⟩ := Option.map_eq_some_iff.1 h
  obtain ⟨rfl, rfl⟩ := Prod.mk.inj heq
  rw [itemsOf?, items?, hd]
  rfl

/-- An item with more of them behind it. -/
theorem plain_item {lexemes rest last : List Lexeme} {item : Datum} {items : List Datum}
    (h : datumOf? lexemes = some (item, .mark ',' :: rest))
    (hrest : itemsOf? rest = some (items, last)) :
    itemsOf? lexemes = some (item :: items, last) := by
  obtain ⟨⟨d, rest', hlen⟩, hd, heq⟩ := Option.map_eq_some_iff.1 h
  obtain ⟨rfl, rfl⟩ := Prod.mk.inj heq
  obtain ⟨⟨ds, last', hlast⟩, hds, heq⟩ := Option.map_eq_some_iff.1 hrest
  obtain ⟨rfl, rfl⟩ := Prod.mk.inj heq
  rw [itemsOf?, items?, hd]
  simp only [Option.bind_eq_bind, Option.bind_some, hds]
  rfl

/-- The last entry of a dictionary. -/
theorem plain_lastEntry {lexemes rest : List Lexeme} {key : String} {d : Datum}
    (h : datumOf? lexemes = some (d, .mark '\x7d' :: rest)) :
    entriesOf? (.text key :: .mark ':' :: lexemes) = some ([(key, d)], rest) := by
  obtain ⟨⟨d, rest', hlen⟩, hd, heq⟩ := Option.map_eq_some_iff.1 h
  obtain ⟨rfl, rfl⟩ := Prod.mk.inj heq
  rw [entriesOf?, entries?, hd]
  rfl

/-- An entry whose key is none of those behind it. -/
theorem plain_entry {lexemes rest last : List Lexeme} {key : String} {d : Datum}
    {entries : List (String × Datum)}
    (h : datumOf? lexemes = some (d, .mark ',' :: rest))
    (hrest : entriesOf? rest = some (entries, last)) (hkey : Datum.find? key entries = none) :
    entriesOf? (.text key :: .mark ':' :: lexemes) = some ((key, d) :: entries, last) := by
  obtain ⟨⟨d, rest', hlen⟩, hd, heq⟩ := Option.map_eq_some_iff.1 h
  obtain ⟨rfl, rfl⟩ := Prod.mk.inj heq
  obtain ⟨⟨es, last', hlast⟩, hes, heq⟩ := Option.map_eq_some_iff.1 hrest
  obtain ⟨rfl, rfl⟩ := Prod.mk.inj heq
  rw [entriesOf?, entries?, hd]
  simp only [Option.bind_eq_bind, Option.bind_some, hes, hkey, Option.isSome_none]
  rfl

/-! ### Data -/

/-- **A text is read as a datum**: it is cut into lexemes from which the datum is read, whatever
follows, and which do not start like the end of a list. -/
def ReadsAs (text : List Char) (d : Datum) : Prop :=
  ∃ first lexemes, CutsInto text (first :: lexemes) ∧ first ≠ .mark ']' ∧
    ∀ more, datumOf? (first :: lexemes ++ more) = some (d, more)

theorem readsAs_bare {text : List Char} {d : Datum} (hne : text ≠ []) (hbare : ∀ c ∈ text, isBare c)
    (hvalue : bareValue? text = some d) : ReadsAs text d :=
  ⟨.value d, [], cutsInto_bare hne hbare hvalue, nofun, fun more => plain_value d more⟩

theorem readsAs_text (s : String) : ReadsAs (stringText s) (.text s) :=
  ⟨.text s, [], cutsInto_text s, nofun, fun more => plain_text s more⟩

section Joined

variable {text : List Char} {row : List Lexeme} {closing : Char}

/-- The last part of a list or a dictionary, with the mark that closes it. -/
theorem CutsInto.last (h : CutsInto text row) (hbare : isBare closing = false)
    (hmark : closing ∈ ['[', ']', '\x7b', '\x7d', ',', ':']) (rest : List Char) :
    lexemes? (Datum.joined [',', ' '] [text] ++ closing :: rest) =
      (lexemes? rest).map (row ++ [.mark closing] ++ ·) := by
  have hends : EndsBare (closing :: rest) := by
    rintro c ⟨⟩
    exact hbare
  rw [Syntax.joined_singleton, h _ hends, lexemes?_mark hmark, Option.map_map]
  simp [Function.comp_def]

/-- A part of a list or a dictionary stands before further ones. -/
theorem CutsInto.further (h : CutsInto text row) {texts : List (List Char)} (hne : texts ≠ [])
    {more : List Lexeme} {rest : List Char}
    (hmore : lexemes? (Datum.joined [',', ' '] texts ++ closing :: rest) =
      (lexemes? rest).map (more ++ ·)) :
    lexemes? (Datum.joined [',', ' '] (text :: texts) ++ closing :: rest) =
      (lexemes? rest).map (row ++ .mark ',' :: more ++ ·) := by
  rw [Syntax.joined_cons _ _ hne, List.append_assoc, h _ (by rintro c ⟨⟩; decide)]
  rw [List.append_assoc, List.cons_append, lexemes?_mark (by decide), List.cons_append,
    lexemes?_space, List.nil_append, hmore, Option.map_map, Option.map_map]
  simp [Function.comp_def]

end Joined

/-- The items of a list with its closing bracket. -/
theorem items_readsAs {texts : List (List Char)} {items : List Datum}
    (h : List.Forall₂ ReadsAs texts items) (hne : items ≠ []) :
    ∃ first lexemes, first ≠ .mark ']' ∧
      (∀ rest, lexemes? (Datum.joined [',', ' '] texts ++ ']' :: rest) =
        (lexemes? rest).map (first :: lexemes ++ ·)) ∧
      ∀ more, itemsOf? (first :: lexemes ++ more) = some (items, more) := by
  induction h with
  | nil => exact absurd rfl hne
  | @cons text item texts items hitem hrest ih =>
    obtain ⟨first, lexemes, hcut, hfirst, hread⟩ := hitem
    cases hrest with
    | nil =>
      refine ⟨first, lexemes ++ [.mark ']'], hfirst, hcut.last (by decide) (by decide), ?_⟩
      intro more
      refine plain_lastItem ?_
      rw [← hread]
      simp
    | @cons text' item' texts items hitem' hrest =>
      obtain ⟨first', lexemes', hfirst', hcut', hread'⟩ := ih (by simp)
      refine ⟨first, lexemes ++ .mark ',' :: first' :: lexemes', hfirst,
        fun rest => hcut.further (by simp) (hcut' rest), ?_⟩
      intro more
      refine plain_item ?_ (hread' more)
      rw [← hread]
      simp

/-- A text between two marks of which the first opens and the second closes. -/
theorem cutsInto_between {opening closing : Char} {inside : List Char} {lexemes : List Lexeme}
    (hopening : opening ∈ ['[', ']', '\x7b', '\x7d', ',', ':'])
    (hinside : ∀ rest, lexemes? (inside ++ closing :: rest) = (lexemes? rest).map (lexemes ++ ·)) :
    CutsInto (opening :: inside ++ [closing]) (.mark opening :: lexemes) := by
  intro rest _
  rw [List.cons_append, List.cons_append, lexemes?_mark hopening, List.append_assoc,
    List.cons_append, List.nil_append, hinside, Option.map_map]
  rfl

/-- **Lists are read as lists.** -/
theorem readsAs_list {texts : List (List Char)} {items : List Datum}
    (h : List.Forall₂ ReadsAs texts items) :
    ReadsAs ('[' :: Datum.joined [',', ' '] texts ++ [']']) (.list items) := by
  rcases eq_or_ne items [] with rfl | hne
  · cases h
    refine ⟨.mark '[', [.mark ']'], cutsInto_between (by decide) fun rest => ?_, nofun,
      plain_emptyList⟩
    exact lexemes?_mark (by decide) rest
  · obtain ⟨first, lexemes, hfirst, hcut, hread⟩ := items_readsAs h hne
    refine ⟨.mark '[', first :: lexemes, cutsInto_between (by decide) hcut, nofun, fun more => ?_⟩
    rw [List.cons_append, List.cons_append, plain_list hfirst, ← List.cons_append, hread]
    rfl

/-- What the entries of a dictionary are written as. -/
def EntryReadsAs (text : List Char) (entry : String × Datum) : Prop :=
  ∃ value, text = stringText entry.1 ++ ':' :: ' ' :: value ∧ ReadsAs value entry.2

/-- The lexemes of an entry. -/
theorem EntryReadsAs.cut {text : List Char} {entry : String × Datum} (h : EntryReadsAs text entry) :
    ∃ lexemes, CutsInto text (.text entry.1 :: .mark ':' :: lexemes) ∧
      ∀ more, datumOf? (lexemes ++ more) = some (entry.2, more) := by
  obtain ⟨value, rfl, first, lexemes, hcut, -, hread⟩ := h
  refine ⟨first :: lexemes, ?_, hread⟩
  intro rest hrest
  rw [List.append_assoc, cutsInto_text _ _ (by rintro c ⟨⟩; decide), List.cons_append,
    lexemes?_mark (by decide), List.cons_append, lexemes?_space, hcut rest hrest, Option.map_map,
    Option.map_map]
  simp [Function.comp_def]

/-- The entries of a dictionary with its closing brace. -/
theorem entries_readsAs {texts : List (List Char)} {entries : List (String × Datum)}
    (h : List.Forall₂ EntryReadsAs texts entries) (hne : entries ≠ [])
    (hkeys : (entries.map Prod.fst).Nodup) :
    ∃ key lexemes,
      (∀ rest, lexemes? (Datum.joined [',', ' '] texts ++ '\x7d' :: rest) =
        (lexemes? rest).map (.text key :: lexemes ++ ·)) ∧
      ∀ more, entriesOf? (.text key :: lexemes ++ more) = some (entries, more) := by
  induction h with
  | nil => exact absurd rfl hne
  | @cons text entry texts entries hentry hrest ih =>
    obtain ⟨lexemes, hcut, hread⟩ := hentry.cut
    cases hrest with
    | nil =>
      refine ⟨entry.1, .mark ':' :: lexemes ++ [.mark '\x7d'], hcut.last (by decide) (by decide), ?_⟩
      intro more
      have hlast : entriesOf? (.text entry.1 :: .mark ':' :: (lexemes ++ .mark '\x7d' :: more)) =
          some ([(entry.1, entry.2)], more) := plain_lastEntry (hread _)
      simpa using hlast
    | @cons text' entry' texts entries hentry' hrest =>
      obtain ⟨hkey, hkeys'⟩ := List.nodup_cons.1 hkeys
      obtain ⟨key', lexemes', hcut', hread'⟩ := ih (by simp) hkeys'
      refine ⟨entry.1, .mark ':' :: lexemes ++ .mark ',' :: .text key' :: lexemes',
        fun rest => hcut.further (by simp) (hcut' rest), ?_⟩
      intro more
      have hnone : Datum.find? entry.1 (entry' :: entries) = none := by
        rw [Datum.find?, Option.map_eq_none_iff, List.find?_eq_none]
        rintro other hother heq
        refine hkey (List.mem_map.2 ⟨other, hother, ?_⟩)
        simpa using heq
      have hmore := plain_entry (hread (.mark ',' :: (.text key' :: lexemes' ++ more)))
        (hread' more) hnone
      simpa using hmore

/-- **Dictionaries are read as dictionaries.** -/
theorem readsAs_dict {texts : List (List Char)} {entries : List (String × Datum)}
    (h : List.Forall₂ EntryReadsAs texts entries) (hkeys : (entries.map Prod.fst).Nodup) :
    ReadsAs ('\x7b' :: Datum.joined [',', ' '] texts ++ ['\x7d']) (.dict entries) := by
  rcases eq_or_ne entries [] with rfl | hne
  · cases h
    refine ⟨.mark '\x7b', [.mark '\x7d'], cutsInto_between (by decide) fun rest => ?_, nofun,
      plain_emptyDict⟩
    exact lexemes?_mark (by decide) rest
  · obtain ⟨key, lexemes, hcut, hread⟩ := entries_readsAs h hne hkeys
    have hkey : Lexeme.text key ≠ .mark '\x7d' := by simp
    refine ⟨.mark '\x7b', .text key :: lexemes, cutsInto_between (by decide) hcut, nofun,
      fun more => ?_⟩
    rw [List.cons_append, List.cons_append, plain_dict hkey, ← List.cons_append, hread]
    rfl

/-! ### Numbers and bare words -/

/-- A character that numbers are written with. -/
def isNumeral (c : Char) : Bool := c.isDigit || c == '+' || c == '-' || c == '.' || c == 'e'

/-- A text of such characters is a number, if anything: every bare word has another one. -/
theorem bareValue?_eq_number? {text : List Char} (h : ∀ c ∈ text, isNumeral c) :
    bareValue? text = number? text := by
  have hwords : words.all (fun word => word.1.any fun c => !isNumeral c) = true := by decide
  have hnone : words.find? (fun word => word.1 == text) = none := by
    rw [List.find?_eq_none]
    intro word hword heq
    obtain rfl : word.1 = text := by simpa using heq
    obtain ⟨c, hc, hother⟩ := List.any_eq_true.1 (List.all_eq_true.1 hwords word hword)
    rw [h c hc] at hother
    cases hother
  rw [bareValue?, hnone]

theorem isBare_of_isNumeral {c : Char} (h : isNumeral c) : isBare c := by
  simp only [isNumeral, Bool.or_eq_true, beq_iff_eq] at h
  rcases h with (((h | rfl) | rfl) | rfl) | rfl
  · simp [isBare, Char.isAlphanum, h]
  all_goals rfl

/-- A number, told by its text. -/
theorem readsAs_number {text : List Char} {d : Datum} (hne : text ≠ []) (h : ∀ c ∈ text, isNumeral c)
    (hd : number? text = some d) : ReadsAs text d :=
  readsAs_bare hne (fun c hc => isBare_of_isNumeral (h c hc)) (by rw [bareValue?_eq_number? h, hd])

theorem isNumeral_of_isDigit {c : Char} (h : c.isDigit) : isNumeral c := by simp [isNumeral, h]

/-- **Integers are read as integers.** -/
theorem readsAs_int {n : Int} (h : n.natAbs < 10 ^ Number.digitLimit) :
    ReadsAs (Number.intText n) (.int n) := by
  have hdigits : ∀ c ∈ Number.natText n.natAbs, c.isDigit := Number.isDigit_of_mem_natText
  have hall : (Number.natText n.natAbs).all Char.isDigit = true := List.all_eq_true.2 hdigits
  have hvalue := Number.literalInt?_natText h
  rw [Number.intText]
  split
  · rename_i hneg
    refine readsAs_number (by simp) ?_ ?_
    · intro c hc
      rcases List.mem_cons.1 hc with rfl | hc
      · rfl
      · exact isNumeral_of_isDigit (hdigits c hc)
    · have habs : -(n.natAbs : Int) = n := by omega
      simp only [number?, hall, if_true, hvalue]
      exact congrArg (fun k => some (Datum.int k)) habs
  · rename_i hpos
    refine readsAs_number Nat.toDigits_ne_nil
      (fun c hc => isNumeral_of_isDigit (hdigits c hc)) ?_
    have hsign : ∀ rest, Number.natText n.natAbs ≠ '-' :: rest := by
      rintro rest heq
      exact absurd (hdigits '-' (by simp [heq])) (by decide)
    rw [number?.eq_def]
    split
    rename_i negative body heq
    split at heq
    · rename_i rest htext
      exact absurd htext (hsign rest)
    · cases heq
      have habs : (n.natAbs : Int) = n := Int.natAbs_of_nonneg (Int.not_lt.1 hpos)
      simp only [hall, if_true, hvalue]
      exact congrArg (fun k => some (Datum.int k)) habs

/-! ### Data that is stored -/

section Storable

variable {P : Float → Prop} (hP : ∀ x, P x → ReadsAs (Number.floatText .json x) (.float x))

include hP

/-- **Data that is stored is read as it was.** -/
theorem readsAs_compact {d : Datum} (h : d.Storable P) : ReadsAs (compact d) d := by
  induction h with
  | null => exact readsAs_bare (by decide) (List.all_eq_true.1 rfl) rfl
  | bool b => cases b <;> exact readsAs_bare (by decide) (List.all_eq_true.1 rfl) rfl
  | int n hn => exact readsAs_int hn
  | float x hx => exact hP x hx
  | text s => exact readsAs_text s
  | @list items _ ih =>
    rw [compact]
    refine readsAs_list ?_
    clear * - ih
    induction items with
    | nil => exact .nil
    | cons item items ihs =>
      obtain ⟨hitem, hitems⟩ := List.forall_mem_cons.1 ih
      exact .cons hitem (ihs hitems)
  | @dict entries hkeys _ ih =>
    rw [compact]
    refine readsAs_dict ?_ hkeys
    clear * - ih
    induction entries with
    | nil => exact .nil
    | cons entry entries ihs =>
      obtain ⟨hentry, hentries⟩ := List.forall_mem_cons.1 ih
      exact .cons ⟨_, rfl, hentry⟩ (ihs hentries)

/-- **JSON gives data back.** -/
theorem read?_compact {d : Datum} (h : d.Storable P) : read? (compact d) = some d := by
  obtain ⟨first, lexemes, hcut, -, hread⟩ := readsAs_compact hP h
  have hlexemes : lexemes? (compact d) = some (first :: lexemes) := by
    have := hcut [] (by rintro c ⟨⟩)
    rwa [List.append_nil, lexemes?, Option.map_some, List.append_nil] at this
  have hdatum := hread []
  rw [List.append_nil] at hdatum
  obtain ⟨⟨d', rest, hlen⟩, hd, heq⟩ := Option.map_eq_some_iff.1 hdatum
  obtain ⟨rfl, hrest⟩ := Prod.mk.inj heq
  change rest = [] at hrest
  rw [read?, hlexemes]
  simp only [Option.bind_eq_bind, Option.bind_some, hd, hrest, List.isEmpty_nil, if_true]

end Storable

end Json

end ChartScript
