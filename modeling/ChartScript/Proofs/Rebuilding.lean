import ChartScript.Proofs.Dictionaries

/-!
# What a unit gives back

A unit holds its program through three writings, and loses nothing: the quoted text is the JSON, the
JSON is the plain data of the program, and the plain data is the program, whatever quotes, escapes and
characters of other planes are in its texts. So two programs that differ have units that differ
(`ChartScript.Program.unit_lossless`).

There is one thing that a unit cannot do, and that is to replay any program that it holds. Rewriting a
program takes one call for most levels, and every program that was rewritten has a unit. But rebuilding
the program when the unit is replayed takes two (`ChartScript.Node.Descent.rebuilding`), up to the same
bound. A sum of ones shows that there are programs in between
(`ChartScript.Program.load_of_long_sum`).
-/

namespace ChartScript

open Syntax
open Exchange (descentProgram descentProgram_toDatum_le_iff)
open ChartScript.Text (unquote? quoted)

/-! ### Units -/

/-- **A unit of legible statements is replayed**, unless they are nested too deeply to be rebuilt. -/
theorem Program.load_of_legible {q : Program}
    (h : ∀ a ∈ q.assignments, LegibleStatement IsUnsigned a) :
    Program.load q.toUnit =
      if descentProgram q.toDatum ≤ depthLimit then .ok q
      else .error (.unbuildable .tooDeep) := by
  rw [Program.load, Program.unitDatum?_toUnit h]
  simp only [Program.rebuild, q.ofDatum_toDatum]
  split <;> rfl

/-- **Nothing is lost in a unit.** Of a script that has one, the text between the quotes is read as
JSON, the JSON as the plain data of the program, and the plain data as the program in the star
namespace. The unit replays this program, if rebuilding it from its plain data goes down no deeper than
the bound. And a script with the same unit has the same program. -/
theorem Program.unit_lossless {source : String} {p q : Program} (hread : Program.read source = .ok p)
    (hstar : p.toStar = .ok q) :
    (∃ json, q.toUnit = unitHead ++ quoted json ++ unitTail ∧
      unquote? (quoted json ++ unitTail) = some (json, unitTail) ∧
      Json.read? json = some q.toDatum ∧ Program.ofDatum q.toDatum = .ok q) ∧
    (Program.load q.toUnit =
      if descentProgram q.toDatum ≤ depthLimit then .ok q
      else .error (.unbuildable .tooDeep)) ∧
    ∀ (source' : String) (p' q' : Program), Program.read source' = .ok p' → p'.toStar = .ok q' →
      q'.toUnit = q.toUnit → q' = q := by
  have hlegible := legible_of_toStar hstar (legible_of_read hread)
  have hstorable := Program.storable fun a ha => (hlegible a ha).expr
  refine ⟨⟨Json.compact q.toDatum, rfl, Text.unquote?_quoted _ _,
    Json.read?_compact (fun _ hx => Json.readsAs_float hx) hstorable, q.ofDatum_toDatum⟩,
    Program.load_of_legible hlegible, fun source' p' q' hread' hstar' hunit => ?_⟩
  -- what is taken out of the two units is the same
  have hsame : some q' = some q := by
    rw [← Program.ofUnit?_toUnit hlegible,
      ← Program.ofUnit?_toUnit (legible_of_toStar hstar' (legible_of_read hread')), hunit]
  exact Option.some.inj hsame

/-- A script with quotes of both kinds, a backslash, a character of another plane, a named argument, an
empty list, and an integer beside the float of the same value. -/
def quotesSource : String :=
  "indicator(\"it's 😀\")\nx = ta.sma(a = \"it's \\\\ \\\" 😀\", [], 1, 1.0)"

/-- The program of that script. -/
def quotesProgram : Program where
  indicators := ["indicator(\"it's 😀\")"]
  assignments := [
    { target := "x"
      expr := .call "ta.sma" [.identifier "a" true, .string (.text "it's \\ \" 😀"), .array [],
        .number (.int 1), .number (.float 1.0)] }]

theorem Program.unit_lossless_quotes : ∃ q json, Program.read quotesSource = .ok quotesProgram ∧
    quotesProgram.toStar = .ok q ∧ q.toUnit = unitHead ++ quoted json ++ unitTail ∧
      unquote? (quoted json ++ unitTail) = some (json, unitTail) ∧
        Json.read? json = some q.toDatum ∧ Program.load q.toUnit = .ok q := by
  have hread : Program.read quotesSource = .ok quotesProgram := by
    with_unfolding_all rfl
  obtain ⟨q, hq⟩ : ∃ q : Program, q = { quotesProgram with
    assignments := quotesProgram.assignments.map fun a => { a with expr := a.expr.toStar } } :=
    ⟨_, rfl⟩
  have hstar : quotesProgram.toStar = .ok q := by
    rw [hq]
    with_unfolding_all rfl
  have hdepth : descentProgram q.toDatum ≤ depthLimit := by
    rw [descentProgram_toDatum_le_iff, hq]
    decide
  obtain ⟨⟨json, hunit, hquoted, hjson, -⟩, hload, -⟩ := Program.unit_lossless hread hstar
  rw [if_pos hdepth] at hload
  exact ⟨q, json, hread, hstar, hunit, hquoted, hjson, hload⟩

/-! ### Where a unit is not replayed -/

/-- **The unit of a sum is replayed only up to half as many terms** as there are in the longest sum that
is rewritten. -/
theorem Program.load_ones (n : Nat) : Program.load (onesProgram n).toUnit =
    if 2 + n * 2 ≤ depthLimit then .ok (onesProgram n) else .error (.unbuildable .tooDeep) := by
  rw [Program.load_of_legible (legible_of_read (Program.read_ones n))]
  simp only [descentProgram_onesProgram]

/-- A sum of seven hundred ones is read and rewritten, and its unit is not replayed. -/
theorem Program.load_of_long_sum : Program.read (onesSource 699) = .ok (onesProgram 699) ∧
    (onesProgram 699).toStar = .ok (onesProgram 699) ∧
      Program.load (onesProgram 699).toUnit = .error (.unbuildable .tooDeep) :=
  ⟨Program.read_ones 699, Program.toStar_ones (by decide),
    (Program.load_ones 699).trans (if_neg (by decide))⟩

end ChartScript
