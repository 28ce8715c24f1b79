import ChartScript.Data.Canonical
import ChartScript.Data.Json
import ChartScript.Grammar.Exchange
import ChartScript.Syntax.Source

/-!
# Conformance of the two readers

There are two ways to read a source, line by line (`Program.read`) and by the grammar
(`Grammar.readByGrammar`), and they are meant to agree. A conformance run reads every sample both
ways and reports the samples on which the canonical forms of the results are not alike, or which the
reference reader refuses. A source that the line reader cannot read ends the run, and so does one whose
program is nested too deep for a canonical form.
-/

namespace ChartScript

/-- A named source. -/
structure Sample where
  /-- The name. -/
  name : String
  /-- The source. -/
  source : String

/-- A sample on which the two readers do not agree, with what each of them makes of it. -/
structure Mismatch where
  /-- The name of the sample. -/
  name : String
  /-- The canonical form of what the line reader makes of it. -/
  hand : Datum
  /-- The canonical form of what the reference reader makes of it, or its refusal. -/
  gen : Datum

/-- The outcome of a conformance run. -/
structure Report where
  /-- The number of samples. -/
  samples : Nat
  /-- The samples on which the readers do not agree, in order. -/
  mismatches : List Mismatch

/-- A second reader of sources: a program, or the message of a refusal. -/
abbrev Reference := String → Except String Program

/-- The message of a failure to read by the grammar. -/
def Grammar.ReadError.message : Grammar.ReadError → String
  | .refused reason => reason.message
  | .undescribed reason => reason.message?.getD ""

/-- The grammar as the second reader. -/
def grammarReference : Reference := fun source =>
  (Grammar.readByGrammar source).mapError Grammar.ReadError.message

/-- The canonical form of a program. -/
def Program.canonical (p : Program) : Datum := p.toDatum.canonical

/-- The canonical form of a program that is not nested too deep. -/
def Program.canonical? (p : Program) : Option Datum := p.toDatum.canonical?

/-- The canonical form of what the reference reader makes of a source, or the message of its refusal. A
program without a canonical form is refused, too. -/
def Reference.outcome (reference : Reference) (source : String) : Except String Datum := do
  let p ← reference source
  match p.canonical? with
  | some d => return d
  | none => throw "maximum recursion depth exceeded"

/-- The mismatch on a sample, if there is one, given the canonical form of what the line reader makes
of it. -/
def Reference.mismatch? (reference : Reference) (sample : Sample) (hand : Datum) :
    Option Mismatch :=
  match reference.outcome sample.source with
  | .error message =>
    some { name := sample.name, hand, gen := .dict [("error", .text message)] }
  | .ok gen => if hand.alike gen then none else some { name := sample.name, hand, gen }

/-- Why a run comes to nothing. -/
inductive CompareError where
  /-- The line reader cannot read a sample. -/
  | unreadable (e : Syntax.UnreadableNumber)
  /-- What the line reader makes of a sample has no canonical form. -/
  | tooDeep

namespace Report

/-- What comes of a sample: a mismatch or nothing. -/
def compareOn (reference : Reference) (sample : Sample) :
    Except CompareError (Option Mismatch) :=
  match Program.read sample.source with
  | .error e => .error (.unreadable e)
  | .ok p =>
    match p.canonical? with
    | none => .error .tooDeep
    | some hand => .ok (reference.mismatch? sample hand)

/-- Reads every sample both ways. -/
def compare (reference : Reference) (samples : List Sample) : Except CompareError Report := do
  let found ← samples.mapM (compareOn reference)
  return { samples := samples.length, mismatches := found.filterMap id }

/-- Whether the readers agree on all samples. -/
def ok (r : Report) : Bool := r.mismatches.isEmpty

end Report

/-- A mismatch as plain data. -/
def Mismatch.toDatum (m : Mismatch) : Datum :=
  .dict [("name", .text m.name), ("hand", m.hand), ("gen", m.gen)]

namespace Report

/-- A report as plain data, made at the given time. -/
def toDatum (time : String) (r : Report) : Datum :=
  .dict [("generatedAt", .text time), ("samples", .int r.samples),
    ("mismatches", .list (r.mismatches.map Mismatch.toDatum))]

/-- The lines of a report that show a datum. -/
def jsonBlock (heading : String) (d : Datum) : List String :=
  ["### " ++ heading, "", "```json", String.ofList (Json.indented 0 d), "```", ""]

/-- The lines of a report on a mismatch. -/
def mismatchLines (m : Mismatch) : List String :=
  ["## " ++ m.name, ""] ++ jsonBlock "hand" m.hand ++ jsonBlock "gen" m.gen

/-- The first lines of a report. -/
def headLines (time : String) (r : Report) : List String :=
  ["# Parser conformance report", "", "Generated: " ++ time, "",
    "Samples: " ++ String.ofList (Number.natText r.samples),
    "Mismatches: " ++ String.ofList (Number.natText r.mismatches.length), ""]

/-- A report for readers, in Markdown. -/
def markdown (time : String) (r : Report) : String :=
  if r.ok then
    "\n".intercalate (headLines time r ++ ["All samples parse identically."]) ++ "\n"
  else "\n".intercalate (headLines time r ++ r.mismatches.flatMap mismatchLines)

end Report

end ChartScript
