import ChartScript.Proofs.Reading
import ChartScript.Proofs.Rendering

/-!
# Programs that are written are read again

A program that was read, with its calls sent through the star namespace, can be written as source text
and read again, and comes back with the same statements. The expressions are the same but for the place
of named arguments, which stand behind the positional ones when they come back.

What is left to do beyond single expressions is to see that a statement has on its line the form that
it came from. A line is taken for what it is by its first characters, and these the writing keeps: the
target of an assignment, or the name of the function that is called, possibly with `star` before it
(`ChartScript.Syntax.LegibleStatement`).
-/

namespace ChartScript

namespace Syntax

open ChartScript.Text
open ChartScript.Grammar (lexed isInLine isNameChar isIndicatorLine_append bind_eq_ok map_eq_ok
  mapM_eq_ok_iff of_mapM_eq_ok mapM_error_or forall₂_imp_of_mem)
open Datum (joined)

/-! ### Names at the start of a line -/

/-- Whether a character can stand in the name of a function that is called at the start of a line. -/
def isCalleeChar (c : Char) : Bool := isTargetChar c || c == '.'

/-- A text that is a name of the class of characters as a whole, as it can stand at the start of a
line. -/
def IsLeading (p : Char → Bool) (name : List Char) : Prop := leadingName? p name = some (name, [])

section Leading

variable {p : Char → Bool} {name rest line : List Char}

theorem isLeading_cons {c : Char} :
    IsLeading p (c :: rest) ↔ isTargetStart c ∧ ∀ d ∈ rest, p d := by
  rw [IsLeading, leadingName?]
  split
  · rename_i hc
    simp [hc]
  · rename_i hc
    simp [hc]

/-- The name at the start of a line. -/
theorem of_leadingName? (h : leadingName? p line = some (name, rest)) :
    IsLeading p name ∧ line = name ++ rest ∧ ∀ c ∈ rest.head?, p c = false := by
  rcases line with _ | ⟨c, line⟩
  · cases h
  · rw [leadingName?] at h
    split at h
    · rename_i hc
      cases h
      refine ⟨isLeading_cons.2 ⟨hc, fun d hd => List.mem_takeWhile_imp hd⟩, ?_, fun d hd => ?_⟩
      · rw [List.cons_append, List.takeWhile_append_dropWhile]
      · have := List.head?_dropWhile_not p line
        rw [hd] at this
        simpa using this
    · cases h

/-- A name is found at the start of a line where it ends. -/
theorem IsLeading.append (h : IsLeading p name) (hr : ∀ c ∈ rest.head?, p c = false) :
    leadingName? p (name ++ rest) = some (name, rest) := by
  rcases name with _ | ⟨c, name⟩
  · cases h
  · obtain ⟨hc, hp⟩ := isLeading_cons.1 h
    obtain ⟨hname, hrest⟩ := takeWhile_append_stop hp hr
    rw [List.cons_append, leadingName?, if_pos hc, hname, hrest]

end Leading

theorem isNameChar_eq (c : Char) : isTargetChar c = isNameChar c := rfl

theorem isTargetChar_of_isTargetStart {c : Char} (h : isTargetStart c) : isTargetChar c := by
  simp only [isTargetStart, isTargetChar, Char.isAlphanum, Bool.or_eq_true] at h ⊢
  tauto

/-- The characters of such a name are basic word characters and points. -/
theorem IsLeading.mem {name : List Char} (h : IsLeading isCalleeChar name) :
    ∀ c ∈ name, isNameChar c ∨ c = '.' := by
  rcases name with _ | ⟨c, name⟩
  · simp
  · obtain ⟨hc, hp⟩ := isLeading_cons.1 h
    refine List.forall_mem_cons.2 ⟨.inl (isTargetChar_of_isTargetStart hc), fun d hd => ?_⟩
    have hd := hp d hd
    rwa [isCalleeChar, Bool.or_eq_true, beq_iff_eq, isNameChar_eq] at hd

theorem IsLeading.callee {name : List Char} (h : IsLeading isTargetChar name) :
    IsLeading isCalleeChar name := by
  rcases name with _ | ⟨c, name⟩
  · cases h
  · obtain ⟨hc, hp⟩ := isLeading_cons.1 h
    exact isLeading_cons.2 ⟨hc, fun d hd => by rw [isCalleeChar, hp d hd, Bool.true_or]⟩

theorem IsLeading.tight {name : List Char} (h : IsLeading isCalleeChar name) : Tight name := by
  refine tight_of_no_blank ?_ fun c hc => not_isBlank_of_isWordChar ?_
  · rintro rfl
    cases h
  · exact (h.mem c hc).imp_left isWordChar_of_isNameChar

/-- A line that starts with such a name is neither empty nor a comment. -/
theorem IsLeading.not_ignored {name : List Char} (h : IsLeading isCalleeChar name)
    (rest : List Char) : ((name ++ rest).isEmpty || isCommentLine (name ++ rest)) = false := by
  rcases name with _ | ⟨c, name⟩
  · cases h
  · have hslash : c ≠ '/' := by
      rintro rfl
      exact absurd (isLeading_cons.1 h).1 (by decide)
    simp [isCommentLine, List.isPrefixOf, Ne.symm hslash]

/-! ### Statements -/

/-- **What a statement is that can be written on a line and read again.** Its line starts with a name
that is not the word for indicator lines. -/
inductive LegibleStatement (P : Float → Prop) : Assignment → Prop
  /-- An assignment to a name that is not reserved. -/
  | assignment {target : String} {expr : Node} : target ≠ callTarget →
      IsLeading isTargetChar target.toList → isIndicatorLine target.toList = false →
      Legible P expr → LegibleStatement P ⟨target, expr⟩
  /-- A call. -/
  | call {callee : String} {args : List Node} : IsLeading isCalleeChar callee.toList →
      isIndicatorLine callee.toList = false → Legible P (.call callee args) →
      LegibleStatement P ⟨callTarget, .call callee args⟩

theorem LegibleStatement.expr {P : Float → Prop} {a : Assignment} (h : LegibleStatement P a) :
    Legible P a.expr := by
  cases h <;> assumption

/-- More may be known of the floats of a statement. -/
theorem LegibleStatement.imp {P Q : Float → Prop} {a : Assignment} (h : LegibleStatement P a)
    (hq : ∀ x, .number (.float x) ∈ a.expr.parts → P x → Q x) : LegibleStatement Q a := by
  cases h with
  | assignment ht hl hi he => exact .assignment ht hl hi (he.imp hq)
  | call hl hi he => exact .call hl hi (he.imp hq)

/-- What stands before the equals sign of an assignment ends there. -/
theorem of_assignmentParts? {line target value : List Char}
    (h : assignmentParts? line = some (target, value)) (hi : isIndicatorLine line = false) :
    IsLeading isTargetChar target ∧ isIndicatorLine target = false := by
  obtain ⟨⟨name, rest⟩, hname, hparts⟩ := Option.bind_eq_some_iff.1 h
  obtain ⟨hl, rfl, -⟩ := of_leadingName? hname
  simp only at hparts
  split at hparts
  · rename_i more ht
    split at hparts
    · cases hparts
    · cases hparts
      refine ⟨hl, ?_⟩
      rwa [isIndicatorLine_append] at hi
      -- between the name and the equals sign there are only blanks
      intro c hc
      obtain ⟨rest, rfl⟩ := List.head?_eq_some_iff.1 hc
      by_cases hb : isBlank c
      · exact isWordChar_of_isBlank hb
      · rw [trimStart, List.dropWhile_cons_of_neg hb] at ht
        cases ht
        exact (not_isWordChar_char .assign).1
  · cases hparts

/-- Where a name ends no word goes on. -/
theorem nameRest_stop (text : List Char) :
    ∀ c ∈ (nameRest text).2.head?, isWordChar c = false := by
  fun_induction nameRest text with
  | case1 c rest hc name after heq ih | case3 c rest hne hc name after heq ih =>
    rw [heq] at ih
    exact ih
  | case2 c rest hc =>
    rintro _ ⟨⟩
    exact not_isWordChar_point
  | case4 c rest hne hc =>
    rintro _ ⟨⟩
    simpa using hc
  | case5 => simp

/-- A text that looks like a call has a name of basic characters before the parenthesis. -/
theorem isCalleeChar_of_looksLikeCall {c : Char} {rest : List Char}
    (h : looksLikeCall (c :: rest)) : isTargetStart c ∧ ∀ d ∈ (nameRest rest).1, isCalleeChar d := by
  have hc : isTargetStart c := Grammar.isNameStart_of_looksLikeCall h
  refine ⟨hc, ?_⟩
  rw [Grammar.looksLikeCall_cons hc, beq_iff_eq] at h
  change (trimStart (rest.dropWhile isCalleeChar)).head? = some '(' at h
  have hleft : rest.takeWhile isCalleeChar <+: rest := List.takeWhile_prefix _
  have hright : (nameRest rest).1 <+: rest := ⟨_, nameRest_append rest⟩
  -- both the name of the lexeme and the leading name are starts of the text: one is in the other
  rcases List.prefix_or_prefix_of_prefix hright hleft with hle | ⟨more, hmore⟩
  · exact fun d hd => List.mem_takeWhile_imp (hle.subset hd)
  · rcases more with _ | ⟨d, more⟩
    · rw [List.append_nil] at hmore
      rw [← hmore]
      exact fun d hd => List.mem_takeWhile_imp hd
    · -- the character behind the leading name belongs to the lexeme, so it is no blank
      have hd : isWordChar d ∨ d = '.' := mem_of_nameRest rest d (by simp [← hmore])
      obtain ⟨tail, htail⟩ := hright
      rw [← hmore, List.append_assoc] at htail
      have hdrop : rest.dropWhile isCalleeChar = d :: more ++ tail :=
        List.append_cancel_left (List.takeWhile_append_dropWhile.trans htail.symm)
      rw [hdrop, List.cons_append, trimStart, List.dropWhile_cons_of_neg (by simp [not_isBlank_of_isWordChar hd])] at h
      cases h
      have hparen : isWordChar '(' = false := (not_isWordChar_char .leftParen).1
      rcases hd with hd | hd
      · rw [hparen] at hd
        cases hd
      · cases hd

/-- The name that a line starts with is its first lexeme. -/
theorem lexed_of_isTargetStart {c : Char} {rest : List Char} {column : Nat} {row : List Lexeme}
    (hc : isTargetStart c) (h : lexed column (c :: rest) = .ok row) :
    ∃ row', row = .name (String.ofList (c :: (nameRest rest).1)) :: row' := by
  have hn : Grammar.isNameStart c := hc
  have hw := isWordChar_of_isNameStart (isNameStart_of_isNameStart hn)
  have hpass := not_passed hw rest
  obtain ⟨hd, hp, hq, hq'⟩ := Grammar.not_isDigit_of_isNameStart hn
  obtain ⟨found, row', hcut, -, rfl⟩ := Grammar.of_lexed_eq_ok hpass.1 hpass.2 h
  rw [cut, if_neg (by simp [startsNumber, hd, hp]), if_neg (by simp [hq, hq']),
    if_pos (isNameStart_of_isNameStart hn)] at hcut
  cases hcut
  exact ⟨row', rfl⟩

/-- What stands before the parenthesis of a call is its name, and ends there. -/
theorem of_looksLikeCall {line : List Char} {callee : String} {args : List Node}
    (hc : looksLikeCall line) (hi : ¬ isIndicatorLine line)
    (hr : readExpression line = .ok (some (.call callee args))) :
    IsLeading isCalleeChar callee.toList ∧ isIndicatorLine callee.toList = false := by
  rcases line with _ | ⟨c, rest⟩
  · cases hc
  obtain ⟨hstart, hmem⟩ := isCalleeChar_of_looksLikeCall hc
  obtain ⟨row, hl, -, hs⟩ := of_readExpression_eq_some hr
  obtain ⟨row', rfl⟩ := lexed_of_isTargetStart hstart hl
  -- the row starts with a name, so the call stands in no parentheses
  rcases hs.call_cases with hhead | ⟨u, hrow, -⟩
  · cases hhead
  · have hcallee : callee.toList = c :: (nameRest rest).1 := by
      cases hrow
      exact String.toList_ofList
    rw [hcallee]
    refine ⟨isLeading_cons.2 ⟨hstart, hmem⟩, ?_⟩
    rwa [Bool.not_eq_true, ← nameRest_append rest, ← List.cons_append,
      isIndicatorLine_append (nameRest_stop rest)] at hi

/-- **What is read on a line is legible.** -/
theorem legible_of_readTrimmedLine {line : List Char} {a : Assignment}
    (h : readTrimmedLine line = .ok (.statement a)) : LegibleStatement IsUnsigned a := by
  have hlegible : ∀ {text n}, readExpression text = .ok (some n) → Legible IsUnsigned n := by
    intro text n hr
    obtain ⟨row, hl, -, hs⟩ := of_readExpression_eq_some hr
    exact (legibleAs_single rfl).1 (hs.legible (legible_of_lexed hl))
  by_cases hign : line.isEmpty || isCommentLine line
  · rw [readTrimmedLine_ignored hign] at h
    cases h
  rw [Bool.not_eq_true] at hign
  by_cases hi : isIndicatorLine line
  · rw [readTrimmedLine_indicator hi] at h
    cases h
  rcases readTrimmedLine_statement hign hi h nofun with ⟨target, value, n, ha, ht, he, heq⟩ |
    ⟨callee, args, -, hc, he, heq⟩
  · cases heq
    rw [Bool.not_eq_true] at hi
    obtain ⟨hl, hi⟩ := of_assignmentParts? ha hi
    refine .assignment ht ?_ ?_ (hlegible he)
    · rwa [String.toList_ofList]
    · rwa [String.toList_ofList]
  · cases heq
    obtain ⟨hl, hi⟩ := of_looksLikeCall hc hi he
    exact .call hl hi (hlegible he)

/-! ### The star namespace -/

theorem isCalleeChar_of_mem {name : List Char} (h : IsLeading isCalleeChar name) :
    ∀ c ∈ name, isCalleeChar c := by
  intro c hc
  rw [isCalleeChar, Bool.or_eq_true, beq_iff_eq]
  exact h.mem c hc

/-- A line that starts with another letter is no indicator line. -/
theorem isIndicatorLine_cons {c : Char} (h : c ≠ 'i') (rest : List Char) :
    isIndicatorLine (c :: rest) = false := by
  simp [isIndicatorLine, List.isPrefixOf, Ne.symm h]

/-- A name behind a beginning that the star namespace puts before it. -/
theorem IsLeading.behind {name : List Char} (h : IsLeading isCalleeChar name) {c : Char}
    {start : List Char} (hc : isTargetStart c) (hs : ∀ d ∈ start, isCalleeChar d) :
    IsLeading isCalleeChar (c :: (start ++ name)) :=
  isLeading_cons.2 ⟨hc, List.forall_mem_append.2 ⟨hs, isCalleeChar_of_mem h⟩⟩

/-- A function goes on being called at the start of its line. -/
theorem isLeading_starCallee {callee : String} (h : IsLeading isCalleeChar callee.toList)
    (hi : isIndicatorLine callee.toList = false) :
    IsLeading isCalleeChar (starCallee callee).toList ∧
      isIndicatorLine (starCallee callee).toList = false := by
  have hmem : ∀ start : List Char, start.all isCalleeChar → ∀ d ∈ start, isCalleeChar d :=
    fun _ => List.all_eq_true.1
  have hword (start : List Char) (hs : start.all isCalleeChar) :
      IsLeading isCalleeChar ('s' :: (start ++ callee.toList)) ∧
        isIndicatorLine ('s' :: (start ++ callee.toList)) = false :=
    ⟨h.behind (by decide) (hmem start hs), isIndicatorLine_cons (by decide) _⟩
  rcases starCallee_cases callee with heq | heq | heq
  all_goals rw [heq]
  · exact ⟨h, hi⟩
  · rw [String.toList_append]
    exact hword ['t', 'a', 'r', '.'] (by decide)
  · rw [String.toList_append]
    exact hword ['t', 'a', 'r', '.', 't', 'a', '.'] (by decide)

/-- **Sending calls through the star namespace keeps a statement legible.** -/
theorem LegibleStatement.toStar {P : Float → Prop} {a b : Assignment} (h : LegibleStatement P a)
    (hb : a.toStar = .ok b) : LegibleStatement P b := by
  rw [Assignment.toStar] at hb
  split at hb
  · cases hb
  · cases hb
    cases h with
    | assignment ht hl hi he => exact .assignment ht hl hi he.toStar
    | @call callee args hl hi he =>
      have hstar := he.toStar
      have hlead := isLeading_starCallee hl hi
      rw [Node.toStar] at hstar
      simp only [Node.toStar]
      exact .call hlead.1 hlead.2 hstar

/-! ### Lines that are written -/

/-- Nothing is taken off a text without blanks at its ends. -/
theorem Tight.trim_eq {text : List Char} (h : Tight text) : trim text = text := by
  have hlast : ∀ c ∈ text.reverse.head?, isBlank c = false := by
    rw [List.head?_reverse]
    exact h.last
  rw [trim, trimStart_eq h.head, trimEnd, dropWhile_stop hlast, List.reverse_reverse]

/-- What a written text is cut into. -/
theorem Written.lexed {S : List Lexeme → Prop} {text : List Char} (hw : Written S text) :
    ∃ row, Grammar.lexed 1 text = .ok row ∧ S row := by
  obtain ⟨-, row, hcut, hs⟩ := hw
  obtain ⟨column, hl⟩ := hcut [] (by simp [Grammar.Clear]) 1
  rw [List.append_nil, Grammar.lexed_nil] at hl
  exact ⟨row, by simpa [Except.map] using hl, hs⟩

/-- **What is written on a line is read**, within the bound on nesting. -/
theorem readExpression_of_written {line text : List Char} {n : Node}
    (hw : Written (Spells .sum · [n]) text) (ht : expressionText? (trim line) = some text)
    (hd : isShallow line) : readExpression text = .ok (some n) := by
  obtain ⟨row, hl, hs⟩ := hw.lexed
  exact readExpression_of_spells hl (fun _ => nesting_of_isShallow ht hd) hs

/-- A line is within the bound on nesting if all rows that its text may be cut into are. -/
theorem Written.isShallow {S : List Lexeme → Prop} {line text : List Char} (hw : Written S text)
    (ht : expressionText? (trim line) = some text) (hS : ∀ row, S row → nesting row ≤ depthLimit) :
    isShallow line := by
  obtain ⟨row, hl, hs⟩ := hw.lexed
  rw [Grammar.lexed] at hl
  obtain ⟨scanned, hscan, rfl⟩ := map_eq_ok hl
  rw [Syntax.isShallow, ht, Option.all_some, scan, hscan]
  simpa using hS _ hs

/-- **A line that comes back as the statement**, arranged. -/
def ReadsBack (line : List Char) (a : Assignment) : Prop :=
  line.all isInLine ∧ (isShallow line → readLine line = .ok (.statement a.arranged))

/-- The line of an assignment. -/
def assignmentLine (target text : List Char) : List Char := target ++ " = ".toList ++ text

section AssignmentLine

variable {target text : List Char} (hl : IsLeading isTargetChar target) (htight : Tight text)

include hl htight

theorem tight_assignmentLine : Tight (assignmentLine target text) := by
  rw [assignmentLine, List.append_assoc]
  exact hl.callee.tight.append (by decide) htight

theorem assignmentParts?_assignmentLine :
    assignmentParts? (assignmentLine target text) = some (target, text) := by
  have hspace : ∀ c ∈ (" = ".toList ++ text).head?, isTargetChar c = false := by
    rintro c ⟨⟩
    rfl
  have hvalue : trimStart (' ' :: text) = text := by
    obtain ⟨c, rest, rfl⟩ := List.exists_cons_of_ne_nil htight.ne_nil
    rw [trimStart, List.dropWhile_cons_of_pos isBlank_space,
      List.dropWhile_cons_of_neg (by simp [htight.head c rfl])]
  have hequals : trimStart (" = ".toList ++ text) = '=' :: ' ' :: text := by
    rw [trimStart]
    exact (List.dropWhile_cons_of_pos isBlank_space).trans
      (List.dropWhile_cons_of_neg (not_isBlank (by decide)))
  rw [assignmentLine, List.append_assoc, assignmentParts?, hl.append hspace, Option.bind_eq_bind,
    Option.bind_some]
  simp only [hequals, hvalue]
  rw [if_neg (by simpa using htight.ne_nil)]

omit htight in
theorem not_ignored_assignmentLine :
    ((assignmentLine target text).isEmpty || isCommentLine (assignmentLine target text)) = false := by
  rw [assignmentLine, List.append_assoc]
  exact hl.callee.not_ignored (" = ".toList ++ text)

omit hl htight in
theorem not_isIndicatorLine_assignmentLine (hi : isIndicatorLine target = false) :
    ¬ isIndicatorLine (assignmentLine target text) := by
  have hstop : ∀ c ∈ (" = ".toList ++ text).head?, isWordChar c = false := by
    rintro c ⟨⟩
    exact isStop_space.1
  rw [assignmentLine, List.append_assoc, isIndicatorLine_append hstop, hi]
  exact Bool.false_ne_true

/-- The expression on the line of an assignment. -/
theorem expressionText?_assignmentLine (hi : isIndicatorLine target = false) :
    expressionText? (trim (assignmentLine target text)) = some text := by
  rw [(tight_assignmentLine hl htight).trim_eq]
  exact expressionText?_assignment (not_ignored_assignmentLine hl)
    (not_isIndicatorLine_assignmentLine hi) (assignmentParts?_assignmentLine hl htight)

end AssignmentLine

/-- An assignment is written and read again. -/
theorem readsBack_assignment {target text : List Char} {n : Node}
    (hl : IsLeading isTargetChar target) (ht : String.ofList target ≠ callTarget)
    (hi : isIndicatorLine target = false) (hw : Written (Spells .sum · [n.arranged]) text) :
    ReadsBack (assignmentLine target text) ⟨String.ofList target, n⟩ := by
  have htight := tight_assignmentLine hl hw.tight
  refine ⟨htight.line, fun hd => ?_⟩
  -- the line is the assignment that it was made from, and its right-hand side is read again
  rw [readLine, htight.trim_eq,
    readTrimmedLine_assignment (not_ignored_assignmentLine hl)
      (not_isIndicatorLine_assignmentLine hi) (assignmentParts?_assignmentLine hl hw.tight) ht,
    readExpression_of_written hw (expressionText?_assignmentLine hl hw.tight hi) hd]
  rfl

/-- A call is written and read again. -/
theorem readsBack_call {callee : String} {args : List Node} {text rest : List Char}
    (hl : IsLeading isCalleeChar callee.toList) (hi : isIndicatorLine callee.toList = false)
    (heq : text = callee.toList ++ '(' :: rest)
    (hw : Written (Spells .sum · [(Node.call callee args).arranged]) text) :
    ReadsBack text ⟨callTarget, .call callee args⟩ := by
  have hstop : ∀ c ∈ ('(' :: rest).head?, isWordChar c = false := by
    rintro c ⟨⟩
    exact (not_isWordChar_char .leftParen).1
  have htrim : trimStart ('(' :: rest) = '(' :: rest :=
    List.dropWhile_cons_of_neg (not_isBlank (by decide))
  obtain ⟨hcall, hparts⟩ : looksLikeCall text ∧ assignmentParts? text = none := by
    rcases hname : callee.toList with _ | ⟨c, name⟩
    · rw [hname] at hl
      cases hl
    · rw [hname] at hl
      -- a point or the parenthesis follows the first segment of the name, and neither is `=`
      have hmem : ∀ d ∈ name, isNameChar d ∨ d = '.' :=
        fun d hd => hl.mem d (List.mem_cons_of_mem _ hd)
      have hc : Grammar.isNameStart c := (isLeading_cons.1 hl).1
      rw [heq, hname, List.cons_append]
      constructor
      · rw [Grammar.looksLikeCall_cons hc, List.dropWhile_append_of_pos (by simpa using hmem),
          List.dropWhile_cons_of_neg (by decide), htrim]
        rfl
      · obtain ⟨d, tail, hd, hcase⟩ := Grammar.trimStart_of_paren hmem htrim
        rw [Grammar.assignmentParts?_cons hc, hd]
        rcases hcase with rfl | rfl <;> simp
  have hign := hl.not_ignored ('(' :: rest)
  have hind : ¬ isIndicatorLine text := by
    rw [heq, isIndicatorLine_append hstop, hi]
    exact Bool.false_ne_true
  rw [← heq] at hign
  refine ⟨hw.tight.line, fun hd => ?_⟩
  have htext : expressionText? (trim text) = some text := by
    rw [hw.tight.trim_eq]
    exact expressionText?_call hign hind hparts hcall
  rw [readLine, hw.tight.trim_eq, readTrimmedLine_call hign hind hparts hcall,
    readExpression_of_written hw htext hd, Assignment.arranged, Node.arranged]
  rfl

/-- The text of a call starts with the name and a parenthesis. -/
theorem of_render_call {callee : String} {args : List Node} {text : List Char}
    (h : (Node.call callee args).render = .ok text) : ∃ rest, text = callee.toList ++ '(' :: rest := by
  rw [Node.render] at h
  obtain ⟨positional, -, h⟩ := bind_eq_ok h
  obtain ⟨named, -, h⟩ := bind_eq_ok h
  cases h
  exact ⟨_, by rw [callText, List.append_assoc]; rfl⟩

/-- **A legible statement is written on a line that comes back as the statement**, unless it is nested
too deeply. -/
theorem LegibleStatement.render {a : Assignment} (h : LegibleStatement Number.IsLiteral a) :
    a.render = .error .tooDeep ∨ ∃ line, a.render = .ok line ∧ ReadsBack line a := by
  rw [Assignment.render]
  split
  · exact .inl rfl
  · right
    obtain ⟨text, hr, hw⟩ := h.expr.isRendered
    cases h with
    | @assignment target expr ht hl hi he =>
      refine ⟨target.toList ++ " = ".toList ++ text, ?_, ?_⟩
      · rw [hr, Assignment.isCall, beq_eq_false_iff_ne.2 ht]
        rfl
      · have := readsBack_assignment hl (by rwa [String.ofList_toList]) hi hw.writes
        rwa [String.ofList_toList] at this
    | call hl hi he =>
      obtain ⟨rest, heq⟩ := of_render_call hr
      exact ⟨text, by rw [hr]; rfl, readsBack_call hl hi heq hw.writes⟩

/-! ### Programs -/

/-- The statements of a program that was read are legible. -/
theorem legible_of_read {source : String} {q : Program} (h : Program.read source = .ok q) :
    ∀ a ∈ q.assignments, LegibleStatement IsUnsigned a := by
  rw [Program.read] at h
  obtain ⟨found, hr, rfl⟩ := map_eq_ok h
  intro a ha
  obtain ⟨l, hl, hstatement⟩ := List.mem_filterMap.1 ha
  obtain ⟨line, -, hline⟩ := (of_mapM_eq_ok hr).2 l hl
  cases l <;> cases hstatement
  exact legible_of_readTrimmedLine hline

/-- Its statements stay legible in the star namespace. -/
theorem legible_of_toStar {q p : Program} (h : q.toStar = .ok p) {P : Float → Prop}
    (hq : ∀ a ∈ q.assignments, LegibleStatement P a) :
    ∀ b ∈ p.assignments, LegibleStatement P b := by
  obtain ⟨assignments, hstar, h⟩ := bind_eq_ok h
  cases h
  intro b hb
  obtain ⟨a, ha, hab⟩ := (of_mapM_eq_ok hstar).2 b hb
  exact (hq a ha).toStar hab

/-- The statements are written one by one. -/
theorem mapM_render_of_legible {assignments : List Assignment}
    (h : ∀ a ∈ assignments, LegibleStatement Number.IsLiteral a) :
    assignments.mapM Assignment.render = .error .tooDeep ∨
      ∃ texts, assignments.mapM Assignment.render = .ok texts ∧
        List.Forall₂ ReadsBack texts assignments := by
  have hrender : ∀ a ∈ assignments, (a.render = .error .tooDeep ∧ True) ∨
      ∃ text, a.render = .ok text ∧ ReadsBack text a := fun a ha =>
    (h a ha).render.imp_left fun hr => ⟨hr, True.intro⟩
  exact (mapM_error_or hrender).imp And.left fun ⟨texts, hr, hlines⟩ => ⟨texts, hr, hlines.flip⟩

/-- Lines that are put together come apart again. -/
theorem lines_joined {texts : List (List Char)} (hne : texts ≠ [])
    (h : ∀ line ∈ texts, line.all isInLine) : lines (joined ['\n'] texts) = texts := by
  induction texts with
  | nil => exact absurd rfl hne
  | cons line texts ih =>
    obtain ⟨hline, h⟩ := List.forall_mem_cons.1 h
    rcases eq_or_ne texts [] with rfl | hne
    · rw [joined_singleton, Grammar.lines_eq_singleton hline]
    · rw [joined_cons _ _ hne]
      have hlines := Grammar.lines_line_append hline (joined ['\n'] texts)
      rw [ih hne h] at hlines
      exact hlines

/-- The lines are read one by one. -/
theorem mapM_readLine_of_readsBack {texts : List (List Char)} {assignments : List Assignment}
    (h : List.Forall₂ ReadsBack texts assignments) (hd : ∀ line ∈ texts, isShallow line) :
    texts.mapM readLine = .ok (assignments.map fun a => .statement a.arranged) := by
  refine mapM_eq_ok_iff.2 (List.forall₂_map_right_iff.2 (forall₂_imp_of_mem ?_ h))
  exact fun line hline a ha => ha.2 (hd line hline)

/-- **Lines that come back as statements make up the program of these statements**, and none of them is
dropped or taken for an indicator line. -/
theorem read_of_readsBack {texts : List (List Char)} {assignments : List Assignment}
    (h : List.Forall₂ ReadsBack texts assignments)
    (hd : ∀ line ∈ lines (joined ['\n'] texts), isShallow line) :
    Program.read (String.ofList (joined ['\n'] texts)) =
        .ok { indicators := [], assignments := assignments.map Assignment.arranged } ∧
      ∀ line ∈ lines (joined ['\n'] texts), ∃ l,
        readLine line = .ok l ∧ l ≠ .dropped ∧ l.indicator? = none := by
  -- a program without statements is written as a text with one empty line
  rcases eq_or_ne texts [] with rfl | hne
  · cases h
    have hempty : readLine [] = .ok .ignored := readTrimmedLine_ignored rfl
    have hlines : lines (joined ['\n'] []) = [[]] := rfl
    constructor
    · rw [Program.read, String.toList_ofList, hlines, List.mapM_cons, hempty]
      rfl
    · rw [hlines]
      intro line hline
      rw [List.mem_singleton.1 hline]
      exact ⟨.ignored, hempty, nofun, rfl⟩
  · have hall : ∀ line ∈ texts, line.all isInLine :=
      ((List.forall₂_and_left texts assignments).1 h).1
    have hlines := lines_joined hne hall
    rw [hlines] at hd ⊢
    have hread := mapM_readLine_of_readsBack h hd
    constructor
    · rw [Program.read, String.toList_ofList, hlines, hread]
      have hindicators : (assignments.map fun a => Line.statement a.arranged).filterMap
          Line.indicator? = [] := by
        simp [List.filterMap_map, Function.comp_def, Line.indicator?]
      have hstatements : (assignments.map fun a => Line.statement a.arranged).filterMap
          Line.statement? = assignments.map Assignment.arranged := by
        simp [List.filterMap_map, Function.comp_def, Line.statement?]
      rw [Except.map, Program.ofLines, hindicators, hstatements]
    · intro line hline
      obtain ⟨l, hmem, hl⟩ := (of_mapM_eq_ok hread).1 line hline
      obtain ⟨a, -, rfl⟩ := List.mem_map.1 hmem
      exact ⟨_, hl, by simp, rfl⟩

end Syntax

open Syntax

/-- **Writing a program and reading it again loses nothing.** A program that was read, with its calls
sent through the star namespace, is written unless it is nested too deeply. What is written is read as
the same statements, with the named arguments of every call behind the positional ones, if it is
within the bound on nesting; no line is dropped or taken for an indicator line. The arguments of every
call are taken apart in the same way before and after.

Of the floats it is assumed that they are finite and that their texts are read as them again. -/
theorem Program.read_render {source : String} {q p : Program} (hread : Program.read source = .ok q)
    (hstar : q.toStar = .ok p) (hdepth : p.render ≠ .error .tooDeep)
    (hfloat : ∀ a ∈ p.assignments, ∀ x, .number (.float x) ∈ a.expr.parts →
      x.isFinite ∧ Number.readFloat? (Number.floatText .positional x) = some x) :
    ∃ text, p.render = .ok text ∧
      ((∀ line ∈ lines text, isShallow line) →
        Program.read (String.ofList text) =
            .ok { indicators := [], assignments := p.assignments.map Assignment.arranged } ∧
          ∀ line ∈ lines text, ∃ l, readLine line = .ok l ∧ l ≠ .dropped ∧ l.indicator? = none) ∧
      ∀ a ∈ p.assignments, ∀ callee args, .call callee args ∈ a.expr.parts →
        ∃ args', (Node.call callee args).arranged = .call callee args' ∧
          Node.splitArgs args' = ((Node.splitArgs args).1.map Node.arranged,
            (Node.splitArgs args).2.map fun entry => (entry.1, entry.2.arranged)) := by
  have hlegible : ∀ a ∈ p.assignments, LegibleStatement Number.IsLiteral a := by
    intro a ha
    refine (legible_of_toStar hstar (legible_of_read hread) a ha).imp fun x hx hu => ?_
    obtain ⟨hfinite, hagain⟩ := hfloat a ha x hx
    exact Number.isLiteral_of_readFloat? hu hfinite hagain
  rcases mapM_render_of_legible hlegible with hr | ⟨texts, hr, hlines⟩
  · rw [Program.render, hr] at hdepth
    exact absurd rfl hdepth
  · refine ⟨Datum.joined ['\n'] texts, by rw [Program.render, hr]; rfl, read_of_readsBack hlines, ?_⟩
    exact fun a ha callee args hc => ((hlegible a ha).expr.of_mem_parts hc).splitArgs_arranged

/-- A source in which a named argument stands before the others. -/
def averageSource : String := "x = sma(len = 14, close[1] * -2 ^ 0.5, \"a\\n\")\nplot(x, [1, x])"

/-- The program of that source. -/
def averageProgram : Program where
  indicators := []
  assignments := [
    { target := "x"
      expr := .call "sma" [.identifier "len" true, .number (.int 14),
        .binary "*" (.index (.identifier "close" false) (.number (.int 1)))
          (.binary "^" (.unary "-" (.number (.int 2))) (.number (.float 0.5))),
        .string (.text "a\n")] },
    { target := callTarget
      expr := .call "plot"
        [.identifier "x" false, .array [.number (.int 1), .identifier "x" false]] }]

/-- What is written of it in the star namespace: the named argument goes behind the others. -/
def averageText : String :=
  "x = star.ta.sma(close[1] * -2 ^ 0.5, \"a\\n\", \x7b len: 14 \x7d)\nstar.plot(x, [1, x])"

theorem read_render_average : ∃ p : Program,
    Program.read averageSource = .ok averageProgram ∧ averageProgram.toStar = .ok p ∧
      p.render = .ok averageText.toList ∧
      Program.read averageText =
        .ok { indicators := [], assignments := p.assignments.map Assignment.arranged } := by
  have hread : Program.read averageSource = .ok averageProgram := by
    with_unfolding_all rfl
  obtain ⟨p, hp⟩ : ∃ p : Program, p = { averageProgram with
    assignments := averageProgram.assignments.map fun a => { a with expr := a.expr.toStar } } :=
    ⟨_, rfl⟩
  have hstar : averageProgram.toStar = .ok p := by
    rw [hp]
    with_unfolding_all rfl
  have hrender : p.render = .ok averageText.toList := by
    rw [hp]
    with_unfolding_all rfl
  have hhalf : ∀ a ∈ p.assignments, ∀ x, .number (.float x) ∈ a.expr.parts → x = 0.5 := by
    rw [hp]
    simp [averageProgram, Node.toStar, Node.parts, Node.allParts]
  obtain ⟨text, htext, hback, -⟩ := Program.read_render hread hstar (by simp [hrender])
    fun a ha x hx => by
      rw [hhalf a ha x hx]
      decide +kernel
  cases hrender.symm.trans htext
  have hagain := (hback (by decide +kernel)).1
  rw [String.ofList_toList] at hagain
  exact ⟨p, hread, hstar, hrender, hagain⟩

end ChartScript
