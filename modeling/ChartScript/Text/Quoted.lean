import ChartScript.Text.Hex
import ChartScript.Text.Visible

/-!
# Quoted text

Error messages and the generated module show a text between quotes, so that it can be seen where it
starts and ends and what it holds. Single quotes are used unless the text holds a single quote and
no double one. A backslash and the quote in use are written after a backslash, the three common
control characters have a letter, and any other hidden character is written by its code point.

`quoted` writes, `unquote?` reads.
-/

namespace ChartScript.Text

/-- The quote that a text is written between. -/
def quoteFor (text : List Char) : Char :=
  if text.contains '\'' && !text.contains '"' then '"' else '\''

/-- One character of quoted text. -/
def quotedChar (quote c : Char) : List Char :=
  if c = quote || c = '\\' then ['\\', c]
  else if c = '\n' then ['\\', 'n']
  else if c = '\r' then ['\\', 'r']
  else if c = '\t' then ['\\', 't']
  else if isVisible c then [c]
  else if c.toNat < 0x100 then '\\' :: 'x' :: hexText 2 c.toNat
  else if c.toNat < 0x10000 then '\\' :: 'u' :: hexText 4 c.toNat
  else '\\' :: 'U' :: hexText 8 c.toNat

/-- The text between quotes. -/
def quoted (text : List Char) : List Char :=
  let quote := quoteFor text
  quote :: text.flatMap (quotedChar quote) ++ [quote]

/-- Reads one character of quoted text; the quote in use must not stand alone. -/
def unquoteChar? (quote : Char) : List Char → Option (Char × List Char)
  | '\\' :: 'n' :: rest => some ('\n', rest)
  | '\\' :: 'r' :: rest => some ('\r', rest)
  | '\\' :: 't' :: rest => some ('\t', rest)
  | '\\' :: 'x' :: rest => (readHex? 2 rest).map fun (n, rest) => (Char.ofNat n, rest)
  | '\\' :: 'u' :: rest => (readHex? 4 rest).map fun (n, rest) => (Char.ofNat n, rest)
  | '\\' :: 'U' :: rest => (readHex? 8 rest).map fun (n, rest) => (Char.ofNat n, rest)
  | '\\' :: c :: rest => if c = '\\' || c = '\'' || c = '"' then some (c, rest) else none
  | c :: rest => if c = quote || c = '\\' || c = '\n' then none else some (c, rest)
  | [] => none

/-- Reading a number in a fixed width takes exactly that many characters. -/
theorem readHex?_length {width : Nat} {text rest : List Char} {n : Nat}
    (h : readHex? width text = some (n, rest)) : rest.length + width = text.length := by
  simp only [readHex?] at h
  split at h
  · rename_i len
    obtain ⟨m, _, hm⟩ := Option.bind_eq_some_iff.1 h
    obtain ⟨-, rfl⟩ := Prod.mk.inj (Option.some.inj hm)
    simp only [List.length_take, List.length_drop] at len ⊢
    omega
  · cases h

/-- Reading a character shortens the text. -/
theorem unquoteChar?_length {quote c : Char} {text rest : List Char}
    (h : unquoteChar? quote text = some (c, rest)) : rest.length < text.length := by
  unfold unquoteChar? at h
  split at h
  case h_4 | h_5 | h_6 =>
    obtain ⟨⟨n, r⟩, hr, heq⟩ := Option.map_eq_some_iff.1 h
    obtain ⟨-, rfl⟩ := Prod.mk.inj heq
    have := readHex?_length hr
    simp only [List.length_cons]
    omega
  all_goals grind

/-- Reads the inside of quoted text up to the closing quote; gives the text and what follows. -/
def unquoteBody? (quote : Char) (text : List Char) : Option (List Char × List Char) :=
  match text with
  | [] => none
  | c :: rest =>
    if c = quote then some ([], rest)
    else
      match h : unquoteChar? quote (c :: rest) with
      | none => none
      | some (d, more) =>
        have := unquoteChar?_length h
        (unquoteBody? quote more).map fun (body, rest) => (d :: body, rest)
termination_by text.length
decreasing_by assumption

/-- Reads quoted text at the start; gives the text and what follows the closing quote. -/
def unquote? : List Char → Option (List Char × List Char)
  | '\'' :: rest => unquoteBody? '\'' rest
  | '"' :: rest => unquoteBody? '"' rest
  | _ => none

end ChartScript.Text
