/-!
# Blanks

The *blanks* are the characters with the white-space property of the Unicode standard, together with
the four information separators. A statement of a script is a line without the blanks at its two
ends (`trim`).
-/

namespace ChartScript.Text

/-- The code points of the blanks. -/
def blankCodes : Array Nat := #[
  9, 10, 11, 12, 13, 28, 29, 30, 31, 32, 133, 160, 5760, 8192, 8193, 8194, 8195, 8196, 8197, 8198,
  8199, 8200, 8201, 8202, 8232, 8233, 8239, 8287, 12288]

/-- Whether the character is a blank. -/
def isBlank (c : Char) : Bool := blankCodes.contains c.toNat

/-- The text without the blanks at its start. -/
def trimStart (text : List Char) : List Char := text.dropWhile isBlank

/-- The text without the blanks at its end. -/
def trimEnd (text : List Char) : List Char := (text.reverse.dropWhile isBlank).reverse

/-- The text without the blanks at its two ends. -/
def trim (text : List Char) : List Char := trimEnd (trimStart text)

@[simp] theorem trim_nil : trim [] = [] := rfl

/-- What is left after the blanks at the start does not start with one. -/
theorem head?_trimStart_not_blank {text : List Char} {c : Char}
    (h : (trimStart text).head? = some c) : isBlank c = false := by
  have := List.head?_dropWhile_not isBlank text
  rw [trimStart] at h
  rw [h] at this
  simpa using this

end ChartScript.Text
