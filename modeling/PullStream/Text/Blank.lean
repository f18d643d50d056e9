/-!
Blank characters and the lines of a text.

A character is blank when it carries the white space property: the ASCII blanks
with the vertical tab and the form feed, the next-line control, and the spaces
and separators of the general punctuation and ideographic blocks. Lines end at a
line feed; a carriage return directly before it belongs to the line end, and a
text that ends with a line feed has no empty last line.
-/

namespace PullStream.Text

/-- A character with the white space property. -/
def isBlank (c : Char) : Bool :=
  let n := c.toNat
  (9 ≤ n && n ≤ 13) || n == 0x20 || n == 0x85 || n == 0xA0 || n == 0x1680 ||
    (0x2000 ≤ n && n ≤ 0x200A) || n == 0x2028 || n == 0x2029 || n == 0x202F ||
    n == 0x205F || n == 0x3000

/-- A text of blanks only; the empty text is one. -/
def allBlank (text : String) : Bool :=
  text.toList.all isBlank

/-- The text without the blanks at its two ends. -/
def trim (text : String) : String :=
  let front := text.toList.dropWhile isBlank
  String.ofList ((front.reverse.dropWhile isBlank).reverse)

/-- Drops the carriage return that closes a line, given the line reversed. -/
private def withoutReturn : List Char → List Char
  | '\r' :: line => line
  | line => line

/-- The lines of `text`; `line` holds the current line reversed. -/
private def linesFrom (line : List Char) : List Char → List String
  | [] => if line.isEmpty then [] else [String.ofList line.reverse]
  | '\n' :: rest => String.ofList (withoutReturn line).reverse :: linesFrom [] rest
  | c :: rest => linesFrom (c :: line) rest

/-- The lines of a text, without their ends. -/
def lines (text : String) : List String :=
  linesFrom [] text.toList

/-- Core's white space is blank. -/
theorem isBlank_of_isWhitespace {c : Char} (h : c.isWhitespace = true) :
    isBlank c = true := by
  simp only [Char.isWhitespace, Bool.or_eq_true, decide_eq_true_eq] at h
  rcases h with ((h | h) | h) | h <;> subst h <;> decide

example : lines "a\r\n\nb\r" = ["a", "", "b\r"] := by decide

end PullStream.Text
