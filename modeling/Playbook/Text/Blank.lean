/-!
# Blanks

The characters that count as white space, and cutting them off the ends of a text. One set serves
the whole library: what `trim` removes, what separates the words of a placeholder name and what a
blank in a date pattern skips are all the characters with the Unicode property `White_Space`.
-/

namespace Playbook.Text

/-- The characters with the Unicode property `White_Space`. -/
def isBlank (c : Char) : Bool :=
  let n := c.toNat
  (9 ≤ n && n ≤ 13) || n == 0x20 || n == 0x85 || n == 0xA0 || n == 0x1680 ||
    (0x2000 ≤ n && n ≤ 0x200A) || n == 0x2028 || n == 0x2029 || n == 0x202F || n == 0x205F ||
    n == 0x3000

/-- Of the invisible characters between words, some are blanks and some are not. -/
example : isBlank '\u2003' = true ∧ isBlank '\u200b' = false := by decide

/-- The text without the blanks it starts with. -/
def trimStart (cs : List Char) : List Char := cs.dropWhile isBlank

/-- The text without the blanks it ends with. -/
def trimEnd (cs : List Char) : List Char := (cs.reverse.dropWhile isBlank).reverse

/-- The text without the blanks at either end. -/
def trim (cs : List Char) : List Char := trimEnd (trimStart cs)

/-- A text is blank when nothing but blanks is in it. -/
def allBlank (cs : List Char) : Bool := cs.all isBlank

end Playbook.Text
