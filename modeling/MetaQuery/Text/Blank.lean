/-
  MetaQuery/Text/Blank.lean
  =========================
  White space as the Unicode property White_Space has it: twenty-five code points,
  among them the no-break space, the ideographic space and the line separator.
  The zero width space and the byte order mark are not blank.

  Trimming drops the blanks at both ends and leaves the text between them as it is.
-/

namespace MetaQuery.Text

/-- The code points of the property White_Space. -/
def isBlank (c : Char) : Bool :=
  let n := c.toNat
  (9 ≤ n && n ≤ 13) || n == 0x20 || n == 0x85 || n == 0xA0 || n == 0x1680 ||
  (0x2000 ≤ n && n ≤ 0x200A) || n == 0x2028 || n == 0x2029 || n == 0x202F ||
  n == 0x205F || n == 0x3000

def trimStart (cs : List Char) : List Char := cs.dropWhile isBlank

def trimEnd (cs : List Char) : List Char := (trimStart cs.reverse).reverse

def trimBlanks (cs : List Char) : List Char := trimEnd (trimStart cs)

def trim (s : String) : String := String.ofList (trimBlanks s.toList)

@[simp] theorem toList_trim (s : String) : (trim s).toList = trimBlanks s.toList := by
  simp [trim]

@[simp] theorem trimBlanks_nil : trimBlanks [] = [] := rfl

/-- A text that starts with a character that is not blank keeps its start. -/
theorem trimStart_cons_of_not_blank {c : Char} {r : List Char} (h : isBlank c = false) :
    trimStart (c :: r) = c :: r := by
  simp [trimStart, h]

end MetaQuery.Text
