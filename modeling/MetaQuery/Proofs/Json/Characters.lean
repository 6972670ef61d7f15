/-
  MetaQuery/Proofs/Json/Characters.lean
  =====================================
  The compact text of a document, character by character.  The text itself is put together from
  bytes and taken apart again when it is read; its characters, written down at once, are what a
  reader sees of it, and an entry is read back by reading them.
-/
import MetaQuery.Json.Printer
import MetaQuery.Json.Shape

namespace MetaQuery.Json

def quoteChars (s : String) : List Char := '"' :: (s.toList.flatMap escapeChar ++ ['"'])

mutual

def chars : Json → List Char
  | .null => ['n', 'u', 'l', 'l']
  | .bool b => if b then ['t', 'r', 'u', 'e'] else ['f', 'a', 'l', 's', 'e']
  | .int i => (Decimal.intText i).toList
  | .float x => (floatText x).toList
  | .str s => quoteChars s
  | .arr items => '[' :: ((itemChars items).tail ++ [']'])
  | .obj members => '\x7b' :: ((memberChars members).tail ++ ['\x7d'])

/-- The items of an array, each behind a comma. -/
def itemChars : List Json → List Char
  | [] => []
  | j :: r => ',' :: (chars j ++ itemChars r)

/-- The members of an object, each behind a comma. -/
def memberChars : List (String × Json) → List Char
  | [] => []
  | (k, j) :: r => ',' :: (quoteChars k ++ ':' :: chars j ++ memberChars r)

end

theorem toList_quoteText (s : String) : (quoteText s).toList = quoteChars s :=
  String.toList_ofList

theorem toList_joinWith (texts : List String) :
    (Text.joinWith "," texts).toList = (texts.flatMap fun s => ',' :: s.toList).tail := by
  induction texts with
  | nil => rfl
  | cons s r ih =>
    cases r with
    | nil => simp
    | cons t r =>
      have hcomma : ",".toList = [','] := rfl
      rw [Text.joinWith_cons_cons, String.toList_append, String.toList_append, ih, hcomma]
      simp

mutual

theorem toList_text (j : Json) : (text j).toList = chars j := by
  cases j with
  | null => rfl
  | bool b => cases b <;> rfl
  | int i => rfl
  | float x => rfl
  | str s => exact toList_quoteText s
  -- the texts of the items, joined by commas
  | arr items =>
    rw [text, chars, String.toList_append, String.toList_append, toList_joinWith,
      flatMap_itemTexts items]
    rfl
  | obj members =>
    rw [text, chars, String.toList_append, String.toList_append, toList_joinWith,
      flatMap_memberTexts members]
    rfl

theorem flatMap_itemTexts (items : List Json) :
    (itemTexts items).flatMap (fun s => ',' :: s.toList) = itemChars items := by
  cases items with
  | nil => rfl
  | cons j r =>
    rw [itemTexts, itemChars, List.flatMap_cons, toList_text j, flatMap_itemTexts r]
    rfl

theorem flatMap_memberTexts (members : List (String × Json)) :
    (memberTexts members).flatMap (fun s => ',' :: s.toList) = memberChars members := by
  cases members with
  | nil => rfl
  | cons m r =>
    obtain ⟨k, j⟩ := m
    have hcolon : ":".toList = [':'] := rfl
    rw [memberTexts, memberChars, List.flatMap_cons, flatMap_memberTexts r, String.toList_append,
      String.toList_append, toList_quoteText, toList_text j, hcolon]
    simp

end

/-- The value that characters hold. -/
def Coder.ofChars {α : Type} (c : Coder α) (cs : List Char) : Except Mismatch α := do
  let (draft, rest) := readValue (2 * cs.length + 2) cs
  let value ← c.decode .text draft
  if !(skipSpace rest).isEmpty then .error (.malformed .trailingCharacters) else .ok value

/-- **A value is read back from its text as it is from the characters of its document.** -/
theorem Coder.ofText_text {α : Type} (c : Coder α) (a : α) :
    c.ofText (c.text a) = c.ofChars (chars (c.encode a)) := by
  rw [← toList_text]
  rfl

end MetaQuery.Json
