/-
  MetaQuery/Pattern/CharSet.lean
  ==============================
  Sets of characters as patterns describe them: ranges, general categories and properties, put
  together by set operations, and closed under case where case does not matter.
-/
import MetaQuery.Text.Folding
import MetaQuery.Text.Property
import MetaQuery.Text.Script

namespace MetaQuery.Pattern

/-- A set of code points. -/
inductive CharSet where
  | empty
  | range (low high : Nat)
  | ranges (rs : List (Nat × Nat))
  | categories (cs : List Text.Category)
  | property (p : Text.Property)
  | compl (s : CharSet)
  | union (s t : CharSet)
  | inter (s t : CharSet)
  | diff (s t : CharSet)
  | symmDiff (s t : CharSet)
  /-- The characters with a case variant in the set; of ASCII letters only, or of all. -/
  | variants (ascii : Bool) (s : CharSet)
deriving DecidableEq, Repr

namespace CharSet

def mem : CharSet → Nat → Bool
  | .empty, _ => false
  | .range low high, n => low ≤ n && n ≤ high
  | .ranges rs, n => Text.inRanges rs n
  | .categories cs, n => cs.contains (Text.categoryOf n)
  | .property p, n => p.holds n
  | .compl s, n => !s.mem n
  | .union s t, n => s.mem n || t.mem n
  | .inter s t, n => s.mem n && t.mem n
  | .diff s t, n => s.mem n && !t.mem n
  | .symmDiff s t, n => s.mem n != t.mem n
  | .variants ascii s, n =>
    (if ascii then Text.asciiVariants n else Text.caseVariants n).any fun k => s.mem k

def all : CharSet := .compl .empty

def single (n : Nat) : CharSet := .range n n

/-- The set holds no code point of a byte beyond ASCII. -/
def isAscii (s : CharSet) : Bool := (List.range 128).all fun i => !s.mem (128 + i)

/-- How many times a table of runs enters some categories; the flag says whether the run before
    belongs to them. -/
def entries (cs : List Text.Category) (inside : Bool) : List (Nat × Text.Category) → Nat
  | [] => 0
  | (_, c) :: r =>
    let belongs := cs.contains c
    (if belongs && !inside then 1 else 0) + entries cs belongs r

/-- About how many ranges the set has. -/
def rangeCount : CharSet → Nat
  | .empty => 0
  | .range _ _ => 1
  | .ranges rs => rs.length
  | .categories cs => entries cs false Text.categoryTable.toList
  | .property p => p.also.length + entries p.categories false Text.categoryTable.toList
  | .compl s => s.rangeCount + 1
  | .union s t => s.rangeCount + t.rangeCount
  | .inter s t => s.rangeCount + t.rangeCount
  | .diff s t => s.rangeCount + t.rangeCount
  | .symmDiff s t => s.rangeCount + t.rangeCount
  | .variants _ s => 2 * s.rangeCount

/-! ### Classes with a letter -/

def digit (unicode : Bool) : CharSet := if unicode then .categories [.nd] else .range 48 57

def space (unicode : Bool) : CharSet :=
  if unicode then .union (.categories [.zs, .zl, .zp]) (.ranges [(9, 13), (133, 133)])
  else .ranges [(9, 13), (32, 32)]

/-- What words are made of: letters, marks, digits, connectors and joiners. -/
def word (unicode : Bool) : CharSet :=
  if unicode then
    .union (.categories [.lu, .ll, .lt, .lm, .lo, .nl, .mn, .mc, .me, .nd, .pc])
      (.ranges [(0x200C, 0x200D), (0x24B6, 0x24E9), (0x1F130, 0x1F149), (0x1F150, 0x1F169),
        (0x1F170, 0x1F189)])
  else .ranges [(48, 57), (65, 90), (95, 95), (97, 122)]

/-! ### Classes with a name -/

/-- The classes of ASCII characters by their names. -/
def asciiClasses : List (String × CharSet) := [
  ("alnum", .ranges [(48, 57), (65, 90), (97, 122)]),
  ("alpha", .ranges [(65, 90), (97, 122)]),
  ("ascii", .range 0 127),
  ("blank", .ranges [(9, 9), (32, 32)]),
  ("cntrl", .ranges [(0, 31), (127, 127)]),
  ("digit", .range 48 57),
  ("graph", .range 33 126),
  ("lower", .range 97 122),
  ("print", .range 32 126),
  ("punct", .ranges [(33, 47), (58, 64), (91, 96), (123, 126)]),
  ("space", .ranges [(9, 13), (32, 32)]),
  ("upper", .range 65 90),
  ("word", .ranges [(48, 57), (65, 90), (95, 95), (97, 122)]),
  ("xdigit", .ranges [(48, 57), (65, 70), (97, 102)])]

/-- The general categories and their groups by name, in lower case and without separators. -/
def categoryClasses : List (List String × CharSet) := [
  (["any"], all),
  (["assigned"], .compl (.categories [.cn])),
  (["ascii"], .range 0 127),
  (["c", "other"], .categories [.cc, .cf, .cs, .co, .cn]),
  (["cc", "control", "cntrl"], .categories [.cc]),
  (["cf", "format"], .categories [.cf]),
  (["cn", "unassigned"], .categories [.cn]),
  (["co", "privateuse"], .categories [.co]),
  (["l", "letter"], .categories [.lu, .ll, .lt, .lm, .lo]),
  (["lc", "casedletter"], .categories [.lu, .ll, .lt]),
  (["ll", "lowercaseletter"], .categories [.ll]),
  (["lm", "modifierletter"], .categories [.lm]),
  (["lo", "otherletter"], .categories [.lo]),
  (["lt", "titlecaseletter"], .categories [.lt]),
  (["lu", "uppercaseletter"], .categories [.lu]),
  (["m", "mark", "combiningmark"], .categories [.mn, .mc, .me]),
  (["mc", "spacingmark"], .categories [.mc]),
  (["me", "enclosingmark"], .categories [.me]),
  (["mn", "nonspacingmark"], .categories [.mn]),
  (["n", "number"], .categories [.nd, .nl, .no]),
  (["nd", "decimalnumber", "digit"], .categories [.nd]),
  (["nl", "letternumber"], .categories [.nl]),
  (["no", "othernumber"], .categories [.no]),
  (["p", "punctuation", "punct"], .categories [.pc, .pd, .ps, .pe, .pi, .pf, .po]),
  (["pc", "connectorpunctuation"], .categories [.pc]),
  (["pd", "dashpunctuation"], .categories [.pd]),
  (["pe", "closepunctuation"], .categories [.pe]),
  (["pf", "finalpunctuation"], .categories [.pf]),
  (["pi", "initialpunctuation"], .categories [.pi]),
  (["po", "otherpunctuation"], .categories [.po]),
  (["ps", "openpunctuation"], .categories [.ps]),
  (["s", "symbol"], .categories [.sm, .sc, .sk, .so]),
  (["sc", "currencysymbol"], .categories [.sc]),
  (["sk", "modifiersymbol"], .categories [.sk]),
  (["sm", "mathsymbol"], .categories [.sm]),
  (["so", "othersymbol"], .categories [.so]),
  (["z", "separator"], .categories [.zs, .zl, .zp]),
  (["zl", "lineseparator"], .categories [.zl]),
  (["zp", "paragraphseparator"], .categories [.zp]),
  (["zs", "spaceseparator"], .categories [.zs])]

def category? (name : String) : Option CharSet :=
  (categoryClasses.find? (·.1.contains name)).map (·.2)

def script? (name : String) : Option CharSet := (Text.script? name).map fun s => .ranges s.ranges

/-- The property, general category or script of a name. -/
def named? (name : String) : Option CharSet :=
  ((Text.property? name).map .property).or ((category? name).or (script? name))

/-- The characters whose general category or script has a value. -/
def valued? (name value : String) : Option CharSet :=
  if ["gc", "generalcategory"].contains name then category? value
  else if ["sc", "script", "scx", "scriptextensions"].contains name then script? value
  else none

end CharSet

end MetaQuery.Pattern
