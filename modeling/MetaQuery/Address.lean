/-
  MetaQuery/Address.lean
  ======================
  The address under which a connection reaches its datasource.  A connection may give the whole
  address; otherwise it is put together from scheme, user, host, port and database.  User and
  password may be any text: what could be mistaken for a separator is written as percent codes.
-/
import MetaQuery.Catalog.Lookup

namespace MetaQuery

/-! ### Percent codes -/

/-- A byte that stands for itself in an address. -/
def isUnreserved (b : UInt8) : Bool :=
  let c := Char.ofNat b.toNat
  c.isAlphanum || c == '-' || c == '_' || c == '.' || c == '~'

def upperHexDigit (n : Nat) : Char :=
  if n < 10 then Char.ofNat (48 + n) else Char.ofNat (55 + n)

def percentByte (b : UInt8) : List Char :=
  if isUnreserved b then [Char.ofNat b.toNat]
  else ['%', upperHexDigit (b.toNat / 16), upperHexDigit (b.toNat % 16)]

def percentEncode (s : String) : String :=
  String.ofList (s.toUTF8.toList.flatMap percentByte)

/-! ### Addresses -/

namespace ConnectionEntry

/-- User and password, with the sign that ends them. -/
def userInfo (c : ConnectionEntry) : String :=
  if c.user = "" then ""
  else if c.password = "" then percentEncode c.user ++ "@"
  else percentEncode c.user ++ ":" ++ percentEncode c.password ++ "@"

/-- The port, or the usual one of the scheme. -/
def portFor (c : ConnectionEntry) (scheme : String) : Nat :=
  if c.port ≠ 0 then c.port.toNat else if scheme = "postgres" then 5432 else 3306

def assembledAddress (c : ConnectionEntry) (scheme : String) : String :=
  if scheme = "sqlite" then "sqlite:" ++ (if c.database = "" then ":memory:" else c.database)
  else
    scheme ++ "://" ++ c.userInfo ++ (if c.host = "" then "localhost" else c.host) ++ ":" ++
      Decimal.intText (Int.ofNat (c.portFor scheme)) ++ "/" ++ c.database

def address (c : ConnectionEntry) (kind : SourceKind) : Except MetadataFault String :=
  match kind.scheme? with
  | none => .error (.unsupportedKind c.kind)
  | some scheme => .ok (if c.url ≠ "" then c.url else c.assembledAddress scheme)

end ConnectionEntry

/-- The schemes that a driver serves. -/
def servedSchemes : List String := ["mysql", "mariadb", "postgres", "postgresql", "sqlite"]

/-- The scheme of an address, in lower case. -/
def schemeOf? (url : String) : Option String :=
  match url.toList with
  | [] => none
  | c :: r =>
    let more := r.takeWhile fun d => d.isAlphanum || d == '+' || d == '-' || d == '.'
    if c.isAlpha && (r.drop more.length).head? == some ':' then
      some (String.ofList ((c :: more).map Char.toLower))
    else none

/-- Why no driver can open an address. -/
def addressFault? (url : String) : Option SourceFault :=
  match schemeOf? url with
  | none => some .relativeUrl
  | some scheme => if servedSchemes.contains scheme then none else some (.noDriver scheme)

end MetaQuery
