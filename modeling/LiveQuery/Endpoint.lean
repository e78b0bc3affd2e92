import LiveQuery.Text.Pieces
import LiveQuery.Text.Digits

namespace LiveQuery

/-- The address of a backend. -/
structure Endpoint where
  scheme : Option (List Char)
  authority : List Char
  /-- Path and query. -/
  resource : List Char
  deriving DecidableEq

namespace Endpoint

def isSchemeChar (c : Char) : Bool := Text.isLetter c || Text.isDigit c || "+-.~".toList.contains c

/-- What an authority may hold besides colons, brackets, `@` and percent signs. -/
def isAuthorityChar (c : Char) : Bool :=
  Text.isLetter c || Text.isDigit c || "!$&'()*+,-.;=_~".toList.contains c

/-- Where the authority ends. -/
def isAuthorityEnd (c : Char) : Bool := c = '/' || c = '?' || c = '#'

def isPathChar (c : Char) : Bool := '!' ≤ c && !("#<>?\u0060\x7f".toList.contains c)

def isQueryChar (c : Char) : Bool := '!' ≤ c && !("\"#<>\x7f".toList.contains c)

/-- What has been seen of an authority. -/
structure AuthorityScan where
  colons : Nat := 0
  opened : Bool := false
  closed : Bool := false
  percent : Bool := false
  last : Option Char := none

/-- Takes the next character. An `@` ends the user part and a `]` the address of a host, and
neither colons nor percent signs in there count later on. -/
def AuthorityScan.next (s : AuthorityScan) (c : Char) : Option AuthorityScan :=
  let s := { s with last := some c }
  match c with
  | ':' => if s.colons < 8 then some { s with colons := s.colons + 1 } else none
  | '[' => if s.percent || s.opened then none else some { s with opened := true }
  | ']' =>
    if s.opened && !s.closed then some { s with closed := true, colons := 0, percent := false } else none
  | '@' => some { s with colons := 0, percent := false }
  | '%' => some { s with percent := true }
  | c => if isAuthorityChar c then some s else none

def isAuthority (cs : List Char) : Bool :=
  match cs.foldlM AuthorityScan.next {} with
  | some s => s.opened == s.closed && s.colons ≤ 1 && s.last != some '@' && !s.percent
  | none => false

/-- Path and query without the fragment, which may hold anything. -/
def readResource? (cs : List Char) : Option (List Char) :=
  let stop (c : Char) : Bool := c = '?' || c = '#'
  let path := cs.takeWhile (!stop ·)
  let query := match cs.dropWhile (!stop ·) with
    | '?' :: rest => '?' :: rest.takeWhile (· ≠ '#')
    | _ => []
  if path.all isPathChar && query.all isQueryChar then some (path ++ query) else none

/-- The scheme before `://` and what follows it. The longest scheme has 64 characters. -/
def splitScheme? (cs : List Char) : Option (Option (List Char) × List Char) :=
  let scheme := cs.takeWhile isSchemeChar
  match cs.dropWhile isSchemeChar with
  | ':' :: '/' :: '/' :: rest => if scheme.length ≤ 64 then some (some scheme, rest) else none
  | _ => some (none, cs)

/-- Reads an address with a scheme, a bare authority, or a bare path. -/
def read? (uri : String) : Option Endpoint := do
  if 65534 < uri.utf8ByteSize then none
  match uri.toList with
  | [] => none
  | ['*'] => some ⟨none, [], ['*']⟩
  | '/' :: rest => return ⟨none, [], ← readResource? ('/' :: rest)⟩
  | cs =>
    let (scheme, rest) ← splitScheme? cs
    let authority := rest.takeWhile (!isAuthorityEnd ·)
    let resource := rest.dropWhile (!isAuthorityEnd ·)
    if !isAuthority authority then none
    else
      match scheme with
      | none => if resource.isEmpty then some ⟨none, authority, []⟩ else none
      | some scheme =>
        if authority.isEmpty then none else return ⟨some scheme, authority, ← readResource? resource⟩

/-- The authority without user part and port. -/
def host (e : Endpoint) : List Char :=
  let hostAndPort := (Text.splitAt '@' e.authority).getLast?.getD []
  match hostAndPort with
  | '[' :: rest => '[' :: rest.takeWhile (· ≠ ']') ++ [']']
  | cs => cs.takeWhile (· ≠ ':')

end Endpoint

/-- Whether a text is a part of a domain name between its dots. -/
def isDomainLabel (cs : List Char) : Bool :=
  !cs.isEmpty && cs.length ≤ 63 && cs.head? != some '-' && cs.getLast? != some '-' &&
    cs.all fun c => Text.isLetter c || Text.isDigit c || c = '_' || c = '-'

/-- Whether a text is a domain name, with or without a final dot. Its last label has more than digits,
as else it would be read as a number. -/
def isDomainName (cs : List Char) : Bool :=
  let parts := Text.splitAt '.' cs
  let labels := if parts.getLast? == some [] then parts.dropLast else parts
  cs.length ≤ 253 && labels.all isDomainLabel && !(labels.getLastD []).all Text.isDigit

/-- Whether a text is four numbers below 256 between dots, without leading zeros. -/
def isDottedQuad (cs : List Char) : Bool :=
  let parts := Text.splitAt '.' cs
  parts.length = 4 && parts.all fun part =>
    !part.isEmpty && part.all Text.isDigit && part.length ≤ 3 && Text.ofDigits part ≤ 255 &&
      (part.head? != some '0' || part.length = 1)

/-- Whether a certificate can be for this host. -/
def isServerName (cs : List Char) : Bool := isDomainName cs || isDottedQuad cs

end LiveQuery
