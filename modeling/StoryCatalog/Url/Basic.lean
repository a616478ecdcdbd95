import StoryCatalog.Text.Case
import StoryCatalog.Text.Quoted
import StoryCatalog.Url.Address

/-!
# URLs

A URL is cut at its delimiters into a scheme, an authority, a path, a query and a fragment. The
authority is user information, a host and a port. Nothing is decoded, so a URL without empty parts
is put together again as it was.
-/

namespace StoryCatalog

/-- The parts of a URL, each without its delimiters. -/
structure Url where
  scheme : Text
  authority : Text
  path : Text
  query : Text
  fragment : Text
  deriving DecidableEq, Repr, Inhabited

/-- Why a text is no URL. -/
inductive UrlFault where
  | brackets
  | futureAddress
  | bracketedIpv4
  | address (host : Text)
  | hiddenDelimiter (authority : Text)
  deriving DecidableEq, Repr

/-- The wording of a fault. -/
def UrlFault.message : UrlFault → Text
  | .brackets => "Invalid IPv6 URL"
  | .futureAddress => "IPvFuture address is invalid"
  | .bracketedIpv4 => "An IPv4 address cannot be in brackets"
  | .address host =>
    Text.concat [host.quoted, " does not appear to be an IPv4 or IPv6 address"]
  | .hiddenDelimiter authority =>
    Text.concat ["netloc '", authority, "' contains invalid characters under NFKC normalization"]

namespace Url

private def colon : CodePoint := CodePoint.ofChar ':'
private def slash : CodePoint := CodePoint.ofChar '/'
private def question : CodePoint := CodePoint.ofChar '?'
private def hash : CodePoint := CodePoint.ofChar '#'
private def semicolon : CodePoint := CodePoint.ofChar ';'
private def leftBracket : CodePoint := CodePoint.ofChar '['
private def rightBracket : CodePoint := CodePoint.ofChar ']'

/-- The text before the first occurrence of a code point, and the text after it. -/
def cut (c : CodePoint) (t : Text) : Text × Text :=
  (t.takeWhile (· != c), (t.dropWhile (· != c)).drop 1)

/-- Whether a code point is an ASCII letter. -/
def isLetter (c : CodePoint) : Bool := c.isLowerAscii || (0x41 ≤ c.val && c.val ≤ 0x5A)

/-- Whether a code point may stand in a scheme. -/
def isSchemePoint (c : CodePoint) : Bool :=
  isLetter c || c.isDigit || Text.holds "+-." [c]

/-- A URL without the control codes and spaces before it, and without tabs and line breaks. -/
def clean (t : Text) : Text :=
  (t.dropWhile (·.val ≤ 0x20)).filter fun c ↦ c.val != 0x09 && c.val != 0x0A && c.val != 0x0D

/-- The scheme of a URL in lower case, empty if there is none, and the text after it. -/
def takeScheme (t : Text) : Text × Text :=
  let (scheme, rest) := cut colon t
  if t.contains colon && (scheme.head?.map isLetter).getD false && scheme.all isSchemePoint then
    (scheme.lower, rest)
  else ([], t)

/-- The authority that stands after two slashes, and the text after it. -/
def takeAuthority (t : Text) : Text × Text :=
  if Text.startsWith t "//" then
    let isEnd (c : CodePoint) : Bool := c == slash || c == question || c == hash
    let rest := t.drop 2
    (rest.takeWhile (!isEnd ·), rest.dropWhile (!isEnd ·))
  else ([], t)

/-- The host and the port of an authority, behind the user information. -/
def hostAndPort (authority : Text) : Text :=
  (Text.splitOn (CodePoint.ofChar '@') authority).getLast?.getD []

/-- The text of the host in an authority; a host in brackets is given without them. -/
def rawHost (authority : Text) : Text :=
  let t := hostAndPort authority
  if t.contains leftBracket then (cut rightBracket (cut leftBracket t).2).1 else (cut colon t).1

/-- The text of the port in an authority. -/
def rawPort (authority : Text) : Text :=
  let t := hostAndPort authority
  if t.contains leftBracket then (cut colon (cut rightBracket (cut leftBracket t).2).2).2
  else (cut colon t).2

/-- Checks the address in the first brackets of an authority. -/
def checkBracketed (host : Text) : Except UrlFault Unit :=
  if Text.startsWith host "v" then
    let (version, rest) := cut (CodePoint.ofChar '.') (host.drop 1)
    if !version.isEmpty && version.all CodePoint.isHexDigit && !rest.isEmpty then .ok ()
    else .error .futureAddress
  else if Address.isIpv4 host then .error .bracketedIpv4
  else if Address.isIpv6 host then .ok ()
  else .error (.address host)

/-- The code points beyond ASCII that are compatible with texts that hold a delimiter. -/
def hiddenDelimiters : List Nat :=
  [0x2047, 0x2048, 0x2049, 0x2100, 0x2101, 0x2105, 0x2106, 0x2A74, 0xFE13, 0xFE16, 0xFE55, 0xFE56,
    0xFE5F, 0xFE6B, 0xFF03, 0xFF0F, 0xFF1A, 0xFF1F, 0xFF20]

/-- Checks an authority: brackets come in pairs around an address, and no delimiter is hidden. -/
def checkAuthority (authority : Text) : Except UrlFault Unit := do
  let opens := authority.contains leftBracket
  let closes := authority.contains rightBracket
  if opens != closes then throw .brackets
  if opens then checkBracketed (cut rightBracket (cut leftBracket authority).2).1

/-- The parts of the URL that a text is. -/
def ofText (t : Text) : Except UrlFault Url := do
  let (scheme, rest) := takeScheme (clean t)
  let (authority, rest) := takeAuthority rest
  checkAuthority authority
  let (rest, fragment) := cut hash rest
  let (path, query) := cut question rest
  if authority.any fun c ↦ hiddenDelimiters.contains c.val then throw (.hiddenDelimiter authority)
  return { scheme, authority, path, query, fragment }

/-- The host of a URL in lower case, empty if there is none; the zone of an address stays as it
is. -/
def host (u : Url) : Text :=
  let t := rawHost u.authority
  let isPercent (c : CodePoint) : Bool := c == CodePoint.ofChar '%'
  Text.lower (t.takeWhile (!isPercent ·)) ++ t.dropWhile (!isPercent ·)

/-- The text of a URL. Empty parts are left out, and a path after an authority begins with a
slash. -/
def text (u : Url) : Text :=
  let path := if u.path.isEmpty || u.path.head? = some slash then u.path else slash :: u.path
  Text.concat [if u.scheme.isEmpty then [] else u.scheme ++ [colon],
    if u.authority.isEmpty then u.path else Text.concat ["//", u.authority, path],
    if u.query.isEmpty then [] else question :: u.query,
    if u.fragment.isEmpty then [] else hash :: u.fragment]

/-- The schemes whose last path segment may end with parameters. -/
def schemesWithParameters : List Text :=
  ["", "ftp", "hdl", "prospero", "http", "https", "shttp", "rtsp", "rtsps", "sip", "sips", "mms",
    "sftp", "tel"]

/-- The path of a URL without the semicolon of parameters that are empty. -/
def pathWithoutEmptyParameters (u : Url) : Text :=
  let segment := (Text.splitOn slash u.path).getLast?.getD []
  if schemesWithParameters.contains u.scheme && segment.contains semicolon &&
      (cut semicolon segment).2.isEmpty then u.path.dropLast
  else u.path

/-- The host of a URL without one. -/
def defaultHost : Text := "localhost"

/-- The URL with a port; of its authority only the host is kept. -/
def withPort (u : Url) (port : Nat) : Url :=
  let host := if u.host.isEmpty then defaultHost else u.host
  { u with
    authority := Text.concat [host, [colon], Text.ofNat port]
    path := u.pathWithoutEmptyParameters }

end Url

end StoryCatalog
