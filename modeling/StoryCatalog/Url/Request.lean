import StoryCatalog.Text.Quoted
import StoryCatalog.Url.Basic
import StoryCatalog.Url.Percent

/-!
# URLs of requests

A request goes to a URL in its normal form: scheme and host in lower case, no port that the scheme
implies, no dot segments, and everything encoded that has to be. Names of hosts that are not ASCII
are spelled by rules of their own, which are a parameter. A URL without scheme or host is taken
below the root.
-/

namespace StoryCatalog

/-- The parts of a URL in their normal form. -/
structure RequestUrl where
  scheme : Text
  userInfo : Text
  host : Text
  port : Option Int
  path : Text
  query : Option Text
  fragment : Option Text
  deriving DecidableEq, Repr, Inhabited

/-- Why nothing can be requested from a URL. -/
inductive RequestFault where
  | tooLong
  | unprintable (c : CodePoint) (position : Nat)
  | port (t : Text)
  | ipv4 (host : Text)
  | ipv6 (host : Text)
  | name (host : Text)
  | absolutePath
  | slashes
  | colon
  deriving DecidableEq, Repr

/-- The wording of a fault. -/
def RequestFault.message : RequestFault → Text
  | .tooLong => "URL too long"
  | .unprintable c position =>
    Text.concat ["Invalid non-printable ASCII character in URL, ", Text.quoted [c], " at position ",
      Text.ofNat position, "."]
  | .port t => Text.concat ["Invalid port: ", t.quoted]
  | .ipv4 host => Text.concat ["Invalid IPv4 address: ", host.quoted]
  | .ipv6 host => Text.concat ["Invalid IPv6 address: ", host.quoted]
  | .name host => Text.concat ["Invalid IDNA hostname: ", host.quoted]
  | .absolutePath => "For absolute URLs, path must be empty or begin with '/'"
  | .slashes => "Relative URLs cannot have a path starting with '//'"
  | .colon => "Relative URLs cannot have a path starting with ':'"

namespace RequestUrl

private def colon : CodePoint := CodePoint.ofChar ':'
private def slash : CodePoint := CodePoint.ofChar '/'
private def question : CodePoint := CodePoint.ofChar '?'
private def hash : CodePoint := CodePoint.ofChar '#'

/-- The code points that a URL may have. -/
def lengthLimit : Nat := 65536

/-- Whether a code point is a printable ASCII character outside some others. -/
def isPrintableExcept (others : Text) (c : CodePoint) : Bool :=
  0x20 < c.val && c.val < 0x7F && !others.contains c

/-- Whether a code point may stand in a fragment. -/
def keepInFragment : CodePoint → Bool := isPrintableExcept "\"<>\x60"

/-- Whether a code point may stand in a query. -/
def keepInQuery : CodePoint → Bool := isPrintableExcept "\"#<>"

/-- Whether a code point may stand in a path. -/
def keepInPath : CodePoint → Bool := isPrintableExcept "\"#<>?\x60\x7b\x7d"

/-- Whether a code point may stand in user information. -/
def keepInUserInfo : CodePoint → Bool :=
  isPrintableExcept "\"#<>?\x60\x7b\x7d/:;=@[\\]^|"

/-- Whether a code point may stand in the name of a host. -/
def keepInHost (c : CodePoint) : Bool :=
  c.isUnreserved || Text.holds "!$&'()*+,;=\"\x60\x7b\x7d%|\\" [c]

/-- Cuts a text in two at the first code point of a class, which stays with the second part. -/
def splitAtFirst (p : CodePoint → Bool) (t : Text) : Text × Text :=
  (t.takeWhile (!p ·), t.dropWhile (!p ·))

/-- The scheme that stands before the first colon, and the text after it. -/
def takeScheme (t : Text) : Text × Text :=
  let (scheme, rest) := splitAtFirst (· == colon) t
  if !rest.isEmpty && scheme.all Url.isSchemePoint &&
      (scheme.head?.map Url.isLetter).getD true then (scheme, rest.drop 1)
  else ([], t)

/-- The part that a delimiter begins, if it stands at the start. -/
def takePart (delimiter : CodePoint) (t : Text) : Option Text :=
  if t.head? = some delimiter then some t.tail else none

/-- The user information, the host and the port of an authority, as written. -/
def cutAuthority (authority : Text) : Text × Text × Text :=
  let isAt (c : CodePoint) : Bool := c == CodePoint.ofChar '@'
  let afterUser := Url.hostAndPort authority
  let userInfo := (authority.take (authority.length - afterUser.length)).dropLast
  let isClosing (c : CodePoint) : Bool := c == CodePoint.ofChar ']'
  let (host, rest) :=
    if Text.startsWith afterUser "[" && afterUser.any isClosing then
      let rest := (afterUser.reverse.takeWhile (!isClosing ·)).reverse
      (afterUser.take (afterUser.length - rest.length), rest)
    else splitAtFirst (fun c ↦ c == colon || isAt c) afterUser
  (userInfo, host, (takePart colon rest).getD rest)

/-- Whether a text is four runs of digits with any single code points between them, of which so
many are still to come. -/
def isFourNumbers (separators : Nat) (started : Bool) : Text → Bool
  | [] => separators == 0 && started
  | c :: rest =>
    (c.isDigit && isFourNumbers separators true rest) ||
      (started && 0 < separators && isFourNumbers (separators - 1) false rest)

/-- The host of a URL in its normal form; an address of groups is given without its brackets. -/
def normalHost (asciiName : Text → Option Text) (host : Text) : Except RequestFault Text :=
  if host.isEmpty then .ok []
  else if isFourNumbers 3 false host then
    if Address.isIpv4 host then .ok host else .error (.ipv4 host)
  else if Text.startsWith host "[" && Text.endsWith host "]" then
    let inner := (host.drop 1).dropLast
    if Address.isIpv6 inner then .ok inner else .error (.ipv6 host)
  else if host.all (·.val < 0x80) then .ok (Text.percentCompleted keepInHost (Text.lower host))
  else
    match asciiName host.lower with
    | some name => .ok name
    | none => .error (.name host)

/-- The ports that schemes imply. -/
def impliedPorts : List (Text × Int) :=
  [("ftp", 21), ("http", 80), ("https", 443), ("ws", 80), ("wss", 443)]

/-- The port of a URL, unless its scheme implies it. -/
def normalPort (port scheme : Text) : Except RequestFault (Option Int) :=
  if port.isEmpty then .ok none
  else
    let (negative, digits) :=
      match port with
      | c :: rest =>
        if c = CodePoint.ofChar '-' then (true, rest)
        else if c = CodePoint.ofChar '+' then (false, rest) else (false, port)
      | [] => (false, port)
    match digits.mapM CodePoint.digitValue? with
    | none | some [] => .error (.port port)
    | some values =>
      let n : Int := Text.readDigits 10 values
      let n := if negative then -n else n
      .ok (if impliedPorts.contains (scheme, n) then none else some n)

/-- The segments of a path without dots, each pair of dots taking away the segment before it. -/
def dropDots (segments : List Text) : List Text :=
  segments.foldl (fun kept segment ↦
    if segment = (".." : Text) then if kept = [] || kept = [[]] then kept else kept.dropLast
    else if segment = ("." : Text) then kept
    else kept ++ [segment]) []

/-- The path without dot segments. -/
def normalPath (path : Text) : Text := Text.join [slash] (dropDots (Text.splitOn slash path))

/-- Checks a path beside what stands before it. -/
def checkPath (hasScheme hasAuthority : Bool) (path : Text) : Except RequestFault Unit :=
  if hasAuthority then
    if path.isEmpty || path.head? = some slash then .ok () else .error .absolutePath
  else if hasScheme then .ok ()
  else if Text.startsWith path "//" then .error .slashes
  else if Text.startsWith path ":" then .error .colon
  else .ok ()

/-- The normal form of a URL that is given by its parts. -/
def ofParts (asciiName : Text → Option Text) (scheme authority path : Text)
    (query fragment : Option Text) : Except RequestFault RequestUrl := do
  let (userInfo, host, port) := cutAuthority authority
  let host ← normalHost asciiName host
  let port ← normalPort port scheme
  let hasScheme := !scheme.isEmpty
  let hasAuthority := !userInfo.isEmpty || !host.isEmpty || port.isSome
  checkPath hasScheme hasAuthority path
  return {
    scheme := scheme.lower
    userInfo := Text.percentCompleted keepInUserInfo userInfo
    host, port
    path := Text.percentCompleted keepInPath
      (if hasScheme || hasAuthority then normalPath path else path)
    query := query.map (Text.percentCompleted keepInQuery)
    fragment := fragment.map (Text.percentCompleted keepInFragment) }

/-- The normal form of the URL that a text is. -/
def ofText (asciiName : Text → Option Text) (t : Text) : Except RequestFault RequestUrl := do
  if t.length > lengthLimit then throw .tooLong
  let (before, rest) := splitAtFirst (fun c ↦ c.val < 0x20 || c.val = 0x7F) t
  if let c :: _ := rest then throw (.unprintable c before.length)
  let (scheme, rest) := takeScheme t
  let (authority, rest) := Url.takeAuthority rest
  let (path, rest) := splitAtFirst (fun c ↦ c == question || c == hash) rest
  let (queryPart, rest) := splitAtFirst (· == hash) rest
  ofParts asciiName scheme authority path (takePart question queryPart) (takePart hash rest)

/-- The text of a URL. -/
def text (u : RequestUrl) : Text :=
  let authority := Text.concat [
    if u.userInfo.isEmpty then [] else u.userInfo ++ [CodePoint.ofChar '@'],
    if u.host.contains colon then Text.concat ["[", u.host, "]"] else u.host,
    match u.port with
    | some n => colon :: Text.ofInt n
    | none => []]
  Text.concat [if u.scheme.isEmpty then [] else u.scheme ++ [colon],
    if authority.isEmpty then [] else "//" ++ authority,
    u.path, (u.query.map (question :: ·)).getD [], (u.fragment.map (hash :: ·)).getD []]

/-- Whether a URL names a scheme and a host. -/
def isAbsolute (u : RequestUrl) : Bool := !u.scheme.isEmpty && !u.host.isEmpty

/-- The URL that a client without a base requests: a relative one is taken below the root. -/
def belowRoot (asciiName : Text → Option Text) (u : RequestUrl) :
    Except RequestFault RequestUrl :=
  if u.isAbsolute then .ok u
  else ofParts asciiName [] [] (slash :: u.path.dropWhile (· == slash)) u.query none

/-- The URL that is requested for a text. -/
def target (asciiName : Text → Option Text) (t : Text) : Except RequestFault RequestUrl := do
  (← ofText asciiName t).belowRoot asciiName

/-- The segments of a path taken relative to the segments of another one. -/
def resolveSegments (base path : Text) : List Text :=
  let segments := Text.splitOn slash path
  if path.head? = some slash then segments
  else
    let directory := (Text.splitOn slash base).dropLast
    let inner := (directory ++ segments).drop 1
    (directory ++ segments).take 1 ++ inner.dropLast.filter (!·.isEmpty) ++
      (inner.getLast?.map ([·])).getD []

/-- The path that a relative path leads to from another one; it begins with a slash. -/
def resolvePath (base path : Text) : Text :=
  let segments := resolveSegments base path
  let kept := segments.foldl (fun kept segment ↦
    if segment = (".." : Text) then kept.dropLast
    else if segment = ("." : Text) then kept else kept ++ [segment]) []
  let last := segments.getLast?.getD []
  let closed := if last = ("." : Text) || last = (".." : Text) then kept ++ [[]] else kept
  let whole := Text.join [slash] closed
  if whole.head? = some slash then whole else slash :: whole

/-- The URL that a location leads to from the URL that answered with it. -/
def redirect (asciiName : Text → Option Text) (u : RequestUrl) (location : Text) :
    Except RequestFault RequestUrl := do
  let v ← ofText asciiName location
  let v := if !v.scheme.isEmpty && v.host.isEmpty then { v with host := u.host } else v
  let target : RequestUrl :=
    if v.isAbsolute then v
    else if !v.scheme.isEmpty && v.scheme != u.scheme then v
    else if !v.host.isEmpty then { v with scheme := u.scheme }
    else if v.path.isEmpty then
      { u with query := v.query.or u.query, fragment := v.fragment }
    else { u with path := resolvePath u.path v.path, query := v.query, fragment := v.fragment }
  return { target with fragment := target.fragment.or u.fragment }

end RequestUrl

end StoryCatalog
