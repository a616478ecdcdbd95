import StoryCatalog.Fields
import StoryCatalog.Text.Case
import StoryCatalog.Text.Utf8

/-!
# Exchanges with a server

A server is a function: what it gives for a request may depend on all requests made before, so it
may answer the same request in different ways. How long an answer takes is told only by whether it
comes before the work that waits for it is cut off.
-/

namespace StoryCatalog

/-- What a request asks for: a document, or only the head of the reply. -/
inductive RequestMethod where
  | get
  | head
  deriving DecidableEq, Repr

/-- A request to a server. -/
structure Request where
  method : RequestMethod
  url : Text
  deriving DecidableEq, Repr

/-- The text of a request. -/
def Request.text (r : Request) : Text :=
  match r.method with
  | .get => "GET " ++ r.url
  | .head => "HEAD " ++ r.url

/-- What a server replies. -/
structure Reply where
  status : Nat
  headers : Fields Text
  body : Bytes

namespace Reply

/-- Whether a reply grants the request. -/
def isSuccess (r : Reply) : Bool := 200 ≤ r.status && r.status < 300

/-- The value of a header, whose name may be written in either case. -/
def header? (r : Reply) (name : Text) : Option Text :=
  (r.headers.find? fun e ↦ Text.lower e.1 == Text.lower name).map (·.2)

/-- The statuses that send a client elsewhere. -/
def redirectStatuses : List Nat := [301, 302, 303, 307, 308]

/-- The location that a reply sends the client to. -/
def location? (r : Reply) : Option Text :=
  if redirectStatuses.contains r.status then r.header? "location" else none

end Reply

/-- What comes of a request; it may also go unanswered until the work is cut off. -/
inductive Exchange where
  | answered (reply : Reply)
  | timedOut
  | failed (reason : Text)
  | cutOff

/-- A server: what comes of a request after the requests made before. -/
abbrev Server := List Request → Request → Exchange

/-- A server on a network. A host whose name is not ASCII is asked under another name. -/
structure LiveServer where
  answer : Server
  /-- The ASCII name of a host whose name, in lower case, is not ASCII, if it has one. -/
  asciiName : Text → Option Text

namespace LiveServer

/-- A server on a network that knows ASCII names only. -/
def ofServer (answer : Server) : LiveServer := ⟨answer, fun _ ↦ none⟩

instance : Coe Server LiveServer := ⟨ofServer⟩

instance : CoeFun LiveServer fun _ ↦ Server := ⟨answer⟩

end LiveServer

end StoryCatalog
