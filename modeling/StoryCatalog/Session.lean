import StoryCatalog.Browser.Page
import StoryCatalog.Failure
import StoryCatalog.Files
import StoryCatalog.Index.Basic
import StoryCatalog.Network.Exchange
import StoryCatalog.Timestamp.Reader

/-!
# Sessions

All that an extraction sees and changes: the files, the server with the requests made so far, the
browser, and the index of the server, which is fetched at most once. Work that fails or is cut off
keeps what it has changed.
-/

namespace StoryCatalog

/-- The index of the server as far as it is known: not asked for, or asked for with this result. -/
inductive LiveIndex where
  | unknown
  | known (index : Option StoryIndex)

/-- What an extraction sees and changes. -/
structure Session where
  files : FileSystem
  /-- The home directories of the other users. -/
  homeOf : Text → Option Path := fun _ ↦ none
  now : Timestamp
  server : LiveServer
  requests : List Request
  /-- The page of the browser, if there is a browser. -/
  page : Option LivePage
  calls : List PageCall
  liveIndex : LiveIndex
  /-- The seconds that are left until the work is cut off. -/
  remaining : Option Binary64

/-- Why a piece of work ends before it has a result. -/
inductive Interruption where
  | cutOff
  | failed (failure : Failure)

/-- A piece of work in a session. -/
abbrev Work (α : Type) := ExceptT Interruption (StateM Session) α

namespace Work

/-- What a piece of work comes to in a session, and the session afterwards. -/
def perform {α : Type} (work : Work α) (s : Session) : Except Interruption α × Session :=
  (ExceptT.run work).run s

/-- Ends the work with a failure. -/
def fail {α : Type} (failure : Failure) : Work α := throw (.failed failure)

/-- Sends a request; the work ends if no answer comes before it is cut off. -/
def send (request : Request) : Work Exchange := do
  let s ← get
  let exchange := s.server s.requests request
  set { s with requests := s.requests ++ [request] }
  match exchange with
  | .cutOff => throw .cutOff
  | exchange => return exchange

/-- Lists something done with the page. -/
def note (call : PageCall) : Work Unit :=
  modify fun s ↦ { s with calls := s.calls ++ [call] }

/-- Lets time pass; the work ends if it is cut off in that time. -/
def wait (seconds : Binary64) : Work Unit := do
  let s ← get
  match s.remaining with
  | none => return ()
  | some left =>
    if Binary64.lt seconds left then set { s with remaining := some (left.sub seconds) }
    else throw .cutOff

/-- Whether a number of seconds is over before anything can be done in it. -/
def isOver (seconds : Number) : Bool := !Binary64.lt (.ofInt 0) seconds.toBinary64

/-- Cuts a piece of work off after a number of seconds, if one is given. -/
def limited {α : Type} (limit : Option Number) (work : Work α) : Work α :=
  match limit with
  | none => work
  | some seconds =>
    if isOver seconds then throw .cutOff
    else fun s ↦
      let (result, s') := work.perform { s with remaining := some seconds.toBinary64 }
      (result, { s' with remaining := s.remaining })

end Work

end StoryCatalog
