import StoryCatalog.Session
import StoryCatalog.Text.Encoding

/-!
# The index of a running Storybook

A running Storybook serves its index under one of two names. The second one is asked for only if
the first gives no index; what is reported then is what is wrong with the last.
-/

namespace StoryCatalog

namespace StoryIndex

/-- The names under which an index is served, the preferred one first. -/
def servedNames : List Text := ["index.json", "stories.json"]

/-- Why a URL gives no story index. -/
inductive FetchFault where
  | timedOut
  | failed (reason : Text)
  | status (code : Nat)
  | encoding (fault : DecodeFault)
  | json (fault : Json.ReadError)
  | value (error : ReadError)

/-- The wording of a fault of a URL. -/
def FetchFault.message (url : Text) : FetchFault → Text
  | .timedOut => Text.concat ["Timeout fetching ", url]
  | .failed reason => Text.concat ["Error fetching ", url, ": ", reason]
  | .status code => Text.concat ["HTTP ", Text.ofNat code, " from ", url]
  | .encoding fault => fault.message
  | .json fault => fault.message
  | .value error => error.message

/-- The index that the body of a reply holds. -/
def ofBody (body : Bytes) : Except FetchFault StoryIndex :=
  match Encoding.decodeDocument body with
  | .error fault => .error (.encoding fault)
  | .ok t =>
    match Json.readDecoded t with
    | .error fault => .error (.json fault)
    | .ok value =>
      match ofJson value with
      | .error error => .error (.value error)
      | .ok index => .ok index

/-- The index that a reply holds; its location is looked at, though not followed. -/
def ofReply (asciiName : Text → Option Text) (url : RequestUrl) (reply : Reply) :
    Except FetchFault StoryIndex :=
  match reply.location?.map (url.redirect asciiName) with
  | some (.error fault) =>
    .error (.failed (Text.concat ["Invalid URL in location header: ", fault.message, "."]))
  | _ => if reply.isSuccess then ofBody reply.body else .error (.status reply.status)

/-- Asks a URL for an index. -/
def fetchFrom (url : Text) : Work (Except FetchFault StoryIndex) := do
  let names := (← get).server.asciiName
  match RequestUrl.target names url with
  | .error fault => Work.fail (.request fault)
  | .ok target =>
    match ← Work.send ⟨.get, target.text⟩ with
    | .answered reply => return ofReply names target reply
    | .timedOut => return .error .timedOut
    | .failed reason => return .error (.failed reason)
    | .cutOff => throw .cutOff

/-- Asks URLs for an index, one after another until one gives it. The error is that of the last. -/
def fetchFirst (error : ExtractionError) : List Text → Work (Except ExtractionError StoryIndex)
  | [] => return .error error
  | url :: rest => do
    match ← fetchFrom url with
    | .ok index => return .ok index
    | .error fault => fetchFirst (.index (fault.message url) (some url)) rest

/-- A URL without the slashes at its end. -/
def baseOf (url : Text) : Text := Text.dropEndWhile url (· == CodePoint.ofChar '/')

/-- Fetches the index of the server at a URL. -/
def fetch (base : Text) : Work (Except ExtractionError StoryIndex) :=
  fetchFirst (.index "Story index unavailable" (some (baseOf base)))
    (servedNames.map fun name ↦ Text.concat [baseOf base, "/", name])

end StoryIndex

end StoryCatalog
