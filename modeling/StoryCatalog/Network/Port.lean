import StoryCatalog.Session

/-!
# Finding a running Storybook

A Storybook usually listens on one of a few ports. A port is taken if it grants a request for the
head of its root, and then serves a page there that looks like Storybook. Redirects are followed.
-/

namespace StoryCatalog

namespace Port

/-- The ports on which a Storybook usually listens, in the order in which they are tried. -/
def common : List Int := [6006, 6007, 6008, 6009, 9009, 9001, 8080]

/-- Whether a page bears the marks of Storybook. -/
def looksLikeStorybook (html : Text) : Bool :=
  Text.holds html.lower "storybook" || Text.holds html "__STORYBOOK" || Text.holds html "sb-"

/-- The redirects that are followed at most. -/
def redirectLimit : Nat := 20

/-- Sends a request and follows up to a number of redirects; nothing if that fails. -/
def follow (names : Text → Option Text) (method : RequestMethod) (url : RequestUrl) :
    (redirects : Nat) → Work (Option Reply)
  | 0 => do
    match ← Work.send ⟨method, url.text⟩ with
    | .answered reply => return if reply.location?.isSome then none else some reply
    | _ => return none
  | redirects + 1 => do
    match ← Work.send ⟨method, url.text⟩ with
    | .answered reply =>
      match reply.location?.map (url.redirect names) with
      | none => return some reply
      | some (.error _) => return none
      | some (.ok target) => follow names method target redirects
    | _ => return none

/-- Whether a Storybook answers on a port of a host. -/
def probe (host : Text) (port : Int) : Work Bool := do
  let text := Text.concat ["http://", host, ":", Text.ofInt port, "/"]
  let names := (← get).server.asciiName
  match RequestUrl.target names text with
  | .error fault => Work.fail (.request fault)
  | .ok url =>
    match ← follow names .head url redirectLimit with
    | none => return false
    | some head =>
      if !head.isSuccess then return false
      match ← follow names .get url redirectLimit with
      | none => return false
      | some page =>
        return page.isSuccess && looksLikeStorybook (Utf8.decodeReplacing page.body)

/-- The first of some ports on which a Storybook answers. -/
def detect (host : Text) : List Int → Work (Option Int)
  | [] => return none
  | port :: rest => do
    if ← probe host port then return some port
    detect host rest

end Port

end StoryCatalog
