import StoryCatalog.Json.Basic

/-!
# Pages of a browser

What a browser shows of a running Storybook: whether its manager loads, and what its story store
knows of each story. What is done with a page is listed, and the page may answer otherwise with
everything that is done with it, as a server may with every request.
-/

namespace StoryCatalog

/-- What comes of asking the store of a page for a story. -/
inductive StoryAnswer where
  | value (data : Json)
  | fails (reason : Text)
  | hangs

/-- What a page shows at some time. -/
structure Page where
  loads : Bool
  hasPreview : Bool
  story : Text → StoryAnswer

/-- What is done with a page; limits are in milliseconds. -/
inductive PageCall where
  | goto (url : Text) (waitUntil : Text) (limit : Number)
  | waitForSelector (selector : Text) (limit : Nat)
  | waitForTimeout (milliseconds : Nat)

/-- Why a browser is not launched or closed: that fails, or goes on until the work is cut off. -/
inductive BrowserFault where
  | fails (reason : Text)
  | hangs

/-- A page over time. All of it depends on what was done with the page before. -/
structure LivePage where
  /-- Why its browser cannot be launched, if it cannot. -/
  launchFault : Option BrowserFault
  shows : List PageCall → Page
  /-- The seconds that it takes to load the manager, or to visit a story. -/
  delay : List PageCall → Binary64
  /-- Why its browser cannot be closed, if it cannot. -/
  closeFault : List PageCall → Option BrowserFault

namespace LivePage

/-- A page that is handed over in an open browser: it shows the same all the time and at once. -/
def ofPage (page : Page) : LivePage where
  launchFault := none
  shows _ := page
  delay _ := .ofInt 0
  closeFault _ := none

instance : Coe Page LivePage := ⟨ofPage⟩

/-- What comes of visiting a story after some calls, and the seconds it takes, if there is a limit
to them. -/
def visit (page : LivePage) (calls : List PageCall) (limit : Binary64) (storyId : Text) :
    StoryAnswer × Binary64 :=
  match (page.shows calls).story storyId with
  | .hangs => (.hangs, limit)
  | answer =>
    if Binary64.lt (page.delay calls) limit then (answer, page.delay calls) else (.hangs, limit)

end LivePage

end StoryCatalog
