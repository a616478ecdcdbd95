import StoryCatalog.Index.Remote
import StoryCatalog.Proofs.Session.Work

/-!
# Requests for an index

A fetch asks one URL after another: a URL is asked only if those before it were refused, and none is
asked twice. `StoryIndex.Asks` says which requests are made and what comes of them, and every fetch
goes that way (`StoryIndex.asks_fetchFirst`).
-/

namespace StoryCatalog

/-- The session after more requests. -/
def Session.withRequests (s : Session) (asked : List Request) : Session :=
  { s with requests := s.requests ++ asked }

theorem Session.withRequests_withRequests (s : Session) (asked more : List Request) :
    (s.withRequests asked).withRequests more = s.withRequests (asked ++ more) := by
  rw [withRequests, withRequests, withRequests, List.append_assoc]

/-- What comes of a request, which is made in any case. -/
theorem Work.perform_send (request : Request) (s : Session) :
    (send request).perform s =
      (match s.server s.requests request with
        | .cutOff => .error .cutOff
        | exchange => .ok exchange, s.withRequests [request]) := by
  unfold send
  rw [perform_bind_ok (perform_get s)]
  dsimp only
  cases s.server s.requests request <;> rfl

namespace StoryIndex

variable {server : LiveServer} {before asked : List Request} {url : Text} {urls : List Text}
  {result : Except Interruption (Option StoryIndex)}

/-- The URL that is requested for a text. -/
def targetOf (server : LiveServer) (url : Text) : Except RequestFault RequestUrl :=
  RequestUrl.target server.asciiName url

/-- The request for the index at a URL. -/
def requestTo (target : RequestUrl) : Request := ⟨.get, target.text⟩

/-- The request that a text asks for. -/
def requestAt (server : LiveServer) (url : Text) : Except RequestFault Request :=
  (targetOf server url).map requestTo

/-- What comes of the request for the index at a URL after some requests, unless it is cut off. -/
def comesOf (server : LiveServer) (before : List Request) (target : RequestUrl) :
    Except Interruption (Except FetchFault StoryIndex) :=
  match server before (requestTo target) with
  | .answered reply => .ok (ofReply server.asciiName target reply)
  | .timedOut => .ok (.error .timedOut)
  | .failed reason => .ok (.error (.failed reason))
  | .cutOff => .error .cutOff

/-- The server gives no index for the request to a text, though it leaves it neither unanswered nor
cut off. -/
def Declines (server : LiveServer) (before : List Request) (url : Text) : Prop :=
  ∃ target fault, targetOf server url = .ok target ∧
    comesOf server before target = .ok (.error fault)

/-- Which requests are made when URLs are asked for an index after some requests, and which index
they give in the end. -/
inductive Asks (server : LiveServer) : List Request → List Text → List Request →
    Except Interruption (Option StoryIndex) → Prop where
  | exhausted (before : List Request) : Asks server before [] [] (.ok none)
  | unusable {url : Text} {fault : RequestFault} (before : List Request) (rest : List Text)
    (htarget : targetOf server url = .error fault) :
    Asks server before (url :: rest) [] (.error (.failed (.request fault)))
  | cutOff {before : List Request} {url : Text} {target : RequestUrl} {e : Interruption}
    (rest : List Text) (htarget : targetOf server url = .ok target)
    (hcutOff : comesOf server before target = .error e) :
    Asks server before (url :: rest) [requestTo target] (.error e)
  | given {before : List Request} {url : Text} {target : RequestUrl} {index : StoryIndex}
    (rest : List Text) (htarget : targetOf server url = .ok target)
    (hgiven : comesOf server before target = .ok (.ok index)) :
    Asks server before (url :: rest) [requestTo target] (.ok (some index))
  | refused {before asked : List Request} {url : Text} {rest : List Text} {target : RequestUrl}
    {fault : FetchFault} {result : Except Interruption (Option StoryIndex)}
    (htarget : targetOf server url = .ok target)
    (hrefused : comesOf server before target = .ok (.error fault))
    (hrest : Asks server (before ++ [requestTo target]) rest asked result) :
    Asks server before (url :: rest) (requestTo target :: asked) result

namespace Asks

/-- The requests are those of the first URLs, one for each. -/
theorem isPrefix (h : Asks server before urls asked result) :
    asked.map Except.ok <+: urls.map (requestAt server) := by
  have hrequest : ∀ {url target}, targetOf server url = .ok target →
      requestAt server url = .ok (requestTo target) := by
    intro url target htarget
    rw [requestAt, htarget]
    rfl
  induction h with
  | exhausted before => exact List.nil_prefix
  | unusable before rest htarget => exact List.nil_prefix
  | cutOff rest htarget hcutOff =>
    rw [List.map_cons, List.map_cons, hrequest htarget]
    exact List.cons_prefix_cons.mpr ⟨rfl, List.nil_prefix⟩
  | given rest htarget hgiven =>
    rw [List.map_cons, List.map_cons, hrequest htarget]
    exact List.cons_prefix_cons.mpr ⟨rfl, List.nil_prefix⟩
  | refused htarget hrefused hrest ih =>
    rw [List.map_cons, List.map_cons, hrequest htarget]
    exact List.cons_prefix_cons.mpr ⟨rfl, ih⟩

/-- There is a second request only if the first one was refused. -/
theorem declines {first second : Request} {more : List Request}
    (h : Asks server before (url :: urls) (first :: second :: more) result) :
    Declines server before url := by
  cases h with
  | refused htarget hrefused hrest => exact ⟨_, _, htarget, hrefused⟩

end Asks

/-- For a URL at most one request is made. -/
theorem perform_fetchFrom (url : Text) (s : Session) :
    (fetchFrom url).perform s =
      match targetOf s.server url with
      | .error fault => (.error (.failed (.request fault)), s)
      | .ok target =>
        (comesOf s.server s.requests target, s.withRequests [requestTo target]) := by
  unfold fetchFrom targetOf
  rw [Work.perform_bind_ok (Work.perform_get s)]
  dsimp only
  cases RequestUrl.target s.server.asciiName url with
  | error fault => rfl
  | ok target =>
    dsimp only [comesOf, requestTo]
    rw [Work.perform_bind, Work.perform_send]
    cases s.server s.requests ⟨.get, target.text⟩ <;> rfl

/-- URLs are asked in turn until one gives an index. -/
theorem asks_fetchFirst (error : ExtractionError) (urls : List Text) (s : Session) :
    ∃ asked result, (fetchFirst error urls).perform s = (result, s.withRequests asked) ∧
      Asks s.server s.requests urls asked (result.map Except.toOption) := by
  induction urls generalizing error s with
  | nil => exact ⟨[], .ok (.error error), by simp [fetchFirst, Session.withRequests], .exhausted _⟩
  | cons url rest ih =>
    have hfrom := perform_fetchFrom url s
    rw [fetchFirst]
    cases htarget : targetOf s.server url with
    | error fault =>
      rw [htarget] at hfrom
      refine ⟨[], .error (.failed (.request fault)), ?_, .unusable _ rest htarget⟩
      rw [Work.perform_bind_error hfrom, Session.withRequests, List.append_nil]
    | ok target =>
      rw [htarget] at hfrom
      dsimp only at hfrom
      cases hexchange : comesOf s.server s.requests target with
      | error e =>
        rw [hexchange] at hfrom
        exact ⟨_, .error e, Work.perform_bind_error hfrom, .cutOff rest htarget hexchange⟩
      | ok answer =>
        rw [hexchange] at hfrom
        rw [Work.perform_bind_ok hfrom]
        cases answer with
        | ok index => exact ⟨_, .ok (.ok index), rfl, .given rest htarget hexchange⟩
        | error fault =>
          obtain ⟨asked, result, hrest, hasks⟩ :=
            ih (.index (fault.message url) (some url)) (s.withRequests [requestTo target])
          refine ⟨requestTo target :: asked, result, ?_, .refused htarget hexchange hasks⟩
          dsimp only
          rw [hrest, Session.withRequests_withRequests, List.singleton_append]

end StoryIndex

end StoryCatalog
