import FlowLint.Finding.Reading
import FlowLint.Review
import FlowLint.Settings.Update

/-! The service: requests that review texts and that read and change the active settings. `respond`
is one step from a state and a request to a state and an answer; only a valid update changes the
state. Patterns are read by the reader that the service is given. The pages on which a server
describes its own routes are none of the service, so their paths lead nowhere here. -/

namespace FlowLint

open Json (Checked Issue)
open FlowLint.Tree (LoadError)

def ChecklistItem.toJson (i : ChecklistItem) : Json := .object [
  ("category", .string i.category.name), ("label", .string i.category.label),
  ("flagged", .bool i.flagged), ("count", .ofNat i.count)]

/-- What a client learns about a rule. -/
def Rule.toJson (r : Rule) : Json := .object [
  ("rule_id", .string r.id), ("category", .string r.category.name),
  ("severity", .string r.severity.name), ("description", .string r.description)]

/-- What a client learns from a review. -/
def Review.toJson (r : Review) : Json := .object [
  ("summary", .string r.summary), ("report", .string r.report),
  ("findings", .array (r.findings.map Finding.toJson)),
  ("must_fix_count", .ofNat (r.count .mustFix)),
  ("improvement_count", .ofNat (r.count .improvement)),
  ("checklist", .array (r.checklist.map ChecklistItem.toJson)),
  ("failed_rules", .ofStrings r.failedRules)]

namespace Service

structure Request where
  method : String
  path : String
  body : Option Json := none
  deriving Repr

structure Response where
  status : Nat
  body : Json
  deriving Repr

/-- What comes of a request: a response, or an error instead of one. -/
abbrev Answer : Type := Except Raised Response

/-- What reviews texts: some rules, under some settings. -/
structure Engine where
  settings : Settings
  rules : List Rule

/-- What the service keeps from one request to the next: the settings that it shows, and the engine
that reviews. -/
structure State where
  settings : Settings
  engine : Engine

/-- The state in which the service starts. -/
def State.start (s : Settings) : State := ⟨s, ⟨s, Catalog.rules⟩⟩

/-- An answer that says why there is no other. -/
def refuse (status : Nat) (detail : Json) : Response := ⟨status, .object [("detail", detail)]⟩

def refuseBody (issues : List Issue) : Response :=
  refuse 422 (.array (issues.map (·.toJsonWithContext)))

def refuseSettings (issues : List Issue) : Response :=
  refuse 422 (.array (issues.map Issue.toJson))

/-- The answer to a text that cannot be loaded. -/
def refuseText (e : LoadError) : Response := refuse 422 (.object [
  ("message", .string e.message),
  ("line", .ofOption (fun p => .ofNat p.1) e.place?),
  ("column", .ofOption (fun p => .ofNat p.2) e.place?)])

/-- What was read, or what has to be answered if nothing was. -/
def orRefuse {α : Type} (refusal : List Issue → Response) (checked : Checked α) : Except Answer α :=
  checked.toExcept (fun issues => .ok (refusal issues)) .error

/-- Reads the body of a request; a null body is none. -/
def readBody {α : Type} (read : Json → Checked α) (body : Option Json) : Except Answer α :=
  let checked : Checked α := match body with
    | none => .fail .missing .null
    | some .null => .fail .missing .null
    | some v => read v
  orRefuse refuseBody (checked.under (.member "body"))

/-- A text to be reviewed, with members to be put over the active settings. -/
structure ReviewRequest where
  content : String
  overrides : Option (List (String × Json))
  deriving Repr

/-- Reads the members of an object. -/
def dictionary : Json → Checked (List (String × Json)) := Json.Shape.record .ok .notDictionary

def ReviewRequest.ofMembers (members : List (String × Json)) : Checked ReviewRequest :=
  ReviewRequest.mk <$> Json.Shape.member "content" Json.Shape.text "" members
    <*> Json.Shape.member "config" (Json.Shape.optional dictionary) none members

def ReviewRequest.ofJson : Json → Checked ReviewRequest :=
  Json.Shape.record ReviewRequest.ofMembers .notBody

/-- The answer with the review of a text by the engine that holds for it. An error that is not of
the text has no answer. -/
def reviewed (e : Engine) (text : String) : Answer :=
  match Review.ofText e.rules e.settings text with
  | .ok review => .ok ⟨200, review.toJson⟩
  | .error e =>
    match e.raised? with
    | none => .ok (refuseText e)
    | some error => .error error

section

variable (reader : PatternReader)

/-- The engine for a request, whose overrides hold for this request alone. -/
def ReviewRequest.engine (r : ReviewRequest) (e : Engine) : Except Answer Engine :=
  match r.overrides with
  | none | some [] => .ok e
  | some changes =>
    (orRefuse refuseSettings (e.settings.override reader changes)).map (⟨·, e.rules⟩)

/-- The answer to a request for a review. -/
def review (e : Engine) (body : Option Json) : Answer :=
  match readBody ReviewRequest.ofJson body with
  | .error answer => answer
  | .ok request =>
    if Text.allBlank request.content then .ok (refuse 400 (.string "content is required"))
    else match request.engine reader e with
      | .error answer => answer
      | .ok engine => reviewed engine request.content

/-- The settings of an engine after an update. -/
def update (e : Engine) (body : Option Json) : Except Answer Settings := do
  let u ← readBody Update.ofJson body
  orRefuse refuseSettings (u.apply reader e.settings)

end

/-- What can be asked for. -/
inductive Resource where
  | lint
  | rules
  | settings
  | health
  deriving DecidableEq, Repr

def Resource.all : List Resource := [.lint, .rules, .settings, .health]

def Resource.path : Resource → String
  | .lint => "/api/lint"
  | .rules => "/api/rules"
  | .settings => "/api/settings/lint"
  | .health => "/api/health"

/-- The resource with the given path; slashes at its end make no difference. -/
def Resource.ofPath? (path : String) : Option Resource :=
  let path := String.ofList (path.toList.reverse.dropWhile (· == '/')).reverse
  Resource.all.find? (·.path == path)

section

variable (reader : PatternReader)

/-- The state after a request and the answer to it. -/
def respond (s : State) (r : Request) : State × Answer :=
  match Resource.ofPath? r.path, r.method with
  | none, _ => (s, .ok (refuse 404 (.string "Not Found")))
  | some .lint, "POST" => (s, review reader s.engine r.body)
  | some .rules, "GET" => (s, .ok ⟨200, .array (s.engine.rules.map Rule.toJson)⟩)
  | some .settings, "GET" => (s, .ok ⟨200, s.settings.toJson⟩)
  | some .settings, "PUT" =>
    match update reader s.engine r.body with
    | .ok next => (⟨next, ⟨next, s.engine.rules⟩⟩, .ok ⟨200, next.toJson⟩)
    | .error answer => (s, answer)
  | some .health, "GET" =>
    (s, .ok ⟨200, .object [("healthy", .bool true), ("rules", .ofNat Catalog.rules.length)]⟩)
  | some _, _ => (s, .ok (refuse 405 (.string "Method Not Allowed")))

/-- The last state and the responses to requests, as long as all of them have one. -/
def State.run (s : State) : List Request → Except Raised (State × List Response)
  | [] => .ok (s, [])
  | r :: rest => do
    let (next, answer) := respond reader s r
    let response ← answer
    let (last, responses) ← next.run rest
    return (last, response :: responses)

def run (s : Settings) (requests : List Request) : Except Raised (State × List Response) :=
  (State.start s).run reader requests

end

end Service

end FlowLint
