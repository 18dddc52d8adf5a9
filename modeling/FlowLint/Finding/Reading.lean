import FlowLint.Finding
import FlowLint.Json.Shape

/-! Findings as JSON objects. -/

namespace FlowLint

open Json (Checked)

namespace Shape

def severity : Json → Checked Severity := Json.Shape.named Severity.all Severity.name .notName

def category : Json → Checked Category := Json.Shape.named Category.all Category.name .notName

end Shape

namespace Finding

def ofMembers (members : List (String × Json)) : Checked Finding :=
  Finding.mk <$> Json.Shape.required "rule_id" Json.Shape.text members
    <*> Json.Shape.required "severity" Shape.severity members
    <*> Json.Shape.required "category" Shape.category members
    <*> Json.Shape.member "location" Json.Shape.text "" members
    <*> Json.Shape.member "order" Json.Shape.integer 0 members
    <*> Json.Shape.required "title" Json.Shape.text members
    <*> Json.Shape.member "why" Json.Shape.text "" members
    <*> Json.Shape.member "change" Json.Shape.text "" members
    <*> Json.Shape.member "patch" (Json.Shape.optional Json.Shape.text) none members

def ofJson : Json → Checked Finding := Json.Shape.record ofMembers (.notRecord "Finding")

/-- Reads findings up to the first one with issues, which are told as issues with that finding. -/
def listOfJson : List Json → Checked (List Finding)
  | [] => .ok []
  | v :: rest => (ofJson v).andThen fun f => (f :: ·) <$> listOfJson rest

def toJson (f : Finding) : Json := .object [
  ("rule_id", .string f.ruleId), ("severity", .string f.severity.name),
  ("category", .string f.category.name), ("location", .string f.location),
  ("order", .ofInt f.order), ("title", .string f.title), ("why", .string f.why),
  ("change", .string f.change), ("patch", .ofOption .string f.patch)]

end Finding

end FlowLint
