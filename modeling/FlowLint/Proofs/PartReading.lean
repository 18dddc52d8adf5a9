import FlowLint.Catalog

/-! Rules that read only the parts of a workflow: its triggers, permissions, jobs and the like, and
neither the document that these come from nor the list of its secrets. Six rules of the catalog look
at more (`Catalog.readsParts_or`). -/

namespace FlowLint

/-- The workflow with the same parts, as if they came from another document. -/
def Workflow.withSource (w : Workflow) (source : Tree.Document) (extras : List String)
    (secretRefs : List SecretRef) : Workflow := { w with source, extras, secretRefs }

def Rule.ReadsParts (r : Rule) : Prop :=
  ∀ w s source extras refs, r.check (w.withSource source extras refs) s = r.check w s

/-- What the rules say that look at the lines of the text, at the tree or at the secrets. -/
def sourceChecks : List (Workflow → Settings → List Draft) := [
  Security.slimRunnerSecrets, Security.secretScope, Security.jobTimeout,
  Style.blockScalarSingleLine, Style.anchorUsage, Style.keyOrder]

def Rule.Draws (r : Rule) (check : Workflow → Settings → List Draft) : Prop :=
  ∀ w s, r.check w s = { drafts := check w s }

theorem Catalog.readsParts_or :
    ∀ r ∈ rules, r.ReadsParts ∨ ∃ check ∈ sourceChecks, r.Draws check := by
  have parts {r : Rule} (h : r.ReadsParts) :
      r.ReadsParts ∨ ∃ check ∈ sourceChecks, r.Draws check := .inl h
  have more {id description : String} {category : Category} {severity : Severity}
      {check : Workflow → Settings → List Draft} (h : check ∈ sourceChecks) :
      (Rule.total id category severity description check).ReadsParts ∨
        ∃ check' ∈ sourceChecks,
          (Rule.total id category severity description check).Draws check' :=
    .inr ⟨check, h, fun _ _ => rfl⟩
  simp only [rules, Security.rules, Practice.rules, Style.rules, List.forall_mem_append,
    List.forall_mem_cons]
  refine ⟨⟨⟨?_, ?_, ?_, more ?_, more ?_, ?_, more ?_, ?_, ?_, ?_, ?_, ?_, ?_, ?_,
    List.forall_mem_nil _⟩, ?_, ?_, ?_, ?_, ?_, ?_, ?_, List.forall_mem_nil _⟩, ?_, ?_, ?_, more ?_,
    more ?_, ?_, more ?_, ?_, List.forall_mem_nil _⟩
  case refine_4 | refine_5 | refine_7 | refine_25 | refine_26 | refine_28 => simp [sourceChecks]
  all_goals exact parts fun _ _ _ _ _ => rfl

end FlowLint
