import FlowLint.Rule.Practice
import FlowLint.Rule.Security
import FlowLint.Rule.Style

/-! The catalog: all rules in the order in which they are evaluated. -/

namespace FlowLint.Catalog

def rules : List Rule := Security.rules ++ Practice.rules ++ Style.rules

/-- The rule with the given name. -/
def rule? (id : String) : Option Rule := rules.find? (·.id == id)

example : rules.length = 29 := by decide

end FlowLint.Catalog
