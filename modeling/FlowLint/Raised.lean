/-! Errors that no part of the program answers. -/

namespace FlowLint

/-- An error that ends what was asked for: its kind and what it says. -/
structure Raised where
  kind : String
  message : String
  deriving DecidableEq, Repr

end FlowLint
