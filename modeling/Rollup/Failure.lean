/-!
# Failures

Why a request to the library could not be met. The causes are the constructors; `Failure.message`
is the only place that words them.
-/

namespace Rollup

/-- Why a request could not be met. -/
inductive Failure where
  /-- Settings that cannot be read, or that name no known time zone. -/
  | invalidConfig (reason : String)
  /-- The catalog holds no relation of this name. -/
  | relationNotFound (name : String)
  /-- The relation holds no column of this name. -/
  | columnNotFound (name : String)
  /-- No script computes the expression. -/
  | scriptCompilation (reason : String)
  /-- The expression has no counterpart in the store. -/
  | unsupportedExpression (reason : String)
  /-- A state that no request should reach. -/
  | internal (reason : String)
  deriving DecidableEq

namespace Failure

/-- Wording of a failure. -/
def message : Failure → String
  | invalidConfig reason => "Invalid configuration: " ++ reason
  | relationNotFound name => "Relation not found: " ++ name
  | columnNotFound name => "Column not found: " ++ name
  | scriptCompilation reason => "Script compilation failed: " ++ reason
  | unsupportedExpression reason => "Unsupported expression: " ++ reason
  | internal reason => "Internal error: " ++ reason

end Failure

end Rollup
