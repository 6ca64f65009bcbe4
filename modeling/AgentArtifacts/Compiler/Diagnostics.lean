import AgentArtifacts.Domain
import Mathlib.Data.List.Lex
import Mathlib.Data.List.Sort
import Mathlib.Data.Prod.Lex
import Mathlib.Data.String.Basic

/-!
# Diagnostics of the compiler

A diagnostic with its severity and the place it is about, and the order in which reports and
graphs list them.
-/

namespace AgentArtifacts.Compiler

inductive Severity where
  | info
  | warning
  | error
deriving DecidableEq

def Severity.value : Severity → String
  | .info => "info"
  | .warning => "warning"
  | .error => "error"

structure SourceLocation where
  source : Option SourceAlias := none
  path : Option String := none
  pointer : Option String := none
  line : Option Int := none
  column : Option Int := none
deriving DecidableEq

structure Diagnostic where
  code : DiagnosticCode
  severity : Severity
  message : String
  location : Option SourceLocation := none
  remediation : List String := []
  details : List (String × String) := []
deriving DecidableEq

abbrev LocationKey := String ×ₗ String ×ₗ ℤ ×ₗ ℤ ×ₗ String

abbrev DiagnosticKey := LocationKey ×ₗ String ×ₗ String ×ₗ String ×ₗ List String ×ₗ List (String ×ₗ String)

def locationKey (location : SourceLocation) : LocationKey :=
  toLex ((location.source.map (·.value)).getD "", toLex (location.path.getD "", toLex (location.line.getD (-1),
    toLex (location.column.getD (-1), location.pointer.getD ""))))

/-- A diagnostic without a location is placed as one whose location says nothing. -/
def diagnosticSortKey (diagnostic : Diagnostic) : DiagnosticKey :=
  toLex (locationKey (diagnostic.location.getD {}), toLex (diagnostic.severity.value, toLex (diagnostic.code.value,
    toLex (diagnostic.message, toLex (diagnostic.remediation, diagnostic.details.map fun item => toLex item)))))

def sortDiagnostics (diagnostics : List Diagnostic) : List Diagnostic :=
  diagnostics.insertionSort fun a b => diagnosticSortKey a ≤ diagnosticSortKey b

end AgentArtifacts.Compiler
