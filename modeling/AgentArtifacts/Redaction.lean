/-!
# Redaction

The one redactor of the package, as a parameter: which letters of a text it hides is
decided by its patterns.
-/

namespace AgentArtifacts

/-- `redact_text` of the package. -/
class Redaction where
  redactText : String → String

end AgentArtifacts
