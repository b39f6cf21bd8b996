import ClusterVitals.Config.Decode
import ClusterVitals.Config.Validity
import ClusterVitals.Text.Utf8
import ClusterVitals.Toml.Document

/-!
# Reading settings

From the bytes of a file to valid settings. What can go wrong is told step by step: the file, its
text, the document, the shapes of the values, the settings themselves.
-/

namespace ClusterVitals

/-- Why there are no settings. -/
inductive ConfigError where
  | missingFile
  | notText
  | notToml
  | wrongShape (cause : Setting.ShapeError)
  | invalid (violation : Violation)
  deriving DecidableEq, Repr

/-- The text of an error. The details of a document that cannot be read are told apart from it. -/
def ConfigError.message : ConfigError → String
  | missingFile => "failed to read config: No such file or directory (os error 2)"
  | notText => "failed to read config: stream did not contain valid UTF-8"
  | notToml | wrongShape _ => "failed to parse config"
  | invalid violation => violation.message

namespace Config

/-- The settings in a TOML document. -/
def parse (text : String) : Except ConfigError Config :=
  match Toml.parse? text with
  | none => .error .notToml
  | some document =>
    match Config.ofEntries document.entries with
    | .error cause => .error (.wrongShape cause)
    | .ok c => c.validated.mapError .invalid

/-- The settings in a file, given the bytes of the file if it exists. -/
def load : Option (List UInt8) → Except ConfigError Config
  | none => .error .missingFile
  | some bytes =>
    match Text.Utf8.decodeText? bytes with
    | none => .error .notText
    | some text => parse text

end Config

end ClusterVitals
