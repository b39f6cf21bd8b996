import ClusterVitals.Binary64.Decimal
import ClusterVitals.Config.Basic
import ClusterVitals.Duration.Written
import ClusterVitals.Text.Quoted
import ClusterVitals.Toml.Basic

/-!
# Settings from TOML values

A group of settings stands in a table, or as an array with the values of its settings in order.
Settings that are missing keep their defaults and unknown names are passed over. Values are read in
the order of the document, so the first value of a wrong shape decides the error.
-/

namespace ClusterVitals.Setting

/-- What a value is, as far as a message tells. -/
inductive Found where
  | integer (value : Int)
  | float (value : Binary64)
  | boolean (value : Bool)
  | string (text : String)
  | sequence
  | map
  deriving DecidableEq, Repr

/-- What a value should have been. -/
inductive Expected where
  | string
  | count
  | number
  | certificate
  | reconcile
  | backoff
  | logging
  | exposition
  deriving DecidableEq, Repr

/-- Why a value does not have the shape of its setting. -/
inductive ShapeError where
  | wrongType (found : Found) (expected : Expected)
  | negativeCount (value : Int)
  | badDuration (cause : Duration.ReadError)
  | unknownFormat (name : String)
  /-- A format is neither a text nor a table. -/
  | formatShape
  /-- A table in the place of a format has no entry, or more than one. -/
  | formatEntries (none : Bool)
  /-- The entry of a table in the place of a format has a value, of the named kind. -/
  | formatValue (kind : String)
  /-- The entry of a table in the place of a format has a table with entries or an array with
  elements. -/
  | formatTable
  /-- The entry of a table in the place of a format has tables of its own under repeated headers. -/
  | formatTables
  deriving DecidableEq, Repr

/-- The text for what a value is. -/
def Found.text : Found → String
  | integer n => s!"integer `{n}`"
  | float x => "floating point `" ++ x.pointText ++ "`"
  | boolean b => s!"boolean `{b}`"
  | string s => "string " ++ Text.quoted s
  | sequence => "sequence"
  | map => "map"

/-- The text for what a value should have been. -/
def Expected.text : Expected → String
  | string => "a string"
  | count => "usize"
  | number => "f64"
  | certificate => "struct CertificateConfig"
  | reconcile => "struct ReconcileConfig"
  | backoff => "struct BackoffConfig"
  | logging => "struct LogConfig"
  | exposition => "struct ExportConfig"

/-- The text of an error. -/
def ShapeError.message : ShapeError → String
  | wrongType found expected => "invalid type: " ++ found.text ++ ", expected " ++ expected.text
  | negativeCount n => s!"invalid value: integer `{n}`, expected usize"
  | badDuration cause => cause.message
  | unknownFormat name =>
    "unknown variant `" ++ name ++ "`, expected `full` or `compact`"
  | formatShape => "wanted string or table"
  | formatEntries true => "wanted exactly 1 element, found 0 elements"
  | formatEntries false => "wanted exactly 1 element, more than 1 element"
  | formatValue kind => "expected table, found " ++ kind
  | formatTable => "expected empty table"
  | formatTables => "expected empty array"

/-- What a value is. -/
def Found.ofToml : Toml → Found
  | .string s => .string s
  | .integer n => .integer n
  | .float x => .float x
  | .boolean b => .boolean b
  | .array _ | .tableArray _ => .sequence
  | .datetime | .inlineTable .. | .table .. => .map

/-! ## Single values -/

/-- A text. -/
def text : Toml → Except ShapeError String
  | .string s => .ok s
  | v => .error (.wrongType (.ofToml v) .string)

/-- A duration in its written form. -/
def duration (v : Toml) : Except ShapeError Duration := do
  match Duration.read (← text v) with
  | .ok d => .ok d
  | .error cause => .error (.badDuration cause)

/-- A number of things. -/
def count : Toml → Except ShapeError Nat
  | .integer (.ofNat n) => .ok n
  | .integer n => .error (.negativeCount n)
  | v => .error (.wrongType (.ofToml v) .count)

/-- A number with or without a fraction. -/
def number : Toml → Except ShapeError Binary64
  | .float x => .ok x
  | .integer n => .ok (.ofInt n)
  | v => .error (.wrongType (.ofToml v) .number)

/-- The name of the kind of a value that holds no others; `none` for tables and arrays. -/
def kindName? : Toml → Option String
  | .string _ => some "string"
  | .integer _ => some "integer"
  | .float _ => some "float"
  | .boolean _ => some "boolean"
  | .datetime => some "datetime"
  | .array _ | .tableArray _ | .inlineTable .. | .table .. => none

/-- A format by its name. -/
def formatOfName (name : String) : Except ShapeError LogFormat :=
  match LogFormat.ofText? name with
  | some f => .ok f
  | none => .error (.unknownFormat name)

/-- A format by the only entry of a table, whose value must be an empty table or array. -/
def formatOfEntries : List (String × Toml) → Except ShapeError LogFormat
  | [] => .error (.formatEntries true)
  | [(name, value)] => do
    let f ← formatOfName name
    match value with
    | .inlineTable _ [] | .table _ [] | .array [] | .tableArray [] => .ok f
    | .inlineTable .. | .table .. | .array _ => .error .formatTable
    | .tableArray _ => .error .formatTables
    | _ => .error (.formatValue ((kindName? value).getD ""))
  | _ => .error (.formatEntries false)

/-- A format: its name, or a table with its name. -/
def format : Toml → Except ShapeError LogFormat
  | .string name => formatOfName name
  | .inlineTable _ entries | .table _ entries => formatOfEntries entries
  | _ => .error .formatShape

/-! ## Groups of settings -/

/-- The values of a group by the names of their settings, in the order of the document. -/
def members (names : List String) (expected : Expected) :
    Toml → Except ShapeError (List (String × Toml))
  | .inlineTable _ entries | .table _ entries => .ok entries
  | .array elements | .tableArray elements => .ok (names.zip elements)
  | .datetime => .ok []
  | v => .error (.wrongType (.ofToml v) expected)

end Setting

open Setting

/-- Takes over one certificate setting. -/
def CertificateConfig.withSetting (c : CertificateConfig) :
    String × Toml → Except ShapeError CertificateConfig
  | ("namespace", v) => do return { c with ns := ← text v }
  | ("secret_name", v) => do return { c with secretName := ← text v }
  | ("recheck_interval", v) => do return { c with recheckInterval := ← duration v }
  | _ => .ok c

/-- The certificate settings in a value. -/
def CertificateConfig.ofToml (v : Toml) : Except ShapeError CertificateConfig := do
  (← members ["namespace", "secret_name", "recheck_interval"] .certificate v).foldlM
    withSetting .standard

/-- Takes over one backoff setting. -/
def Backoff.withSetting (b : Backoff) : String × Toml → Except ShapeError Backoff
  | ("initial_delay", v) => do return { b with initialDelay := ← duration v }
  | ("max_delay", v) => do return { b with maxDelay := ← duration v }
  | ("multiplier", v) => do return { b with multiplier := ← number v }
  | _ => .ok b

/-- The backoff settings in a value. -/
def Backoff.ofToml (v : Toml) : Except ShapeError Backoff := do
  (← members ["initial_delay", "max_delay", "multiplier"] .backoff v).foldlM withSetting .standard

/-- Takes over one pass setting. -/
def ReconcileConfig.withSetting (c : ReconcileConfig) :
    String × Toml → Except ShapeError ReconcileConfig
  | ("timeout", v) => do return { c with timeout := ← duration v }
  | ("max_concurrent", v) => do return { c with maxConcurrent := ← count v }
  | ("queue_capacity", v) => do return { c with queueCapacity := ← count v }
  | ("backoff", v) => do return { c with backoff := ← Backoff.ofToml v }
  | _ => .ok c

/-- The pass settings in a value. -/
def ReconcileConfig.ofToml (v : Toml) : Except ShapeError ReconcileConfig := do
  (← members ["timeout", "max_concurrent", "queue_capacity", "backoff"] .reconcile v).foldlM
    withSetting .standard

/-- Takes over one log setting. -/
def LogConfig.withSetting (c : LogConfig) : String × Toml → Except ShapeError LogConfig
  | ("filter", v) => do return { c with filter := ← text v }
  | ("format", v) => do return { c with format := ← Setting.format v }
  | _ => .ok c

/-- The log settings in a value. -/
def LogConfig.ofToml (v : Toml) : Except ShapeError LogConfig := do
  (← members ["filter", "format"] .logging v).foldlM withSetting .standard

/-- Takes over one export setting. -/
def ExportConfig.withSetting (c : ExportConfig) : String × Toml → Except ShapeError ExportConfig
  | ("prefix", v) => do return { c with namePrefix := some (← text v) }
  | _ => .ok c

/-- The export settings in a value. -/
def ExportConfig.ofToml (v : Toml) : Except ShapeError ExportConfig := do
  (← members ["prefix"] .exposition v).foldlM withSetting .standard

/-- Takes over one group of settings. -/
def Config.withSetting (c : Config) : String × Toml → Except ShapeError Config
  | ("certificate", v) => do return { c with certificate := ← CertificateConfig.ofToml v }
  | ("reconcile", v) => do return { c with reconcile := ← ReconcileConfig.ofToml v }
  | ("logging", v) => do return { c with logging := ← LogConfig.ofToml v }
  | ("export", v) => do return { c with exposition := ← ExportConfig.ofToml v }
  | _ => .ok c

/-- The settings in the entries of a document. -/
def Config.ofEntries (entries : List (String × Toml)) : Except ShapeError Config :=
  entries.foldlM withSetting .standard

end ClusterVitals
