import ClusterVitals.Log.Directive
import ClusterVitals.Text.Quoted

/-!
# Log filters

A filter is a list of directives between commas, of which those that ask for the same replace each
other. It is kept in two tables: one for all that can be decided without a look at the spans, and one
for the directives that ask for spans. A directive that asks for a field of any span, whatever its
value, belongs to both.
-/

namespace ClusterVitals

/-- A filter. -/
structure LogFilter where
  /-- The directives that ask neither for a name of a span nor for a value of a field. -/
  general : List LogFilter.Directive
  /-- The directives that ask for spans. -/
  inSpans : List LogFilter.Directive
  deriving DecidableEq, Repr

namespace LogFilter

/-- Puts a directive in the place of the one that asks for the same. -/
def put (directives : List Directive) (d : Directive) : List Directive :=
  directives.filter (!·.rivals d) ++ [d]

/-- The filter of directives. -/
def ofDirectives (directives : List Directive) : LogFilter where
  general := (directives.filter Directive.isGeneral).foldl put []
  inSpans := (directives.filter Directive.isScoped).foldl put []

/-- Reads a filter. The first directive that cannot be read decides the error; between two commas
there may be nothing. -/
def parse (text : String) : Except DirectiveError LogFilter := do
  let directives ← ((text.splitOn ",").filter (!·.isEmpty)).mapM Directive.read
  return ofDirectives directives

/-- The text of a filter. -/
def text (f : LogFilter) : String :=
  ",".intercalate ((f.general ++ f.inSpans).map Directive.text)

/-- The parts of the text of a filter between its commas, in ascending order. -/
def parts (f : LogFilter) : List String :=
  (f.text.splitOn ",").mergeSort

/-- The text of the filter in force: the override, unless it is missing or blank. -/
def chosen (override : Option String) (configured : String) : String :=
  match override with
  | some text => if Text.isBlankText text then configured else text
  | none => configured

/-- What is said of the text of an invalid filter. -/
def invalidMessage (text : String) : String :=
  "invalid filter " ++ Text.quoted text ++ ": "

/-- What is said when the log is set up once more, after its filter has been read: nothing of a filter
that breaks a character. -/
def secondSetup? (configured : String) : Option String :=
  match parse configured with
  | .ok _ => some "a global default trace dispatcher has already been set"
  | .error .invalid => some "invalid filter"
  | .error .brokenCharacter => none

end LogFilter

end ClusterVitals
