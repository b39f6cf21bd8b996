import ClusterVitals.Toml.Scalar

/-!
# Reading TOML documents

`Toml.parse?` gives the table of a document, or `none` when the text is not TOML.

## Shape of a document

Every line is a header or an entry. The table under the last header is filled on its own and put
into the document when the next header or the end of the text closes it. `within` follows the names
of a path through tables and changes the table at its end; what a path may pass through depends on
how the tables on it came to be.
-/

namespace ClusterVitals.Toml

/-- The number of parts at which a dotted name, and the number of brackets at which nested values,
are refused. -/
def depthLimit : Nat := 80

/-! ## Names -/

/-- The characters of a name without quotes. -/
def isBareChar (c : Char) : Bool :=
  c.isAlphanum || c = '_' || c = '-'

/-- Reads one part of a name. -/
def takeNamePart : Reader String := fun cs =>
  match cs with
  | '"' :: _ | '\'' :: _ => takeLineString cs
  | _ =>
    let name := cs.takeWhile isBareChar
    if name.isEmpty then none else some (String.ofList name, cs.dropWhile isBareChar)

/-- Reads the parts of a dotted name. Each part takes characters, so their number bounds the
steps. -/
def takeNameParts : (steps : Nat) → Reader (List String)
  | 0, _ => none
  | steps + 1, cs => do
    let (part, rest) ← takeNamePart (skipSpace cs)
    match skipSpace rest with
    | '.' :: rest =>
      let (parts, rest) ← takeNameParts steps rest
      return (part :: parts, rest)
    | rest => return ([part], rest)

/-- Reads a dotted name, with the white space around it. -/
def takeName : Reader (List String) := fun cs => do
  let (parts, rest) ← takeNameParts (cs.length + 1) cs
  if parts.length < depthLimit then return (parts, rest) else none

/-! ## Tables -/

/-- Changes the table at the end of a path, and creates tables that are missing on the way. With
`byName` the path belongs to a dotted name, which may only pass through tables that no header
defined; otherwise it belongs to a header, which passes through the last table of an array. -/
def within {α : Type} (byName : Bool) (change : Body → Option (Body × α)) :
    List String → Body → Option (Body × α)
  | [], body => change body
  | name :: path, body =>
    let created : Body := ⟨if byName then .dotted else .implied, []⟩
    let put (value : Toml) : Body := { body with entries := putEntry name value body.entries }
    match lookup body.entries name with
    | none => do
      let (child, result) ← within byName change path created
      return (put (.table child.origin child.entries), result)
    | some (.table origin entries) =>
      if byName ∧ origin = .defined then none
      else do
        let (child, result) ← within byName change path ⟨origin, entries⟩
        return (put (.table child.origin child.entries), result)
    | some (.tableArray tables) =>
      match tables.reverse with
      | .table origin entries :: earlier => do
        let (child, result) ← within byName change path ⟨origin, entries⟩
        return (put (.tableArray (earlier.reverse ++ [.table child.origin child.entries])), result)
      | _ => none
    | some _ => none

/-- Adds an entry to a table. An entry with a plain name belongs to a table that is not made of
dotted names, and one with a dotted name to a table that is. -/
def addEntry (isPlain : Bool) (name : String) (value : Toml) (body : Body) :
    Option (Body × Unit) :=
  if (body.origin == .dotted) = isPlain then none
  else
    match lookup body.entries name with
    | some _ => none
    | none => some ({ body with entries := putEntry name value body.entries }, ())

/-- The path to the last part of a name, and that part. -/
def splitLast (parts : List String) : Option (List String × String) :=
  match parts.reverse with
  | [] => none
  | last :: path => some (path.reverse, last)

/-- Changes the table at the end of a path between braces. Dotted names there create tables that
only further dotted names may add to. -/
def withinInline (change : Body → Option (Body × Unit)) :
    List String → Body → Option (Body × Unit)
  | [], body => change body
  | name :: path, body =>
    let put (child : Body) : Body :=
      { body with entries := putEntry name (.inlineTable child.origin child.entries) body.entries }
    match lookup body.entries name with
    | none => do
      let (child, _) ← withinInline change path ⟨.dotted, []⟩
      return (put child, ())
    | some (.inlineTable origin entries) =>
      if origin = .defined then none
      else do
        let (child, _) ← withinInline change path ⟨origin, entries⟩
        return (put child, ())
    | some _ => none

/-- The table of entries between braces. -/
def inlineBody (entries : List (List String × Toml)) : Option Body :=
  entries.foldlM (fun body (parts, value) => do
    let (path, name) ← splitLast parts
    let (body, _) ← withinInline (addEntry path.isEmpty name value) path body
    return body) ⟨.defined, []⟩

/-! ## Values -/

/-- Drops white space, line ends and comments. A comment takes characters, so their number bounds
the steps. -/
def skipFiller : (steps : Nat) → List Char → List Char
  | 0, cs => cs
  | steps + 1, cs =>
    match skipSpaceAndLines cs with
    | '#' :: rest => skipFiller steps (skipComment ('#' :: rest))
    | rest => rest

/-- Drops all white space, line ends and comments at the beginning of a text. -/
def skipAllFiller (cs : List Char) : List Char := skipFiller cs.length cs

mutual

/-- Reads a value. `depth` counts the brackets around it. -/
def takeValue : (steps depth : Nat) → Reader Toml
  | 0, _, _ => none
  | steps + 1, depth, cs =>
    match cs with
    | '"' :: _ | '\'' :: _ => do
      let (text, rest) ← takeString cs
      return (.string text, rest)
    | '[' :: rest => do
      if depthLimit ≤ depth + 1 then none
      else
        let (elements, rest) ← takeElements steps (depth + 1) rest
        return (.array elements, rest)
    | '\x7b' :: rest => do
      if depthLimit ≤ depth + 1 then none
      else
        match skipSpace rest with
        | '\x7d' :: rest => return (.inlineTable .defined [], rest)
        | rest =>
          let (entries, rest) ← takeEntries steps (depth + 1) rest
          let body ← inlineBody entries
          return (.inlineTable body.origin body.entries, rest)
    | 't' :: 'r' :: 'u' :: 'e' :: rest => some (.boolean true, rest)
    | 'f' :: 'a' :: 'l' :: 's' :: 'e' :: rest => some (.boolean false, rest)
    | _ => takeNumeric cs

/-- Reads the elements of an array up to its closing bracket. A comma may follow the last one. -/
def takeElements : (steps depth : Nat) → Reader (List Toml)
  | 0, _, _ => none
  | steps + 1, depth, cs =>
    match skipAllFiller cs with
    | ']' :: rest => some ([], rest)
    | rest => do
      let (element, rest) ← takeValue steps depth rest
      match skipAllFiller rest with
      | ',' :: rest =>
        let (elements, rest) ← takeElements steps depth rest
        return (element :: elements, rest)
      | ']' :: rest => return ([element], rest)
      | _ => none

/-- Reads the entries between braces up to the closing one. No comma may follow the last one, and
all of them stand on one line. -/
def takeEntries : (steps depth : Nat) → Reader (List (List String × Toml))
  | 0, _, _ => none
  | steps + 1, depth, cs => do
    let (name, rest) ← takeName cs
    let (_, rest) ← takeChar '=' rest
    let (value, rest) ← takeValue steps depth (skipSpace rest)
    match skipSpace rest with
    | ',' :: rest =>
      let (entries, rest) ← takeEntries steps depth rest
      return ((name, value) :: entries, rest)
    | '\x7d' :: rest => return ([(name, value)], rest)
    | _ => none

end

/-! ## Lines -/

/-- The document read so far, and the table that is being filled. -/
structure DocumentState where
  root : Body
  current : Body
  /-- The name in the header of the current table; empty before the first header. -/
  path : List String
  /-- The header stood in double brackets. -/
  inArray : Bool

/-- An empty document, whose entries before any header belong to its own table. -/
def DocumentState.start : DocumentState := ⟨⟨.defined, []⟩, ⟨.defined, []⟩, [], false⟩

/-- Puts a table into its parent when it is complete. -/
def attach (current : Body) (inArray : Bool) (name : String) (parent : Body) :
    Option (Body × Unit) :=
  let value : Toml := .table current.origin current.entries
  let put (value : Toml) : Option (Body × Unit) :=
    some ({ parent with entries := putEntry name value parent.entries }, ())
  match lookup parent.entries name, inArray with
  | none, false => put value
  | none, true => put (.tableArray [value])
  | some (.tableArray tables), true => put (.tableArray (tables ++ [value]))
  | some _, _ => none

/-- Completes the current table. -/
def DocumentState.close (s : DocumentState) : Option Body :=
  match splitLast s.path with
  | none => some s.current
  | some (path, name) => do
    let (root, _) ← within false (attach s.current s.inArray name) path s.root
    return root

/-- Takes a table out of its parent that exists only as the parent of other tables, so that a header
can define it. Anything else of that name is in the way. -/
def takeImplied (name : String) (parent : Body) : Option (Body × Body) :=
  match lookup parent.entries name with
  | none => some (parent, ⟨.defined, []⟩)
  | some (.table .implied entries) =>
    some ({ parent with entries := dropEntry name parent.entries }, ⟨.defined, entries⟩)
  | some _ => none

/-- Makes room for an array of tables, unless there is something else of that name. -/
def prepareArray (name : String) (parent : Body) : Option (Body × Body) :=
  match lookup parent.entries name with
  | none =>
    some ({ parent with entries := putEntry name (.tableArray []) parent.entries }, ⟨.defined, []⟩)
  | some (.tableArray _) => some (parent, ⟨.defined, []⟩)
  | some _ => none

/-- Begins the table of a header. -/
def DocumentState.header (s : DocumentState) (parts : List String) (inArray : Bool) :
    Option DocumentState := do
  let root ← s.close
  let (path, name) ← splitLast parts
  let begin := if inArray then prepareArray name else takeImplied name
  let (root, current) ← within false begin path root
  return ⟨root, current, parts, inArray⟩

/-- Adds an entry to the current table. -/
def DocumentState.entry (s : DocumentState) (parts : List String) (value : Toml) :
    Option DocumentState := do
  let (path, name) ← splitLast parts
  let (current, _) ← within true (addEntry path.isEmpty name value) path s.current
  return { s with current }

/-- Reads the rest of a line, on which nothing but a comment may stand. -/
def takeLineEnd : Reader Unit := fun cs =>
  match skipComment (skipSpace cs) with
  | [] => some ((), [])
  | rest => takeNewline rest

/-- Reads the name and the closing brackets of a header, and the rest of its line. -/
def takeHeader (inArray : Bool) : Reader (List String) := fun cs => do
  let (name, rest) ← takeName cs
  let (_, rest) ← takeChar ']' rest
  let rest ← if inArray then (takeChar ']' rest).map (·.2) else some rest
  let (_, rest) ← takeLineEnd rest
  return (name, rest)

/-- Reads an entry and the rest of its line. -/
def takeEntry : Reader (List String × Toml) := fun cs => do
  let (name, rest) ← takeName cs
  let (_, rest) ← takeChar '=' rest
  let (value, rest) ← takeValue (2 * rest.length + 2) 0 (skipSpace rest)
  let (_, rest) ← takeLineEnd rest
  return ((name, value), rest)

/-- Reads the lines of a document. Each line takes characters, so their number bounds the steps. -/
def readLines : (steps : Nat) → DocumentState → List Char → Option DocumentState
  | 0, _, _ => none
  | steps + 1, s, cs =>
    match skipSpace cs with
    | [] => some s
    | '#' :: rest => do
      let (_, rest) ← takeLineEnd ('#' :: rest)
      readLines steps s rest
    | '[' :: '[' :: rest => do
      let (name, rest) ← takeHeader true rest
      readLines steps (← s.header name true) rest
    | '[' :: rest => do
      let (name, rest) ← takeHeader false rest
      readLines steps (← s.header name false) rest
    | rest =>
      match takeNewline rest with
      | some (_, rest) => readLines steps s rest
      | none => do
        let ((name, value), rest) ← takeEntry rest
        readLines steps (← s.entry name value) rest

/-- The table of a document. A byte order mark may stand before it. -/
def parse? (text : String) : Option Body := do
  let cs := text.toList
  let cs := if cs.head? = some '\uFEFF' then cs.drop 1 else cs
  let s ← readLines (cs.length + 1) .start cs
  s.close

end ClusterVitals.Toml
