import ClusterVitals.Log.Field
import ClusterVitals.Text.Slice

/-!
# Directives of log filters

A directive lets a level through: everywhere, for a target, or within spans. It is a level alone, or
`target[span{field}]=level`, of which each part may be missing. Without a level everything is let
through.

## Shape of the reader

Reading is one step for every character of the directive without the white space around it. A step
that ends a part cuts it out of the directive. Cuts are made in the directive as it stands, at the
byte offsets counted without the white space in front, and so an offset may fall inside a character.
-/

namespace ClusterVitals.LogFilter

/-- One directive. -/
structure Directive where
  target : Option String
  span : Option String
  field : Option Field
  level : Level
  deriving DecidableEq, Repr

/-- Why a text is no directive. -/
inductive DirectiveError where
  | invalid
  /-- A part would begin or end inside a character. -/
  | brokenCharacter
  deriving DecidableEq, Repr

namespace Directive

/-- A directive that asks for spans. -/
def isScoped (d : Directive) : Bool :=
  d.span.isSome || d.field.isSome

/-- A directive that asks neither for a name of a span nor for a value of a field. -/
def isGeneral (d : Directive) : Bool :=
  d.span.isNone && !d.field.any (·.value.isSome)

/-- What stands between the brackets of a directive that asks for spans. -/
def scopeText (d : Directive) : String :=
  d.span.getD "" ++
    match d.field with
    | some field => "\x7b" ++ field.text ++ "\x7d"
    | none => ""

/-- The text of a directive. -/
def text (d : Directive) : String :=
  let scope := if d.isScoped then "[" ++ d.scopeText ++ "]" else ""
  let mark := if d.target.isSome ∨ d.isScoped then "=" else ""
  d.target.getD "" ++ scope ++ mark ++ d.level.text

/-- Two directives ask for the same, so that only one of their levels can hold. -/
def rivals (d e : Directive) : Bool :=
  d.target == e.target && d.span == e.span &&
    match d.field, e.field with
    | some f, some g => f.same g
    | none, none => true
    | _, _ => false

/-- What the reader is in the middle of, and the offset at which that began. -/
inductive ReadState where
  | start
  /-- A level or a target. -/
  | name (start : Nat)
  | level (start : Nat)
  | span (start : Nat)
  | field (start : Nat)
  /-- After a field, where the brackets end. -/
  | afterField
  /-- After the brackets. -/
  | afterScope
  deriving DecidableEq, Repr

/-- A character that a directive may begin with, an opening bracket apart. -/
def canBegin (c : Char) : Bool :=
  c = '-' ∨ c = ':' ∨ c = '_' ∨ Text.isAlphanumeric c

/-- The part of a text between two offsets. -/
def cut (text : List Char) (start stop : Nat) : Except DirectiveError String :=
  match Text.slice? text start stop with
  | some part => .ok (String.ofList part)
  | none => .error .brokenCharacter

/-- Reads one character, at an offset, with what is known of the directive so far. -/
def readChar (text : List Char) (d : Directive) (state : ReadState) (offset : Nat) (c : Char) :
    Except DirectiveError (Directive × ReadState) :=
  match state with
  | .start =>
    if c = '[' then .ok (d, .span (offset + 1))
    else if canBegin c then .ok (d, .name offset)
    else .error .invalid
  | .name start =>
    if c = '=' then do
      return ({ d with target := some (← cut text start offset) }, .level (offset + 1))
    else if c = '[' then do
      return ({ d with target := some (← cut text start offset) }, .span (offset + 1))
    else .ok (d, state)
  | .span start =>
    if c = ']' then do
      return ({ d with span := some (← cut text start offset) }, .afterScope)
    else if c = '\x7b' then do
      let name ← cut text start offset
      return ({ d with span := if name.isEmpty then none else some name }, .field (offset + 1))
    else .ok (d, state)
  | .field start =>
    if c = '\x7d' then do
      let part ← cut text start offset
      if part.isEmpty then .error .invalid
      else
        match Field.ofText? part with
        | some field => .ok ({ d with field := some field }, .afterField)
        | none => .error .invalid
    else .ok (d, state)
  | .afterField => if c = ']' then .ok (d, .afterScope) else .error .invalid
  | .afterScope => if c = '=' then .ok (d, .level (offset + 1)) else .error .invalid
  | .level _ => .ok (d, state)

/-- Ends the text in a state. A name alone is a level if it can be one. -/
def readEnd (text : List Char) (d : Directive) : ReadState → Except DirectiveError Directive
  | .name start => do
    let name ← cut text start (Text.byteCount text)
    match Level.ofText? name with
    | some level => .ok { d with level }
    | none => .ok { d with target := some name }
  | .level start => do
    let name ← cut text start (Text.byteCount text)
    if name.isEmpty then .ok d
    else
      match Level.ofText? name with
      | some level => .ok { d with level }
      | none => .error .invalid
  | .afterScope => .ok d
  | .start | .span _ | .field _ | .afterField => .error .invalid

/-- Reads the characters from an offset on. -/
def readFrom (text : List Char) (d : Directive) (state : ReadState) (offset : Nat) :
    List Char → Except DirectiveError Directive
  | [] => readEnd text d state
  | c :: rest => do
    let (d, state) ← readChar text d state offset c
    readFrom text d state (offset + c.utf8Size) rest

/-- Reads a directive. -/
def read (text : String) : Except DirectiveError Directive :=
  let cs := text.toList
  readFrom cs ⟨none, none, none, .trace⟩ .start 0 (Text.trimRight (cs.dropWhile Text.isBlank))

end Directive

end ClusterVitals.LogFilter
