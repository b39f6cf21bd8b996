import ClusterVitals.Binary64.Basic

/-!
# TOML values

A document is a table of values. Besides their entries, tables remember how they came to be, which
decides whether a later header or dotted name may add to them. Entries keep the order in which their
names first appeared, except that a header for a table that existed only through headers of its
sub-tables moves the table to the end.
-/

namespace ClusterVitals

/-- How a table came to be. -/
inductive Toml.TableOrigin where
  /-- By a header of its own, or between braces. -/
  | defined
  /-- As the parent of a table with a header. -/
  | implied
  /-- By a dotted name. -/
  | dotted
  deriving DecidableEq, Repr

/-- A TOML value. Of a date or time only its presence is kept. -/
inductive Toml where
  | string (text : String)
  | integer (value : Int)
  | float (value : Binary64)
  | boolean (value : Bool)
  | datetime
  | array (elements : List Toml)
  /-- A table between braces, closed to later additions. -/
  | inlineTable (origin : Toml.TableOrigin) (entries : List (String × Toml))
  | table (origin : Toml.TableOrigin) (entries : List (String × Toml))
  /-- The tables of the headers in double brackets of one name. -/
  | tableArray (tables : List Toml)

namespace Toml

/-- A table that is being filled. -/
structure Body where
  origin : TableOrigin
  entries : List (String × Toml)

/-- The entry of a name. -/
def lookup (entries : List (String × Toml)) (name : String) : Option Toml :=
  (entries.find? (·.1 = name)).map (·.2)

/-- Puts an entry in the place of the one with its name, or at the end. -/
def putEntry (name : String) (value : Toml) : List (String × Toml) → List (String × Toml)
  | [] => [(name, value)]
  | (n, v) :: rest =>
    if n = name then (name, value) :: rest else (n, v) :: putEntry name value rest

/-- Drops the entry of a name. -/
def dropEntry (name : String) (entries : List (String × Toml)) : List (String × Toml) :=
  entries.filter (·.1 ≠ name)

end Toml

end ClusterVitals
