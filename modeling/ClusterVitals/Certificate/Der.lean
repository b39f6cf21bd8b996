/-!
# DER

Reading of tagged objects. An object is a tag, a length and as many bytes of content. Lengths are
definite, in any number of bytes; `readLoose` also reads the indefinite lengths of BER, where the
content ends at an empty object with the tag zero.
-/

namespace ClusterVitals.Certificate.Der

/-- The class of a tag. -/
inductive TagClass where
  | universal | application | context | personal
  deriving DecidableEq, Repr

/-- How long the content of an object is. -/
inductive Length where
  | definite (n : Nat)
  | indefinite
  deriving DecidableEq, Repr

/-- The start of an object. -/
structure Header where
  tagClass : TagClass
  constructed : Bool
  tag : Nat
  length : Length
  deriving DecidableEq, Repr

/-- An object. -/
structure Object where
  tagClass : TagClass
  constructed : Bool
  tag : Nat
  content : List UInt8
  deriving DecidableEq, Repr

/-- Why no object could be read: the bytes ended too early, or they break a rule. -/
inductive Failure where
  | truncated
  | malformed
  deriving DecidableEq, Repr

/-- The class in the two high bits of the first byte. -/
def TagClass.ofByte (b : UInt8) : TagClass :=
  match b.toNat / 64 with
  | 0 => .universal
  | 1 => .application
  | 2 => .context
  | _ => .personal

/-- Reads a tag number of several bytes, seven bits in each, the last without its high bit. At most
five bytes are read, and the number is kept to thirty-two bits. -/
def readLongTag : (bytesLeft number : Nat) → List UInt8 → Except Failure (Nat × List UInt8)
  | 0, _, _ => .error .malformed
  | _ + 1, _, [] => .error .malformed
  | left + 1, number, b :: rest =>
    let number := (number * 128 + b.toNat % 128) % Nat.pow 2 32
    if b.toNat < 128 then .ok (number, rest) else readLongTag left number rest

/-- Reads the tag number that goes with the first byte. -/
def readTag (first : UInt8) (rest : List UInt8) : Except Failure (Nat × List UInt8) :=
  if first.toNat % 32 = 31 then readLongTag 5 0 rest else .ok (first.toNat % 32, rest)

/-- A number in bytes, the highest first. -/
def bigEndian (bytes : List UInt8) : Nat :=
  bytes.foldl (fun n b => n * 256 + b.toNat) 0

/-- Reads a length. It takes one byte, or as many bytes as the first one says. -/
def readLength : List UInt8 → Except Failure (Length × List UInt8)
  | [] => .error .truncated
  | b :: rest =>
    let n := b.toNat
    if n < 128 then .ok (.definite n, rest)
    -- from here on the low bits tell how many bytes the length takes; none means it is not given
    else if n = 128 then .ok (.indefinite, rest)
    else if n = 255 then .error .malformed
    else if rest.length < n - 128 then .error .truncated
    else
      let value := bigEndian (rest.take (n - 128))
      if value < Nat.pow 2 64 then .ok (.definite value, rest.drop (n - 128)) else .error .malformed

/-- Reads the start of an object. Only a constructed object may have an indefinite length. -/
def readHeader : List UInt8 → Except Failure (Header × List UInt8)
  | [] => .error .truncated
  | first :: rest => do
    let (tag, rest) ← readTag first rest
    let (length, rest) ← readLength rest
    let constructed := first.toNat / 32 % 2 = 1
    if length = .indefinite ∧ ¬constructed then .error .malformed
    else return (⟨.ofByte first, constructed, tag, length⟩, rest)

/-- Reads the start of an object of definite length. -/
def readDefiniteHeader (bytes : List UInt8) : Except Failure (Header × Nat × List UInt8) := do
  let (header, rest) ← readHeader bytes
  match header.length with
  | .definite n => .ok (header, n, rest)
  | .indefinite => .error .malformed

/-- Reads an object of definite length. -/
def read (bytes : List UInt8) : Except Failure (Object × List UInt8) := do
  let (header, n, rest) ← readDefiniteHeader bytes
  if rest.length < n then .error .truncated
  else return (⟨header.tagClass, header.constructed, header.tag, rest.take n⟩, rest.drop n)

/-- How deep objects of indefinite length may stand in each other. -/
def depthLimit : Nat := 50

/-- Passes over objects until as many ends of content were met as objects are open. Each object
takes bytes, so their number bounds the steps. -/
def skipOpen : (steps opened : Nat) → List UInt8 → Except Failure (List UInt8)
  | 0, _, _ => .error .truncated
  | steps + 1, opened, bytes => do
    let (header, rest) ← readHeader bytes
    if depthLimit ≤ opened then .error .malformed
    else
      match header.length with
      | .indefinite => skipOpen steps (opened + 1) rest
      | .definite n =>
        if rest.length < n then .error .truncated
        else if n = 0 ∧ header.tag = 0 then
          -- the end of the innermost open object
          if opened ≤ 1 then .ok rest else skipOpen steps (opened - 1) rest
        else skipOpen steps opened (rest.drop n)

/-- Reads the tag of an object of definite or indefinite length, and passes over the object. -/
def readLoose (bytes : List UInt8) : Except Failure (Nat × List UInt8) := do
  let (header, rest) ← readHeader bytes
  match header.length with
  | .definite n =>
    if rest.length < n then .error .truncated else .ok (header.tag, rest.drop n)
  | .indefinite =>
    let rest ← skipOpen rest.length 1 rest
    return (header.tag, rest)

end ClusterVitals.Certificate.Der
