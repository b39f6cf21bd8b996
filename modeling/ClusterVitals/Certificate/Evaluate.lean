import ClusterVitals.Certificate.Der
import ClusterVitals.Certificate.Pem
import ClusterVitals.Certificate.Time
import ClusterVitals.Cluster.Error

/-!
# Evaluation of certificates

The instant at which a certificate expires. All of the certificate is read in order, so that damage
before or after the validity is noticed, but only the end of the validity is kept. Names, keys,
signatures and the contents of extensions are not looked at.

A failure names the part it was found in where the part has a name of its own; any other failure
concerns the structure of the bytes.
-/

namespace ClusterVitals.Certificate

/-- Why bytes are no certificate. -/
inductive Failure where
  | structural
  | version
  | serial
  | algorithm
  | date
  | publicKey
  | issuerId
  | subjectId
  | extensions
  | signature
  deriving DecidableEq, Repr

/-- The text of a failure. -/
def Failure.message : Failure → String
  | structural => "invalid DER structure"
  | version => "invalid version"
  | serial => "invalid serial"
  | algorithm => "invalid algorithm identifier"
  | date => "invalid date"
  | publicKey => "invalid X.509 Subject Public Key Info"
  | issuerId => "invalid X.509 Issuer Unique ID"
  | subjectId => "invalid X.509 Subject Unique ID"
  | extensions => "invalid extensions"
  | signature => "invalid Signature DER Value"

/-- A reader of one part: what it found, and the bytes after the part. -/
abbrev Reader (α : Type) := List UInt8 → Except Failure (α × List UInt8)

/-- Reads an object, whose absence or damage is a failure of the given kind. -/
def object (failure : Failure) : Reader Der.Object := fun bytes =>
  match Der.read bytes with
  | .ok found => .ok found
  | .error _ => .error failure

/-- The content of a sequence. -/
def sequence : Reader (List UInt8) := fun bytes => do
  let (o, rest) ← object .structural bytes
  if o.tag = 16 then return (o.content, rest) else .error .structural

/-- A number that is not negative, in as few bytes as possible and at most thirty-two bits. -/
def isSmallNumber (content : List UInt8) : Bool :=
  match content with
  | [] => false
  | [b] => b.toNat < 128
  | a :: b :: rest =>
    -- a zero in front is there only to keep the number from being negative
    if a = 0 then 128 ≤ b.toNat && rest.length ≤ 3 else a.toNat < 128 && rest.length ≤ 2

/-- Passes over the version, which may be absent. -/
def version : Reader Unit := fun bytes => do
  if bytes.isEmpty then return ((), bytes)
  else
    let (o, rest) ← object .structural bytes
    if o.tag ≠ 0 then return ((), bytes)
    else if o.tagClass ≠ .context then .error .structural
    else
      let (number, _) ← object .version o.content
      if number.tag = 2 ∧ ¬number.constructed ∧ isSmallNumber number.content then
        return ((), rest)
      else .error .version

/-- Passes over the serial number. -/
def serial : Reader Unit := fun bytes =>
  match Der.readLoose bytes with
  | .ok (2, rest) => .ok ((), rest)
  | _ => .error .serial

/-- Passes over an algorithm and its parameters. -/
def algorithm : Reader Unit := fun bytes => do
  let (content, rest) ← sequence bytes
  match Der.read content with
  | .error .truncated => .error .structural
  | .error .malformed => .error .algorithm
  | .ok (o, parameters) =>
    if o.constructed then .error .algorithm
    else
      if ¬parameters.isEmpty then
        let _ ← object .structural parameters
      return ((), rest)

/-- Reads a time in either form. -/
def time : Reader Instant := fun bytes => do
  let (o, rest) ← object .date bytes
  let found :=
    if ¬o.content.all Time.isVisible then none
    else if o.tag = 23 then Time.utc? o.content
    else if o.tag = 24 then Time.general? o.content
    else none
  match found with
  | some t => .ok (t, rest)
  | none => .error .date

/-- Reads the validity and keeps its end. -/
def validity : Reader Instant := fun bytes => do
  let (content, rest) ← sequence bytes
  let (_, content) ← time content
  let (notAfter, _) ← time content
  return (notAfter, rest)

/-- The number of zero bits at the low end of a byte. -/
def lowZeroBits (b : UInt8) : Nat :=
  ((List.range 8).find? fun i => b.toNat / Nat.pow 2 i % 2 = 1).getD 8

/-- Bits after a byte that says how many of the last byte are unused. Those must be zero. -/
def isBitString (content : List UInt8) : Bool :=
  match content with
  | [] => false
  | [unused] => unused = 0
  | unused :: b :: rest => unused.toNat ≤ lowZeroBits ((b :: rest).getLast (by simp))

/-- Passes over a bit string. -/
def bitString (failure : Failure) : Reader Unit := fun bytes => do
  let (o, rest) ← object failure bytes
  if o.tag = 3 ∧ ¬o.constructed ∧ isBitString o.content then return ((), rest)
  else .error failure

/-- Passes over the public key. -/
def publicKey : Reader Unit := fun bytes => do
  let (content, rest) ← sequence bytes
  let (_, content) ← algorithm content
  let _ ← bitString .publicKey content
  return ((), rest)

/-- Passes over a unique identifier with a tag, which may be absent. Whatever stands in its place
must begin with a header; the content matters only if the tag is the expected one. -/
def uniqueId (tag : Nat) (failure : Failure) : Reader Unit := fun bytes =>
  if bytes.isEmpty then .ok ((), bytes)
  else
    match Der.readDefiniteHeader bytes with
    | .error _ => .error failure
    | .ok (header, size, rest) =>
      if header.tag ≠ tag then .ok ((), bytes)
      else if header.tagClass = .context ∧ 0 < size ∧ size ≤ rest.length then
        .ok ((), rest.drop size)
      else .error failure

/-- Passes over the mark of a critical extension, a truth value of one byte, which may be absent. -/
def critical (bytes : List UInt8) : List UInt8 :=
  match Der.read bytes with
  | .ok (o, rest) => if o.tag = 1 ∧ o.content.length = 1 then rest else bytes
  | .error _ => bytes

/-- Passes over one extension: an identifier, perhaps a mark that it is critical, and its value. -/
def extension : Reader Unit := fun bytes => do
  let (content, rest) ← sequence bytes
  let (identifier, content) ← object .structural content
  let (value, _) ← object .structural (critical content)
  if identifier.constructed then .error .structural
  else if value.tag = 4 ∧ ¬value.constructed then return ((), rest)
  else .error .structural

/-- Passes over extensions to the end of the bytes. An extension takes bytes, so their number bounds
the steps. -/
def extensionList : (steps : Nat) → List UInt8 → Except Failure Unit
  | _, [] => .ok ()
  | 0, _ :: _ => .error .structural
  | steps + 1, bytes => do
    let (_, rest) ← extension bytes
    extensionList steps rest

/-- Passes over the extensions, which may be absent. The length in their outer header is not used. -/
def extensions (bytes : List UInt8) : Except Failure Unit :=
  if bytes.isEmpty then .ok ()
  else
    match Der.readDefiniteHeader bytes with
    | .error _ => .error .extensions
    | .ok (header, _, rest) =>
      if header.tag ≠ 3 then .error .extensions
      else do
        let (content, after) ← sequence rest
        if after.isEmpty then extensionList content.length content else .error .structural

/-- Reads the signed part of a certificate and keeps the end of the validity. -/
def signedPart (bytes : List UInt8) : Except Failure Instant := do
  let (_, bytes) ← version bytes
  let (_, bytes) ← serial bytes
  let (_, bytes) ← algorithm bytes
  let (_, bytes) ← sequence bytes
  let (notAfter, bytes) ← validity bytes
  let (_, bytes) ← sequence bytes
  let (_, bytes) ← publicKey bytes
  let (_, bytes) ← uniqueId 1 .issuerId bytes
  let (_, bytes) ← uniqueId 2 .subjectId bytes
  extensions bytes
  return notAfter

/-- The end of the validity of a certificate in DER. Bytes after the certificate are ignored. -/
def notAfter (bytes : List UInt8) : Except Failure Instant := do
  let (content, _) ← sequence bytes
  let (signed, content) ← sequence content
  let expires ← signedPart signed
  let (_, content) ← algorithm content
  let _ ← bitString .signature content
  return expires

/-- Why key material could not be evaluated. -/
inductive EvaluateError where
  | pem (failure : Pem.Failure)
  | certificate (failure : Failure)
  deriving DecidableEq, Repr

/-- The error that is shown for key material that could not be evaluated. -/
def EvaluateError.toError : EvaluateError → Error
  | pem failure => .malformedInput failure.message
  | certificate failure => .certificateParse failure.message

/-- The instant at which the certificate in key material expires. -/
def evaluate (material : List UInt8) : Except EvaluateError Instant :=
  match Pem.decode material with
  | .error failure => .error (.pem failure)
  | .ok contents =>
    match notAfter contents with
    | .error failure => .error (.certificate failure)
    | .ok expires => .ok expires

end ClusterVitals.Certificate
