/-!
# UTF-8

Decoding of bytes to characters, refusing everything that is not well-formed: stray continuation
bytes, truncated sequences, overlong forms, surrogates and values past the last code point.
-/

namespace ClusterVitals.Text.Utf8

/-- The six payload bits of a continuation byte `10xxxxxx`. -/
def continuation? (b : UInt8) : Option Nat :=
  if 0x80 ≤ b.toNat ∧ b.toNat < 0xC0 then some (b.toNat - 0x80) else none

/-- The character with a code point, which must be at least `least` to be in its shortest form. -/
def char? (least code : Nat) : Option Char :=
  if least ≤ code then
    if h : code.isValidChar then some (Char.ofNatAux code h) else none
  else none

/-- A character of two bytes. -/
def two? (b₀ b₁ : UInt8) : Option Char := do
  let c₁ ← continuation? b₁
  if 0xC0 ≤ b₀.toNat then char? 0x80 ((b₀.toNat - 0xC0) * 64 + c₁) else none

/-- A character of three bytes. -/
def three? (b₀ b₁ b₂ : UInt8) : Option Char := do
  let c₁ ← continuation? b₁
  let c₂ ← continuation? b₂
  char? 0x800 (((b₀.toNat - 0xE0) * 64 + c₁) * 64 + c₂)

/-- A character of four bytes. -/
def four? (b₀ b₁ b₂ b₃ : UInt8) : Option Char := do
  let c₁ ← continuation? b₁
  let c₂ ← continuation? b₂
  let c₃ ← continuation? b₃
  if b₀.toNat < 0xF8 then
    char? 0x10000 ((((b₀.toNat - 0xF0) * 64 + c₁) * 64 + c₂) * 64 + c₃)
  else none

/-- All characters of a byte sequence, if it is well-formed throughout. The first byte of a
character says how many bytes the character takes. -/
def decode? : List UInt8 → Option (List Char)
  | [] => some []
  | b₀ :: rest =>
    if b₀.toNat < 0x80 then do
      let c ← char? 0 b₀.toNat
      return c :: (← decode? rest)
    else
      match rest with
      | [] => none
      | b₁ :: rest =>
        if b₀.toNat < 0xE0 then do
          let c ← two? b₀ b₁
          return c :: (← decode? rest)
        else
          match rest with
          | [] => none
          | b₂ :: rest =>
            if b₀.toNat < 0xF0 then do
              let c ← three? b₀ b₁ b₂
              return c :: (← decode? rest)
            else
              match rest with
              | [] => none
              | b₃ :: rest => do
                let c ← four? b₀ b₁ b₂ b₃
                return c :: (← decode? rest)

/-- The text of a byte sequence, if it is well-formed. -/
def decodeText? (bs : List UInt8) : Option String :=
  (decode? bs).map String.ofList

/-- The bytes of a text. -/
def encode (s : String) : List UInt8 :=
  s.toUTF8.toList

end ClusterVitals.Text.Utf8
