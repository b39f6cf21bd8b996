import ClusterVitals.Certificate.Pem

/-!
# Lines of text in bytes

Text that was written in UTF-8 is read back as it was, no other bytes are read, and the bytes of a
text are cut into lines just where the text has newlines.

## Shape of the proofs

All of it follows from what one character writes (`encodeChar_eq`): the reader takes just these bytes
for the character (`decode?_encodeChar_append`, `encodeChar_of_two?` and its like), and the byte of a
newline is among them only if the character is one.
-/

namespace ClusterVitals

/-- A number below 256 is the value of its byte. -/
theorem toNat_byte {n : Nat} (h : n < 256) : (UInt8.ofNat n).toNat = n :=
  UInt8.toNat_ofNat_of_lt h

namespace Text.Utf8

/-- The bytes of characters. -/
def bytesOf (cs : List Char) : List UInt8 := cs.flatMap String.utf8EncodeChar

@[simp] theorem bytesOf_nil : bytesOf [] = [] := rfl

@[simp] theorem bytesOf_cons (c : Char) (cs : List Char) :
    bytesOf (c :: cs) = String.utf8EncodeChar c ++ bytesOf cs := rfl

@[simp] theorem bytesOf_append (cs ds : List Char) :
    bytesOf (cs ++ ds) = bytesOf cs ++ bytesOf ds :=
  List.flatMap_append

theorem length_le_length_bytesOf (cs : List Char) : cs.length ≤ (bytesOf cs).length := by
  induction cs with
  | nil => exact Nat.le_refl 0
  | cons c cs ih =>
    have hc := List.length_pos_iff.2 (String.utf8EncodeChar_ne_nil (c := c))
    rw [bytesOf_cons, List.length_cons, List.length_append]
    omega

theorem toList_loop (bytes : ByteArray) (i : Nat) (done : List UInt8) :
    ByteArray.toList.loop bytes i done = done.reverse ++ bytes.data.toList.drop i := by
  fun_induction ByteArray.toList.loop bytes i done with
  | case1 i done hlt ih =>
    have hlength : i < bytes.data.toList.length := by simpa using hlt
    have hget : bytes.get! i = bytes.data[i]! := by cases bytes; rfl
    rw [ih, List.drop_eq_getElem_cons (i := i) hlength, hget, getElem!_pos bytes.data i hlt]
    simp
  | case2 i done hlt =>
    rw [List.drop_eq_nil_of_le (by simpa using Nat.le_of_not_lt hlt), List.append_nil]

theorem encode_eq (s : String) : encode s = bytesOf s.toList := by
  obtain ⟨cs, rfl⟩ : ∃ cs, s = String.ofList cs := ⟨s.toList, (String.ofList_toList).symm⟩
  rw [encode, String.toUTF8_eq_toByteArray, ByteArray.toList, toList_loop, String.toList_ofList,
    String.toByteArray_ofList, List.utf8Encode, List.toList_data_toByteArray]
  rfl

/-- The bytes of a character, by the number of bits of its code point. -/
theorem encodeChar_eq (c : Char) : String.utf8EncodeChar c =
    if c.toNat ≤ 0x7F then [UInt8.ofNat c.toNat]
    else if c.toNat ≤ 0x7FF then
      [UInt8.ofNat (c.toNat / 64 % 32 + 192), UInt8.ofNat (c.toNat % 64 + 128)]
    else if c.toNat ≤ 0xFFFF then
      [UInt8.ofNat (c.toNat / 4096 % 16 + 224), UInt8.ofNat (c.toNat / 64 % 64 + 128),
        UInt8.ofNat (c.toNat % 64 + 128)]
    else
      [UInt8.ofNat (c.toNat / 262144 % 8 + 240), UInt8.ofNat (c.toNat / 4096 % 64 + 128),
        UInt8.ofNat (c.toNat / 64 % 64 + 128), UInt8.ofNat (c.toNat % 64 + 128)] :=
  rfl

/-! ## Reading back -/

theorem char?_toNat {least : Nat} {c : Char} (h : least ≤ c.toNat) :
    char? least c.toNat = some c := by
  rw [char?, if_pos h, dif_pos (show c.toNat.isValidChar from c.valid)]
  rfl

theorem char?_eq {least code : Nat} {c : Char} (hcode : code = c.toNat) (h : least ≤ c.toNat) :
    char? least code = some c :=
  hcode ▸ char?_toNat h

theorem continuation?_of_lt {n : Nat} (h : n < 64) :
    continuation? (UInt8.ofNat (n + 128)) = some n := by
  rw [continuation?, toNat_byte (by omega), if_pos (by omega), Nat.add_sub_cancel]

theorem two?_eq {c : Char} (low : 0x80 ≤ c.toNat) (high : c.toNat < 0x800) :
    two? (UInt8.ofNat (c.toNat / 64 % 32 + 192)) (UInt8.ofNat (c.toNat % 64 + 128)) = some c := by
  rw [two?, continuation?_of_lt (by omega), toNat_byte (by omega)]
  simp only [Option.bind_eq_bind, Option.bind_some]
  rw [if_pos (by omega)]
  exact char?_eq (by omega) low

theorem three?_eq {c : Char} (low : 0x800 ≤ c.toNat) (high : c.toNat < 0x10000) :
    three? (UInt8.ofNat (c.toNat / 4096 % 16 + 224)) (UInt8.ofNat (c.toNat / 64 % 64 + 128))
      (UInt8.ofNat (c.toNat % 64 + 128)) = some c := by
  rw [three?, continuation?_of_lt (by omega), continuation?_of_lt (by omega),
    toNat_byte (by omega)]
  exact char?_eq (by omega) low

theorem four?_eq {c : Char} (low : 0x10000 ≤ c.toNat) :
    four? (UInt8.ofNat (c.toNat / 262144 % 8 + 240)) (UInt8.ofNat (c.toNat / 4096 % 64 + 128))
      (UInt8.ofNat (c.toNat / 64 % 64 + 128)) (UInt8.ofNat (c.toNat % 64 + 128)) = some c := by
  have hend : c.toNat < 0x110000 := by
    rcases c.valid with h | h
    · exact Nat.lt_trans h (by decide)
    · exact h.2
  rw [four?, continuation?_of_lt (by omega), continuation?_of_lt (by omega),
    continuation?_of_lt (by omega), toNat_byte (by omega)]
  simp only [Option.bind_eq_bind, Option.bind_some]
  rw [if_pos (by omega)]
  exact char?_eq (by omega) low

/-- The bytes of a character are read as the character, whatever follows them. -/
theorem decode?_encodeChar_append (c : Char) (rest : List UInt8) :
    decode? (String.utf8EncodeChar c ++ rest) = (decode? rest).map (c :: ·) := by
  rw [encodeChar_eq]
  split
  · have hlead := toNat_byte (show c.toNat < 256 by omega)
    rw [List.singleton_append, decode?.eq_def]
    dsimp only
    rw [if_pos (by omega), hlead, char?_toNat (Nat.zero_le _)]
    exact Option.map_eq_bind.symm
  split
  · have hlead := toNat_byte (show c.toNat / 64 % 32 + 192 < 256 by omega)
    rw [List.cons_append, List.singleton_append, decode?.eq_def]
    dsimp only
    rw [if_neg (by omega), if_pos (by omega), two?_eq (by omega) (by omega)]
    exact Option.map_eq_bind.symm
  split
  · have hlead := toNat_byte (show c.toNat / 4096 % 16 + 224 < 256 by omega)
    rw [List.cons_append, List.cons_append, List.singleton_append, decode?.eq_def]
    dsimp only
    rw [if_neg (by omega), if_neg (by omega), if_pos (by omega), three?_eq (by omega) (by omega)]
    exact Option.map_eq_bind.symm
  · have hlead := toNat_byte (show c.toNat / 262144 % 8 + 240 < 256 by omega)
    rw [List.cons_append, List.cons_append, List.cons_append, List.singleton_append, decode?.eq_def]
    dsimp only
    rw [if_neg (by omega), if_neg (by omega), if_neg (by omega), four?_eq (by omega)]
    exact Option.map_eq_bind.symm

/-- The bytes of characters are read as these, whatever follows them. -/
theorem decode?_bytesOf_append (cs : List Char) (rest : List UInt8) :
    decode? (bytesOf cs ++ rest) = (decode? rest).map (cs ++ ·) := by
  induction cs with
  | nil => rw [bytesOf_nil, List.nil_append]; exact Option.map_id'.symm
  | cons c cs ih =>
    rw [bytesOf_cons, List.append_assoc, decode?_encodeChar_append, ih, Option.map_map]
    rfl

/-- Characters are read back from their bytes. -/
theorem decode?_bytesOf (cs : List Char) : decode? (bytesOf cs) = some cs := by
  have h := decode?_bytesOf_append cs []
  rwa [List.append_nil, decode?, Option.map_some, List.append_nil] at h

/-! ## Nothing else is read -/

theorem continuation?_eq_some {b : UInt8} {n : Nat} (h : continuation? b = some n) :
    n < 64 ∧ n + 128 = b.toNat := by
  obtain ⟨hb, h⟩ := Option.ite_none_right_eq_some.1 h
  have hn := Option.some.inj h
  omega

theorem char?_eq_some {least code : Nat} {c : Char} (h : char? least code = some c) :
    least ≤ code ∧ c.toNat = code := by
  obtain ⟨hleast, h⟩ := Option.ite_none_right_eq_some.1 h
  obtain ⟨_, h⟩ := Option.dite_none_right_eq_some.1 h
  exact ⟨hleast, congrArg Char.toNat (Option.some.inj h).symm⟩

theorem encodeChar_of_one? {b₀ : UInt8} {c : Char} (h : char? 0 b₀.toNat = some c)
    (high : b₀.toNat < 0x80) : String.utf8EncodeChar c = [b₀] := by
  obtain ⟨-, hcode⟩ := char?_eq_some h
  rw [encodeChar_eq, if_pos (by omega), Base64.ofNat_eq b₀ hcode]

theorem encodeChar_of_two? {b₀ b₁ : UInt8} {c : Char} (h : two? b₀ b₁ = some c)
    (high : b₀.toNat < 0xE0) : String.utf8EncodeChar c = [b₀, b₁] := by
  obtain ⟨c₁, h₁, h⟩ := Option.bind_eq_some_iff.1 h
  obtain ⟨low, h⟩ := Option.ite_none_right_eq_some.1 h
  obtain ⟨hleast, hcode⟩ := char?_eq_some h
  have hb₁ := continuation?_eq_some h₁
  rw [encodeChar_eq, if_neg (by omega), if_pos (by omega), Base64.ofNat_eq b₀ (by omega),
    Base64.ofNat_eq b₁ (by omega)]

theorem encodeChar_of_three? {b₀ b₁ b₂ : UInt8} {c : Char} (h : three? b₀ b₁ b₂ = some c)
    (low : 0xE0 ≤ b₀.toNat) (high : b₀.toNat < 0xF0) :
    String.utf8EncodeChar c = [b₀, b₁, b₂] := by
  obtain ⟨c₁, h₁, h⟩ := Option.bind_eq_some_iff.1 h
  obtain ⟨c₂, h₂, h⟩ := Option.bind_eq_some_iff.1 h
  obtain ⟨hleast, hcode⟩ := char?_eq_some h
  have hb₁ := continuation?_eq_some h₁
  have hb₂ := continuation?_eq_some h₂
  rw [encodeChar_eq, if_neg (by omega), if_neg (by omega), if_pos (by omega),
    Base64.ofNat_eq b₀ (by omega), Base64.ofNat_eq b₁ (by omega), Base64.ofNat_eq b₂ (by omega)]

theorem encodeChar_of_four? {b₀ b₁ b₂ b₃ : UInt8} {c : Char}
    (h : four? b₀ b₁ b₂ b₃ = some c) (low : 0xF0 ≤ b₀.toNat) :
    String.utf8EncodeChar c = [b₀, b₁, b₂, b₃] := by
  obtain ⟨c₁, h₁, h⟩ := Option.bind_eq_some_iff.1 h
  obtain ⟨c₂, h₂, h⟩ := Option.bind_eq_some_iff.1 h
  obtain ⟨c₃, h₃, h⟩ := Option.bind_eq_some_iff.1 h
  obtain ⟨high, h⟩ := Option.ite_none_right_eq_some.1 h
  obtain ⟨hleast, hcode⟩ := char?_eq_some h
  have hb₁ := continuation?_eq_some h₁
  have hb₂ := continuation?_eq_some h₂
  have hb₃ := continuation?_eq_some h₃
  rw [encodeChar_eq, if_neg (by omega), if_neg (by omega), if_neg (by omega),
    Base64.ofNat_eq b₀ (by omega), Base64.ofNat_eq b₁ (by omega), Base64.ofNat_eq b₂ (by omega),
    Base64.ofNat_eq b₃ (by omega)]

/-- What is read is a character and what is read behind it. -/
theorem exists_of_cons_eq_some {c? : Option Char} {rest : List UInt8} {cs : List Char}
    (h : (do let c ← c?; return c :: (← decode? rest)) = some cs) :
    ∃ c ds, c? = some c ∧ decode? rest = some ds ∧ cs = c :: ds := by
  obtain ⟨c, hc, h⟩ := Option.bind_eq_some_iff.1 h
  obtain ⟨ds, hds, h⟩ := Option.bind_eq_some_iff.1 h
  exact ⟨c, ds, hc, hds, (Option.some.inj h).symm⟩

/-- Bytes that are read are those of the characters that are found. -/
theorem bytesOf_of_decode? {bytes : List UInt8} {cs : List Char} (h : decode? bytes = some cs) :
    bytesOf cs = bytes := by
  fun_induction decode? bytes generalizing cs with
  | case1 => rw [← Option.some.inj h, bytesOf_nil]
  | case2 b₀ rest hone ih =>
    obtain ⟨c, ds, hc, hds, rfl⟩ := exists_of_cons_eq_some h
    rw [bytesOf_cons, encodeChar_of_one? hc hone, ih hds]
    rfl
  | case4 b₀ hone b₁ rest htwo ih =>
    obtain ⟨c, ds, hc, hds, rfl⟩ := exists_of_cons_eq_some h
    rw [bytesOf_cons, encodeChar_of_two? hc htwo, ih hds]
    rfl
  | case6 b₀ hone b₁ htwo b₂ rest hthree ih =>
    obtain ⟨c, ds, hc, hds, rfl⟩ := exists_of_cons_eq_some h
    rw [bytesOf_cons, encodeChar_of_three? hc (Nat.le_of_not_lt htwo) hthree, ih hds]
    rfl
  | case8 b₀ hone b₁ htwo b₂ hthree b₃ rest ih =>
    obtain ⟨c, ds, hc, hds, rfl⟩ := exists_of_cons_eq_some h
    rw [bytesOf_cons, encodeChar_of_four? hc (Nat.le_of_not_lt hthree), ih hds]
    rfl
  -- the bytes end inside a character
  | case3 | case5 | case7 => cases h

/-- Reading accepts just what writing gives. -/
theorem decode?_eq_some_iff {bytes : List UInt8} {cs : List Char} :
    decode? bytes = some cs ↔ bytes = bytesOf cs :=
  ⟨fun h => (bytesOf_of_decode? h).symm, fun h => h ▸ decode?_bytesOf cs⟩

/-- Of text that is cut off, only characters that were whole are read. -/
theorem prefix_of_decode? {bytes : List UInt8} {cs ds : List Char}
    (cut : bytes <+: bytesOf cs) (h : decode? bytes = some ds) : ds <+: cs := by
  obtain ⟨rest, hrest⟩ := cut
  have hread := decode?_bytesOf cs
  rw [← hrest, decode?_eq_some_iff.1 h, decode?_bytesOf_append] at hread
  obtain ⟨es, -, hes⟩ := Option.map_eq_some_iff.1 hread
  exact ⟨es, hes⟩

/-! ## Newlines -/

/-- The byte of a newline writes nothing else. -/
theorem newline_mem_encodeChar_iff {c : Char} :
    0x0A ∈ String.utf8EncodeChar c ↔ c = '\n' := by
  constructor
  · intro h
    have hval {n : Nat} (hlt : n < 256) (heq : 0x0A = UInt8.ofNat n) : n = 10 :=
      (toNat_byte hlt).symm.trans (congrArg UInt8.toNat heq.symm)
    rw [encodeChar_eq] at h
    split at h
    · rename_i hle
      have hten := hval (by omega) (List.mem_singleton.1 h)
      exact Char.ext (UInt32.toNat_inj.1 hten)
    -- all bytes of a longer form are 128 or more
    split at h
    · simp only [List.mem_cons, List.not_mem_nil, or_false] at h
      rcases h with h | h <;> have := hval (by omega) h <;> omega
    split at h
    · simp only [List.mem_cons, List.not_mem_nil, or_false] at h
      rcases h with h | h | h <;> have := hval (by omega) h <;> omega
    · simp only [List.mem_cons, List.not_mem_nil, or_false] at h
      rcases h with h | h | h | h <;> have := hval (by omega) h <;> omega
  · rintro rfl
    decide

theorem newline_mem_bytesOf_iff {cs : List Char} : 0x0A ∈ bytesOf cs ↔ '\n' ∈ cs := by
  simp [bytesOf, newline_mem_encodeChar_iff]

end Text.Utf8

/-! ## Lines -/

namespace Certificate.Pem

open Text

/-- The first newline ends the first line. -/
theorem lines_append {line rest : List UInt8} (h : 0x0A ∉ line) :
    lines (line ++ 0x0A :: rest) = (line ++ [0x0A]) :: lines rest := by
  induction line with
  | nil => rw [List.nil_append, lines, if_pos rfl, List.nil_append]
  | cons b line ih =>
    obtain ⟨hb, hline⟩ := not_or.1 (mt List.mem_cons.2 h)
    rw [List.cons_append, lines, if_neg (Ne.symm hb), ih hline, List.cons_append]

theorem lines_bytesOf {cs : List Char} {rest : List UInt8} (h : '\n' ∉ cs) :
    lines (Utf8.bytesOf (cs ++ ['\n']) ++ rest) = Utf8.bytesOf (cs ++ ['\n']) :: lines rest := by
  have hnewline : Utf8.bytesOf ['\n'] = [0x0A] := by decide
  rw [Utf8.bytesOf_append, hnewline, List.append_assoc, List.singleton_append]
  exact lines_append (mt Utf8.newline_mem_bytesOf_iff.1 h)

end Certificate.Pem

end ClusterVitals
