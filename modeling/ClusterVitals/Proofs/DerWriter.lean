import ClusterVitals.Certificate.Der
import ClusterVitals.Proofs.TextLines
import Mathlib.Data.Nat.Digits.Lemmas

/-!
# Writing DER

The bytes of objects: tag numbers and lengths in their shortest forms, then the content. What is
written is read back, whatever bytes follow, as long as the tag number has at most 32 bits and the
length at most 64.

## Shape of the proofs

Numbers of several bytes are written by their digits, in base 256 for lengths and in base 128 for
tag numbers. So `read_bytes` is one lemma for each of the three parts of an object.
-/

namespace ClusterVitals.Certificate.Der

/-! ## Numbers -/

/-- Digits make their number again, the highest first. -/
theorem foldl_digits (base n : Nat) :
    (Nat.digits base n).reverse.foldl (fun n d => n * base + d) 0 = n := by
  rw [List.foldl_reverse]
  conv_rhs => rw [← Nat.ofDigits_digits base n, Nat.ofDigits_eq_foldr]
  congr 1
  funext d n
  rw [Nat.mul_comm, Nat.add_comm]
  rfl

/-- The bytes of a number, the highest first; zero takes none. -/
def numberBytes (n : Nat) : List UInt8 := (Nat.digits 256 n).reverse.map UInt8.ofNat

theorem bigEndian_numberBytes (n : Nat) : bigEndian (numberBytes n) = n := by
  rw [numberBytes, bigEndian, List.foldl_map]
  refine (List.foldl_ext _ _ 0 fun value d hd => ?_).trans (foldl_digits 256 n)
  rw [toNat_byte (Nat.digits_lt_base (by decide) (List.mem_reverse.1 hd))]

theorem length_numberBytes_le_iff {n k : Nat} : (numberBytes n).length ≤ k ↔ n < 256 ^ k := by
  rw [numberBytes, List.length_map, List.length_reverse]
  exact Nat.digits_length_le_iff (by decide) n

/-- There is no zero in front. -/
theorem numberBytes_head_ne_zero {n : Nat} {b : UInt8} {rest : List UInt8}
    (h : numberBytes n = b :: rest) : b ≠ 0 := by
  obtain ⟨d, ds, hdigits, rfl, -⟩ := List.map_eq_cons_iff.1 h
  have hdigits : Nat.digits 256 n = ds.reverse ++ [d] := by
    rw [← List.reverse_cons, ← hdigits, List.reverse_reverse]
  have hn : n ≠ 0 := fun h => by simp [h] at hdigits
  have hlast := Nat.getLast_digit_ne_zero 256 hn
  simp only [hdigits, List.getLast_concat] at hlast
  have hd : d < 256 := Nat.digits_lt_base (m := n) (by decide) (by rw [hdigits]; simp)
  exact fun h => hlast ((toNat_byte hd).symm.trans (congrArg UInt8.toNat h))

/-! ## Lengths -/

/-- A length: up to 127 in one byte, else in its bytes after the number of these. -/
def lengthBytes (n : Nat) : List UInt8 :=
  if n < 128 then [UInt8.ofNat n]
  else UInt8.ofNat ((numberBytes n).length + 128) :: numberBytes n

theorem readLength_lengthBytes {n : Nat} (small : n < Nat.pow 2 64) (rest : List UInt8) :
    readLength (lengthBytes n ++ rest) = .ok (.definite n, rest) := by
  unfold lengthBytes
  split
  · rename_i hshort
    rw [List.singleton_append, readLength, toNat_byte (by omega)]
    simp only [if_pos hshort]
  · rename_i hlong
    have hbytes : (numberBytes n).length ≤ 8 := length_numberBytes_le_iff.2 small
    have hsome : 0 < (numberBytes n).length := by
      by_contra hnone
      have := length_numberBytes_le_iff.1 (Nat.not_lt.1 hnone)
      omega
    rw [List.cons_append, readLength, toNat_byte (by omega)]
    dsimp only
    rw [if_neg (by omega), if_neg (by omega), if_neg (by omega), Nat.add_sub_cancel,
      if_neg (by rw [List.length_append]; omega), List.take_left, List.drop_left,
      bigEndian_numberBytes, if_pos small]

/-! ## Tags -/

/-- The number of a class. -/
def TagClass.number : TagClass → Nat
  | universal => 0
  | application => 1
  | context => 2
  | personal => 3

/-- A tag number in several bytes, with seven bits in each and the high bit in all but the last. -/
def longTagBytes (tag : Nat) : List UInt8 :=
  (Nat.digits 128 (tag / 128)).reverse.map (fun d => UInt8.ofNat (d + 128)) ++
    [UInt8.ofNat (tag % 128)]

/-- Seven bits more make a number greater. -/
theorem le_foldl_digits (ds : List Nat) (n : Nat) : n ≤ ds.foldl (fun n d => n * 128 + d) n := by
  induction ds generalizing n with
  | nil => exact Nat.le_refl n
  | cons d ds ih => exact Nat.le_trans (by omega) (ih (n * 128 + d))

/-- Digits are read one by one, and the number that they make is kept if it is small enough. -/
theorem readLongTag_append {ds : List Nat} (hds : ∀ d ∈ ds, d < 128) {last : Nat}
    (hlast : last < 128) (rest : List UInt8) {left n : Nat} (hleft : ds.length < left)
    (small : ds.foldl (fun n d => n * 128 + d) n * 128 + last < Nat.pow 2 32) :
    readLongTag left n (ds.map (fun d => UInt8.ofNat (d + 128)) ++ UInt8.ofNat last :: rest) =
      .ok (ds.foldl (fun n d => n * 128 + d) n * 128 + last, rest) := by
  induction ds generalizing left n with
  | nil =>
    obtain ⟨left, rfl⟩ := Nat.exists_eq_add_of_lt hleft
    rw [List.foldl_nil] at small
    rw [List.map_nil, List.nil_append, readLongTag, toNat_byte (by omega), List.foldl_nil,
      Nat.mod_eq_of_lt hlast, Nat.mod_eq_of_lt small, if_pos hlast]
  | cons d ds ih =>
    obtain ⟨hd, hds⟩ := List.forall_mem_cons.1 hds
    obtain ⟨left, rfl⟩ := Nat.exists_eq_add_of_lt hleft
    have hle := le_foldl_digits ds (n * 128 + d)
    rw [List.map_cons, List.cons_append, readLongTag, toNat_byte (by omega), Nat.add_mod_right,
      Nat.mod_eq_of_lt hd]
    rw [List.foldl_cons] at small
    rw [Nat.mod_eq_of_lt (by omega), if_neg (by omega),
      ih hds (Nat.lt_of_succ_lt_succ hleft) small]
    rfl

theorem readLongTag_longTagBytes {tag : Nat} (small : tag < Nat.pow 2 32) (rest : List UInt8) :
    readLongTag 5 0 (longTagBytes tag ++ rest) = .ok (tag, rest) := by
  have hdigits : ∀ d ∈ (Nat.digits 128 (tag / 128)).reverse, d < 128 := fun d hd =>
    Nat.digits_lt_base (by decide) (List.mem_reverse.1 hd)
  have hlength : (Nat.digits 128 (tag / 128)).reverse.length < 5 := by
    rw [List.length_reverse, Nat.lt_succ_iff]
    refine (Nat.digits_length_le_iff (by decide) _).2 ?_
    have hbound : Nat.pow 2 32 = 4294967296 := rfl
    omega
  have hwhole : (Nat.digits 128 (tag / 128)).reverse.foldl (fun n d => n * 128 + d) 0 * 128 +
      tag % 128 = tag := by
    rw [foldl_digits, Nat.div_add_mod']
  have hread := readLongTag_append hdigits (Nat.mod_lt tag (by decide)) rest hlength
    (hwhole.symm ▸ small)
  rw [hwhole] at hread
  rw [longTagBytes, List.append_assoc]
  exact hread

/-- The bytes before the length: the class, whether the object is constructed, and its tag number. -/
def tagBytes (tagClass : TagClass) (constructed : Bool) (tag : Nat) : List UInt8 :=
  let lead := tagClass.number * 64 + constructed.toNat * 32
  if tag < 31 then [UInt8.ofNat (lead + tag)] else UInt8.ofNat (lead + 31) :: longTagBytes tag

/-- The class, the form and the low bits of the first byte. -/
theorem lead_parts (tagClass : TagClass) (constructed : Bool) {low : Nat} (h : low < 32) :
    let first := UInt8.ofNat (tagClass.number * 64 + constructed.toNat * 32 + low)
    TagClass.ofByte first = tagClass ∧ decide (first.toNat / 32 % 2 = 1) = constructed ∧
      first.toNat % 32 = low := by
  have hclass : tagClass.number < 4 := by cases tagClass <;> decide
  have hform : constructed.toNat < 2 := by cases constructed <;> decide
  have hfirst := toNat_byte
    (show tagClass.number * 64 + constructed.toNat * 32 + low < 256 by omega)
  refine ⟨?_, ?_, ?_⟩
  · rw [TagClass.ofByte, hfirst,
      show (tagClass.number * 64 + constructed.toNat * 32 + low) / 64 = tagClass.number by omega]
    cases tagClass <;> rfl
  · rw [hfirst, show (tagClass.number * 64 + constructed.toNat * 32 + low) / 32 % 2 =
      constructed.toNat by omega]
    cases constructed <;> rfl
  · rw [hfirst]
    omega

theorem readHeader_append (tagClass : TagClass) (constructed : Bool) {tag n : Nat}
    (htag : tag < Nat.pow 2 32) (hn : n < Nat.pow 2 64) (rest : List UInt8) :
    readHeader (tagBytes tagClass constructed tag ++ (lengthBytes n ++ rest)) =
      .ok (⟨tagClass, constructed, tag, .definite n⟩, rest) := by
  unfold tagBytes
  dsimp only
  split
  · rename_i hshort
    obtain ⟨hclass, hform, hlow⟩ := lead_parts tagClass constructed
      (show tag < 32 by omega)
    rw [List.singleton_append, readHeader, readTag, hlow, if_neg (by omega)]
    simp only [bind, Except.bind, readLength_lengthBytes hn, hclass, hform]
    rfl
  · obtain ⟨hclass, hform, hlow⟩ := lead_parts tagClass constructed
      (show 31 < 32 by decide)
    rw [List.cons_append, readHeader, readTag, hlow, if_pos rfl, readLongTag_longTagBytes htag]
    simp only [bind, Except.bind, readLength_lengthBytes hn, hclass, hform]
    rfl

/-! ## Objects -/

/-- The bytes of an object. -/
def Object.bytes (o : Object) : List UInt8 :=
  tagBytes o.tagClass o.constructed o.tag ++ (lengthBytes o.content.length ++ o.content)

theorem Object.length_content_le (o : Object) : o.content.length ≤ o.bytes.length := by
  simp only [bytes, List.length_append]
  omega

theorem Object.bytes_ne_nil (o : Object) : o.bytes ≠ [] := by
  unfold bytes tagBytes
  dsimp only
  split <;> simp

section

variable {o : Object} (htag : o.tag < Nat.pow 2 32) (hlength : o.content.length < Nat.pow 2 64)
  (rest : List UInt8)

include htag hlength

theorem readHeader_bytes : readHeader (o.bytes ++ rest) =
    .ok (⟨o.tagClass, o.constructed, o.tag, .definite o.content.length⟩, o.content ++ rest) := by
  rw [Object.bytes, List.append_assoc, List.append_assoc]
  exact readHeader_append o.tagClass o.constructed htag hlength (o.content ++ rest)

/-- An object is read back, and the bytes after it are left. -/
theorem read_bytes : read (o.bytes ++ rest) = .ok (o, rest) := by
  rw [read, readDefiniteHeader, readHeader_bytes htag hlength]
  simp only [bind, Except.bind]
  rw [if_neg (by rw [List.length_append]; omega), List.take_left, List.drop_left]
  rfl

theorem readLoose_bytes : readLoose (o.bytes ++ rest) = .ok (o.tag, rest) := by
  rw [readLoose, readHeader_bytes htag hlength]
  simp only [bind, Except.bind]
  rw [if_neg (by rw [List.length_append]; omega), List.drop_left]

end

end ClusterVitals.Certificate.Der
