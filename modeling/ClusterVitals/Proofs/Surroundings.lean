import ClusterVitals.Proofs.WrittenCertificates

/-!
# What stands around a block

Only the first block of key material is evaluated. Neither lines that stand before it nor any bytes
that follow it change the answer, and material that is cut off inside it is refused as such, before
any certificate is looked for.
-/

namespace ClusterVitals.Certificate

open Text

/-- Key material is evaluated by what its first block holds. -/
theorem evaluate_congr {material material' : List UInt8}
    (same : Pem.decode material = Pem.decode material') :
    evaluate material = evaluate material' := by
  rw [evaluate, evaluate, same]

/-- Material that is cut off is refused for its block. -/
theorem evaluate_of_cutOff {material : List UInt8} (h : Pem.CutOff (Pem.decode material)) :
    ∃ failure, evaluate material = .error (.pem failure) ∧ failure ≠ .base64 := by
  obtain ⟨failure, hdecode, hfailure⟩ := h
  exact ⟨failure, by rw [evaluate, hdecode], hfailure⟩

namespace Pem

theorem decode_silent {ls : List Line} (silent : ∀ l ∈ ls, ¬l.Begins)
    (material : List UInt8) : decode (bytesOfLines ls ++ material) = decode material := by
  rw [decode, decode, search_silent silent]

namespace FirstBlock

/-- What the surroundings of a block do to its evaluation, and the loss of its end. -/
structure SurroundingsLaw (b : FirstBlock) : Prop where
  /-- What is found is told by the lines of the block: its first line must have closing hyphens, and
  those inside it are joined to base64. -/
  found : decode b.bytes = b.contents
  /-- Nothing that follows the block counts, be it text or not. -/
  behind : ∀ rest, decode (b.bytes ++ rest) = decode b.bytes ∧
    evaluate (b.bytes ++ rest) = evaluate b.bytes
  /-- Nor do lines before it that begin no block. -/
  before : ∀ ls : List Line, (∀ l ∈ ls, ¬l.Begins) →
    decode (bytesOfLines ls ++ b.bytes) = decode b.bytes ∧
      evaluate (bytesOfLines ls ++ b.bytes) = evaluate b.bytes
  /-- Bytes that end before the mark of the end is complete are refused: a header or the end is
  missing, the header is damaged, or a character is. -/
  cutOff : ∀ t, t <+: b.bytes → t.length < b.front.length + endMark.length →
    ∃ failure : Pem.Failure, failure ≠ .base64 ∧
      (evaluate t).mapError EvaluateError.toError = .error (.malformedInput failure.message)

/-- Only the first block of key material counts. -/
theorem surroundings_law (b : FirstBlock) : b.SurroundingsLaw where
  found := b.decode_bytes
  behind rest := by
    have same : decode (b.bytes ++ rest) = decode b.bytes := by
      rw [b.decode_bytes_append, b.decode_bytes]
    exact ⟨same, evaluate_congr same⟩
  before ls silent := by
    have same := decode_silent silent b.bytes
    exact ⟨same, evaluate_congr same⟩
  cutOff t cut short := by
    obtain ⟨failure, hevaluate, hfailure⟩ := evaluate_of_cutOff (b.decode_cut cut short)
    exact ⟨failure, hfailure, by rw [hevaluate]; rfl⟩

/-- The block of a certificate of ten years. -/
def tenYears : FirstBlock := .written ⟨"CERTIFICATE", by decide⟩ 64 Fields.tenYears.der

theorem evaluate_tenYears : evaluate tenYears.bytes = .ok (.ofUnixSeconds 2069881946) := by
  have h := Fields.evaluate_block (c := Fields.tenYears) (by decide +kernel)
    ⟨"CERTIFICATE", by decide⟩ 64 []
  rw [List.append_nil, ← bytes_written] at h
  exact h.trans (by decide)

/-- Lines that begin no block: a remark, and the end of another one. -/
def remarks : List Line :=
  [⟨"# gültig für zehn Jahre".toList, by decide⟩, ⟨"-----END CERTIFICATE-----".toList, by decide⟩]

theorem surroundings_law_tenYears :
    evaluate tenYears.bytes = .ok (.ofUnixSeconds 2069881946) ∧
      evaluate (bytesOfLines remarks ++ tenYears.bytes) = .ok (.ofUnixSeconds 2069881946) ∧
      evaluate (tenYears.bytes ++ [0xC3, 0x0A]) = .ok (.ofUnixSeconds 2069881946) ∧
      ∃ failure : Pem.Failure, (evaluate (tenYears.bytes.take 30)).mapError EvaluateError.toError =
        .error (.malformedInput failure.message) := by
  have law := surroundings_law tenYears
  have hopening : tenYears.opening.bytes.length = 28 := by decide
  have hshort : (tenYears.bytes.take 30).length < tenYears.front.length + endMark.length := by
    have hmark : endMark.length = 9 := rfl
    rw [List.length_take, front, List.length_append, List.length_append, hopening, hmark]
    omega
  obtain ⟨failure, -, hcut⟩ := law.cutOff _ (List.take_prefix _ _) hshort
  exact ⟨evaluate_tenYears, (law.before remarks (by decide)).2.trans evaluate_tenYears,
    (law.behind [0xC3, 0x0A]).2.trans evaluate_tenYears, failure, hcut⟩

end FirstBlock

end Pem

end ClusterVitals.Certificate
