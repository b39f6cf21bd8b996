import ClusterVitals.Certificate.Evaluate
import ClusterVitals.Proofs.DerWriter
import ClusterVitals.Proofs.PemWriter
import ClusterVitals.Proofs.WrittenTimes

/-!
# Certificates and their text

A certificate is written in DER from its fields, and this as a block of text. Evaluating the text
gives the end of the validity: the instant that was written, whatever the other fields are.

## Shape of the proofs

There is one lemma for each reader of a part. It says that the reader passes over the bytes that are
written for the part, whatever follows. All lengths are at most that of the whole certificate, so
they can be read if that one can (`Fits`).
-/

namespace ClusterVitals.Certificate

/-! ## Sizes -/

/-- Bytes whose number can be read as a length. -/
def Fits (bytes : List UInt8) : Prop := bytes.length < Nat.pow 2 64

instance (bytes : List UInt8) : Decidable (Fits bytes) := inferInstanceAs (Decidable (_ < _))

theorem fits_append {a b : List UInt8} (h : Fits (a ++ b)) : Fits a ∧ Fits b := by
  rw [Fits, List.length_append] at h
  exact ⟨Nat.lt_of_le_of_lt (Nat.le_add_right _ _) h, Nat.lt_of_le_of_lt (Nat.le_add_left _ _) h⟩

theorem fits_content {o : Der.Object} (h : Fits o.bytes) : Fits o.content :=
  Nat.lt_of_le_of_lt o.length_content_le h

/-! ## Parts -/

/-- Reading goes on with what was found. -/
theorem bind_of_ok {α β : Type} {found : Except Failure α} {a : α} (h : found = .ok a)
    (next : α → Except Failure β) : found >>= next = next a := by
  rw [h]
  rfl

/-- A sequence. -/
def sequenceOf (content : List UInt8) : Der.Object := ⟨.universal, true, 16, content⟩

/-- An object without parts. -/
def primitive (tag : Nat) (content : List UInt8) : Der.Object := ⟨.universal, false, tag, content⟩

theorem object_bytes (failure : Failure) {o : Der.Object} (htag : o.tag < Nat.pow 2 32)
    (fits : Fits o.bytes) (rest : List UInt8) :
    object failure (o.bytes ++ rest) = .ok (o, rest) := by
  rw [object, Der.read_bytes htag (fits_content fits)]

theorem object_bytes_end (failure : Failure) {o : Der.Object} (htag : o.tag < Nat.pow 2 32)
    (fits : Fits o.bytes) : object failure o.bytes = .ok (o, []) := by
  have h := object_bytes failure htag fits []
  rwa [List.append_nil] at h

theorem sequence_bytes {content : List UInt8} (fits : Fits (sequenceOf content).bytes)
    (rest : List UInt8) : sequence ((sequenceOf content).bytes ++ rest) = .ok (content, rest) := by
  rw [sequence, object_bytes _ (show 16 < Nat.pow 2 32 by decide) fits]
  rfl

/-- The content of a number that is not negative: its bytes, after a zero if the highest bit is set. -/
def naturalContent (n : Nat) : List UInt8 :=
  match Der.numberBytes n with
  | [] => [0]
  | b :: rest => if b.toNat < 128 then b :: rest else 0 :: b :: rest

theorem isSmallNumber_naturalContent {n : Nat} (h : n < Nat.pow 2 32) :
    isSmallNumber (naturalContent n) = true := by
  have hlength : (Der.numberBytes n).length ≤ 4 := Der.length_numberBytes_le_iff.2 h
  unfold naturalContent
  split
  · rfl
  rename_i b rest hbytes
  have hb := Der.numberBytes_head_ne_zero hbytes
  rw [hbytes] at hlength
  split
  · rename_i hlow
    rcases rest with _ | ⟨c, rest⟩
    · simpa [isSmallNumber] using hlow
    · simp only [List.length_cons] at hlength
      simp only [isSmallNumber, if_neg hb, Bool.and_eq_true, decide_eq_true_eq]
      exact ⟨hlow, by omega⟩
  · rename_i hhigh
    simp only [List.length_cons] at hlength
    simp only [isSmallNumber, if_pos, Bool.and_eq_true, decide_eq_true_eq]
    omega

/-- The version, which may be left out. -/
def versionBytes : Option UInt32 → List UInt8
  | none => []
  | some v =>
    Der.Object.bytes ⟨.context, true, 0, (primitive 2 (naturalContent v.toNat)).bytes⟩

/-- The version is passed over, and so is its absence before an object with another tag. -/
theorem version_bytes (v : Option UInt32) {next : Der.Object} (htag : next.tag < Nat.pow 2 32)
    (hnext : next.tag ≠ 0) {rest : List UInt8}
    (fits : Fits (versionBytes v ++ (next.bytes ++ rest))) :
    version (versionBytes v ++ (next.bytes ++ rest)) = .ok ((), next.bytes ++ rest) := by
  obtain ⟨hversion, hrest⟩ := fits_append fits
  cases v with
  | none =>
    have hsome : (next.bytes ++ rest).isEmpty = false := by simp [next.bytes_ne_nil]
    rw [versionBytes, List.nil_append, version, hsome, if_neg Bool.false_ne_true,
      object_bytes _ htag (fits_append hrest).1]
    simp only [bind, Except.bind]
    rw [if_pos hnext]
    rfl
  | some v =>
    have hcontent := fits_content hversion
    have hsome (bytes : List UInt8) :
        (versionBytes (some v) ++ bytes).isEmpty = false := by
      simp [versionBytes, Der.Object.bytes_ne_nil]
    rw [version, hsome, if_neg Bool.false_ne_true, versionBytes,
      object_bytes _ (show 0 < Nat.pow 2 32 by decide) hversion]
    simp only [bind, Except.bind]
    rw [if_neg (by decide), if_neg (by decide),
      object_bytes_end .version (show 2 < Nat.pow 2 32 by decide) hcontent]
    exact if_pos ⟨rfl, Bool.false_ne_true, isSmallNumber_naturalContent v.toNat_lt⟩

/-- The serial number is passed over. -/
theorem serial_bytes {content : List UInt8} (fits : Fits (primitive 2 content).bytes)
    (rest : List UInt8) : serial ((primitive 2 content).bytes ++ rest) = .ok ((), rest) := by
  rw [serial, Der.readLoose_bytes (show 2 < Nat.pow 2 32 by decide) (fits_content fits)]
  rfl

/-- An object whose tag number has at most 32 bits. -/
structure Parameters extends Der.Object where
  tag_lt : tag < Nat.pow 2 32

/-- An algorithm: the content of its identifier, and parameters or none. -/
structure Algorithm where
  identifier : List UInt8
  parameters : Option Parameters

/-- The sequence of an algorithm. -/
def Algorithm.object (a : Algorithm) : Der.Object :=
  sequenceOf ((primitive 6 a.identifier).bytes ++ (a.parameters.elim [] (·.bytes)))

theorem algorithm_bytes (a : Algorithm) (fits : Fits a.object.bytes) (rest : List UInt8) :
    algorithm (a.object.bytes ++ rest) = .ok ((), rest) := by
  obtain ⟨hidentifier, hparameters⟩ := fits_append (fits_content fits)
  rw [algorithm, Algorithm.object, sequence_bytes fits]
  simp only [bind, Except.bind]
  rw [Der.read_bytes (show 6 < Nat.pow 2 32 by decide) (fits_content hidentifier)]
  dsimp only
  rw [if_neg (show ¬(primitive 6 a.identifier).constructed = true from Bool.false_ne_true)]
  cases hparameter : a.parameters with
  | none => rfl
  | some p =>
    rw [hparameter] at hparameters
    simp only [Option.elim]
    rw [object_bytes_end _ p.tag_lt hparameters]
    exact ite_self _

/-- A time is read as its instant. -/
theorem time_bytes (t : WrittenTime) (fits : Fits (primitive t.tag t.content).bytes)
    (rest : List UInt8) :
    time ((primitive t.tag t.content).bytes ++ rest) = .ok (t.instant, rest) := by
  rw [time, object_bytes _ (Nat.lt_trans t.tag_lt (by decide)) fits]
  simp only [bind, Except.bind]
  rw [if_neg (not_not_intro (show (primitive t.tag t.content).content.all _ = true from
    t.isVisible_content))]
  have hread : (if (primitive t.tag t.content).tag = 23 then
      Time.utc? (primitive t.tag t.content).content
    else if (primitive t.tag t.content).tag = 24 then
      Time.general? (primitive t.tag t.content).content
    else none) = some t.instant := t.read_content
  rw [hread]

/-- The sequence of both ends of the validity. -/
def validityObject (notBefore notAfter : WrittenTime) : Der.Object :=
  sequenceOf ((primitive notBefore.tag notBefore.content).bytes ++
    (primitive notAfter.tag notAfter.content).bytes)

/-- The second time of the validity is kept. -/
theorem validity_bytes (notBefore notAfter : WrittenTime)
    (fits : Fits (validityObject notBefore notAfter).bytes) (rest : List UInt8) :
    validity ((validityObject notBefore notAfter).bytes ++ rest) = .ok (notAfter.instant, rest) := by
  obtain ⟨hbefore, hafter⟩ := fits_append (fits_content fits)
  have hlast := time_bytes notAfter hafter []
  rw [List.append_nil] at hlast
  refine (bind_of_ok (sequence_bytes fits rest) _).trans ?_
  exact (bind_of_ok (time_bytes notBefore hbefore _) _).trans (bind_of_ok hlast _)

/-! ## Bits -/

/-- Up to eight bits in a byte, the first one highest, with zeros for those that lack. -/
def bitsByte (bits : List Bool) : UInt8 :=
  UInt8.ofNat (bits.foldl (fun n b => n * 2 + b.toNat) 0 * 2 ^ (8 - bits.length))

/-- Bits in bytes. -/
def packedBits (bits : List Bool) : List UInt8 :=
  if bits.length ≤ 8 then [bitsByte bits]
  else bitsByte (bits.take 8) :: packedBits (bits.drop 8)
termination_by bits.length
decreasing_by
  rw [List.length_drop]
  omega

/-- The content of a bit string: the number of bits that the last byte lacks, then the bytes. -/
def bitStringContent (bits : List Bool) : List UInt8 :=
  if bits.isEmpty then [0]
  else UInt8.ofNat ((8 - bits.length % 8) % 8) :: packedBits bits

/-- Zero bits at the low end are found. -/
theorem le_lowZeroBits {b : UInt8} {k : Nat} (h : 2 ^ k ∣ b.toNat) (hk : k ≤ 8) :
    k ≤ lowZeroBits b := by
  unfold lowZeroBits
  cases hfind : (List.range 8).find? fun i => b.toNat / Nat.pow 2 i % 2 = 1 with
  | none => exact hk
  | some i =>
    have hone := List.find?_some hfind
    refine Nat.not_lt.1 fun hlt : i < k => ?_
    obtain ⟨m, hm⟩ := (Nat.pow_dvd_pow 2 hlt).trans h
    have hhalf : b.toNat / Nat.pow 2 i = 2 * m := by
      rw [hm, Nat.pow_succ, Nat.mul_assoc]
      exact Nat.mul_div_cancel_left _ (Nat.two_pow_pos i)
    rw [hhalf, Nat.mul_mod_right] at hone
    exact absurd hone (by decide)

/-- As many bits make a number below a power of two. -/
theorem foldl_bits_lt (bits : List Bool) :
    bits.foldl (fun n b => n * 2 + b.toNat) 0 < 2 ^ bits.length := by
  induction bits using List.reverseRecOn with
  | nil => exact Nat.one_pos
  | append_singleton bits b ih =>
    rw [List.foldl_concat, List.length_append, List.length_singleton, Nat.pow_succ]
    have hb : b.toNat < 2 := by cases b <;> decide
    omega

theorem dvd_bitsByte {bits : List Bool} (h : bits.length ≤ 8) :
    2 ^ (8 - bits.length) ∣ (bitsByte bits).toNat := by
  have hlt : bits.foldl (fun n b => n * 2 + b.toNat) 0 * 2 ^ (8 - bits.length) < 256 :=
    calc _ < 2 ^ bits.length * 2 ^ (8 - bits.length) :=
          Nat.mul_lt_mul_of_pos_right (foldl_bits_lt bits) (Nat.two_pow_pos _)
      _ = 256 := by rw [← Nat.pow_add, Nat.add_sub_cancel' h]
  rw [bitsByte, toNat_byte hlt]
  exact Nat.dvd_mul_left _ _

theorem packedBits_ne_nil (bits : List Bool) : packedBits bits ≠ [] := by
  rw [packedBits]
  split <;> exact List.cons_ne_nil _ _

/-- The last byte ends in as many zeros as it lacks bits. -/
theorem dvd_getLast_packedBits {bits : List Bool} (h : bits ≠ []) :
    2 ^ ((8 - bits.length % 8) % 8) ∣
      ((packedBits bits).getLast (packedBits_ne_nil bits)).toNat := by
  induction bits using packedBits.induct with
  | case1 bits hshort =>
    have hbytes : packedBits bits = [bitsByte bits] := by rw [packedBits, if_pos hshort]
    have hsome := List.length_pos_iff.2 h
    have hlack : (8 - bits.length % 8) % 8 = 8 - bits.length := by omega
    simp only [hlack, hbytes, List.getLast_singleton]
    exact dvd_bitsByte hshort
  | case2 bits hlong ih =>
    have hbytes : packedBits bits = bitsByte (bits.take 8) :: packedBits (bits.drop 8) := by
      rw [packedBits, if_neg hlong]
    have hrest : bits.drop 8 ≠ [] := fun h => by
      have := congrArg List.length h
      rw [List.length_drop, List.length_nil] at this
      omega
    have hlack : (8 - (bits.drop 8).length % 8) % 8 = (8 - bits.length % 8) % 8 := by
      rw [List.length_drop]
      omega
    have hlast := ih hrest
    rw [hlack] at hlast
    simp only [hbytes, List.getLast_cons (packedBits_ne_nil (bits.drop 8))]
    exact hlast

theorem isBitString_bitStringContent (bits : List Bool) :
    isBitString (bitStringContent bits) = true := by
  unfold bitStringContent
  split
  · rfl
  · rename_i hbits
    have hsome : bits ≠ [] := mt List.isEmpty_iff.2 hbits
    have hlast := dvd_getLast_packedBits hsome
    have hlack : (8 - bits.length % 8) % 8 < 8 := Nat.mod_lt _ (by decide)
    obtain ⟨b, rest, hbytes⟩ := List.exists_cons_of_ne_nil (packedBits_ne_nil bits)
    simp only [hbytes] at hlast ⊢
    simp only [isBitString, decide_eq_true_eq, toNat_byte (Nat.lt_trans hlack (by decide))]
    exact le_lowZeroBits hlast (Nat.le_of_lt hlack)

/-- A bit string. -/
def bitStringOf (bits : List Bool) : Der.Object := primitive 3 (bitStringContent bits)

theorem bitString_bytes (failure : Failure) (bits : List Bool)
    (fits : Fits (bitStringOf bits).bytes) (rest : List UInt8) :
    bitString failure ((bitStringOf bits).bytes ++ rest) = .ok ((), rest) := by
  refine (bind_of_ok (object_bytes failure (show 3 < Nat.pow 2 32 by decide) fits rest) _).trans ?_
  exact if_pos ⟨rfl, Bool.false_ne_true, isBitString_bitStringContent bits⟩

theorem bitString_bytes_end (failure : Failure) (bits : List Bool)
    (fits : Fits (bitStringOf bits).bytes) :
    bitString failure (bitStringOf bits).bytes = .ok ((), []) := by
  have h := bitString_bytes failure bits fits []
  rwa [List.append_nil] at h

/-- The sequence of a public key: its algorithm, and its bits. -/
def publicKeyObject (keyAlgorithm : Algorithm) (key : List Bool) : Der.Object :=
  sequenceOf (keyAlgorithm.object.bytes ++ (bitStringOf key).bytes)

theorem publicKey_bytes (keyAlgorithm : Algorithm) (key : List Bool)
    (fits : Fits (publicKeyObject keyAlgorithm key).bytes) (rest : List UInt8) :
    publicKey ((publicKeyObject keyAlgorithm key).bytes ++ rest) = .ok ((), rest) := by
  obtain ⟨halgorithm, hkey⟩ := fits_append (fits_content fits)
  refine (bind_of_ok (sequence_bytes fits rest) _).trans ?_
  refine (bind_of_ok (algorithm_bytes keyAlgorithm halgorithm _) _).trans ?_
  exact bind_of_ok (bitString_bytes_end .publicKey key hkey) _

/-! ## Certificates -/

/-- What a certificate says, without unique identifiers and extensions. -/
structure Fields where
  /-- The number of the version, if it is told. -/
  version : Option UInt32
  /-- The bytes of the serial number. -/
  serial : List UInt8
  /-- The algorithm of the signature, as the signed part tells it. -/
  signing : Algorithm
  /-- The content of the name of the issuer. -/
  issuer : List UInt8
  notBefore : WrittenTime
  notAfter : WrittenTime
  /-- The content of the name of the subject. -/
  subject : List UInt8
  keyAlgorithm : Algorithm
  /-- The bits of the public key. -/
  key : List Bool
  /-- The algorithm of the signature, as it is told after the signed part. -/
  signatureAlgorithm : Algorithm
  /-- The bits of the signature. -/
  signature : List Bool

namespace Fields

variable (c : Fields)

/-- The content of the signed part. -/
def signedContent : List UInt8 :=
  versionBytes c.version ++ ((primitive 2 c.serial).bytes ++ (c.signing.object.bytes ++
    ((sequenceOf c.issuer).bytes ++ ((validityObject c.notBefore c.notAfter).bytes ++
      ((sequenceOf c.subject).bytes ++ (publicKeyObject c.keyAlgorithm c.key).bytes)))))

/-- The certificate in DER. -/
def der : List UInt8 :=
  (sequenceOf ((sequenceOf c.signedContent).bytes ++ (c.signatureAlgorithm.object.bytes ++
    (bitStringOf c.signature).bytes))).bytes

variable {c}

/-- All of the signed part is read, and the end of the validity is kept. -/
theorem signedPart_signedContent (fits : Fits c.signedContent) :
    signedPart c.signedContent = .ok c.notAfter.instant := by
  obtain ⟨-, hserial⟩ := fits_append fits
  obtain ⟨hserial, hsigning⟩ := fits_append hserial
  obtain ⟨hsigning, hissuer⟩ := fits_append hsigning
  obtain ⟨hissuer, hvalidity⟩ := fits_append hissuer
  obtain ⟨hvalidity, hsubject⟩ := fits_append hvalidity
  obtain ⟨hsubject, hkey⟩ := fits_append hsubject
  have hlast := publicKey_bytes c.keyAlgorithm c.key hkey []
  rw [List.append_nil] at hlast
  refine (bind_of_ok (version_bytes c.version (show 2 < Nat.pow 2 32 by decide)
    (show 2 ≠ 0 by decide) fits) _).trans ?_
  refine (bind_of_ok (serial_bytes hserial _) _).trans ?_
  refine (bind_of_ok (algorithm_bytes c.signing hsigning _) _).trans ?_
  refine (bind_of_ok (sequence_bytes hissuer _) _).trans ?_
  refine (bind_of_ok (validity_bytes c.notBefore c.notAfter hvalidity _) _).trans ?_
  refine (bind_of_ok (sequence_bytes hsubject _) _).trans ?_
  -- after the public key nothing is left for identifiers and extensions
  exact (bind_of_ok hlast _).trans rfl

/-- The end of the validity is found, whatever bytes follow the certificate. -/
theorem notAfter_der (fits : Fits c.der) (trailing : List UInt8) :
    Certificate.notAfter (c.der ++ trailing) = .ok c.notAfter.instant := by
  obtain ⟨hsigned, hrest⟩ := fits_append (fits_content fits)
  obtain ⟨halgorithm, hsignature⟩ := fits_append hrest
  refine (bind_of_ok (sequence_bytes fits trailing) _).trans ?_
  refine (bind_of_ok (sequence_bytes hsigned _) _).trans ?_
  refine (bind_of_ok (signedPart_signedContent (fits_content hsigned)) _).trans ?_
  refine (bind_of_ok (algorithm_bytes c.signatureAlgorithm halgorithm _) _).trans ?_
  exact bind_of_ok (bitString_bytes_end .signature c.signature hsignature) _

/-- The text of a certificate is evaluated to the end of its validity. -/
theorem evaluate_block (fits : Fits c.der) (label : Pem.Label) (width : Nat)
    (trailing : List UInt8) :
    evaluate (Text.Utf8.encode (Pem.block label width (c.der ++ trailing))) =
      .ok c.notAfter.instant := by
  have hpem := Pem.decode_block label width (c.der ++ trailing) []
  rw [List.append_nil] at hpem
  rw [evaluate, hpem]
  dsimp only
  rw [notAfter_der fits]

variable (c)

/-- What evaluating a certificate gives. -/
structure ExpiryLaw : Prop where
  /-- The end of the validity, as it was written, whatever the label, the width of the lines and the
  bytes behind the certificate. -/
  exact : ∀ label width trailing,
    evaluate (Text.Utf8.encode (Pem.block label width (c.der ++ trailing))) =
      .ok c.notAfter.instant
  /-- Nothing else counts: a certificate that ends at the same instant gives the same. -/
  agree : ∀ d : Fields, Fits d.der → d.notAfter.instant = c.notAfter.instant →
    ∀ label width trailing label' width' trailing',
      evaluate (Text.Utf8.encode (Pem.block label width (d.der ++ trailing))) =
        evaluate (Text.Utf8.encode (Pem.block label' width' (c.der ++ trailing')))
  /-- Instants count the seconds of the calendar from the start of 1970. -/
  counted : Clock.unixSeconds ⟨⟨1970, 1, 1⟩, 0, 0, 0⟩ = 0 ∧
    ∀ clock : Clock, clock.isValid → clock.next.isValid ∧
      clock.next.unixSeconds = clock.unixSeconds + 1

variable {c}

/-- Evaluating reads back the end of the validity, and nothing else. -/
theorem expiry_law (fits : Fits c.der) : c.ExpiryLaw where
  exact := evaluate_block fits
  agree d hd hagree label width trailing label' width' trailing' := by
    rw [evaluate_block hd, evaluate_block fits, hagree]
  counted := ⟨by decide, fun _ valid => ⟨Clock.isValid_next valid, Clock.unixSeconds_next valid⟩⟩

/-- The certificate of an issuer: version three, an elliptic key, ten years. -/
def tenYears : Fields where
  version := some 2
  serial := [1]
  signing := ⟨[0x2A, 0x86, 0x48, 0xCE, 0x3D, 0x04, 0x03, 0x02], none⟩
  issuer := []
  notBefore := .utc ⟨⟨2025, 8, 6⟩, 23, 12, 6⟩ (by decide) (by decide)
  notAfter := .utc ⟨⟨2035, 8, 4⟩, 23, 12, 26⟩ (by decide) (by decide)
  subject := []
  keyAlgorithm := ⟨[0x2A, 0x86, 0x48, 0xCE, 0x3D, 0x02, 0x01],
    some ⟨primitive 6 [0x2A, 0x86, 0x48, 0xCE, 0x3D, 0x03, 0x01, 0x07], by decide⟩⟩
  key := [true, false, true]
  signatureAlgorithm := ⟨[0x2A, 0x86, 0x48, 0xCE, 0x3D, 0x04, 0x03, 0x02], none⟩
  signature := []

theorem expiry_law_tenYears : Fits tenYears.der ∧ tenYears.ExpiryLaw ∧
    tenYears.notAfter.instant = .ofUnixSeconds 2069881946 :=
  ⟨by decide +kernel, expiry_law (by decide +kernel), by decide⟩

end Fields

end ClusterVitals.Certificate
