import ClusterVitals.Proofs.FirstBlock

/-!
# Writing PEM

Bytes in base64 between the two boundaries of a block, in lines of any width and under any label.
Reading gives back the bytes.

## Shape of the proofs

What is written has the lines of a block (`FirstBlock.written`), and reading gives what such lines
hold. No line of base64 holds a blank or begins like the end of the block, because neither blanks nor
hyphens are letters of base64.
-/

namespace ClusterVitals

namespace Text

/-! ## Base64 -/

/-- Base64 has no blanks, no newlines and no hyphens. -/
def IsPlain (c : Char) : Prop := isBlank c = false ∧ c ≠ '\n' ∧ c ≠ '-'

instance (c : Char) : Decidable (IsPlain c) := inferInstanceAs (Decidable (_ ∧ _))

theorem Base64.isPlain_letter {v : Nat} (h : v < 64) : IsPlain (letter v) := by
  revert h
  revert v
  decide +kernel

theorem Base64.isPlain_of_mem_encode {bytes : List UInt8} : ∀ c ∈ encode bytes, IsPlain c := by
  have hpad : IsPlain '=' := by decide
  fun_induction encode bytes with
  | case1 => exact List.forall_mem_nil _
  | case2 x =>
    have hx := x.toNat_lt
    simp only [List.forall_mem_cons]
    exact ⟨isPlain_letter (by omega), isPlain_letter (by omega), hpad, hpad,
      List.forall_mem_nil _⟩
  | case3 x y =>
    have hx := x.toNat_lt
    have hy := y.toNat_lt
    simp only [List.forall_mem_cons]
    exact ⟨isPlain_letter (by omega), isPlain_letter (by omega), isPlain_letter (by omega), hpad,
      List.forall_mem_nil _⟩
  | case4 x y z rest ih =>
    have hx := x.toNat_lt
    have hy := y.toNat_lt
    have hz := z.toNat_lt
    simp only [List.forall_mem_cons]
    exact ⟨isPlain_letter (by omega), isPlain_letter (by omega), isPlain_letter (by omega),
      isPlain_letter (by omega), ih⟩

/-- Nothing is trimmed from a line without blanks. -/
theorem trimRight_of_plain {cs : List Char} (plain : ∀ c ∈ cs, IsPlain c) : trimRight cs = cs := by
  induction cs with
  | nil => rfl
  | cons c cs ih =>
    obtain ⟨hc, hcs⟩ := List.forall_mem_cons.1 plain
    rw [trimRight, ih hcs]
    cases cs with
    | nil => simp [hc.1]
    | cons d cs => rfl

/-- Text in lines of a width; without a width there is one line. -/
def cutLines (width : Nat) (cs : List Char) : List (List Char) :=
  if _h : width = 0 ∨ cs.length ≤ width then [cs]
  else cs.take width :: cutLines width (cs.drop width)
termination_by cs.length
decreasing_by
  rw [List.length_drop]
  omega

theorem flatten_cutLines (width : Nat) (cs : List Char) : (cutLines width cs).flatten = cs := by
  fun_induction cutLines width cs with
  | case1 cs h => simp
  | case2 cs h ih => rw [List.flatten_cons, ih, List.take_append_drop]

end Text

namespace Certificate.Pem

open Text

/-! ## Blocks -/

/-- A label, which is a text in one line. -/
structure Label where
  text : String
  oneLine : '\n' ∉ text.toList

/-- The line that begins a block. -/
def Label.beginLine (label : Label) : List Char := beginMark ++ label.text.toList ++ hyphens

/-- The line that ends a block. -/
def Label.endLine (label : Label) : List Char := endMark ++ label.text.toList ++ hyphens

/-- Characters of lines. -/
def textOf (ls : List (List Char)) : List Char := ls.flatMap (· ++ ['\n'])

/-- A block: its bytes under a label, in lines of a width. -/
def block (label : Label) (width : Nat) (contents : List UInt8) : String :=
  .ofList (textOf
    (label.beginLine :: (cutLines width (Base64.encode contents) ++ [label.endLine])))

theorem Label.newline_notMem (label : Label) :
    '\n' ∉ label.beginLine ∧ '\n' ∉ label.endLine := by
  have hmarks : '\n' ∉ beginMark ∧ '\n' ∉ endMark ∧ '\n' ∉ hyphens := by decide
  simp only [beginLine, endLine, List.mem_append, not_or]
  exact ⟨⟨⟨hmarks.1, label.oneLine⟩, hmarks.2.2⟩, ⟨hmarks.2.1, label.oneLine⟩, hmarks.2.2⟩

theorem hasHyphens_append (before after : List Char) :
    hasHyphens (before ++ (hyphens ++ after)) = true := by
  induction before with
  | nil => rfl
  | cons c before ih => rw [List.cons_append, hasHyphens, ih, Bool.or_true]

/-- A line without hyphens does not end a block. -/
theorem not_endMark_prefix {l : List Char} (plain : ∀ c ∈ l, IsPlain c) : ¬endMark <+: l := by
  rintro ⟨rest, rfl⟩
  exact (plain '-' (List.mem_append_left _ (by decide))).2.2 rfl

/-- The bytes of lines are those of their text. -/
theorem bytesOfLines_pmap {ls : List (List Char)} (h : ∀ l ∈ ls, '\n' ∉ l) :
    bytesOfLines (ls.pmap Line.mk h) = Utf8.bytesOf (textOf ls) := by
  induction ls with
  | nil => rfl
  | cons l ls ih =>
    rw [List.pmap_cons, bytesOfLines_cons, ih, textOf, textOf, List.flatMap_cons,
      Utf8.bytesOf_append]
    rfl

theorem joined_pmap {ls : List (List Char)} (h : ∀ l ∈ ls, '\n' ∉ l)
    (plain : ∀ l ∈ ls, ∀ c ∈ l, IsPlain c) : joined (ls.pmap Line.mk h) = ls.flatten := by
  induction ls with
  | nil => rfl
  | cons l ls ih =>
    obtain ⟨hl, hls⟩ := List.forall_mem_cons.1 plain
    rw [List.pmap_cons, joined, List.flatMap_cons, trimRight_of_plain hl, List.flatten_cons,
      ← ih _ hls, joined]

theorem isPlain_of_mem_cutLines {width : Nat} {contents : List UInt8} :
    ∀ l ∈ cutLines width (Base64.encode contents), ∀ c ∈ l, IsPlain c :=
  fun _ hl c hc => Base64.isPlain_of_mem_encode c
    (flatten_cutLines width (Base64.encode contents) ▸ List.mem_flatten_of_mem hl hc)

/-- The lines of a written block. -/
def FirstBlock.written (label : Label) (width : Nat) (contents : List UInt8) : FirstBlock where
  preamble := []
  opening := ⟨label.beginLine, label.newline_notMem.1⟩
  body := (cutLines width (Base64.encode contents)).pmap Line.mk
    fun l hl h => (isPlain_of_mem_cutLines l hl _ h).2.1 rfl
  closing := ⟨label.endLine, label.newline_notMem.2⟩
  silent := List.forall_mem_nil _
  begins := ⟨_, (List.append_assoc ..).symm⟩
  inside l hl := by
    obtain ⟨cs, hcs, rfl⟩ := List.mem_pmap.1 hl
    exact not_endMark_prefix (isPlain_of_mem_cutLines cs hcs)
  ends := ⟨_, (List.append_assoc ..).symm⟩

namespace FirstBlock

variable (label : Label) (width : Nat) (contents : List UInt8)

theorem bytes_written :
    (written label width contents).bytes = Utf8.encode (block label width contents) := by
  have htext : textOf (label.beginLine ::
      (cutLines width (Base64.encode contents) ++ [label.endLine])) =
      (label.beginLine ++ ['\n']) ++ textOf (cutLines width (Base64.encode contents)) ++
        (label.endLine ++ ['\n']) := by
    simp [textOf]
  rw [Utf8.encode_eq, block, String.toList_ofList, htext, Utf8.bytesOf_append,
    Utf8.bytesOf_append, bytes, front]
  dsimp only [written]
  rw [bytesOfLines_pmap, bytesOfLines_nil, List.nil_append]
  rfl

theorem contents_written : (written label width contents).contents = .ok contents := by
  have hmark : beginMark = hyphens ++ beginMark.drop hyphens.length := by decide
  have hclosed : (written label width contents).opening.closed = true := by
    dsimp only [written, Line.closed]
    rw [Label.beginLine, hmark, List.append_assoc, List.append_assoc, List.drop_left,
      ← List.append_assoc, ← List.append_nil hyphens]
    exact hasHyphens_append _ []
  have hjoined : joined (written label width contents).body = Base64.encode contents := by
    dsimp only [written]
    rw [joined_pmap _ isPlain_of_mem_cutLines, flatten_cutLines]
  rw [FirstBlock.contents, hclosed, hjoined, if_pos rfl, Base64.decode?_encode]

end FirstBlock

/-- A block is read up to its end, and its bytes come back. -/
theorem decode_block (label : Label) (width : Nat) (contents rest : List UInt8) :
    decode (Utf8.encode (block label width contents) ++ rest) = .ok contents := by
  rw [← FirstBlock.bytes_written, FirstBlock.decode_bytes_append, FirstBlock.contents_written]

end Certificate.Pem

end ClusterVitals
