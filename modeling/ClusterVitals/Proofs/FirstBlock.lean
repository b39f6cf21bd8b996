import ClusterVitals.Proofs.TextLines

/-!
# The first block

Key material up to the end of its first block is told by its lines: those that begin no block, the
one that begins it, its body, and the one that ends it. What the reader finds there is said by the
lines of the block alone.

## Shape of the proofs

The reader has two phases, and for each there is one lemma that says what a whole line does in it
(`search_line`, `collect_line`). Inductions over the lines put them together, with any bytes behind.

Bytes that are cut off are whole lines and a piece of the next one, which has no newline
(`cut_lines`). The reader takes such a piece for its last line and stops without an answer
(`CutOff`), unless it takes it for the end of the block; then the line itself has the mark of the end,
and the piece all of that mark.
-/

namespace ClusterVitals

namespace Text

/-- A blank at the end of a line is dropped. -/
theorem trimRight_concat {c : Char} (blank : isBlank c = true) (cs : List Char) :
    trimRight (cs ++ [c]) = trimRight cs := by
  induction cs with
  | nil => simp [trimRight, blank]
  | cons d cs ih => rw [List.cons_append, trimRight, trimRight, ih]

end Text

namespace Certificate.Pem

open Text

/-! ## Lines -/

/-- A line of text, without the newline that ends it. -/
structure Line where
  text : List Char
  oneLine : '\n' ∉ text

namespace Line

/-- The bytes of a line, with its newline. -/
def bytes (l : Line) : List UInt8 := Utf8.bytesOf (l.text ++ ['\n'])

/-- A line begins a block. -/
def Begins (l : Line) : Prop := beginMark <+: l.text

/-- A line ends a block. -/
def Ends (l : Line) : Prop := endMark <+: l.text

instance (l : Line) : Decidable l.Begins := inferInstanceAs (Decidable (_ <+: _))

instance (l : Line) : Decidable l.Ends := inferInstanceAs (Decidable (_ <+: _))

theorem bytes_eq (l : Line) : l.bytes = Utf8.bytesOf l.text ++ [0x0A] := by
  rw [bytes, Utf8.bytesOf_append]
  rfl

theorem length_text_lt (l : Line) : l.text.length < l.bytes.length := by
  rw [bytes_eq, List.length_append, List.length_singleton]
  exact Nat.lt_succ_of_le (Utf8.length_le_length_bytesOf l.text)

theorem newline_notMem (l : Line) : 0x0A ∉ Utf8.bytesOf l.text :=
  mt Utf8.newline_mem_bytesOf_iff.1 l.oneLine

theorem lines_bytes_append (l : Line) (rest : List UInt8) :
    lines (l.bytes ++ rest) = l.bytes :: lines rest :=
  lines_bytesOf l.oneLine

end Line

/-- The bytes of lines. -/
def bytesOfLines (ls : List Line) : List UInt8 := ls.flatMap Line.bytes

@[simp] theorem bytesOfLines_nil : bytesOfLines [] = [] := rfl

@[simp] theorem bytesOfLines_cons (l : Line) (ls : List Line) :
    bytesOfLines (l :: ls) = l.bytes ++ bytesOfLines ls := rfl

/-- The text of lines, each without the blanks at its end. -/
def joined (ls : List Line) : List Char := ls.flatMap fun l => trimRight l.text

/-! ## Whole lines -/

/-- A mark without a newline is not made by the newline of a line. -/
theorem isPrefixOf_newline {mark : List Char} (h : '\n' ∉ mark) (cs : List Char) :
    mark.isPrefixOf (cs ++ ['\n']) = mark.isPrefixOf cs := by
  rw [Bool.eq_iff_iff, List.isPrefixOf_iff_prefix, List.isPrefixOf_iff_prefix,
    List.prefix_concat_iff, or_iff_right]
  rintro rfl
  exact h (List.mem_append_right _ (List.mem_singleton_self _))

theorem hasHyphens_newline (cs : List Char) : hasHyphens (cs ++ ['\n']) = hasHyphens cs := by
  induction cs with
  | nil => rfl
  | cons c cs ih =>
    rw [List.cons_append, hasHyphens, hasHyphens, ih, ← List.cons_append,
      isPrefixOf_newline (by decide)]

/-- Hyphens stand in a line behind those it begins with. -/
def Line.closed (l : Line) : Bool := hasHyphens (l.text.drop hyphens.length)

/-- In the search a line that begins a block leads to its body, if hyphens close the mark; any other
line is passed over. -/
theorem search_line (l : Line) (rest : List UInt8) :
    search (lines (l.bytes ++ rest)) =
      if l.Begins then
        if l.closed then collect [] (lines rest) else .error .invalidHeader
      else search (lines rest) := by
  rw [l.lines_bytes_append, search, Line.bytes, Utf8.decode?_bytesOf]
  dsimp only
  rw [isPrefixOf_newline (by decide)]
  by_cases begins : l.Begins
  · have hlength : hyphens.length ≤ l.text.length := Nat.le_trans (by decide) begins.length_le
    rw [if_pos (List.isPrefixOf_iff_prefix.2 begins), if_pos begins,
      List.drop_append_of_le_length hlength, hasHyphens_newline, Line.closed]
  · rw [if_neg (mt List.isPrefixOf_iff_prefix.1 begins), if_neg begins]

theorem search_silent {ls : List Line} (silent : ∀ l ∈ ls, ¬l.Begins) (rest : List UInt8) :
    search (lines (bytesOfLines ls ++ rest)) = search (lines rest) := by
  induction ls with
  | nil => rfl
  | cons l ls ih =>
    obtain ⟨hl, hls⟩ := List.forall_mem_cons.1 silent
    rw [bytesOfLines_cons, List.append_assoc, search_line, if_neg hl, ih hls]

/-- In a body the line that ends the block is the last one that is read; any other is joined. -/
theorem collect_line (l : Line) (body : List Char) (rest : List UInt8) :
    collect body (lines (l.bytes ++ rest)) =
      if l.Ends then .ok body else collect (body ++ trimRight l.text) (lines rest) := by
  rw [l.lines_bytes_append, collect, Line.bytes, Utf8.decode?_bytesOf]
  dsimp only
  rw [isPrefixOf_newline (by decide), trimRight_concat (by decide)]
  by_cases ends : l.Ends
  · rw [if_pos (List.isPrefixOf_iff_prefix.2 ends), if_pos ends]
  · rw [if_neg (mt List.isPrefixOf_iff_prefix.1 ends), if_neg ends]

theorem collect_inside {ls : List Line} (inside : ∀ l ∈ ls, ¬l.Ends) (body : List Char)
    (rest : List UInt8) :
    collect body (lines (bytesOfLines ls ++ rest)) = collect (body ++ joined ls) (lines rest) := by
  induction ls generalizing body with
  | nil => rw [joined, List.flatMap_nil, List.append_nil]; rfl
  | cons l ls ih =>
    obtain ⟨hl, hls⟩ := List.forall_mem_cons.1 inside
    rw [bytesOfLines_cons, List.append_assoc, collect_line, if_neg hl, ih hls, joined, joined,
      List.flatMap_cons, List.append_assoc]

/-! ## Lines that are cut off -/

/-- The reader stopped for want of a line, at one that is no header, or inside a character. -/
def CutOff {α : Type} (found : Except Failure α) : Prop :=
  ∃ failure, found = .error failure ∧ failure ≠ .base64

theorem CutOff.bind {α β : Type} {found : Except Failure α} (h : CutOff found)
    (next : α → Except Failure β) : CutOff (found >>= next) := by
  obtain ⟨failure, rfl, hfailure⟩ := h
  exact ⟨failure, rfl, hfailure⟩

/-- A prefix of lines ends inside the first, or has all of it. -/
theorem cut_line {t rest : List UInt8} {l : Line} (cut : t <+: l.bytes ++ rest) :
    t <+: Utf8.bytesOf l.text ∨ ∃ more, t = l.bytes ++ more ∧ more <+: rest := by
  rcases List.prefix_or_prefix_of_prefix cut (List.prefix_append l.bytes rest) with h | ⟨more, rfl⟩
  · rw [l.bytes_eq, List.prefix_concat_iff, ← l.bytes_eq] at h
    rcases h with rfl | h
    · exact .inr ⟨[], (List.append_nil _).symm, List.nil_prefix⟩
    · exact .inl h
  · exact .inr ⟨more, rfl, (List.prefix_append_right_inj _).1 cut⟩

/-- A prefix of lines has some of them whole and ends inside the next, or has all of them. -/
theorem cut_lines {ls : List Line} {t rest : List UInt8} (cut : t <+: bytesOfLines ls ++ rest) :
    (∃ whole l after piece, ls = whole ++ l :: after ∧ t = bytesOfLines whole ++ piece ∧
      piece <+: Utf8.bytesOf l.text) ∨
    ∃ more, t = bytesOfLines ls ++ more ∧ more <+: rest := by
  induction ls generalizing t with
  | nil => exact .inr ⟨t, rfl, cut⟩
  | cons l ls ih =>
    rw [bytesOfLines_cons, List.append_assoc] at cut
    rcases cut_line cut with hpiece | ⟨more, rfl, hmore⟩
    · exact .inl ⟨[], l, ls, t, rfl, rfl, hpiece⟩
    rcases ih hmore with ⟨whole, k, after, piece, rfl, rfl, hpiece⟩ | ⟨last, rfl, hlast⟩
    · exact .inl ⟨l :: whole, k, after, piece, rfl, (List.append_assoc ..).symm, hpiece⟩
    · exact .inr ⟨last, (List.append_assoc ..).symm, hlast⟩

/-- Bytes without a newline are one line, if there are any. -/
theorem lines_of_newline_notMem {t : List UInt8} (h : 0x0A ∉ t) :
    lines t = [] ∨ lines t = [t] := by
  induction t with
  | nil => exact .inl rfl
  | cons b t ih =>
    obtain ⟨hb, ht⟩ := not_or.1 (mt List.mem_cons.2 h)
    rw [lines, if_neg (Ne.symm hb)]
    have hall := flatten_lines t
    rcases ih ht with h | h <;> rw [h] at hall ⊢
    · exact .inr (by rw [← hall]; rfl)
    · exact .inr rfl

theorem Line.newline_notMem_of_prefix {l : Line} {t : List UInt8}
    (cut : t <+: Utf8.bytesOf l.text) : 0x0A ∉ t :=
  fun h => l.newline_notMem (cut.subset h)

/-- No block is found in a piece of a line. -/
theorem search_piece {l : Line} {t : List UInt8} (cut : t <+: Utf8.bytesOf l.text) :
    CutOff (search (lines t)) := by
  rcases lines_of_newline_notMem (Line.newline_notMem_of_prefix cut) with h | h
  · exact ⟨.missingHeader, by rw [h]; rfl, by decide⟩
  rw [h, search]
  split
  · exact ⟨.notText, rfl, by decide⟩
  -- even if the piece is a whole header, no body follows
  · split
    · split
      · exact ⟨.incomplete, rfl, by decide⟩
      · exact ⟨.invalidHeader, rfl, by decide⟩
    · exact ⟨.missingHeader, rfl, by decide⟩

/-- A block does not end in a piece of a line that lacks the mark of the end. -/
theorem collect_piece {l : Line} {t : List UInt8} (cut : t <+: Utf8.bytesOf l.text)
    (unended : l.Ends → t.length < endMark.length) (body : List Char) :
    CutOff (collect body (lines t)) := by
  rcases lines_of_newline_notMem (Line.newline_notMem_of_prefix cut) with h | h
  · exact ⟨.incomplete, by rw [h]; rfl, by decide⟩
  rw [h, collect]
  split
  · exact ⟨.notText, rfl, by decide⟩
  rename_i cs hread
  refine ⟨.incomplete, if_neg fun hmark => ?_, by decide⟩
  have hends := List.isPrefixOf_iff_prefix.1 hmark
  have hshort := unended (hends.trans (Utf8.prefix_of_decode? cut hread))
  have hlength := Utf8.length_le_length_bytesOf cs
  rw [← Utf8.decode?_eq_some_iff.1 hread] at hlength
  exact absurd hends.length_le (by omega)

/-- A body is not taken up if the bytes end before the mark of its end is complete. -/
theorem collect_cut {ls : List Line} (inside : ∀ l ∈ ls, ¬l.Ends) {closing : Line}
    (ends : closing.Ends) {t : List UInt8} (cut : t <+: bytesOfLines ls ++ closing.bytes)
    (short : t.length < (bytesOfLines ls).length + endMark.length) (body : List Char) :
    CutOff (collect body (lines t)) := by
  rcases cut_lines cut with ⟨whole, l, after, piece, rfl, rfl, hpiece⟩ | ⟨last, rfl, hlast⟩
  · rw [List.forall_mem_append, List.forall_mem_cons] at inside
    rw [collect_inside inside.1]
    exact collect_piece hpiece (fun hends => absurd hends inside.2.1) _
  rw [List.length_append, Nat.add_lt_add_iff_left] at short
  rw [collect_inside inside]
  rw [closing.bytes_eq, List.prefix_concat_iff, ← closing.bytes_eq] at hlast
  rcases hlast with rfl | hpiece
  · have := ends.length_le
    have := closing.length_text_lt
    omega
  · exact collect_piece hpiece (fun _ => short) _

/-! ## Blocks -/

/-- Key material up to the end of its first block. -/
structure FirstBlock where
  /-- The lines before the block. -/
  preamble : List Line
  /-- The line that begins the block. -/
  opening : Line
  /-- The lines inside the block. -/
  body : List Line
  /-- The line that ends the block. -/
  closing : Line
  silent : ∀ l ∈ preamble, ¬l.Begins
  begins : opening.Begins
  inside : ∀ l ∈ body, ¬l.Ends
  ends : closing.Ends

namespace FirstBlock

variable (b : FirstBlock)

/-- The bytes before the line that ends the block. -/
def front : List UInt8 :=
  bytesOfLines b.preamble ++ (b.opening.bytes ++ bytesOfLines b.body)

/-- The bytes, to the newline of the line that ends the block. -/
def bytes : List UInt8 := b.front ++ b.closing.bytes

/-- What the block holds: the base64 of its body, if hyphens close the mark it begins with. -/
def contents : Except Failure (List UInt8) :=
  if b.opening.closed then
    match Base64.decode? (joined b.body) with
    | some contents => .ok contents
    | none => .error .base64
  else .error .invalidHeader

/-- What is found is what the block holds, whatever follows it. -/
theorem decode_bytes_append (rest : List UInt8) : decode (b.bytes ++ rest) = b.contents := by
  have hsearch : search (lines (b.bytes ++ rest)) =
      if b.opening.closed then .ok (joined b.body) else .error .invalidHeader := by
    rw [bytes, front, List.append_assoc, List.append_assoc, List.append_assoc,
      search_silent b.silent, search_line, if_pos b.begins, collect_inside b.inside, collect_line,
      if_pos b.ends, List.nil_append]
  rw [decode, hsearch, contents]
  cases b.opening.closed <;> rfl

theorem decode_bytes : decode b.bytes = b.contents := by
  have h := b.decode_bytes_append []
  rwa [List.append_nil] at h

/-- Nothing is found if the bytes end before the mark of the end is complete. -/
theorem decode_cut {t : List UInt8} (cut : t <+: b.bytes)
    (short : t.length < b.front.length + endMark.length) : CutOff (decode t) := by
  rw [bytes, front, List.append_assoc, List.append_assoc] at cut
  rw [front, List.length_append, List.length_append] at short
  suffices CutOff (search (lines t)) from this.bind _
  -- the bytes end before the block, in the line that begins it, or behind that line
  rcases cut_lines cut with ⟨whole, l, after, piece, hls, rfl, hpiece⟩ | ⟨t, rfl, hopening⟩
  · have hsilent := b.silent
    rw [hls, List.forall_mem_append] at hsilent
    rw [search_silent hsilent.1]
    exact search_piece hpiece
  rw [search_silent b.silent]
  rcases cut_line hopening with hpiece | ⟨t, rfl, hbody⟩
  · exact search_piece hpiece
  rw [List.length_append, List.length_append] at short
  rw [search_line, if_pos b.begins]
  split
  · exact collect_cut b.inside b.ends hbody (by omega) []
  · exact ⟨.invalidHeader, rfl, by decide⟩

end FirstBlock

end Certificate.Pem

end ClusterVitals
