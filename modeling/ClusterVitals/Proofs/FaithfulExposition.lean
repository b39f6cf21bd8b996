import ClusterVitals.Proofs.ExpositionReader
import ClusterVitals.Proofs.Schema

/-!
# Expositions are read back

Whatever stands in help texts, in values of labels and in gauges, the text of a snapshot is read
back as the families that have samples, under their exposed names. So the text tells them: no escape
is lost, and no value can pass for another line.

## Shape of the proofs

`Line.chars` writes a line, and `line?_chars` says that it is read back. It holds no newline, so the
text is cut into the lines that it was made of (`lines_textOf`). The lines of families are gathered
into these families again (`collect_familyLines`).
-/

namespace ClusterVitals

/-! ## Labels in ascending order -/

namespace LabelSet

/-- A pair that belongs behind all others is put there. -/
theorem insertPair_of_lt {name value : String} {pairs : List (String × String)}
    (h : ∀ p ∈ pairs, p.1 < name) : insertPair name value pairs = pairs ++ [(name, value)] := by
  induction pairs with
  | nil => rfl
  | cons p rest ih =>
    have hlt : p.1 < name := h p List.mem_cons_self
    rw [insertPair, if_neg (String.lt_asymm hlt), if_neg (String.ne_of_lt hlt).symm,
      ih fun q hq => h q (List.mem_cons_of_mem _ hq), List.cons_append]

/-- A label set is made of its pairs. -/
theorem ofList_pairs (labels : LabelSet) : ofList labels.pairs = labels := by
  suffices hpairs : ∀ pairs : List (String × String),
      pairs.Pairwise (fun a b => a.1 < b.1) → (ofList pairs).pairs = pairs by
    exact (LabelSet.mk.injEq ..).mpr (hpairs labels.pairs labels.sorted)
  intro pairs
  induction pairs using List.reverseRecOn with
  | nil => exact fun _ => rfl
  | append_singleton pairs p ih =>
    intro hsorted
    obtain ⟨hfirst, -, hlast⟩ := List.pairwise_append.1 hsorted
    have hread := ih hfirst
    rw [ofList, List.foldl_append]
    show insertPair p.1 p.2 (ofList pairs).pairs = _
    rw [hread, insertPair_of_lt fun q hq => hlast q hq p List.mem_cons_self]

end LabelSet

namespace Exposition

/-! ## Names -/

theorem canContinueName_of_canBeginName {c : Char} (h : canBeginName c) : canContinueName c := by
  simp only [canBeginName, canContinueName, Bool.or_eq_true] at h ⊢
  exact h.imp_left .inl

theorem canContinueName_of_isMetricName {name : String} (h : isMetricName name) :
    ∀ c ∈ name.toList, canContinueName c := by
  unfold isMetricName at h
  cases hname : name.toList with
  | nil => simp
  | cons first rest =>
    simp only [hname, Bool.and_eq_true, List.all_eq_true] at h
    exact List.forall_mem_cons.2 ⟨canContinueName_of_canBeginName h.1, h.2⟩

theorem isNameChar_of_isIdentifier {name : List Char} (h : isIdentifier name) :
    ∀ c ∈ name, isNameChar c := by
  cases name with
  | nil => simp
  | cons first rest =>
    simp only [isIdentifier, Bool.and_eq_true, Bool.or_eq_true, List.all_eq_true] at h
    have hfirst : isNameChar first := by
      rw [isNameChar, Bool.or_eq_true]
      exact h.1.imp_left canContinueName_of_canBeginName
    exact List.forall_mem_cons.2 ⟨hfirst, h.2⟩

/-- What a label may be named, a metric may be. -/
theorem isIdentifier_of_isMetricName {name : String} (h : isMetricName name) :
    isIdentifier name.toList := by
  unfold isMetricName at h
  cases hname : name.toList with
  | nil => simp [hname] at h
  | cons first rest =>
    simp only [hname, Bool.and_eq_true, List.all_eq_true] at h
    simp only [isIdentifier, h.1, Bool.true_or, Bool.true_and, List.all_eq_true, isNameChar]
    intro c hc
    rw [h.2 c hc, Bool.true_or]

theorem isIdentifier_append {name more : List Char} (h : isIdentifier name)
    (hmore : ∀ c ∈ more, isNameChar c) : isIdentifier (name ++ more) := by
  cases name with
  | nil => cases h
  | cons first rest =>
    simp only [isIdentifier, Bool.and_eq_true, List.cons_append, List.all_append] at h ⊢
    exact ⟨h.1, h.2, List.all_eq_true.2 hmore⟩

/-- A name is read up to the first character that is in no name. -/
theorem name?_append {name : List Char} {c : Char} (h : isIdentifier name) (rest : List Char)
    (stop : isNameChar c = false) :
    name? (name ++ c :: rest) = some (String.ofList name, c :: rest) := by
  have hall := isNameChar_of_isIdentifier h
  simp [name?, List.takeWhile_append_of_pos hall, List.dropWhile_append_of_pos hall, stop, h]

/-! ## Lines -/

/-- How a label stands between the braces. -/
def pairChars (label : String × String) : List Char :=
  label.1.toList ++ '=' :: '"' :: label.2.toList.flatMap labelChar ++ ['"']

/-- How labels stand in the line of a sample. -/
def pairsChars (labels : List (String × String)) : List Char :=
  if labels = [] then [] else '\x7b' :: [','].intercalate (labels.map pairChars) ++ ['\x7d']

/-- How a line is written. -/
def Line.chars : Line → List Char
  | .help name text => helpMark ++ name.toList ++ ' ' :: text.toList.flatMap helpChar
  | .type name => typeMark ++ name.toList ++ gaugeMark
  | .sample name gauge =>
    name.toList ++ pairsChars gauge.labels.pairs ++ ' ' :: gauge.value.plainText.toList

/-- The names in a line are names. -/
def Line.Proper : Line → Prop
  | .help name _ | .type name => isIdentifier name.toList
  | .sample name gauge =>
    isIdentifier name.toList ∧ ∀ label ∈ gauge.labels.pairs, isMetricName label.1

/-- Escapes in a help text are undone. -/
theorem helpText?_flatMap (text : List Char) : helpText? (text.flatMap helpChar) = some text := by
  induction text with
  | nil => rfl
  | cons c text ih =>
    rw [List.flatMap_cons]
    by_cases hslash : c = '\\'
    · simp [hslash, helpChar, helpText?, ih]
    by_cases hline : c = '\n'
    · simp [hline, helpChar, helpText?, ih]
    · simp [helpChar, helpText?, hslash, ih]

/-- The name of a label is read up to the value. -/
theorem labels?_name {more : List Char} (h : ∀ c ∈ more, canContinueName c)
    (name rest : List Char) :
    labels? (.name name) (more ++ '=' :: '"' :: rest) =
      labels? (.value (name ++ more) []) rest := by
  induction more generalizing name with
  | nil => simp [labels?]
  | cons c more ih =>
    have hc : canContinueName c := h c List.mem_cons_self
    have hne : c ≠ '=' := by rintro rfl; revert hc; decide
    rw [List.cons_append, labels?, if_pos hc, ih fun d hd => h d (List.mem_cons_of_mem _ hd)]
    · simp
    · simp [hne]

/-- Escapes in the value of a label are undone. -/
theorem labels?_value (name value more rest : List Char) :
    labels? (.value name value) (more.flatMap labelChar ++ rest) =
      labels? (.value name (value ++ more)) rest := by
  induction more generalizing value with
  | nil => simp
  | cons c more ih =>
    rw [List.flatMap_cons, List.append_assoc, List.append_cons value c more, ← ih]
    by_cases hslash : c = '\\'
    · simp [hslash, labelChar, labels?]
    by_cases hquote : c = '"'
    · simp [hquote, labelChar, labels?]
    by_cases hline : c = '\n'
    · simp [hline, labelChar, labels?]
    · simp [labelChar, labels?, hslash, hquote]

/-- A label is read up to the quote that ends its value. -/
theorem labels?_pairChars {pair : String × String} (h : isMetricName pair.1) (rest : List Char) :
    labels? (.name []) (pairChars pair ++ rest) =
      labels? (.value pair.1.toList pair.2.toList) ('"' :: rest) := by
  rw [pairChars]
  simp only [List.append_assoc, List.cons_append]
  rw [labels?_name (canContinueName_of_isMetricName h), labels?_value]
  simp

/-- Labels are read up to the brace that closes them. -/
theorem labels?_intercalate {pair : String × String} {pairs : List (String × String)}
    (h : ∀ p ∈ pair :: pairs, isMetricName p.1) (rest : List Char) :
    labels? (.name []) ([','].intercalate ((pair :: pairs).map pairChars) ++ '\x7d' :: rest) =
      some (pair :: pairs, rest) := by
  induction pairs generalizing pair with
  | nil =>
    simp [List.intercalate, labels?_pairChars (h pair List.mem_cons_self), labels?]
  | cons next pairs ih =>
    have hpair : isMetricName pair.1 := h pair List.mem_cons_self
    have hread := ih fun p hp => h p (List.mem_cons_of_mem _ hp)
    simp only [List.map_cons, List.intercalate_cons_cons, List.append_assoc] at hread ⊢
    rw [labels?_pairChars hpair, List.singleton_append, labels?, hread]
    simp

/-- The line of a sample is read back. -/
theorem sample?_chars {name : String} {gauge : Sample} (h : (Line.sample name gauge).Proper) :
    sample? (Line.sample name gauge).chars = some (name, gauge) := by
  obtain ⟨hname, hlabels⟩ := h
  obtain ⟨labels, value⟩ := gauge
  simp only [sample?, Line.chars, pairsChars]
  split
  · rename_i hempty
    have hread := name?_append hname value.plainText.toList (c := ' ') (by decide)
    have : LabelSet.ofList [] = labels := by rw [← hempty, LabelSet.ofList_pairs]
    simp [hread, Binary64.ofText?_plainText, this]
  · rename_i hsome
    obtain ⟨pair, pairs, hpairs⟩ := List.exists_cons_of_ne_nil hsome
    rw [hpairs] at hlabels ⊢
    have hread := labels?_intercalate hlabels (' ' :: value.plainText.toList)
    have hchecked : (pair :: pairs).all (isMetricName ·.1) := List.all_eq_true.2 hlabels
    have hset : LabelSet.ofList (pair :: pairs) = labels := by
      rw [← hpairs, LabelSet.ofList_pairs]
    simp only [List.append_assoc, List.cons_append, List.nil_append]
    rw [name?_append hname _ (by decide)]
    simp [-List.map_cons, -List.all_cons, hread, hchecked, hset, Binary64.ofText?_plainText]

/-- No name begins like the lines that are not samples. -/
theorem isPrefixOf_hash {name : List Char} (h : isIdentifier name) (mark rest : List Char) :
    ('#' :: mark).isPrefixOf (name ++ rest) = false := by
  cases name with
  | nil => cases h
  | cons c more =>
    have hne : c ≠ '#' := by rintro rfl; revert h; simp [isIdentifier, canBeginName]
    simp [List.isPrefixOf, hne.symm]

/-- A proper line is read back. -/
theorem line?_chars {l : Line} (h : l.Proper) : line? l.chars = some l := by
  cases l with
  | help name text =>
    have hmark : helpMark.isPrefixOf (Line.help name text).chars :=
      List.isPrefixOf_iff_prefix.2 (by simp [Line.chars])
    have hread := name?_append h (text.toList.flatMap helpChar) (c := ' ') (by decide)
    rw [line?, if_pos hmark, Line.chars, List.append_assoc, List.drop_left, hread]
    simp [helpText?_flatMap]
  | type name =>
    have hother : ¬helpMark.isPrefixOf (Line.type name).chars := by
      simp [Line.chars, helpMark, typeMark, List.isPrefixOf]
    have hmark : typeMark.isPrefixOf (Line.type name).chars :=
      List.isPrefixOf_iff_prefix.2 (by simp [Line.chars])
    have hread : name? (name.toList ++ gaugeMark) = some (String.ofList name.toList, gaugeMark) :=
      name?_append h _ (by decide)
    rw [line?, if_neg hother, if_pos hmark, Line.chars, List.append_assoc, List.drop_left, hread]
    simp
  | sample name gauge =>
    have hcomment (mark : List Char) :
        ¬('#' :: mark).isPrefixOf (Line.sample name gauge).chars := by
      rw [Line.chars, List.append_assoc, isPrefixOf_hash h.1]
      exact Bool.false_ne_true
    have hhelp : ¬helpMark.isPrefixOf (Line.sample name gauge).chars := hcomment helpMark.tail
    have htype : ¬typeMark.isPrefixOf (Line.sample name gauge).chars := hcomment typeMark.tail
    rw [line?, if_neg hhelp, if_neg htype, sample?_chars h]
    rfl

theorem newline_notMem_helpChar (c : Char) : '\n' ∉ helpChar c := by
  unfold helpChar
  split <;> simp_all [eq_comm]

theorem newline_notMem_labelChar (c : Char) : '\n' ∉ labelChar c := by
  unfold labelChar
  split <;> simp_all [eq_comm]

theorem newline_notMem_pairChars {pair : String × String} (h : isMetricName pair.1) :
    '\n' ∉ pairChars pair := by
  have hname : '\n' ∉ pair.1.toList := fun hmem =>
    absurd (canContinueName_of_isMetricName h _ hmem) (by decide)
  simp [pairChars, hname, newline_notMem_labelChar]

theorem notMem_intercalate {c : Char} {parts : List (List Char)} (h : ∀ part ∈ parts, c ∉ part)
    {sep : List Char} (hsep : c ∉ sep) : c ∉ sep.intercalate parts := by
  induction parts with
  | nil => simp [List.intercalate]
  | cons part parts ih =>
    cases parts with
    | nil => simpa [List.intercalate] using h
    | cons next parts =>
      have hrest := ih fun p hp => h p (List.mem_cons_of_mem _ hp)
      simp [List.intercalate_cons_cons, hsep, hrest, h part List.mem_cons_self]

/-- No line holds a newline. -/
theorem newline_notMem_chars {l : Line} (h : l.Proper) : '\n' ∉ l.chars := by
  have hidentifier {name : List Char} (hname : isIdentifier name) : '\n' ∉ name := fun hmem =>
    absurd (isNameChar_of_isIdentifier hname _ hmem) (by decide)
  cases l with
  | help name text =>
    simp [Line.chars, hidentifier h, newline_notMem_helpChar, helpMark]
  | type name =>
    simp [Line.chars, hidentifier h, typeMark, gaugeMark]
  | sample name gauge =>
    have hlabels : '\n' ∉ pairsChars gauge.labels.pairs := by
      unfold pairsChars
      split
      · simp
      · have hpairs : ∀ cs ∈ gauge.labels.pairs.map pairChars, '\n' ∉ cs :=
          List.forall_mem_map.2 fun pair hmem => newline_notMem_pairChars (h.2 pair hmem)
        have hcomma : '\n' ∉ [','] := by decide
        simp [notMem_intercalate hpairs hcomma]
    simp [Line.chars, hidentifier h.1, hlabels, Binary64.newline_notMem_plainText]

/-! ## Texts -/

/-- How lines make a text. -/
def textOf (ls : List Line) : List Char := ls.flatMap fun l => l.chars ++ ['\n']

/-- A line is cut off at its end. -/
theorem lines?_append {line : List Char} (h : '\n' ∉ line) (rest : List Char) :
    lines? (line ++ '\n' :: rest) = (lines? rest).map (line :: ·) := by
  induction line with
  | nil => rw [List.nil_append, lines?]
  | cons c line ih =>
    obtain ⟨hc, hline⟩ := not_or.1 (List.mem_cons.not.1 h)
    rw [List.cons_append, lines?, ih hline]
    · cases lines? rest <;> rfl
    · exact Ne.symm hc

/-- A text is cut into the lines that it was made of. -/
theorem lines?_flatMap {lines : List (List Char)} (h : ∀ line ∈ lines, '\n' ∉ line) :
    lines? (lines.flatMap (· ++ ['\n'])) = some lines := by
  induction lines with
  | nil => rfl
  | cons line more ih =>
    have hmore := ih fun l hl => h l (List.mem_cons_of_mem _ hl)
    rw [List.flatMap_cons, List.append_assoc, List.singleton_append,
      lines?_append (h line List.mem_cons_self), hmore, Option.map_some]

/-- The lines of a text are read back. -/
theorem lines_textOf {ls : List Line} (h : ∀ l ∈ ls, l.Proper) :
    (lines? (textOf ls)).bind (·.mapM line?) = some ls := by
  have hcut : lines? (textOf ls) = some (ls.map Line.chars) := by
    rw [← lines?_flatMap, List.flatMap_map, textOf]
    simpa using fun l hl => newline_notMem_chars (h l hl)
  rw [hcut, Option.bind_some, List.mapM_map]
  clear hcut
  induction ls with
  | nil => rfl
  | cons l ls ih =>
    have hrest := ih fun l' hl' => h l' (List.mem_cons_of_mem _ hl')
    rw [List.mapM_cons, Function.comp_apply, line?_chars (h l List.mem_cons_self), hrest]
    rfl

/-! ## Families -/

/-- The lines of a family. -/
def familyLines (f : FamilySnapshot) : List Line :=
  (if f.help = "" then [] else [.help f.name f.help]) ++
    .type f.name :: f.samples.map (.sample f.name)

/-- Samples are gathered in front of the families that follow. -/
theorem collect_samples {rest : List Line} {families : List FamilySnapshot}
    (h : collect rest = some ([], families)) (name : String) (samples : List Sample) :
    collect (samples.map (.sample name) ++ rest) = some (samples.map (name, ·), families) := by
  induction samples with
  | nil => exact h
  | cons gauge samples ih => simp [collect, ih]

/-- The families of their lines are read back. -/
theorem collect_familyLines (families : List FamilySnapshot) :
    collect (families.flatMap familyLines) = some ([], families) := by
  induction families with
  | nil => rfl
  | cons f families ih =>
    have htype : collect (.type f.name :: (f.samples.map (.sample f.name) ++
        families.flatMap familyLines)) = some ([], { f with help := "" } :: families) := by
      rw [collect, collect_samples ih]
      simp [Function.comp_def]
    rw [List.flatMap_cons, familyLines, List.append_assoc, List.cons_append]
    split
    · rename_i hhelp
      rw [List.nil_append, htype, ← hhelp]
    · rw [List.singleton_append, collect, htype]
      simp

theorem toList_labelsText (labels : LabelSet) :
    (labelsText labels).toList = pairsChars labels.pairs := by
  have hpair : String.toList ∘ labelText = pairChars := by
    funext pair
    simp [labelText, escapeLabel, pairChars]
  by_cases h : labels.pairs = []
  · simp [labelsText, pairsChars, h]
  · simp [labelsText, pairsChars, h, String.toList_intercalate, hpair]

theorem toList_sampleLine (name : String) (gauge : Sample) :
    (sampleLine name gauge).toList = (Line.sample name gauge).chars ++ ['\n'] := by
  simp [sampleLine, Line.chars, toList_labelsText]

/-- The text of a family consists of its lines. -/
theorem toList_familyText (name : String) (f : FamilySnapshot) :
    (familyText name f).toList = textOf (familyLines { f with name }) := by
  have hhelp : (helpLine name f.help).toList =
      textOf (if f.help = "" then [] else [.help name f.help]) := by
    unfold helpLine
    by_cases h : f.help = ""
    · simp [h, textOf]
    · simp [h, textOf, Line.chars, helpMark, escapeHelp]
  have hsamples : (String.join (f.samples.map (sampleLine name))).toList =
      textOf (f.samples.map (.sample name)) := by
    simp [String.toList_join, textOf, List.flatMap_map, toList_sampleLine]
  simp only [familyText, familyLines, String.toList_append, hhelp, hsamples]
  simp [textOf, Line.chars, typeMark, gaugeMark]

/-! ## Snapshots -/

/-- What the text of a snapshot shows: the families that have samples, under their exposed names. -/
def exposed (snapshot : Snapshot) (namePrefix : Option String) : Snapshot :=
  (snapshot.filter (!·.samples.isEmpty)).map fun f =>
    { f with name := exposedName namePrefix f.name }

/-- A pass over a list fails at no element, so it does not fail. -/
theorem mapM_eq_ok {α β ε : Type} {f : α → Except ε β} {g : α → β} {as : List α}
    (h : ∀ a ∈ as, f a = .ok (g a)) : as.mapM f = .ok (as.map g) := by
  induction as with
  | nil => rfl
  | cons a as ih =>
    rw [List.mapM_cons, h a List.mem_cons_self, ih fun b hb => h b (List.mem_cons_of_mem _ hb)]
    rfl

/-- The text of a snapshot consists of the lines of the families it shows. -/
theorem render_eq {snapshot : Snapshot} {namePrefix : Option String}
    (named : ∀ f ∈ exposed snapshot namePrefix, f.name ≠ "") :
    render snapshot namePrefix =
      .ok (String.ofList (textOf ((exposed snapshot namePrefix).flatMap familyLines))) := by
  have hnamed := List.forall_mem_map.1 named
  rw [render]
  dsimp only
  rw [mapM_eq_ok (g := fun f => familyText (exposedName namePrefix f.name) f)]
  · refine congrArg Except.ok (String.toList_inj.1 ?_)
    simp [String.toList_join, exposed, List.flatMap_map, textOf, List.flatMap_assoc,
      toList_familyText]
  · intro f hf
    have hname : (exposedName namePrefix f.name).isEmpty = false := by simpa using hnamed f hf
    simp only [hname, Bool.false_eq_true, if_false]
    rfl

/-- Every family stands in a snapshot once, under the name of a metric, and the labels of its
samples have names of labels. -/
structure Named (snapshot : Snapshot) : Prop where
  distinct : (snapshot.map FamilySnapshot.name).Nodup
  families : ∀ f ∈ snapshot, isIdentifier f.name.toList
  labels : ∀ f ∈ snapshot, ∀ gauge ∈ f.samples, ∀ label ∈ gauge.labels.pairs, isMetricName label.1

theorem proper_familyLines {f : FamilySnapshot} (name : isIdentifier f.name.toList)
    (labels : ∀ gauge ∈ f.samples, ∀ label ∈ gauge.labels.pairs, isMetricName label.1) :
    ∀ l ∈ familyLines f, l.Proper := by
  intro l hl
  rcases List.mem_append.1 hl with hhelp | hrest
  · split at hhelp
    · cases hhelp
    · rw [List.mem_singleton.1 hhelp]
      exact name
  · rcases List.mem_cons.1 hrest with rfl | hsample
    · exact name
    · obtain ⟨gauge, hgauge, rfl⟩ := List.mem_map.1 hsample
      exact ⟨name, labels gauge hgauge⟩

/-- The lines of a named snapshot are read back, and so are its families. -/
theorem Named.read_lines {families : Snapshot} (h : Named families) :
    (lines? (textOf (families.flatMap familyLines))).bind (·.mapM line?) =
      some (families.flatMap familyLines) := by
  refine lines_textOf fun l hl => ?_
  obtain ⟨f, hf, hl⟩ := List.mem_flatMap.1 hl
  exact proper_familyLines (h.families f hf) (h.labels f hf) l hl

theorem Named.read {families : Snapshot} (h : Named families) :
    read? (String.ofList (textOf (families.flatMap familyLines))) = some families := by
  obtain ⟨lines, hcut, hread⟩ := Option.bind_eq_some_iff.1 h.read_lines
  simp [read?, hcut, hread, collect_familyLines, h.distinct]

theorem isIdentifier_exposedName {c : ExportConfig} (valid : c.violation? = none) {metric : String}
    (h : isIdentifier metric.toList) :
    isIdentifier (exposedName c.namePrefix metric).toList := by
  unfold ExportConfig.violation? at valid
  rcases hgiven : c.namePrefix with _ | p
  · exact h
  · have hp : isMetricName p := by
      by_contra hbad
      simp [hgiven, hbad] at valid
    have hrest : ∀ ch ∈ '_' :: metric.toList, isNameChar ch :=
      List.forall_mem_cons.2 ⟨by decide, isNameChar_of_isIdentifier h⟩
    simpa [exposedName] using isIdentifier_append (isIdentifier_of_isMetricName hp) hrest

theorem exposedName_injective (namePrefix : Option String) :
    Function.Injective (exposedName namePrefix) := by
  intro a b h
  cases namePrefix with
  | none => exact h
  | some p => simpa [exposedName, String.append_right_inj] using h

/-- What is shown of a named snapshot is named. -/
theorem Named.exposed {c : ExportConfig} (valid : c.violation? = none) {snapshot : Snapshot}
    (h : Named snapshot) : Named (exposed snapshot c.namePrefix) where
  distinct := by
    have hshown : ((snapshot.filter (!·.samples.isEmpty)).map FamilySnapshot.name).Nodup :=
      (List.filter_sublist.map FamilySnapshot.name).nodup h.distinct
    simpa [Exposition.exposed, Function.comp_def] using
      hshown.map (exposedName_injective c.namePrefix)
  families := List.forall_mem_map.2 fun f hf =>
    isIdentifier_exposedName valid (h.families f (List.mem_of_mem_filter hf))
  labels := List.forall_mem_map.2 fun f hf => h.labels f (List.mem_of_mem_filter hf)

/-- Two snapshots that show the same have the same families with samples. -/
theorem filter_congr_exposed {a b : Snapshot} {namePrefix : Option String}
    (h : exposed a namePrefix = exposed b namePrefix) :
    a.filter (!·.samples.isEmpty) = b.filter (!·.samples.isEmpty) := by
  refine List.map_injective_iff.2 (fun f g hfg => ?_) h
  cases f
  cases g
  simp only [FamilySnapshot.mk.injEq] at hfg ⊢
  exact ⟨exposedName_injective namePrefix hfg.1, hfg.2⟩

end Exposition

/-! ## What is published -/

namespace Registry

/-- The samples of a family, in the order of label sets. -/
def samples (r : Registry) (metric : String) : List Sample :=
  (r.family metric).cells.toList.map fun (labels, value) => ⟨labels, value⟩

variable (r : Registry)

theorem mem_samples {metric : String} {gauge : Sample} :
    gauge ∈ r.samples metric ↔ r.get? metric gauge.labels = some gauge.value := by
  rw [get?, ← Std.ExtTreeMap.mem_toList_iff_getElem?_eq_some, samples, List.mem_map]
  constructor
  · rintro ⟨_, hmem, rfl⟩
    exact hmem
  · exact fun hmem => ⟨_, hmem, rfl⟩

/-- What a snapshot lists of a family is what the look-ups tell. -/
theorem mem_snapshot_iff {f : FamilySnapshot} :
    f ∈ r.snapshot ↔ r.help? f.name = some f.help ∧ f.samples = r.samples f.name := by
  rw [snapshot, List.mem_map]
  constructor
  · rintro ⟨⟨name, found⟩, hmem, rfl⟩
    have hfound := Std.ExtTreeMap.mem_toList_iff_getElem?_eq_some.1 hmem
    simp [help?, samples, family, hfound]
  · rintro ⟨hhelp, hsamples⟩
    obtain ⟨found, hfound, hhelp⟩ := Option.map_eq_some_iff.1 hhelp
    refine ⟨(f.name, found), Std.ExtTreeMap.mem_toList_iff_getElem?_eq_some.2 hfound, ?_⟩
    obtain ⟨name, help, listed⟩ := f
    simp_all [samples, family]

theorem nodup_snapshot : (r.snapshot.map FamilySnapshot.name).Nodup := by
  have hdistinct := r.families.distinct_keys_toList
  rw [snapshot, List.map_map, List.Nodup, List.pairwise_map]
  exact hdistinct.imp fun hne heq => hne (Std.compare_eq_iff_eq.2 heq)

end Registry

/-- What follows the schema has the names that are declared. -/
theorem Vitals.Schema.named {subject : ObjectKey} {v : Vitals} (h : v.Schema subject) :
    Exposition.Named v.registry.snapshot := by
  have hdeclared : ∀ f ∈ v.registry.snapshot, ∃ d ∈ Metrics.families, d.name = f.name := by
    intro f hf
    have hhelp := Option.isSome_of_eq_some (v.registry.mem_snapshot_iff.1 hf).1
    rw [h.families, Metrics.declaredHelp?, Option.isSome_map] at hhelp
    simpa using hhelp
  refine ⟨v.registry.nodup_snapshot, fun f hf => ?_, fun f hf gauge hgauge label hlabel => ?_⟩
  · obtain ⟨d, hd, hname⟩ := hdeclared f hf
    have hall : ∀ d ∈ Metrics.families, Exposition.isIdentifier d.name.toList := by decide
    exact hname ▸ hall d hd
  · obtain ⟨d, hd, hname⟩ := hdeclared f hf
    rw [(v.registry.mem_snapshot_iff.1 hf).2, Registry.mem_samples, ← hname] at hgauge
    have hnames := h.labelled d hd gauge.labels (Option.isSome_of_eq_some hgauge)
    have hmem : label.1 ∈ d.labels := hnames.mem_iff.1 (List.mem_map_of_mem hlabel)
    have hall : ∀ d ∈ Metrics.families, ∀ name ∈ d.labels, isMetricName name := by decide
    exact hall d hd label.1 hmem

namespace Exposition

/-- What is exposed tells what it was made of. -/
structure Faithful (c : ExportConfig) : Prop where
  /-- There is a text, and it is read back as the families that have samples, in their order. -/
  read_back : ∀ snapshot, Named snapshot → ∃ text,
    render snapshot c.namePrefix = .ok text ∧ read? text = some (exposed snapshot c.namePrefix)
  /-- The names in it are names of metrics, of labels, and of one family each. -/
  named : ∀ snapshot, Named snapshot → Named (exposed snapshot c.namePrefix)
  /-- Its lines are those of the families, with one for each sample. -/
  lines : ∀ snapshot text, Named snapshot → render snapshot c.namePrefix = .ok text →
    (lines? text.toList).bind (·.mapM line?) =
      some ((exposed snapshot c.namePrefix).flatMap familyLines)
  /-- Snapshots with the same text have the same families with samples. -/
  injective : ∀ a b, Named a → Named b → render a c.namePrefix = render b c.namePrefix →
    a.filter (!·.samples.isEmpty) = b.filter (!·.samples.isEmpty)
  /-- What a controller publishes has the names for this. -/
  published : ∀ (controller : Controller) clock events,
    Named (controller.run (.initial clock) events).1.vitals.registry.snapshot

theorem Named.render {c : ExportConfig} (valid : c.violation? = none) {snapshot : Snapshot}
    (h : Named snapshot) : render snapshot c.namePrefix = .ok (String.ofList (textOf
      ((Exposition.exposed snapshot c.namePrefix).flatMap familyLines))) := by
  refine render_eq fun f hf hempty => ?_
  have hname := (h.exposed valid).families f hf
  rw [hempty] at hname
  cases hname

theorem faithful (c : ExportConfig) (valid : c.violation? = none) : Faithful c where
  read_back snapshot h := ⟨_, h.render valid, (h.exposed valid).read⟩
  named snapshot h := h.exposed valid
  lines snapshot text h htext := by
    rw [h.render valid] at htext
    obtain rfl := Except.ok.inj htext
    rw [String.toList_ofList]
    exact (h.exposed valid).read_lines
  injective a b ha hb hsame := by
    rw [ha.render valid, hb.render valid] at hsame
    have hread := (ha.exposed valid).read
    rw [Except.ok.inj hsame, (hb.exposed valid).read] at hread
    exact filter_congr_exposed (Option.some.inj hread).symm
  published controller clock events := (controller.schema_run clock events).named

/-- Texts that look like ends of values and like other lines, and a gauge that is not a number. -/
def hostile : Snapshot :=
  [⟨"quiet", "no samples", []⟩,
    ⟨"restarts", "first \\ line\n# TYPE restarts gauge\nrestarts 1",
      [⟨.ofList [("pod", "web-0\"\x7d 1\nrestarts\x7bpod=\"web-1"), ("reason", "\\n\",\\")], .nan⟩,
        ⟨.empty, .zero true⟩]⟩]

theorem named_hostile : Named hostile := ⟨by decide, by decide, by decide⟩

theorem faithful_hostile :
    (ExportConfig.mk (some "pod_monitor")).violation? = none ∧
      ∃ text, render hostile (some "pod_monitor") = .ok text ∧
        read? text = some (exposed hostile (some "pod_monitor")) :=
  ⟨by decide, (faithful ⟨some "pod_monitor"⟩ (by decide)).read_back hostile named_hostile⟩

end Exposition

end ClusterVitals
