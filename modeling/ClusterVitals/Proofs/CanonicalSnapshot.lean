import ClusterVitals.Proofs.FaithfulExposition
import ClusterVitals.Proofs.RegistryHistory
import Mathlib.Data.List.Sort

/-!
# Canonical snapshots

A snapshot tells what a registry holds and nothing of how it came about. Histories that leave the
same values and the same help texts are exposed as the same text, whatever was set, removed and set
again in them, and operations on different gauges can be told in any order.

## Shape of the proofs

A registry is what its families and gauges show (`Registry.ext_shown`), so operations commute as
soon as their look-ups do, and a reordering changes no registry (`Reordered.after_eq`). What a
snapshot lists is told by look-ups as well (`mem_snapshot_iff`), and it is listed in strictly
ascending order, which leaves one list for each set of families.
-/

namespace ClusterVitals

/-! ## The order of what is listed -/

namespace LabelSet

/-- The order of label sets: pair by pair, by name and then by value, a proper beginning first. -/
def Precedes (a b : LabelSet) : Prop :=
  List.Lex (Prod.Lex (· < ·) (· < ·)) a.pairs b.pairs

theorem comparePairs_eq_lt_iff {p q : String × String} :
    comparePairs p q = .lt ↔ Prod.Lex (· < ·) (· < ·) p q := by
  simp only [comparePairs, compareLex, compareOn, Ordering.then_eq_lt, Std.compare_eq_iff_eq,
    Prod.lex_def]
  exact or_congr compareOfLessAndEq_eq_lt (and_congr_right fun _ => compareOfLessAndEq_eq_lt)

theorem compareLex_eq_lt_iff {ps qs : List (String × String)} :
    List.compareLex comparePairs ps qs = .lt ↔ List.Lex (Prod.Lex (· < ·) (· < ·)) ps qs := by
  induction ps generalizing qs with
  | nil => cases qs <;> simp [List.compareLex]
  | cons p ps ih =>
    cases qs with
    | nil => simp [List.compareLex]
    | cons q qs =>
      rw [List.compareLex_cons_cons, Ordering.then_eq_lt, comparePairs_eq_lt_iff, ih,
        Std.LawfulEqCmp.compare_eq_iff_eq]
      constructor
      · rintro (hlt | ⟨rfl, hrest⟩)
        · exact .rel hlt
        · exact .cons hrest
      · rintro (_ | hlt | hrest)
        · exact .inl hlt
        · exact .inr ⟨rfl, hrest⟩

theorem compare_eq_lt_iff {a b : LabelSet} : compare a b = .lt ↔ a.Precedes b :=
  compareLex_eq_lt_iff

theorem not_precedes_self (labels : LabelSet) : ¬labels.Precedes labels := by
  rw [← compare_eq_lt_iff, Std.compare_self]
  exact Ordering.noConfusion

end LabelSet

namespace Registry

/-! ## What a snapshot lists, and in which order -/

section

variable (r : Registry)

theorem ascending_samples (metric : String) :
    (r.samples metric).Pairwise fun a b => a.labels.Precedes b.labels := by
  rw [samples, List.pairwise_map]
  exact Std.ExtTreeMap.ordered_keys_toList.imp LabelSet.compare_eq_lt_iff.1

theorem nodup_samples (metric : String) : (r.samples metric).Nodup := by
  refine (r.ascending_samples metric).imp ?_
  rintro gauge _ hlt rfl
  exact LabelSet.not_precedes_self gauge.labels hlt

theorem ascending_snapshot : r.snapshot.Pairwise fun f g => f.name < g.name := by
  rw [snapshot, List.pairwise_map]
  refine Std.ExtTreeMap.ordered_keys_toList.imp ?_
  exact fun hlt => compareOfLessAndEq_eq_lt.1 hlt

theorem mem_names_snapshot {metric : String} :
    metric ∈ r.snapshot.map FamilySnapshot.name ↔ (r.help? metric).isSome := by
  rw [List.mem_map, Option.isSome_iff_exists]
  constructor
  · rintro ⟨f, hmem, rfl⟩
    exact ⟨f.help, (r.mem_snapshot_iff.1 hmem).1⟩
  · rintro ⟨help, hhelp⟩
    exact ⟨⟨metric, help, r.samples metric⟩, r.mem_snapshot_iff.2 ⟨hhelp, rfl⟩, rfl⟩

/-- A family with a sample is there. -/
theorem isSome_help?_of_get? {metric : String} {labels : LabelSet} {value : Binary64}
    (held : r.get? metric labels = some value) : (r.help? metric).isSome := by
  rw [help?, Option.isSome_map, Option.isSome_iff_ne_none]
  intro hnone
  simp [get?, family, hnone, Family.empty] at held

end

/-- The samples of a family are those that its gauges show. -/
theorem samples_congr {r s : Registry} {metric : String}
    (gauges : ∀ labels, r.get? metric labels = s.get? metric labels) :
    r.samples metric = s.samples metric := by
  have hcells : (r.family metric).cells = (s.family metric).cells :=
    Std.ExtTreeMap.ext_getElem? gauges
  rw [samples, samples, hcells]

/-- Registries with the same gauges, and with the same help text where there are gauges, list the
same families with samples. -/
theorem shown_congr {r s : Registry}
    (gauges : ∀ metric labels, r.get? metric labels = s.get? metric labels)
    (help : ∀ metric, (r.help? metric).getD "" = (s.help? metric).getD "") :
    r.snapshot.filter (!·.samples.isEmpty) = s.snapshot.filter (!·.samples.isEmpty) := by
  have hmem {r s : Registry}
      (gauges : ∀ metric labels, r.get? metric labels = s.get? metric labels)
      (help : ∀ metric, (r.help? metric).getD "" = (s.help? metric).getD "")
      {f : FamilySnapshot} (hf : f ∈ r.snapshot) (hsamples : !f.samples.isEmpty) :
      f ∈ s.snapshot := by
    obtain ⟨hhelp, hlisted⟩ := r.mem_snapshot_iff.1 hf
    obtain ⟨gauge, hgauge⟩ := List.exists_mem_of_ne_nil f.samples (by simpa using hsamples)
    -- the gauge shows that the family is there, and its help text is the same
    rw [hlisted, mem_samples, gauges] at hgauge
    obtain ⟨text, htext⟩ := Option.isSome_iff_exists.1 (s.isSome_help?_of_get? hgauge)
    have hsame := help f.name
    rw [hhelp, htext, Option.getD_some, Option.getD_some] at hsame
    exact s.mem_snapshot_iff.2 ⟨hsame ▸ htext, hlisted.trans (samples_congr (gauges f.name))⟩
  have : Std.Antisymm fun f g : FamilySnapshot => f.name < g.name :=
    ⟨fun _ _ h h' => absurd h' (String.lt_asymm h)⟩
  have : Std.Irrefl fun f g : FamilySnapshot => f.name < g.name := ⟨fun _ => String.lt_irrefl _⟩
  refine (r.ascending_snapshot.filter _).eq_of_mem_iff (s.ascending_snapshot.filter _) fun f => ?_
  rw [List.mem_filter, List.mem_filter]
  exact and_congr_left fun hsamples => ⟨fun hf => hmem gauges help hf hsamples,
    fun hf => hmem (fun m l => (gauges m l).symm) (fun m => (help m).symm) hf hsamples⟩

/-! ## Families in a history -/

/-- The help text that an operation declares for a family. -/
def Operation.helpFor? (metric : String) : Operation → Option String
  | declare m help => if m = metric then some help else none
  | _ => none

/-- The operation declares a family, or sets one of its gauges. -/
def Operation.Founds (metric : String) : Operation → Prop
  | declare m _ => m = metric
  | set m _ _ => m = metric
  | delete .. => False

instance (metric : String) : DecidablePred (Operation.Founds metric)
  | .declare m _ => inferInstanceAs (Decidable (m = metric))
  | .set m _ _ => inferInstanceAs (Decidable (m = metric))
  | .delete .. => inferInstanceAs (Decidable False)

/-- The help text that was declared last for a family; empty if there was none. -/
def lastHelp (ops : List Operation) (metric : String) : String :=
  (ops.filterMap (Operation.helpFor? metric)).getLast?.getD ""

/-- A family was declared, or one of its gauges was set. -/
def Known (ops : List Operation) (metric : String) : Prop := ∃ op ∈ ops, op.Founds metric

theorem Operation.helpFor?_of_not_founds {op : Operation} {metric : String}
    (h : ¬op.Founds metric) : op.helpFor? metric = none := by
  cases op with
  | declare m help => exact if_neg h
  | set m labels value => rfl
  | delete m subset => rfl

/-- What an operation does to the help text of a family. -/
theorem help?_perform (r : Registry) (op : Operation) (metric : String) :
    (r.perform op).help? metric =
      if op.Founds metric then some ((op.helpFor? metric).getD ((r.help? metric).getD ""))
      else r.help? metric := by
  cases op with
  | declare m help =>
    rw [perform, help?_declare]
    by_cases h : m = metric <;> simp [h, Operation.Founds, Operation.helpFor?]
  | set m labels value =>
    rw [perform, help?_set]
    by_cases h : m = metric <;> simp [h, Operation.Founds, Operation.helpFor?]
  | delete m subset =>
    rw [perform, help?_deleteMatching]
    rfl

theorem lastHelp_concat (ops : List Operation) (op : Operation) (metric : String) :
    lastHelp (ops ++ [op]) metric = (op.helpFor? metric).getD (lastHelp ops metric) := by
  rw [lastHelp, List.filterMap_append]
  cases h : op.helpFor? metric <;> simp [h, lastHelp]

/-- A family shows the help text that was declared last. -/
theorem help?_after (ops : List Operation) (metric : String) :
    ((empty.after ops).help? metric).getD "" = lastHelp ops metric := by
  induction ops using List.reverseRecOn with
  | nil => simp [after, help?, empty, lastHelp]
  | append_singleton ops op ih =>
    rw [after_concat, lastHelp_concat, ← ih, help?_perform]
    split
    · rfl
    · rename_i h
      rw [Operation.helpFor?_of_not_founds h, Option.getD_none]

/-- The families that are there are those that were declared or set. -/
theorem isSome_help?_after (ops : List Operation) (metric : String) :
    ((empty.after ops).help? metric).isSome ↔ Known ops metric := by
  induction ops using List.reverseRecOn with
  | nil => simp [after, help?, empty, Known]
  | append_singleton ops op ih =>
    have hknown : Known (ops ++ [op]) metric ↔ Known ops metric ∨ op.Founds metric := by
      simp [Known, or_and_right, exists_or]
    rw [after_concat, hknown, ← ih, help?_perform]
    split <;> simp_all

/-! ## Reordering -/

/-- There is no gauge that both operations write, and no family that both declare. -/
def Operation.Apart (a b : Operation) : Prop :=
  (∀ metric labels, ¬(a.Writes metric labels ∧ b.Writes metric labels)) ∧
    ∀ metric, ¬((a.helpFor? metric).isSome ∧ (b.helpFor? metric).isSome)

/-- The same operations in an order that differs only where neighbours that are apart have changed
places. -/
inductive Reordered : List Operation → List Operation → Prop where
  | refl (ops : List Operation) : Reordered ops ops
  | swap (before : List Operation) {a b : Operation} (rest : List Operation) (apart : a.Apart b) :
      Reordered (before ++ a :: b :: rest) (before ++ b :: a :: rest)
  | trans {ops mid ops' : List Operation} (first : Reordered ops mid) (second : Reordered mid ops') :
      Reordered ops ops'

/-- Operations that are apart can be performed in either order. -/
theorem perform_comm {a b : Operation} (apart : a.Apart b) (r : Registry) :
    (r.perform a).perform b = (r.perform b).perform a := by
  refine ext_shown (fun metric => ?_) fun metric labels => ?_
  · have hdeclared := apart.2 metric
    simp only [help?_perform]
    -- of two help texts for one family at most one is declared, and the other is kept
    cases ha : a.helpFor? metric <;> cases hb : b.helpFor? metric <;> split_ifs <;> simp_all
  · refine Option.ext fun value => ?_
    have ha : a = .set metric labels value → a.Writes metric labels := fun h => h ▸ ⟨rfl, rfl⟩
    have hb : b = .set metric labels value → b.Writes metric labels := fun h => h ▸ ⟨rfl, rfl⟩
    have hwritten := apart.1 metric labels
    simp only [get?_perform_eq_some_iff]
    tauto

/-- A reordering leaves the same registry. -/
theorem Reordered.after_eq {ops ops' : List Operation} (h : Reordered ops ops') (r : Registry) :
    r.after ops = r.after ops' := by
  induction h generalizing r with
  | refl => rfl
  | swap before rest apart =>
    simp only [after, List.foldl_append, List.foldl_cons]
    rw [perform_comm apart]
  | trans _ _ ih ih' => exact (ih r).trans (ih' r)

/-! ## The law of snapshots -/

/-- Histories leave the same values, and the same help texts. -/
structure Agree (ops ops' : List Operation) : Prop where
  values : ∀ metric labels value, Holds ops metric labels value ↔ Holds ops' metric labels value
  helps : ∀ metric, lastHelp ops metric = lastHelp ops' metric

variable {ops ops' : List Operation}

theorem Agree.get? (h : Agree ops ops') (metric : String) (labels : LabelSet) :
    (empty.after ops).get? metric labels = (empty.after ops').get? metric labels :=
  Option.ext fun value => by
    rw [get?_after get?_empty, get?_after get?_empty, h.values]

theorem Agree.help? (h : Agree ops ops') (metric : String) :
    ((empty.after ops).help? metric).getD "" = ((empty.after ops').help? metric).getD "" := by
  rw [help?_after, help?_after, h.helps]

/-- Histories that agree and know the same families leave the same registry. -/
theorem Agree.after_eq (h : Agree ops ops') (known : ∀ metric, Known ops metric ↔ Known ops' metric) :
    empty.after ops = empty.after ops' := by
  refine ext_shown (fun metric => ?_) h.get?
  have hsome := (isSome_help?_after ops metric).trans
    ((known metric).trans (isSome_help?_after ops' metric).symm)
  have hhelp := h.help? metric
  rcases hops : (empty.after ops).help? metric with _ | text <;>
    rcases hops' : (empty.after ops').help? metric with _ | text' <;>
    simp_all

/-- The declarations of the published families. -/
def declarations : List Operation := Metrics.families.map fun d => .declare d.name d.help

/-- A registry with the published families declared is one of those that declarations leave. -/
theorem after_standard (ops : List Operation) :
    standard.after ops = empty.after (declarations ++ ops) := by
  rw [after, after, List.foldl_append, declarations, List.foldl_map]
  rfl

/-- The text of a snapshot tells the families with samples only. -/
theorem render_congr {a b : Snapshot}
    (h : a.filter (!·.samples.isEmpty) = b.filter (!·.samples.isEmpty))
    (namePrefix : Option String) :
    Exposition.render a namePrefix = Exposition.render b namePrefix := by
  rw [Exposition.render, Exposition.render, h]

/-- What the snapshot after operations lists, in terms of the operations alone. -/
structure SnapshotLaw (ops : List Operation) : Prop where
  /-- Families stand in strictly ascending order of their names. -/
  families_ascending : (empty.after ops).snapshot.Pairwise fun f g => f.name < g.name
  /-- Their samples stand in strictly ascending order of label sets. -/
  samples_ascending : ∀ f ∈ (empty.after ops).snapshot,
    f.samples.Pairwise fun a b => a.labels.Precedes b.labels
  /-- A family that was declared or set stands there once. -/
  families_once : ∀ metric, Known ops metric →
    ((empty.after ops).snapshot.map FamilySnapshot.name).count metric = 1
  /-- There is no other family. -/
  families_known : ∀ f ∈ (empty.after ops).snapshot, Known ops f.name
  /-- A family has the help text that was declared last. -/
  helps : ∀ f ∈ (empty.after ops).snapshot, f.help = lastHelp ops f.name
  /-- A gauge with a value stands once in its family, with this value. -/
  samples_once : ∀ metric labels value, Holds ops metric labels value →
    ∃ f ∈ (empty.after ops).snapshot, f.name = metric ∧ f.samples.count ⟨labels, value⟩ = 1
  /-- There is no other sample. -/
  samples_held : ∀ f ∈ (empty.after ops).snapshot, ∀ gauge ∈ f.samples,
    Holds ops f.name gauge.labels gauge.value
  /-- Histories that leave the same values and help texts are exposed as the same text. -/
  same_text : ∀ ops', Agree ops ops' → ∀ namePrefix,
    Exposition.render (empty.after ops).snapshot namePrefix =
      Exposition.render (empty.after ops').snapshot namePrefix
  /-- Their snapshots are the same if they have declared or set the same families. -/
  same_snapshot : ∀ ops', Agree ops ops' → (∀ metric, Known ops metric ↔ Known ops' metric) →
    (empty.after ops).snapshot = (empty.after ops').snapshot
  /-- The order of operations on different gauges is not seen. -/
  reordered : ∀ ops', Reordered ops ops' →
    (empty.after ops).snapshot = (empty.after ops').snapshot ∧ ∀ namePrefix,
      Exposition.render (empty.after ops).snapshot namePrefix =
        Exposition.render (empty.after ops').snapshot namePrefix
  /-- A registry that starts with the published families has the history of their declarations. -/
  predeclared : standard.after ops = empty.after (declarations ++ ops)

/-- The snapshot of a registry is the same for every history that leaves the same. -/
theorem canonical_snapshot (ops : List Operation) : SnapshotLaw ops where
  families_ascending := ascending_snapshot _
  samples_ascending f hf := ((mem_snapshot_iff _).1 hf).2 ▸ ascending_samples _ f.name
  families_once metric known := by
    refine List.count_eq_one_of_mem (nodup_snapshot _) ?_
    rwa [mem_names_snapshot, isSome_help?_after]
  families_known f hf := by
    rw [← isSome_help?_after, ((mem_snapshot_iff _).1 hf).1]
    rfl
  helps f hf := by
    rw [← help?_after, ((mem_snapshot_iff _).1 hf).1, Option.getD_some]
  samples_once metric labels value held := by
    rw [← get?_after get?_empty] at held
    obtain ⟨help, hhelp⟩ := Option.isSome_iff_exists.1 (isSome_help?_of_get? _ held)
    refine ⟨⟨metric, help, samples _ metric⟩, (mem_snapshot_iff _).2 ⟨hhelp, rfl⟩, rfl, ?_⟩
    exact List.count_eq_one_of_mem (nodup_samples _ metric) ((mem_samples _).2 held)
  samples_held f hf gauge hgauge := by
    rw [((mem_snapshot_iff _).1 hf).2, mem_samples] at hgauge
    exact (get?_after get?_empty ops _ _ _).1 hgauge
  same_text ops' agree := render_congr (shown_congr agree.get? agree.help?)
  same_snapshot ops' agree known := by rw [agree.after_eq known]
  reordered ops' h := by rw [h.after_eq empty]; exact ⟨rfl, fun _ => rfl⟩
  predeclared := after_standard ops

end Registry

end ClusterVitals
