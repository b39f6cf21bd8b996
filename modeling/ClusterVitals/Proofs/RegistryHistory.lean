import ClusterVitals.Proofs.Schema
import Mathlib.Data.List.Dedup
import Mathlib.Data.Set.Card

/-!
# The registry and the history of a gauge

What the registry holds of a gauge depends on the last operation that wrote it: the value that was
set, or nothing once a removal has taken it. All handles on a registry share it, so a history is the
operations of all of them in the order in which they take effect.

## Shape of the proofs

A label set is the values that it gives to names (`LabelSet.ext_get?`), and one contains another if
it has all its pairs. Operations are taken from the last one back: `holds_concat` says what one more
operation does to the history of a gauge, and `get?_after` is the one induction on the registry.
What a family lists is what its gauges show (`mem_find`), so `LastWriteLaw` follows.
-/

namespace ClusterVitals

/-! ## Label sets as values of names -/

namespace LabelSet

theorem get?_eq_some_iff {labels : LabelSet} {name value : String} :
    labels.get? name = some value ↔ (name, value) ∈ labels.pairs := by
  obtain ⟨pairs, sorted⟩ := labels
  rw [get?]
  induction pairs with
  | nil => simp
  | cons p rest ih =>
    obtain ⟨hbelow, hrest⟩ := List.pairwise_cons.1 sorted
    by_cases hname : p.1 = name
    · -- no pair behind the first one has its name
      subst hname
      have hbehind : (p.1, value) ∉ rest :=
        fun hmem => String.lt_irrefl _ (hbelow (p.1, value) hmem)
      rw [List.find?_cons_of_pos (by simp), List.mem_cons, or_iff_left hbehind]
      simp [Prod.ext_iff, eq_comm]
    · have hne : (name, value) ≠ p := fun h => hname (h ▸ rfl)
      rw [List.find?_cons_of_neg (by simpa using hname), List.mem_cons, or_iff_right hne]
      exact ih hrest

/-- A label set contains another one if it has all its labels. -/
theorem contains_iff_subset {labels subset : LabelSet} :
    labels.contains subset ↔ subset.pairs ⊆ labels.pairs := by
  simp [contains, List.all_eq_true, List.subset_def, get?_eq_some_iff]

theorem contains_trans {labels middle subset : LabelSet} (h : labels.contains middle)
    (h' : middle.contains subset) : labels.contains subset :=
  contains_iff_subset.2 (List.Subset.trans (contains_iff_subset.1 h') (contains_iff_subset.1 h))

/-- A label set is the values that it gives to names. -/
theorem ext_get? {a b : LabelSet} (h : ∀ name, a.get? name = b.get? name) : a = b := by
  have hmem : ∀ p, p ∈ a.pairs ↔ p ∈ b.pairs := by
    rintro ⟨name, value⟩
    rw [← get?_eq_some_iff, ← get?_eq_some_iff, h name]
  have hpairs : a.pairs = b.pairs := by
    refine List.Perm.eq_of_pairwise ?_ a.sorted b.sorted ?_
    · exact fun p q _ _ hpq hqp => absurd hqp (String.lt_asymm hpq)
    · have hnodup (labels : LabelSet) : labels.pairs.Nodup :=
        labels.sorted.imp fun {_ _} hlt heq => String.ne_of_lt hlt (congrArg Prod.fst heq)
      exact (List.perm_ext_iff_of_nodup (hnodup a) (hnodup b)).2 hmem
  cases a
  cases b
  congr

/-- The value that pairs give to a name last. -/
def lastValue? (pairs : List (String × String)) (name : String) : Option String :=
  (pairs.reverse.find? (·.1 = name)).map (·.2)

theorem get?_ofList (pairs : List (String × String)) (name : String) :
    (ofList pairs).get? name = lastValue? pairs name := by
  induction pairs using List.reverseRecOn with
  | nil => rfl
  | append_singleton pairs p ih =>
    rw [ofList, List.foldl_append, List.foldl_cons, List.foldl_nil, get?_insert, lastValue?,
      List.reverse_concat]
    by_cases hname : p.1 = name
    · rw [if_pos hname, List.find?_cons_of_pos (by simpa using hname)]
      rfl
    · rw [if_neg hname, List.find?_cons_of_neg (by simpa using hname)]
      exact ih

/-- Pairs make the same label set exactly if they give the same last value to each name. -/
theorem ofList_eq_ofList_iff {pairs pairs' : List (String × String)} :
    ofList pairs = ofList pairs' ↔ ∀ name, lastValue? pairs name = lastValue? pairs' name := by
  simp only [← get?_ofList]
  exact ⟨fun h name => h ▸ rfl, ext_get?⟩

/-- Pairs with different names make the same label set in any order. -/
theorem ofList_eq_of_perm {pairs pairs' : List (String × String)} (perm : pairs.Perm pairs')
    (distinct : (pairs.map Prod.fst).Nodup) : ofList pairs = ofList pairs' := by
  refine perm.foldl_eq' (fun p hp q hq labels => ?_) empty
  by_cases heq : p = q
  · rw [heq]
  · -- different pairs of the list have different names, so they are inserted in either order
    have hname : p.1 ≠ q.1 := fun h => heq (List.inj_on_of_nodup_map distinct hp hq h)
    refine ext_get? fun name => ?_
    simp only [get?_insert]
    split <;> split <;> simp_all

end LabelSet

namespace Registry

/-! ## Histories -/

/-- What can be done to a registry. -/
inductive Operation where
  | declare (metric help : String)
  | set (metric : String) (labels : LabelSet) (value : Binary64)
  | delete (metric : String) (subset : LabelSet)

/-- The operation sets a gauge, or removes it. -/
def Operation.Writes (metric : String) (labels : LabelSet) : Operation → Prop
  | declare .. => False
  | set m l _ => m = metric ∧ l = labels
  | delete m subset => m = metric ∧ labels.contains subset

/-- The registry after an operation. -/
def perform (r : Registry) : Operation → Registry
  | .declare metric help => r.declare metric help
  | .set metric labels value => r.set metric labels value
  | .delete metric subset => (r.deleteMatching metric subset).1

/-- The registry after operations. -/
def after (r : Registry) (ops : List Operation) : Registry := ops.foldl perform r

/-- Operations leave a gauge with a value: they set it, and do not write it after that. -/
def Holds (ops : List Operation) (metric : String) (labels : LabelSet) (value : Binary64) : Prop :=
  ∃ before rest, ops = before ++ .set metric labels value :: rest ∧
    ∀ op ∈ rest, ¬op.Writes metric labels

theorem after_concat (r : Registry) (ops : List Operation) (op : Operation) :
    r.after (ops ++ [op]) = (r.after ops).perform op := by
  simp [after]

/-- What one more operation does to a gauge: it sets it, or it leaves the value that it had. -/
theorem holds_concat {ops : List Operation} {op : Operation} {metric : String} {labels : LabelSet}
    {value : Binary64} :
    Holds (ops ++ [op]) metric labels value ↔
      op = .set metric labels value ∨
        (¬op.Writes metric labels ∧ Holds ops metric labels value) := by
  constructor
  · rintro ⟨before, rest, hops, hrest⟩
    rcases List.eq_nil_or_concat rest with rfl | ⟨rest, last, rfl⟩
    · exact .inl (List.head_eq_of_cons_eq (List.append_inj' hops rfl).2)
    · rw [List.concat_eq_append] at hops hrest
      rw [← List.cons_append, ← List.append_assoc] at hops
      obtain ⟨rfl, hlast⟩ := List.append_inj' hops rfl
      obtain rfl := List.head_eq_of_cons_eq hlast
      exact .inr ⟨hrest op (by simp), before, rest, rfl, fun o ho => hrest o (by simp [ho])⟩
  · rintro (rfl | ⟨hkept, before, rest, rfl, hrest⟩)
    · exact ⟨ops, [], rfl, by simp⟩
    · refine ⟨before, rest ++ [op], by simp, ?_⟩
      simpa [or_imp, forall_and] using ⟨hrest, hkept⟩

/-- What an operation does to a gauge. -/
theorem get?_perform_eq_some_iff {r : Registry} {op : Operation} {metric : String}
    {labels : LabelSet} {value : Binary64} :
    (r.perform op).get? metric labels = some value ↔
      op = .set metric labels value ∨
        (¬op.Writes metric labels ∧ r.get? metric labels = some value) := by
  cases op with
  | declare name help => simp [perform, Operation.Writes]
  | set name ls v =>
    rw [perform, get?_set, Operation.set.injEq, Operation.Writes]
    split <;> simp_all
  | delete name subset =>
    rw [perform, get?_deleteMatching, Operation.Writes]
    split <;> simp_all

/-- A registry that starts without gauges shows the values that operations leave. -/
theorem get?_after {start : Registry} (fresh : ∀ metric labels, start.get? metric labels = none)
    (ops : List Operation) (metric : String) (labels : LabelSet) (value : Binary64) :
    (start.after ops).get? metric labels = some value ↔ Holds ops metric labels value := by
  induction ops using List.reverseRecOn with
  | nil => simp [after, fresh, Holds]
  | append_singleton ops op ih => rw [after_concat, get?_perform_eq_some_iff, holds_concat, ih]

/-- Setting a gauge keeps the help texts of the families that are there. -/
theorem help?_set_of_there {r : Registry} {metric other help : String} {labels : LabelSet}
    {value : Binary64} (there : r.help? other = some help) :
    (r.set metric labels value).help? other = some help := by
  rw [help?_set]
  split
  · rename_i hmetric
    rw [hmetric, there]
    rfl
  · exact there

/-! ## What a family lists -/

section

variable (r : Registry) (metric : String) (subset : LabelSet)

theorem mem_find {labels : LabelSet} {value : Binary64} :
    (labels, value) ∈ r.find metric subset ↔
      r.get? metric labels = some value ∧ labels.contains subset := by
  rw [find, List.mem_filter, Std.ExtTreeMap.mem_toList_iff_getElem?_eq_some]
  rfl

theorem pairwise_find :
    (r.find metric subset).Pairwise fun a b => compare a.1 b.1 = .lt :=
  Std.ExtTreeMap.ordered_keys_toList.filter _

/-- As many gauges are counted as there are label sets with one. -/
theorem encard_seriesCount :
    {labels | (r.get? metric labels).isSome}.encard = r.seriesCount metric := by
  have hkeys : {labels | (r.get? metric labels).isSome} =
      (r.family metric).cells.keys.toFinset := by
    ext labels
    rw [Set.mem_ofPred_eq, List.coe_toFinset, Set.mem_ofPred_eq, Std.ExtTreeMap.mem_keys,
      Std.ExtTreeMap.mem_iff_isSome_getElem?]
    rfl
  rw [hkeys, Set.encard_coe_eq_coe_finsetCard,
    List.toFinset_card_of_nodup Std.ExtTreeMap.nodup_keys, Std.ExtTreeMap.length_keys]
  rfl

/-- A removal counts the gauges that were listed. -/
theorem deleteMatching_snd :
    (r.deleteMatching metric subset).2 = (r.find metric subset).length := by
  unfold deleteMatching
  split
  · rename_i hnone
    have hcells : (r.family metric).cells = ∅ := by rw [family, hnone]; rfl
    rw [find, hcells]
    rfl
  · rename_i found hfound
    have hcells : (r.family metric).cells = found.cells := by rw [family, hfound, Option.getD_some]
    -- what is kept and what is listed make up what was there
    have hsplit := List.length_eq_length_filter_add (l := found.cells.toList)
      fun gauge => gauge.1.contains subset
    rw [find, hcells]
    show found.cells.size - (found.cells.filter _).size = _
    rw [← Std.ExtTreeMap.length_toList, ← Std.ExtTreeMap.length_toList,
      Std.ExtTreeMap.toList_filter]
    exact Nat.sub_eq_of_eq_add hsplit

/-- After a removal, nothing is listed under labels that contain what was removed. -/
theorem find_deleteMatching {narrower : LabelSet} (contains : narrower.contains subset) :
    (r.deleteMatching metric subset).1.find metric narrower = [] := by
  refine List.eq_nil_iff_forall_not_mem.2 ?_
  rintro ⟨labels, value⟩ hmem
  obtain ⟨hheld, hlabels⟩ := (mem_find _ _ _).1 hmem
  rw [get?_deleteMatching, if_pos ⟨rfl, LabelSet.contains_trans hlabels contains⟩] at hheld
  cases hheld

end

/-! ## The law of the last write -/

/-- What a registry holds after operations, in terms of the operations alone. -/
structure LastWriteLaw (r : Registry) (ops : List Operation) : Prop where
  /-- A gauge has the value that was set last, if no removal has taken it since. -/
  get_iff : ∀ metric labels value,
    r.get? metric labels = some value ↔ Holds ops metric labels value
  /-- It has none if there is no such value. -/
  get_none : ∀ metric labels,
    r.get? metric labels = none ↔ ∀ value, ¬Holds ops metric labels value
  /-- As many gauges are counted as there are label sets with a value. -/
  count : ∀ metric, {labels | ∃ value, Holds ops metric labels value}.encard = r.seriesCount metric
  /-- What is listed is what has a value and contains the labels that are asked for. -/
  listed : ∀ metric subset labels value,
    (labels, value) ∈ r.find metric subset ↔
      Holds ops metric labels value ∧ labels.contains subset
  /-- It is listed in ascending order of label sets, so each one once. -/
  ascending : ∀ metric subset, (r.find metric subset).Pairwise fun a b => compare a.1 b.1 = .lt
  /-- A removal returns the number of gauges that were listed just before. -/
  removed : ∀ metric subset,
    (r.deleteMatching metric subset).2 = (r.find metric subset).length
  /-- After it nothing is listed under labels that contain those that were removed. -/
  emptied : ∀ metric subset narrower, narrower.contains subset →
    (r.deleteMatching metric subset).1.find metric narrower = []
  /-- It leaves every other gauge. -/
  kept : ∀ metric subset other labels, ¬(metric = other ∧ labels.contains subset) →
    (r.deleteMatching metric subset).1.get? other labels = r.get? other labels
  /-- It leaves every family, with its help text. -/
  families : ∀ metric subset other,
    (r.deleteMatching metric subset).1.help? other = r.help? other
  /-- A declaration changes no gauge, and no help text but that of its family. -/
  declared : ∀ metric help other,
    (∀ labels, (r.declare metric help).get? other labels = r.get? other labels) ∧
      (r.declare metric help).help? other = if metric = other then some help else r.help? other
  /-- Setting a gauge changes no help text. -/
  helps : ∀ metric labels value other help, r.help? other = some help →
    (r.set metric labels value).help? other = some help
  /-- Labels are compared by the value that each name was given last. -/
  canonical : ∀ pairs pairs', LabelSet.ofList pairs = LabelSet.ofList pairs' ↔
    ∀ name, LabelSet.lastValue? pairs name = LabelSet.lastValue? pairs' name
  /-- So a gauge is read whatever the order in which its labels are added. -/
  reordered : ∀ metric pairs pairs' value, pairs.Perm pairs' → (pairs.map Prod.fst).Nodup →
    (r.get? metric (.ofList pairs) = some value ↔ Holds ops metric (.ofList pairs') value)

theorem LastWriteLaw.of_fresh {start : Registry}
    (fresh : ∀ metric labels, start.get? metric labels = none) (ops : List Operation) :
    LastWriteLaw (start.after ops) ops where
  get_iff := get?_after fresh ops
  get_none metric labels := by
    simp only [← get?_after fresh ops, Option.eq_none_iff_forall_ne_some, ne_eq]
  count metric := by
    rw [← encard_seriesCount]
    congr 1
    ext labels
    simp only [Set.mem_ofPred_eq, Option.isSome_iff_exists, get?_after fresh ops]
  listed metric subset labels value := by rw [mem_find, get?_after fresh ops]
  ascending := pairwise_find _
  removed := deleteMatching_snd _
  emptied metric subset narrower := find_deleteMatching _ metric subset
  kept metric subset other labels apart := by rw [get?_deleteMatching, if_neg apart]
  families metric subset other := help?_deleteMatching _ metric other subset
  declared metric help other :=
    ⟨get?_declare _ metric help other, help?_declare _ metric help other⟩
  helps _ _ _ _ _ there := help?_set_of_there there
  canonical _ _ := LabelSet.ofList_eq_ofList_iff
  reordered metric pairs pairs' value perm distinct := by
    rw [LabelSet.ofList_eq_of_perm perm distinct, get?_after fresh ops]

theorem get?_standard (metric : String) (labels : LabelSet) :
    standard.get? metric labels = none :=
  Vitals.get?_initial metric labels

/-- Whatever is done to an empty registry, or to one with the published families declared, what it
holds follows from the last write of each gauge. -/
theorem last_write_law (ops : List Operation) :
    LastWriteLaw (empty.after ops) ops ∧ LastWriteLaw (standard.after ops) ops :=
  ⟨.of_fresh get?_empty ops, .of_fresh get?_standard ops⟩

end Registry

end ClusterVitals
