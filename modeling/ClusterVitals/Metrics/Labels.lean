import Std.Data.ExtTreeMap

/-!
# Label sets

A label set gives values to names. It is kept as the list of its pairs in ascending order of names,
so two sets with the same values are equal whatever order they were built in. Sets are ordered by
these lists, a proper beginning of a list first.
-/

namespace ClusterVitals

/-- Names with values, in ascending order of the names. -/
structure LabelSet where
  pairs : List (String × String)
  sorted : pairs.Pairwise (fun a b => a.1 < b.1)
  deriving DecidableEq, Repr

namespace LabelSet

/-- No labels. -/
def empty : LabelSet := ⟨[], .nil⟩

/-- Puts a pair where its name belongs, in the place of a pair with the same name. -/
def insertPair (name value : String) : List (String × String) → List (String × String)
  | [] => [(name, value)]
  | (n, v) :: rest =>
    if name < n then (name, value) :: (n, v) :: rest
    else if name = n then (name, value) :: rest
    else (n, v) :: insertPair name value rest

/-- Inserting brings no name but the inserted one. -/
theorem fst_of_mem_insertPair {name value : String} {pairs : List (String × String)}
    {p : String × String} (h : p ∈ insertPair name value pairs) : p.1 = name ∨ p ∈ pairs := by
  induction pairs with
  | nil => simp_all [insertPair]
  | cons q rest ih =>
    unfold insertPair at h
    split at h
    · rcases List.mem_cons.1 h with rfl | h
      · exact .inl rfl
      · exact .inr h
    · split at h
      · rcases List.mem_cons.1 h with rfl | h
        · exact .inl rfl
        · exact .inr (List.mem_cons_of_mem _ h)
      · rcases List.mem_cons.1 h with rfl | h
        · exact .inr List.mem_cons_self
        · exact (ih h).imp id (List.mem_cons_of_mem _)

/-- Inserting keeps names in ascending order. -/
theorem sorted_insertPair (name value : String) {pairs : List (String × String)}
    (h : pairs.Pairwise (fun a b => a.1 < b.1)) :
    (insertPair name value pairs).Pairwise (fun a b => a.1 < b.1) := by
  induction pairs with
  | nil => simp [insertPair]
  | cons q rest ih =>
    obtain ⟨hq, hrest⟩ := List.pairwise_cons.1 h
    unfold insertPair
    split
    · rename_i hlt
      refine List.pairwise_cons.2 ⟨fun p hp => ?_, h⟩
      rcases List.mem_cons.1 hp with rfl | hp
      · exact hlt
      · exact String.lt_trans hlt (hq p hp)
    · rename_i hlt
      split
      · rename_i heq
        exact List.pairwise_cons.2 ⟨fun p hp => heq ▸ hq p hp, hrest⟩
      · rename_i hne
        refine List.pairwise_cons.2 ⟨fun p hp => ?_, ih hrest⟩
        rcases fst_of_mem_insertPair hp with heq | hp
        · have hle : q.1 ≤ name := Std.not_lt.1 hlt
          exact heq ▸ Std.lt_of_le_of_ne hle fun h => hne h.symm
        · exact hq p hp

/-- Gives a value to a name, in the place of any earlier one. -/
def insert (labels : LabelSet) (name value : String) : LabelSet :=
  ⟨insertPair name value labels.pairs, sorted_insertPair name value labels.sorted⟩

/-- The label set of pairs, where a later value of a name counts. -/
def ofList (pairs : List (String × String)) : LabelSet :=
  pairs.foldl (fun labels (name, value) => labels.insert name value) empty

/-- The value of a name. -/
def get? (labels : LabelSet) (name : String) : Option String :=
  (labels.pairs.find? (·.1 = name)).map (·.2)

/-- Putting a pair where its name belongs changes what is found for its name, and for no other. -/
theorem find?_insertPair (name other value : String) (pairs : List (String × String)) :
    ((insertPair name value pairs).find? (·.1 = other)).map (·.2) =
      if name = other then some value else (pairs.find? (·.1 = other)).map (·.2) := by
  induction pairs with
  | nil => by_cases h : name = other <;> simp [insertPair, h]
  | cons p rest ih =>
    unfold insertPair
    split
    · by_cases h : name = other <;> simp [h]
    · split
      · rename_i heq
        by_cases h : name = other
        · simp [h]
        · simp [h, ← heq]
      · rename_i hne
        by_cases ho : p.1 = other
        · simp [ho, show ¬name = other from fun h => hne (h.trans ho.symm)]
        · simp [ho, ih]

/-- Inserting gives its value to a name, and leaves those of other names. -/
theorem get?_insert (labels : LabelSet) (name value other : String) :
    (labels.insert name value).get? other =
      if name = other then some value else labels.get? other :=
  find?_insertPair name other value labels.pairs

/-- Every pair of `subset` is among the labels. -/
def contains (labels subset : LabelSet) : Bool :=
  subset.pairs.all fun (name, value) => labels.get? name == some value

/-- The number of labels. -/
def size (labels : LabelSet) : Nat := labels.pairs.length

/-- The order of pairs: by name, then by value. -/
def comparePairs : String × String → String × String → Ordering :=
  compareLex (compareOn Prod.fst) (compareOn Prod.snd)

instance : Std.TransCmp comparePairs :=
  inferInstanceAs (Std.TransCmp (compareLex (compareOn Prod.fst) (compareOn Prod.snd)))

instance : Std.LawfulEqCmp comparePairs where
  compare_self := by simp [comparePairs, compareLex, compareOn]
  eq_of_compare h := by
    simp only [comparePairs, compareLex, compareOn, Ordering.then_eq_eq,
      Std.LawfulEqCmp.compare_eq_iff_eq] at h
    exact Prod.ext h.1 h.2

/-- The order of label sets. -/
instance : Ord LabelSet := ⟨fun a b => List.compareLex comparePairs a.pairs b.pairs⟩

instance : Std.TransOrd LabelSet where
  eq_swap :=
    (inferInstance : Std.OrientedCmp (List.compareLex comparePairs)).eq_swap
  isLE_trans :=
    (inferInstance : Std.TransCmp (List.compareLex comparePairs)).isLE_trans

instance : Std.LawfulEqOrd LabelSet where
  compare_self :=
    (inferInstance : Std.ReflCmp (List.compareLex comparePairs)).compare_self
  eq_of_compare {a b} h := by
    have : a.pairs = b.pairs :=
      (inferInstance : Std.LawfulEqCmp (List.compareLex comparePairs)).eq_of_compare h
    cases a; cases b; simp_all

end LabelSet

end ClusterVitals
