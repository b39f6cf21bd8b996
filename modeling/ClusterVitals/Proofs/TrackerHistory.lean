import ClusterVitals.Vitals.Tracker
import Mathlib.Data.List.Dedup
import Mathlib.Data.List.DropRight
import Mathlib.Data.Set.Card

/-!
# The tracker and the history of a container

What the tracker tells of a container depends on the history of this container alone: the
observations of it since its pod was last forgotten. The counter that the tracker keeps is the
highest one of the history that came with a known exit.

## Shape of the proofs

Operations are taken from the last one back, so that each proof follows what one more operation does
to the history: an observation of the container is added to it, an eviction of its pod ends it, and
every other operation leaves it. `prior?_after` is the one induction on the tracker; `HistoryLaw`
follows from it.
-/

namespace ClusterVitals.Tracker

/-- What can be done to the tracker. -/
inductive Operation where
  | observe (identity : ContainerIdentity) (counter : Nat) (hasExit : Bool)
  | evict (pod : ObjectKey)
  deriving DecidableEq, Repr

namespace Operation

/-- The operation forgets the pod of a container. -/
def forgets (identity : ContainerIdentity) : Operation → Bool
  | observe .. => false
  | evict pod => identity.belongsTo pod

/-- The operation is an observation of a container. -/
def observes (identity : ContainerIdentity) : Operation → Bool
  | observe i _ _ => i = identity
  | evict _ => false

/-- The counter of an observation with a known exit. -/
def counter? : Operation → Option Nat
  | observe _ counter true => some counter
  | _ => none

end Operation

/-- The tracker after an operation. -/
def perform (t : Tracker) : Operation → Tracker
  | .observe identity counter hasExit => (t.observe identity counter hasExit).1
  | .evict pod => (t.evict pod).1

/-- The tracker after operations from the start. -/
def after (ops : List Operation) : Tracker := ops.foldl perform empty

/-- What the observations among operations are told, in order. -/
def told (t : Tracker) : List Operation → List (ContainerIdentity × Observation)
  | [] => []
  | .observe identity counter hasExit :: rest =>
    (identity, (t.observe identity counter hasExit).2) ::
      (t.observe identity counter hasExit).1.told rest
  | .evict pod :: rest => (t.evict pod).1.told rest

/-- The number of new restarts of a container that operations bring up. -/
def newCount (t : Tracker) (identity : ContainerIdentity) (ops : List Operation) : Nat :=
  (t.told ops).countP fun (i, observation) => i = identity && observation.isNew

/-- The history of a container: its observations since its pod was last forgotten. -/
def history (identity : ContainerIdentity) (ops : List Operation) : List Operation :=
  (ops.rtakeWhile (!·.forgets identity)).filter (·.observes identity)

/-- The counters of the history that came with a known exit. -/
def reported (identity : ContainerIdentity) (ops : List Operation) : List Nat :=
  (history identity ops).filterMap Operation.counter?

/-- The highest of these counters, and zero without any. -/
def highest (identity : ContainerIdentity) (ops : List Operation) : Nat :=
  (reported identity ops).foldr max 0

theorem after_concat (ops : List Operation) (op : Operation) :
    after (ops ++ [op]) = (after ops).perform op := by
  simp [after]

theorem told_append (t : Tracker) (first second : List Operation) :
    t.told (first ++ second) = t.told first ++ (first.foldl perform t).told second := by
  induction first generalizing t with
  | nil => rfl
  | cons op rest ih =>
    cases op with
    | observe identity counter hasExit => exact congrArg (_ :: ·) (ih _)
    | evict pod => exact ih _

/-! ## What one more operation does to a history -/

section

variable (identity : ContainerIdentity) (ops : List Operation)

theorem history_concat (op : Operation) :
    history identity (ops ++ [op]) =
      if op.forgets identity then []
      else history identity ops ++ [op].filter (·.observes identity) := by
  rw [history, List.rtakeWhile_concat]
  cases op.forgets identity
  · exact List.filter_append ..
  · rfl

/-- An observation with a known exit brings one more counter. -/
theorem reported_observe (i : ContainerIdentity) (counter : Nat) (hasExit : Bool) :
    reported identity (ops ++ [.observe i counter hasExit]) =
      reported identity ops ++ if i = identity ∧ hasExit then [counter] else [] := by
  rw [reported, history_concat]
  show List.filterMap _ (history identity ops ++ _) = _
  rw [List.filterMap_append]
  by_cases hi : i = identity <;> cases hasExit <;>
    simp [reported, Operation.observes, Operation.counter?, hi]

/-- Forgetting the pod of a container ends its history. -/
theorem reported_evict (pod : ObjectKey) :
    reported identity (ops ++ [.evict pod]) =
      if identity.belongsTo pod then [] else reported identity ops := by
  rw [reported, history_concat]
  show List.filterMap _ (if identity.belongsTo pod then [] else history identity ops ++ []) = _
  split
  · rfl
  · rw [List.append_nil]
    rfl

end

/-- The highest of some counters is one of them, or zero. -/
theorem foldr_max_lt_iff {counters : List Nat} {n : Nat} :
    counters.foldr max 0 < n ↔ 0 < n ∧ ∀ m ∈ counters, m < n := by
  induction counters with
  | nil => simp
  | cons m rest ih =>
    rw [List.foldr_cons, Nat.max_lt, ih, List.forall_mem_cons]
    exact and_left_comm

theorem highest_lt_iff {identity : ContainerIdentity} {ops : List Operation} {n : Nat} :
    highest identity ops < n ↔ 0 < n ∧ ∀ m ∈ reported identity ops, m < n :=
  foldr_max_lt_iff

theorem foldr_max_concat (counters : List Nat) (n : Nat) :
    (counters ++ [n]).foldr max 0 = max (counters.foldr max 0) n := by
  induction counters with
  | nil => exact Nat.max_comm n 0
  | cons m rest ih => rw [List.cons_append, List.foldr_cons, ih, List.foldr_cons, Nat.max_assoc]

theorem highest_observe (identity i : ContainerIdentity) (ops : List Operation) (counter : Nat)
    (hasExit : Bool) :
    highest identity (ops ++ [.observe i counter hasExit]) =
      if i = identity ∧ hasExit then max (highest identity ops) counter
      else highest identity ops := by
  rw [highest, reported_observe]
  split
  · exact foldr_max_concat _ _
  · rw [List.append_nil]
    rfl

theorem highest_evict (identity : ContainerIdentity) (ops : List Operation) (pod : ObjectKey) :
    highest identity (ops ++ [.evict pod]) =
      if identity.belongsTo pod then 0 else highest identity ops := by
  rw [highest, reported_evict]
  split <;> rfl

/-! ## What the tracker keeps -/

/-- A counter is kept if it is not zero. -/
def kept? (n : Nat) : Option Nat := if 0 < n then some n else none

theorem getD_kept? (n : Nat) : (kept? n).getD 0 = n := by
  unfold kept?
  split
  · rfl
  · exact (Nat.eq_zero_of_not_pos ‹_›).symm

/-- The tracker keeps the highest counter of the history of each container. -/
theorem prior?_after (ops : List Operation) (identity : ContainerIdentity) :
    (after ops).prior? identity = kept? (highest identity ops) := by
  induction ops using List.reverseRecOn generalizing identity with
  | nil => exact prior?_empty identity
  | append_singleton ops op ih =>
    rw [after_concat]
    cases op with
    | observe i counter hasExit =>
      rw [perform, prior?_observe, ih i, getD_kept?, ih identity, highest_observe]
      by_cases hown : i = identity ∧ hasExit
      · -- a counter that is not higher leaves the highest one
        obtain ⟨rfl, rfl⟩ := hown
        by_cases hlt : highest i ops < counter
        · have hpos : 0 < counter := Nat.zero_lt_of_lt hlt
          simp [hlt, kept?, hpos, Nat.max_eq_right (Nat.le_of_lt hlt)]
        · simp [hlt, Nat.max_eq_left (Nat.not_lt.1 hlt)]
      · rw [if_neg hown, if_neg fun h => hown ⟨h.2.2, h.1⟩]
    | evict pod =>
      rw [perform, prior?_evict, ih identity, highest_evict]
      split <;> rfl

/-- What an observation is told follows from the history. -/
theorem observe_after (ops : List Operation) (identity : ContainerIdentity) (counter : Nat)
    (hasExit : Bool) :
    ((after ops).observe identity counter hasExit).2 =
      ⟨hasExit && highest identity ops < counter, highest identity ops⟩ := by
  rw [observe, prior?_after, getD_kept?]
  by_cases h : hasExit ∧ highest identity ops < counter
  · rw [if_pos h]
    simp [h.1, h.2]
  · rw [if_neg h, Observation.mk.injEq]
    simpa using h

/-! ## How many containers are tracked -/

/-- The containers with a counter. -/
def tracked (t : Tracker) : Set ContainerIdentity := {identity | (t.prior? identity).isSome}

theorem encard_tracked (t : Tracker) : t.tracked.encard = t.size := by
  have hkeys : t.tracked = t.counters.keys.toFinset := by
    ext identity
    rw [tracked, Set.mem_ofPred_eq, List.coe_toFinset, Set.mem_ofPred_eq, Std.ExtTreeMap.mem_keys,
      Std.ExtTreeMap.mem_iff_isSome_getElem?]
    rfl
  rw [hkeys, Set.encard_coe_eq_coe_finsetCard,
    List.toFinset_card_of_nodup Std.ExtTreeMap.nodup_keys, Std.ExtTreeMap.length_keys]
  rfl

theorem tracked_evict (t : Tracker) (pod : ObjectKey) :
    (t.evict pod).1.tracked = t.tracked \ {identity | identity.pod = pod} := by
  ext identity
  rw [tracked, Set.mem_ofPred_eq, prior?_evict, Set.mem_sdiff, tracked, Set.mem_ofPred_eq,
    Set.mem_ofPred_eq, ContainerIdentity.belongsTo]
  by_cases h : identity.pod = pod <;> simp [h]

/-- Forgetting a pod counts the containers of the pod that were tracked. -/
theorem encard_evicted (t : Tracker) (pod : ObjectKey) :
    (t.tracked ∩ {identity | identity.pod = pod}).encard = (t.evict pod).2 := by
  have hsum := Set.encard_sdiff_add_encard_inter t.tracked {identity | identity.pod = pod}
  rw [← tracked_evict, encard_tracked, encard_tracked, add_comm] at hsum
  -- what is left and what is counted make up what was there
  have hsize : ((t.evict pod).2 + (t.evict pod).1.size : ℕ) = t.size :=
    Nat.sub_add_cancel Std.ExtTreeMap.size_filter_le_size
  rw [← hsize, Nat.cast_add] at hsum
  exact WithTop.add_right_cancel (ENat.natCast_ne_top _) hsum

theorem mem_tracked_after {ops : List Operation} {identity : ContainerIdentity} :
    identity ∈ (after ops).tracked ↔ 0 < highest identity ops := by
  rw [tracked, Set.mem_ofPred_eq, prior?_after, kept?]
  split <;> simp_all

/-! ## How many restarts are new -/

section

variable {identity : ContainerIdentity} {before part : List Operation}

theorem newCount_concat (op : Operation) :
    (after before).newCount identity (part ++ [op]) =
      (after before).newCount identity part + (after (before ++ part)).newCount identity [op] := by
  rw [newCount, told_append, List.countP_append, after, after, List.foldl_append]
  rfl

/-- As long as the pod is not forgotten, a history goes on. -/
theorem reported_append (kept : ∀ op ∈ part, ¬op.forgets identity) :
    reported identity (before ++ part) = reported identity before ++ reported identity part := by
  induction part using List.reverseRecOn with
  | nil => rw [List.append_nil, show reported identity [] = [] from rfl, List.append_nil]
  | append_singleton part op ih =>
    have hrest := ih fun o ho => kept o (List.mem_append_left _ ho)
    have hop := kept op (List.mem_append_right _ (List.mem_singleton_self op))
    rw [← List.append_assoc]
    cases op with
    | observe i counter hasExit =>
      rw [reported_observe, reported_observe, hrest, List.append_assoc]
    | evict pod =>
      have hother : ¬identity.belongsTo pod := hop
      rw [reported_evict, reported_evict, if_neg hother, if_neg hother, hrest]

/-- A counter that is not lower than those before is a new positive one, or there is no new one. -/
theorem card_concat {counters : List Nat} {n : Nat} (above : ∀ m ∈ counters, m ≤ n) :
    ((counters ++ [n]).toFinset.erase 0).card =
      (counters.toFinset.erase 0).card + if counters.foldr max 0 < n then 1 else 0 := by
  have hset : (counters ++ [n]).toFinset = insert n counters.toFinset := by
    ext m
    simp
  rw [hset]
  split
  · rename_i hlt
    obtain ⟨hpos, hnew⟩ := foldr_max_lt_iff.1 hlt
    have hfresh : n ∉ counters.toFinset.erase 0 := by
      simpa using fun _ hmem => absurd (hnew n hmem) (Nat.lt_irrefl n)
    rw [Finset.erase_insert_of_ne (Nat.ne_of_gt hpos), Finset.card_insert_of_notMem hfresh]
  · rename_i hle
    -- the counter is zero, or it equals one of those before
    rw [foldr_max_lt_iff] at hle
    by_cases hpos : 0 < n
    · obtain ⟨m, hm, hnm⟩ : ∃ m ∈ counters, n ≤ m := by
        by_contra hnone
        exact hle ⟨hpos, fun m hm => Nat.lt_of_not_le fun h => hnone ⟨m, hm, h⟩⟩
      obtain rfl : m = n := Nat.le_antisymm (above m hm) hnm
      rw [Finset.insert_eq_self.2 (List.mem_toFinset.2 hm), Nat.add_zero]
    · obtain rfl : n = 0 := Nat.eq_zero_of_not_pos hpos
      rw [Finset.erase_insert_eq_erase, Nat.add_zero]

/-- Of counters that do not decrease, the distinct positive ones are new, whatever is done to other
containers in between. -/
theorem newCount_of_sorted (fresh : reported identity before = [])
    (kept : ∀ op ∈ part, ¬op.forgets identity)
    (sorted : (reported identity part).Pairwise (· ≤ ·)) :
    (after before).newCount identity part = ((reported identity part).toFinset.erase 0).card := by
  induction part using List.reverseRecOn with
  | nil => rfl
  | append_singleton part op ih =>
    have hkept (o : Operation) (ho : o ∈ part) : ¬o.forgets identity :=
      kept o (List.mem_append_left _ ho)
    have hop := kept op (List.mem_append_right _ (List.mem_singleton_self op))
    rw [newCount_concat]
    cases op with
    | observe i counter hasExit =>
      rw [reported_observe] at sorted ⊢
      have hrest := ih hkept (List.pairwise_append.1 sorted).1
      have hone : (after (before ++ part)).newCount identity [.observe i counter hasExit] =
          if i = identity ∧ hasExit ∧ highest identity (before ++ part) < counter then 1
          else 0 := by
        rw [newCount, told, told, List.countP_singleton, observe_after]
        by_cases hi : i = identity
        · subst hi
          simp
        · simp [hi]
      have hhighest : highest identity (before ++ part) = (reported identity part).foldr max 0 := by
        rw [highest, reported_append hkept, fresh, List.nil_append]
      rw [hrest, hone, hhighest]
      by_cases hown : i = identity ∧ hasExit
      · rw [if_pos hown] at sorted ⊢
        have habove : ∀ m ∈ reported identity part, m ≤ counter := fun m hm =>
          (List.pairwise_append.1 sorted).2.2 m hm counter (List.mem_singleton_self counter)
        rw [card_concat habove]
        simp [hown.1, hown.2]
      · rw [if_neg hown, List.append_nil, if_neg fun h => hown ⟨h.1, h.2.1⟩, Nat.add_zero]
    | evict pod =>
      have hother : ¬identity.belongsTo pod := hop
      rw [reported_evict, if_neg hother] at sorted ⊢
      exact ih hkept sorted

end

/-! ## The law of histories -/

/-- What the tracker tells and keeps after operations, in terms of the histories of containers. -/
structure HistoryLaw (ops : List Operation) : Prop where
  /-- A restart is new exactly if its exit is known and its counter exceeds zero and every counter
  with a known exit of the history. -/
  new_iff : ∀ identity counter hasExit,
    ((after ops).observe identity counter hasExit).2.isNew ↔
      hasExit ∧ 0 < counter ∧ ∀ n ∈ reported identity ops, n < counter
  /-- An observation is told the highest counter of the history. -/
  prior : ∀ identity counter hasExit,
    ((after ops).observe identity counter hasExit).2.prior = highest identity ops
  /-- The highest counter of the history is kept, if it is not zero. -/
  kept : ∀ identity, (after ops).prior? identity =
    if 0 < highest identity ops then some (highest identity ops) else none
  /-- Observations of other containers and evictions of other pods change nothing of a container. -/
  apart : ∀ identity op, ¬op.forgets identity → ¬op.observes identity →
    (after (ops ++ [op])).prior? identity = (after ops).prior? identity ∧
      ∀ counter hasExit, ((after (ops ++ [op])).observe identity counter hasExit).2 =
        ((after ops).observe identity counter hasExit).2
  /-- An eviction counts the containers of the pod that are tracked. -/
  evicted : ∀ pod, ({identity | identity.pod = pod ∧ 0 < highest identity ops} : Set _).encard =
    ((after ops).evict pod).2
  /-- As many containers are tracked as have a highest counter that is not zero. -/
  size : {identity | 0 < highest identity ops}.encard = (after ops).size
  /-- From an empty history on, counters that do not decrease bring up as many new restarts as there
  are distinct positive ones. -/
  new_count : ∀ identity before part, ops = before ++ part → reported identity before = [] →
    (∀ op ∈ part, ¬op.forgets identity) → (reported identity part).Pairwise (· ≤ ·) →
      (after before).newCount identity part = ((reported identity part).toFinset.erase 0).card

/-- Without an observation of the container or an eviction of its pod, its highest counter stays. -/
theorem highest_apart {identity : ContainerIdentity} {op : Operation} (kept : ¬op.forgets identity)
    (other : ¬op.observes identity) (ops : List Operation) :
    highest identity (ops ++ [op]) = highest identity ops := by
  cases op with
  | observe i counter hasExit =>
    have hi : ¬i = identity := by simpa [Operation.observes] using other
    rw [highest_observe, if_neg fun h => hi h.1]
  | evict pod =>
    have hother : ¬identity.belongsTo pod := kept
    rw [highest_evict, if_neg hother]

/-- Whatever is done to an empty tracker, what it tells and keeps of each container follows from the
history of the container. -/
theorem history_law (ops : List Operation) : HistoryLaw ops where
  new_iff identity counter hasExit := by
    rw [observe_after, ← highest_lt_iff]
    simp
  prior identity counter hasExit := by rw [observe_after]
  kept identity := prior?_after ops identity
  apart identity op hkept hother := by
    have hhighest := highest_apart hkept hother ops
    refine ⟨by rw [prior?_after, prior?_after, hhighest], ?_⟩
    intro counter hasExit
    rw [observe_after, observe_after, hhighest]
  evicted pod := by
    rw [← encard_evicted]
    congr 1
    ext identity
    rw [Set.mem_inter_iff, mem_tracked_after]
    exact and_comm
  size := by
    rw [← encard_tracked]
    congr 1
    ext identity
    exact mem_tracked_after.symm
  new_count identity before part _ fresh kept sorted := newCount_of_sorted fresh kept sorted

end ClusterVitals.Tracker
