import ClusterVitals.Proofs.Bookings
import Mathlib.Data.List.Induction

/-!
# What the journal tells of failures

`failing` is the request of an object whose failure was its last outcome, and `awaited` the one
whose timer has not left a message that was taken. Both are what stands at the end of a journal of
what its entries set and clear. They fall apart when a pass of the object ends otherwise before the
message is taken: `outlived_iff` says that this is the only way.
-/

namespace ClusterVitals.Controller

/-! ## What stands -/

/-- What stands at the end of a journal of what entries set or clear. -/
def standing (f : Entry → Option (Option Request)) (j : List Entry) : Option Request :=
  (j.filterMap f).getLast?.join

section

variable {f : Entry → Option (Option Request)} {j es before after : List Entry} {r : Request}

/-- Without news to tell of, what stood stands. -/
theorem standing_of_quiet (hf : ∀ e, e.isNews = false → f e = none)
    (quiet : (news es).filterMap f = []) : standing f (j ++ es) = standing f j := by
  rw [standing, List.filterMap_append, ← filterMap_news hf es, quiet, List.append_nil]
  rfl

theorem standing_of_set (hf : ∀ e, e.isNews = false → f e = none) {x : Option Request}
    (set : (news es).filterMap f = [x]) : standing f (j ++ es) = x := by
  rw [standing, List.filterMap_append, ← filterMap_news hf es, set, List.getLast?_concat]
  rfl

/-- The last entry sets or clears what stands, or leaves it. -/
theorem standing_concat (j : List Entry) (e : Entry) :
    standing f (j ++ [e]) = (f e).getD (standing f j) := by
  rw [standing, List.filterMap_append]
  rcases he : f e with _ | x
  · rw [List.filterMap_cons_none he, List.filterMap_nil, List.append_nil]
    rfl
  · rw [List.filterMap_cons_some he, List.filterMap_nil, List.getLast?_concat]
    rfl

/-- What stands was set, and nothing after it set or cleared it. -/
theorem standing_eq_some_iff :
    standing f j = some r ↔ ∃ before e after, j = before ++ e :: after ∧ f e = some (some r) ∧
      ∀ e' ∈ after, f e' = none := by
  rw [standing, Option.join_eq_some_iff, List.getLast?_eq_some_iff]
  constructor
  · rintro ⟨ys, hys⟩
    -- the journal splits where the last setting or clearing stands
    obtain ⟨first, second, rfl, -, hsecond⟩ := List.filterMap_eq_append_iff.1 hys
    obtain ⟨front, e, after, rfl, -, he, hafter⟩ := List.filterMap_eq_cons_iff.1 hsecond
    exact ⟨first ++ front, e, after, by rw [List.append_assoc], he,
      List.filterMap_eq_nil_iff.1 hafter⟩
  · rintro ⟨before, e, after, rfl, he, hafter⟩
    refine ⟨before.filterMap f, ?_⟩
    rw [List.filterMap_append, List.filterMap_cons_some he, List.filterMap_eq_nil_iff.2 hafter]

/-- Where entries clear and none sets, nothing stands. -/
theorem standing_eq_none (cleared : ∃ e ∈ after, f e ≠ none)
    (unset : ∀ e ∈ after, ∀ r, f e ≠ some (some r)) : standing f (before ++ after) = none := by
  refine Option.eq_none_iff_forall_ne_some.2 ?_
  intro r hr
  obtain ⟨e, he, hne⟩ := cleared
  obtain ⟨x, hx⟩ := Option.ne_none_iff_exists'.1 hne
  -- the last of what is set or cleared stands after the clearing, or is the clearing itself
  have hlast : (after.filterMap f).getLast? = some (some r) := by
    rw [standing, Option.join_eq_some_iff, List.filterMap_append, List.getLast?_append,
      Option.or_eq_some_iff] at hr
    rcases hr with hr | ⟨hnone, -⟩
    · exact hr
    · rw [List.getLast?_eq_none_iff, List.filterMap_eq_nil_iff] at hnone
      exact absurd (hnone e he) hne
  obtain ⟨e', he', hset⟩ := List.mem_filterMap.1 (List.mem_of_getLast? hlast)
  exact unset e' he' r hset

/-- What two readings of a journal both let stand is the same, if the same entries set it. -/
theorem standing_unique {g : Entry → Option (Option Request)}
    (same : ∀ e r, f e = some (some r) ↔ g e = some (some r)) {x : Request}
    (hf : standing f j = some r) (hg : standing g j = some x) : x = r := by
  -- on the entries from the last one back, until one of the readings is set
  induction j using List.reverseRecOn with
  | nil => cases hf
  | append_singleton j e ih =>
    rw [standing_concat] at hf hg
    rcases hfe : f e with _ | _ | y
    · rcases hge : g e with _ | _ | z
      · rw [hfe] at hf
        rw [hge] at hg
        exact ih hf hg
      · rw [hge] at hg
        cases hg
      · rw [(same e z).2 hge] at hfe
        cases hfe
    · rw [hfe] at hf
      cases hf
    · rw [hfe] at hf
      rw [(same e y).1 hfe] at hg
      exact (Option.some.inj hg).symm.trans (Option.some.inj hf)

end

/-! ## Failures -/

/-- The end of a pass of an object sets the request of the pass if it failed, and clears it
otherwise. -/
def setsFailing (key : ObjectKey) : Entry → Option (Option Request)
  | .completed r result =>
    if r.key = key then some (if retryable result then some r else none) else none
  | _ => none

/-- A failure of a pass of an object sets the request of the pass, and the message of a timer of the
object clears it. -/
def setsAwaited (key : ObjectKey) : Entry → Option (Option Request)
  | .completed r result => if r.key = key ∧ retryable result then some (some r) else none
  | .fired ring => if ring.notification.key = key then some none else none
  | _ => none

/-- The request of the last pass of an object that has ended, if the pass failed with an error that
is worth another try. -/
def failing (key : ObjectKey) (j : List Entry) : Option Request := standing (setsFailing key) j

/-- The request of the last pass of an object that failed with an error that is worth another try,
if no message of a timer of the object was taken since. -/
def awaited (key : ObjectKey) (j : List Entry) : Option Request := standing (setsAwaited key) j

section

variable {key : ObjectKey} {e : Entry} {r : Request}

theorem setsFailing_of_not_news (key : ObjectKey) (e : Entry) (h : e.isNews = false) :
    setsFailing key e = none := by
  cases e with
  | completed r result => cases h
  | _ => rfl

theorem setsAwaited_of_not_news (key : ObjectKey) (e : Entry) (h : e.isNews = false) :
    setsAwaited key e = none := by
  cases e with
  | completed r result => cases h
  | fired ring => cases h
  | _ => rfl

theorem setsFailing_eq_some_some_iff :
    setsFailing key e = some (some r) ↔
      ∃ result, e = .completed r result ∧ r.key = key ∧ retryable result := by
  constructor
  · intro h
    cases e with
    | completed r' result =>
      rw [setsFailing] at h
      split at h
      · rename_i hkey
        split at h
        · rename_i hretry
          obtain rfl := Option.some.inj (Option.some.inj h)
          exact ⟨result, rfl, hkey, hretry⟩
        · cases h
      · cases h
    | _ => cases h
  · rintro ⟨result, rfl, hkey, hretry⟩
    simp [setsFailing, hkey, hretry]

/-- Only ends of passes of the object tell of its failures. -/
theorem setsFailing_eq_none_iff :
    setsFailing key e = none ↔ ∀ r result, e = .completed r result → r.key ≠ key := by
  cases e with
  | completed r result =>
    rw [setsFailing]
    split <;> simp_all
  | _ => simp [setsFailing]

theorem setsAwaited_eq_some_some_iff :
    setsAwaited key e = some (some r) ↔
      ∃ result, e = .completed r result ∧ r.key = key ∧ retryable result := by
  constructor
  · intro h
    cases e with
    | completed r' result =>
      rw [setsAwaited] at h
      split at h
      · rename_i hfailed
        obtain rfl := Option.some.inj (Option.some.inj h)
        exact ⟨result, rfl, hfailed⟩
      · cases h
    | fired ring =>
      rw [setsAwaited] at h
      split at h <;> cases h
    | _ => cases h
  · rintro ⟨result, rfl, hkey, hretry⟩
    simp [setsAwaited, hkey, hretry]

theorem setsAwaited_eq_none_iff :
    setsAwaited key e = none ↔
      (∀ ring, e = .fired ring → ring.notification.key ≠ key) ∧
        ∀ r result, e = .completed r result → r.key = key → ¬retryable result := by
  cases e with
  | completed r result =>
    rw [setsAwaited]
    split <;> simp_all
  | fired ring =>
    rw [setsAwaited]
    split <;> simp_all
  | _ => simp [setsAwaited]

end

/-- A failure that is the last outcome is the one whose message is awaited, if one is. -/
theorem awaited_of_failing {key : ObjectKey} {j : List Entry} {r x : Request}
    (hr : failing key j = some r) (hx : awaited key j = some x) : x = r :=
  standing_unique
    (fun _ _ => setsFailing_eq_some_some_iff.trans setsAwaited_eq_some_some_iff.symm) hr hx

/-! ## Failures told by entries -/

/-- The last pass of an object that has ended failed with an error that is worth another try, and
was for this notification. -/
def LastFailed (key : ObjectKey) (j : List Entry) (n : Notification) : Prop :=
  ∃ before r result after, j = before ++ .completed r result :: after ∧ r.key = key ∧
    retryable result ∧ r.notification = n ∧
    ∀ r' result', .completed r' result' ∈ after → r'.key ≠ key

/-- After a pass of an object failed, other passes of the object have ended without such a failure,
and the message of its timer was not taken all the while. -/
def Outlived (key : ObjectKey) (j : List Entry) : Prop :=
  ∃ before r result after, j = before ++ .completed r result :: after ∧ r.key = key ∧
    retryable result ∧ (∀ ring, .fired ring ∈ after → ring.notification.key ≠ key) ∧
    (∃ r' result', .completed r' result' ∈ after ∧ r'.key = key) ∧
    ∀ r' result', .completed r' result' ∈ after → r'.key = key → ¬retryable result'

section

variable {key : ObjectKey} {j : List Entry}

theorem lastFailed_iff {n : Notification} :
    LastFailed key j n ↔ ∃ r, failing key j = some r ∧ r.notification = n := by
  constructor
  · rintro ⟨before, r, result, after, hj, hkey, hretry, hn, hafter⟩
    refine ⟨r, standing_eq_some_iff.2 ⟨before, _, after, hj,
      setsFailing_eq_some_some_iff.2 ⟨result, rfl, hkey, hretry⟩, ?_⟩, hn⟩
    intro e he
    exact setsFailing_eq_none_iff.2 fun r' result' heq => hafter r' result' (heq ▸ he)
  · rintro ⟨r, hr, hn⟩
    obtain ⟨before, e, after, hj, he, hafter⟩ := standing_eq_some_iff.1 hr
    obtain ⟨result, rfl, hkey, hretry⟩ := setsFailing_eq_some_some_iff.1 he
    refine ⟨before, r, result, after, hj, hkey, hretry, hn, ?_⟩
    intro r' result' hmem
    exact setsFailing_eq_none_iff.1 (hafter _ hmem) r' result' rfl

/-- A timer has outlived a failure when its message is awaited and no pass has failed last. -/
theorem outlived_iff : Outlived key j ↔ (awaited key j).isSome ∧ failing key j = none := by
  rw [Option.isSome_iff_exists]
  constructor
  · rintro ⟨before, r, result, after, rfl, hkey, hretry, hfired, ⟨r', result', hmem, hkey'⟩, hlast⟩
    constructor
    · refine ⟨r, standing_eq_some_iff.2 ⟨before, _, after, rfl,
        setsAwaited_eq_some_some_iff.2 ⟨result, rfl, hkey, hretry⟩, ?_⟩⟩
      intro e he
      exact setsAwaited_eq_none_iff.2 ⟨fun ring heq => hfired ring (heq ▸ he),
        fun x y heq => hlast x y (heq ▸ he)⟩
    · -- the passes that have ended since the failure clear it
      rw [← List.singleton_append, ← List.append_assoc]
      refine standing_eq_none ⟨_, hmem, ?_⟩ ?_
      · intro hnone
        exact setsFailing_eq_none_iff.1 hnone r' result' rfl hkey'
      · intro e he x hx
        obtain ⟨y, rfl, hx, hretry'⟩ := setsFailing_eq_some_some_iff.1 hx
        exact hlast x y he hx hretry'
  · rintro ⟨⟨r, hr⟩, hfailing⟩
    obtain ⟨before, e, after, hj, he, hafter⟩ := standing_eq_some_iff.1 hr
    obtain ⟨result, rfl, hkey, hretry⟩ := setsAwaited_eq_some_some_iff.1 he
    refine ⟨before, r, result, after, hj, hkey, hretry, ?_, ?_, ?_⟩
    · exact fun ring hmem => (setsAwaited_eq_none_iff.1 (hafter _ hmem)).1 ring rfl
    · by_contra hnone
      -- without other passes the failure would be the last outcome
      have hlast : LastFailed key j r.notification :=
        ⟨before, r, result, after, hj, hkey, hretry, rfl,
          fun r' result' hmem hkey' => hnone ⟨r', result', hmem, hkey'⟩⟩
      obtain ⟨x, hx, -⟩ := lastFailed_iff.1 hlast
      rw [hfailing] at hx
      cases hx
    · exact fun r' result' hmem => (setsAwaited_eq_none_iff.1 (hafter _ hmem)).2 r' result' rfl

end

end ClusterVitals.Controller
