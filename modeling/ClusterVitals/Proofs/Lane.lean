import ClusterVitals.Proofs.Journal

/-!
# Lanes

The lane of an object is what the books of a controller come to for this object alone: the request
whose pass is under way, and the requests held back behind it. `Lane.Step` lists what can happen in
a lane with the entries it leaves, and the rest of the module says what then holds of the entries of
a lane from its start on, in whatever order its steps come.

## Shape of the proofs

`Lined` puts the requests that were started and those that are held in one line, which is part of
the line of arrivals. `Serialized` says that a pass starts only after the one before has completed.
`Covered` tells what becomes of each deletion. Each is kept by every step.
-/

namespace ClusterVitals

namespace Request

/-- What the request is about. -/
def kind (r : Request) : ChangeKind := r.notification.kind

end Request

namespace Pending

/-- The held requests in the order in which they run. -/
def requests (p : Pending) : List Request := p.deleted.toList ++ p.changed.toList

/-- The request that is taken is the first of those held. -/
theorem requests_of_pop {p q : Pending} {r : Request} (h : p.pop = (q, some r)) :
    p.requests = r :: q.requests := by
  rcases p with ⟨_ | d, _ | x⟩ <;> simp only [pop, Prod.mk.injEq, reduceCtorEq, and_false] at h
  · obtain ⟨rfl, hx⟩ := h
    cases hx
    rfl
  · obtain ⟨rfl, hd⟩ := h
    cases hd
    rfl
  · obtain ⟨rfl, hd⟩ := h
    cases hd
    rfl

/-- A deletion takes the place of all that is held. -/
theorem requests_push_of_deleted (p : Pending) {r : Request} (h : r.kind = .deleted) :
    (p.push r).requests = [r] := by
  have hkind : r.notification.kind = .deleted := h
  simp [push, hkind, requests]

/-- A change takes the place of a held change. -/
theorem requests_push_of_changed (p : Pending) {r : Request} (h : r.kind = .changed) :
    (p.push r).requests = p.deleted.toList ++ [r] := by
  have hkind : r.notification.kind = .changed := h
  simp [push, hkind, requests]

theorem mem_requests_push {p : Pending} {r x : Request} (h : x ∈ (p.push r).requests) :
    x ∈ p.requests ∨ x = r := by
  rcases hkind : r.kind with _ | _
  · rw [p.requests_push_of_changed hkind, List.mem_append, List.mem_singleton] at h
    exact h.imp (List.mem_append_left _) id
  · rw [p.requests_push_of_deleted hkind, List.mem_singleton] at h
    exact .inr h

/-- Each request is held in the place of its kind. -/
structure Sorted (p : Pending) : Prop where
  deleted : ∀ d ∈ p.deleted, d.kind = .deleted
  changed : ∀ x ∈ p.changed, x.kind = .changed

theorem Sorted.push {p : Pending} (h : p.Sorted) (r : Request) : (p.push r).Sorted := by
  rcases hkind : r.notification.kind with _ | _
  · refine ⟨by simpa [Pending.push, hkind] using h.deleted, ?_⟩
    simpa [Pending.push, hkind] using (show r.kind = .changed from hkind)
  · refine ⟨?_, by simp [Pending.push, hkind]⟩
    simpa [Pending.push, hkind] using (show r.kind = .deleted from hkind)

theorem Sorted.pop {p q : Pending} {next : Option Request} (h : p.Sorted)
    (hpop : p.pop = (q, next)) : q.Sorted := by
  rcases p with ⟨_ | d, x⟩ <;> simp only [Pending.pop, Prod.mk.injEq] at hpop <;>
    obtain ⟨rfl, -⟩ := hpop
  · exact ⟨by simp, by simp⟩
  · exact ⟨by simp, h.changed⟩

/-- What is held has the place of its kind. -/
theorem Sorted.place_of_mem {p : Pending} (h : p.Sorted) {r : Request} (hmem : r ∈ p.requests) :
    p.deleted = some r ∧ r.kind = .deleted ∨ p.changed = some r ∧ r.kind = .changed := by
  rcases List.mem_append.1 hmem with hd | hx
  · have hd := Option.mem_toList.1 hd
    exact .inl ⟨hd, h.deleted r hd⟩
  · have hx := Option.mem_toList.1 hx
    exact .inr ⟨hx, h.changed r hx⟩

end Pending

namespace Controller

/-! ## The entries of a lane -/

/-- The object whose lane an entry belongs to. -/
def Entry.lane? : Entry → Option ObjectKey
  | .scheduled r | .started r | .completed r _ => some r.key
  | _ => none

/-- The entries of the lane of an object. -/
def own (key : ObjectKey) (j : List Entry) : List Entry := j.filter (·.lane? = some key)

def Entry.arrival? : Entry → Option Request
  | .scheduled r => some r
  | _ => none

def Entry.start? : Entry → Option Request
  | .started r => some r
  | _ => none

def Entry.finish? : Entry → Option Request
  | .completed r _ => some r
  | _ => none

/-- The requests that were scheduled, in order. -/
def arrivals (j : List Entry) : List Request := j.filterMap Entry.arrival?

/-- The requests whose passes were started, in order. -/
def starts (j : List Entry) : List Request := j.filterMap Entry.start?

/-- The requests whose passes have ended and whose ends were taken, in order. -/
def finishes (j : List Entry) : List Request := j.filterMap Entry.finish?

theorem own_append (key : ObjectKey) (j k : List Entry) :
    own key (j ++ k) = own key j ++ own key k :=
  List.filter_append ..

theorem own_cons {key : ObjectKey} {e : Entry} (h : e.lane? = some key) (j : List Entry) :
    own key (e :: j) = e :: own key j :=
  List.filter_cons_of_pos (decide_eq_true h)

theorem own_cons_of_ne {key other : ObjectKey} {e : Entry} (he : e.lane? = some other)
    (h : other ≠ key) (j : List Entry) : own key (e :: j) = own key j :=
  List.filter_cons_of_neg (by simpa [he] using h)

theorem own_eq_nil {key : ObjectKey} {j : List Entry} (h : ∀ e ∈ j, e.lane? = none) :
    own key j = [] :=
  List.filter_eq_nil_iff.2 fun e he => by simp [h e he]

/-- The lane of an object has those of the requests that are about the object. -/
theorem filterMap_own {f : Entry → Option Request} (hf : ∀ e r, f e = some r → e.lane? = some r.key)
    (key : ObjectKey) (j : List Entry) :
    (own key j).filterMap f = (j.filterMap f).filter (·.key = key) := by
  induction j with
  | nil => rfl
  | cons e j ih =>
    rcases hfe : f e with _ | r
    · rw [List.filterMap_cons_none hfe, ← ih]
      -- an entry that tells of no request may belong to the lane all the same
      by_cases he : e.lane? = some key
      · rw [own_cons he, List.filterMap_cons_none hfe]
      · rw [own, List.filter_cons_of_neg (by simpa using he)]
        rfl
    · rw [List.filterMap_cons_some hfe]
      by_cases hkey : r.key = key
      · rw [List.filter_cons_of_pos (by simpa using hkey), ← ih,
          own_cons (by rw [hf e r hfe, hkey]), List.filterMap_cons_some hfe]
      · rw [List.filter_cons_of_neg (by simpa using hkey), ← ih,
          own_cons_of_ne (hf e r hfe) hkey]

theorem arrivals_own (key : ObjectKey) (j : List Entry) :
    arrivals (own key j) = (arrivals j).filter (·.key = key) :=
  filterMap_own (by rintro ⟨⟩ r h <;> cases h; rfl) key j

theorem starts_own (key : ObjectKey) (j : List Entry) :
    starts (own key j) = (starts j).filter (·.key = key) :=
  filterMap_own (by rintro ⟨⟩ r h <;> cases h; rfl) key j

theorem finishes_own (key : ObjectKey) (j : List Entry) :
    finishes (own key j) = (finishes j).filter (·.key = key) :=
  filterMap_own (by rintro ⟨⟩ r h <;> cases h; rfl) key j

theorem arrivals_append (j k : List Entry) : arrivals (j ++ k) = arrivals j ++ arrivals k :=
  List.filterMap_append

theorem starts_append (j k : List Entry) : starts (j ++ k) = starts j ++ starts k :=
  List.filterMap_append

theorem finishes_append (j k : List Entry) : finishes (j ++ k) = finishes j ++ finishes k :=
  List.filterMap_append

/-! ## What can happen in a lane -/

/-- What the books hold for one object. -/
structure Lane where
  /-- The serials from here on have not been given to the object. -/
  next : Nat
  /-- The request whose pass is under way. -/
  current : Option Request
  /-- The requests held back behind it. -/
  held : Pending

namespace Lane

/-- The lane of an object before its first request. -/
def empty : Lane := ⟨0, none, .empty⟩

/-- One thing that happens in a lane, with its entries. -/
inductive Step : Lane → List Entry → Lane → Prop where
  /-- A request arrives and is started at once. -/
  | enter {next : Nat} {held : Pending} {r : Request} (fresh : next ≤ r.serial) :
      Step ⟨next, none, held⟩ [.scheduled r, .started r] ⟨r.serial + 1, some r, held⟩
  /-- A request arrives and is held back. -/
  | hold {next : Nat} {cur : Request} {held : Pending} {r : Request} (fresh : next ≤ r.serial) :
      Step ⟨next, some cur, held⟩ [.scheduled r] ⟨r.serial + 1, some cur, held.push r⟩
  /-- A pass completes, and the next one is started. -/
  | follow {next : Nat} {cur r : Request} {held rest : Pending} {result : PassResult}
      (pop : held.pop = (rest, some r)) :
      Step ⟨next, some cur, held⟩ [.completed cur result, .started r] ⟨next, some r, rest⟩
  /-- A pass completes with nothing held back. -/
  | rest {next : Nat} {cur : Request} {result : PassResult} :
      Step ⟨next, some cur, .empty⟩ [.completed cur result] ⟨next, none, .empty⟩

/-- Things that happen in a lane one after the other. -/
inductive Run : Lane → List Entry → Lane → Prop where
  | nil (lane : Lane) : Run lane [] lane
  | cons {first middle last : Lane} {es rest : List Entry} (step : Step first es middle)
      (after : Run middle rest last) : Run first (es ++ rest) last

theorem Run.append {first middle last : Lane} {es rest : List Entry} (h : Run first es middle)
    (h' : Run middle rest last) : Run first (es ++ rest) last := by
  induction h with
  | nil => exact h'
  | cons step _ ih =>
    rw [List.append_assoc]
    exact .cons step (ih h')

/-- What is kept by every step of a lane holds at the end of its run. -/
theorem Run.keeps {Inv : List Entry → Lane → Prop}
    (kept : ∀ {j lane es lane'}, Inv j lane → Step lane es lane' → Inv (j ++ es) lane')
    {j es : List Entry} {lane lane' : Lane} (h : Run lane es lane') (start : Inv j lane) :
    Inv (j ++ es) lane' := by
  induction h generalizing j with
  | nil =>
    rw [List.append_nil]
    exact start
  | cons step _ ih =>
    rw [← List.append_assoc]
    exact ih (kept start step)

/-! ## The line of requests -/

/-- The line of a lane: the requests that were started, and then those that are held. -/
def line (j : List Entry) (lane : Lane) : List Request := starts j ++ lane.held.requests

/-- The requests that were started or are held are some of those that arrived, in the order of
arrival, and the newest arrival is one of them. -/
structure Lined (j : List Entry) (lane : Lane) : Prop where
  numbered : (arrivals j).Pairwise (·.serial < ·.serial)
  bounded : ∀ r ∈ arrivals j, r.serial < lane.next
  sublist : (lane.line j).Sublist (arrivals j)
  newest : (lane.line j).getLast? = (arrivals j).getLast?
  sorted : lane.held.Sorted
  idle : lane.current = none → lane.held = .empty

theorem Lined.empty : Lined [] Lane.empty where
  numbered := .nil
  bounded := by simp [arrivals]
  sublist := List.nil_sublist _
  newest := rfl
  sorted := ⟨by simp [Lane.empty, Pending.empty], by simp [Lane.empty, Pending.empty]⟩
  idle _ := rfl

/-- Earlier requests of a line have lower serials. -/
theorem Lined.pairwise {j : List Entry} {lane : Lane} (h : Lined j lane) :
    (lane.line j).Pairwise (·.serial < ·.serial) :=
  h.numbered.sublist h.sublist

theorem line_enter (next : Nat) (j : List Entry) (r : Request) :
    (Lane.mk next (some r) .empty).line (j ++ [.scheduled r, .started r]) = starts j ++ [r] := by
  rw [line, starts_append]
  exact List.append_nil _

theorem line_hold_of_changed (next : Nat) (cur : Option Request) (held : Pending) (j : List Entry)
    {r : Request} (hkind : r.kind = .changed) :
    (Lane.mk next cur (held.push r)).line (j ++ [.scheduled r]) =
      starts j ++ held.deleted.toList ++ [r] := by
  rw [line, starts_append, show starts [.scheduled r] = [] from rfl, List.append_nil,
    held.requests_push_of_changed hkind, List.append_assoc]

theorem line_hold_of_deleted (next : Nat) (cur : Option Request) (held : Pending) (j : List Entry)
    {r : Request} (hkind : r.kind = .deleted) :
    (Lane.mk next cur (held.push r)).line (j ++ [.scheduled r]) = starts j ++ [r] := by
  rw [line, starts_append, show starts [.scheduled r] = [] from rfl, List.append_nil,
    held.requests_push_of_deleted hkind]

theorem line_follow (next : Nat) (cur r : Request) {held rest : Pending} (j : List Entry)
    (result : PassResult) (pop : held.pop = (rest, some r)) :
    (Lane.mk next (some r) rest).line (j ++ [.completed cur result, .started r]) =
      (Lane.mk next (some cur) held).line j := by
  show starts (j ++ [.completed cur result, .started r]) ++ rest.requests =
    starts j ++ held.requests
  rw [starts_append, Pending.requests_of_pop pop, List.append_assoc]
  rfl

theorem line_rest (next : Nat) (cur : Request) (j : List Entry) (result : PassResult) :
    (Lane.mk next none .empty).line (j ++ [.completed cur result]) =
      (Lane.mk next (some cur) .empty).line j := by
  rw [line, starts_append, show starts [.completed cur result] = [] from rfl, List.append_nil]
  rfl

/-- A request that arrives is the last of the line. -/
theorem Lined.arrive {j k : List Entry} {lane lane' : Lane} {r : Request} {front : List Request}
    (h : Lined j lane) (fresh : lane.next ≤ r.serial) (next : lane'.next = r.serial + 1)
    (arrived : arrivals k = arrivals j ++ [r]) (hline : lane'.line k = front ++ [r])
    (hfront : front.Sublist (arrivals j)) (sorted : lane'.held.Sorted)
    (busy : lane'.current ≠ none) : Lined k lane' := by
  -- serials go up, so the new arrival has the highest
  have hlt : ∀ x ∈ arrivals j, x.serial < r.serial := by
    intro x hx
    have hbound := h.bounded x hx
    omega
  constructor
  case numbered =>
    rw [arrived]
    refine List.pairwise_append.2 ⟨h.numbered, List.pairwise_singleton _ _, ?_⟩
    intro x hx y hy
    rw [List.mem_singleton.1 hy]
    exact hlt x hx
  case bounded =>
    intro x hx
    rw [arrived] at hx
    rw [next]
    rcases List.mem_append.1 hx with hx | hx
    · have hbefore := hlt x hx
      omega
    · rw [List.mem_singleton.1 hx]
      omega
  case sublist =>
    rw [hline, arrived]
    exact hfront.append (List.Sublist.refl [r])
  case newest =>
    rw [hline, arrived, List.getLast?_concat, List.getLast?_concat]
  case sorted => exact sorted
  case idle =>
    intro hidle
    exact absurd hidle busy

/-- A pass that completes leaves the line as it is. -/
theorem Lined.finish {j k : List Entry} {lane lane' : Lane} (h : Lined j lane)
    (next : lane'.next = lane.next) (arrived : arrivals k = arrivals j)
    (hline : lane'.line k = lane.line j) (sorted : lane'.held.Sorted)
    (idle : lane'.current = none → lane'.held = .empty) : Lined k lane' where
  numbered := arrived ▸ h.numbered
  bounded := by rw [arrived, next]; exact h.bounded
  sublist := by rw [hline, arrived]; exact h.sublist
  newest := by rw [hline, arrived]; exact h.newest
  sorted := sorted
  idle := idle

theorem Lined.step {j es : List Entry} {lane lane' : Lane} (h : Lined j lane)
    (step : Step lane es lane') : Lined (j ++ es) lane' := by
  cases step with
  | @enter next held r fresh =>
    -- nothing is held, so the line is what was started
    obtain rfl : held = .empty := h.idle rfl
    have hfront : (starts j ++ []).Sublist (arrivals j) := h.sublist
    rw [List.append_nil] at hfront
    exact h.arrive fresh rfl (arrivals_append ..) (line_enter ..) hfront h.sorted (by simp)
  | @hold next cur held r fresh =>
    rcases hkind : r.kind with _ | _
    · -- a held deletion stays in front of the change
      have hfront : (starts j ++ held.deleted.toList).Sublist (arrivals j) :=
        ((List.sublist_append_left _ _).append_left _).trans h.sublist
      exact h.arrive fresh rfl (arrivals_append ..) (line_hold_of_changed _ _ _ _ hkind) hfront
        (h.sorted.push r) (by simp)
    · -- nothing that was held stays
      have hfront : (starts j).Sublist (arrivals j) :=
        (List.sublist_append_left _ _).trans h.sublist
      exact h.arrive fresh rfl (arrivals_append ..) (line_hold_of_deleted _ _ _ _ hkind) hfront
        (h.sorted.push r) (by simp)
  | @follow next cur r held rest result pop =>
    refine h.finish rfl ?_ (line_follow _ _ _ _ _ pop) (h.sorted.pop pop) (by simp)
    rw [arrivals_append]
    exact List.append_nil _
  | @rest next cur result =>
    refine h.finish rfl ?_ (line_rest ..) h.sorted fun _ => rfl
    rw [arrivals_append]
    exact List.append_nil _

/-! ## One pass at a time -/

/-- Whenever a pass was started, all passes that had been started had completed. -/
def OneByOne (j : List Entry) : Prop :=
  ∀ before r after, j = before ++ .started r :: after → starts before = finishes before

/-- An entry of two lists in a row stands in the first or in the second. -/
theorem split_append {j es before after : List Entry} {e : Entry}
    (h : j ++ es = before ++ e :: after) :
    (∃ rest, j = before ++ e :: rest) ∨
      ∃ front, before = j ++ front ∧ es = front ++ e :: after := by
  rcases List.append_eq_append_iff.1 h with ⟨front, hbefore, hes⟩ | ⟨rest, hj, hafter⟩
  · exact .inr ⟨front, hbefore, hes⟩
  · -- what follows the first list may begin with the entry itself
    rcases rest with _ | ⟨e', rest⟩
    · refine .inr ⟨[], ?_, ?_⟩
      · rw [hj, List.append_nil, List.append_nil]
      · exact hafter.symm
    · obtain ⟨rfl, -⟩ := List.cons.inj hafter
      exact .inl ⟨rest, hj⟩

theorem OneByOne.quiet {j es : List Entry} (h : OneByOne j) (quiet : starts es = []) :
    OneByOne (j ++ es) := by
  intro before r after heq
  rcases split_append heq with ⟨rest, hj⟩ | ⟨front, -, rfl⟩
  · exact h before r rest hj
  · rw [starts_append] at quiet
    simp [starts, Entry.start?] at quiet

theorem OneByOne.start {j : List Entry} (h : OneByOne j) (done : starts j = finishes j)
    (x : Request) : OneByOne (j ++ [.started x]) := by
  intro before r after heq
  rcases split_append heq with ⟨rest, hj⟩ | ⟨front, rfl, hes⟩
  · exact h before r rest hj
  · rcases front with _ | ⟨_, front⟩
    · rw [List.append_nil]
      exact done
    · simp at hes

/-- Passes are started one by one, and all that were started have completed, but for the one under
way. -/
structure Serialized (j : List Entry) (lane : Lane) : Prop where
  open_eq : starts j = finishes j ++ lane.current.toList
  oneByOne : OneByOne j

theorem Serialized.empty : Serialized [] Lane.empty where
  open_eq := rfl
  oneByOne := by simp [OneByOne]

/-- Starting the next pass once all have completed. -/
theorem Serialized.start {j : List Entry} {lane : Lane} {r : Request} (h : OneByOne j)
    (done : starts j = finishes j) (current : lane.current = some r) :
    Serialized (j ++ [.started r]) lane where
  open_eq := by
    rw [starts_append, finishes_append, done, current, show finishes [.started r] = [] from rfl,
      List.append_nil]
    rfl
  oneByOne := h.start done r

/-- Once the pass under way has completed, all have. -/
theorem Serialized.finish {j : List Entry} {lane : Lane} {cur : Request} (h : Serialized j lane)
    (current : lane.current = some cur) (result : PassResult) :
    OneByOne (j ++ [.completed cur result]) ∧
      starts (j ++ [.completed cur result]) = finishes (j ++ [.completed cur result]) := by
  refine ⟨h.oneByOne.quiet rfl, ?_⟩
  rw [starts_append, finishes_append, h.open_eq, current, show starts [.completed cur result] = []
    from rfl, List.append_nil]
  rfl

theorem Serialized.step {j es : List Entry} {lane lane' : Lane} (h : Serialized j lane)
    (step : Step lane es lane') : Serialized (j ++ es) lane' := by
  cases step with
  | @enter next held r fresh =>
    -- the arrival starts nothing, and no pass is under way
    have hdone : starts (j ++ [.scheduled r]) = finishes (j ++ [.scheduled r]) := by
      rw [starts_append, finishes_append, h.open_eq]
      simp [starts, finishes, List.filterMap_cons, Entry.start?, Entry.finish?]
    have honeByOne : OneByOne (j ++ [.scheduled r]) := h.oneByOne.quiet rfl
    have hstart : Serialized (j ++ [.scheduled r] ++ [.started r]) ⟨r.serial + 1, some r, held⟩ :=
      .start honeByOne hdone rfl
    rwa [List.append_assoc] at hstart
  | @hold next cur held r fresh =>
    refine ⟨?_, h.oneByOne.quiet rfl⟩
    rw [starts_append, finishes_append, h.open_eq]
    simp [starts, finishes, List.filterMap_cons, Entry.start?, Entry.finish?]
  | @follow next cur r held rest result pop =>
    -- the end comes first, and then all that were started have completed
    obtain ⟨honeByOne, hdone⟩ := h.finish rfl result
    have hstart : Serialized (j ++ [.completed cur result] ++ [.started r]) ⟨next, some r, rest⟩ :=
      .start honeByOne hdone rfl
    rwa [List.append_assoc] at hstart
  | @rest next cur result =>
    obtain ⟨honeByOne, hdone⟩ := h.finish rfl result
    exact ⟨hdone.trans (List.append_nil _).symm, honeByOne⟩

/-! ## What becomes of deletions -/

/-- A later deletion arrived while the deletion had not been started. -/
def Superseded (d : Request) (j : List Entry) : Prop :=
  ∃ before d' after, j = before ++ .scheduled d' :: after ∧ d'.kind = .deleted ∧
    d ∈ arrivals before ∧ d ∉ starts before

theorem Superseded.append {d : Request} {j : List Entry} (h : Superseded d j) (es : List Entry) :
    Superseded d (j ++ es) := by
  obtain ⟨before, d', after, rfl, hfound⟩ := h
  exact ⟨before, d', after ++ es, by rw [List.append_assoc, List.cons_append], hfound⟩

/-- Each deletion was started, or is held, or was superseded by a later one. -/
def Kept (j : List Entry) (lane : Lane) : Prop :=
  ∀ d ∈ arrivals j, d.kind = .deleted →
    d ∈ starts j ∨ lane.held.deleted = some d ∨ Superseded d j

/-- For each deletion there is one in a line that arrived no earlier, and before each change of the
line that arrived after it. -/
def Covers (line : List Request) (d : Request) : Prop :=
  ∃ d' ∈ line, d'.kind = .deleted ∧ d.serial ≤ d'.serial ∧
    ∀ x ∈ line, x.kind = .changed → d.serial < x.serial → d'.serial < x.serial

/-- The line of a lane covers the deletions that have arrived. -/
def Covered (j : List Entry) (lane : Lane) : Prop :=
  ∀ d ∈ arrivals j, d.kind = .deleted → Covers (lane.line j) d

theorem Lined.mem_arrivals {j : List Entry} {lane : Lane} (h : Lined j lane) {r : Request}
    (hr : r ∈ lane.line j) : r ∈ arrivals j := h.sublist.subset hr

/-- What was started arrived before what is held. -/
theorem Lined.start_lt_held {j : List Entry} {lane : Lane} (h : Lined j lane) {x y : Request}
    (hx : x ∈ starts j) (hy : y ∈ lane.held.requests) : x.serial < y.serial :=
  (List.pairwise_append.1 h.pairwise).2.2 x hx y hy

/-- A request that arrives last keeps the deletions of a line covered, if each deletion of the line
stays in front of it or gives way to it as one that arrived after all that stays. -/
theorem Covered.arrive {j k : List Entry} {lane lane' : Lane} {r : Request} {front : List Request}
    (h : Covered j lane) (hlined : Lined j lane) (fresh : lane.next ≤ r.serial)
    (arrived : arrivals k = arrivals j ++ [r]) (hline : lane'.line k = front ++ [r])
    (hfront : ∀ x ∈ front, x ∈ lane.line j)
    (stays : ∀ d' ∈ lane.line j, d'.kind = .deleted →
      d' ∈ front ∨ r.kind = .deleted ∧ ∀ x ∈ front, x.serial < d'.serial) : Covered k lane' := by
  have hlt : ∀ x ∈ arrivals j, x.serial < r.serial := by
    intro x hx
    have hbound := hlined.bounded x hx
    omega
  intro d hd hkind
  rw [hline]
  rw [arrived] at hd
  rcases List.mem_append.1 hd with hd | hd
  · obtain ⟨d', hd', hdeleted, hle, hbefore⟩ := h d hd hkind
    rcases stays d' hd' hdeleted with hstay | ⟨hr, hgone⟩
    · refine ⟨d', List.mem_append_left _ hstay, hdeleted, hle, ?_⟩
      intro x hx hx' hdx
      rcases List.mem_append.1 hx with hx | hx
      · exact hbefore x (hfront x hx) hx' hdx
      · rw [List.mem_singleton.1 hx]
        exact hlt d' (hlined.mem_arrivals hd')
    · -- the deletion that covered `d` gives way to the new one
      refine ⟨r, List.mem_append_right _ (List.mem_singleton_self r), hr,
        Nat.le_of_lt (hlt d hd), ?_⟩
      intro x hx hx' hdx
      rcases List.mem_append.1 hx with hx | hx
      · exact absurd (hbefore x (hfront x hx) hx' hdx) (Nat.lt_asymm (hgone x hx))
      · rw [List.mem_singleton.1 hx, hr] at hx'
        cases hx'
  · -- a deletion that arrives covers itself
    obtain rfl := List.mem_singleton.1 hd
    exact ⟨d, List.mem_append_right _ (List.mem_singleton_self d), hkind, Nat.le_refl _,
      fun x _ _ hdx => hdx⟩

/-- A pass that completes keeps the deletions covered. -/
theorem Covered.finish {j k : List Entry} {lane lane' : Lane} (h : Covered j lane)
    (arrived : arrivals k = arrivals j) (hline : lane'.line k = lane.line j) : Covered k lane' := by
  intro d hd hkind
  rw [hline]
  exact h d (arrived ▸ hd) hkind

theorem Covered.step {j es : List Entry} {lane lane' : Lane} (h : Covered j lane)
    (hlined : Lined j lane) (step : Step lane es lane') : Covered (j ++ es) lane' := by
  cases step with
  | @enter next held r fresh =>
    obtain rfl : held = .empty := hlined.idle rfl
    have hline : (Lane.mk next none .empty).line j = starts j := List.append_nil _
    refine h.arrive hlined fresh (arrivals_append ..) (line_enter ..) ?_ ?_
    · rw [hline]
      exact fun x hx => hx
    · rw [hline]
      exact fun d' hd' _ => .inl hd'
  | @hold next cur held r fresh =>
    rcases hkind : r.kind with _ | _
    · -- the change comes behind the deletions of the line
      refine h.arrive hlined fresh (arrivals_append ..) (line_hold_of_changed _ _ _ _ hkind) ?_ ?_
      · exact fun x hx => ((List.sublist_append_left _ _).append_left _).subset hx
      · intro d' hd' hdeleted
        rcases List.mem_append.1 hd' with hd' | hd'
        · exact .inl (List.mem_append_left _ hd')
        · rcases hlined.sorted.place_of_mem hd' with ⟨hplace, -⟩ | ⟨-, hchanged⟩
          · exact .inl (List.mem_append_right _ (Option.mem_toList.2 hplace))
          · rw [hchanged] at hdeleted
            cases hdeleted
    · -- a held deletion gives way to the new one, after all that was started
      refine h.arrive hlined fresh (arrivals_append ..) (line_hold_of_deleted _ _ _ _ hkind) ?_ ?_
      · exact fun x hx => List.mem_append_left _ hx
      · intro d' hd' _
        rcases List.mem_append.1 hd' with hd' | hd'
        · exact .inl hd'
        · exact .inr ⟨hkind, fun x hx => hlined.start_lt_held hx hd'⟩
  | @follow next cur r held rest result pop =>
    refine h.finish ?_ (line_follow _ _ _ _ _ pop)
    rw [arrivals_append]
    exact List.append_nil _
  | @rest next cur result =>
    refine h.finish ?_ (line_rest ..)
    rw [arrivals_append]
    exact List.append_nil _

/-- A deletion that is accounted for stays so, as long as the held one is started or superseded when
it gives up its place. -/
theorem Kept.extend {j es : List Entry} {lane lane' : Lane} (h : Kept j lane)
    (place : ∀ d, lane.held.deleted = some d → d ∈ starts es ∨ lane'.held.deleted = some d ∨
      Superseded d (j ++ es))
    (new : ∀ d ∈ arrivals es, d.kind = .deleted → d ∈ starts es ∨ lane'.held.deleted = some d) :
    Kept (j ++ es) lane' := by
  intro d hd hkind
  rw [arrivals_append] at hd
  rw [starts_append]
  rcases List.mem_append.1 hd with hd | hd
  · rcases h d hd hkind with hstarted | hheld | hsuperseded
    · exact .inl (List.mem_append_left _ hstarted)
    · exact (place d hheld).imp (List.mem_append_right _) id
    · exact .inr (.inr (hsuperseded.append es))
  · exact (new d hd hkind).imp (List.mem_append_right _) .inl

theorem Kept.step {j es : List Entry} {lane lane' : Lane} (h : Kept j lane)
    (hlined : Lined j lane) (step : Step lane es lane') : Kept (j ++ es) lane' := by
  cases step with
  | @enter next held r fresh =>
    obtain rfl : held = .empty := hlined.idle rfl
    exact h.extend (by simp [Pending.empty]) fun d hd _ => .inl hd
  | @hold next cur held r fresh =>
    have harrived : arrivals [.scheduled r] = [r] := rfl
    rcases hkind : r.kind with _ | _
    · -- a change leaves the place of deletions alone
      refine h.extend (fun d hd => .inr (.inl ?_)) ?_
      · rw [show (held.push r).deleted = held.deleted by
          simp [Pending.push, show r.notification.kind = .changed from hkind]]
        exact hd
      · intro d hd hdeleted
        rw [harrived, List.mem_singleton] at hd
        rw [hd, hkind] at hdeleted
        cases hdeleted
    · refine h.extend (fun d hd => .inr (.inr ?_)) fun d hd _ => .inr ?_
      · -- the held deletion gives way to the new one before it was started
        have hmem : d ∈ held.requests := List.mem_append_left _ (Option.mem_toList.2 hd)
        refine ⟨j, r, [], rfl, hkind, hlined.mem_arrivals (List.mem_append_right _ hmem), ?_⟩
        intro hstarted
        have hlt := hlined.start_lt_held hstarted hmem
        omega
      · rw [harrived, List.mem_singleton] at hd
        rw [hd]
        simp [Pending.push, show r.notification.kind = .deleted from hkind]
  | @follow next cur r held rest result pop =>
    refine h.extend (fun d hd => .inl ?_) (by simp [arrivals, Entry.arrival?])
    -- of what is held, the deletion is taken first
    have hd : held.deleted = some d := hd
    rw [Pending.pop, hd] at pop
    obtain ⟨-, hr⟩ := Prod.mk.inj pop
    rw [← Option.some.inj hr]
    exact List.mem_singleton_self d
  | @rest next cur result =>
    exact h.extend (by simp [Pending.empty]) (by simp [arrivals, Entry.arrival?])

/-! ## Histories -/

/-- What is known of the entries of a lane since its start. -/
structure History (j : List Entry) (lane : Lane) : Prop where
  lined : Lined j lane
  serialized : Serialized j lane
  covered : Covered j lane
  kept : Kept j lane

theorem History.empty : History [] Lane.empty where
  lined := .empty
  serialized := .empty
  covered := by simp [Covered, arrivals]
  kept := by simp [Kept, arrivals]

theorem History.step {j es : List Entry} {lane lane' : Lane} (h : History j lane)
    (step : Step lane es lane') : History (j ++ es) lane' where
  lined := h.lined.step step
  serialized := h.serialized.step step
  covered := h.covered.step h.lined step
  kept := h.kept.step h.lined step

/-- Every run of a lane from its start has a history. -/
theorem Run.history {j es : List Entry} {lane lane' : Lane} (h : Run lane es lane')
    (start : History j lane) : History (j ++ es) lane' :=
  h.keeps (fun h step => History.step h step) start

/-- Before a change is started, a deletion that arrived before it has been started and has
completed, or a later deletion has that arrived before the change as well. -/
theorem History.deletion_first {j before after : List Entry} {lane : Lane} {d x : Request}
    (h : History j lane) (hj : j = before ++ .started x :: after) (hx : x.kind = .changed)
    (hd : d ∈ arrivals j) (hdeleted : d.kind = .deleted) (hlt : d.serial < x.serial) :
    ∃ d' ∈ arrivals j, d'.kind = .deleted ∧ d.serial ≤ d'.serial ∧ d'.serial < x.serial ∧
      d' ∈ starts before ∧ d' ∈ finishes before := by
  obtain ⟨d', hd', hkind, hle, hbefore⟩ := h.covered d hd hdeleted
  have hstarts : starts j = starts before ++ x :: starts after := by
    rw [hj, starts_append]
    rfl
  have hxstarts : x ∈ starts j := by
    rw [hstarts]
    exact List.mem_append_right _ List.mem_cons_self
  have hd'lt : d'.serial < x.serial := hbefore x (List.mem_append_left _ hxstarts) hx hlt
  -- what is held arrived after `x`, and what was started after `x` too
  have hd'starts : d' ∈ starts j := by
    rcases List.mem_append.1 hd' with hd' | hd'
    · exact hd'
    · have hlater := h.lined.start_lt_held hxstarts hd'
      omega
  have hpairwise : (starts j).Pairwise (·.serial < ·.serial) :=
    (List.pairwise_append.1 h.lined.pairwise).1
  rw [hstarts] at hd'starts hpairwise
  have hd'before : d' ∈ starts before := by
    rcases List.mem_append.1 hd'starts with hd' | hd'
    · exact hd'
    · rcases List.mem_cons.1 hd' with rfl | hd'
      · omega
      · have hlater := (List.pairwise_cons.1 (List.pairwise_append.1 hpairwise).2.1).1 d' hd'
        omega
  refine ⟨d', h.lined.mem_arrivals hd', hkind, hle, hd'lt, hd'before, ?_⟩
  rw [← h.serialized.oneByOne before x after hj]
  exact hd'before

/-- What is started in a step, or held after it, was held before it or arrives in it. -/
theorem Step.mem_line {lane lane' : Lane} {es : List Entry} (h : Step lane es lane') {x : Request}
    (hx : x ∈ lane'.line es) : x ∈ lane.held.requests ∨ x ∈ arrivals es := by
  cases h with
  | @enter next held r fresh =>
    rcases List.mem_append.1 hx with hx | hx
    · exact .inr hx
    · exact .inl hx
  | @hold next cur held r fresh =>
    have hx : x ∈ (held.push r).requests := hx
    rcases Pending.mem_requests_push hx with hx | rfl
    · exact .inl hx
    · exact .inr (List.mem_singleton_self x)
  | @follow next cur r held rest result pop =>
    have hx : x ∈ r :: rest.requests := hx
    rw [← Pending.requests_of_pop pop] at hx
    exact .inl hx
  | rest => exact absurd hx List.not_mem_nil

/-- What is started in a run, or held after it, was held before it or arrives in it. -/
theorem Run.mem_line {lane lane' : Lane} {es : List Entry} (h : Run lane es lane') {x : Request}
    (hx : x ∈ lane'.line es) : x ∈ lane.held.requests ∨ x ∈ arrivals es := by
  induction h with
  | nil => exact .inl hx
  | @cons first middle last es rest step after ih =>
    rw [arrivals_append]
    rw [line, starts_append, List.append_assoc] at hx
    rcases List.mem_append.1 hx with hx | hx
    · exact (step.mem_line (List.mem_append_left _ hx)).imp id (List.mem_append_left _)
    · -- what was held after the first step was held before it, or arrived in it
      rcases ih hx with hx | hx
      · exact (step.mem_line (List.mem_append_right _ hx)).imp id (List.mem_append_left _)
      · exact .inr (List.mem_append_right _ hx)

/-- A change that is held when a deletion arrives is never started. -/
theorem History.never_started {j es : List Entry} {lane' : Lane} {next : Nat} {cur : Request}
    {held : Pending} {d x : Request} (h : History j ⟨next, some cur, held⟩)
    (hx : held.changed = some x) (hd : d.kind = .deleted) (fresh : next ≤ d.serial)
    (after : Run ⟨d.serial + 1, some cur, held.push d⟩ es lane') :
    x ∉ starts (j ++ ([.scheduled d] ++ es)) := by
  have hmem : x ∈ held.requests := List.mem_append_right _ (Option.mem_toList.2 hx)
  have harrived : x ∈ arrivals j := h.lined.mem_arrivals (List.mem_append_right _ hmem)
  have hnumbered := ((Run.cons (.hold fresh) after).history h).lined.numbered
  rw [arrivals_append] at hnumbered
  have hlater : ∀ y ∈ arrivals ([.scheduled d] ++ es), x.serial < y.serial :=
    (List.pairwise_append.1 hnumbered).2.2 x harrived
  intro hstarted
  rw [starts_append] at hstarted
  rcases List.mem_append.1 hstarted with hstarted | hstarted
  · -- what was started arrived before what is held
    have hlt := h.lined.start_lt_held hstarted hmem
    omega
  · rw [starts_append, show starts [.scheduled d] = [] from rfl, List.nil_append] at hstarted
    rcases after.mem_line (List.mem_append_left _ hstarted) with hheld | harrives
    · -- the deletion is all that is held
      rw [held.requests_push_of_deleted hd, List.mem_singleton] at hheld
      rw [← hheld, h.lined.sorted.changed x hx] at hd
      cases hd
    · -- what arrives after the deletion has a higher serial
      have hmore : x ∈ arrivals ([.scheduled d] ++ es) := by
        rw [arrivals_append]
        exact List.mem_append_right _ harrives
      have hlt := hlater x hmore
      omega

end Lane

end Controller

end ClusterVitals
