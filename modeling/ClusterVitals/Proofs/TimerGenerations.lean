import ClusterVitals.Proofs.TimerMessages
import Mathlib.Data.List.Nodup

/-!
# Every timer is heard once at most, and not after it was replaced

A timer is known by its generation. From the time it is armed, a generation is carried by the timer
that sleeps, then by the message that the timer leaves, and then by no one any more. The books hold
the generation of the last timer that was armed for an object, until its message is taken. A message
of an earlier timer is passed over, wherever it was when the timer was replaced.

## Shape of the proofs

`Dated` is the invariant: among the messages that were taken and those that are still carried no
generation stands twice, and the generation in the books is the latest of its object and is carried
by a timer that was not stopped. Three kinds of turns keep it: those that arm a timer, those that
take the message of the timer in the books, and those that do neither.
-/

namespace ClusterVitals.Controller

open State Ledger

/-! ## Replaced timers -/

/-- Messages of replaced timers are not taken: once a later timer of the same object was armed, that
of the earlier one is not. -/
def Superseding (j : List Entry) : Prop :=
  ∀ before t' after t, j = before ++ .armed t' :: after → t ∈ armings before → t.key = t'.key →
    ∀ ring ∈ firings after, ring.generation ≠ t.generation

theorem Superseding.append {j es : List Entry} (h : Superseding j)
    (apart : armings es = [] ∨ firings es = [])
    (increasing : (armings j).Pairwise (·.generation < ·.generation))
    (fresh : ∀ ring ∈ firings es, ∀ t ∈ armings j, ∀ t' ∈ armings j, t.key = t'.key →
      t.generation < t'.generation → ring.generation ≠ t.generation) : Superseding (j ++ es) := by
  intro before t' after t heq ht hkey ring hring
  rcases Lane.split_append heq with ⟨rest, rfl⟩ | ⟨front, -, rfl⟩
  · -- the later timer was armed in the first part, and so was the earlier one
    have hsplit : armings (before ++ .armed t' :: rest) = armings before ++ t' :: armings rest :=
      armings_append _ _
    have hlt : t.generation < t'.generation := by
      rw [hsplit] at increasing
      exact (List.pairwise_append.1 increasing).2.2 t ht t' List.mem_cons_self
    rw [List.append_assoc, List.append_cancel_left_eq, List.cons_append, List.cons.injEq] at heq
    rw [← heq.2, firings_append] at hring
    rcases List.mem_append.1 hring with hring | hring
    · exact h before t' rest t rfl ht hkey ring hring
    · refine fresh ring hring t ?_ t' ?_ hkey hlt
      · rw [hsplit]
        exact List.mem_append_left _ ht
      · rw [hsplit]
        exact List.mem_append_right _ List.mem_cons_self
  · -- entries that arm a timer take no message
    rcases apart with hnone | hnone
    · rw [armings_append] at hnone
      simp [armings, Entry.timer?] at hnone
    · have hmem : ring ∈ firings (front ++ .armed t' :: after) := by
        rw [firings_append]
        exact List.mem_append_right _ hring
      rw [hnone] at hmem
      exact absurd hmem List.not_mem_nil

/-! ## The invariant -/

/-- The messages that were taken or are still carried, each with the generation of its timer. -/
def generations (s : State) (j : List Entry) : List Nat :=
  (firings j ++ s.messages).map Ring.generation

/-- Where generations stand. -/
structure Dated (s : State) (j : List Entry) : Prop where
  increasing : (armings j).Pairwise (·.generation < ·.generation)
  bounded : ∀ t ∈ armings j, t.generation ≤ s.ledger.lastGeneration
  once : (generations s j).Nodup
  armed : ∀ m ∈ firings j ++ s.messages, ∃ t ∈ armings j, t.message = m
  /-- The timer of an object is the last one that was armed for it. -/
  latest : ∀ (key : ObjectKey) (g : Nat), s.ledger.timers[key]? = some g → ∀ t ∈ armings j,
    t.key = key → t.generation ≤ g
  /-- The message of the timer of an object is still to come. -/
  live : s.phase ≠ .broken → ∀ (key : ObjectKey) (g : Nat), s.ledger.timers[key]? = some g →
    ∃ m ∈ s.coming, m.generation = g ∧ m.notification.key = key
  forgotten : s.phase.isClosed → ∀ key : ObjectKey, s.ledger.timers[key]? = none
  superseding : Superseding j

theorem dated_initial (clock : Instant) : Dated (.initial clock) [] := by
  constructor
  case increasing => exact .nil
  case bounded => exact fun t ht => absurd ht List.not_mem_nil
  case once => exact List.nodup_nil
  case armed => exact fun m hm => absurd hm List.not_mem_nil
  case latest => exact fun key g hg => nomatch Std.ExtTreeMap.getElem?_empty.symm.trans hg
  case live => exact fun _ key g hg => nomatch Std.ExtTreeMap.getElem?_empty.symm.trans hg
  case forgotten => exact fun h => by cases h
  case superseding =>
    intro before t' after t heq
    simp at heq

namespace Dated

variable {s s' : State} {j es : List Entry}

/-- A generation is armed once. -/
theorem eq_of_generation (h : Dated s j) {t t' : Timer} (ht : t ∈ armings j) (ht' : t' ∈ armings j)
    (heq : t.generation = t'.generation) : t = t' := by
  have hforward : (armings j).Pairwise fun t t' => t.generation = t'.generation → t = t' :=
    h.increasing.imp fun hlt heq => absurd heq (Nat.ne_of_lt hlt)
  have hbackward : (armings j).Pairwise (flip fun t t' => t.generation = t'.generation → t = t') :=
    h.increasing.imp fun hlt heq => absurd heq (Nat.ne_of_gt hlt)
  exact hforward.forall_of_forall_of_flip (fun _ _ _ => rfl) hbackward ht ht' heq

/-- Two messages that are carried under one generation are the same. -/
theorem eq_of_message (h : Dated s j) {m m' : Ring} (hm : m ∈ s.messages) (hm' : m' ∈ s.messages)
    (heq : m.generation = m'.generation) : m = m' :=
  List.inj_on_of_nodup_map h.once (List.mem_append_right _ hm) (List.mem_append_right _ hm') heq

/-- No timer is armed or heard in a turn: some messages may be lost, but not those of the timers in
the books. -/
theorem still (h : Dated s j) (quiet : armings es = [] ∧ firings es = [])
    (timers : ∀ (key : ObjectKey) (g : Nat), s'.ledger.timers[key]? = some g →
      s.ledger.timers[key]? = some g)
    (last : s'.ledger.lastGeneration = s.ledger.lastGeneration)
    (messages : s'.messages.Subperm s.messages)
    (live : s'.phase ≠ .broken → s.phase ≠ .broken ∧ ∀ m ∈ s.coming,
      s'.ledger.timers[m.notification.key]? = some m.generation → m ∈ s'.coming)
    (forgotten : s'.phase.isClosed → ∀ key : ObjectKey, s'.ledger.timers[key]? = none) :
    Dated s' (j ++ es) := by
  have harmings : armings (j ++ es) = armings j := by rw [armings_append, quiet.1, List.append_nil]
  have hfirings : firings (j ++ es) = firings j := by rw [firings_append, quiet.2, List.append_nil]
  constructor
  case increasing => exact harmings ▸ h.increasing
  case bounded =>
    rw [harmings, last]
    exact h.bounded
  case once =>
    obtain ⟨l, hperm, hsub⟩ := messages
    have hnodup : ((firings j ++ l).map Ring.generation).Nodup :=
      h.once.sublist ((hsub.append_left _).map _)
    rw [generations, hfirings]
    exact ((hperm.append_left _).map _).nodup_iff.1 hnodup
  case armed =>
    intro m hm
    rw [harmings]
    rw [hfirings] at hm
    refine h.armed m ?_
    rcases List.mem_append.1 hm with hm | hm
    · exact List.mem_append_left _ hm
    · exact List.mem_append_right _ (messages.subset hm)
  case latest =>
    intro key g hg
    rw [harmings]
    exact h.latest key g (timers key g hg)
  case live =>
    intro hopen key g hg
    obtain ⟨hwasOpen, hkept⟩ := live hopen
    obtain ⟨m, hm, rfl, rfl⟩ := h.live hwasOpen key g (timers key g hg)
    exact ⟨m, hkept m hm hg, rfl, rfl⟩
  case forgotten => exact forgotten
  case superseding =>
    refine h.superseding.append (.inl quiet.1) h.increasing ?_
    rw [quiet.2]
    exact fun ring hring => absurd hring List.not_mem_nil

/-- The message of the timer in the books is taken. -/
theorem fire (h : Dated s j) {ring : Ring} {rest : List Ring} (first : s.rings = ring :: rest)
    (current : s.ledger.timers[ring.notification.key]? = some ring.generation)
    (quiet : armings es = []) (fired : firings es = [ring])
    (timers : s'.ledger.timers = s.ledger.timers.erase ring.notification.key)
    (last : s'.ledger.lastGeneration = s.ledger.lastGeneration)
    (sleepers : s'.sleepers = s.sleepers) (rings : s'.rings = rest) (phase : s'.phase = s.phase) :
    Dated s' (j ++ es) := by
  have harmings : armings (j ++ es) = armings j := by rw [armings_append, quiet, List.append_nil]
  have hfirings : firings (j ++ es) = firings j ++ [ring] := by rw [firings_append, fired]
  have hleft : ring ∈ s.messages := by
    refine List.mem_append_right _ ?_
    rw [first]
    exact List.mem_cons_self
  have hmessages : s.messages.Perm (ring :: s'.messages) := by
    rw [messages, messages, first, sleepers, rings]
    exact List.perm_middle
  have htimers (key : ObjectKey) (g : Nat) (hg : s'.ledger.timers[key]? = some g) :
      ring.notification.key ≠ key ∧ s.ledger.timers[key]? = some g := by
    rw [timers, Std.ExtTreeMap.getElem?_erase] at hg
    split at hg
    · cases hg
    · rename_i hne
      exact ⟨by simpa using hne, hg⟩
  have hmoved : (firings j ++ s.messages).Perm (firings (j ++ es) ++ s'.messages) := by
    rw [hfirings, List.append_assoc]
    exact hmessages.append_left _
  constructor
  case increasing => exact harmings ▸ h.increasing
  case bounded =>
    rw [harmings, last]
    exact h.bounded
  case once => exact (hmoved.map _).nodup_iff.1 h.once
  case armed =>
    intro m hm
    rw [harmings]
    exact h.armed m (hmoved.mem_iff.2 hm)
  case latest =>
    intro key g hg
    rw [harmings]
    exact h.latest key g (htimers key g hg).2
  case live =>
    intro hopen key g hg
    obtain ⟨hne, hg⟩ := htimers key g hg
    obtain ⟨m, hm, rfl, rfl⟩ := h.live (phase ▸ hopen) key g hg
    refine ⟨m, ?_, rfl, rfl⟩
    rw [coming, sleepers, rings]
    rw [coming, first] at hm
    rcases List.mem_append.1 hm with hm | hm
    · exact List.mem_append_left _ hm
    · rcases List.mem_cons.1 hm with rfl | hm
      · exact absurd rfl hne
      · exact List.mem_append_right _ hm
  case forgotten =>
    intro hclosed key
    rw [phase] at hclosed
    rw [h.forgotten hclosed] at current
    cases current
  case superseding =>
    refine h.superseding.append (.inl quiet) h.increasing ?_
    intro ring' hring' t ht t' ht' hkey hlt heq
    rw [fired, List.mem_singleton] at hring'
    subst hring'
    -- the timer of the message is the last one of its object, so it is not the earlier one of two
    obtain ⟨x, hx, rfl⟩ := h.armed _ (List.mem_append_right _ hleft)
    obtain rfl : x = t := h.eq_of_generation hx ht heq
    have hlatest := h.latest _ _ current t' ht' hkey.symm
    exact absurd hlt (Nat.not_lt.2 hlatest)

/-- A timer is armed in the place of the one in the books. -/
theorem arm (h : Dated s j) {t : Timer} (running : s.phase = .running)
    (next : t.generation = s.ledger.lastGeneration + 1)
    (armings_es : armings es = [t]) (firings_es : firings es = [])
    (timers : s'.ledger.timers = s.ledger.timers.insert t.key t.generation)
    (last : s'.ledger.lastGeneration = t.generation)
    (messages : s'.messages.Perm (t.message :: s.messages))
    (comes : t.message ∈ s'.coming)
    (coming : ∀ m ∈ s.coming, s.ledger.timers[t.key]? ≠ some m.generation → m ∈ s'.coming)
    (phase : s'.phase = s.phase) : Dated s' (j ++ es) := by
  have harmings : armings (j ++ es) = armings j ++ [t] := by rw [armings_append, armings_es]
  have hfirings : firings (j ++ es) = firings j := by
    rw [firings_append, firings_es, List.append_nil]
  have hopen : s.phase ≠ .broken := by simp [running]
  have hnew {x : Timer} (hx : x ∈ armings j) : x.generation < t.generation := by
    have hbound := h.bounded x hx
    omega
  have hmoved : (t.message :: (firings j ++ s.messages)).Perm
      (firings (j ++ es) ++ s'.messages) := by
    rw [hfirings]
    exact List.perm_middle.symm.trans (messages.symm.append_left _)
  constructor
  case increasing =>
    rw [harmings]
    refine List.pairwise_append.2 ⟨h.increasing, List.pairwise_singleton _ _, ?_⟩
    intro x hx y hy
    rw [List.mem_singleton.1 hy]
    exact hnew hx
  case bounded =>
    intro x hx
    rw [harmings] at hx
    rw [last]
    rcases List.mem_append.1 hx with hx | hx
    · exact Nat.le_of_lt (hnew hx)
    · exact Nat.le_of_eq (congrArg Timer.generation (List.mem_singleton.1 hx))
  case once =>
    refine (hmoved.map _).nodup_iff.1 (List.nodup_cons.2 ⟨?_, h.once⟩)
    -- whatever is carried was armed before
    intro hmem
    obtain ⟨m, hm, heq⟩ := List.mem_map.1 hmem
    obtain ⟨x, hx, rfl⟩ := h.armed m hm
    exact Nat.ne_of_lt (hnew hx) heq
  case armed =>
    intro m hm
    rw [harmings]
    rcases List.mem_cons.1 (hmoved.mem_iff.2 hm) with rfl | hm
    · exact ⟨t, List.mem_append_right _ (List.mem_singleton_self t), rfl⟩
    · obtain ⟨x, hx, rfl⟩ := h.armed m hm
      exact ⟨x, List.mem_append_left _ hx, rfl⟩
  case latest =>
    intro key g hg x hx hkey
    rw [timers, Std.ExtTreeMap.getElem?_insert] at hg
    rw [harmings] at hx
    split at hg
    · obtain rfl := Option.some.inj hg
      rcases List.mem_append.1 hx with hx | hx
      · exact Nat.le_of_lt (hnew hx)
      · exact Nat.le_of_eq (congrArg Timer.generation (List.mem_singleton.1 hx))
    · rename_i hne
      rcases List.mem_append.1 hx with hx | hx
      · exact h.latest key g hg x hx hkey
      · rw [List.mem_singleton.1 hx] at hkey
        exact absurd (by simpa using hkey) hne
  case live =>
    intro _ key g hg
    rw [timers, Std.ExtTreeMap.getElem?_insert] at hg
    split at hg
    · rename_i hkey
      exact ⟨t.message, comes, Option.some.inj hg, Std.LawfulEqCmp.eq_of_compare hkey⟩
    · rename_i hne
      obtain ⟨m, hm, rfl, rfl⟩ := h.live hopen key g hg
      refine ⟨m, coming m hm ?_, rfl, rfl⟩
      -- the timer that is stopped is the one of another object
      intro hstopped
      obtain ⟨m', hm', heq, hkey⟩ := h.live hopen t.key _ hstopped
      obtain rfl := h.eq_of_message (mem_messages_of_coming hm') (mem_messages_of_coming hm) heq
      exact hne (by simpa using hkey.symm)
  case forgotten =>
    intro hclosed
    rw [phase, running] at hclosed
    cases hclosed
  case superseding =>
    refine h.superseding.append (.inr firings_es) h.increasing ?_
    rw [firings_es]
    exact fun ring hring => absurd hring List.not_mem_nil

/-! ## Every turn keeps the invariant -/

/-- Some messages of timers that are not in the books may be lost while the books of timers stay. -/
theorem keep (h : Dated s j) (quiet : armings es = [] ∧ firings es = [])
    (timers : s'.ledger.timers = s.ledger.timers)
    (last : s'.ledger.lastGeneration = s.ledger.lastGeneration)
    (messages : s'.messages.Subperm s.messages)
    (coming : ∀ m ∈ s.coming, s.ledger.timers[m.notification.key]? = some m.generation →
      m ∈ s'.coming)
    (phase : s'.phase = s.phase) : Dated s' (j ++ es) := by
  refine h.still quiet (by rw [timers]; exact fun _ _ hg => hg) last messages ?_ ?_
  · rw [phase, timers]
    exact fun hopen => ⟨hopen, coming⟩
  · rw [phase, timers]
    exact h.forgotten

/-- The timers and their messages stay as they are. -/
theorem same (h : Dated s j) (quiet : armings es = [] ∧ firings es = [])
    (timers : s'.ledger.timers = s.ledger.timers)
    (last : s'.ledger.lastGeneration = s.ledger.lastGeneration)
    (sleepers : s'.sleepers = s.sleepers) (rings : s'.rings = s.rings)
    (phase : s'.phase = s.phase) : Dated s' (j ++ es) := by
  refine h.keep quiet timers last ?_ ?_ phase
  · rw [messages, messages, sleepers, rings]
  · intro m hm _
    rw [coming, sleepers, rings]
    exact hm

/-- No generation in the books is later than the last one. -/
theorem le_lastGeneration (h : Dated s j) (unbroken : s.phase ≠ .broken) {key : ObjectKey} {g : Nat}
    (hg : s.ledger.timers[key]? = some g) : g ≤ s.ledger.lastGeneration := by
  obtain ⟨m, hm, rfl, -⟩ := h.live unbroken key g hg
  obtain ⟨t, ht, rfl⟩ := h.armed m (List.mem_append_right _ (mem_messages_of_coming hm))
  exact h.bounded t ht

/-- Two timers that sleep under one generation are the same. -/
theorem eq_of_sleeper (h : Dated s j) {t t' : Sleeper} (ht : t ∈ s.sleepers) (ht' : t' ∈ s.sleepers)
    (heq : t.timer.generation = t'.timer.generation) : t = t' := by
  have hnodup : (s.messages.map Ring.generation).Nodup :=
    h.once.sublist ((List.sublist_append_right _ _).map _)
  rw [State.messages, List.map_append, List.map_map, List.nodup_append] at hnodup
  exact List.inj_on_of_nodup_map hnodup.1 ht ht' heq

/-- A timer that was stopped leaves no message. -/
theorem ne_of_stopped (h : Dated s j) {t : Sleeper} (asleep : t ∈ s.sleepers) (stopped : t.stopped)
    {m : Ring} (hm : m ∈ s.coming) : m.generation ≠ t.timer.generation := by
  intro heq
  rcases mem_coming_cases hm with ⟨t', ht', hlive, rfl⟩ | hm
  · obtain rfl := h.eq_of_sleeper ht' asleep heq
    exact hlive stopped
  · have hnodup : (s.messages.map Ring.generation).Nodup :=
      h.once.sublist ((List.sublist_append_right _ _).map _)
    rw [State.messages, List.map_append, List.nodup_append] at hnodup
    exact hnodup.2.2 _ (List.mem_map_of_mem (List.mem_map_of_mem asleep)) _
      (List.mem_map_of_mem hm) heq.symm

variable {c : Controller}

/-- A notification is scheduled. -/
theorem schedule (h : Dated s j) (n : Notification) :
    Dated (s.schedule c n).1 (j ++ (s.schedule c n).2) := by
  have hnotes := state_notes_schedule c s n
  exact h.same (timeless_schedule c s n) (congrArg Notes.timers hnotes)
    (congrArg Notes.lastGeneration hnotes) (sleepers_schedule c s n) (rings_schedule c s n)
    (phase_schedule c s n)

/-- The controller takes the message of a timer. -/
theorem hear (h : Dated s j) {ring : Ring} {rest : List Ring} (first : s.rings = ring :: rest) :
    Dated (State.hear c { s with rings := rest } ring).1
      (j ++ (State.hear c { s with rings := rest } ring).2) := by
  simp only [State.hear]
  split
  · rename_i hcurrent
    rw [Ledger.fire, if_pos hcurrent]
    -- the notification is scheduled in books that have forgotten the timer
    set s₁ : State := { s with
      rings := rest
      ledger := { s.ledger with timers := s.ledger.timers.erase ring.notification.key } }
    have hquiet := timeless_schedule c s₁ ring.notification
    have hnotes := state_notes_schedule c s₁ ring.notification
    show Dated (s₁.schedule c ring.notification).1
      (j ++ .fired ring :: (s₁.schedule c ring.notification).2)
    refine h.fire first hcurrent hquiet.1 ?_
      (congrArg Notes.timers hnotes) (congrArg Notes.lastGeneration hnotes)
      (sleepers_schedule c s₁ _) (rings_schedule c s₁ _) (phase_schedule c s₁ _)
    exact congrArg (ring :: ·) hquiet.2
  · -- the timer was replaced, and its message is passed over
    rename_i hpast
    refine h.keep ⟨rfl, rfl⟩ rfl rfl ?_ ?_ rfl
    · rw [messages, messages, first]
      exact ((List.sublist_cons_self ring rest).append_left _).subperm
    · intro m hm hcurrent
      rw [coming, first] at hm
      rcases List.mem_append.1 hm with hm | hm
      · exact List.mem_append_left _ hm
      · rcases List.mem_cons.1 hm with rfl | hm
        · exact absurd hcurrent hpast
        · exact List.mem_append_right _ hm

/-- The controller takes the end of a pass. -/
theorem complete (h : Dated s j) {e : Completion} {rest : List Completion}
    (running : s.phase = .running) :
    Dated (State.complete c { s with completions := rest } e.request e.result).1
      (j ++ (State.complete c { s with completions := rest } e.request e.result).2) := by
  simp only [State.complete]
  split
  · -- the controller breaks off, and its timers end
    refine h.still ⟨rfl, rfl⟩ (fun _ _ hg => hg) rfl ?_ ?_ ?_
    · exact (List.sublist_append_right _ _).subperm
    · exact fun hopen => absurd rfl hopen
    · exact fun hclosed => by cases hclosed
  · rename_i l orders events hc
    set s₁ : State := { s with completions := rest, ledger := l }
    have harmings : armings (.completed e.request e.result :: events.map .logged ++
        (s₁.obeyAll c orders).2) = armings (orders.map .ofOrder) := by
      rw [obeyAll_entries, armings_completed]
    have hfirings : firings (.completed e.request e.result :: events.map .logged ++
        (s₁.obeyAll c orders).2) = [] := by
      rw [obeyAll_entries, firings_completed]
    rcases complete_timers hc with ⟨hstart, htimers, hlast⟩ |
        ⟨t, more, rfl, hstart, hkey, hnext, htimers, hlast⟩
    · refine h.same ⟨harmings.trans (armings_startOnly hstart), hfirings⟩ ?_ ?_
        (sleepers_startOnly hstart) ?_ ?_ <;> rw [obeyAll_frame]
      · exact htimers
      · exact hlast
    · rw [← hkey] at harmings hfirings htimers ⊢
      have hpast : s.ledger.timers[t.key]? ≠ some t.generation := by
        intro hg
        have hbound := h.le_lastGeneration (by simp [running]) hg
        omega
      refine h.arm running hnext (harmings.trans (armings_arm hstart)) hfirings ?_ ?_
        (messages_arm hstart) (mem_coming_arm hstart (.inr rfl) hpast) ?_ ?_
      · rw [obeyAll_frame]
        exact htimers
      · rw [obeyAll_frame]
        exact hlast
      · exact fun m hm hother => mem_coming_arm hstart (.inl hm) hother
      · rw [obeyAll_frame]

theorem of_turn {out : State × List Entry} (h : Dated s j) (turn : Turn c s out) :
    Dated out.1 (j ++ out.2) := by
  cases turn with
  | aside => exact h.same ⟨rfl, rfl⟩ rfl rfl rfl rfl rfl
  | change => exact h.same ⟨rfl, rfl⟩ rfl rfl rfl rfl rfl
  | @receive n rest running first =>
    have hreceived : Dated { s with queue := rest } (j ++ [.received n]) :=
      h.same ⟨rfl, rfl⟩ rfl rfl rfl rfl rfl
    have hscheduled := hreceived.schedule n (c := c)
    rw [List.append_assoc] at hscheduled
    exact hscheduled
  | complete running first => exact h.complete running
  | hear running first => exact h.hear first
  | @ring t asleep live due =>
    refine h.keep ⟨rfl, rfl⟩ rfl rfl (subperm_ring asleep) ?_ rfl
    intro m hm _
    by_cases heq : m.generation = t.timer.generation
    · -- the message of the timer is the one that is left
      obtain rfl := h.eq_of_message (mem_messages_of_coming hm)
        (mem_messages_of_coming (mem_coming_of_asleep asleep live)) heq
      exact List.mem_append_right _ (List.mem_append_right _ (List.mem_singleton_self _))
    · rcases List.mem_append.1 (mem_coming_endTimer hm heq) with hm | hm
      · exact List.mem_append_left _ hm
      · exact List.mem_append_right _ (List.mem_append_left _ hm)
  | @reap t asleep stopped =>
    refine h.keep ⟨rfl, rfl⟩ rfl rfl ?_ ?_ rfl
    · exact ((List.filter_sublist.map _).append_right _).subperm
    · exact fun m hm _ => mem_coming_endTimer hm (h.ne_of_stopped asleep stopped hm)
  | @begin r granted =>
    refine h.same (timeless_of_work fun _ he => isWork_of_mem_begin c he) ?_ ?_ ?_ ?_ ?_ <;>
      rw [begin_frame]
  | resume allowed fetching elapsed =>
    exact h.same (timeless_of_work fun _ he => isWork_of_mem_resume c he) rfl rfl rfl rfl rfl
  | expire => exact h.same ⟨rfl, rfl⟩ rfl rfl rfl rfl rfl
  | drop => exact h.same ⟨rfl, rfl⟩ rfl rfl rfl rfl rfl
  | close running =>
    have hnone (key : ObjectKey) : (∅ : Std.ExtTreeMap ObjectKey Nat)[key]? = none :=
      Std.ExtTreeMap.getElem?_empty
    refine h.still ⟨rfl, rfl⟩ ?_ rfl (List.Subperm.refl _) ?_ (fun _ => hnone)
    · exact fun key g hg => absurd ((hnone key).symm.trans hg) (by simp)
    · exact fun _ => ⟨by simp [running], fun m hm hg => hm⟩
  | stopTimer generation closing =>
    -- no timer is in the books any more
    have hclosed : s.phase.isClosed := by
      rw [closing]
      rfl
    refine h.keep ⟨rfl, rfl⟩ rfl rfl ?_ ?_ rfl
    · rw [messages_stopTimer]
    · intro m hm hcurrent
      rw [h.forgotten hclosed] at hcurrent
      cases hcurrent
  | finish closing passes sleepers =>
    have hclosed : s.phase.isClosed := by
      rw [closing]
      rfl
    refine h.still ⟨rfl, rfl⟩ (fun _ _ hg => hg) rfl (List.Subperm.refl _) ?_
      (fun _ => h.forgotten hclosed)
    exact fun _ => ⟨by simp [closing], fun m hm _ => hm⟩

theorem step (h : Dated s j) (c : Controller) (e : Event) :
    Dated (c.step s e).1 (j ++ (c.step s e).2) :=
  h.of_turn (turn_step c s e)

end Dated

theorem dated_run (c : Controller) (clock : Instant) (events : List Event) :
    Dated (c.run (.initial clock) events).1 (c.run (.initial clock) events).2 :=
  run_of_nil c Dated (fun _ _ e h => h.step c e) _ events (dated_initial clock)

/-! ## The law of timers -/

/-- What holds of the timers at the end of a run. -/
structure TimerLaw (s : State) (j : List Entry) : Prop where
  /-- Generations are given in increasing order, and not given twice. -/
  increasing : (armings j).Pairwise (·.generation < ·.generation)
  /-- A generation is carried by one timer or message at most, and not any more once its message was
  taken; and no message is taken twice. -/
  once : (generations s j).Nodup
  /-- The generation that the books hold of an object is carried once, by a timer of the object that
  was not stopped or by its message. -/
  carried : s.phase ≠ .broken → ∀ (key : ObjectKey) (g : Nat), s.ledger.timers[key]? = some g →
    (∃ m ∈ s.coming, m.generation = g ∧ m.notification.key = key) ∧
      (s.messages.map Ring.generation).count g = 1
  /-- A message that is taken is that of a timer that was armed. -/
  armed : ∀ ring ∈ firings j, ∃ t ∈ armings j, t.message = ring
  /-- Each notification that was scheduled comes from the queue or from one message of a timer. -/
  scheduled : (arrivals j).map Request.notification = intake j
  /-- A timer is not heard after a later one was armed for its object. -/
  superseding : Superseding j

/-- In every run, every timer is heard once at most, and not after it was replaced. -/
theorem timers_heard_once (c : Controller) (clock : Instant) (events : List Event) :
    TimerLaw (c.run (.initial clock) events).1 (c.run (.initial clock) events).2 := by
  have h := dated_run c clock events
  constructor
  case increasing => exact h.increasing
  case once => exact h.once
  case carried =>
    intro hopen key g hg
    obtain ⟨m, hm, rfl, hkey⟩ := h.live hopen key g hg
    refine ⟨⟨m, hm, rfl, hkey⟩, ?_⟩
    have hnodup := h.once.sublist ((List.sublist_append_right _ _).map _)
    exact List.count_eq_one_of_mem hnodup (List.mem_map_of_mem (mem_messages_of_coming hm))
  case armed => exact fun ring hring => h.armed ring (List.mem_append_left _ hring)
  case scheduled => exact (numbered_run c clock events).taken
  case superseding => exact h.superseding

end ClusterVitals.Controller
