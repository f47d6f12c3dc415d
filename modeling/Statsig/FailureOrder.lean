import Statsig.Redelivery

/-!
# The order of the failures

The failed-events file takes a new failure at the front and loses its last one.  As long as the
payloads stand in the order in which their batches first failed, the newest first, what is lost is
the oldest.  A retry task sends them in this order too, and what fails again comes to the front:
`eachStep_staysOrdered_iff` says that the order survives in exactly the runs in which a payload that
is saved again finds the file empty.
-/

set_option autoImplicit false

namespace Statsig

open EventLogger NetworkService

namespace Redelivery

/-! ## When a batch first failed -/

/-- The first failure of one batch was later than that of another, by the record of failures. -/
def Newer (failed : List ℕ) (batch other : ℕ) : Prop := failed.idxOf other < failed.idxOf batch

instance (failed : List ℕ) (batch other : ℕ) : Decidable (Newer failed batch other) :=
  inferInstanceAs (Decidable (_ < _))

instance (failed : List ℕ) : IsTrans ℕ (Newer failed) := ⟨fun _ _ _ h h' ↦ lt_trans h' h⟩

/-- A failure does not change when others failed first, nor when the same batch did. -/
theorem idxOf_concat {failed : List ℕ} {batch failing : ℕ}
    (h : batch ∈ failed ∨ batch = failing) :
    (failed ++ [failing]).idxOf batch = failed.idxOf batch := by
  by_cases hmem : batch ∈ failed
  · exact List.idxOf_append_of_mem hmem
  · obtain rfl := h.resolve_left hmem
    rw [List.idxOf_append_of_notMem hmem, List.idxOf_of_notMem hmem, List.idxOf_cons_self,
      Nat.add_zero]

theorem newer_concat_iff {failed : List ℕ} {batch other failing : ℕ}
    (hbatch : batch ∈ failed ∨ batch = failing) (hother : other ∈ failed ∨ other = failing) :
    Newer (failed ++ [failing]) batch other ↔ Newer failed batch other := by
  rw [Newer, Newer, idxOf_concat hbatch, idxOf_concat hother]

theorem newer_of_notMem {failed : List ℕ} {batch other : ℕ} (hbatch : batch ∉ failed)
    (hother : other ∈ failed) : Newer failed batch other := by
  rw [Newer, List.idxOf_of_notMem hbatch]
  exact List.idxOf_lt_length_of_mem hother

theorem pairwise_newer_concat {failed l : List ℕ} (h : l.Pairwise (Newer failed))
    (hl : ∀ batch ∈ l, batch ∈ failed) (failing : ℕ) : l.Pairwise (Newer (failed ++ [failing])) :=
  h.imp_of_mem fun hb hc hnewer ↦
    (newer_concat_iff (.inl (hl _ hb)) (.inl (hl _ hc))).mpr hnewer

/-! ## The property and what it takes -/

variable (lib : JsonText)

/-- What a step is to leave behind. -/
structure StaysOrdered (s : Redelivery) (a : RedeliveryLabel) (t : Redelivery) : Prop where
  newest : t.kept.Pairwise (Newer t.failed)
  bounded : (readFailures lib t.file.final).length ≤ constants.kMaxCachedFailedEventPayloadsCount
  /-- The numbers are those of the payloads. -/
  recorded : t.kept.length = (readFailures lib t.file.final).length
  events : ∀ x ∈ t.filed lib, ∃ events, t.batches[x.1]? = some events ∧
    x.2.events = events.map StatsigEventInternal.canon
  /-- All that stay in the file failed later than one that a save drops. -/
  eldest : ∀ batch ∈ s.saved a, ∀ lost ∈ batch :: s.kept, lost ∉ t.kept →
    ∀ stays ∈ t.kept, Newer t.failed stays lost

/-- What the retry task saves again finds no other payload in the file. -/
def SavesAlone (s : Redelivery) : RedeliveryLabel → Prop
  | .retry response =>
    (s.saved (.retry response)).isSome = true → readFailures lib s.file.content = []
  | _ => True

variable {lib}

/-- What happens to the record of the file and to that of the failures where this batch is saved, or
none: it has just failed, or the file stays as it is or is emptied. -/
inductive Keeps (s t : Redelivery) : Option ℕ → Prop
  | saves {batch : ℕ} (idle : s.file.Idle) (failed : t.failed = s.failed ++ [batch])
    (kept : t.kept =
      CappedList.push constants.kMaxCachedFailedEventPayloadsCount batch s.kept) :
    Keeps s t (some batch)
  | passes (failed : t.failed = s.failed ∨ ∃ batch, t.failed = s.failed ++ [batch])
    (kept : t.kept = s.kept ∨ t.kept = []) : Keeps s t none

theorem keeps_answered {s t : Redelivery} {batch : ℕ} {origin : Origin}
    {events : List StatsigEventInternal} {response : HttpResponse}
    (h : answered lib s batch origin events response = some t) :
    Keeps s t ((onResult origin (onLogEventResponse response)).map fun _ ↦ batch) := by
  rcases answered_cases h with ⟨hnone, rfl | ⟨-, rfl⟩⟩ | ⟨hsome, -, hsave⟩
  · rw [hnone]
    exact .passes (.inl rfl) (.inl rfl)
  · rw [hnone]
    exact .passes (.inr ⟨batch, rfl⟩) (.inl rfl)
  · obtain ⟨hidle, text, -, rfl⟩ := save_cases hsave
    rw [hsome]
    exact .saves hidle rfl rfl

theorem Keeps.of_eq {s t u : Redelivery} {saved : Option ℕ} (h : Keeps s t saved)
    (hfile : s.file = u.file) (hfailed : s.failed = u.failed) (hkept : s.kept = u.kept) :
    Keeps u t saved := by
  cases h with
  | saves idle failed kept => exact .saves (hfile ▸ idle) (hfailed ▸ failed) (hkept ▸ kept)
  | passes failed kept => exact .passes (hfailed ▸ failed) (hkept ▸ kept)

theorem Keeps.length_le {s t : Redelivery} {saved : Option ℕ} (h : Keeps s t saved)
    (hs : s.kept.length ≤ constants.kMaxCachedFailedEventPayloadsCount) :
    t.kept.length ≤ constants.kMaxCachedFailedEventPayloadsCount := by
  cases h with
  | saves idle failed kept =>
    rw [kept]
    exact CappedList.length_push_le _ hs
  | passes failed kept =>
    rcases kept with kept | kept
    · rwa [kept]
    · rw [kept]
      exact Nat.zero_le _

theorem keeps_step {s t : Redelivery} {a : RedeliveryLabel} (h : step lib s a = some t) :
    Keeps s t (s.saved a) := by
  cases a with
  | flush events =>
    obtain rfl := Option.some_inj.mp h
    exact .passes (.inl rfl) (.inl rfl)
  | answer i response =>
    obtain ⟨flight, hflight, h⟩ := Option.bind_eq_some_iff.mp h
    simp only [saved, hflight, Option.bind_some]
    exact (keeps_answered h).of_eq rfl rfl rfl
  | startRetry =>
    obtain ⟨-, -, rfl | rfl⟩ := startRetry_cases h
    · exact .passes (.inl rfl) (.inl rfl)
    · exact .passes (.inl rfl) (.inl rfl)
  | retry response =>
    rcases stepRetry_cases h with ⟨failures, hretry, rfl⟩ | ⟨hretry, rfl⟩ |
      ⟨failure, failures, hretry, rfl⟩ | ⟨failure, failures, hretry, h⟩
    · simp only [saved, hretry]
      exact .passes (.inl rfl) (ite_eq_or_eq _ _ _).symm
    · simp only [saved, hretry]
      exact .passes (.inl rfl) (.inl rfl)
    · simp only [saved, hretry]
      exact .passes (.inl rfl) (.inl rfl)
    · simp only [saved, hretry]
      exact (keeps_answered h).of_eq rfl rfl rfl
  | stopRetry =>
    obtain ⟨failures, -, rfl⟩ := stopRetry_cases h
    exact .passes (.inl rfl) (.inl rfl)
  | fileTask task =>
    obtain ⟨file, -, rfl⟩ := Option.map_eq_some_iff.mp h
    exact .passes (.inl rfl) (.inl rfl)
  | restart =>
    obtain ⟨-, rfl⟩ := restart_cases h
    exact .passes (.inl rfl) (.inl rfl)

/-! ## The invariant -/

structure Ordered (lib : JsonText) (s : Redelivery) : Prop extends Sound lib s where
  newest : s.kept.Pairwise (Newer s.failed)
  bounded : s.kept.length ≤ constants.kMaxCachedFailedEventPayloadsCount
  keptFailed : ∀ batch ∈ s.kept, batch ∈ s.failed
  /-- The batches of flushes are different ones, and have not failed yet. -/
  nodup : (s.flights.map Prod.fst).Nodup
  fresh : ∀ flight ∈ s.flights, flight.1 ∉ s.failed
  /-- The retry task goes from newer to older failures. -/
  retryNewest : (s.retry.failures.map Prod.fst).Pairwise (Newer s.failed)
  retryFailed : ∀ x ∈ s.retry.failures, x.1 ∈ s.failed
  /-- None of them is newer than the first payload in the file. -/
  head : ∀ first ∈ s.kept.head?, ∀ x ∈ s.retry.failures, ¬ Newer s.failed x.1 first

/-- **When the order survives a step**: when the order of the numbers does. -/
theorem staysOrdered_iff_newest {s t : Redelivery} {a : RedeliveryLabel} (hs : Ordered lib s)
    (h : step lib s a = some t) :
    StaysOrdered lib s a t ↔ t.kept.Pairwise (Newer t.failed) := by
  have hsound := sound_step hs.toSound h
  have hkeeps := keeps_step h
  refine ⟨StaysOrdered.newest, fun hnewest ↦ ⟨hnewest, ?_, hsound.length,
    fun x hx ↦ (hsound.filed x hx).events, fun batch hbatch lost hlost hdropped stays hstays ↦ ?_⟩⟩
  · rw [← hsound.length]
    exact hkeeps.length_le hs.bounded
  · rw [Option.mem_def.mp hbatch] at hkeeps
    cases hkeeps with
    | saves idle failed kept =>
      have hbefore : s.kept.Pairwise (Newer t.failed) :=
        failed ▸ pairwise_newer_concat hs.newest hs.keptFailed batch
      rw [kept] at hnewest hdropped hstays
      have hall : (batch :: s.kept).Pairwise (Newer t.failed) :=
        (CappedList.pairwise_cons_iff_head hbefore).mpr
          ((CappedList.pairwise_push_iff (by decide) hbefore).mp hnewest)
      exact CappedList.rel_of_notMem_push hall hlost hdropped hstays

/-- A batch fails that the others that wait for responses do not belong to. -/
theorem Ordered.fail {s : Redelivery} {batch : ℕ} (hs : Ordered lib s)
    (hbatch : batch < s.batches.length) (hothers : ∀ flight ∈ s.flights, flight.1 ≠ batch) :
    Ordered lib { s with failed := s.failed ++ [batch] } := by
  refine { hs.toSound.fail hbatch with
    newest := pairwise_newer_concat hs.newest hs.keptFailed batch
    bounded := hs.bounded
    keptFailed := fun other hother ↦ List.mem_append_left _ (hs.keptFailed other hother)
    nodup := hs.nodup
    fresh := fun flight hflight hmem ↦ ?_
    retryNewest := pairwise_newer_concat hs.retryNewest (fun other hother ↦ ?_) batch
    retryFailed := fun x hx ↦ List.mem_append_left _ (hs.retryFailed x hx)
    head := fun first hfirst x hx ↦ ?_ }
  · rcases List.mem_append.mp hmem with hmem | hmem
    · exact hs.fresh flight hflight hmem
    · exact hothers flight hflight (List.mem_singleton.mp hmem)
  · obtain ⟨x, hx, rfl⟩ := List.mem_map.mp hother
    exact hs.retryFailed x hx
  · rw [newer_concat_iff (.inl (hs.retryFailed x hx))
      (.inl (hs.keptFailed first (List.mem_of_mem_head? hfirst)))]
    exact hs.head first hfirst x hx

/-- **One response**, after which the numbers are in order. -/
theorem Ordered.answered {s t : Redelivery} {batch : ℕ} {origin : Origin}
    {events : List StatsigEventInternal} {response : HttpResponse} (hs : Ordered lib s)
    (hsound : Sound lib t) (hbatch : batch < s.batches.length)
    (hothers : ∀ flight ∈ s.flights, flight.1 ≠ batch)
    (hretry : ∀ x ∈ s.retry.failures, ¬ Newer s.failed x.1 batch)
    (h : Redelivery.answered lib s batch origin events response = some t)
    (hnewest : t.kept.Pairwise (Newer t.failed)) : Ordered lib t := by
  have hfail := hs.fail hbatch hothers
  rcases answered_cases h with ⟨-, rfl | ⟨-, rfl⟩⟩ | ⟨-, -, hsave⟩
  · exact hs
  · exact hfail
  · obtain ⟨-, text, -, rfl⟩ := save_cases hsave
    refine { hsound with
      newest := hnewest
      bounded := CappedList.length_push_le batch hs.bounded
      keptFailed := fun other hother ↦ ?_
      nodup := hfail.nodup
      fresh := hfail.fresh
      retryNewest := hfail.retryNewest
      retryFailed := hfail.retryFailed
      head := fun first hfirst x hx ↦ ?_ }
    · rcases List.mem_cons.mp (CappedList.subset_push _ _ _ hother) with rfl | hother
      · exact List.mem_append_right _ List.mem_cons_self
      · exact hfail.keptFailed other hother
    · rw [CappedList.eq_of_mem_head?_push hfirst,
        newer_concat_iff (.inl (hs.retryFailed x hx)) (.inr rfl)]
      exact hretry x hx

/-- The retry task goes on with a part of what it had, or with nothing. -/
theorem Ordered.of_sublist {s t : Redelivery} (hs : Ordered lib s) (hsound : Sound lib t)
    (hkept : t.kept = s.kept ∨ t.kept = []) (hfailed : t.failed = s.failed)
    (hflights : t.flights.Sublist s.flights)
    (hretry : t.retry.failures.Sublist s.retry.failures) : Ordered lib t := by
  have hsub : t.kept.Sublist s.kept := by
    rcases hkept with hkept | hkept
    · rw [hkept]
    · rw [hkept]
      exact List.nil_sublist _
  refine { hsound with
    newest := hfailed ▸ hs.newest.sublist hsub
    bounded := hsub.length_le.trans hs.bounded
    keptFailed := fun batch hbatch ↦ hfailed ▸ hs.keptFailed batch (hsub.subset hbatch)
    nodup := hs.nodup.sublist (hflights.map Prod.fst)
    fresh := fun flight hflight ↦ hfailed ▸ hs.fresh flight (hflights.subset hflight)
    retryNewest := hfailed ▸ hs.retryNewest.sublist (hretry.map Prod.fst)
    retryFailed := fun x hx ↦ hfailed ▸ hs.retryFailed x (hretry.subset hx)
    head := fun first hfirst x hx ↦ ?_ }
  rcases hkept with hkept | hkept
  · rw [hfailed]
    exact hs.head first (hkept ▸ hfirst) x (hretry.subset hx)
  · rw [hkept] at hfirst
    exact absurd hfirst (by simp)

theorem not_newer_of_newer {failed : List ℕ} {batch other : ℕ} (h : Newer failed batch other) :
    ¬ Newer failed other batch := not_lt_of_gt h

/-- A batch that waits for a response is no other one that does. -/
theorem Ordered.ne_of_mem_eraseIdx {s : Redelivery} {i : ℕ}
    {flight : ℕ × List StatsigEventInternal} (hs : Ordered lib s)
    (hflight : s.flights[i]? = some flight) :
    ∀ other ∈ s.flights.eraseIdx i, other.1 ≠ flight.1 := by
  have hperm := (Slots.perm_cons_eraseIdx hflight).map Prod.fst
  have hnodup := List.nodup_cons.mp (hperm.nodup_iff.mp hs.nodup)
  exact fun other hother heq ↦ hnodup.1 (heq ▸ List.mem_map_of_mem hother)

/-- What is left of the retry task when a response has come. -/
theorem Ordered.unpost {s : Redelivery} {failure : ℕ × RetryableEventPayload}
    {failures : List (ℕ × RetryableEventPayload)} (hs : Ordered lib s)
    (hretry : s.retry = .posted failure failures) :
    Ordered lib { s with retry := .sending failures } ∧
      ∀ x ∈ failures, Newer s.failed failure.1 x.1 := by
  constructor
  · refine hs.of_sublist (hs.toSound.unpost hretry) (.inl rfl) rfl (.refl _) ?_
    rw [hretry]
    exact List.sublist_cons_self _ _
  · intro x hx
    have hnewest := hs.retryNewest
    rw [hretry] at hnewest
    exact (List.pairwise_cons.mp hnewest).1 x.1 (List.mem_map_of_mem hx)

/-- No failure in the file is newer than the first one. -/
theorem Ordered.not_newer_head {s : Redelivery} {first : ℕ} (hs : Ordered lib s)
    (hfirst : first ∈ s.kept.head?) : ∀ batch ∈ s.kept, ¬ Newer s.failed batch first := by
  intro batch hbatch
  have hnewest := hs.newest
  cases hkept : s.kept with
  | nil =>
    rw [hkept] at hbatch
    exact absurd hbatch (by simp)
  | cons newest rest =>
    rw [hkept] at hfirst hnewest hbatch
    obtain rfl := Option.some_inj.mp hfirst
    rcases List.mem_cons.mp hbatch with heq | hbatch
    · rw [heq]
      exact lt_irrefl _
    · exact not_newer_of_newer ((List.pairwise_cons.mp hnewest).1 batch hbatch)

theorem Ordered.flush {s t : Redelivery} {events : List StatsigEventInternal} (hs : Ordered lib s)
    (h : step lib s (.flush events) = some t) : Ordered lib t := by
  have hsound := sound_step hs.toSound h
  obtain rfl := Option.some_inj.mp h
  have hnew : ∀ flight ∈ s.flights, flight.1 ≠ s.batches.length := fun flight hflight ↦
    (List.getElem?_eq_some_iff.mp (hs.flights flight hflight)).1.ne
  refine { hsound, hs with nodup := ?_, fresh := fun flight hflight ↦ ?_ }
  · rw [List.map_append, List.nodup_append]
    refine ⟨hs.nodup, List.nodup_singleton _, fun batch hbatch other hother ↦ ?_⟩
    obtain ⟨flight, hflight, rfl⟩ := List.mem_map.mp hbatch
    rw [List.mem_singleton.mp hother]
    exact hnew flight hflight
  · rcases List.mem_append.mp hflight with hflight | hflight
    · exact hs.fresh flight hflight
    · rw [List.mem_singleton.mp hflight]
      exact fun hfailed ↦ (hs.known _ (.inr hfailed)).ne rfl

/-- The retry task takes the failures over in the order of the file. -/
theorem Ordered.startRetry {s t : Redelivery} (hs : Ordered lib s)
    (h : step lib s .startRetry = some t) : Ordered lib t := by
  have hsound := sound_step hs.toSound h
  obtain ⟨-, -, rfl | rfl⟩ := startRetry_cases h
  · exact hs
  · have hbatches : ((s.filed lib).map fun x ↦
        (x.1, { x.2 with attempts := x.2.attempts + 1 })).map Prod.fst = s.kept := by
      rw [List.map_map]
      exact List.map_fst_zip hs.length.le
    have hmem : ∀ x ∈ (s.filed lib).map fun x ↦
        (x.1, { x.2 with attempts := x.2.attempts + 1 }), x.1 ∈ s.kept :=
      fun x hx ↦ hbatches ▸ List.mem_map_of_mem hx
    refine { hsound, hs with
      retryNewest := ?_
      retryFailed := fun x hx ↦ hs.keptFailed x.1 (hmem x hx)
      head := fun first hfirst x hx ↦ hs.not_newer_head hfirst x.1 (hmem x hx) }
    rw [RetryTask.failures, hbatches]
    exact hs.newest

/-- **One step**, after which the numbers are in order. -/
theorem ordered_step {s t : Redelivery} {a : RedeliveryLabel} (hs : Ordered lib s)
    (h : step lib s a = some t) (hnewest : t.kept.Pairwise (Newer t.failed)) : Ordered lib t := by
  have hsound := sound_step hs.toSound h
  cases a with
  | flush events => exact hs.flush h
  | answer i response =>
    obtain ⟨flight, hflight, h⟩ := Option.bind_eq_some_iff.mp h
    have hmem := List.mem_of_getElem? hflight
    have hrest : Ordered lib { s with flights := s.flights.eraseIdx i } :=
      hs.of_sublist (hs.eraseFlight i) (.inl rfl) rfl (List.eraseIdx_sublist _ _) (.refl _)
    refine hrest.answered hsound (List.getElem?_eq_some_iff.mp (hs.flights flight hmem)).1
      (hs.ne_of_mem_eraseIdx hflight) (fun x hx ↦ ?_) h hnewest
    exact not_newer_of_newer (newer_of_notMem (hs.fresh flight hmem) (hs.retryFailed x hx))
  | startRetry => exact hs.startRetry h
  | retry response =>
    rcases stepRetry_cases h with ⟨failures, hretry, rfl⟩ | ⟨hretry, rfl⟩ |
      ⟨failure, failures, hretry, rfl⟩ | ⟨failure, failures, hretry, h⟩
    · exact hs.of_sublist hsound (ite_eq_or_eq _ _ _).symm rfl (.refl _)
        (by rw [hretry]; exact .refl _)
    · exact hs.of_sublist hsound (.inl rfl) rfl (.refl _) (List.nil_sublist _)
    · exact hs.of_sublist hsound (.inl rfl) rfl (.refl _) (by rw [hretry]; exact .refl _)
    · obtain ⟨hrest, hnewer⟩ := hs.unpost hretry
      have hmem : failure ∈ s.retry.failures := by
        rw [hretry]
        exact List.mem_cons_self
      refine hrest.answered hsound (hs.toSound.retry failure hmem).lt (fun flight hflight heq ↦ ?_)
        (fun x hx ↦ not_newer_of_newer (hnewer x hx)) h hnewest
      exact hs.fresh flight hflight (heq ▸ hs.retryFailed failure hmem)
  | stopRetry =>
    obtain ⟨failures, -, rfl⟩ := stopRetry_cases h
    exact hs.of_sublist hsound (.inl rfl) rfl (.refl _) (List.nil_sublist _)
  | fileTask task =>
    obtain ⟨file, -, rfl⟩ := Option.map_eq_some_iff.mp h
    exact { hsound, hs with }
  | restart =>
    obtain ⟨-, rfl⟩ := restart_cases h
    exact hs.of_sublist hsound (.inl rfl) rfl (List.nil_sublist _) (List.nil_sublist _)

/-! ## Steps and runs -/

/-- Which batches are saved: one of a flush, or one that the retry task has posted. -/
theorem saved_cases {s : Redelivery} {a : RedeliveryLabel} {batch : ℕ}
    (h : s.saved a = some batch) :
    (∃ i response flight, a = .answer i response ∧ s.flights[i]? = some flight ∧
      flight.1 = batch) ∨
    (∃ response failure failures, a = .retry response ∧ s.retry = .posted failure failures ∧
      failure.1 = batch) := by
  cases a with
  | answer i response =>
    obtain ⟨flight, hflight, h⟩ := Option.bind_eq_some_iff.mp h
    obtain ⟨-, -, hbatch⟩ := Option.map_eq_some_iff.mp h
    exact .inl ⟨i, response, flight, rfl, hflight, hbatch⟩
  | retry response =>
    cases hretry : s.retry with
    | posted failure failures =>
      simp only [saved, hretry] at h
      obtain ⟨-, -, hbatch⟩ := Option.map_eq_some_iff.mp h
      exact .inr ⟨response, failure, failures, rfl, rfl, hbatch⟩
    | idle | deleting failures | sending failures =>
      simp only [saved, hretry] at h
      exact absurd h (by simp)
  | flush _ | startRetry | stopRetry | fileTask _ | restart => exact absurd h (by simp [saved])

/-- **When the order of the numbers survives a step.**  A batch of a flush has never failed before;
one that the retry task has read is no newer than what is in the file. -/
theorem newest_step_iff {s t : Redelivery} {a : RedeliveryLabel} (hs : Ordered lib s)
    (h : step lib s a = some t) : t.kept.Pairwise (Newer t.failed) ↔ SavesAlone lib s a := by
  have hkeeps := keeps_step h
  cases hsaved : s.saved a with
  | some batch =>
    rw [hsaved] at hkeeps
    obtain ⟨hidle, hfailed, hkept⟩ := hkeeps
    have hbefore : s.kept.Pairwise (Newer t.failed) :=
      hfailed ▸ pairwise_newer_concat hs.newest hs.keptFailed batch
    have hhead : (∀ first ∈ s.kept.head?, Newer t.failed batch first) ↔
        ∀ first ∈ s.kept.head?, Newer s.failed batch first := by
      refine forall₂_congr fun first hfirst ↦ ?_
      rw [hfailed, newer_concat_iff (.inr rfl)
        (.inl (hs.keptFailed first (List.mem_of_mem_head? hfirst)))]
    rw [hkept, CappedList.pairwise_push_iff (by decide) hbefore, hhead]
    rcases saved_cases hsaved with ⟨i, response, flight, rfl, hflight, rfl⟩ |
      ⟨response, failure, failures, rfl, hretry, rfl⟩
    · refine iff_of_true (fun first hfirst ↦ ?_) trivial
      exact newer_of_notMem (hs.fresh flight (List.mem_of_getElem? hflight))
        (hs.keptFailed first (List.mem_of_mem_head? hfirst))
    · have hempty : SavesAlone lib s (.retry response) ↔ s.kept = [] := by
        rw [SavesAlone, hsaved, ← hidle.final_eq, ← List.length_eq_zero_iff, ← hs.length,
          List.length_eq_zero_iff]
        exact forall_prop_of_true rfl
      rw [hempty]
      constructor
      · intro hnewer
        rw [← List.head?_eq_none_iff, Option.eq_none_iff_forall_ne_some]
        intro first hfirst
        exact hs.head first hfirst failure (by rw [hretry]; exact List.mem_cons_self)
          (hnewer first hfirst)
      · intro hnil
        rw [hnil]
        simp
  | none =>
    rw [hsaved] at hkeeps
    refine iff_of_true ?_ ?_
    · cases hkeeps with
      | passes hfailed hkept =>
        have hbefore : s.kept.Pairwise (Newer t.failed) := by
          rcases hfailed with hfailed | ⟨batch, hfailed⟩
          · exact hfailed ▸ hs.newest
          · exact hfailed ▸ pairwise_newer_concat hs.newest hs.keptFailed batch
        rcases hkept with hkept | hkept
        · exact hkept ▸ hbefore
        · exact hkept ▸ List.Pairwise.nil
    · cases a with
      | retry response =>
        intro hsome
        rw [hsaved] at hsome
        exact absurd hsome (by simp)
      | flush _ | answer _ _ | startRetry | stopRetry | fileTask _ | restart => exact trivial

theorem staysOrdered_iff {s t : Redelivery} {a : RedeliveryLabel} (hs : Ordered lib s)
    (h : step lib s a = some t) : StaysOrdered lib s a t ↔ SavesAlone lib s a :=
  (staysOrdered_iff_newest hs h).trans (newest_step_iff hs h)

theorem ordered_init : Ordered lib {} where
  toSound := sound_init
  newest := List.Pairwise.nil
  bounded := Nat.zero_le _
  keptFailed := fun batch hbatch ↦ absurd hbatch (by simp)
  nodup := List.nodup_nil
  fresh := fun flight hflight ↦ absurd hflight (by simp)
  retryNewest := List.Pairwise.nil
  retryFailed := fun x hx ↦ absurd hx (by simp [RetryTask.failures])
  head := fun first hfirst ↦ absurd hfirst (by simp)

/-- **When the oldest failure is the one that is dropped**, and the file stays in order: in exactly
the runs in which a payload that is saved again finds no other in the file. -/
theorem eachStep_staysOrdered_iff {labels : List RedeliveryLabel} {s : Redelivery}
    (hrun : Machine.run (step lib) {} labels = some s) :
    Machine.EachStep (step lib) (StaysOrdered lib) {} labels ↔
      Machine.AllSteps (step lib) (SavesAlone lib) {} labels := by
  refine Machine.eachStep_iff_allSteps (I := Ordered lib) ?_ ?_ ordered_init hrun
  · exact fun hs h ↦ staysOrdered_iff hs h
  · exact fun hs h hstays ↦ ordered_step hs h hstays.newest

/-! ### Runs with one or two failures -/

open retryableEventPayload (plainPayload)

/-- One batch, and no other that it could get in front of. -/
theorem eachStep_staysOrdered_failsTwice :
    Machine.EachStep (step failureTexts) (StaysOrdered failureTexts) {} failsTwice ↔
      Machine.AllSteps (step failureTexts) (SavesAlone failureTexts) {} failsTwice := by
  have hrun : (Machine.run (step failureTexts) {} failsTwice).isSome = true := by
    decide +kernel
  obtain ⟨s, hs⟩ := Option.isSome_iff_exists.mp hrun
  exact eachStep_staysOrdered_iff hs

/-- Two batches fail, and the retry task of the next session sends both again; the first of them
fails once more. -/
def twoFailures : List RedeliveryLabel :=
  [.flush plainPayload.events, .answer 0 unavailable] ++ written ++
    [.flush plainPayload.events, .answer 0 unavailable] ++ written ++
    [.restart, .startRetry, .retry {}, .retry {}, .retry unavailable] ++ written ++ [.retry {}]

/-- When the second does too, the older failure comes to the front. -/
theorem not_forall_eachStep_staysOrdered :
    ¬ ∀ (lib : JsonText) (labels : List RedeliveryLabel) (s : Redelivery),
      Machine.run (step lib) {} labels = some s →
      Machine.EachStep (step lib) (StaysOrdered lib) {} labels := by
  intro h
  have hrun : ((Machine.run (step failureTexts) {} twoFailures).bind fun s ↦
      step failureTexts s (.retry unavailable)).map (fun t ↦ (t.kept, t.failed)) =
        some ([0, 1], [0, 1, 1, 0]) := by
    decide +kernel
  obtain ⟨t, ht, hrecords⟩ := Option.map_eq_some_iff.mp hrun
  obtain ⟨s, hs, hstep⟩ := Option.bind_eq_some_iff.mp ht
  have hall : Machine.run (step failureTexts) {} (twoFailures ++ [.retry unavailable]) = some t :=
    Machine.run_append_eq_some.mpr ⟨s, hs, by rw [Machine.run_cons, hstep]; rfl⟩
  have hnewest := ((h _ _ _ hall).of_append hs hstep).newest
  obtain ⟨hkept, hfailed⟩ := Prod.mk.inj hrecords
  rw [hkept, hfailed] at hnewest
  exact absurd hnewest (by decide)

end Redelivery

end Statsig
