import Statsig.Lib.Concurrent

/-!
# Linearizability

An object that many threads call does what it does under one sequential specification: there is an
order of the calls, in which each that has returned occurs once, such that the specification,
called in that order, gives every call what it has returned, and such that a call that had returned
when another was made comes before it.

`Simulation` is the usual way to show it.  Every call has one step at which it takes effect, and
at that step the specification is called; all other steps change nothing that the specification
can see.
-/

set_option autoImplicit false

namespace Concurrent

variable {σ ω κ ρ ε α l : Type}

/-- A call has taken effect: what the specification was called with, and what it gave. -/
structure Effect (l ρ : Type) where
  call : ℕ
  label : l
  result : ρ
  deriving DecidableEq, Repr

/-- The specification gives these results, and ends in this state. -/
def Legal (spec : α → l → α × ρ) : α → List (Effect l ρ) → α → Prop
  | a, [], b => a = b
  | a, x :: order, b => (spec a x.label).2 = x.result ∧ Legal spec (spec a x.label).1 order b

/-- One call is ordered before another. -/
def Before (order : List (Effect l ρ)) (i j : ℕ) : Prop :=
  ∃ first rest, order = first ++ rest ∧ i ∈ first.map Effect.call ∧ j ∈ rest.map Effect.call

/-- The calls in this order explain the state of the system. -/
structure Linearization (spec : α → l → α × ρ) (opOf : l → ω) (a₀ : α)
    (order : List (Effect l ρ)) (s : System σ ω κ ρ) (a : α) : Prop where
  legal : Legal spec a₀ order a
  nodup : (order.map Effect.call).Nodup
  /-- Only calls that were made are ordered, with what they were made with. -/
  made : ∀ x ∈ order, ∃ call, s.calls[x.call]? = some call ∧ opOf x.label = call.op
  /-- All that have returned are, with what they have returned. -/
  returned : ∀ i result, s.Returned i result → ∃ x ∈ order, x.call = i ∧ x.result = result
  /-- A call that had returned when another was made comes before it. -/
  realTime : ∀ x ∈ order, ∀ call, s.calls[x.call]? = some call → ∀ i ∈ call.after,
    Before order i x.call

variable {spec : α → l → α × ρ} {opOf : l → ω} {a b : α} {order : List (Effect l ρ)}
  {x : Effect l ρ} {i j : ℕ}

theorem Legal.foldl (h : Legal spec a order b) :
    (order.map Effect.label).foldl (fun a label ↦ (spec a label).1) a = b := by
  induction order generalizing a with
  | nil => exact h
  | cons x order ih => exact ih h.2

theorem Legal.append (h : Legal spec a order b) (hresult : (spec b x.label).2 = x.result) :
    Legal spec a (order ++ [x]) (spec b x.label).1 := by
  induction order generalizing a with
  | nil =>
    obtain rfl : a = b := h
    exact ⟨hresult, rfl⟩
  | cons y order ih => exact ⟨h.1, ih h.2⟩

theorem Before.append (h : Before order i j) : Before (order ++ [x]) i j := by
  obtain ⟨first, rest, rfl, hi, hj⟩ := h
  refine ⟨first, rest ++ [x], by simp, hi, ?_⟩
  rw [List.map_append]
  exact List.mem_append_left _ hj

theorem before_append_self (h : i ∈ order.map Effect.call) : Before (order ++ [x]) i x.call :=
  ⟨order, [x], rfl, h, by simp⟩

/-! ## Simulations -/

/-- What a call has got out of taking effect, if it has. -/
def outcomeIn (outcome : κ → Option ρ) : Status κ ρ → Option ρ
  | .running pc => outcome pc
  | .returned result => some result

/-- **The steps at which calls take effect**, and the relation between the system and the
specification that all steps keep. -/
structure Simulation (code : Code σ ω κ ρ ε) (spec : α → l → α × ρ) (opOf : l → ω)
    (point : κ → ε → σ → Option l) (outcome : κ → Option ρ)
    (R : System σ ω κ ρ → α → Prop) : Prop where
  start : ∀ op, outcome (code.start op) = none
  invoke : ∀ {s a op}, R s a → R (s.invoke code op) a
  /-- A step at which the call does not take effect. -/
  quiet : ∀ {s a i call pc e next}, R s a → s.calls[i]? = some call → call.status = .running pc →
    code.step i pc e s.shared = some next → point pc e s.shared = none →
    outcomeIn outcome next.2 = outcome pc ∧ R (s.set i call next) a
  /-- The step at which it does. -/
  effect : ∀ {s a i call pc e next label}, R s a → s.calls[i]? = some call →
    call.status = .running pc → code.step i pc e s.shared = some next →
    point pc e s.shared = some label → outcome pc = none ∧ opOf label = call.op ∧
    outcomeIn outcome next.2 = some (spec a label).2 ∧ R (s.set i call next) (spec a label).1

/-- What is ordered, as the steps of the run are taken. -/
structure Explains (spec : α → l → α × ρ) (opOf : l → ω) (outcome : κ → Option ρ) (a₀ : α)
    (order : List (Effect l ρ)) (s : System σ ω κ ρ) (a : α) : Prop where
  legal : Legal spec a₀ order a
  nodup : (order.map Effect.call).Nodup
  ordered : ∀ x ∈ order, ∃ call, s.calls[x.call]? = some call ∧ opOf x.label = call.op ∧
    outcomeIn outcome call.status = some x.result
  effects : ∀ (i : ℕ) (call : Call ω κ ρ), s.calls[i]? = some call →
    outcomeIn outcome call.status ≠ none →
    i ∈ order.map Effect.call
  finished : ∀ (i : ℕ) (call : Call ω κ ρ), s.calls[i]? = some call → ∀ j ∈ call.after,
    j ∈ order.map Effect.call
  realTime : ∀ x ∈ order, ∀ call, s.calls[x.call]? = some call → ∀ i ∈ call.after,
    Before order i x.call

namespace Explains

variable {code : Code σ ω κ ρ ε} {outcome : κ → Option ρ} {a₀ : α} {s : System σ ω κ ρ}
  {call : Call ω κ ρ} {next : σ × Status κ ρ}

theorem init (shared : σ) : Explains (ω := ω) (κ := κ) spec opOf outcome a₀ [] { shared } a₀ where
  legal := rfl
  nodup := List.nodup_nil
  ordered _ hx := absurd hx List.not_mem_nil
  effects _ _ hcall := absurd hcall (by simp)
  finished _ _ hcall := absurd hcall (by simp)
  realTime _ hx := absurd hx List.not_mem_nil

theorem mem_of_finished (h : Explains spec opOf outcome a₀ order s a) (hi : i ∈ s.finished) :
    i ∈ order.map Effect.call := by
  obtain ⟨result, call, hcall, hresult⟩ := mem_finished_iff.mp hi
  exact h.effects i call hcall (by simp [hresult, outcomeIn])

theorem invoke (h : Explains spec opOf outcome a₀ order s a) {op : ω}
    (hstart : outcome (code.start op) = none) :
    Explains spec opOf outcome a₀ order (s.invoke code op) a where
  legal := h.legal
  nodup := h.nodup
  ordered x hx := by
    obtain ⟨call, hcall, hop, hresult⟩ := h.ordered x hx
    exact ⟨call, getElem?_invoke_eq_some_iff.mpr (.inl hcall), hop, hresult⟩
  effects i call hcall hne := by
    obtain hcall | ⟨-, rfl⟩ := getElem?_invoke_eq_some_iff.mp hcall
    · exact h.effects i call hcall hne
    · exact absurd hstart hne
  finished i call hcall j hj := by
    obtain hcall | ⟨-, rfl⟩ := getElem?_invoke_eq_some_iff.mp hcall
    · exact h.finished i call hcall j hj
    · exact h.mem_of_finished hj
  realTime x hx call hcall i hi := by
    obtain hcall | ⟨hnew, -⟩ := getElem?_invoke_eq_some_iff.mp hcall
    · exact h.realTime x hx call hcall i hi
    · -- The new call is not ordered yet.
      obtain ⟨call', hcall', -⟩ := h.ordered x hx
      have hlt := (List.getElem?_eq_some_iff.mp hcall').1
      omega

/-- A step at which the call does not take effect. -/
theorem quiet (h : Explains spec opOf outcome a₀ order s a) (hcall : s.calls[i]? = some call)
    (hsame : outcomeIn outcome next.2 = outcomeIn outcome call.status) :
    Explains spec opOf outcome a₀ order (s.set i call next) a where
  legal := h.legal
  nodup := h.nodup
  ordered x hx := by
    obtain ⟨call', hcall', hop, hresult⟩ := h.ordered x hx
    by_cases hxi : x.call = i
    · subst hxi
      obtain rfl : call = call' := Option.some_inj.mp (hcall.symm.trans hcall')
      exact ⟨_, (Slots.getElem?_set_eq_some_iff hcall).mpr (.inl ⟨rfl, rfl⟩), hop,
        hsame.trans hresult⟩
    · exact ⟨call', (Slots.getElem?_set_eq_some_iff hcall).mpr (.inr ⟨hxi, hcall'⟩), hop, hresult⟩
  effects j call' hcall' hne := by
    obtain ⟨rfl, rfl⟩ | ⟨-, hcall'⟩ := (Slots.getElem?_set_eq_some_iff hcall).mp hcall'
    · exact h.effects j call hcall (hsame ▸ hne)
    · exact h.effects j call' hcall' hne
  finished j call' hcall' := by
    obtain ⟨rfl, rfl⟩ | ⟨-, hcall'⟩ := (Slots.getElem?_set_eq_some_iff hcall).mp hcall'
    · exact h.finished j call hcall
    · exact h.finished j call' hcall'
  realTime x hx call' hcall' := by
    obtain ⟨hxi, rfl⟩ | ⟨-, hcall'⟩ := (Slots.getElem?_set_eq_some_iff hcall).mp hcall'
    · exact h.realTime x hx call (hxi ▸ hcall)
    · exact h.realTime x hx call' hcall'

/-- The step at which it does, with what the specification gives then. -/
theorem effect (h : Explains spec opOf outcome a₀ order s a) (hcall : s.calls[i]? = some call)
    {label : l} (hnone : outcomeIn outcome call.status = none) (hop : opOf label = call.op)
    (hsome : outcomeIn outcome next.2 = some (spec a label).2) :
    Explains spec opOf outcome a₀ (order ++ [⟨i, label, (spec a label).2⟩]) (s.set i call next)
      (spec a label).1 := by
  have hnot : i ∉ order.map Effect.call := by
    intro hi
    obtain ⟨x, hx, rfl⟩ := List.mem_map.mp hi
    obtain ⟨call', hcall', -, hresult⟩ := h.ordered x hx
    obtain rfl : call = call' := Option.some_inj.mp (hcall.symm.trans hcall')
    exact absurd (hnone.symm.trans hresult) (by simp)
  refine ⟨h.legal.append rfl, ?_, ?_, ?_, ?_, ?_⟩
  · rw [List.map_append]
    refine List.nodup_append.mpr ⟨h.nodup, by simp, fun j hj k hk hjk ↦ ?_⟩
    obtain rfl : k = i := by simpa using hk
    exact hnot (hjk ▸ hj)
  · intro x hx
    obtain hx | hx := List.mem_append.mp hx
    · obtain ⟨call', hcall', hop', hresult⟩ := h.ordered x hx
      have hne : x.call ≠ i := fun hxi ↦ hnot (hxi ▸ List.mem_map_of_mem hx)
      exact ⟨call', (Slots.getElem?_set_eq_some_iff hcall).mpr (.inr ⟨hne, hcall'⟩), hop', hresult⟩
    · obtain rfl := List.mem_singleton.mp hx
      exact ⟨_, (Slots.getElem?_set_eq_some_iff hcall).mpr (.inl ⟨rfl, rfl⟩), hop, hsome⟩
  · intro j call' hcall' hne
    rw [List.map_append]
    obtain ⟨rfl, -⟩ | ⟨-, hcall'⟩ := (Slots.getElem?_set_eq_some_iff hcall).mp hcall'
    · simp
    · exact List.mem_append_left _ (h.effects j call' hcall' hne)
  · intro j call' hcall' k hk
    rw [List.map_append]
    obtain ⟨rfl, rfl⟩ | ⟨-, hcall'⟩ := (Slots.getElem?_set_eq_some_iff hcall).mp hcall'
    · exact List.mem_append_left _ (h.finished j call hcall k hk)
    · exact List.mem_append_left _ (h.finished j call' hcall' k hk)
  · intro x hx call' hcall' k hk
    obtain hx | hx := List.mem_append.mp hx
    · obtain ⟨hxi, -⟩ | ⟨-, hcall'⟩ := (Slots.getElem?_set_eq_some_iff hcall).mp hcall'
      · exact absurd (hxi ▸ List.mem_map_of_mem hx) hnot
      · exact (h.realTime x hx call' hcall' k hk).append
    · obtain rfl := List.mem_singleton.mp hx
      obtain ⟨-, rfl⟩ | ⟨hne, -⟩ := (Slots.getElem?_set_eq_some_iff hcall).mp hcall'
      · exact before_append_self (h.finished i call hcall k hk)
      · exact absurd rfl hne

/-- At the end only what has returned counts. -/
theorem linearization (h : Explains spec opOf outcome a₀ order s a) :
    Linearization spec opOf a₀ order s a where
  legal := h.legal
  nodup := h.nodup
  made x hx := by
    obtain ⟨call, hcall, hop, -⟩ := h.ordered x hx
    exact ⟨call, hcall, hop⟩
  returned i result hreturned := by
    obtain ⟨call, hcall, hstatus⟩ := hreturned
    obtain ⟨x, hx, rfl⟩ := List.mem_map.mp (h.effects i call hcall (by simp [hstatus, outcomeIn]))
    obtain ⟨call', hcall', -, hresult⟩ := h.ordered x hx
    obtain rfl : call = call' := Option.some_inj.mp (hcall.symm.trans hcall')
    rw [hstatus] at hresult
    exact ⟨x, hx, rfl, (Option.some_inj.mp hresult).symm⟩
  realTime := h.realTime

end Explains

/-- **A simulation makes every run linearizable.** -/
theorem Simulation.linearization {code : Code σ ω κ ρ ε} {point : κ → ε → σ → Option l}
    {outcome : κ → Option ρ} {R : System σ ω κ ρ → α → Prop}
    (h : Simulation code spec opOf point outcome R) {shared : σ} {a₀ : α}
    (hinit : R { shared } a₀) {labels : List (Label ω ε)} {s : System σ ω κ ρ}
    (hrun : Machine.run (step code) { shared } labels = some s) :
    ∃ order a, R s a ∧ Linearization spec opOf a₀ order s a := by
  suffices hsuffices : ∃ order a, R s a ∧ Explains spec opOf outcome a₀ order s a by
    obtain ⟨order, a, hR, hexplains⟩ := hsuffices
    exact ⟨order, a, hR, hexplains.linearization⟩
  refine Machine.invariant_of_run
    (I := fun s ↦ ∃ order a, R s a ∧ Explains spec opOf outcome a₀ order s a) ?_
    ⟨[], a₀, hinit, .init shared⟩ hrun
  rintro s t label ⟨order, a, hR, hexplains⟩ hstep
  cases label with
  | invoke op =>
    obtain rfl := Option.some_inj.mp hstep
    exact ⟨order, a, h.invoke hR, hexplains.invoke (h.start op)⟩
  | step i e =>
    obtain ⟨call, pc, next, hcall, hpc, hnext, rfl⟩ := step_eq_some_iff.mp hstep
    cases hpoint : point pc e s.shared with
    | none =>
      obtain ⟨hsame, hR'⟩ := h.quiet hR hcall hpc hnext hpoint
      exact ⟨order, a, hR', hexplains.quiet hcall (hsame.trans (by rw [hpc]; rfl))⟩
    | some label =>
      obtain ⟨hnone, hop, hsome, hR'⟩ := h.effect hR hcall hpc hnext hpoint
      exact ⟨_, _, hR', hexplains.effect hcall (by rw [hpc]; exact hnone) hop hsome⟩

end Concurrent
