import Statsig.Lib.AsyncFile
import Statsig.Lib.Machine
import Statsig.Lib.Slots
import Statsig.NetworkService

/-!
# Who a client says it is

A context has two network services, the one it hands to its event logger and the one that `Attach`
gives to its data adapter.  Each draws a session id when it is created, and asks for the stable id
when it first needs it: `StableID::Get` reads it from the file, or draws it and has it written in
the background.

So the stable id is shared once it is in the file (`Inv.file`), while the two session ids never
agree (`owner_eq_of_oneIdentity`).  Two calls of `StableID::Get` at the same time are not modelled:
nothing protects the member that they write.
-/

set_option autoImplicit false

namespace Statsig

/-! ## The machine -/

/-- The two services of a context, by who holds them. -/
inductive ServiceOwner where
  | context
  | adapter
  deriving DecidableEq, Repr

/-- `session_id_`, and `stable_id_` of the service's `StableID`. -/
structure ServiceIds where
  sessionId : Str
  stableId : Option Str := none
  deriving DecidableEq, Repr

/-- A request that was sent. -/
structure SentRequest where
  owner : ServiceOwner
  statsigMetadata : StringMap
  deriving DecidableEq, Repr

/-- The two services, the file of the stable id, the number of UUIDs drawn so far, and the requests
sent. -/
structure IdentityRun where
  context : ServiceIds
  adapter : ServiceIds
  file : AsyncFile UInt8
  drawn : ℕ
  requests : List SentRequest := []
  deriving DecidableEq, Repr

/-- What can happen. -/
inductive IdentityLabel where
  /-- `FetchValues` or `SendEvents` builds a request, and sends it unless serialising throws. -/
  | send (owner : ServiceOwner) (serialized : Bool)
  /-- `PostWithRetry` posts the body of a request again. -/
  | retry (i : ℕ)
  | file (task : AsyncFile.Task)
  deriving DecidableEq, Repr

namespace IdentityRun

/-- The ids of a service. -/
def ids (s : IdentityRun) : ServiceOwner → ServiceIds
  | .context => s.context
  | .adapter => s.adapter

/-- `stable_id_ = id` -/
def setStableId (s : IdentityRun) (id : Str) : ServiceOwner → IdentityRun
  | .context => { s with context := { s.context with stableId := some id } }
  | .adapter => { s with adapter := { s.adapter with stableId := some id } }

variable (uuid : ℕ → Str)

/-- The two services of a new context, over a file with this content. -/
def init (content : Option Str) : IdentityRun :=
  { context := { sessionId := uuid 0 }, adapter := { sessionId := uuid 1 }, file := { content },
    drawn := 2 }

/-- `StableID::Get` -/
def getStableId (s : IdentityRun) (owner : ServiceOwner) : Str × IdentityRun :=
  match (s.ids owner).stableId with
  | some id => (id, s)
  | none =>
    match s.file.content with
    | some id => (id, s.setStableId id owner)
    | none =>
      let id := uuid s.drawn
      (id, { s with drawn := s.drawn + 1, file := s.file.queue id }.setStableId id owner)

/-- One step. -/
def step (s : IdentityRun) : IdentityLabel → Option IdentityRun
  | .send owner serialized =>
    let (stableId, t) := s.getStableId uuid owner
    if serialized then
      let service : NetworkService := { sessionId := (s.ids owner).sessionId, stableId }
      some { t with requests := t.requests ++ [⟨owner, service.getStatsigMetadata⟩] }
    else some t
  | .retry i => (s.requests[i]?).map fun q ↦ { s with requests := s.requests ++ [q] }
  | .file task => (s.file.runTask task).map fun file ↦ { s with file }

/-- All requests carry the same session id and the same stable id, and the latter is what the file
holds when all writes are done. -/
structure OneIdentity (s : IdentityRun) : Prop where
  session : ∀ q ∈ s.requests, ∀ q' ∈ s.requests,
    q.statsigMetadata.find? (str "sessionID") = q'.statsigMetadata.find? (str "sessionID")
  stable : ∀ q ∈ s.requests, ∀ q' ∈ s.requests,
    q.statsigMetadata.find? (str "stableID") = q'.statsigMetadata.find? (str "stableID")
  saved : s.file.Idle → ∀ q ∈ s.requests,
    q.statsigMetadata.find? (str "stableID") = s.file.content

/-- A request is sent by the one service that sends requests, and a service that asks for the stable
id for the first time finds no write of the file outstanding. -/
def Undivided (s : IdentityRun) : IdentityLabel → Prop
  | .send owner serialized => (serialized = true → ∀ q ∈ s.requests, q.owner = owner) ∧
      ((s.ids owner).stableId = none → s.file.Idle)
  | .retry _ | .file _ => True

instance (s : IdentityRun) : DecidablePred (Undivided s)
  | .send owner serialized => inferInstanceAs (Decidable
      ((serialized = true → ∀ q ∈ s.requests, q.owner = owner) ∧
        ((s.ids owner).stableId = none → s.file.Idle)))
  | .retry _ | .file _ => .isTrue trivial

/-! ## What a request carries -/

/-- A request carries the ids of its service. -/
def Carries (s : IdentityRun) (q : SentRequest) : Prop :=
  ∃ id, (s.ids q.owner).stableId = some id ∧
    q.statsigMetadata =
      (NetworkService.mk (s.ids q.owner).sessionId id).getStatsigMetadata

theorem find?_sessionID (net : NetworkService) :
    net.getStatsigMetadata.find? (str "sessionID") = some net.sessionId := by
  rw [UnorderedMap.find?_eq_some_iff, entries_getStatsigMetadata]
  simp

theorem find?_stableID (net : NetworkService) :
    net.getStatsigMetadata.find? (str "stableID") = some net.stableId := by
  rw [UnorderedMap.find?_eq_some_iff, entries_getStatsigMetadata]
  simp

/-! ## `StableID::Get` -/

section GetStableId

variable (s : IdentityRun) (owner : ServiceOwner)

/-- Whatever it does, it remembers what it returns, and touches neither the requests nor the other
ids. -/
theorem getStableId_spec :
    (s.getStableId uuid owner).2.requests = s.requests ∧
      (∀ o, ((s.getStableId uuid owner).2.ids o).sessionId = (s.ids o).sessionId) ∧
      ((s.getStableId uuid owner).2.ids owner).stableId = some (s.getStableId uuid owner).1 ∧
      ∀ o, o ≠ owner → ((s.getStableId uuid owner).2.ids o).stableId = (s.ids o).stableId := by
  rw [getStableId]
  cases hid : (s.ids owner).stableId with
  | some id => exact ⟨rfl, fun _ ↦ rfl, hid, fun _ _ ↦ rfl⟩
  | none =>
    have hset : ∀ (t : IdentityRun) (id : Str), (t.setStableId id owner).requests = t.requests ∧
        (∀ o, ((t.setStableId id owner).ids o).sessionId = (t.ids o).sessionId) ∧
        ((t.setStableId id owner).ids owner).stableId = some id ∧
        ∀ o, o ≠ owner → ((t.setStableId id owner).ids o).stableId = (t.ids o).stableId := by
      intro t id
      cases owner with
      | context => exact ⟨rfl, fun o ↦ by cases o <;> rfl, rfl, fun o ho ↦ by cases o <;> trivial⟩
      | adapter => exact ⟨rfl, fun o ↦ by cases o <;> rfl, rfl, fun o ho ↦ by cases o <;> trivial⟩
    cases s.file.content with
    | some id => exact hset s id
    | none => exact hset { s with drawn := s.drawn + 1, file := s.file.queue (uuid s.drawn) } _

/-- Where the id comes from: the service has it, or the file has it, or it is new and will be
written. -/
theorem getStableId_cases :
    (∃ id, (s.ids owner).stableId = some id ∧ s.getStableId uuid owner = (id, s)) ∨
    ((s.ids owner).stableId = none ∧
      ((s.file.content = some (s.getStableId uuid owner).1 ∧
          (s.getStableId uuid owner).2.file = s.file) ∨
        (s.file.content = none ∧
          (s.getStableId uuid owner).2.file = s.file.queue (s.getStableId uuid owner).1))) := by
  rw [getStableId]
  cases hid : (s.ids owner).stableId with
  | some id => exact .inl ⟨id, rfl, rfl⟩
  | none =>
    refine .inr ⟨rfl, ?_⟩
    cases hcontent : s.file.content with
    | some id => cases owner <;> exact .inl ⟨rfl, rfl⟩
    | none => cases owner <;> exact .inr ⟨rfl, rfl⟩

end GetStableId

theorem Carries.getStableId {s : IdentityRun} {q : SentRequest} (h : s.Carries q)
    (owner : ServiceOwner) : (s.getStableId uuid owner).2.Carries q := by
  obtain ⟨id, hid, hmetadata⟩ := h
  obtain ⟨-, hsession, -, hother⟩ := getStableId_spec uuid s owner
  refine ⟨id, ?_, by rw [hsession]; exact hmetadata⟩
  by_cases howner : q.owner = owner
  · subst howner
    obtain ⟨id', -, heq⟩ | ⟨hnone, -⟩ := getStableId_cases uuid s q.owner
    · rw [heq]
      exact hid
    · exact absurd (hnone.symm.trans hid) (by simp)
  · rw [hother q.owner howner, hid]

/-! ## Invariants -/

/-- The session ids are the first two UUIDs, and the requests carry the ids of their services. -/
structure Faithful (s : IdentityRun) : Prop where
  session : ∀ owner, (s.ids owner).sessionId = ((init uuid none).ids owner).sessionId
  carries : ∀ q ∈ s.requests, s.Carries q

/-- At most one write of the file is outstanding, the services have the id that the file is going to
hold, and one of them sends the requests. -/
structure Inv (s : IdentityRun) : Prop extends Faithful uuid s where
  file : s.file.Exclusive
  ids : ∀ owner id, (s.ids owner).stableId = some id → s.file.final = some id
  owners : ∀ q ∈ s.requests, ∀ q' ∈ s.requests, q.owner = q'.owner

theorem inv_init (content : Option Str) : Inv uuid (init uuid content) where
  session owner := by cases owner <;> rfl
  carries _ h := absurd h (by simp [init])
  file := .idle content
  ids owner _ h := by cases owner <;> exact absurd h (by simp [init, IdentityRun.ids])
  owners _ h := absurd h (by simp [init])

variable {uuid}

theorem Faithful.getStableId {s : IdentityRun} (hs : Faithful uuid s) (owner : ServiceOwner) :
    Faithful uuid (s.getStableId uuid owner).2 := by
  obtain ⟨hrequests, hsession, -⟩ := getStableId_spec uuid s owner
  refine ⟨fun o ↦ by rw [hsession, hs.session], fun q hq ↦ ?_⟩
  rw [hrequests] at hq
  exact (hs.carries q hq).getStableId uuid owner

theorem faithful_step {s t : IdentityRun} {a : IdentityLabel} (hs : Faithful uuid s)
    (h : step uuid s a = some t) : Faithful uuid t := by
  cases a with
  | send owner serialized =>
    have hget := hs.getStableId owner
    obtain ⟨-, hsession, hid, -⟩ := getStableId_spec uuid s owner
    simp only [step] at h
    split at h
    · obtain rfl := Option.some_inj.mp h
      refine ⟨hget.session, Slots.forall_mem_append_singleton hget.carries ⟨_, hid, ?_⟩⟩
      exact congrArg (fun sessionId ↦ (NetworkService.mk sessionId
        (s.getStableId uuid owner).1).getStatsigMetadata) (hsession owner).symm
    · obtain rfl := Option.some_inj.mp h
      exact hget
  | retry i =>
    obtain ⟨q, hq, rfl⟩ := Option.map_eq_some_iff.mp h
    exact ⟨hs.session, Slots.forall_mem_append_singleton hs.carries
      (hs.carries q (List.mem_of_getElem? hq))⟩
  | file task =>
    obtain ⟨file, -, rfl⟩ := Option.map_eq_some_iff.mp h
    exact ⟨hs.session, hs.carries⟩

/-- A service that finds no write outstanding gets the id that the file is going to hold. -/
theorem Inv.getStableId {s : IdentityRun} (hs : Inv uuid s) {owner : ServiceOwner}
    (hok : (s.ids owner).stableId = none → s.file.Idle) :
    Inv uuid (s.getStableId uuid owner).2 := by
  obtain ⟨id, hid, heq⟩ | ⟨hnone, hread⟩ := getStableId_cases uuid s owner
  · rw [heq]
    exact hs
  · obtain ⟨hrequests, -, hid, hother⟩ := getStableId_spec uuid s owner
    have hidle := hok hnone
    have hfile : (s.getStableId uuid owner).2.file.Exclusive ∧
        (s.getStableId uuid owner).2.file.final = some (s.getStableId uuid owner).1 ∧
        ∀ o id, (s.ids o).stableId = some id → id = (s.getStableId uuid owner).1 := by
      rcases hread with ⟨hcontent, hsame⟩ | ⟨hcontent, hqueued⟩
      · rw [hsame, hidle.final_eq]
        refine ⟨hs.file, hcontent, fun o id hid ↦ ?_⟩
        have hfinal := hs.ids o id hid
        rw [hidle.final_eq, hcontent] at hfinal
        exact (Option.some_inj.mp hfinal).symm
      · rw [hqueued]
        refine ⟨(hidle.queue _).1, (hidle.queue _).2, fun o id hid ↦ ?_⟩
        have hfinal := hs.ids o id hid
        rw [hidle.final_eq, hcontent] at hfinal
        exact absurd hfinal (by simp)
    obtain ⟨hexclusive, hfinal, hagree⟩ := hfile
    refine { hs.toFaithful.getStableId owner with
      file := hexclusive
      ids := fun o id ho ↦ ?_
      owners := by rw [hrequests]; exact hs.owners }
    by_cases howner : o = owner
    · subst howner
      rw [hfinal, ← hid, ho]
    · rw [hother o howner] at ho
      rw [hfinal, hagree o id ho]

theorem inv_step {s t : IdentityRun} {a : IdentityLabel} (hs : Inv uuid s) (hok : Undivided s a)
    (h : step uuid s a = some t) : Inv uuid t := by
  have hfaithful := faithful_step hs.toFaithful h
  cases a with
  | send owner serialized =>
    have hget := hs.getStableId hok.2
    obtain ⟨hrequests, -⟩ := getStableId_spec uuid s owner
    simp only [step] at h
    split at h
    · rename_i hserialized
      obtain rfl := Option.some_inj.mp h
      have howner : ∀ q ∈ (s.getStableId uuid owner).2.requests ++
          [⟨owner, (NetworkService.mk (s.ids owner).sessionId
            (s.getStableId uuid owner).1).getStatsigMetadata⟩], q.owner = owner := by
        rw [hrequests]
        exact Slots.forall_mem_append_singleton (hok.1 hserialized) rfl
      exact { hfaithful with
        file := hget.file
        ids := hget.ids
        owners := fun q hq q' hq' ↦ (howner q hq).trans (howner q' hq').symm }
    · obtain rfl := Option.some_inj.mp h
      exact hget
  | retry i =>
    obtain ⟨q, hq, rfl⟩ := Option.map_eq_some_iff.mp h
    have hmem : ∀ q' ∈ s.requests ++ [q], q' ∈ s.requests :=
      Slots.forall_mem_append_singleton (fun _ h ↦ h) (List.mem_of_getElem? hq)
    exact { hfaithful with
      file := hs.file
      ids := hs.ids
      owners := fun q' hq' q'' hq'' ↦ hs.owners q' (hmem q' hq') q'' (hmem q'' hq'') }
  | file task =>
    obtain ⟨file, hfile, rfl⟩ := Option.map_eq_some_iff.mp h
    obtain ⟨hexclusive, hfinal⟩ := hs.file.runTask hfile
    exact { hfaithful with
      file := hexclusive
      ids := fun owner id hid ↦ by rw [hfinal]; exact hs.ids owner id hid
      owners := hs.owners }

/-! ## One identity -/

theorem Carries.statsigMetadata_eq {s : IdentityRun} {q q' : SentRequest} (h : s.Carries q)
    (h' : s.Carries q') (howner : q.owner = q'.owner) : q.statsigMetadata = q'.statsigMetadata := by
  obtain ⟨id, hid, hmetadata⟩ := h
  obtain ⟨id', hid', hmetadata'⟩ := h'
  rw [howner, hid'] at hid
  obtain rfl := Option.some_inj.mp hid
  rw [hmetadata, hmetadata', howner]

/-- **One identity**, in every state of every run in which one service sends all requests, and the
first call of `StableID::Get` of a service finds no write of the file outstanding. -/
theorem oneIdentity_of_run {content : Option Str} {labels : List IdentityLabel} {s : IdentityRun}
    (hrun : Machine.run (step uuid) (init uuid content) labels = some s)
    (hok : Machine.AllSteps (step uuid) Undivided (init uuid content) labels) : OneIdentity s := by
  have hs : Inv uuid s := Machine.run_induct inv_step (inv_init uuid content) hok hrun
  have hsame : ∀ q ∈ s.requests, ∀ q' ∈ s.requests, q.statsigMetadata = q'.statsigMetadata :=
    fun q hq q' hq' ↦
      (hs.carries q hq).statsigMetadata_eq (hs.carries q' hq') (hs.owners q hq q' hq')
  refine ⟨fun q hq q' hq' ↦ by rw [hsame q hq q' hq'], fun q hq q' hq' ↦ by rw [hsame q hq q' hq'],
    fun hidle q hq ↦ ?_⟩
  obtain ⟨id, hid, hmetadata⟩ := hs.carries q hq
  rw [hmetadata, find?_stableID, ← hidle.final_eq, hs.ids _ _ hid]

theorem session_injective (hfresh : Function.Injective uuid) (owner owner' : ServiceOwner)
    (h : ((init uuid none).ids owner).sessionId = ((init uuid none).ids owner').sessionId) :
    owner = owner' := by
  cases owner <;> cases owner'
  · rfl
  · exact absurd (hfresh h) (by decide)
  · exact absurd (hfresh h) (by decide)
  · rfl

/-- **Two services are two identities**: if all requests of a run carry the same session id, one
service has sent them all. -/
theorem owner_eq_of_oneIdentity (hfresh : Function.Injective uuid) {content : Option Str}
    {labels : List IdentityLabel} {s : IdentityRun}
    (hrun : Machine.run (step uuid) (init uuid content) labels = some s) (h : OneIdentity s) :
    ∀ q ∈ s.requests, ∀ q' ∈ s.requests, q.owner = q'.owner := by
  have hs : Faithful uuid s :=
    Machine.invariant_of_run faithful_step (inv_init uuid content).toFaithful hrun
  intro q hq q' hq'
  obtain ⟨id, -, hmetadata⟩ := hs.carries q hq
  obtain ⟨id', -, hmetadata'⟩ := hs.carries q' hq'
  have hsession := h.session q hq q' hq'
  rw [hmetadata, hmetadata', find?_sessionID, find?_sessionID, Option.some_inj, hs.session,
    hs.session] at hsession
  exact session_injective hfresh q.owner q'.owner hsession

/-! ## An adapter that fetches, and a logger that sends -/

/-- UUIDs that differ in their lengths. -/
def zeros (n : ℕ) : Str := List.replicate n 48

/-- The adapter fetches twice, and retries; the id is written in between. -/
def onlyFetches : List IdentityLabel :=
  [.send .adapter true, .file (.openFile 0), .retry 0, .file (.finish 0), .send .adapter true]

theorem oneIdentity_onlyFetches :
    ∃ s, Machine.run (step zeros) (init zeros none) onlyFetches = some s ∧
      s.requests.length = 3 ∧ s.file.content = some (zeros 2) ∧ OneIdentity s :=
  ⟨_, rfl, rfl, rfl, oneIdentity_of_run (show Machine.run (step zeros) (init zeros none)
    onlyFetches = some _ from rfl) (by decide +kernel)⟩

/-- The adapter fetches and the logger sends. -/
theorem not_forall_oneIdentity :
    ¬ ∀ (uuid : ℕ → Str), Function.Injective uuid → ∀ (content : Option Str)
      (labels : List IdentityLabel) (s : IdentityRun),
      Machine.run (step uuid) (init uuid content) labels = some s → OneIdentity s := by
  intro h
  have hone := h zeros (List.replicate_left_injective 48) none
    [.send .adapter true, .send .context true] _ rfl
  have hsession := hone.session _ List.mem_cons_self _
    (List.mem_cons_of_mem _ List.mem_cons_self)
  exact absurd hsession (by decide +kernel)

end IdentityRun

end Statsig
