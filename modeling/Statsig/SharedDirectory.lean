import Statsig.CacheFiles
import Statsig.Lib.AsyncFile
import Statsig.Lib.Slots

/-!
# One directory for everything

All clients of a machine, in any number of processes and with any sdk keys, keep their files in one
directory: the stable id, the failed events of each sdk key, and the evaluations of each user.  The
files are told apart by their names only, every write waits for a worker, and the eviction of
evaluations looks at all files.

`separate_of_run` says that all the same the stable id, and the failed events of an sdk key, are in
a file of their own, to which nothing happens but what its owner asks for; `settled_of_run` that the
stable id stays what it is once it has been written and nobody is about to write another.

`StableID::Get` reads the file in one step and queues its write in another, so two clients may both
have found no file.  Calls of `Get` on one `StableID` come one after the other: `stable_id_` has no
lock.
-/

set_option autoImplicit false

namespace Statsig

namespace constants

def kStableIdKey : Str := str "stable_id"
def kCachedFailedEventPayloadPrefix : Str := str "statsig.failed_events."

end constants

open constants

variable (p : Platform) (lib : JsonText)

/-! ## Names -/

/-- `GetFailedEventCacheKey` -/
def EventLogger.getFailedEventCacheKey (sdkKey : Str) : Str :=
  kCachedFailedEventPayloadPrefix ++ hashing.djb2 p sdkKey

/-- Who a file belongs to. -/
inductive FileOwner where
  | stableId
  | failedEvents (sdkKey : Str)
  | evaluations (sdkKey : Str) (user : StatsigUser)
  deriving DecidableEq, Repr

namespace FileOwner

/-- The name of the file. -/
def name : FileOwner → Str
  | stableId => kStableIdKey
  | failedEvents sdkKey => EventLogger.getFailedEventCacheKey p sdkKey
  | evaluations sdkKey user => DataAdapter.getCacheKey p sdkKey user

/-- The file is not one that is evicted. -/
def Lasting : FileOwner → Prop
  | evaluations _ _ => False
  | _ => True

/-- The two have one file. -/
def Shares : FileOwner → FileOwner → Prop
  | stableId, stableId => True
  | failedEvents sdkKey, failedEvents sdkKey' => hashing.djb2 p sdkKey = hashing.djb2 p sdkKey'
  | _, _ => False

instance : DecidableRel (Shares p)
  | stableId, stableId => .isTrue trivial
  | failedEvents sdkKey, failedEvents sdkKey' =>
    inferInstanceAs (Decidable (hashing.djb2 p sdkKey = hashing.djb2 p sdkKey'))
  | stableId, failedEvents _ | stableId, evaluations _ _ | failedEvents _, stableId
  | failedEvents _, evaluations _ _ | evaluations _ _, _ => .isFalse id

variable {p}

/-- Digits are no dots. -/
theorem count_dot_decimal (n : ℕ) : (decimal n).count 46 = 0 := by
  refine List.count_eq_zero.mpr fun hmem ↦ ?_
  obtain ⟨c, hc, hdot⟩ := List.mem_map.mp hmem
  have hdigit : c.isDigit = true := Nat.isDigit_of_mem_toDigits (by omega) (by omega) hc
  simp only [Char.isDigit, Bool.and_eq_true, decide_eq_true_eq] at hdigit
  have hle := toNat_le_of_mem_toDigits hc
  have hge : 48 ≤ c.toNat := hdigit.1
  have hnat := congrArg UInt8.toNat hdot
  rw [UInt8.toNat_ofNat_of_lt' (by simp only [UInt8.size]; omega)] at hnat
  have hforty : (46 : UInt8).toNat = 46 := rfl
  omega

theorem count_dot_failedEvents (sdkKey : Str) :
    (EventLogger.getFailedEventCacheKey p sdkKey).count 46 = 2 := by
  rw [EventLogger.getFailedEventCacheKey, hashing.djb2, List.count_append, count_dot_decimal]
  decide

/-- The prefix of the evaluations has more dots than the names of the other files. -/
theorem not_isEvaluations {owner : FileOwner} (h : owner.Lasting) :
    ¬ IsEvaluations (owner.name p) := by
  have hprefix : kCachedEvaluationsPrefix.count 46 = 3 := by decide
  intro hinfix
  have hle := hinfix.sublist.count_le 46
  cases owner with
  | stableId =>
    have hname : kStableIdKey.count 46 = 0 := by decide
    simp only [name] at hle
    omega
  | failedEvents sdkKey =>
    simp only [name, count_dot_failedEvents] at hle
    omega
  | evaluations sdkKey user => exact h

theorem isEvaluations (sdkKey : Str) (user : StatsigUser) :
    IsEvaluations ((evaluations sdkKey user).name p) := (List.prefix_append _ _).isInfix

/-- **Whose file it is**: two owners have the same name only where they are meant to, or where two
sdk keys have the same hash. -/
theorem name_eq_iff {owner owner' : FileOwner} (h : owner.Lasting) :
    owner'.name p = owner.name p ↔ owner.Shares p owner' := by
  cases owner with
  | evaluations sdkKey user => exact absurd h id
  | stableId =>
    cases owner' with
    | stableId => exact iff_of_true rfl trivial
    | failedEvents sdkKey =>
      refine iff_of_false (fun heq ↦ ?_) id
      have hcount := congrArg (List.count 46) heq
      simp only [name, count_dot_failedEvents] at hcount
      exact absurd hcount (by decide)
    | evaluations sdkKey user =>
      exact iff_of_false (fun heq ↦ not_isEvaluations h (heq ▸ isEvaluations sdkKey user)) id
  | failedEvents sdkKey =>
    cases owner' with
    | stableId =>
      refine iff_of_false (fun heq ↦ ?_) id
      have hcount := congrArg (List.count 46) heq
      simp only [name, count_dot_failedEvents] at hcount
      exact absurd hcount (by decide)
    | failedEvents sdkKey' =>
      simp only [name, EventLogger.getFailedEventCacheKey, List.append_cancel_left_eq, Shares]
      exact eq_comm
    | evaluations sdkKey user =>
      exact iff_of_false (fun heq ↦ not_isEvaluations h (heq ▸ isEvaluations sdkKey user)) id

end FileOwner

/-! ## The machine -/

/-- The `stable_id_` of a `StableID`, and its call of `Get` if one is in progress. -/
inductive StableIdState where
  | unset
  /-- `Get` has found no file, and is about to write one. -/
  | absent
  | got (id : Str)
  deriving DecidableEq, Repr

/-- The directory, the writes that wait for a worker, those that have their file open, and every
`StableID`.  The log has what was asked for. -/
structure SharedDirectory where
  dir : CacheDir := ∅
  queued : List (Str × Str) := []
  opened : List (Str × Str) := []
  stableIds : List StableIdState := []
  log : List (FileOwner × AsyncFile.Request UInt8) := []
  deriving DecidableEq, Repr

inductive DirectoryLabel where
  /-- A `StableID` is made. -/
  | createStableId
  /-- `StableID::Get`, as far as it reads the file. -/
  | readStableId (i : ℕ)
  /-- `StableID::Get` goes on, with what `UUID::v4` has returned. -/
  | writeStableId (i : ℕ) (drawn : Str)
  | writeToCacheFile (sdkKey : Str) (user : StatsigUser) (result : DataAdapterResult)
  /-- `SaveFailedEvents`, with what it has serialised. -/
  | saveFailedEvents (sdkKey content : Str)
  /-- `RetryFailedEvents` deletes the file. -/
  | deleteFailedEvents (sdkKey : Str)
  | openFile (i : ℕ) (r : Rehash Str CacheFile) (now : ℤ)
  | finish (i : ℕ) (r : Rehash Str CacheFile) (now : ℤ)
  /-- The process of a write ends, before the write has run or while it runs. -/
  | lose (i : ℕ)
  | loseOpened (i : ℕ)

namespace SharedDirectory

/-- `WriteToCache`: a write is queued. -/
def queue (s : SharedDirectory) (owner : FileOwner) (content : Str) : SharedDirectory :=
  { s with queued := s.queued ++ [(owner.name p, content)]
           log := s.log ++ [(owner, .write content)] }

/-- `DeleteFromCache`.  A write that has the file open goes on writing to a file without a name. -/
def delete (s : SharedDirectory) (owner : FileOwner) : SharedDirectory :=
  { s with dir := s.dir.erase (owner.name p)
           opened := s.opened.filter fun w ↦ decide (w.1 ≠ owner.name p)
           log := s.log ++ [(owner, .delete)] }

/-- Other files are there than before; writes that had one of those open that are gone are lost. -/
def evict (s : SharedDirectory) (dir : CacheDir) : SharedDirectory :=
  { s with dir
           opened := s.opened.filter fun w ↦
             (s.dir.find? w.1).isNone || (dir.find? w.1).isSome }

/-- `StableID::Get`, as far as it reads the file. -/
def readStableId (s : SharedDirectory) (i : ℕ) : SharedDirectory :=
  { s with stableIds := s.stableIds.set i <|
      match File.readFromCache s.dir kStableIdKey with
      | some id => .got id
      | none => .absent }

/-- The rest of it. -/
def writeStableId (s : SharedDirectory) (i : ℕ) (drawn : Str) : SharedDirectory :=
  { s.queue p .stableId drawn with stableIds := s.stableIds.set i (.got drawn) }

/-- One step. -/
def step (s : SharedDirectory) : DirectoryLabel → Option SharedDirectory
  | .createStableId => some { s with stableIds := s.stableIds ++ [.unset] }
  | .readStableId i =>
    match s.stableIds[i]? with
    | some .unset => some (s.readStableId i)
    | some (.got _) => some s
    | _ => none
  | .writeStableId i drawn =>
    match s.stableIds[i]? with
    | some .absent => some (s.writeStableId p i drawn)
    | _ => none
  | .writeToCacheFile sdkKey user result =>
    let (dir, write) :=
      DataAdapter.writeToCacheFile lib s.dir (DataAdapter.getCacheKey p sdkKey user) result
    match write with
    | none => some (s.evict dir)
    | some (_, content) => some ((s.evict dir).queue p (.evaluations sdkKey user) content)
  | .saveFailedEvents sdkKey content => some (s.queue p (.failedEvents sdkKey) content)
  | .deleteFailedEvents sdkKey => some (s.delete p (.failedEvents sdkKey))
  | .openFile i r now => (s.queued[i]?).map fun w ↦
    { s with dir := File.writeToCache s.dir r w.1 [] now
             queued := s.queued.eraseIdx i
             opened := s.opened ++ [w] }
  | .finish i r now => (s.opened[i]?).map fun w ↦
    let content := w.2 ++ ((File.readFromCache s.dir w.1).getD []).drop w.2.length
    { s with dir := File.writeToCache s.dir r w.1 content now
             opened := s.opened.eraseIdx i }
  | .lose i => (s.queued[i]?).map fun _ ↦ { s with queued := s.queued.eraseIdx i }
  | .loseOpened i => (s.opened[i]?).map fun _ ↦ { s with opened := s.opened.eraseIdx i }

/-! ## One file of it -/

/-- The content of a write, if it is one of this file. -/
def writeOf (name : Str) (w : Str × Str) : Option Str := if w.1 = name then some w.2 else none

/-- The file with this name. -/
def file (s : SharedDirectory) (name : Str) : AsyncFile UInt8 where
  content := File.readFromCache s.dir name
  queued := s.queued.filterMap (writeOf name)
  opened := s.opened.filterMap (writeOf name)

/-- What was asked for by those who share the file. -/
def requests (s : SharedDirectory) (owner : FileOwner) : List (AsyncFile.Request UInt8) :=
  s.log.filterMap fun e ↦ if owner.Shares p e.1 then some e.2 else none

section Steps

variable {p lib} {s t : SharedDirectory} {a : DirectoryLabel} {owner owner' : FileOwner}
  {name : Str}

theorem readFromCache_writeToCache_self (r : Rehash Str CacheFile) (dir : CacheDir)
    (content : Str) (now : ℤ) :
    File.readFromCache (File.writeToCache dir r name content now) name = some content := by
  rw [File.readFromCache, File.writeToCache,
    UnorderedMap.find?_emplace_self r (UnorderedMap.find?_erase_self dir name)]
  rfl

theorem readFromCache_writeToCache_of_ne (r : Rehash Str CacheFile) (dir : CacheDir)
    (content : Str) (now : ℤ) {name' : Str} (h : name ≠ name') :
    File.readFromCache (File.writeToCache dir r name' content now) name =
      File.readFromCache dir name := by
  rw [File.readFromCache, File.writeToCache, UnorderedMap.find?_emplace_of_ne r h,
    UnorderedMap.find?_erase_of_ne h, File.readFromCache]

/-- Eviction is about the evaluations. -/
theorem find?_runCacheEviction (dir : CacheDir) (h : ¬ IsEvaluations name) :
    (File.runCacheEviction dir kCachedEvaluationsPrefix).find? name = dir.find? name := by
  have hloop : ∀ (paths : List Str) (dir : CacheDir), (∀ path ∈ paths, IsEvaluations path) →
      (File.evictLoop dir paths).find? name = dir.find? name := by
    intro paths
    induction paths with
    | nil => exact fun _ _ ↦ rfl
    | cons eldest paths ih =>
      intro dir hpaths
      rw [File.evictLoop]
      split
      · rw [ih _ fun path hpath ↦ hpaths path (List.mem_cons_of_mem eldest hpath)]
        refine UnorderedMap.find?_erase_of_ne fun heq ↦ h ?_
        exact heq ▸ hpaths eldest List.mem_cons_self
      · rfl
  refine hloop _ dir fun path hpath ↦ ?_
  rw [List.mem_reverse, File.getCachePaths_eq] at hpath
  obtain ⟨e, he, rfl⟩ := List.mem_map.mp hpath
  exact (File.mem_youngestFirst.mp he).1

theorem file_evict {dir : CacheDir} (h : dir.find? name = s.dir.find? name) :
    (s.evict dir).file name = s.file name := by
  have hopened : (s.evict dir).opened.filterMap (writeOf name) =
      s.opened.filterMap (writeOf name) := by
    rw [evict, List.filterMap_filter]
    refine List.filterMap_congr fun w _ ↦ ?_
    by_cases hname : w.1 = name
    · rw [hname, h]
      cases s.dir.find? name <;> rfl
    · simp [writeOf, hname]
  rw [file, hopened, file, evict, File.readFromCache, h, File.readFromCache]

/-- A write is queued for this file or for another one. -/
theorem file_queue (h : owner.Lasting) (s : SharedDirectory) (owner' : FileOwner) (content : Str) :
    (s.queue p owner' content).file (owner.name p) =
      if owner.Shares p owner' then (s.file (owner.name p)).queue content
      else s.file (owner.name p) := by
  simp only [file, queue, AsyncFile.queue, List.filterMap_append]
  split <;> rename_i hshares
  · simp [writeOf, (FileOwner.name_eq_iff h).mpr hshares]
  · have hname : owner'.name p ≠ owner.name p := fun h' ↦ hshares ((FileOwner.name_eq_iff h).mp h')
    simp [writeOf, hname]

theorem file_delete (h : owner.Lasting) (s : SharedDirectory) (owner' : FileOwner) :
    (s.delete p owner').file (owner.name p) =
      if owner.Shares p owner' then (s.file (owner.name p)).delete else s.file (owner.name p) := by
  split <;> rename_i hshares
  · have hname := (FileOwner.name_eq_iff h).mpr hshares
    have hopened : (s.delete p owner').opened.filterMap (writeOf (owner.name p)) = [] := by
      refine List.filterMap_eq_nil_iff.mpr fun w hw ↦ ?_
      have hne := of_decide_eq_true (List.mem_filter.mp hw).2
      rw [hname] at hne
      simp [writeOf, hne]
    rw [file, hopened, AsyncFile.delete, delete, File.readFromCache, hname,
      UnorderedMap.find?_erase_self]
    rfl
  · have hname : owner.name p ≠ owner'.name p :=
      fun h' ↦ hshares ((FileOwner.name_eq_iff h).mp h'.symm)
    have hopened : (s.delete p owner').opened.filterMap (writeOf (owner.name p)) =
        s.opened.filterMap (writeOf (owner.name p)) := by
      rw [delete, List.filterMap_filter]
      refine List.filterMap_congr fun w _ ↦ ?_
      by_cases hw : w.1 = owner.name p
      · simp [hw, hname]
      · simp [writeOf, hw]
    rw [file, hopened, file, delete, File.readFromCache, UnorderedMap.find?_erase_of_ne hname,
      File.readFromCache]

theorem requests_append (owner : FileOwner) {q : AsyncFile.Request UInt8}
    (h : t.log = s.log ++ [(owner', q)]) :
    t.requests p owner = s.requests p owner ++ if owner.Shares p owner' then [q] else [] := by
  rw [requests, h, List.filterMap_append, requests]
  congr 1
  split <;> rename_i hshares <;> simp [hshares]

/-- What becomes of a file in one step of the directory: nothing, or one step of its own, which was
asked for unless it is a step of a write. -/
def Follows (p : Platform) (owner : FileOwner) (s t : SharedDirectory) : Prop :=
  ∃ labels, Machine.run AsyncFile.step (s.file (owner.name p)) labels =
      some (t.file (owner.name p)) ∧
    t.requests p owner = s.requests p owner ++ labels.filterMap AsyncFile.Label.request?

theorem Follows.of_eq (hfile : t.file (owner.name p) = s.file (owner.name p))
    (hrequests : t.requests p owner = s.requests p owner) : Follows p owner s t :=
  ⟨[], by rw [hfile, Machine.run_nil], by rw [hrequests]; exact (List.append_nil _).symm⟩

theorem Follows.of_step (label : AsyncFile.Label UInt8)
    (hfile : (s.file (owner.name p)).step label = some (t.file (owner.name p)))
    (hrequests : t.requests p owner = s.requests p owner ++ label.request?.toList) :
    Follows p owner s t := by
  refine ⟨[label], by rw [Machine.run_cons, hfile]; rfl, hrequests.trans ?_⟩
  cases h : label.request? <;> simp [h]

/-- **A write is asked for.** -/
theorem follows_queue (h : owner.Lasting) (s : SharedDirectory) (owner' : FileOwner)
    (content : Str) : Follows p owner s (s.queue p owner' content) := by
  have hfile := file_queue (p := p) h s owner' content
  have hrequests := requests_append (p := p) (s := s) (t := s.queue p owner' content) owner rfl
  split at hfile <;> rename_i hshares
  · rw [if_pos hshares] at hrequests
    exact .of_step (.request (.write content)) (by rw [hfile]; rfl) hrequests
  · rw [if_neg hshares, List.append_nil] at hrequests
    exact .of_eq hfile hrequests

/-- **A file is deleted.** -/
theorem follows_delete (h : owner.Lasting) (s : SharedDirectory) (owner' : FileOwner) :
    Follows p owner s (s.delete p owner') := by
  have hfile := file_delete (p := p) h s owner'
  have hrequests := requests_append (p := p) (s := s) (t := s.delete p owner') owner rfl
  split at hfile <;> rename_i hshares
  · rw [if_pos hshares] at hrequests
    exact .of_step (.request .delete) (by rw [hfile]; rfl) hrequests
  · rw [if_neg hshares, List.append_nil] at hrequests
    exact .of_eq hfile hrequests

/-! ### The steps of writes -/

section Writes

variable {i : ℕ} {w : Str × Str}

theorem writeOf_self : writeOf w.1 w = some w.2 := if_pos rfl

theorem writeOf_of_ne (h : w.1 ≠ name) : writeOf name w = none := if_neg h

/-- **A write opens its file.** -/
theorem follows_openFile (hw : s.queued[i]? = some w) (r : Rehash Str CacheFile) (now : ℤ) :
    Follows p owner s
      { s with dir := File.writeToCache s.dir r w.1 [] now
               queued := s.queued.eraseIdx i
               opened := s.opened ++ [w] } := by
  by_cases hname : w.1 = owner.name p
  · obtain ⟨j, hj, hqueued⟩ := Slots.filterMap_eraseIdx hw writeOf_self
    refine .of_step (.task (.openFile j)) ?_ (List.append_nil _).symm
    simp only [← hname, AsyncFile.step, AsyncFile.runTask, AsyncFile.openFile, file, hj, hqueued,
      readFromCache_writeToCache_self, List.filterMap_append, Option.map_some, writeOf_self,
      List.filterMap_cons, List.filterMap_nil]
  · refine .of_eq ?_ rfl
    simp only [file, List.filterMap_append, List.filterMap_cons, List.filterMap_nil,
      Slots.filterMap_eraseIdx_of_none hw (writeOf_of_ne hname), writeOf_of_ne hname,
      List.append_nil, readFromCache_writeToCache_of_ne r s.dir _ now (Ne.symm hname)]

/-- **A write puts its content into the file.** -/
theorem follows_finish (hw : s.opened[i]? = some w) (r : Rehash Str CacheFile) (now : ℤ) :
    Follows p owner s
      { s with
        dir := File.writeToCache s.dir r w.1
          (w.2 ++ ((File.readFromCache s.dir w.1).getD []).drop w.2.length) now
        opened := s.opened.eraseIdx i } := by
  by_cases hname : w.1 = owner.name p
  · obtain ⟨j, hj, hopened⟩ := Slots.filterMap_eraseIdx hw writeOf_self
    refine .of_step (.task (.finish j)) ?_ (List.append_nil _).symm
    simp only [← hname, AsyncFile.step, AsyncFile.runTask, AsyncFile.finish, file, hj, hopened,
      readFromCache_writeToCache_self, Option.map_some]
  · refine .of_eq ?_ rfl
    simp only [file, Slots.filterMap_eraseIdx_of_none hw (writeOf_of_ne hname),
      readFromCache_writeToCache_of_ne r s.dir _ now (Ne.symm hname)]

theorem follows_lose (hw : s.queued[i]? = some w) :
    Follows p owner s { s with queued := s.queued.eraseIdx i } := by
  by_cases hname : w.1 = owner.name p
  · obtain ⟨j, hj, hqueued⟩ := Slots.filterMap_eraseIdx hw writeOf_self
    refine .of_step (.lose j) ?_ (List.append_nil _).symm
    simp only [← hname, AsyncFile.step, file, hj, hqueued, Option.map_some]
  · refine .of_eq ?_ rfl
    simp only [file, Slots.filterMap_eraseIdx_of_none hw (writeOf_of_ne hname)]

theorem follows_loseOpened (hw : s.opened[i]? = some w) :
    Follows p owner s { s with opened := s.opened.eraseIdx i } := by
  by_cases hname : w.1 = owner.name p
  · obtain ⟨j, hj, hopened⟩ := Slots.filterMap_eraseIdx hw writeOf_self
    refine .of_step (.loseOpened j) ?_ (List.append_nil _).symm
    simp only [← hname, AsyncFile.step, file, hj, hopened, Option.map_some]
  · refine .of_eq ?_ rfl
    simp only [file, Slots.filterMap_eraseIdx_of_none hw (writeOf_of_ne hname)]

end Writes

/-- **One step of the directory.** -/
theorem follows_step (h : owner.Lasting) (hstep : s.step p lib a = some t) :
    Follows p owner s t := by
  cases a with
  | createStableId =>
    obtain rfl := Option.some_inj.mp hstep
    exact .of_eq rfl rfl
  | readStableId i =>
    rw [step] at hstep
    split at hstep
    · obtain rfl := Option.some_inj.mp hstep
      exact .of_eq rfl rfl
    · obtain rfl := Option.some_inj.mp hstep
      exact .of_eq rfl rfl
    · exact absurd hstep (by simp)
  | writeStableId i drawn =>
    rw [step] at hstep
    split at hstep
    · obtain rfl := Option.some_inj.mp hstep
      exact follows_queue h s .stableId drawn
    · exact absurd hstep (by simp)
  | writeToCacheFile sdkKey user result =>
    simp only [step, DataAdapter.writeToCacheFile] at hstep
    have hfile : (s.evict (File.runCacheEviction s.dir kCachedEvaluationsPrefix)).file
        (owner.name p) = s.file (owner.name p) :=
      file_evict (find?_runCacheEviction s.dir (FileOwner.not_isEvaluations h))
    have hevict : Follows p owner s
        (s.evict (File.runCacheEviction s.dir kCachedEvaluationsPrefix)) := .of_eq hfile rfl
    split at hstep <;> obtain rfl := Option.some_inj.mp hstep
    · exact hevict
    · rename_i content _
      obtain ⟨labels, hrun, hrequests⟩ := follows_queue (p := p) h
        (s.evict (File.runCacheEviction s.dir kCachedEvaluationsPrefix))
        (.evaluations sdkKey user) content
      exact ⟨labels, hfile ▸ hrun, hrequests⟩
  | saveFailedEvents sdkKey content =>
    obtain rfl := Option.some_inj.mp hstep
    exact follows_queue h s (.failedEvents sdkKey) content
  | deleteFailedEvents sdkKey =>
    obtain rfl := Option.some_inj.mp hstep
    exact follows_delete h s (.failedEvents sdkKey)
  | openFile i r now =>
    obtain ⟨w, hw, rfl⟩ := Option.map_eq_some_iff.mp hstep
    exact follows_openFile hw r now
  | finish i r now =>
    obtain ⟨w, hw, rfl⟩ := Option.map_eq_some_iff.mp hstep
    exact follows_finish hw r now
  | lose i =>
    obtain ⟨w, hw, rfl⟩ := Option.map_eq_some_iff.mp hstep
    exact follows_lose hw
  | loseOpened i =>
    obtain ⟨w, hw, rfl⟩ := Option.map_eq_some_iff.mp hstep
    exact follows_loseOpened hw

end Steps

/-! ## Runs -/

/-- **The stable id and the failed events of each sdk key have a file of their own**: whatever all
clients do, and however their writes are run or lost, what is in the file is what a file comes to
that nothing is done to but what those ask for who are meant to share it, in this order.  The
evaluations, their eviction, and the files of other sdk keys make no difference, unless two sdk keys
have the same hash. -/
theorem separate_of_run {labels : List DirectoryLabel} {s : SharedDirectory} {owner : FileOwner}
    (hrun : Machine.run (step p lib) {} labels = some s) (h : owner.Lasting) :
    ∃ labels', Machine.run AsyncFile.step {} labels' = some (s.file (owner.name p)) ∧
      labels'.filterMap AsyncFile.Label.request? = s.requests p owner := by
  refine Machine.invariant_of_run (I := fun s ↦ ∃ labels',
    Machine.run AsyncFile.step {} labels' = some (s.file (owner.name p)) ∧
      labels'.filterMap AsyncFile.Label.request? = s.requests p owner) ?_ ⟨[], rfl, rfl⟩ hrun
  rintro s t a ⟨labels', hrun', hrequests⟩ hstep
  obtain ⟨more, hmore, hrequests'⟩ := follows_step h hstep
  refine ⟨labels' ++ more, Machine.run_append_eq_some.mpr ⟨_, hrun', hmore⟩, ?_⟩
  rw [List.filterMap_append, hrequests, hrequests']

/-- Two clients that have saved failed events, one of which has asked for the stable id. -/
def twoClients : List DirectoryLabel :=
  [.createStableId, .readStableId 0, .writeStableId 0 (str "some-id"),
    .saveFailedEvents (str "key") (str "first"), .saveFailedEvents (str "other") (str "second"),
    .openFile 1 (Rehash.id _ _) 1, .openFile 0 (Rehash.id _ _) 2, .finish 0 (Rehash.id _ _) 3,
    .finish 0 (Rehash.id _ _) 4]

theorem separate_twoClients : ∃ s,
    Machine.run (step .linux initializeResponse.twoTexts) {} twoClients = some s ∧
    (s.file kStableIdKey).content = some (str "some-id") ∧
    ∃ labels', Machine.run AsyncFile.step {} labels' = some (s.file kStableIdKey) ∧
      labels'.filterMap AsyncFile.Label.request? = s.requests .linux .stableId := by
  obtain ⟨s, hs, hcontent⟩ := Option.bind_eq_some_iff.mp
    (show ((Machine.run (step .linux initializeResponse.twoTexts) {} twoClients).bind fun s ↦
      (s.file kStableIdKey).content) = some (str "some-id") by decide +kernel)
  exact ⟨s, hs, hcontent, separate_of_run .linux initializeResponse.twoTexts hs
    (show FileOwner.Lasting .stableId from trivial)⟩

/-! ### The stable id -/

section StableId

variable {p lib} {s t : SharedDirectory} {a : DirectoryLabel} {id : Str}

/-- Once the stable id is in the file, and nobody has found the file missing, it is not asked to be
written, and who asks for it gets it. -/
theorem stableId_of_step (hcontent : File.readFromCache s.dir kStableIdKey = some id)
    (habsent : .absent ∉ s.stableIds) (h : s.step p lib a = some t) :
    t.requests p .stableId = s.requests p .stableId ∧ .absent ∉ t.stableIds ∧
      ∀ (i : ℕ) (id' : Str), t.stableIds[i]? = some (.got id') →
        s.stableIds[i]? = some (.got id') ∨ id' = id := by
  cases a with
  | createStableId =>
    obtain rfl := Option.some_inj.mp h
    refine ⟨rfl, by simpa using habsent, fun i id' hi ↦ .inl ?_⟩
    obtain hlt | hge := Nat.lt_or_ge i s.stableIds.length
    · rwa [List.getElem?_append_left hlt] at hi
    · rw [List.getElem?_append_right hge] at hi
      exact absurd (List.mem_of_getElem? hi) (by simp)
  | readStableId i =>
    rw [step] at h
    split at h
    · rename_i hunset
      obtain rfl := Option.some_inj.mp h
      rw [readStableId, hcontent]
      refine ⟨rfl, fun hmem ↦ ?_, fun j id' hj ↦ ?_⟩
      · exact habsent ((List.mem_or_eq_of_mem_set hmem).resolve_right (by simp))
      · obtain ⟨-, heq⟩ | ⟨-, hj⟩ := (Slots.getElem?_set_eq_some_iff hunset).mp hj
        · exact .inr (StableIdState.got.inj heq)
        · exact .inl hj
    · obtain rfl := Option.some_inj.mp h
      exact ⟨rfl, habsent, fun _ _ ↦ .inl⟩
    · exact absurd h (by simp)
  | writeStableId i drawn =>
    rw [step] at h
    split at h
    · rename_i hfound
      exact absurd (List.mem_of_getElem? hfound) habsent
    · exact absurd h (by simp)
  | writeToCacheFile sdkKey user result =>
    simp only [step] at h
    split at h <;> obtain rfl := Option.some_inj.mp h
    · exact ⟨rfl, habsent, fun _ _ ↦ .inl⟩
    · refine ⟨?_, habsent, fun _ _ ↦ .inl⟩
      rw [requests_append .stableId rfl]
      exact List.append_nil _
  | saveFailedEvents sdkKey content | deleteFailedEvents sdkKey =>
    obtain rfl := Option.some_inj.mp h
    refine ⟨?_, habsent, fun _ _ ↦ .inl⟩
    rw [requests_append .stableId rfl]
    exact List.append_nil _
  | openFile i r now | finish i r now | lose i | loseOpened i =>
    obtain ⟨w, hw, rfl⟩ := Option.map_eq_some_iff.mp h
    exact ⟨rfl, habsent, fun _ _ ↦ .inl⟩

/-- The stable id is in the file, no write of it is outstanding, and nobody is about to write one,
having found no file before. -/
structure Settled (s : SharedDirectory) (id : Str) : Prop where
  file : s.file kStableIdKey = { content := some id }
  present : .absent ∉ s.stableIds

instance (s : SharedDirectory) (id : Str) : Decidable (s.Settled id) :=
  decidable_of_iff (s.file kStableIdKey = { content := some id } ∧ .absent ∉ s.stableIds)
    ⟨fun h ↦ ⟨h.1, h.2⟩, fun h ↦ ⟨h.file, h.present⟩⟩

theorem Settled.content (hs : s.Settled id) : File.readFromCache s.dir kStableIdKey = some id :=
  congrArg AsyncFile.content hs.file

theorem settled_step (hs : s.Settled id) (h : s.step p lib a = some t) : t.Settled id := by
  obtain ⟨hsame, hpresent, -⟩ := stableId_of_step hs.content hs.present h
  obtain ⟨labels, hrun, hrequests⟩ := follows_step (show FileOwner.Lasting .stableId from trivial) h
  rw [hsame] at hrequests
  have hnone := List.append_cancel_left ((List.append_nil _).trans hrequests)
  have hidle : (s.file kStableIdKey).Idle := by
    rw [hs.file]
    exact ⟨rfl, rfl⟩
  refine ⟨?_, hpresent⟩
  cases labels with
  | nil => exact (Option.some_inj.mp hrun).symm.trans hs.file
  | cons label labels =>
    obtain ⟨g, hg, -⟩ := Machine.run_cons_eq_some.mp hrun
    have hrequest : label.request? = none := by
      cases hq : label.request? with
      | none => rfl
      | some q => simp [hq] at hnone
    exact absurd ((hidle.step_eq_none hrequest).symm.trans hg) (by simp)

end StableId

/-- **The stable id stays what it is**: once it is in the file, no write of it is outstanding and
nobody is about to write another, it is what every `StableID` of any client and process gets from
then on, whatever is written, saved, deleted and evicted in the directory. -/
theorem settled_of_run {labels : List DirectoryLabel} {s t : SharedDirectory} {id : Str}
    (hs : s.Settled id) (hrun : Machine.run (step p lib) s labels = some t) :
    t.Settled id ∧ ∀ (i : ℕ) (id' : Str), t.stableIds[i]? = some (.got id') →
      s.stableIds[i]? = some (.got id') ∨ id' = id := by
  refine Machine.invariant_of_run (I := fun u ↦ u.Settled id ∧ ∀ (i : ℕ) (id' : Str),
    u.stableIds[i]? = some (.got id') → s.stableIds[i]? = some (.got id') ∨ id' = id) ?_
    ⟨hs, fun _ _ ↦ .inl⟩ hrun
  rintro u v a ⟨hu, hids⟩ hstep
  refine ⟨settled_step hu hstep, fun i id' hi ↦ ?_⟩
  obtain hbefore | rfl := (stableId_of_step hu.content hu.present hstep).2.2 i id' hi
  · exact hids i id' hbefore
  · exact .inr rfl

/-- Two more clients, of which one asks for the stable id, and a save of failed events. -/
def twoMore : List DirectoryLabel :=
  [.createStableId, .createStableId, .readStableId 2, .deleteFailedEvents (str "key"),
    .saveFailedEvents (str "key") (str "third"), .openFile 0 (Rehash.id _ _) 5, .readStableId 0,
    .finish 0 (Rehash.id _ _) 6]

theorem settled_twoClients : ∃ s t,
    Machine.run (step .linux initializeResponse.twoTexts) {} twoClients = some s ∧
    Machine.run (step .linux initializeResponse.twoTexts) s twoMore = some t ∧
    t.stableIds = [.got (str "some-id"), .unset, .got (str "some-id")] ∧
    t.Settled (str "some-id") := by
  have hsettled : (Machine.run (step .linux initializeResponse.twoTexts) {} twoClients).map
      (fun s ↦ decide (s.Settled (str "some-id"))) = some true := by
    decide +kernel
  obtain ⟨t, ht, hids⟩ := Option.map_eq_some_iff.mp
    (show (Machine.run (step .linux initializeResponse.twoTexts) {} (twoClients ++ twoMore)).map
      SharedDirectory.stableIds = some [.got (str "some-id"), .unset, .got (str "some-id")] by
      decide +kernel)
  obtain ⟨s, hs, ht⟩ := Machine.run_append_eq_some.mp ht
  rw [hs] at hsettled
  have hsettled := of_decide_eq_true (Option.some_inj.mp hsettled)
  exact ⟨s, t, hs, ht, hids, (settled_of_run .linux initializeResponse.twoTexts hsettled ht).1⟩

end SharedDirectory

end Statsig
