import Statsig.DataAdapter
import Statsig.Lib.Machine

/-!
# The evaluation files

Calls of `WriteToCacheFile` and the writes that they queue, in any order.  A call makes room for one
file and queues one write: the room is made before it is known whether the write needs it, and
other writes may take it first.

`staysTidy_iff` says of one step when that does no harm, and `eachStep_staysTidy_iff` of runs.
-/

set_option autoImplicit false

namespace Statsig

open constants

/-- The file is one of evaluations. -/
def IsEvaluations (name : Str) : Prop := kCachedEvaluationsPrefix <:+: name

instance : DecidablePred IsEvaluations := fun name ↦
  inferInstanceAs (Decidable (kCachedEvaluationsPrefix <:+: name))

namespace File

/-- The files of evaluations. -/
def evaluationFiles (dir : CacheDir) : CacheDir := dir.filterKeys IsEvaluations

/-! ## Eviction -/

instance : Std.Total Younger := ⟨fun _ right ↦ le_total right.2.lastWriteTime _⟩

instance : IsTrans (Str × CacheFile) Younger := ⟨fun _ _ _ h h' ↦ le_trans h' h⟩

/-- The files of evaluations, the youngest first. -/
def youngestFirst (dir : CacheDir) : List (Str × CacheFile) :=
  (evaluationFiles dir).entries.insertionSort Younger

theorem getCachePaths_eq (dir : CacheDir) :
    getCachePathsSortedYoungestFirst dir kCachedEvaluationsPrefix =
      (youngestFirst dir).map Prod.fst := rfl

theorem length_youngestFirst (dir : CacheDir) :
    (youngestFirst dir).length = (evaluationFiles dir).size := List.length_insertionSort _ _

theorem mem_youngestFirst {dir : CacheDir} {name : Str} {file : CacheFile} :
    (name, file) ∈ youngestFirst dir ↔ IsEvaluations name ∧ dir.find? name = some file := by
  rw [youngestFirst, List.mem_insertionSort, evaluationFiles, UnorderedMap.filterKeys,
    List.mem_filter, UnorderedMap.find?_eq_some_iff, decide_eq_true_eq]
  exact and_comm

theorem runCacheEviction_of_lt {dir : CacheDir}
    (h : (evaluationFiles dir).size < kMaxCachedEvaluationsCount) :
    runCacheEviction dir kCachedEvaluationsPrefix = dir := by
  rw [← length_youngestFirst] at h
  rw [runCacheEviction, getCachePaths_eq]
  cases hpaths : ((youngestFirst dir).map Prod.fst).reverse with
  | nil => rfl
  | cons eldest paths =>
    have hlength := congrArg List.length hpaths
    rw [List.length_reverse, List.length_map, List.length_cons] at hlength
    rw [evictLoop, if_neg (by omega)]

/-- **With just as many files as there may be, the eldest goes.** -/
theorem runCacheEviction_of_eq {dir : CacheDir}
    (h : (evaluationFiles dir).size = kMaxCachedEvaluationsCount) :
    ∃ eldest file,
      (getCachePathsSortedYoungestFirst dir kCachedEvaluationsPrefix).getLast? = some eldest ∧
      IsEvaluations eldest ∧ dir.find? eldest = some file ∧
      (∀ other kept, IsEvaluations other → dir.find? other = some kept →
        file.lastWriteTime ≤ kept.lastWriteTime) ∧
      runCacheEviction dir kCachedEvaluationsPrefix = dir.erase eldest := by
  rw [← length_youngestFirst] at h
  have hne : youngestFirst dir ≠ [] := by
    intro hnil
    rw [hnil] at h
    exact absurd h (by decide)
  obtain ⟨younger, ⟨eldest, file⟩, hsplit⟩ :=
    (youngestFirst dir).eq_nil_or_concat.resolve_left hne
  rw [List.concat_eq_append] at hsplit
  have hlast : (eldest, file) ∈ youngestFirst dir := by
    rw [hsplit]
    exact List.mem_append_right younger List.mem_cons_self
  have hmem := mem_youngestFirst.mp hlast
  refine ⟨eldest, file, ?_, hmem.1, hmem.2, fun other kept hother hkept ↦ ?_, ?_⟩
  · rw [getCachePaths_eq, hsplit]
    simp
  · have hsorted : (youngestFirst dir).Pairwise Younger := List.pairwise_insertionSort _ _
    have hin : (other, kept) ∈ youngestFirst dir := mem_youngestFirst.mpr ⟨hother, hkept⟩
    rw [hsplit] at hsorted hin
    rcases List.mem_append.mp hin with hin | hin
    · exact (List.pairwise_append.mp hsorted).2.2 _ hin _ List.mem_cons_self
    · rw [(Prod.mk.inj (List.mem_singleton.mp hin)).2]
  · have hlength : younger.length + 1 = kMaxCachedEvaluationsCount := by
      rw [← h, hsplit, List.length_append]
      rfl
    have hten : kMaxCachedEvaluationsCount = 10 := rfl
    rw [runCacheEviction, getCachePaths_eq, hsplit, List.map_append, List.reverse_append]
    rw [List.map_singleton, List.reverse_singleton, List.singleton_append, evictLoop,
      if_pos (by rw [List.length_reverse, List.length_map]; omega)]
    cases hrest : (younger.map Prod.fst).reverse with
    | nil => rfl
    | cons next paths =>
      have hpaths := congrArg List.length hrest
      rw [List.length_reverse, List.length_map, List.length_cons] at hpaths
      rw [evictLoop, if_neg (by omega)]

/-! ## Writing -/

/-- A write adds a file of evaluations exactly if it is one and there was none. -/
theorem size_evaluationFiles_writeToCache (r : Rehash Str CacheFile) (dir : CacheDir)
    (cacheKey content : Str) (now : ℤ) :
    (evaluationFiles (writeToCache dir r cacheKey content now)).size =
      (evaluationFiles dir).size +
        if dir.find? cacheKey = none ∧ IsEvaluations cacheKey then 1 else 0 := by
  have hfree : (dir.erase cacheKey).find? cacheKey = none := UnorderedMap.find?_erase_self _ _
  rw [writeToCache, evaluationFiles, UnorderedMap.size_filterKeys_emplace r _ hfree]
  by_cases hkind : IsEvaluations cacheKey
  · rw [UnorderedMap.filterKeys_erase, if_pos hkind]
    cases hfind : dir.find? cacheKey with
    | none =>
      rw [UnorderedMap.erase_of_unbound (by rwa [UnorderedMap.find?_filterKeys hkind]),
        if_pos ⟨rfl, hkind⟩]
      rfl
    | some file =>
      rw [UnorderedMap.size_erase_of_bound (v := file)
        (by rwa [UnorderedMap.find?_filterKeys hkind]), if_neg (by simp)]
      rfl
  · rw [UnorderedMap.filterKeys_erase_of_not dir hkind, if_neg hkind,
      if_neg fun h ↦ hkind h.2]
    rfl

theorem isSome_find?_writeToCache (r : Rehash Str CacheFile) {dir : CacheDir} {name : Str}
    {file : CacheFile} (h : dir.find? name = some file) (cacheKey content : Str) (now : ℤ) :
    ((writeToCache dir r cacheKey content now).find? name).isSome = true := by
  rw [writeToCache]
  by_cases hname : name = cacheKey
  · rw [hname, UnorderedMap.find?_emplace_self r (UnorderedMap.find?_erase_self _ _)]
    rfl
  · rw [UnorderedMap.find?_emplace_of_ne r hname, UnorderedMap.find?_erase_of_ne hname, h]
    rfl

end File

/-! ## Runs -/

/-- The directory, with the writes that wait for a worker. -/
structure CacheRun where
  dir : CacheDir
  queued : List (Str × Str) := []
  deriving DecidableEq, Repr

inductive CacheLabel where
  | writeToCacheFile (cacheKey : Str) (result : DataAdapterResult)
  /-- The `i`-th write that waits is done. -/
  | write (i : ℕ) (r : Rehash Str CacheFile) (now : ℤ)

namespace CacheRun

open File

variable (lib : JsonText)

def step (s : CacheRun) : CacheLabel → Option CacheRun
  | .writeToCacheFile cacheKey result =>
    let (dir, write) := DataAdapter.writeToCacheFile lib s.dir cacheKey result
    some { dir, queued := s.queued ++ write.toList }
  | .write i r now => (s.queued[i]?).map fun w ↦
      { dir := writeToCache s.dir r w.1 w.2 now, queued := s.queued.eraseIdx i }

/-- What a step is to leave behind. -/
structure StaysTidy (s : CacheRun) (a : CacheLabel) (t : CacheRun) : Prop where
  bounded : (evaluationFiles t.dir).size ≤ kMaxCachedEvaluationsCount
  /-- No file that stays was written before one that goes. -/
  eldest : ∀ name file, s.dir.find? name = some file → t.dir.find? name = none →
    ∀ other kept, IsEvaluations other → t.dir.find? other = some kept →
      file.lastWriteTime ≤ kept.lastWriteTime
  /-- A refresh costs no other file. -/
  free : ∀ cacheKey result, a = .writeToCacheFile cacheKey result →
    (s.dir.find? cacheKey).isSome = true →
      ∀ other, other ≠ cacheKey → t.dir.find? other = s.dir.find? other

/-- A call finds room, or needs it for a file that is not there, or frees it by removing its own
file; a write finds room, or its file. -/
def HasRoom (s : CacheRun) : CacheLabel → Prop
  | .writeToCacheFile cacheKey _ =>
    (evaluationFiles s.dir).size < kMaxCachedEvaluationsCount ∨ s.dir.find? cacheKey = none ∨
      (getCachePathsSortedYoungestFirst s.dir kCachedEvaluationsPrefix).getLast? = some cacheKey
  | .write i _ _ => ∀ w, s.queued[i]? = some w →
    (evaluationFiles s.dir).size < kMaxCachedEvaluationsCount ∨
      (s.dir.find? w.1).isSome = true ∨ ¬ IsEvaluations w.1

/-- **One call** of `WriteToCacheFile`. -/
theorem staysTidy_writeToCacheFile {s t : CacheRun} {cacheKey : Str} {result : DataAdapterResult}
    (hs : (evaluationFiles s.dir).size ≤ kMaxCachedEvaluationsCount)
    (h : step lib s (.writeToCacheFile cacheKey result) = some t) :
    StaysTidy s (.writeToCacheFile cacheKey result) t ↔
      HasRoom s (.writeToCacheFile cacheKey result) := by
  have hdir : t.dir = runCacheEviction s.dir kCachedEvaluationsPrefix := by
    rw [← Option.some_inj.mp h]
  rcases hs.lt_or_eq with hroom | hfull
  · rw [runCacheEviction_of_lt hroom] at hdir
    refine iff_of_true ⟨hdir ▸ hs, fun name file hbefore hafter ↦ ?_,
      fun _ _ _ _ _ _ ↦ by rw [hdir]⟩ (.inl hroom)
    rw [hdir, hbefore] at hafter
    exact absurd hafter (by simp)
  · obtain ⟨eldest, file, hlast, hkind, hfile, hleast, hevict⟩ := runCacheEviction_of_eq hfull
    rw [hevict] at hdir
    have hbounded : (evaluationFiles t.dir).size ≤ kMaxCachedEvaluationsCount := by
      have hfind : (evaluationFiles s.dir).find? eldest = some file :=
        (UnorderedMap.find?_filterKeys hkind).trans hfile
      have hsize := UnorderedMap.size_erase_of_bound hfind
      rw [hdir, evaluationFiles, UnorderedMap.filterKeys_erase]
      exact (Nat.le_succ _).trans (hsize.trans_le hs)
    have heldest : ∀ name removed, s.dir.find? name = some removed →
        t.dir.find? name = none → ∀ other kept, IsEvaluations other →
          t.dir.find? other = some kept → removed.lastWriteTime ≤ kept.lastWriteTime := by
      intro name removed hbefore hafter other kept hother hkept
      have hname : name = eldest := by
        by_contra hne
        rw [hdir, UnorderedMap.find?_erase_of_ne hne, hbefore] at hafter
        exact absurd hafter (by simp)
      rw [hname, hfile, Option.some_inj] at hbefore
      rw [← hbefore]
      exact hleast other kept hother (UnorderedMap.of_find?_erase (hdir ▸ hkept))
    constructor
    · intro htidy
      refine .inr ((Option.eq_none_or_eq_some _).imp_right fun ⟨own, hown⟩ ↦ ?_)
      have hfree := htidy.free cacheKey result rfl (by rw [hown]; rfl) eldest
      rw [hlast, Option.some_inj]
      by_contra hne
      have hlost := hfree hne
      rw [hdir, UnorderedMap.find?_erase_self, hfile] at hlost
      exact absurd hlost (by simp)
    · intro hroom
      refine ⟨hbounded, heldest, fun key _ ha hown other hother ↦ ?_⟩
      obtain ⟨rfl, -⟩ := CacheLabel.writeToCacheFile.inj ha
      rcases hroom with hlt | hnone | hself
      · exact absurd hfull hlt.ne
      · rw [hnone] at hown
        exact absurd hown (by simp)
      · rw [hlast, Option.some_inj] at hself
        rw [hdir, hself, UnorderedMap.find?_erase_of_ne hother]

/-- **One write.** -/
theorem staysTidy_write {s t : CacheRun} {i : ℕ} {r : Rehash Str CacheFile} {now : ℤ}
    (hs : (evaluationFiles s.dir).size ≤ kMaxCachedEvaluationsCount)
    (h : step lib s (.write i r now) = some t) :
    StaysTidy s (.write i r now) t ↔ HasRoom s (.write i r now) := by
  obtain ⟨w, hw, rfl⟩ := Option.map_eq_some_iff.mp h
  have hsize := size_evaluationFiles_writeToCache r s.dir w.1 w.2 now
  have hroom : HasRoom s (.write i r now) ↔
      (evaluationFiles (writeToCache s.dir r w.1 w.2 now)).size ≤
        kMaxCachedEvaluationsCount := by
    simp only [HasRoom, hw, Option.some_inj, forall_eq']
    rw [hsize]
    split <;> rename_i hnew
    · constructor
      · rintro (hlt | hbound | hkind)
        · exact hlt
        · rw [hnew.1] at hbound
          exact absurd hbound (by simp)
        · exact absurd hnew.2 hkind
      · exact fun hle ↦ .inl hle
    · refine iff_of_true (.inr ?_) hs
      cases hfind : s.dir.find? w.1 with
      | none => exact .inr fun hkind ↦ hnew ⟨hfind, hkind⟩
      | some file => exact .inl rfl
  rw [hroom]
  refine ⟨StaysTidy.bounded, fun hbounded ↦ ⟨hbounded, fun name file hbefore hafter ↦ ?_,
    fun _ _ ha ↦ absurd ha (by simp)⟩⟩
  have hsome := isSome_find?_writeToCache r hbefore w.1 w.2 now
  rw [show (writeToCache s.dir r w.1 w.2 now).find? name = none from hafter] at hsome
  exact absurd hsome (by simp)

theorem staysTidy_iff {s t : CacheRun} {a : CacheLabel}
    (hs : (evaluationFiles s.dir).size ≤ kMaxCachedEvaluationsCount)
    (h : step lib s a = some t) : StaysTidy s a t ↔ HasRoom s a := by
  cases a with
  | writeToCacheFile cacheKey result => exact staysTidy_writeToCacheFile lib hs h
  | write i r now => exact staysTidy_write lib hs h

/-- **When the files stay bounded and refreshing is free**: in exactly the runs in which every call
and every write has room. -/
theorem eachStep_staysTidy_iff {dir : CacheDir} {labels : List CacheLabel} {t : CacheRun}
    (hdir : (evaluationFiles dir).size ≤ kMaxCachedEvaluationsCount)
    (hrun : Machine.run (step lib) { dir } labels = some t) :
    Machine.EachStep (step lib) StaysTidy { dir } labels ↔
      Machine.AllSteps (step lib) HasRoom { dir } labels := by
  refine Machine.eachStep_iff_allSteps
    (I := fun s ↦ (evaluationFiles s.dir).size ≤ kMaxCachedEvaluationsCount) ?_ ?_ hdir hrun
  · exact fun hs h ↦ staysTidy_iff lib hs h
  · exact fun _ _ htidy ↦ htidy.bounded

/-- The name of a file of evaluations. -/
def nameOf (n : UInt8) : Str := kCachedEvaluationsPrefix ++ [n]

/-- A result, and the text of its file. -/
def plainResult : DataAdapterResult := ⟨.network, str "data", 1, str "hash"⟩

def plainString : Str := str ("\x7b\"data\":\"data\",\"fullUserHash\":\"hash\"," ++
  "\"receivedAt\":1,\"source\":4\x7d")

/-- A library that writes it so. -/
noncomputable def resultTexts : JsonText :=
  .ofTable [(dataAdapterResult.toJson plainResult, plainString)] (by decide +kernel)

/-- A full directory; the file of 0 is the eldest. -/
def fullDir : CacheDir := .ofList ((List.range 10).map fun n ↦ (nameOf (.ofNat n), ⟨[], n⟩))

/-- The files of two more users; those of 0 and 1 make room. -/
def twoFiles : List CacheLabel :=
  [.writeToCacheFile (nameOf 10) plainResult, .write 0 (Rehash.id _ _) 10,
    .writeToCacheFile (nameOf 11) plainResult, .write 0 (Rehash.id _ _) 11]

theorem eachStep_staysTidy_twoFiles :
    Machine.EachStep (step resultTexts) StaysTidy { dir := fullDir } twoFiles ↔
      Machine.AllSteps (step resultTexts) HasRoom { dir := fullDir } twoFiles := by
  have hrun : (Machine.run (step resultTexts) { dir := fullDir } twoFiles).isSome = true := by
    decide +kernel
  obtain ⟨s, hs⟩ := Option.isSome_iff_exists.mp hrun
  exact eachStep_staysTidy_iff resultTexts (by decide +kernel) hs

/-- The file of 1 is refreshed, and that of 0 is gone. -/
theorem not_forall_eachStep_staysTidy :
    ¬ ∀ (lib : JsonText) (dir : CacheDir) (labels : List CacheLabel),
      (evaluationFiles dir).size ≤ kMaxCachedEvaluationsCount →
      Machine.EachStep (step lib) StaysTidy { dir } labels := by
  intro h
  have hstep := (h resultTexts fullDir [.writeToCacheFile (nameOf 1) plainResult]
    (by decide +kernel)).1 _ rfl
  have hkept := hstep.free (nameOf 1) plainResult rfl (by decide +kernel) (nameOf 0) (by decide)
  have hlost : (runCacheEviction fullDir kCachedEvaluationsPrefix).find? (nameOf 0) = none := by
    decide +kernel
  have hbefore : (fullDir.find? (nameOf 0)).isSome = true := by decide +kernel
  rw [← show _ = fullDir.find? (nameOf 0) from hkept] at hbefore
  rw [show _ = none from hlost] at hbefore
  exact absurd hbefore (by simp)

end CacheRun

end Statsig
