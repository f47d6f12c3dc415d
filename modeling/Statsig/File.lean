import Statsig.Types

/-!
# The cache directory

The client keeps three kinds of files in one directory: the evaluations of the users seen last, the
stable id, and the batches of events that could not be sent.  `CacheDir` maps names to files; the
order in which the directory is listed is not specified, which is what `UnorderedMap` is for.

All calls of the file system but those of a queued write are the overloads that throw, among them
the two of `EnsureCacheDirectoryExists`, with which each of the functions here begins.  The
functions are what is computed when none of them does; `attempt` is for where it matters.
-/

set_option autoImplicit false

namespace Statsig

/-- What is in a file, and when it was last written. -/
structure CacheFile where
  content : Str
  lastWriteTime : ℤ
  deriving DecidableEq, Repr

/-- The cache directory. -/
abbrev CacheDir := UnorderedMap Str CacheFile

namespace File

/-- What comes of a call that may fail: nothing but an exception, if it does. -/
def attempt {α : Type} (fails : Bool) (result : α) : Option α :=
  if fails then none else some result

@[simp] theorem attempt_false {α : Type} (result : α) : attempt false result = some result := rfl

@[simp] theorem attempt_true {α : Type} (result : α) : attempt true result = none := rfl

/-- `ReadFromCache` -/
def readFromCache (dir : CacheDir) (cacheKey : Str) : Option Str :=
  (dir.find? cacheKey).map CacheFile.content

/-- The comparison of `GetCachePathsSortedYoungestFirst`. -/
def Younger (left right : Str × CacheFile) : Prop :=
  left.2.lastWriteTime ≥ right.2.lastWriteTime

instance : DecidableRel Younger := fun left right ↦
  inferInstanceAs (Decidable (left.2.lastWriteTime ≥ right.2.lastWriteTime))

/-- `GetCachePathsSortedYoungestFirst`: the files with `start` somewhere in their names. -/
def getCachePathsSortedYoungestFirst (dir : CacheDir) (start : Str) : List Str :=
  ((dir.entries.filter fun e ↦ decide (start <:+: e.1)).insertionSort Younger).map Prod.fst

/-- The loop of `RunCacheEviction`, over the paths with the eldest first. -/
def evictLoop (dir : CacheDir) : List Str → CacheDir
  | [] => dir
  | eldest :: paths =>
    if constants.kMaxCachedEvaluationsCount ≤ paths.length + 1 then
      evictLoop (dir.erase eldest) paths
    else dir

/-- `RunCacheEviction` -/
def runCacheEviction (dir : CacheDir) (start : Str) : CacheDir :=
  evictLoop dir (getCachePathsSortedYoungestFirst dir start).reverse

/-- `WriteToCache`, when its task runs: the file is replaced as a whole. -/
def writeToCache (dir : CacheDir) (r : Rehash Str CacheFile) (cacheKey content : Str) (now : ℤ) :
    CacheDir :=
  (dir.erase cacheKey).emplace r cacheKey ⟨content, now⟩

/-! ## What is left of a directory -/

variable {dir : CacheDir} {name : Str} {file : CacheFile}

theorem of_find?_evictLoop {paths : List Str} (h : (evictLoop dir paths).find? name = some file) :
    dir.find? name = some file := by
  induction paths generalizing dir with
  | nil => exact h
  | cons eldest paths ih =>
    rw [evictLoop] at h
    split at h
    · exact UnorderedMap.of_find?_erase (ih h)
    · exact h

theorem of_find?_runCacheEviction {start : Str}
    (h : (runCacheEviction dir start).find? name = some file) : dir.find? name = some file :=
  of_find?_evictLoop h

end File

end Statsig
