import Statsig.DataAdapter

/-!
# Updating the user

`StatsigClient::UpdateUserSync`, `UpdateUserAsync` and the completion callback of the latter, each
as a function of what it changes: the current user, the evaluation store and the data adapter.

The pieces they are made of are functions of their own: no lock covers two of them, so other threads
can run in between.
-/

set_option autoImplicit false

namespace Statsig

/-- The part of `StatsigContext` that an update changes, and the options. -/
structure ClientState where
  options : StatsigOptions := {}
  user : StatsigUser := {}
  store : EvaluationStore := {}
  deriving DecidableEq, Repr

/-- The two functions that update the user. -/
inductive UpdateKind where
  | sync
  | async
  deriving DecidableEq, Repr

namespace ClientState

variable (p : Platform) (lib : JsonText)

/-- `shared_ctx->user = NormalizeUser(user, shared_ctx->options)` -/
def writeUser (ctx : ClientState) (user : StatsigUser) : ClientState :=
  { ctx with user := normalizeUser user ctx.options }

/-- `shared_ctx->store.Reset()` -/
def resetStore (ctx : ClientState) : ClientState := { ctx with store := ctx.store.reset }

/-- `if (result.code == Ok) { shared_ctx->store.SetValuesFromDataAdapterResult(result.value); }` -/
def applyResult (ctx : ClientState) (result : StatsigResult DataAdapterResult) : ClientState :=
  if result.code = .ok then { ctx with store := ctx.store.setValues p lib result.value } else ctx

/-- `shared_ctx->store.Finalize()` -/
def finalizeStore (ctx : ClientState) : ClientState := { ctx with store := ctx.store.finalize }

/-- What both kinds of update do first, given what the adapter has for the user. -/
def beginUpdate (ctx : ClientState) (user : StatsigUser)
    (cached : StatsigResult DataAdapterResult) : ClientState :=
  (ctx.writeUser user).resetStore.applyResult p lib cached

/-- `UpdateUserSync`: the answer of the adapter, whose code is returned and whose value goes to the
background refresh. -/
def updateUserSync (r : Rehash Str DataAdapterResult) (ctx : ClientState) (adapter : DataAdapter)
    (user : StatsigUser) : StatsigResult DataAdapterResult × ClientState × DataAdapter :=
  let (result, adapter) := adapter.getDataSync p lib r (ctx.writeUser user).user
  (result, (ctx.beginUpdate p lib user result).finalizeStore, adapter)

/-- `UpdateUserAsync` up to the background task, which gets the user as initiator and the value of
the adapter's answer. -/
def updateUserAsync (r : Rehash Str DataAdapterResult) (ctx : ClientState) (adapter : DataAdapter)
    (user : StatsigUser) : StatsigResult DataAdapterResult × ClientState × DataAdapter :=
  let (result, adapter) := adapter.getDataSync p lib r (ctx.writeUser user).user
  (result, ctx.beginUpdate p lib user result, adapter)

/-- The comparison that guards the store. -/
def accepts (ctx : ClientState) (initiator : StatsigUser)
    (result : StatsigResult DataAdapterResult) : Bool :=
  decide (result.code = .ok) && areUsersEqual p initiator ctx.user

/-- The `inner_callback` of `UpdateUserAsync`, up to calling back. -/
def innerCallback (ctx : ClientState) (initiator : StatsigUser)
    (result : StatsigResult DataAdapterResult) : ClientState :=
  (if ctx.accepts p initiator result then
    { ctx with store := ctx.store.setValues p lib result.value } else ctx).finalizeStore

/-! ## What the pieces leave alone -/

@[simp] theorem user_writeUser (ctx : ClientState) (user : StatsigUser) :
    (ctx.writeUser user).user = normalizeUser user ctx.options := rfl

@[simp] theorem store_writeUser (ctx : ClientState) (user : StatsigUser) :
    (ctx.writeUser user).store = ctx.store := rfl

@[simp] theorem user_resetStore (ctx : ClientState) : ctx.resetStore.user = ctx.user := rfl

@[simp] theorem store_resetStore (ctx : ClientState) : ctx.resetStore.store = ctx.store.reset := rfl

@[simp] theorem user_finalizeStore (ctx : ClientState) : ctx.finalizeStore.user = ctx.user := rfl

@[simp] theorem store_finalizeStore (ctx : ClientState) :
    ctx.finalizeStore.store = ctx.store.finalize := rfl

@[simp] theorem user_applyResult (ctx : ClientState) (result : StatsigResult DataAdapterResult) :
    (ctx.applyResult p lib result).user = ctx.user := by
  rw [applyResult]
  split <;> rfl

@[simp] theorem options_finalizeStore (ctx : ClientState) :
    ctx.finalizeStore.options = ctx.options := rfl

@[simp] theorem options_applyResult (ctx : ClientState)
    (result : StatsigResult DataAdapterResult) :
    (ctx.applyResult p lib result).options = ctx.options := by
  rw [applyResult]
  split <;> rfl

@[simp] theorem user_beginUpdate (ctx : ClientState) (user : StatsigUser)
    (cached : StatsigResult DataAdapterResult) :
    (ctx.beginUpdate p lib user cached).user = normalizeUser user ctx.options := by
  simp [beginUpdate]

@[simp] theorem user_innerCallback (ctx : ClientState) (initiator : StatsigUser)
    (result : StatsigResult DataAdapterResult) :
    (ctx.innerCallback p lib initiator result).user = ctx.user := by
  rw [innerCallback]
  split <;> rfl

@[simp] theorem options_innerCallback (ctx : ClientState) (initiator : StatsigUser)
    (result : StatsigResult DataAdapterResult) :
    (ctx.innerCallback p lib initiator result).options = ctx.options := by
  rw [innerCallback]
  split <;> rfl

end ClientState

end Statsig
