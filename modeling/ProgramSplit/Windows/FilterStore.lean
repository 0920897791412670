/-
# Windows.FilterStore — the filter engine's store, installation and removal

The filter engine keeps objects of several kinds under their keys or identifiers; a transaction
works on a copy that replaces the store when it is committed.  Every call may fail, and the process
may die at any of them.

* `Store`, `Engine` — the committed store and the copy of an open transaction.
* `snapshot` — what is owned, as `wfp-probe.exe` enumerates it.
* `install`, `removeAll` — the two writing runs.
-/
import ProgramSplit.Windows.Filters
import ProgramSplit.Lib.FiniteMap
import ProgramSplit.Lib.Crash

namespace ProgramSplit.Windows.Wfp

set_option autoImplicit false

open Lib

/-! ## The store -/

structure Sublayer where
  provider : Option Guid
  flags : UInt16
  weight : UInt16
  deriving DecidableEq

structure Callout where
  provider : Option Guid
  flags : UInt32
  layer : Guid
  deriving DecidableEq

structure Context where
  key : Guid
  provider : Option Guid
  flags : UInt32
  type : ContextType
  data : Option Bytes
  deriving DecidableEq

/-- The objects of the filter engine; a provider is its flags. -/
structure Store where
  providers : FiniteMap Guid UInt32
  sublayers : FiniteMap Guid Sublayer
  callouts : FiniteMap Guid Callout
  contexts : FiniteMap UInt64 Context
  filters : FiniteMap UInt64 Filter

/-- The committed store, and the copy an open transaction works on. -/
structure Engine where
  store : Store
  transaction : Option Store

/-- What one call meets: a status when it fails, and what the engine chooses when it does not: a
new identifier, a new key, and the sublayer it reports for a boot-time filter. -/
structure Answer where
  status : Option UInt32
  id : UInt64
  key : Guid
  bootSublayer : Guid

/-- The exceptions of `wfp-probe.cpp`. -/
inductive Failure
  | api (operation : String) (status : Option UInt32)
  | runtime (message : String)
  | probe (message : String) (code : Nat)
  deriving DecidableEq

abbrev Probe := Proc Engine Answer Failure

/-- One call of the management API on the open transaction; the engine may refuse it. -/
def call {A : Type} (operation : String) (f : Answer → Store → Option (A × Store)) : Probe A :=
  Proc.step fun answer w =>
    match w.transaction, answer.status with
    | some t, none =>
      match f answer t with
      | some (a, t) => (.ok a, { w with transaction := some t })
      | none => (.error (.api operation none), w)
    | _, status => (.error (.api operation status), w)

/-- A call that reads. -/
def query {A : Type} (operation : String) (f : Store → A) : Probe A :=
  call operation fun _ t => some (f t, t)

/-! ## Transactions -/

def begin_ : Probe Unit :=
  Proc.step fun answer w =>
    match answer.status with
    | none => (.ok (), { w with transaction := some w.store })
    | some status => (.error (.api "FwpmTransactionBegin0" (some status)), w)

/-- The destructor's abort; ending the session does the same. -/
def abort : Probe Unit :=
  Proc.alter fun w => { w with transaction := none }

def commit : Probe Unit :=
  Proc.step fun answer w =>
    match w.transaction, answer.status with
    | some t, none => (.ok (), ⟨t, none⟩)
    | _, status => (.error (.api "FwpmTransactionCommit0" status), w)

/-- A body between the constructor of a `Transaction` and its `commit`, with the destructor. -/
def inTransaction {A : Type} (body : Probe A) : Probe A := do
  begin_
  Proc.handle
    (do
      let a ← body
      commit
      return a)
    fun e => do
      abort
      Proc.raise e

/-! ## The calls -/

def newGuid : Probe Guid :=
  call "CoCreateGuid" fun answer t => some (answer.key, t)

def providerAdd (key : Guid) (flags : UInt32) : Probe Unit :=
  call "FwpmProviderAdd0" fun _ t =>
    if (t.providers.lookup key).isSome then none
    else some ((), { t with providers := t.providers.insert key flags })

def subLayerAdd (key : Guid) (sublayer : Sublayer) : Probe Unit :=
  call "FwpmSubLayerAdd0" fun _ t =>
    if (t.sublayers.lookup key).isSome then none
    else some ((), { t with sublayers := t.sublayers.insert key sublayer })

def calloutAdd (key : Guid) (callout : Callout) : Probe Unit :=
  call "FwpmCalloutAdd0" fun _ t =>
    if (t.callouts.lookup key).isSome then none
    else some ((), { t with callouts := t.callouts.insert key callout })

def contextAdd (context : Context) : Probe Unit :=
  call "FwpmProviderContextAdd0" fun answer t =>
    if (t.contexts.lookup answer.id).isSome ∨
      t.contexts.entries.any (·.2.key == context.key) then none
    else some ((), { t with contexts := t.contexts.insert answer.id context })

/-- A filter as the engine keeps it: a boot-time filter is in the default sublayer. -/
def kept (filter : Filter) (bootSublayer : Guid) : Filter :=
  if has filter.flags kFilterBootTime then { filter with subLayerKey := bootSublayer } else filter

def filterAdd (filter : Filter) : Probe Unit :=
  call "FwpmFilterAdd0" fun answer t =>
    if (t.filters.lookup answer.id).isSome ∨
      t.filters.entries.any (·.2.filterKey == filter.filterKey)
    then none
    else some ((), { t with
      filters := t.filters.insert answer.id (kept filter answer.bootSublayer) })

def filterDeleteById (id : UInt64) : Probe Unit :=
  call "FwpmFilterDeleteById0" fun _ t =>
    if (t.filters.lookup id).isNone then none
    else some ((), { t with filters := t.filters.erase id })

def contextDeleteById (id : UInt64) : Probe Unit :=
  call "FwpmProviderContextDeleteById0" fun _ t =>
    if (t.contexts.lookup id).isNone then none
    else some ((), { t with contexts := t.contexts.erase id })

def calloutDeleteByKey (key : Guid) : Probe Unit :=
  call "FwpmCalloutDeleteByKey0" fun _ t =>
    if (t.callouts.lookup key).isNone then none
    else some ((), { t with callouts := t.callouts.erase key })

def subLayerDeleteByKey (key : Guid) : Probe Unit :=
  call "FwpmSubLayerDeleteByKey0" fun _ t =>
    if (t.sublayers.lookup key).isNone then none
    else some ((), { t with sublayers := t.sublayers.erase key })

def providerDeleteByKey (key : Guid) : Probe Unit :=
  call "FwpmProviderDeleteByKey0" fun _ t =>
    if (t.providers.lookup key).isNone then none
    else some ((), { t with providers := t.providers.erase key })

/-! ## Snapshots -/

/-- `distinctLayers`: each layer once, in the order of the rules. -/
def distinct (layers : List Guid) : List Guid :=
  layers.foldl (fun known layer => if layer ∈ known then known else known ++ [layer]) []

def filterLayers : List Guid :=
  distinct (kRules.map (·.layer))

def calloutLayers : List Guid :=
  distinct (kCallouts.map (·.layer))

/-- The filters an enumeration returns: all of them, or the provider's in one layer. -/
def Store.filtersIn (t : Store) (layer : Option Guid) : List (UInt64 × Filter) :=
  (t.filters.entries.map fun entry => (entry.1, entry.2)).filter fun (_, f) =>
    layer.all fun layer => ownedBy f.providerKey && f.layerKey == layer

def Store.calloutsIn (t : Store) (layer : Option Guid) : List (Guid × Callout) :=
  (t.callouts.entries.map fun entry => (entry.1, entry.2)).filter fun (_, c) =>
    layer.all fun layer => ownedBy c.provider && c.layer == layer

def Store.contextsOf (t : Store) (general : Bool) : List (UInt64 × Context) :=
  (t.contexts.entries.map fun entry => (entry.1, entry.2)).filter fun (_, c) =>
    !general || (ownedBy c.provider && c.type == .general)

def Store.sublayersOf (t : Store) (all : Bool) : List (Guid × Sublayer) :=
  (t.sublayers.entries.map fun entry => (entry.1, entry.2)).filter fun (_, s) =>
    all || ownedBy s.provider

/-- The general context's data; other types carry none. -/
def contextData (context : Context) : Bytes :=
  if context.type = .general then context.data.getD [] else []

/-- Results of one query for each of a list. -/
def collect {A B : Type} (f : B → Probe (List A)) : List B → Probe (List A)
  | [] => pure []
  | b :: rest => do
      let first ← f b
      let others ← collect f rest
      return first ++ others

def snapshot (everyLayer : Bool) : Probe Owned := do
  let provider ← query "FwpmProviderGetByKey0" fun t => t.providers.lookup kProvider
  let layers (known : List Guid) : List (Option Guid) :=
    if everyLayer then [none] else known.map some
  let filters ← collect (fun layer => query "FwpmFilterEnum0" (·.filtersIn layer))
    (layers filterLayers)
  let callouts ← collect (fun layer => query "FwpmCalloutEnum0" (·.calloutsIn layer))
    (layers calloutLayers)
  let contexts ← query "FwpmProviderContextEnum0" (·.contextsOf (!everyLayer))
  let sublayers ← query "FwpmSubLayerEnum0" (·.sublayersOf everyLayer)
  return {
    provider
    filters := (filters.filter fun (_, f) => ownedBy f.providerKey).map fun (id, f) =>
      ownedFilter id f
    callouts := (callouts.filter fun (_, c) => ownedBy c.provider).map fun (key, c) =>
      ⟨key, c.flags, c.layer⟩
    contexts := (contexts.filter fun (_, c) => ownedBy c.provider).map fun (id, c) =>
      ⟨c.key, id, c.flags, c.type, contextData c⟩
    sublayers := (sublayers.filter fun (_, s) => ownedBy s.provider).map fun (key, s) =>
      ⟨key, s.flags, s.weight⟩ }

/-! ## Installation and removal -/

def deleteFiltersAndContexts (owned : Owned) : Probe Unit := do
  Proc.each (fun filter => filterDeleteById filter.id) owned.filters
  Proc.each (fun context => contextDeleteById context.id) owned.contexts

/-- A PIA callout key belongs to another provider. -/
def calloutsForeign : List CalloutRule → Probe Bool
  | [] => pure false
  | rule :: rest => do
      let existing ← query "FwpmCalloutGetByKey0" fun t => t.callouts.lookup rule.key
      let others ← calloutsForeign rest
      return existing.any (fun c => !ownedBy c.provider) || others

def addCallout (rule : CalloutRule) : Probe Unit :=
  calloutAdd rule.key ⟨some kProvider, kCalloutPersistent ||| kUsesProviderContext, rule.layer⟩

/-- The loop over the owned callouts: a current one need not be added, another is deleted. -/
def settleCallouts : List OwnedCallout → List CalloutRule → Probe (List CalloutRule)
  | [], calloutsToAdd => pure calloutsToAdd
  | callout :: rest, calloutsToAdd => do
      if calloutCurrent callout then
        settleCallouts rest (calloutsToAdd.filter fun rule => rule.key ≠ callout.key)
      else
        calloutDeleteByKey callout.key
        settleCallouts rest calloutsToAdd

/-- The loop over the owned sublayers. -/
def settleSublayers : List OwnedSublayer → Bool → Probe Bool
  | [], present => pure present
  | sublayer :: rest, present => do
      if sublayerCurrent sublayer then settleSublayers rest true
      else
        subLayerDeleteByKey sublayer.key
        settleSublayers rest present

/-- A new filter gets a key of its own. -/
def addFilter (filter : Filter) : Probe Unit := do
  let key ← newGuid
  filterAdd { filter with filterKey := key }

/-- The transaction of an installation; tells whether another provider holds a callout key. -/
def installBody (apps : List AppEntry) (tunnelIp : UInt32) : Probe Bool := do
  let foreign ← calloutsForeign kCallouts
  let existing ← snapshot false
  Proc.require (existing.provider.all fun flags => has flags kProviderPersistent)
    (.runtime "The WireGuard Program Split WFP provider exists but is not persistent")
  Proc.when existing.provider.isNone (providerAdd kProvider kProviderPersistent)
  deleteFiltersAndContexts existing
  let calloutsToAdd ← settleCallouts existing.callouts kCallouts
  let sublayerPresent ← settleSublayers existing.sublayers false
  Proc.when (!sublayerPresent)
    (subLayerAdd kSublayer ⟨some kProvider, kSublayerPersistent, kSublayerWeight⟩)
  Proc.when (!foreign) (Proc.each addCallout calloutsToAdd)
  let contextKey ← newGuid
  contextAdd ⟨contextKey, some kProvider, kContextPersistent, .general, some (contextFor tunnelIp)⟩
  Proc.each addFilter (forEachFilter apps contextKey tunnelIp !foreign)
  return foreign

def calloutInUse : Failure :=
  .probe "The PIA callouts belong to another WFP provider, the PIA client or an earlier release's filter host; the blocking filters are installed without the redirect" 3

/-- Replaces every owned object with the set for these inputs, in one transaction. -/
def install (apps : List AppEntry) (tunnelIp : UInt32) : Probe Unit := do
  let foreign ← inTransaction (installBody apps tunnelIp)
  Proc.require (!foreign) calloutInUse

def removeBody : Probe Owned := do
  let existing ← snapshot true
  deleteFiltersAndContexts existing
  Proc.each (fun callout => calloutDeleteByKey callout.key) existing.callouts
  Proc.each (fun sublayer => subLayerDeleteByKey sublayer.key) existing.sublayers
  Proc.when existing.provider.isSome (providerDeleteByKey kProvider)
  return existing

def removeAll : Probe Owned :=
  inTransaction removeBody

end ProgramSplit.Windows.Wfp
