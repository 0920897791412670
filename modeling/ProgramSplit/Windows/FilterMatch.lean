/-
# Windows.FilterMatch — which attempts the drafted filters block

The set is drafted in one `FilterDraft` that every rule overwrites, and each visit reads the filter as it
stands in the draft.  A filter is tested by the engine's documented rules: it applies at its layer, when
every field it names passes one of the field's conditions.

* `visitFilters_eq` — the loop over the shared draft visits `forEachFilter`, whatever the draft held.
* `Rule.matches_iff` — when the filter of one rule and one application matches.
* `blocks_iff` — **the hard blocks of each lifetime match exactly what leaves the tunnel.**
* `drafted_set_exact` — persistent set, boot-time set and unlisted identifiers together.
-/
import ProgramSplit.Windows.Filters

namespace ProgramSplit.Windows.Wfp

set_option autoImplicit false

/-! ## The shared draft -/

/-- `FilterDraft`: a filter and the array its conditions stand in. -/
structure FilterDraft where
  flags : UInt32
  providerKey : Option Guid
  providerData : Bytes
  layerKey : Guid
  subLayerKey : Guid
  actionType : UInt32
  calloutKey : Guid
  providerContextKey : Guid
  numFilterConditions : Nat
  conditions : List.Vector Condition 3

/-- `FilterDraft{}` -/
def FilterDraft.clear : FilterDraft where
  flags := 0
  providerKey := none
  providerData := []
  layerKey := Guid.zero
  subLayerKey := Guid.zero
  actionType := 0
  calloutKey := Guid.zero
  providerContextKey := Guid.zero
  numFilterConditions := 0
  conditions := List.Vector.replicate 3 ⟨Guid.zero, 0, .other 0 []⟩

/-- The filter as a visitor reads it: the conditions are the first of the draft's own array. -/
def FilterDraft.filter (draft : FilterDraft) : Filter where
  filterKey := Guid.zero
  flags := draft.flags
  providerKey := draft.providerKey
  providerData := draft.providerData
  layerKey := draft.layerKey
  subLayerKey := draft.subLayerKey
  actionType := draft.actionType
  calloutKey := draft.calloutKey
  providerContextKey := draft.providerContextKey
  conditions := draft.conditions.toList.take draft.numFilterConditions

/-- One condition is written behind the others and counted. -/
def FilterDraft.add (draft : FilterDraft) (condition : Condition) : FilterDraft :=
  { draft with
    conditions := ⟨draft.conditions.toList.set draft.numFilterConditions condition, by simp⟩
    numFilterConditions := draft.numFilterConditions + 1 }

/-- `draftFilter`, on the draft that is overwritten. -/
def draftInPlace (_draft : FilterDraft) (rule : FilterRule) (app : AppEntry) (context : Guid)
    (tunnelIp : UInt32) (bootTime : Bool) : FilterDraft :=
  let draft := FilterDraft.clear.add (appCondition app)
  let draft := if rule.exceptLoopback then draft.add loopbackCondition else draft
  let draft := if rule.exceptTunnel then draft.add (tunnelCondition tunnelIp) else draft
  let draft := { draft with
    flags := kFilterPersistent
    providerKey := some kProvider
    providerData := app.tag
    layerKey := rule.layer
    subLayerKey := kSublayer
    actionType := rule.action }
  let draft := match rule.callout with
    | some callout => { draft with
        calloutKey := callout
        flags := draft.flags ||| kHasProviderContext
        providerContextKey := context }
    | none => { draft with flags := draft.flags ||| kClearActionRight }
  if bootTime then
    { draft with flags := (draft.flags &&& ~~~kFilterPersistent) ||| kFilterBootTime, subLayerKey := Guid.zero }
  else draft

theorem draftInPlace_filter (draft : FilterDraft) (rule : FilterRule) (app : AppEntry) (context : Guid)
    (tunnelIp : UInt32) (bootTime : Bool) :
    (draftInPlace draft rule app context tunnelIp bootTime).filter = draftFilter rule app context tunnelIp bootTime := by
  obtain ⟨layer, action, callout, exceptLoopback, exceptTunnel⟩ := rule
  cases callout <;> cases exceptLoopback <;> cases exceptTunnel <;> cases bootTime <;> rfl

/-- The draft, and what has been visited. -/
structure Visit where
  draft : FilterDraft
  visited : List Filter

def Visit.filter (visit : Visit) (rule : FilterRule) (app : AppEntry) (context : Guid) (tunnelIp : UInt32)
    (bootTime : Bool) : Visit :=
  let draft := draftInPlace visit.draft rule app context tunnelIp bootTime
  ⟨draft, visit.visited ++ [draft.filter]⟩

def Visit.rule (app : AppEntry) (context : Guid) (tunnelIp : UInt32) (withRedirects : Bool) (visit : Visit)
    (rule : FilterRule) : Visit :=
  if rule.callout.isSome && !withRedirects then visit
  else
    let visit := visit.filter rule app context tunnelIp false
    if rule.callout.isSome then visit else visit.filter rule app context tunnelIp true

/-- `forEachFilter`, with its shared draft. -/
def visitFilters (draft : FilterDraft) (apps : List AppEntry) (context : Guid) (tunnelIp : UInt32)
    (withRedirects : Bool) : List Filter :=
  (apps.foldl (fun visit app => kRules.foldl (Visit.rule app context tunnelIp withRedirects) visit)
    ⟨draft, []⟩).visited

section Loop

variable (context : Guid) (tunnelIp : UInt32) (withRedirects : Bool)

theorem Visit.rule_visited (app : AppEntry) (visit : Visit) (rule : FilterRule) :
    (Visit.rule app context tunnelIp withRedirects visit rule).visited =
      visit.visited ++ ruleFilters app context tunnelIp withRedirects rule := by
  unfold Visit.rule ruleFilters
  cases rule.callout.isSome <;> cases withRedirects <;> simp [Visit.filter, draftInPlace_filter]

theorem Visit.rules_visited (app : AppEntry) (rules : List FilterRule) : ∀ visit : Visit,
    (rules.foldl (Visit.rule app context tunnelIp withRedirects) visit).visited =
      visit.visited ++ rules.flatMap (ruleFilters app context tunnelIp withRedirects) := by
  induction rules with
  | nil =>
    intro visit
    simp
  | cons rule rules ih =>
    intro visit
    rw [List.foldl_cons, ih, Visit.rule_visited, List.flatMap_cons, List.append_assoc]

theorem Visit.apps_visited (apps : List AppEntry) : ∀ visit : Visit,
    (apps.foldl (fun visit app => kRules.foldl
      (Visit.rule app context tunnelIp withRedirects) visit) visit).visited =
      visit.visited ++ forEachFilter apps context tunnelIp withRedirects := by
  induction apps with
  | nil =>
    intro visit
    simp [forEachFilter]
  | cons app apps ih =>
    intro visit
    rw [List.foldl_cons, ih, Visit.rules_visited, List.append_assoc]
    rfl

/-- **The shared draft leaves no trace**: the loop visits each rule's own filters. -/
theorem visitFilters_eq (draft : FilterDraft) (apps : List AppEntry) :
    visitFilters draft apps context tunnelIp withRedirects =
      forEachFilter apps context tunnelIp withRedirects :=
  Visit.apps_visited context tunnelIp withRedirects apps ⟨draft, []⟩

end Loop

/-! ## Attempts and matching -/

/-- The address that the socket has on this host. -/
inductive LocalAddress
  | v4 (address : UInt32)
  | v6 (address : List.Vector UInt8 16)

/-- A connect or accept attempt, by the fields that its layer offers to the filters. -/
structure Attempt where
  appId : Bytes
  accept : Bool
  flags : UInt32
  localAddress : LocalAddress
  /-- The values of the layer's other fields: ports, protocol, remote address. -/
  others : Guid → Option ConditionValue

def Attempt.loopback (attempt : Attempt) : Bool :=
  has attempt.flags FWP_CONDITION_FLAG_IS_LOOPBACK

/-- The authorization layer at which the attempt is classified. -/
def Attempt.layer (attempt : Attempt) : Guid :=
  match attempt.localAddress, attempt.accept with
  | .v4 _, false => kLayerAuthConnectV4
  | .v4 _, true => kLayerRecvAcceptV4
  | .v6 _, false => kLayerConnectV6
  | .v6 _, true => kLayerRecvAcceptV6

/-- `FWP_BYTE_ARRAY16_TYPE` -/
def FWP_BYTE_ARRAY16_TYPE : Nat := 11

def LocalAddress.value : LocalAddress → ConditionValue
  | .v4 address => .uint32 address
  | .v6 address => .other FWP_BYTE_ARRAY16_TYPE address.toList

def Attempt.value (attempt : Attempt) (field : Guid) : Option ConditionValue :=
  if field = kConditionAppId then some (.byteBlob (some attempt.appId))
  else if field = kConditionFlags then some (.uint32 attempt.flags)
  else if field = kConditionLocalAddress then some attempt.localAddress.value
  else attempt.others field

/-- How the engine compares the layer's value with a condition's; the match types that the set uses are
documented, the others are arbitrary. -/
structure Matcher where
  test : Nat → ConditionValue → ConditionValue → Bool
  equal : ∀ value expected, test FWP_MATCH_EQUAL value expected = decide (value = expected)
  notEqual : ∀ value expected, test FWP_MATCH_NOT_EQUAL value expected = decide (value ≠ expected)
  noneSet : ∀ flags mask : UInt32,
    test FWP_MATCH_FLAGS_NONE_SET (.uint32 flags) (.uint32 mask) = !has flags mask

/-- An engine that knows these three match types only. -/
def Matcher.reference : Matcher where
  test matchType value expected :=
    if matchType = FWP_MATCH_EQUAL then value = expected
    else if matchType = FWP_MATCH_NOT_EQUAL then value ≠ expected
    else if matchType = FWP_MATCH_FLAGS_NONE_SET then
      match value, expected with
      | .uint32 flags, .uint32 mask => !has flags mask
      | _, _ => false
    else false
  equal _ _ := rfl
  notEqual _ _ := rfl
  noneSet _ _ := rfl

section Matching

variable (engine : Matcher)

def Matcher.passes (attempt : Attempt) (condition : Condition) : Bool :=
  match attempt.value condition.fieldKey with
  | some value => engine.test condition.matchType value condition.conditionValue
  | none => false

/-- Conditions on one field are alternatives, and every field has to pass. -/
def Matcher.matches (attempt : Attempt) (filter : Filter) : Bool :=
  filter.layerKey == attempt.layer &&
    filter.conditions.all fun condition =>
      filter.conditions.any fun other => other.fieldKey == condition.fieldKey && engine.passes attempt other

theorem Matcher.passes_app (attempt : Attempt) (app : AppEntry) :
    engine.passes attempt (appCondition app) = true ↔ app.appId = attempt.appId := by
  simp only [Matcher.passes, appCondition, Attempt.value, if_true, engine.equal, decide_eq_true_eq,
    ConditionValue.byteBlob.injEq, Option.some.injEq]
  exact eq_comm

theorem Matcher.passes_loopback (attempt : Attempt) :
    engine.passes attempt loopbackCondition = true ↔ attempt.loopback = false := by
  have field : ¬ kConditionFlags = kConditionAppId := by decide
  simp only [Matcher.passes, loopbackCondition, Attempt.value, if_neg field, if_true,
    engine.noneSet, Attempt.loopback, Bool.not_eq_true']

theorem Matcher.passes_tunnel (attempt : Attempt) (tunnelIp : UInt32) :
    engine.passes attempt (tunnelCondition tunnelIp) = true ↔
      attempt.localAddress.value ≠ .uint32 tunnelIp := by
  have notApp : ¬ kConditionLocalAddress = kConditionAppId := by decide
  have notFlags : ¬ kConditionLocalAddress = kConditionFlags := by decide
  simp only [Matcher.passes, tunnelCondition, Attempt.value, if_neg notApp, if_neg notFlags,
    if_true, engine.notEqual, decide_eq_true_eq]

/-- When the conditions are on different fields, each has to pass. -/
theorem all_any_of_fields {conditions : List Condition} {passes : Condition → Bool}
    (fields : (conditions.map (·.fieldKey)).Nodup) :
    (conditions.all fun condition => conditions.any fun other =>
      other.fieldKey == condition.fieldKey && passes other) =
      conditions.all passes := by
  rw [Bool.eq_iff_iff, List.all_eq_true, List.all_eq_true]
  refine forall₂_congr fun condition member => ?_
  rw [List.any_eq_true]
  constructor
  · rintro ⟨other, inList, found⟩
    rw [Bool.and_eq_true, beq_iff_eq] at found
    rw [← List.inj_on_of_nodup_map fields inList member found.1]
    exact found.2
  · intro passed
    exact ⟨condition, member, by simp [passed]⟩

theorem draftFilter_fields (rule : FilterRule) (app : AppEntry) (context : Guid) (tunnelIp : UInt32)
    (bootTime : Bool) :
    ((draftFilter rule app context tunnelIp bootTime).conditions.map (·.fieldKey)).Nodup := by
  obtain ⟨layer, action, callout, exceptLoopback, exceptTunnel⟩ := rule
  have three : [kConditionAppId, kConditionFlags, kConditionLocalAddress].Nodup := by decide
  cases exceptLoopback with
  | false =>
    cases exceptTunnel with
    | false => exact List.nodup_singleton _
    | true => exact (by decide : [kConditionAppId, kConditionLocalAddress].Nodup)
  | true =>
    cases exceptTunnel with
    | false => exact (by decide : [kConditionAppId, kConditionFlags].Nodup)
    | true => exact three

/-- **When the filter of one rule and one application matches.** -/
theorem Rule.matches_iff (attempt : Attempt) (rule : FilterRule) (app : AppEntry) (context : Guid)
    (tunnelIp : UInt32) (bootTime : Bool) :
    engine.matches attempt (draftFilter rule app context tunnelIp bootTime) = true ↔
      rule.layer = attempt.layer ∧ app.appId = attempt.appId ∧
        (rule.exceptLoopback = true → attempt.loopback = false) ∧
          (rule.exceptTunnel = true → attempt.localAddress.value ≠ .uint32 tunnelIp) := by
  unfold Matcher.matches
  rw [all_any_of_fields (draftFilter_fields rule app context tunnelIp bootTime), Bool.and_eq_true, beq_iff_eq]
  refine and_congr Iff.rfl ?_
  have conditions : (draftFilter rule app context tunnelIp bootTime).conditions =
      appCondition app :: ((if rule.exceptLoopback then [loopbackCondition] else []) ++
        (if rule.exceptTunnel then [tunnelCondition tunnelIp] else [])) := rfl
  rw [conditions, List.all_cons, List.all_append, Bool.and_eq_true, Bool.and_eq_true, engine.passes_app]
  refine and_congr Iff.rfl (and_congr ?_ ?_)
  · cases rule.exceptLoopback with
    | false => simp
    | true => simp [engine.passes_loopback]
  · cases rule.exceptTunnel with
    | false => simp
    | true => simp [engine.passes_tunnel]

end Matching

/-! ## What is blocked -/

inductive Lifetime
  | persistent
  | bootTime
  deriving DecidableEq

def Filter.lives (filter : Filter) : Lifetime → Bool
  | .persistent => has filter.flags kFilterPersistent
  | .bootTime => has filter.flags kFilterBootTime

def Filter.block (filter : Filter) : Bool :=
  filter.actionType == FWP_ACTION_BLOCK

/-- A block that no later sublayer can turn into a permit. -/
def Filter.hardBlock (filter : Filter) : Bool :=
  filter.block && has filter.flags kClearActionRight

/-- The attempt is a listed application's and would not go through the tunnel. -/
def LeavesTunnel (apps : List AppEntry) (tunnelIp : UInt32) (attempt : Attempt) : Prop :=
  (∃ app ∈ apps, app.appId = attempt.appId) ∧ attempt.loopback = false ∧
    attempt.localAddress.value ≠ .uint32 tunnelIp

theorem LocalAddress.value_ne {localAddress : LocalAddress} {tunnelIp : UInt32} :
    localAddress.value ≠ .uint32 tunnelIp ↔
      match localAddress with
      | .v4 address => address ≠ tunnelIp
      | .v6 _ => True := by
  cases localAddress with
  | v4 address => simp [LocalAddress.value]
  | v6 address => simp [LocalAddress.value]

section Set

variable (engine : Matcher) (context : Guid) (tunnelIp : UInt32) (withRedirects : Bool)

theorem mem_forEachFilter_iff {apps : List AppEntry} {filter : Filter} :
    filter ∈ forEachFilter apps context tunnelIp withRedirects ↔
      ∃ app ∈ apps, ∃ rule ∈ kRules, ∃ bootTime, filter = draftFilter rule app context tunnelIp bootTime ∧
        (rule.callout.isSome = true → bootTime = false ∧ withRedirects = true) := by
  simp only [forEachFilter, List.mem_flatMap, ruleFilters]
  refine exists_congr fun app => and_congr_right fun _ => exists_congr fun rule => and_congr_right fun _ => ?_
  cases rule.callout.isSome with
  | true => cases withRedirects <;> simp
  | false => simp [or_comm]

/-- The rules that block, and the exceptions each makes. -/
theorem block_rules {rule : FilterRule} (member : rule ∈ kRules) (block : rule.action = FWP_ACTION_BLOCK) :
    rule.callout = none ∧ rule.exceptLoopback = true ∧
      (rule.layer = kLayerAuthConnectV4 ∧ rule.exceptTunnel = true ∨
        rule.layer = kLayerRecvAcceptV4 ∧ rule.exceptTunnel = true ∨
          rule.layer = kLayerConnectV6 ∧ rule.exceptTunnel = false ∨
            rule.layer = kLayerRecvAcceptV6 ∧ rule.exceptTunnel = false) := by
  revert rule
  decide

/-- Every authorization layer has its block. -/
theorem block_rule_of (attempt : Attempt) :
    ∃ rule ∈ kRules, rule.action = FWP_ACTION_BLOCK ∧ rule.callout = none ∧ rule.layer = attempt.layer := by
  obtain ⟨appId, accept, flags, localAddress, others⟩ := attempt
  cases localAddress with
  | v4 address =>
    cases accept with
    | false => exact ⟨⟨kLayerAuthConnectV4, FWP_ACTION_BLOCK, none, true, true⟩, by decide, rfl, rfl, rfl⟩
    | true => exact ⟨⟨kLayerRecvAcceptV4, FWP_ACTION_BLOCK, none, true, true⟩, by decide, rfl, rfl, rfl⟩
  | v6 address =>
    cases accept with
    | false => exact ⟨⟨kLayerConnectV6, FWP_ACTION_BLOCK, none, true, false⟩, by decide, rfl, rfl, rfl⟩
    | true => exact ⟨⟨kLayerRecvAcceptV6, FWP_ACTION_BLOCK, none, true, false⟩, by decide, rfl, rfl, rfl⟩

/-- The draft of a block is hard, and lives in one lifetime. -/
theorem draftFlags_block {rule : FilterRule} (noCallout : rule.callout = none) (bootTime : Bool) :
    has (draftFlags rule bootTime) kClearActionRight = true ∧
      has (draftFlags rule bootTime) kFilterPersistent = !bootTime ∧
        has (draftFlags rule bootTime) kFilterBootTime = bootTime := by
  unfold draftFlags
  rw [noCallout]
  cases bootTime <;> decide

/-- An attempt at a layer of the blocks leaves the tunnel when the layer's rule finds it so. -/
theorem leaves_of_rule {attempt : Attempt} {rule : FilterRule} (member : rule ∈ kRules)
    (block : rule.action = FWP_ACTION_BLOCK) (layer : rule.layer = attempt.layer)
    (outside : rule.exceptTunnel = true → attempt.localAddress.value ≠ .uint32 tunnelIp) :
    attempt.localAddress.value ≠ .uint32 tunnelIp := by
  obtain ⟨-, -, cases⟩ := block_rules member block
  obtain ⟨appId, accept, flags, localAddress, others⟩ := attempt
  have v4_layer (address : UInt32) :
      kLayerConnectV6 ≠ (Attempt.mk appId accept flags (.v4 address) others).layer ∧
        kLayerRecvAcceptV6 ≠ (Attempt.mk appId accept flags (.v4 address) others).layer := by
    cases accept with
    | false => exact (by decide : kLayerConnectV6 ≠ kLayerAuthConnectV4 ∧ kLayerRecvAcceptV6 ≠ kLayerAuthConnectV4)
    | true => exact (by decide : kLayerConnectV6 ≠ kLayerRecvAcceptV4 ∧ kLayerRecvAcceptV6 ≠ kLayerRecvAcceptV4)
  cases localAddress with
  | v6 address => exact LocalAddress.value_ne.mpr trivial
  | v4 address =>
    refine outside ?_
    rcases cases with ⟨-, except⟩ | ⟨-, except⟩ | ⟨isV6, -⟩ | ⟨isV6, -⟩
    · exact except
    · exact except
    · exact absurd (isV6.symm.trans layer) (v4_layer address).1
    · exact absurd (isV6.symm.trans layer) (v4_layer address).2

/-- **The hard blocks of each lifetime match exactly what leaves the tunnel.** -/
theorem blocks_iff (apps : List AppEntry) (attempt : Attempt) (lifetime : Lifetime) :
    (∃ filter ∈ forEachFilter apps context tunnelIp withRedirects,
        filter.hardBlock = true ∧ filter.lives lifetime = true ∧ engine.matches attempt filter = true) ↔
      LeavesTunnel apps tunnelIp attempt := by
  constructor
  · rintro ⟨filter, inSet, hard, -, found⟩
    obtain ⟨app, inApps, rule, inRules, bootTime, rfl, -⟩ :=
      (mem_forEachFilter_iff context tunnelIp withRedirects).mp inSet
    obtain ⟨layer, sameId, notLoopback, outside⟩ :=
      (Rule.matches_iff engine attempt rule app context tunnelIp bootTime).mp found
    have block : rule.action = FWP_ACTION_BLOCK := beq_iff_eq.mp ((Bool.and_eq_true _ _).mp hard).1
    obtain ⟨-, exceptLoopback, -⟩ := block_rules inRules block
    exact ⟨⟨app, inApps, sameId⟩, notLoopback exceptLoopback,
      leaves_of_rule tunnelIp inRules block layer outside⟩
  · rintro ⟨⟨app, inApps, sameId⟩, notLoopback, outside⟩
    obtain ⟨rule, inRules, block, noCallout, layer⟩ := block_rule_of attempt
    have flags := draftFlags_block noCallout (lifetime == .bootTime)
    refine ⟨draftFilter rule app context tunnelIp (lifetime == .bootTime), ?_, ?_, ?_, ?_⟩
    · refine (mem_forEachFilter_iff context tunnelIp withRedirects).mpr ⟨app, inApps, rule,
        inRules, _, rfl, ?_⟩
      simp [noCallout]
    · exact (Bool.and_eq_true _ _).mpr ⟨beq_iff_eq.mpr block, flags.1⟩
    · cases lifetime with
      | persistent => exact flags.2.1
      | bootTime => exact flags.2.2
    · exact (Rule.matches_iff engine attempt rule app context tunnelIp _).mpr
        ⟨layer, sameId, fun _ => notLoopback, fun _ => outside⟩

/-- The boot-time copies are drafted of the blocks alone. -/
theorem bootTime_hard {apps : List AppEntry} {filter : Filter}
    (member : filter ∈ forEachFilter apps context tunnelIp withRedirects)
    (lives : filter.lives .bootTime = true) :
    filter.hardBlock = true := by
  obtain ⟨app, -, rule, inRules, bootTime, rfl, kind⟩ :=
    (mem_forEachFilter_iff context tunnelIp withRedirects).mp member
  have table : ∀ rule ∈ kRules, ∀ bootTime, (rule.callout.isSome = true → bootTime = false) →
      has (draftFlags rule bootTime) kFilterBootTime = true →
        (rule.action == FWP_ACTION_BLOCK && has (draftFlags rule bootTime) kClearActionRight) = true := by
    decide
  exact table rule inRules bootTime (fun redirect => (kind redirect).1) lives

/-- No filter matches an identifier that no entry lists. -/
theorem matches_listed {apps : List AppEntry} {attempt : Attempt} {filter : Filter}
    (member : filter ∈ forEachFilter apps context tunnelIp withRedirects)
    (found : engine.matches attempt filter = true) : ∃ app ∈ apps, app.appId = attempt.appId := by
  obtain ⟨app, inApps, rule, -, bootTime, rfl, -⟩ :=
    (mem_forEachFilter_iff context tunnelIp withRedirects).mp member
  exact ⟨app, inApps, ((Rule.matches_iff engine attempt rule app context tunnelIp bootTime).mp found).2.1⟩

end Set

/-! ## Main result -/

/-- **The drafted set blocks exactly what leaves the tunnel**, before and after the filter engine has
started, and no block matches an identifier that is not listed. -/
theorem drafted_set_exact (engine : Matcher) (draft : FilterDraft) (apps : List AppEntry) (context : Guid)
    (tunnelIp : UInt32) (withRedirects : Bool) (attempt : Attempt) :
    let set := visitFilters draft apps context tunnelIp withRedirects
    let leaves := (∃ app ∈ apps, app.appId = attempt.appId) ∧ attempt.loopback = false ∧
      match attempt.localAddress with
      | .v4 address => address ≠ tunnelIp
      | .v6 _ => True
    ((∃ filter ∈ set, filter.hardBlock = true ∧ filter.lives .persistent = true ∧
        engine.matches attempt filter = true) ↔ leaves) ∧
      ((∃ filter ∈ set, filter.lives .bootTime = true ∧ engine.matches attempt filter = true) ↔ leaves) ∧
      (∀ filter ∈ set, filter.block = true → engine.matches attempt filter = true →
        ∃ app ∈ apps, app.appId = attempt.appId) := by
  rw [visitFilters_eq, ← LocalAddress.value_ne]
  refine ⟨blocks_iff engine context tunnelIp withRedirects apps attempt .persistent, ?_,
    fun filter member _ found => matches_listed engine context tunnelIp withRedirects member found⟩
  rw [← LeavesTunnel, ← blocks_iff engine context tunnelIp withRedirects apps attempt .bootTime]
  refine exists_congr fun filter => and_congr_right fun member => ?_
  refine ⟨fun found => ⟨?_, found⟩, fun found => found.2⟩
  exact bootTime_hard context tunnelIp withRedirects member found.1

end ProgramSplit.Windows.Wfp
