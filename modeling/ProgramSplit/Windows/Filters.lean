/-
# Windows.Filters — the filters of an included application, and the texts they are compared by

The part of `wfp-probe.cpp` that does not call the filter engine: the filters drafted for each
identifier of a listed entry, the signature of a filter, what is kept of an owned filter, and the
comparison that verification makes.

* `draftFilter`, `forEachFilter` — the set for a list of applications, a context and a tunnel
  address.
* `filterSignature` — everything that decides what a filter does, as one text.
* `describeMismatch` — empty when the owned objects are the set for the given inputs.
-/
import ProgramSplit.Lib.Digits
import Mathlib.Data.Char
import Mathlib.Data.List.Lex
import Mathlib.Data.List.Sort
import Mathlib.Data.Vector.Basic

namespace ProgramSplit.Windows.Wfp

set_option autoImplicit false

open Lib.Digits

abbrev Bytes := List UInt8

/-- A `std::wstring`: UTF-16 code units. -/
abbrev WString := List UInt16

abbrev Text := List Char

/-- The characters of a literal. -/
def chars (literal : String) : Text :=
  literal.toList

/-! ## Identifiers -/

structure Guid where
  data1 : UInt32
  data2 : UInt16
  data3 : UInt16
  data4 : List.Vector UInt8 8
  deriving DecidableEq

def Guid.zero : Guid :=
  ⟨0, 0, 0, ⟨[0, 0, 0, 0, 0, 0, 0, 0], rfl⟩⟩

def kProvider : Guid :=
  ⟨0xaf8ce9d2, 0x71b6, 0x4050, ⟨[0x84, 0x47, 0x0e, 0xbb, 0xc4, 0x25, 0x58, 0xde], rfl⟩⟩

def kSublayer : Guid :=
  ⟨0xf79561bc, 0x0027, 0x4152, ⟨[0x9a, 0x46, 0xc8, 0xc7, 0x30, 0x91, 0x1a, 0xbb], rfl⟩⟩

def kLayerBindV4 : Guid :=
  ⟨0x66978cad, 0xc704, 0x42ac, ⟨[0x86, 0xac, 0x7c, 0x1a, 0x23, 0x1b, 0xd2, 0x53], rfl⟩⟩

def kLayerConnectV4 : Guid :=
  ⟨0xc6e63c8c, 0xb784, 0x4562, ⟨[0xaa, 0x7d, 0x0a, 0x67, 0xcf, 0xca, 0xf9, 0xa3], rfl⟩⟩

def kLayerAuthConnectV4 : Guid :=
  ⟨0xc38d57d1, 0x05a7, 0x4c33, ⟨[0x90, 0x4f, 0x7f, 0xbc, 0xee, 0xe6, 0x0e, 0x82], rfl⟩⟩

def kLayerRecvAcceptV4 : Guid :=
  ⟨0xe1cd9fe7, 0xf4b5, 0x4273, ⟨[0x96, 0xc0, 0x59, 0x2e, 0x48, 0x7b, 0x86, 0x50], rfl⟩⟩

def kLayerConnectV6 : Guid :=
  ⟨0x4a72393b, 0x319f, 0x44bc, ⟨[0x84, 0xc3, 0xba, 0x54, 0xdc, 0xb3, 0xb6, 0xb4], rfl⟩⟩

def kLayerRecvAcceptV6 : Guid :=
  ⟨0xa3b42c97, 0x9f04, 0x4672, ⟨[0xb8, 0x7e, 0xce, 0xe9, 0xc4, 0x83, 0x25, 0x7f], rfl⟩⟩

def kConditionAppId : Guid :=
  ⟨0xd78e1e87, 0x8644, 0x4ea5, ⟨[0x94, 0x37, 0xd8, 0x09, 0xec, 0xef, 0xc9, 0x71], rfl⟩⟩

def kConditionFlags : Guid :=
  ⟨0x632ce23b, 0x5167, 0x435c, ⟨[0x86, 0xd7, 0xe9, 0x03, 0x68, 0x4a, 0xa8, 0x0c], rfl⟩⟩

def kConditionLocalAddress : Guid :=
  ⟨0xd9ee00de, 0xc1ef, 0x4617, ⟨[0xbf, 0xe3, 0xff, 0xd8, 0xf5, 0xa0, 0x89, 0x57], rfl⟩⟩

def kCalloutBind : Guid :=
  ⟨0xb16b0a6e, 0x2b2a, 0x41a3, ⟨[0x8b, 0x39, 0xbd, 0x3f, 0xfc, 0x85, 0x5f, 0xf8], rfl⟩⟩

def kCalloutConnect : Guid :=
  ⟨0xb80ca14a, 0xa807, 0x4ef2, ⟨[0x87, 0x2d, 0x4b, 0x1a, 0x51, 0x82, 0x54, 0x02], rfl⟩⟩

/-- `%08lx-%04x-%04x-%02x%02x-%02x%02x%02x%02x%02x%02x` -/
def guidText (value : Guid) : Text :=
  hexFixed 8 value.data1.toNat ++ '-' :: (hexFixed 4 value.data2.toNat ++
    '-' :: (hexFixed 4 value.data3.toNat ++
      '-' :: (hexBytes (value.data4.toList.take 2) ++ '-' :: hexBytes (value.data4.toList.drop 2))))

/-! ## Flags and constants -/

def kProviderPersistent : UInt32 := 0x00000001
def kSublayerPersistent : UInt16 := 0x0001
def kCalloutPersistent : UInt32 := 0x00010000
def kUsesProviderContext : UInt32 := 0x00020000
def kContextPersistent : UInt32 := 0x00000001
def kFilterPersistent : UInt32 := 0x00000001
def kFilterBootTime : UInt32 := 0x00000002
def kHasProviderContext : UInt32 := 0x00000004
def kClearActionRight : UInt32 := 0x00000008
def kSublayerWeight : UInt16 := 0xffff

def FWP_ACTION_FLAG_CALLOUT : UInt32 := 0x00004000
def FWP_ACTION_BLOCK : UInt32 := 0x00001001
def FWP_ACTION_CALLOUT_TERMINATING : UInt32 := 0x00005003
def FWP_MATCH_EQUAL : Nat := 0
def FWP_MATCH_FLAGS_NONE_SET : Nat := 8
def FWP_MATCH_NOT_EQUAL : Nat := 10
def FWP_CONDITION_FLAG_IS_LOOPBACK : UInt32 := 1

/-- `flags & bit` as a condition. -/
def has (flags bit : UInt32) : Bool :=
  flags &&& bit != 0

/-! ## Rules -/

structure CalloutRule where
  key : Guid
  layer : Guid
  deriving DecidableEq

def kCallouts : List CalloutRule :=
  [⟨kCalloutBind, kLayerBindV4⟩, ⟨kCalloutConnect, kLayerConnectV4⟩]

structure FilterRule where
  layer : Guid
  action : UInt32
  callout : Option Guid
  exceptLoopback : Bool
  exceptTunnel : Bool
  deriving DecidableEq

def kRules : List FilterRule :=
  [⟨kLayerBindV4, FWP_ACTION_CALLOUT_TERMINATING, some kCalloutBind, false, false⟩,
    ⟨kLayerConnectV4, FWP_ACTION_CALLOUT_TERMINATING, some kCalloutConnect, false, false⟩,
    ⟨kLayerAuthConnectV4, FWP_ACTION_BLOCK, none, true, true⟩,
    ⟨kLayerRecvAcceptV4, FWP_ACTION_BLOCK, none, true, true⟩,
    ⟨kLayerConnectV6, FWP_ACTION_BLOCK, none, true, false⟩,
    ⟨kLayerRecvAcceptV6, FWP_ACTION_BLOCK, none, true, false⟩]

/-! ## Filters and their signatures -/

/-- A condition's value; the types that the signature does not spell out keep their number. -/
inductive ConditionValue
  | uint8 (value : UInt8)
  | uint16 (value : UInt16)
  | uint32 (value : UInt32)
  | byteBlob (value : Option Bytes)
  | other (type : Nat) (payload : Bytes)
  deriving DecidableEq

structure Condition where
  fieldKey : Guid
  matchType : Nat
  conditionValue : ConditionValue
  deriving DecidableEq

/-- An `FWPM_FILTER0`.  The callout key shares its storage with the filter type of other actions,
and the context key with a raw context: each counts only under its flag. -/
structure Filter where
  filterKey : Guid
  flags : UInt32
  providerKey : Option Guid
  providerData : Bytes
  layerKey : Guid
  subLayerKey : Guid
  actionType : UInt32
  calloutKey : Guid
  providerContextKey : Guid
  conditions : List Condition
  deriving DecidableEq

def ownedBy (provider : Option Guid) : Bool :=
  provider == some kProvider

def valueText : ConditionValue → Text
  | .uint8 value => chars "u8:" ++ decimal value.toNat
  | .uint16 value => chars "u16:" ++ decimal value.toNat
  | .uint32 value => chars "u32:" ++ decimal value.toNat
  | .byteBlob (some bytes) => chars "blob:" ++ hexBytes bytes
  | .byteBlob none => chars "blob:null"
  | .other type _ => chars "type:" ++ decimal type

def conditionText (condition : Condition) : Text :=
  guidText condition.fieldKey ++
    '/' :: (decimal condition.matchType ++ '/' :: valueText condition.conditionValue)

/-- `std::sort` on texts. -/
def sortTexts (texts : List Text) : List Text :=
  texts.insertionSort (· ≤ ·)

/-- The word for how long a filter lives. -/
def lifetimeText (flags : UInt32) : Text :=
  if has flags kFilterPersistent then chars " persistent"
  else if has flags kFilterBootTime then chars " boottime"
  else chars " dynamic"

/-- Everything that decides what a filter does.  The key is not compared, and a boot-time filter's
sublayer is printed as the default one, whichever key it carries. -/
def filterSignature (filter : Filter) : Text :=
  let conditions := sortTexts (filter.conditions.map conditionText)
  guidText filter.layerKey ++ chars " sublayer:" ++
    (if has filter.flags kFilterBootTime then chars "default" else guidText filter.subLayerKey) ++
    chars " action:" ++ decimal filter.actionType.toNat ++
    (if has filter.actionType FWP_ACTION_FLAG_CALLOUT then
      chars " callout:" ++ guidText filter.calloutKey else []) ++
    lifetimeText filter.flags ++
    (if has filter.flags kClearActionRight then chars " hard" else []) ++
    (if has filter.flags kHasProviderContext then
      chars " context:" ++ guidText filter.providerContextKey else []) ++
    chars " tag:" ++ hexBytes filter.providerData ++
    conditions.flatMap (' ' :: ·)

/-! ## The set for a list of applications -/

/-- One identifier of a listed entry, and the tag its filters carry. -/
structure AppEntry where
  appId : Bytes
  tag : Bytes
  deriving DecidableEq

def appCondition (app : AppEntry) : Condition :=
  ⟨kConditionAppId, FWP_MATCH_EQUAL, .byteBlob (some app.appId)⟩

def loopbackCondition : Condition :=
  ⟨kConditionFlags, FWP_MATCH_FLAGS_NONE_SET, .uint32 FWP_CONDITION_FLAG_IS_LOOPBACK⟩

def tunnelCondition (tunnelIp : UInt32) : Condition :=
  ⟨kConditionLocalAddress, FWP_MATCH_NOT_EQUAL, .uint32 tunnelIp⟩

/-- The flags of a draft: a redirect carries the context, a block is hard, and the boot-time copy
is not persistent. -/
def draftFlags (rule : FilterRule) (bootTime : Bool) : UInt32 :=
  let flags := kFilterPersistent ||| if rule.callout.isSome then kHasProviderContext else kClearActionRight
  if bootTime then (flags &&& ~~~kFilterPersistent) ||| kFilterBootTime else flags

def draftFilter (rule : FilterRule) (app : AppEntry) (context : Guid) (tunnelIp : UInt32)
    (bootTime : Bool) : Filter where
  filterKey := Guid.zero
  flags := draftFlags rule bootTime
  providerKey := some kProvider
  providerData := app.tag
  layerKey := rule.layer
  subLayerKey := if bootTime then Guid.zero else kSublayer
  actionType := rule.action
  calloutKey := rule.callout.getD Guid.zero
  providerContextKey := if rule.callout.isSome then context else Guid.zero
  conditions :=
    appCondition app :: ((if rule.exceptLoopback then [loopbackCondition] else []) ++
      (if rule.exceptTunnel then [tunnelCondition tunnelIp] else []))

/-- The filters of one rule for one application: a block has a boot-time copy. -/
def ruleFilters (app : AppEntry) (context : Guid) (tunnelIp : UInt32) (withRedirects : Bool)
    (rule : FilterRule) : List Filter :=
  if rule.callout.isSome then
    if withRedirects then [draftFilter rule app context tunnelIp false] else []
  else
    [draftFilter rule app context tunnelIp false, draftFilter rule app context tunnelIp true]

/-- Every filter of the set, in the order it is visited. -/
def forEachFilter (apps : List AppEntry) (context : Guid) (tunnelIp : UInt32)
    (withRedirects : Bool) : List Filter :=
  apps.flatMap fun app => kRules.flatMap (ruleFilters app context tunnelIp withRedirects)

def expectedSignatures (apps : List AppEntry) (context : Guid) (tunnelIp : UInt32) : List Text :=
  sortTexts ((forEachFilter apps context tunnelIp true).map filterSignature)

/-! ## What is owned -/

/-- What is kept of an owned filter. -/
structure OwnedFilter where
  id : UInt64
  signature : Text
  tag : WString
  path : WString
  appId : Bytes
  deriving DecidableEq

/-- The code units of bytes in memory order. -/
def units : Bytes → WString
  | low :: high :: rest => (low.toUInt16 ||| high.toUInt16 <<< 8) :: units rest
  | _ => []

/-- The identifier of a condition on the application, if it is one. -/
def conditionAppId (condition : Condition) : Option Bytes :=
  if condition.fieldKey = kConditionAppId then
    match condition.conditionValue with
    | .byteBlob value => value
    | _ => none
  else none

/-- The listed entry, a tab and its attribution path, as the provider data holds them. -/
def tagOf (data : WString) : WString × WString :=
  (data.takeWhile (· != 9), (data.dropWhile (· != 9)).tail)

def ownedFilter (id : UInt64) (filter : Filter) : OwnedFilter :=
  let tagged := if filter.providerData.length % 2 = 0 then tagOf (units filter.providerData) else ([], [])
  { id
    signature := filterSignature filter
    tag := tagged.1
    path := tagged.2
    -- the loop keeps the last condition that names an application
    appId := ((filter.conditions.filterMap conditionAppId).getLast?).getD [] }

structure OwnedCallout where
  key : Guid
  flags : UInt32
  layer : Guid
  deriving DecidableEq

/-- The types of provider contexts; only the general one is used here. -/
inductive ContextType
  | general
  | other (type : Nat)
  deriving DecidableEq

structure OwnedContext where
  key : Guid
  id : UInt64
  flags : UInt32
  type : ContextType
  data : Bytes
  deriving DecidableEq

structure OwnedSublayer where
  key : Guid
  flags : UInt16
  weight : UInt16
  deriving DecidableEq

structure Owned where
  provider : Option UInt32
  filters : List OwnedFilter
  callouts : List OwnedCallout
  contexts : List OwnedContext
  sublayers : List OwnedSublayer
  deriving DecidableEq

/-- The bytes of a number in memory. -/
def littleEndian (n : UInt32) : Bytes :=
  [n.toUInt8, (n >>> 8).toUInt8, (n >>> 16).toUInt8, (n >>> 24).toUInt8]

/-- The bytes of a `ContextData`: the tunnel address and two zero fields. -/
def contextFor (tunnelIp : UInt32) : Bytes :=
  littleEndian tunnelIp ++ littleEndian 0 ++ littleEndian 0

def contextMatches (data : Bytes) (tunnelIp : UInt32) : Bool :=
  data == contextFor tunnelIp

def calloutRule (key : Guid) : Option CalloutRule :=
  kCallouts.find? fun rule => rule.key == key

def calloutCurrent (callout : OwnedCallout) : Bool :=
  match calloutRule callout.key with
  | some rule =>
    rule.layer == callout.layer && has callout.flags kCalloutPersistent &&
      has callout.flags kUsesProviderContext
  | none => false

def sublayerCurrent (sublayer : OwnedSublayer) : Bool :=
  sublayer.key == kSublayer && sublayer.flags &&& kSublayerPersistent != 0 &&
    sublayer.weight == kSublayerWeight

/-- How many of the expected texts are missing. -/
def missingCount (expected actual : List Text) : Nat :=
  (expected.diff actual).length

/-- The comparison of the filters, once the context is known to be right. -/
def describeFilters (owned : Owned) (apps : List AppEntry) (context : Guid) (tunnelIp : UInt32) :
    String :=
  let actual := sortTexts (owned.filters.map (·.signature))
  let expected := expectedSignatures apps context tunnelIp
  if actual ≠ expected then
    "expected " ++ toString expected.length ++ " filter(s), found " ++ toString actual.length ++
      " with " ++ toString (missingCount expected actual) ++ " missing"
  else ""

/-- Empty when the owned objects are exactly the set that an installation makes for these inputs. -/
def describeMismatch (owned : Owned) (apps : List AppEntry) (tunnelIp : UInt32) : String :=
  match owned.provider with
  | none => "the provider is missing"
  | some providerFlags =>
    if !has providerFlags kProviderPersistent then "the provider is not persistent"
    else if owned.sublayers.length ≠ 1 ∨ !(owned.sublayers.all sublayerCurrent) then
      "expected the persistent sublayer alone, found " ++ toString owned.sublayers.length ++
        " sublayer(s)"
    else if owned.callouts.length ≠ kCallouts.length ∨
        owned.callouts.countP calloutCurrent ≠ kCallouts.length then
      "expected both persistent PIA callouts, found " ++
        toString (owned.callouts.countP calloutCurrent) ++ " of " ++ toString owned.callouts.length
    else
      match owned.contexts with
      | [context] =>
        if !has context.flags kContextPersistent ∨ context.type ≠ .general ∨
            !contextMatches context.data tunnelIp then
          "the provider context does not carry this tunnel address"
        else describeFilters owned apps context.key tunnelIp
      | contexts => "expected one provider context, found " ++ toString contexts.length

end ProgramSplit.Windows.Wfp
