/-
# Windows.FilterSignature — what equal signatures say

Verification compares sorted texts.  Each part of a filter's text is a word of its own, so the text
determines every part, and the sorted list of texts determines the applications.

* `signature_words` — a signature is a first word and others behind blanks.
* `signature_eq` — filters with one signature agree in everything that decides what they do; the
  sublayer of a boot-time filter is not among it.
* `signatures_perm_iff` — for one context and one tunnel address, the signatures of two sets agree
  up to order exactly when the applications do.
-/
import ProgramSplit.Windows.Filters

namespace ProgramSplit.Windows.Wfp

set_option autoImplicit false

open Lib.Digits

/-! ## Identifiers -/

theorem hexBytes_length (bytes : Bytes) : (hexBytes bytes).length = 2 * bytes.length := by
  induction bytes with
  | nil => rfl
  | cons b bytes ih =>
    simp only [hexBytes, List.flatMap_cons, List.length_append, hexFixed_length] at ih ⊢
    simp only [ih, List.length_cons]
    omega

theorem guidText_length (value : Guid) : (guidText value).length = 36 := by
  have eight : value.data4.toList.length = 8 := value.data4.toList_length
  simp [guidText, hexBytes_length, eight]

theorem guidText_inj {a b : Guid} (same : guidText a = guidText b) : a = b := by
  have eightA : a.data4.toList.length = 8 := a.data4.toList_length
  have eightB : b.data4.toList.length = 8 := b.data4.toList_length
  obtain ⟨first, rest⟩ := List.append_inj same (by simp)
  obtain ⟨second, rest⟩ := List.append_inj (List.cons.inj rest).2 (by simp)
  obtain ⟨third, rest⟩ := List.append_inj (List.cons.inj rest).2 (by simp)
  obtain ⟨fourth, rest⟩ := List.append_inj (List.cons.inj rest).2
    (by simp [hexBytes_length, eightA, eightB])
  have fifth := (List.cons.inj rest).2
  have data1 : a.data1 = b.data1 :=
    UInt32.toNat_inj.mp (hexFixed_inj a.data1.toNat_lt b.data1.toNat_lt first)
  have data2 : a.data2 = b.data2 :=
    UInt16.toNat_inj.mp (hexFixed_inj a.data2.toNat_lt b.data2.toNat_lt second)
  have data3 : a.data3 = b.data3 :=
    UInt16.toNat_inj.mp (hexFixed_inj a.data3.toNat_lt b.data3.toNat_lt third)
  have data4 : a.data4 = b.data4 := by
    apply List.Vector.toList_injective
    rw [← List.take_append_drop 2 a.data4.toList, hexBytes_inj fourth, hexBytes_inj fifth,
      List.take_append_drop]
  cases a
  cases b
  simp_all

/-- The characters of identifiers, numbers and fixed words: no blank and no slash. -/
def isWordChar (c : Char) : Prop :=
  c ≠ ' ' ∧ c ≠ '/'

theorem isWordChar_of_isHex {c : Char} (hex : isHex c) : isWordChar c :=
  hex.all (p := fun c => c ≠ ' ' ∧ c ≠ '/') (by decide)

theorem isWordChar_of_isDigit {c : Char} (digit : c.isDigit = true) : isWordChar c := by
  constructor
  · rintro rfl
    exact absurd digit (by decide)
  · rintro rfl
    exact absurd digit (by decide)

theorem guidText_word (value : Guid) : ∀ c ∈ guidText value, isWordChar c := by
  have dash : isWordChar '-' := by
    unfold isWordChar
    decide
  intro c member
  simp only [guidText, List.mem_append, List.mem_cons] at member
  rcases member with hex | rfl | hex | rfl | hex | rfl | hex | rfl | hex
  all_goals
    first
      | exact dash
      | exact isWordChar_of_isHex (isHex_of_mem_hexFixed hex)
      | exact isWordChar_of_isHex (isHex_of_mem_hexBytes hex)

theorem decimal_word (n : Nat) : ∀ c ∈ decimal n, isWordChar c :=
  fun _ member => isWordChar_of_isDigit (isDigit_of_mem_decimal member)

theorem hexBytes_word (bytes : Bytes) : ∀ c ∈ hexBytes bytes, isWordChar c :=
  fun _ member => isWordChar_of_isHex (isHex_of_mem_hexBytes member)

/-! ## Conditions -/

/-- A value that its text spells out. -/
def ConditionValue.Spelled : ConditionValue → Prop
  | .other _ _ => False
  | _ => True

theorem valueText_inj {a b : ConditionValue} (spelled : a.Spelled)
    (same : valueText b = valueText a) : b = a := by
  have noNull : ∀ bytes : Bytes, hexBytes bytes ≠ chars "null" := by
    intro bytes equal
    have isHexN : isHex 'n' := isHex_of_mem_hexBytes (by rw [equal]; decide)
    revert isHexN
    unfold isHex
    decide +kernel
  have prefix_u8 : chars "u8:" = ['u', '8', ':'] := by decide
  have prefix_u16 : chars "u16:" = ['u', '1', '6', ':'] := by decide
  have prefix_u32 : chars "u32:" = ['u', '3', '2', ':'] := by decide
  have prefix_blob : chars "blob:" = ['b', 'l', 'o', 'b', ':'] := by decide
  have prefix_type : chars "type:" = ['t', 'y', 'p', 'e', ':'] := by decide
  have whole_null : chars "blob:null" = ['b', 'l', 'o', 'b', ':'] ++ chars "null" := by decide
  rcases a with v | v | v | (_ | v) | ⟨t, p⟩ <;> rcases b with v' | v' | v' | (_ | v') | ⟨t', p'⟩ <;>
    simp [valueText, prefix_u8, prefix_u16, prefix_u32, prefix_blob, prefix_type, whole_null,
      ConditionValue.Spelled] at same spelled
  · rw [UInt8.toNat_inj.mp (decimal_inj same)]
  · rw [UInt16.toNat_inj.mp (decimal_inj same)]
  · rw [UInt32.toNat_inj.mp (decimal_inj same)]
  · rfl
  · exact absurd same (noNull v')
  · exact absurd same.symm (noNull v)
  · rw [hexBytes_inj same]

theorem conditionText_inj {a b : Condition} (spelled : a.conditionValue.Spelled)
    (same : conditionText b = conditionText a) : b = a := by
  obtain ⟨field, rest⟩ := List.append_inj same (by rw [guidText_length, guidText_length])
  have noSlash : ∀ n, '/' ∉ decimal n := fun n member => (decimal_word n '/' member).2 rfl
  obtain ⟨numbers, value⟩ :=
    append_separator_inj (noSlash b.matchType) (noSlash a.matchType) (List.cons.inj rest).2
  have fieldKey := guidText_inj field
  have matchType := decimal_inj numbers
  have conditionValue := valueText_inj spelled value
  cases a
  cases b
  simp_all

theorem valueText_plain (value : ConditionValue) : ' ' ∉ valueText value := by
  have hex : ∀ bytes, ' ' ∉ hexBytes bytes := fun bytes member => (hexBytes_word bytes ' ' member).1 rfl
  have digits : ∀ n, ' ' ∉ decimal n := fun n member => (decimal_word n ' ' member).1 rfl
  have words : ' ' ∉ chars "u8:" ∧ ' ' ∉ chars "u16:" ∧ ' ' ∉ chars "u32:" ∧ ' ' ∉ chars "blob:" ∧
      ' ' ∉ chars "type:" ∧ ' ' ∉ chars "blob:null" := by decide
  obtain ⟨u8, u16, u32, blob, type, null⟩ := words
  rcases value with v | v | v | (_ | v) | ⟨t, p⟩ <;>
    simp only [valueText, List.mem_append, not_or]
  · exact ⟨u8, digits _⟩
  · exact ⟨u16, digits _⟩
  · exact ⟨u32, digits _⟩
  · exact null
  · exact ⟨blob, hex _⟩
  · exact ⟨type, digits _⟩

theorem conditionText_plain (condition : Condition) : ' ' ∉ conditionText condition := by
  intro member
  simp only [conditionText, List.mem_append, List.mem_cons] at member
  rcases member with guid | slash | digits | slash | value
  · exact (guidText_word _ ' ' guid).1 rfl
  · exact absurd slash (by decide)
  · exact (decimal_word _ ' ' digits).1 rfl
  · exact absurd slash (by decide)
  · exact valueText_plain _ value

/-! ## The words of a signature -/

/-- The callout of a filter whose action calls one. -/
def Filter.callout (filter : Filter) : Option Guid :=
  if has filter.actionType FWP_ACTION_FLAG_CALLOUT then some filter.calloutKey else none

/-- The provider context of a filter that has one. -/
def Filter.context (filter : Filter) : Option Guid :=
  if has filter.flags kHasProviderContext then some filter.providerContextKey else none

def Filter.bootTime (filter : Filter) : Bool :=
  has filter.flags kFilterBootTime

/-- Is the filter persistent, and is it a boot-time filter? -/
def Filter.persistence (filter : Filter) : Bool × Bool :=
  (has filter.flags kFilterPersistent, filter.bootTime)

def sublayerWord (filter : Filter) : Text :=
  chars "sublayer:" ++ if filter.bootTime then chars "default" else guidText filter.subLayerKey

def lifetimeWord (filter : Filter) : Text :=
  if has filter.flags kFilterPersistent then chars "persistent"
  else if filter.bootTime then chars "boottime"
  else chars "dynamic"

def calloutWords (filter : Filter) : List Text :=
  filter.callout.toList.map fun key => chars "callout:" ++ guidText key

def hardWords (filter : Filter) : List Text :=
  if has filter.flags kClearActionRight then [chars "hard"] else []

def contextWords (filter : Filter) : List Text :=
  filter.context.toList.map fun key => chars "context:" ++ guidText key

def signatureWords (filter : Filter) : List Text :=
  sublayerWord filter :: (chars "action:" ++ decimal filter.actionType.toNat) ::
    (calloutWords filter ++ lifetimeWord filter :: (hardWords filter ++ (contextWords filter ++
      (chars "tag:" ++ hexBytes filter.providerData) ::
        sortTexts (filter.conditions.map conditionText))))

theorem signature_words (filter : Filter) :
    filterSignature filter = spaced ' ' (guidText filter.layerKey) (signatureWords filter) := by
  have sublayer : chars " sublayer:" = ' ' :: chars "sublayer:" := by decide
  have action : chars " action:" = ' ' :: chars "action:" := by decide
  have callout : chars " callout:" = ' ' :: chars "callout:" := by decide
  have persistent : chars " persistent" = ' ' :: chars "persistent" := by decide
  have boottime : chars " boottime" = ' ' :: chars "boottime" := by decide
  have dynamic : chars " dynamic" = ' ' :: chars "dynamic" := by decide
  have hard : chars " hard" = ' ' :: chars "hard" := by decide
  have context : chars " context:" = ' ' :: chars "context:" := by decide
  have tag : chars " tag:" = ' ' :: chars "tag:" := by decide
  have calloutPart : (if has filter.actionType FWP_ACTION_FLAG_CALLOUT then
      chars " callout:" ++ guidText filter.calloutKey else []) =
        (calloutWords filter).flatMap (' ' :: ·) := by
    unfold calloutWords Filter.callout
    split <;> simp [callout]
  have lifetimePart : lifetimeText filter.flags = ' ' :: lifetimeWord filter := by
    unfold lifetimeText lifetimeWord Filter.bootTime
    split
    · exact persistent
    · split
      · exact boottime
      · exact dynamic
  have hardPart : (if has filter.flags kClearActionRight then chars " hard" else []) =
      (hardWords filter).flatMap (' ' :: ·) := by
    unfold hardWords
    split <;> simp [hard]
  have contextPart : (if has filter.flags kHasProviderContext then
      chars " context:" ++ guidText filter.providerContextKey else []) =
        (contextWords filter).flatMap (' ' :: ·) := by
    unfold contextWords Filter.context
    split <;> simp [context]
  unfold filterSignature
  rw [calloutPart, lifetimePart, hardPart, contextPart, sublayer, action, tag]
  simp [spaced, signatureWords, sublayerWord, Filter.bootTime]
  rfl

theorem signatureWords_plain (filter : Filter) :
    ∀ word ∈ guidText filter.layerKey :: signatureWords filter, ' ' ∉ word := by
  have guid : ∀ value, ' ' ∉ guidText value := fun value member => (guidText_word value ' ' member).1 rfl
  have digits : ∀ n, ' ' ∉ decimal n := fun n member => (decimal_word n ' ' member).1 rfl
  have hex : ∀ bytes, ' ' ∉ hexBytes bytes := fun bytes member => (hexBytes_word bytes ' ' member).1 rfl
  have fixed : ∀ word ∈ ["sublayer:", "default", "action:", "callout:", "persistent", "boottime",
      "dynamic", "hard", "context:", "tag:"], ' ' ∉ chars word := by decide
  have behind : ∀ {word : String} {text : Text}, ' ' ∉ chars word → ' ' ∉ text →
      ' ' ∉ chars word ++ text := by
    intro word text plainWord plainText member
    rcases List.mem_append.mp member with inWord | inText
    · exact plainWord inWord
    · exact plainText inText
  intro word member
  simp only [signatureWords, List.mem_cons, List.mem_append] at member
  rcases member with rfl | rfl | rfl | inCallout | rfl | inHard | inContext | rfl | inConditions
  · exact guid _
  · refine behind (fixed "sublayer:" (by simp)) ?_
    split
    · exact fixed "default" (by simp)
    · exact guid _
  · exact behind (fixed "action:" (by simp)) (digits _)
  · obtain ⟨key, -, rfl⟩ := List.mem_map.mp inCallout
    exact behind (fixed "callout:" (by simp)) (guid _)
  · unfold lifetimeWord
    split
    · exact fixed "persistent" (by simp)
    · split
      · exact fixed "boottime" (by simp)
      · exact fixed "dynamic" (by simp)
  · unfold hardWords at inHard
    split at inHard
    · rw [List.mem_singleton.mp inHard]
      exact fixed "hard" (by simp)
    · cases inHard
  · obtain ⟨key, -, rfl⟩ := List.mem_map.mp inContext
    exact behind (fixed "context:" (by simp)) (guid _)
  · exact behind (fixed "tag:" (by simp)) (hex _)
  · have texts : word ∈ filter.conditions.map conditionText := by
      have sorted := List.perm_insertionSort (· ≤ ·) (filter.conditions.map conditionText)
      exact sorted.subset inConditions
    obtain ⟨condition, -, rfl⟩ := List.mem_map.mp texts
    exact conditionText_plain condition

/-! ## What a signature determines -/

/-- What filters with one signature agree in. -/
structure SameEffect (f g : Filter) : Prop where
  layer : f.layerKey = g.layerKey
  persistence : f.persistence = g.persistence
  sublayer : f.bootTime = false → f.subLayerKey = g.subLayerKey
  action : f.actionType = g.actionType
  callout : f.callout = g.callout
  hard : has f.flags kClearActionRight = has g.flags kClearActionRight
  context : f.context = g.context
  tag : f.providerData = g.providerData
  conditions : (f.conditions.map conditionText).Perm (g.conditions.map conditionText)

theorem sublayerWord_eq {f g : Filter} (same : sublayerWord f = sublayerWord g) :
    f.bootTime = g.bootTime ∧ (f.bootTime = false → f.subLayerKey = g.subLayerKey) := by
  have inner := List.append_cancel_left same
  have defaultLength : (chars "default").length = 7 := by decide
  have differs : ∀ value, chars "default" ≠ guidText value := by
    intro value equal
    have lengths := congrArg List.length equal
    rw [defaultLength, guidText_length] at lengths
    omega
  cases bootF : f.bootTime <;> cases bootG : g.bootTime <;> simp [bootF, bootG] at inner ⊢
  · exact guidText_inj inner
  · exact absurd inner.symm (differs _)
  · exact absurd inner (differs _)

theorem lifetimeWord_eq {f g : Filter} (boot : f.bootTime = g.bootTime)
    (same : lifetimeWord f = lifetimeWord g) :
    has f.flags kFilterPersistent = has g.flags kFilterPersistent := by
  have words : chars "persistent" ≠ chars "boottime" ∧ chars "persistent" ≠ chars "dynamic" := by
    decide
  unfold lifetimeWord at same
  rw [boot] at same
  cases persistentF : has f.flags kFilterPersistent <;>
    cases persistentG : has g.flags kFilterPersistent <;>
    cases bootG : g.bootTime <;> simp [persistentF, persistentG, bootG] at same ⊢
  · exact words.2 same.symm
  · exact words.1 same.symm
  · exact words.2 same
  · exact words.1 same

/-- A list of at most one word before another: the words are told apart by their first letter. -/
theorem optional_word_eq {words words' : List Text} {next next' : Text} {rest rest' : List Text}
    {initial : Char} (short : words.length ≤ 1) (short' : words'.length ≤ 1)
    (begins : ∀ word ∈ words, word.head? = some initial)
    (begins' : ∀ word ∈ words', word.head? = some initial)
    (other : next.head? ≠ some initial) (other' : next'.head? ≠ some initial)
    (same : words ++ next :: rest = words' ++ next' :: rest') :
    words = words' ∧ next = next' ∧ rest = rest' := by
  rcases words with _ | ⟨word, _ | _⟩
  · rcases words' with _ | ⟨word', _ | _⟩
    · exact ⟨rfl, List.cons.inj same⟩
    · have isWord : next = word' := (List.cons.inj same).1
      exact absurd (isWord ▸ begins' word' (by simp)) other
    · simp at short'
  · rcases words' with _ | ⟨word', _ | _⟩
    · have isWord : word = next' := (List.cons.inj same).1
      exact absurd (isWord ▸ begins word (by simp)) other'
    · obtain ⟨rfl, tails⟩ := List.cons.inj same
      exact ⟨rfl, List.cons.inj tails⟩
    · simp at short'
  · simp at short

theorem optionWords_short {α β : Type} (o : Option α) (f : α → β) :
    (o.toList.map f).length ≤ 1 := by
  cases o <;> simp

theorem calloutWords_eq {f g : Filter} (same : calloutWords f = calloutWords g) :
    f.callout = g.callout := by
  unfold calloutWords at same
  cases calloutF : f.callout <;> cases calloutG : g.callout <;> simp [calloutF, calloutG] at same ⊢
  exact guidText_inj same

theorem contextWords_eq {f g : Filter} (same : contextWords f = contextWords g) :
    f.context = g.context := by
  unfold contextWords at same
  cases contextF : f.context <;> cases contextG : g.context <;> simp [contextF, contextG] at same ⊢
  exact guidText_inj same

theorem hardWords_eq {f g : Filter} (same : hardWords f = hardWords g) :
    has f.flags kClearActionRight = has g.flags kClearActionRight := by
  unfold hardWords at same
  cases hardF : has f.flags kClearActionRight <;> cases hardG : has g.flags kClearActionRight <;>
    simp [hardF, hardG] at same ⊢

theorem sortTexts_eq_iff {texts texts' : List Text} :
    sortTexts texts = sortTexts texts' ↔ texts.Perm texts' := by
  have perm : ∀ list : List Text, (sortTexts list).Perm list := List.perm_insertionSort (· ≤ ·)
  constructor
  · intro same
    exact (perm texts).symm.trans (same ▸ perm texts')
  · intro images
    have sorted : ∀ list : List Text, (sortTexts list).Pairwise (· ≤ ·) :=
      List.pairwise_insertionSort (· ≤ ·)
    exact ((perm texts).trans (images.trans (perm texts').symm)).eq_of_pairwise
      (fun a b _ _ le le' => le_antisymm le le') (sorted texts) (sorted texts')

/-- **Equal signatures, equal effect.** -/
theorem signature_eq {f g : Filter} (same : filterSignature f = filterSignature g) :
    SameEffect f g := by
  rw [signature_words, signature_words] at same
  obtain ⟨layer, words⟩ := spaced_inj (signatureWords_plain f) (signatureWords_plain g) same
  obtain ⟨sublayers, words⟩ := List.cons.inj words
  obtain ⟨actions, words⟩ := List.cons.inj words
  obtain ⟨boot, sublayer⟩ := sublayerWord_eq sublayers
  have headChar : ∀ {literal : String} {c : Char} (text : Text), (chars literal).head? = some c →
      (chars literal ++ text).head? = some c := by
    intro literal c text first
    rw [List.head?_append, first]
    rfl
  have lifetimeHead : ∀ h : Filter, (lifetimeWord h).head? ≠ some 'c' := by
    intro h
    unfold lifetimeWord
    split
    · decide
    · split <;> decide
  have calloutHead : ∀ h : Filter, ∀ word ∈ calloutWords h, word.head? = some 'c' := by
    intro h word member
    obtain ⟨key, -, rfl⟩ := List.mem_map.mp member
    exact headChar _ (by decide)
  have contextHead : ∀ h : Filter, ∀ word ∈ contextWords h, word.head? = some 'c' := by
    intro h word member
    obtain ⟨key, -, rfl⟩ := List.mem_map.mp member
    exact headChar _ (by decide)
  have hardHead : ∀ h : Filter, ∀ word ∈ hardWords h, word.head? = some 'h' := by
    intro h word member
    unfold hardWords at member
    split at member
    · rw [List.mem_singleton.mp member]
      decide
    · cases member
  have hardShort : ∀ h : Filter, (hardWords h).length ≤ 1 := by
    intro h
    unfold hardWords
    split <;> simp
  have tagHead : ∀ h : Filter, (chars "tag:" ++ hexBytes h.providerData).head? = some 't' :=
    fun h => headChar _ (by decide)
  obtain ⟨callouts, lifetimes, words⟩ := optional_word_eq (optionWords_short _ _)
    (optionWords_short _ _) (calloutHead f) (calloutHead g) (lifetimeHead f) (lifetimeHead g) words
  -- the word after the optional `hard` is a context or the tag, never an `h`
  have afterHard : ∀ h : Filter, ∃ next rest, contextWords h ++ (chars "tag:" ++ hexBytes h.providerData) ::
      sortTexts (h.conditions.map conditionText) = next :: rest ∧ next.head? ≠ some 'h' := by
    intro h
    unfold contextWords
    cases context : h.context with
    | none => exact ⟨_, _, rfl, by rw [tagHead]; decide⟩
    | some key => exact ⟨_, _, rfl, by rw [headChar _ (c := 'c') (by decide)]; decide⟩
  obtain ⟨nextF, restF, shapeF, otherF⟩ := afterHard f
  obtain ⟨nextG, restG, shapeG, otherG⟩ := afterHard g
  rw [shapeF, shapeG] at words
  obtain ⟨hards, nexts, rests⟩ := optional_word_eq (hardShort f) (hardShort g) (hardHead f) (hardHead g)
    otherF otherG words
  have words : contextWords f ++ (chars "tag:" ++ hexBytes f.providerData) ::
      sortTexts (f.conditions.map conditionText) =
      contextWords g ++ (chars "tag:" ++ hexBytes g.providerData) ::
        sortTexts (g.conditions.map conditionText) := by
    rw [shapeF, shapeG, nexts, rests]
  obtain ⟨contexts, tags, conditions⟩ := optional_word_eq (optionWords_short _ _)
    (optionWords_short _ _) (contextHead f) (contextHead g) (by rw [tagHead]; decide)
    (by rw [tagHead]; decide) words
  exact {
    layer := guidText_inj layer
    persistence := Prod.ext (lifetimeWord_eq boot lifetimes) boot
    sublayer := sublayer
    action := UInt32.toNat_inj.mp (decimal_inj (List.append_cancel_left actions))
    callout := calloutWords_eq callouts
    hard := hardWords_eq hards
    context := contextWords_eq contexts
    tag := hexBytes_inj (List.append_cancel_left tags)
    conditions := sortTexts_eq_iff.mp conditions }

/-- Where one filter's conditions are spelled out, the conditions agree themselves. -/
theorem SameEffect.conditions_perm {f g : Filter} (effect : SameEffect f g)
    (spelled : ∀ condition ∈ f.conditions, condition.conditionValue.Spelled) :
    f.conditions.Perm g.conditions :=
  perm_of_map_perm (fun a member _ same => conditionText_inj (spelled a member) same) effect.conditions

/-- A filter's key is not part of its signature. -/
theorem filterSignature_key (f : Filter) (key : Guid) :
    filterSignature { f with filterKey := key } = filterSignature f := rfl

/-- A boot-time filter's sublayer is not part of its signature. -/
theorem filterSignature_bootTime {f : Filter} (boot : f.bootTime = true) (sublayer : Guid) :
    filterSignature { f with subLayerKey := sublayer } = filterSignature f := by
  have flag : has f.flags kFilterBootTime = true := boot
  simp [filterSignature, flag]

/-! ## Sets of filters -/

theorem draft_spelled (rule : FilterRule) (app : AppEntry) (context : Guid) (ip : UInt32)
    (bootTime : Bool) :
    ∀ condition ∈ (draftFilter rule app context ip bootTime).conditions,
      condition.conditionValue.Spelled := by
  intro condition member
  simp only [draftFilter, List.mem_cons, List.mem_append] at member
  rcases member with rfl | inLoopback | inTunnel
  · trivial
  · split at inLoopback
    · rw [List.mem_singleton.mp inLoopback]
      trivial
    · cases inLoopback
  · split at inTunnel
    · rw [List.mem_singleton.mp inTunnel]
      trivial
    · cases inTunnel

/-- The application is determined by a draft's tag and conditions. -/
theorem draft_app_eq {rule rule' : FilterRule} {app app' : AppEntry} {context context' : Guid}
    {ip ip' : UInt32} {boot boot' : Bool}
    (effect : SameEffect (draftFilter rule app context ip boot) (draftFilter rule' app' context' ip' boot')) :
    app = app' := by
  have conditions := effect.conditions_perm (draft_spelled rule app context ip boot)
  have tag : app.tag = app'.tag := effect.tag
  have present : appCondition app ∈ (draftFilter rule' app' context' ip' boot').conditions :=
    conditions.subset List.mem_cons_self
  have appId : app.appId = app'.appId := by
    simp only [draftFilter, List.mem_cons, List.mem_append] at present
    rcases present with isApp | inLoopback | inTunnel
    · simpa [appCondition] using isApp
    · split at inLoopback
      · exact absurd (List.mem_singleton.mp inLoopback) (by simp [appCondition, loopbackCondition])
      · cases inLoopback
    · split at inTunnel
      · exact absurd (List.mem_singleton.mp inTunnel) (by simp [appCondition, tunnelCondition])
      · cases inTunnel
  cases app
  cases app'
  simp_all

theorem mem_forEachFilter {apps : List AppEntry} {context : Guid} {ip : UInt32} {redirects : Bool}
    {filter : Filter} (member : filter ∈ forEachFilter apps context ip redirects) :
    ∃ app ∈ apps, ∃ rule ∈ kRules, ∃ boot,
      filter = draftFilter rule app context ip boot ∧ (boot = true → rule.callout = none) := by
  obtain ⟨app, inApps, inRules⟩ := List.mem_flatMap.mp member
  obtain ⟨rule, inKRules, inFilters⟩ := List.mem_flatMap.mp inRules
  refine ⟨app, inApps, rule, inKRules, ?_⟩
  unfold ruleFilters at inFilters
  split at inFilters
  next =>
    split at inFilters
    next => exact ⟨false, List.mem_singleton.mp inFilters, by simp⟩
    next => cases inFilters
  next block =>
    have noCallout : rule.callout = none := by simpa using block
    rcases List.mem_cons.mp inFilters with rfl | second
    · exact ⟨false, rfl, by simp⟩
    · exact ⟨true, List.mem_singleton.mp second, fun _ => noCallout⟩

/-- The signatures of one application's filters. -/
def appSignatures (context : Guid) (ip : UInt32) (app : AppEntry) : List Text :=
  (kRules.flatMap (ruleFilters app context ip true)).map filterSignature

/-- The signature of the first rule's filter marks the application. -/
def markSignature (context : Guid) (ip : UInt32) (app : AppEntry) : Text :=
  filterSignature (draftFilter
    ⟨kLayerBindV4, FWP_ACTION_CALLOUT_TERMINATING, some kCalloutBind, false, false⟩ app context ip false)

theorem count_markSignature (context : Guid) (ip : UInt32) (app other : AppEntry) :
    (appSignatures context ip other).count (markSignature context ip app) =
      if app = other then 1 else 0 := by
  split
  next same =>
    subst same
    -- the other filters of the application lie in other layers
    have elsewhere : ∀ text ∈ ((kRules.tail.flatMap (ruleFilters app context ip true)).map
        filterSignature), text ≠ markSignature context ip app := by
      intro text member equal
      obtain ⟨filter, inFilters, rfl⟩ := List.mem_map.mp member
      have layer := (signature_eq equal).layer
      obtain ⟨rule, inTail, inRule⟩ := List.mem_flatMap.mp inFilters
      have ofRule : filter.layerKey = rule.layer := by
        unfold ruleFilters at inRule
        split at inRule
        · simp only [if_true, List.mem_singleton] at inRule
          rw [inRule]
          rfl
        · rcases List.mem_cons.mp inRule with rfl | second
          · rfl
          · rw [List.mem_singleton.mp second]
            rfl
      have bindElsewhere : ∀ rule ∈ kRules.tail, rule.layer ≠ kLayerBindV4 := by decide
      exact bindElsewhere rule inTail (ofRule.symm.trans layer)
    have shape : appSignatures context ip app =
        markSignature context ip app :: (kRules.tail.flatMap (ruleFilters app context ip true)).map
          filterSignature := rfl
    rw [shape, List.count_cons_self, List.count_eq_zero_of_not_mem fun member => elsewhere _ member rfl]
  next different =>
    apply List.count_eq_zero_of_not_mem
    intro member
    obtain ⟨filter, inFilters, equal⟩ := List.mem_map.mp member
    have inEach : filter ∈ forEachFilter [other] context ip true := by
      simpa [forEachFilter] using inFilters
    obtain ⟨app', inApps, rule, -, boot, rfl, -⟩ := mem_forEachFilter inEach
    rw [List.mem_singleton.mp inApps] at equal
    exact different (draft_app_eq (signature_eq equal)).symm

/-- **The applications are determined by the signatures**, up to order and for one context and
tunnel address. -/
theorem signatures_perm_iff (apps apps' : List AppEntry) (context : Guid) (ip : UInt32) :
    ((forEachFilter apps context ip true).map filterSignature).Perm
        ((forEachFilter apps' context ip true).map filterSignature) ↔ apps.Perm apps' := by
  have shape : ∀ list : List AppEntry, (forEachFilter list context ip true).map filterSignature =
      list.flatMap (appSignatures context ip) := by
    intro list
    rw [forEachFilter, List.map_flatMap]
    rfl
  have counts : ∀ (list : List AppEntry) (app : AppEntry),
      (list.flatMap (appSignatures context ip)).count (markSignature context ip app) =
        list.count app := by
    intro list app
    induction list with
    | nil => simp
    | cons other list ih =>
      rw [List.flatMap_cons, List.count_append, count_markSignature, ih, List.count_cons]
      by_cases same : app = other
      · subst same
        simp [Nat.add_comm]
      · have swapped : ¬ other = app := fun equal => same equal.symm
        simp [same, swapped]
  rw [shape, shape]
  constructor
  · intro images
    rw [List.perm_iff_count]
    intro app
    rw [← counts apps app, ← counts apps' app]
    exact images.count_eq _
  · intro lists
    exact lists.flatMap_right _

end ProgramSplit.Windows.Wfp
