/-
# Linux.PolicyTrip — the stored policy on its way to the kernel and back

The stored strings become records, keys of the policy maps, printed entries and
Python strings again, which the controller compares with the stored ones.

* `stored_policy_survives_iff` — the trip returns the stored strings exactly when
  none of them spells a character with surrogate escapes.
* `listed_executables_included` — the classifier includes exactly what the settings list.
* `escaped_accent_refused` — the loader refuses a policy that does.
-/
import ProgramSplit.Linux.PolicyPrint

namespace ProgramSplit.Linux.Policy

set_option autoImplicit false

open Lib

/-! ## The trip -/

/-- The stored policy reaches the kernel as distinct keys of its own bytes, and what the
controller reads back is the stored policy: as a set, and in its own comparison of
sorted lists. -/
def Survives (policy : List PyStr) : Prop :=
  ∃ stream keys loaded, loadStream policy = .ok stream ∧ readPolicyStdin stream = .ok keys ∧
    keys.Nodup ∧ keys.map (fun key => some key.text) = policy.map fsencode ∧
    initializePaths keys .fresh = (.ok (), loaded) ∧
    ∀ walk, ∃ entries observed, policyEntries walk loaded = .ok entries ∧
      snapshotPaths entries = some observed ∧ observed.toFinset = policy.toFinset ∧
      pySorted observed = pySorted policy

theorem pySorted_eq_of_perm {a b : List PyStr} (perm : a.Perm b) : pySorted a = pySorted b := by
  have injective : Function.Injective (List.map CodePoint.ord) :=
    List.map_injective_iff.mpr CodePoint.ord_injective
  refine List.Perm.eq_of_pairwise ?_ (List.pairwise_insertionSort pyLE a)
    (List.pairwise_insertionSort pyLE b)
    ((List.perm_insertionSort pyLE a).trans (perm.trans (List.perm_insertionSort pyLE b).symm))
  intro x y _ _ xy yx
  exact injective (le_antisymm xy yx)

theorem resolveAll_ok {values : List Value} {paths : List PyStr}
    (resolved : resolveAll values = .ok paths) :
    paths.length = values.length ∧ ∀ path ∈ paths, ∃ text, fsencode path = some text ∧ KeyText text := by
  induction values generalizing paths with
  | nil =>
    cases resolved
    exact ⟨rfl, by simp⟩
  | cons value values ih =>
    unfold resolveAll at resolved
    split at resolved
    · cases resolved
    rename_i path accepted
    split at resolved
    · cases resolved
    rename_i rest resolved_rest
    obtain rfl := Except.ok.inj resolved
    obtain ⟨length, texts⟩ := ih resolved_rest
    refine ⟨by simp [length], fun path' mem => ?_⟩
    rcases List.mem_cons.mp mem with rfl | later
    · cases value with
      | other => cases accepted
      | text s =>
        obtain ⟨rfl, bytes, encodes, fits, clean, canonical⟩ := accepted_keyTexts accepted
        exact ⟨bytes, encodes, canonical, fits, clean⟩
    · exact texts path' later

/-- An accepted policy: distinct strings, at most 1024, each with bytes for a key. -/
theorem parsePolicy_ok {data : SettingsData} {policy : List PyStr}
    (accepted : parsePolicy data = .ok policy) :
    policy.Nodup ∧ policy.length ≤ 1024 ∧ ∃ texts,
      List.Forall₂ (fun path text => fsencode path = some text ∧ KeyText text) policy texts := by
  unfold parsePolicy at accepted
  split at accepted
  · cases accepted
  rename_i schema
  push Not at schema
  split at accepted
  · cases accepted
  rename_i paths resolved
  split at accepted
  · cases accepted
  rename_i distinct
  obtain rfl := Except.ok.inj accepted
  obtain ⟨length, texts⟩ := resolveAll_ok resolved
  have perm : (pySorted paths).Perm paths := List.perm_insertionSort pyLE paths
  refine ⟨perm.nodup_iff.mpr (not_not.mp distinct), by rw [perm.length_eq, length]; exact schema.2, ?_⟩
  have each : ∀ path ∈ pySorted paths, ∃ text, fsencode path = some text ∧ KeyText text :=
    fun path mem => texts path (perm.mem_iff.mp mem)
  generalize pySorted paths = sorted at each
  induction sorted with
  | nil => exact ⟨[], .nil⟩
  | cons path rest ih =>
    obtain ⟨text, here⟩ := each path List.mem_cons_self
    obtain ⟨texts, there⟩ := ih fun path mem => each path (List.mem_cons_of_mem _ mem)
    exact ⟨text :: texts, .cons here there⟩

/-- What the controller reads back is decoded from the kernel's entries, so it is canonical. -/
theorem Survives.canonical {policy : List PyStr} (survives : Survives policy) :
    ∀ path ∈ policy, Canonical path := by
  obtain ⟨stream, keys, loaded, -, -, -, -, -, read⟩ := survives
  obtain ⟨entries, observed, -, snapshot, same, -⟩ := read ⟨fun keys => keys, fun _ => .refl _⟩
  obtain ⟨observed', snapshot', decoded⟩ := policyJson_decodes entries
  obtain rfl := Option.some.inj (snapshot.symm.trans snapshot')
  intro path mem
  have in_observed : path ∈ observed := by
    rw [← List.mem_toFinset, same, List.mem_toFinset]
    exact mem
  obtain ⟨index, within, rfl⟩ := List.mem_iff_getElem.mp in_observed
  exact (List.Forall₂.get decoded (by rwa [decoded.length_eq]) within).canonical

theorem records_of_texts {policy : List PyStr} {texts : List Bytes}
    (encoded : List.Forall₂ (fun path text => fsencode path = some text ∧ KeyText text) policy texts)
    (few : policy.length ≤ 1024) : loadStream policy = .ok (records texts) := by
  rw [loadStream, loadRecords_texts encoded [] (by simpa using few)]
  rfl

section

variable {policy : List PyStr} {texts : List Bytes}
  (encoded : List.Forall₂ (fun path text => fsencode path = some text ∧ KeyText text) policy texts)

include encoded

theorem keyTexts_of_encoded : ∀ text ∈ texts, KeyText text := by
  induction encoded with
  | nil => simp
  | cons here _ ih =>
    intro text mem
    rcases List.mem_cons.mp mem with rfl | later
    · exact here.2
    · exact ih text later

theorem map_fsencode : policy.map fsencode = texts.map some := by
  induction encoded with
  | nil => rfl
  | cons here _ ih => rw [List.map_cons, List.map_cons, here.1, ih]

theorem decoded_of_canonical (canonical : ∀ path ∈ policy, Canonical path) :
    List.Forall₂ Decodes texts policy := by
  induction encoded with
  | nil => exact .nil
  | cons here _ ih =>
    refine .cons (decodes_of_canonical (canonical _ List.mem_cons_self) here.1) (ih ?_)
    exact fun path mem => canonical path (List.mem_cons_of_mem _ mem)

/-- Canonical paths make the whole trip. -/
theorem survives_of_canonical (distinct : policy.Nodup) (few : policy.length ≤ 1024)
    (canonical : ∀ path ∈ policy, Canonical path) : Survives policy := by
  have decoded := decoded_of_canonical encoded canonical
  have texts_distinct : texts.Nodup := (List.rel_nodup Decodes.biUnique decoded).mpr distinct
  have keyTexts := keyTexts_of_encoded encoded
  have length := encoded.length_eq
  have total : 0 + (records texts).length ≤ 1024 * PATH_BYTES := by
    have each := records_length keyTexts
    have all : texts.length * PATH_BYTES ≤ 1024 * PATH_BYTES := Nat.mul_le_mul_right _ (by omega)
    omega
  obtain ⟨keys, read, spelled⟩ :=
    (readStdin_records keyTexts [] [] 0 (by simp; omega) total).1 ⟨texts_distinct, by simp⟩
  have keys_distinct : keys.Nodup := List.Nodup.of_map _ (spelled ▸ texts_distinct)
  have room : keys.length ≤ 1024 := by
    have same := congrArg List.length spelled
    rw [List.length_map] at same
    omega
  obtain ⟨loaded, initialized, represents⟩ := initializePaths_refines keys_distinct room
  refine ⟨records texts, keys, loaded, records_of_texts encoded few, read, keys_distinct, ?_,
    initialized, fun walk => ?_⟩
  · rw [map_fsencode encoded, ← spelled, List.map_map]
    rfl
  · have members : (PolicySet.ofKeys keys room).members = texts.toFinset := by
      show (keys.map (·.text)).toFinset = _
      rw [spelled]
    have entries := represents.policyEntries_eq walk
    rw [members] at entries
    obtain ⟨observed, snapshot, read_back⟩ := policyJson_decodes texts.toFinset
    have order : (texts.toFinset.sort byteLE).Perm texts :=
      (Finset.sort_perm_toList _ _).trans (List.toFinset_toList texts_distinct)
    obtain ⟨observed', related, perm⟩ := List.perm_comp_forall₂ order.symm read_back
    obtain rfl : observed' = policy :=
      List.right_unique_forall₂' Decodes.biUnique.2 related decoded
    exact ⟨_, observed, entries, snapshot, List.toFinset_eq_of_perm _ _ perm.symm,
      pySorted_eq_of_perm perm.symm⟩

end

/-- **The stored policy survives the trip exactly when every string is canonical**: when
no run of surrogate escapes in it spells a character. -/
theorem stored_policy_survives_iff (data : SettingsData) (policy : List PyStr)
    (accepted : parsePolicy data = .ok policy) :
    Survives policy ↔ ∀ path ∈ policy, Canonical path := by
  obtain ⟨distinct, few, texts, encoded⟩ := parsePolicy_ok accepted
  exact ⟨Survives.canonical, survives_of_canonical encoded distinct few⟩

/-- **The classifier includes exactly what the settings list.**  If the loader reads the stream of
an accepted policy, the maps it loads answer for every linked executable by whether its path is a
listed one. -/
theorem listed_executables_included (data : SettingsData) (policy : List PyStr)
    (accepted : parsePolicy data = .ok policy) : ∃ stream, loadStream policy = .ok stream ∧
      ∀ keys, readPolicyStdin stream = .ok keys → ∃ loaded, initializePaths keys .fresh = (.ok (), loaded) ∧
        ∀ exe work, ExecutablePath exe.dpath → linkedFile exe = true →
          (resolvePolicy loaded exe work).1 = if some exe.dpath ∈ policy.map fsencode then .included
          else .direct := by
  obtain ⟨-, few, texts, encoded⟩ := parsePolicy_ok accepted
  refine ⟨records texts, records_of_texts encoded few, fun keys read => ?_⟩
  have keyTexts := keyTexts_of_encoded encoded
  have count : texts.length ≤ 1024 := encoded.length_eq ▸ few
  have total := (records_length keyTexts).trans (Nat.mul_le_mul_right PATH_BYTES count)
  obtain ⟨reads, refuses⟩ := readStdin_records keyTexts [] [] 0 (by simpa using count) (by simpa using total)
  by_cases distinct : texts.Nodup ∧ ∀ text ∈ texts, text ∉ []
  · obtain ⟨new, done, spelled⟩ := reads distinct
    obtain rfl := Except.ok.inj (read.symm.trans done)
    have room : keys.length ≤ 1024 := by rw [← List.length_map, spelled]; exact count
    obtain ⟨loaded, initialized, represents⟩ :=
      initializePaths_refines (List.Nodup.of_map _ (spelled ▸ distinct.1)) room
    refine ⟨loaded, initialized, fun exe work path linked => ?_⟩
    rw [represents.resolvePolicy_linked path linked work, map_fsencode encoded, ← spelled]
    simp [PolicySet.ofKeys]
  · obtain ⟨reason, failed⟩ := refuses distinct
    cases read.symm.trans failed

/-! ## Poles -/

/-- `/é`. -/
def accented : PyStr :=
  [slash, .scalar (Char.ofNat 0xe9)]

/-- The same file name, with the two bytes of `é` as surrogate escapes. -/
def escapedAccent : PyStr :=
  [slash, .escape 0xc3, .escape 0xa9]

/-- The settings that list both. -/
def bothAccents : SettingsData :=
  ⟨1, [.text accented, .text escapedAccent]⟩

/-- A plain path is accepted and survives. -/
theorem stored_policy_survives_plain :
    parsePolicy ⟨1, [.text (py "/a")]⟩ = .ok [py "/a"] ∧ Survives [py "/a"] := by
  have accepted : parsePolicy ⟨1, [.text (py "/a")]⟩ = .ok [py "/a"] := by decide +kernel
  refine ⟨accepted, (stored_policy_survives_iff _ _ accepted).mpr ?_⟩
  intro path mem c beyond spelled
  obtain rfl := List.mem_singleton.mp mem
  obtain ⟨lead, tail, shape⟩ := List.exists_cons_of_ne_nil (String.utf8EncodeChar_ne_nil (c := c))
  rw [shape, List.map_cons] at spelled
  have first : CodePoint.escape lead ∈ py "/a" := spelled.subset List.mem_cons_self
  simp [py, CodePoint.escape] at first

/-- `/a` is listed, and a linked `/a` is included. -/
theorem listed_executables_included_plain : ∃ keys loaded, initializePaths keys .fresh = (.ok (), loaded) ∧
    (resolvePolicy loaded ⟨true, 1, true, false, [0x2f, 0x61]⟩ ⟨[], []⟩).1 = .included := by
  obtain ⟨stream, sent, classified⟩ :=
    listed_executables_included ⟨1, [.text (py "/a")]⟩ [py "/a"] (by decide +kernel)
  have bytes : loadStream [py "/a"] = .ok [0x2f, 0x61, 0] := by decide +kernel
  obtain rfl := Except.ok.inj (bytes.symm.trans sent)
  obtain ⟨loaded, initialized, included⟩ := classified [PathKey.a] (by rfl)
  exact ⟨_, loaded, initialized, (included _ _ ⟨rfl, by decide, by decide, by decide⟩ rfl).trans
    (if_pos (by decide +kernel))⟩

/-- Two entries with the bytes of one file name: both are accepted, and the loader
refuses the stream of that policy. -/
theorem escaped_accent_refused :
    parsePolicy bothAccents = .ok [accented, escapedAccent] ∧
      loadStream [accented, escapedAccent] = .ok [0x2f, 0xc3, 0xa9, 0, 0x2f, 0xc3, 0xa9, 0] ∧
      readPolicyStdin [0x2f, 0xc3, 0xa9, 0, 0x2f, 0xc3, 0xa9, 0] =
        .error "invalid policy stdin record/count" ∧
      ¬ Survives [accented, escapedAccent] := by
  have sent : loadStream [accented, escapedAccent] =
      .ok [0x2f, 0xc3, 0xa9, 0, 0x2f, 0xc3, 0xa9, 0] := by decide +kernel
  have refused : (readPolicyStdin [0x2f, 0xc3, 0xa9, 0, 0x2f, 0xc3, 0xa9, 0]) =
      .error "invalid policy stdin record/count" := by rfl
  refine ⟨by decide +kernel, sent, refused, ?_⟩
  rintro ⟨stream, keys, loaded, sent', read, -⟩
  obtain rfl := Except.ok.inj (sent.symm.trans sent')
  cases read

end ProgramSplit.Linux.Policy
