/-
# Windows.FilterProtection — what the filters of a store block

Drafts and store are compared by texts.  What counts is which attempts the project's filters in the
store block.

* `verified_protects` — **a store that passes verification blocks exactly what leaves the tunnel**,
  whoever wrote it.
* `install_protects` — an installation replaces what is blocked as a whole or not at all.
-/
import ProgramSplit.Windows.FilterExact
import ProgramSplit.Windows.FilterMatch

namespace ProgramSplit.Windows.Wfp

set_option autoImplicit false

open Lib

/-- The project's hard blocks of each lifetime match exactly what leaves the tunnel. -/
def Protects (t : Store) (apps : List AppEntry) (ip : UInt32) : Prop :=
  ∀ (engine : Matcher) (attempt : Attempt) (lifetime : Lifetime),
    (∃ id f, t.filters.lookup id = some f ∧ ownedBy f.providerKey = true ∧ f.hardBlock = true ∧
      f.lives lifetime = true ∧ engine.matches attempt f = true) ↔ LeavesTunnel apps ip attempt

/-- Filters with one signature block the same attempts. -/
theorem SameEffect.blocks {f g : Filter} (effect : SameEffect f g)
    (spelled : ∀ condition ∈ f.conditions, condition.conditionValue.Spelled) (engine : Matcher)
    (attempt : Attempt) (lifetime : Lifetime) :
    (f.hardBlock = true ∧ f.lives lifetime = true ∧ engine.matches attempt f = true) ↔
      (g.hardBlock = true ∧ g.lives lifetime = true ∧ engine.matches attempt g = true) := by
  have conditions := effect.conditions_perm spelled
  obtain ⟨persistent, boot⟩ := Prod.mk.inj effect.persistence
  have lives : f.lives lifetime = g.lives lifetime := by
    cases lifetime with
    | persistent => exact persistent
    | bootTime => exact boot
  simp only [Filter.hardBlock, Filter.block, Matcher.matches, effect.action, effect.hard, effect.layer, lives,
    Bool.and_eq_true, List.all_eq_true, List.any_eq_true, conditions.mem_iff]

theorem Attempt.layer_mem (attempt : Attempt) : attempt.layer ∈ filterLayers := by
  obtain ⟨rule, inRules, -, -, layer⟩ := block_rule_of attempt
  have layers : ∀ rule ∈ kRules, rule.layer ∈ filterLayers := by decide +kernel
  exact layer ▸ layers rule inRules

section Stores

variable {s t : Store} {apps : List AppEntry} {ip : UInt32}

theorem protects_of_signatures {key : Guid} {redirects : Bool}
    (signatures : ((values filterVisible t.filters).map filterSignature).Perm
      ((forEachFilter apps key ip redirects).map filterSignature)) : Protects t apps ip := by
  intro engine attempt lifetime
  rw [← blocks_iff engine key ip redirects apps attempt lifetime]
  have spelled := fun filter member => (forEachFilter_visible apps key ip redirects filter member).2
  constructor
  · rintro ⟨id, f, present, isOwned, blocks⟩
    -- a filter that matches lies in a layer that the snapshot shows
    have layer : f.layerKey = attempt.layer := beq_iff_eq.mp ((Bool.and_eq_true _ _).mp blocks.2.2).1
    have visible : filterVisible f = true := by
      simp [filterVisible, isOwned, layer, attempt.layer_mem]
    have inStore := List.mem_map_of_mem (f := filterSignature) (mem_values.mpr ⟨id, present, visible⟩)
    obtain ⟨g, inSet, same⟩ := List.mem_map.mp (signatures.mem_iff.mp inStore)
    exact ⟨g, inSet, ((signature_eq same).blocks (spelled g inSet) engine attempt lifetime).mpr blocks⟩
  · rintro ⟨g, inSet, blocks⟩
    obtain ⟨f, inStore, same⟩ := List.mem_map.mp (signatures.mem_iff.mpr (List.mem_map_of_mem inSet))
    obtain ⟨id, present, visible⟩ := mem_values.mp inStore
    have isOwned : ownedBy f.providerKey = true := ((Bool.and_eq_true _ _).mp visible).1
    exact ⟨id, f, present, isOwned, ((signature_eq same.symm).blocks
      (spelled g inSet) engine attempt lifetime).mp blocks⟩

theorem Installed.protects {foreign : Bool} (installed : Installed s apps ip foreign t) :
    Protects t apps ip := by
  obtain ⟨missing, key, -, shape⟩ := installed
  exact protects_of_signatures (shape.filters.signatures.trans ((List.reverse_perm _).map _))

/-- **A store that passes verification protects the list it was verified for**, whatever wrote it. -/
theorem verified_protects (t : Store) (apps : List AppEntry) (ip : UInt32)
    (verified : describeMismatch (t.owned false) apps ip = "") : Protects t apps ip := by
  obtain ⟨-, -, -, context, -, -, -, -, signatures⟩ := (describeMismatch_eq_empty _ apps ip).mp verified
  exact protects_of_signatures ((owned_signatures_perm t).symm.trans signatures)

/-- **Protection is never torn**: an installation on any store, whatever fails and wherever it dies,
leaves the store as it is and does not succeed, or the store protects its list. -/
theorem install_protects (s : Store) (apps : List AppEntry) (ip : UInt32) (answers : List Answer) :
    (install apps ip ⟨s, none⟩ answers).1 ≠ .ok () ∧ (install apps ip ⟨s, none⟩ answers).2.1.store = s ∨
      Protects (install apps ip ⟨s, none⟩ answers).2.1.store apps ip := by
  refine (install_meets s apps ip).after (J := fun outcome w => outcome ≠ .ok () ∧ w.store = s ∨
    Protects w.store apps ip)
    (w := ⟨s, none⟩) rfl (fun (answer : Answer) (_ : answer ∈ answers) => trivial) ?_ ?_ ?_
  · exact fun _ w installed => .inr installed.protects
  · rintro e w (same | ⟨-, installed⟩)
    · exact .inl ⟨nofun, same⟩
    · exact .inr installed.protects
  · exact fun w same => .inl ⟨nofun, same⟩

end Stores

theorem verified_protects_curl : Protects installedStore [curlApp] 0x0a000002 :=
  verified_protects _ _ _ ((describeMismatch_iff installedStore_installed _ _).mpr ⟨rfl, .refl _⟩)

end ProgramSplit.Windows.Wfp
