import Polyglot.Check.Coverage
import Polyglot.Proofs.Signatures

/-!
# The steps of the coverage check

The check takes in catalogs, and notes what each of them lacks. A key that is new is lacked by all the
catalogs so far. When a round is closed, what the reference lacks is dropped.

* `lackedBy`: the keys that a locale is known to lack;
* `Extends`, `add_extends`: what is known more after a catalog has been taken in;
* `Reduces`, `close_reduces`: what is known less after a round has been closed.
-/

namespace Polyglot

namespace Catalog

lemma mem_exposedKeys_iff {c : Catalog} {key : String} :
    key ∈ c.exposedKeys ↔ c.exposed? key ≠ none := by
  unfold exposedKeys
  rw [Option.ne_none_iff_exists', List.mem_map]
  constructor
  · rintro ⟨e, he, rfl⟩
    exact ⟨e.2, mem_exposed_iff.1 he⟩
  · rintro ⟨m, hm⟩
    exact ⟨(key, m), mem_exposed_iff.2 hm, rfl⟩

end Catalog

namespace Coverage

/-! ### What a catalog does -/

/-- The keys that a locale is known to lack. -/
def lackedBy (c : Coverage) (id : String) : List String :=
  (c.missing.find? id).getD []

/-- No locale is listed with nothing to lack. -/
def Filled (c : Coverage) : Prop :=
  ∀ id, c.missing.find? id ≠ some []

/-- `c'` knows what `c` knows, and besides that the keys in `met` and that locales lack what `lacked`
says. -/
structure Extends (c c' : Coverage) (met : String → Prop) (lacked : String → String → Prop) : Prop where
  known : c'.known = c.known
  reference : c'.reference = c.reference
  keys : ∀ key, key ∈ c'.keys.keys ↔ key ∈ c.keys.keys ∨ met key
  lackedBy : ∀ id key, key ∈ c'.lackedBy id ↔ key ∈ c.lackedBy id ∨ lacked id key
  filled : c.Filled → c'.Filled

/-- One extension after the other; what they add together may be said in other words. -/
lemma Extends.trans {c d e : Coverage} {met met' met'' : String → Prop}
    {lacked lacked' lacked'' : String → String → Prop} (h : Extends c d met lacked)
    (h' : Extends d e met' lacked') (hmet : ∀ key, met'' key ↔ met key ∨ met' key)
    (hlacked : ∀ id key, lacked'' id key ↔ lacked id key ∨ lacked' id key) :
    Extends c e met'' lacked'' where
  known := h'.known.trans h.known
  reference := h'.reference.trans h.reference
  keys key := by rw [h'.keys, h.keys, hmet, or_assoc]
  lackedBy id key := by rw [h'.lackedBy, h.lackedBy, hlacked, or_assoc]
  filled hc := h'.filled (h.filled hc)

section Step

variable (c : Coverage)

lemma extends_refl {met : String → Prop} {lacked : String → String → Prop} (hmet : ∀ key, ¬ met key)
    (hlacked : ∀ id key, ¬ lacked id key) : Extends c c met lacked where
  known := rfl
  reference := rfl
  keys key := (or_iff_left (hmet key)).symm
  lackedBy id key := (or_iff_left (hlacked id key)).symm
  filled := id

lemma extends_lacks (key id : String) :
    Extends c (lacks key c id) (fun _ => False) (fun other k => other = id ∧ k = key) where
  known := rfl
  reference := rfl
  keys _ := (or_iff_left not_false).symm
  lackedBy other k := by
    unfold lackedBy lacks append
    rw [KeyMap.find?_insert]
    by_cases h : other = id <;> simp [h]
  filled hc other := by
    unfold lacks append
    rw [KeyMap.find?_insert]
    split
    · simp
    · exact hc other

/-- Some locales lack one key. -/
lemma extends_foldl_lacks (key : String) (ids : List String) :
    Extends c (ids.foldl (lacks key) c) (fun _ => False) (fun other k => other ∈ ids ∧ k = key) := by
  induction ids generalizing c with
  | nil => exact extends_refl c (by simp) (by simp)
  | cons id ids ih =>
    refine (extends_lacks c key id).trans (ih _) (by simp) fun other k => ?_
    rw [List.mem_cons, or_and_right]

/-- One locale lacks some keys. -/
lemma extends_foldl_absent (id : String) (absent : List String) :
    Extends c (absent.foldl (fun c key => lacks key c id) c) (fun _ => False)
      (fun other k => other = id ∧ k ∈ absent) := by
  induction absent generalizing c with
  | nil => exact extends_refl c (by simp) (by simp)
  | cons key absent ih =>
    refine (extends_lacks c key id).trans (ih _) (by simp) fun other k => ?_
    rw [List.mem_cons, and_or_left]

lemma mem_keys_iff_contains (key : String) : key ∈ c.keys.keys ↔ c.keys.contains key = true := by
  rw [KeyMap.mem_keys_iff, KeyMap.contains_iff, Option.ne_none_iff_exists']

/-- A key that is new is lacked by all the locales so far. -/
lemma extends_addKey (id key : String) :
    Extends c (addKey id c key) (· = key)
      (fun other k => other ∈ c.known ∧ k = key ∧ k ∉ c.keys.keys) := by
  have hkey := mem_keys_iff_contains c key
  unfold addKey
  cases hnew : c.keys.contains key with
  | true =>
    have hmem : key ∈ c.keys.keys := hkey.2 hnew
    refine ⟨rfl, rfl, fun k => ?_, fun other k => ?_, fun hc => hc⟩
    · exact (or_iff_left_of_imp fun he => he ▸ hmem).symm
    · exact (or_iff_left fun h => h.2.2 (h.2.1 ▸ hmem)).symm
  | false =>
    have hmem : key ∉ c.keys.keys := fun h => by simp [hkey.1 h] at hnew
    have hlacks := extends_foldl_lacks { c with definedIn := append c.definedIn key id } key c.known
    refine ⟨hlacks.known, hlacks.reference, fun k => ?_, fun other k => ?_, hlacks.filled⟩
    · refine (KeySet.mem_keys_insert _ key k).trans ?_
      rw [hlacks.keys k, or_false, or_comm]
    · refine (hlacks.lackedBy other k).trans (or_congr_right (and_congr_right fun _ => ?_))
      exact ⟨fun he => ⟨he, he ▸ hmem⟩, fun h => h.1⟩

lemma extends_foldl_addKey (id : String) (keys : List String) :
    Extends c (keys.foldl (addKey id) c) (· ∈ keys)
      (fun other k => other ∈ c.known ∧ k ∈ keys ∧ k ∉ c.keys.keys) := by
  induction keys generalizing c with
  | nil => exact extends_refl c (by simp) (by simp)
  | cons key keys ih =>
    have hkey := extends_addKey c id key
    refine hkey.trans (ih _) (fun k => List.mem_cons) fun other k => ?_
    rw [hkey.known, hkey.keys, List.mem_cons]
    by_cases he : k = key <;> simp [he]

/-- The first catalog to claim it is the reference. -/
lemma claimReference_fst (t : Catalog) : (c.claimReference t).1 =
    { c with reference := c.reference.or (if t.isReference then some t.id else none) } := by
  unfold claimReference
  rcases c with ⟨keys, missing, known, definedIn, _ | kept⟩ <;> cases t.isReference <;> rfl

/-- A catalog that is taken in lacks the known keys that it does not have, and the others lack those
that it brings. -/
lemma add_extends (t : Catalog) : ∃ d, Extends c d (· ∈ t.exposedKeys)
      (fun id k => id ∈ c.known ∧ k ∈ t.exposedKeys ∧ k ∉ c.keys.keys ∨
        id = t.id ∧ k ∈ c.keys.keys ∧ k ∉ t.exposedKeys) ∧
    (c.add t).1 = { d with
      known := c.known ++ [t.id]
      reference := c.reference.or (if t.isReference then some t.id else none) } := by
  have hdefined := extends_foldl_addKey c t.id t.exposedKeys
  have habsent := extends_foldl_absent (t.exposedKeys.foldl (addKey t.id) c) t.id
    (c.keys.keys.filter fun key => !t.exposedKeys.contains key)
  refine ⟨_, hdefined.trans habsent (fun _ => (or_iff_left not_false).symm) (by simp), ?_⟩
  unfold add
  rw [claimReference_fst, habsent.known, habsent.reference, hdefined.known, hdefined.reference]

/-! ### What the end of a round does -/

/-- `c'` knows what `c` knows, less what is said about the keys in `dropped`. -/
structure Reduces (c c' : Coverage) (dropped : List String) : Prop where
  known : c'.known = c.known
  reference : c'.reference = c.reference
  keys : ∀ key, key ∈ c'.keys.keys ↔ key ∈ c.keys.keys ∧ key ∉ dropped
  lackedBy : ∀ id key, key ∈ c'.lackedBy id ↔ key ∈ c.lackedBy id ∧ key ∉ dropped
  listed : ∀ id, (c'.missing.find? id).isSome = (c.missing.find? id).isSome

lemma reduces_dropKey (key : String) : Reduces c (c.dropKey key) [key] where
  known := rfl
  reference := rfl
  keys k := by
    rw [List.mem_singleton]
    exact KeyMap.mem_keys_erase _ key k
  lackedBy id k := by
    unfold lackedBy dropKey
    rw [KeyMap.find?_mapValues]
    cases c.missing.find? id <;> simp
  listed id := by
    unfold dropKey
    rw [KeyMap.find?_mapValues, Option.isSome_map]

lemma reduces_foldl_dropKey (keys : List String) : Reduces c (keys.foldl dropKey c) keys := by
  induction keys generalizing c with
  | nil => exact ⟨rfl, rfl, by simp, by simp, fun _ => rfl⟩
  | cons key keys ih =>
    have hkey := reduces_dropKey c key
    have hkeys := ih (c.dropKey key)
    refine ⟨hkeys.known, hkeys.reference, fun k => ?_, fun id k => ?_, fun id => ?_⟩
    · rw [List.foldl_cons, hkeys.keys, hkey.keys, and_assoc, List.mem_singleton, List.mem_cons, not_or]
    · rw [List.foldl_cons, hkeys.lackedBy, hkey.lackedBy, and_assoc, List.mem_singleton, List.mem_cons,
        not_or]
    · rw [List.foldl_cons, hkeys.listed, hkey.listed]

lemma close_of_none (h : c.reference = none) : c.close.1 = c := by
  unfold close dropObsolete
  rw [h]

/-- What the reference lacks is dropped, and nothing is said any more about what it lacks. -/
lemma close_reduces {r : String} (h : c.reference = some r) :
    Reduces { c with missing := c.missing.erase r } c.close.1 (c.lackedBy r) := by
  unfold close dropObsolete
  rw [h]
  exact reduces_foldl_dropKey _ _

lemma known_close : c.close.1.known = c.known := by
  cases h : c.reference with
  | none => rw [close_of_none c h]
  | some r => exact (close_reduces c h).known

lemma reference_close : c.close.1.reference = c.reference := by
  cases h : c.reference with
  | none => rw [close_of_none c h, h]
  | some r => exact (close_reduces c h).reference.trans h

lemma isSome_missing_close (id : String) : (c.close.1.missing.find? id).isSome =
    (c.reference != some id && (c.missing.find? id).isSome) := by
  cases h : c.reference with
  | none => rw [close_of_none c h]; rfl
  | some r =>
    rw [(close_reduces c h).listed, KeyMap.find?_erase]
    by_cases hid : id = r
    · simp [hid]
    · simp [hid, Ne.symm hid]

variable {c} in
lemma Filled.isSome_iff (h : c.Filled) (id : String) :
    (c.missing.find? id).isSome = true ↔ ∃ key, key ∈ c.lackedBy id := by
  have hid := h id
  unfold lackedBy
  cases hf : c.missing.find? id with
  | none => simp
  | some keys =>
    have hne : keys ≠ [] := fun hnil => hid (hnil ▸ hf)
    exact ⟨fun _ => List.exists_mem_of_ne_nil keys hne, fun _ => rfl⟩

lemma lackedBy_erase (r id : String) :
    lackedBy { c with missing := c.missing.erase r } id = if id = r then [] else c.lackedBy id := by
  unfold lackedBy
  rw [KeyMap.find?_erase]
  split <;> rfl

end Step

end Coverage

end Polyglot
