import Polyglot.Proofs.Coverage
import Mathlib.Data.List.Basic

/-!
# The issues of the coverage check

What a locale lacks is noted as the catalogs come in, and the issues are read off these notes at the
end of the round, while obsolete keys are dropped from them. The issues depend on the catalogs alone:
each catalog that claims to be the reference too late is named, each key that the reference lacks is
named once, and so is each other key that some catalog lacks.

* `lackedBy_add`, `definedBy_add`: what one catalog adds to the notes, in order;
* `definedBy_taking`, `nodup_lackedBy_taking`: what is noted after all catalogs;
* `duplicateIssues`, `obsoleteIssues`, `missingIssues`: the issues, told from the catalogs;
* `dropObsolete_snd`, `incomplete_close`: what the end of a round reports;
* `checkCatalogs_completeness`: the main statement.
-/

namespace Polyglot

lemma Catalog.exposedKeys_ordered (t : Catalog) : t.exposedKeys.Pairwise (· < ·) :=
  List.pairwise_map.2 (t.messages.ordered.filter _)

lemma Catalog.nodup_exposedKeys (t : Catalog) : t.exposedKeys.Nodup :=
  KeyMap.nodup_of_ordered t.exposedKeys_ordered

namespace Coverage

/-! ### What a catalog adds to the notes -/

/-- The locales that are known to define a key. -/
def definedBy (c : Coverage) (key : String) : List String :=
  (c.definedIn.find? key).getD []

section Step

variable (c : Coverage)

lemma getD_find?_append (m : KeyMap (List String)) (key item other : String) :
    ((append m key item).find? other).getD [] =
      (m.find? other).getD [] ++ if other = key then [item] else [] := by
  unfold append
  rw [KeyMap.find?_insert]
  by_cases h : other = key
  · simp [h]
  · simp [h]

lemma lackedBy_lacks (key id other : String) :
    (lacks key c id).lackedBy other = c.lackedBy other ++ if other = id then [key] else [] :=
  getD_find?_append c.missing id key other

/-- Some locales lack one key. -/
lemma lackedBy_foldl_lacks (key : String) {ids : List String} (hids : ids.Nodup) (other : String) :
    (ids.foldl (lacks key) c).lackedBy other =
      c.lackedBy other ++ if other ∈ ids then [key] else [] := by
  induction ids generalizing c with
  | nil => simp
  | cons id ids ih =>
    obtain ⟨hid, hids⟩ := List.nodup_cons.1 hids
    rw [List.foldl_cons, ih _ hids, lackedBy_lacks]
    by_cases h : other = id
    · subst h
      simp [hid]
    · simp [h]

/-- One locale lacks some keys. -/
lemma lackedBy_foldl_absent (id : String) (absent : List String) (other : String) :
    (absent.foldl (fun c key => lacks key c id) c).lackedBy other =
      c.lackedBy other ++ if other = id then absent else [] := by
  induction absent generalizing c with
  | nil => simp
  | cons key absent ih =>
    rw [List.foldl_cons, ih, lackedBy_lacks]
    by_cases h : other = id
    · simp [h]
    · simp [h]

variable {c} (hknown : c.known.Nodup)
include hknown

/-- A key that is new is noted for each of the locales so far. -/
lemma lackedBy_addKey (id key other : String) :
    (addKey id c key).lackedBy other =
      c.lackedBy other ++ if other ∈ c.known then [key].filter (fun k => k ∉ c.keys.keys) else [] := by
  have hkey := mem_keys_iff_contains c key
  unfold addKey
  cases hnew : c.keys.contains key with
  | true =>
    have hmem : key ∈ c.keys.keys := hkey.2 hnew
    simp only [hmem, Bool.not_true, Bool.false_eq_true, if_false, not_true_eq_false, decide_false,
      List.filter_cons, List.filter_nil, ite_self, List.append_nil]
    rfl
  | false =>
    have hmem : key ∉ c.keys.keys := fun h => by simp [hkey.1 h] at hnew
    have hlacks := lackedBy_foldl_lacks { c with definedIn := append c.definedIn key id } key hknown other
    simp only [hmem, not_false_eq_true, decide_true, List.filter_cons, List.filter_nil, if_true]
    exact hlacks

lemma lackedBy_foldl_addKey (id : String) {keys : List String} (hkeys : keys.Nodup) (other : String) :
    (keys.foldl (addKey id) c).lackedBy other =
      c.lackedBy other ++ if other ∈ c.known then keys.filter (fun k => k ∉ c.keys.keys) else [] := by
  induction keys generalizing c with
  | nil => simp
  | cons key keys ih =>
    obtain ⟨hkey, hkeys⟩ := List.nodup_cons.1 hkeys
    have hstep := extends_addKey c id key
    rw [List.foldl_cons, ih (hstep.known ▸ hknown) hkeys, lackedBy_addKey hknown, hstep.known]
    -- the keys still to come are new or not as they were, for `key` is none of them
    have hrest : keys.filter (fun k => k ∉ (addKey id c key).keys.keys) =
        keys.filter (fun k => k ∉ c.keys.keys) := by
      refine List.filter_congr fun k hk => ?_
      have hne : k ≠ key := fun he => hkey (he ▸ hk)
      simp [hstep.keys, hne]
    rw [hrest]
    by_cases h : other ∈ c.known
    · rw [if_pos h, if_pos h, if_pos h, List.append_assoc, ← List.filter_append]
      rfl
    · simp [h]

/-- What a locale is known to lack more after a catalog: the keys that the catalog brings, or, if it
is the locale of the catalog itself, the known keys that the catalog does not have. -/
theorem lackedBy_add (t : Catalog) (other : String) :
    (c.add t).1.lackedBy other = c.lackedBy other ++
      (if other ∈ c.known then t.exposedKeys.filter (fun k => k ∉ c.keys.keys) else []) ++
      if other = t.id then c.keys.keys.filter (fun k => k ∉ t.exposedKeys) else [] := by
  have habsent := lackedBy_foldl_absent (t.exposedKeys.foldl (addKey t.id) c) t.id
    (c.keys.keys.filter fun key => !t.exposedKeys.contains key) other
  rw [lackedBy_foldl_addKey hknown t.id t.nodup_exposedKeys] at habsent
  unfold add
  rw [claimReference_fst]
  refine Eq.trans habsent ?_
  simp

end Step

lemma definedBy_foldl_lacks (c : Coverage) (key : String) (ids : List String) (k : String) :
    (ids.foldl (lacks key) c).definedBy k = c.definedBy k := by
  induction ids generalizing c with
  | nil => rfl
  | cons id ids ih => exact ih _

lemma definedBy_foldl_absent (c : Coverage) (id : String) (absent : List String) (k : String) :
    (absent.foldl (fun c key => lacks key c id) c).definedBy k = c.definedBy k := by
  induction absent generalizing c with
  | nil => rfl
  | cons key absent ih => exact ih _

lemma definedBy_addKey (c : Coverage) (id key k : String) :
    (addKey id c key).definedBy k = c.definedBy k ++ if k = key then [id] else [] := by
  have happend := getD_find?_append c.definedIn key id k
  unfold addKey
  simp only
  split
  · refine Eq.trans (definedBy_foldl_lacks _ key c.known k) happend
  · exact happend

lemma definedBy_foldl_addKey (c : Coverage) (id : String) {keys : List String} (hkeys : keys.Nodup)
    (k : String) :
    (keys.foldl (addKey id) c).definedBy k = c.definedBy k ++ if k ∈ keys then [id] else [] := by
  induction keys generalizing c with
  | nil => simp
  | cons key keys ih =>
    obtain ⟨hkey, hkeys⟩ := List.nodup_cons.1 hkeys
    rw [List.foldl_cons, ih _ hkeys, definedBy_addKey]
    by_cases h : k = key
    · subst h
      simp [hkey]
    · simp [h]

/-- A catalog is noted as defining each of its keys. -/
theorem definedBy_add (c : Coverage) (t : Catalog) (k : String) :
    (c.add t).1.definedBy k = c.definedBy k ++ if k ∈ t.exposedKeys then [t.id] else [] := by
  unfold add
  rw [claimReference_fst]
  refine Eq.trans (definedBy_foldl_absent _ t.id _ k) ?_
  exact definedBy_foldl_addKey c t.id t.nodup_exposedKeys k

/-! ### What is noted after all catalogs -/

/-- The locales that define a key, in the order of the catalogs. -/
def definers (catalogs : List Catalog) (key : String) : List String :=
  (catalogs.filter (fun t => key ∈ t.exposedKeys)).map Catalog.id

/-- The locales that lack a key, in the order of the catalogs. -/
def lackers (catalogs : List Catalog) (key : String) : List String :=
  (catalogs.filter (fun t => key ∉ t.exposedKeys)).map Catalog.id

/-- What is known after the catalogs have been taken in. -/
def taking (catalogs : List Catalog) : Coverage :=
  run (catalogs.map Call.add)

lemma taking_append_one (catalogs : List Catalog) (t : Catalog) :
    taking (catalogs ++ [t]) = ((taking catalogs).add t).1 := by
  unfold taking
  rw [List.map_append, List.map_singleton, run_append_one]
  rfl

theorem definedBy_taking (catalogs : List Catalog) (key : String) :
    (taking catalogs).definedBy key = definers catalogs key := by
  induction catalogs using List.reverseRecOn with
  | nil => rfl
  | append_singleton catalogs t ih =>
    rw [taking_append_one, definedBy_add, ih]
    unfold definers
    rw [List.filter_append, List.map_append]
    by_cases h : key ∈ t.exposedKeys
    · simp [h]
    · simp [h]

section Taking

variable {catalogs : List Catalog} (hids : (catalogs.map Catalog.id).Nodup)
include hids

lemma tracks_taking : Tracks (fun _ => True) catalogs (taking catalogs) := by
  rw [← taken_map_add catalogs] at hids
  have htracks := (tracks_run_of_open (catalogs.map Call.add) hids (by simp)).1
  rw [taken_map_add] at htracks
  exact htracks

/-- No locale is noted twice as lacking a key. -/
theorem nodup_lackedBy_taking (id : String) : ((taking catalogs).lackedBy id).Nodup := by
  induction catalogs using List.reverseRecOn with
  | nil => exact List.nodup_nil
  | append_singleton catalogs t ih =>
    obtain ⟨hnodup, hfresh⟩ := nodup_ids_append_one hids
    have htracks := tracks_taking hnodup
    have hknown : (taking catalogs).known.Nodup := htracks.known ▸ hnodup
    rw [taking_append_one, lackedBy_add hknown]
    by_cases hid : id = t.id
    · -- nothing has been noted before for the locale that comes in
      have hunknown : id ∉ (taking catalogs).known := by
        rw [htracks.known, hid]
        exact hfresh
      have hnone : (taking catalogs).lackedBy id = [] :=
        List.eq_nil_iff_forall_not_mem.2 fun key hkey => hunknown (htracks.within id key hkey).1
      rw [hnone, if_neg hunknown, if_pos hid]
      exact (KeyMap.nodup_keys _).filter _
    · rw [if_neg hid, List.append_nil]
      refine List.nodup_append.2 ⟨ih hnodup, ?_, ?_⟩
      · split
        · exact t.nodup_exposedKeys.filter _
        · exact List.nodup_nil
      · -- what has been noted before is about known keys, what is added is about new ones
        intro key hold other hnew heq
        subst heq
        split at hnew
        · have hout := of_decide_eq_true (List.mem_filter.1 hnew).2
          exact hout (htracks.within id key hold).2
        · cases hnew

end Taking

/-! ### The issues -/

/-- One issue for each catalog that claims to be the reference after the first has done so. -/
def duplicateIssues (catalogs : List Catalog) : List Issue :=
  match catalogs.filter Catalog.isReference with
  | [] => []
  | first :: others => others.map fun t => .duplicateReference t.id first.id

/-- The key is obsolete: some catalog has it, and the reference does not. -/
def Obsolete (catalogs : List Catalog) (key : String) : Prop :=
  (∃ t ∈ catalogs, key ∈ t.exposedKeys) ∧
    ∃ reference, referenceOf catalogs = some reference ∧ key ∉ reference.exposedKeys

/-- One issue for each of these keys, if there is a reference that can lack them. -/
def obsoleteIssues (catalogs : List Catalog) (keys : List String) : List Issue :=
  match referenceOf catalogs with
  | none => []
  | some reference => keys.map fun key => .obsoleteKey key reference.id (definers catalogs key)

/-- The key is incomplete: some catalog has it and some catalog does not, and it is not obsolete. -/
def Incomplete (catalogs : List Catalog) (key : String) : Prop :=
  (∃ t ∈ catalogs, key ∈ t.exposedKeys) ∧ ¬ Obsolete catalogs key ∧
    ∃ t ∈ catalogs, key ∉ t.exposedKeys

/-- One issue for each of these keys. -/
def missingIssues (catalogs : List Catalog) (keys : List String) : List Issue :=
  keys.map fun key => .missingKey key (lackers catalogs key)

lemma lackers_ne_nil_iff {catalogs : List Catalog} {key : String} :
    lackers catalogs key ≠ [] ↔ ∃ t ∈ catalogs, key ∉ t.exposedKeys := by
  unfold lackers
  rw [Ne, List.map_eq_nil_iff, List.filter_eq_nil_iff]
  simp

/-- The keys that are generated are those that are there and not obsolete. -/
lemma generated_iff_not_obsolete {catalogs : List Catalog} {key : String} :
    Generated catalogs key ↔ (∃ t ∈ catalogs, key ∈ t.exposedKeys) ∧ ¬ Obsolete catalogs key := by
  rw [generated_iff, and_comm]
  refine and_congr_right fun hhas => ?_
  unfold Kept Obsolete
  simp only [hhas, true_and]
  push Not
  rfl

/-! ### Catalogs that claim to be the reference -/

lemma claimReference_snd (c : Coverage) (t : Catalog) : (c.claimReference t).2 =
    if t.isReference then (c.reference.map (Issue.duplicateReference t.id)).toList else [] := by
  unfold claimReference
  rcases c with ⟨keys, missing, known, definedIn, _ | kept⟩ <;> cases t.isReference <;> rfl

/-- A catalog brings an issue if it claims to be the reference and there is one already. -/
lemma add_snd (c : Coverage) (t : Catalog) : (c.add t).2 =
    if t.isReference then (c.reference.map (Issue.duplicateReference t.id)).toList else [] := by
  have hdefined := extends_foldl_addKey c t.id t.exposedKeys
  have habsent := extends_foldl_absent (t.exposedKeys.foldl (addKey t.id) c) t.id
    (c.keys.keys.filter fun key => !t.exposedKeys.contains key)
  unfold add
  rw [claimReference_snd, habsent.reference, hdefined.reference]

lemma duplicateIssues_append_one (catalogs : List Catalog) (t : Catalog) :
    duplicateIssues (catalogs ++ [t]) = duplicateIssues catalogs ++
      if t.isReference then
        (((referenceOf catalogs).map Catalog.id).map (Issue.duplicateReference t.id)).toList
      else [] := by
  unfold duplicateIssues referenceOf
  rw [← List.head?_filter, List.filter_append]
  cases hmarked : t.isReference with
  | false => simp [hmarked]
  | true =>
    rcases catalogs.filter Catalog.isReference with _ | ⟨first, others⟩
    · simp [hmarked]
    · simp [hmarked]

/-! ### The end of a round -/

/-- The keys that the reference is noted to lack when the round ends. -/
def obsoleteKeys (catalogs : List Catalog) : List String :=
  ((referenceOf catalogs).map fun r => (taking catalogs).lackedBy r.id).getD []

section Close

variable {catalogs : List Catalog} (hids : (catalogs.map Catalog.id).Nodup)
include hids

lemma dropObsolete_snd :
    (taking catalogs).dropObsolete.2 = obsoleteIssues catalogs (obsoleteKeys catalogs) := by
  have hreference := (tracks_taking hids).reference
  unfold dropObsolete obsoleteIssues obsoleteKeys
  cases hr : referenceOf catalogs with
  | none =>
    rw [hr] at hreference
    rw [hreference]
    rfl
  | some reference =>
    rw [hr] at hreference
    rw [hreference]
    refine List.map_congr_left fun key _ => ?_
    rw [← definedBy_taking]
    rfl

/-- What the reference lacks are the obsolete keys. -/
lemma mem_obsoleteKeys_iff (key : String) :
    key ∈ obsoleteKeys catalogs ↔ Obsolete catalogs key := by
  have htracks := tracks_taking hids
  unfold obsoleteKeys Obsolete
  cases hr : referenceOf catalogs with
  | none => simp
  | some reference =>
    have hlacked := htracks.lacked reference (List.mem_of_find?_eq_some hr) key (Or.inl trivial)
    rw [htracks.keys key trivial] at hlacked
    simpa using hlacked

lemma nodup_obsoleteKeys : (obsoleteKeys catalogs).Nodup := by
  unfold obsoleteKeys
  cases referenceOf catalogs with
  | none => exact List.nodup_nil
  | some reference => exact nodup_lackedBy_taking hids reference.id

/-- The locales that are noted at the end as lacking a key are those that do lack it. -/
lemma missingIn_close {key : String} (hkey : key ∈ (taking catalogs).close.1.keys.keys) :
    (taking catalogs).close.1.missingIn key = lackers catalogs key := by
  have htracks := tracks_taking hids
  obtain ⟨hkeys, hlacked⟩ := htracks.closed
  unfold missingIn lackers
  rw [known_close, htracks.known, List.filter_map]
  refine congrArg _ (List.filter_congr fun t ht => ?_)
  rw [Bool.eq_iff_iff, Function.comp_apply, List.contains_iff_mem, decide_eq_true_iff]
  refine (hlacked t ht key).trans ?_
  rw [and_iff_right ((hkeys key).1 hkey)]

/-- The keys that are left at the end of a round, as far as some catalog lacks them. -/
def incompleteKeys (catalogs : List Catalog) : List String :=
  (taking catalogs).close.1.keys.keys.filter fun key => !(lackers catalogs key).isEmpty

omit hids in
lemma incompleteKeys_ordered : (incompleteKeys catalogs).Pairwise (· < ·) :=
  (KeyMap.keys_ordered _).filter _

lemma mem_incompleteKeys_iff (key : String) :
    key ∈ incompleteKeys catalogs ↔ Incomplete catalogs key := by
  unfold incompleteKeys Incomplete
  rw [List.mem_filter, (tracks_taking hids).closed.1, generated_iff_not_obsolete, and_assoc,
    ← lackers_ne_nil_iff]
  simp

lemma incomplete_close :
    (taking catalogs).close.1.incomplete = missingIssues catalogs (incompleteKeys catalogs) := by
  unfold incomplete missingIssues incompleteKeys
  rw [← List.filterMap_eq_map, List.filterMap_filter]
  refine List.filterMap_congr fun key hkey => ?_
  simp only [missingIn_close hids hkey]
  cases (lackers catalogs key).isEmpty <;> rfl

end Close

end Coverage

/-- The issues that come with the catalogs are about the reference. -/
lemma issues_foldl_add {catalogs : List Catalog} (hids : (catalogs.map Catalog.id).Nodup) :
    (catalogs.foldl Checking.add {}).issues = Coverage.duplicateIssues catalogs := by
  induction catalogs using List.reverseRecOn with
  | nil => rfl
  | append_singleton catalogs t ih =>
    obtain ⟨hnodup, -⟩ := Coverage.nodup_ids_append_one hids
    have hcoverage : (catalogs.foldl Checking.add {}).coverage = Coverage.taking catalogs :=
      coverage_foldl_add catalogs {}
    have hissues : (Checking.add (catalogs.foldl Checking.add {}) t).issues =
        (catalogs.foldl Checking.add {}).issues ++
          ((catalogs.foldl Checking.add {}).coverage.add t).2 := rfl
    rw [List.foldl_append, List.foldl_cons, List.foldl_nil, hissues, ih hnodup, hcoverage,
      Coverage.add_snd, (Coverage.tracks_taking hnodup).reference, Coverage.duplicateIssues_append_one]

open Coverage in
/-- **The issues about coverage are exact.** Let catalogs of different locales be checked. Coverage
reports each catalog that claims to be the reference after another one has done so, in order; then each
key that some catalog has and the reference does not, with the locales that have it; and then, in
order, each other key that some catalog has and some catalog lacks, with the locales that lack it. No
key is reported twice, and all other issues of the checks are those of agreement. -/
theorem checkCatalogs_completeness (catalogs : List Catalog)
    (hids : (catalogs.map Catalog.id).Nodup) :
    ∃ obsolete missing : List String,
      (checkCatalogs catalogs).issues = duplicateIssues catalogs ++ obsoleteIssues catalogs obsolete ++
        missingIssues catalogs missing ++ (Agreement.addAll {} catalogs).close.2 ∧
      (∀ key, key ∈ obsolete ↔ Obsolete catalogs key) ∧
      (∀ key, key ∈ missing ↔ Incomplete catalogs key) ∧
      missing.Pairwise (· < ·) ∧ (obsolete ++ missing).Nodup := by
  have hcoverage : (catalogs.foldl Checking.add {}).coverage = taking catalogs :=
    coverage_foldl_add catalogs {}
  have hclose : (taking catalogs).close.2 =
      (taking catalogs).dropObsolete.2 ++ (taking catalogs).close.1.incomplete := rfl
  have hnodup : (obsoleteKeys catalogs ++ incompleteKeys catalogs).Nodup := by
    refine List.nodup_append.2
      ⟨nodup_obsoleteKeys hids, KeyMap.nodup_of_ordered incompleteKeys_ordered, ?_⟩
    intro key hobsolete other hmissing heq
    subst heq
    have hincomplete := (mem_incompleteKeys_iff hids key).1 hmissing
    exact hincomplete.2.1 ((mem_obsoleteKeys_iff hids key).1 hobsolete)
  refine ⟨obsoleteKeys catalogs, incompleteKeys catalogs, ?_, mem_obsoleteKeys_iff hids,
    mem_incompleteKeys_iff hids, incompleteKeys_ordered, hnodup⟩
  rw [issues_checkCatalogs, issues_foldl_add hids, hcoverage, hclose, dropObsolete_snd hids,
    incomplete_close hids, ← List.append_assoc]
  rfl

/-- A second catalog that claims to be the reference. -/
def italianLocale : Catalog := Coverage.plainLocale "it" [.reference] ["title", "old", "new"] ["bye"]

def rivalLocales : List Catalog :=
  [Coverage.frenchLocale, Coverage.englishLocale, italianLocale]

open Coverage in
/-- A key that the reference lacks may have come up before it or after it, and a key that a catalog has
for its own use only is missing there. -/
theorem checkCatalogs_completeness_rival : (rivalLocales.map Catalog.id).Nodup ∧
    ∃ obsolete : List String, obsolete.Perm ["new", "old"] ∧
      (checkCatalogs rivalLocales).issues = .duplicateReference "it" "en" ::
        obsolete.map (fun key => .obsoleteKey key "en" (definers rivalLocales key)) ++
        [.missingKey "bye" ["fr", "it"]] ∧
      definers rivalLocales "old" = ["fr", "it"] ∧ definers rivalLocales "new" = ["it"] := by
  have hids : (rivalLocales.map Catalog.id).Nodup := by decide
  obtain ⟨obsolete, missing, hissues, hobsolete, hmissing, hordered, hnodup⟩ :=
    checkCatalogs_completeness rivalLocales hids
  have hfrench : frenchLocale.exposedKeys = ["old", "title"] := by decide +kernel
  have henglish : englishLocale.exposedKeys = ["bye", "title"] := by decide +kernel
  have hitalian : italianLocale.exposedKeys = ["new", "old", "title"] := by decide +kernel
  have hreference : referenceOf rivalLocales = some englishLocale := rfl
  have hhas : ∀ key, (∃ t ∈ rivalLocales, key ∈ t.exposedKeys) ↔
      key = "old" ∨ key = "title" ∨ key = "bye" ∨ key = "new" := by
    intro key
    simp only [rivalLocales, List.mem_cons, List.not_mem_nil, or_false, exists_eq_or_imp,
      exists_eq_left, hfrench, henglish, hitalian]
    grind
  have hisObsolete : ∀ key, Obsolete rivalLocales key ↔ key ∈ ["new", "old"] := by
    intro key
    simp only [Obsolete, hhas, hreference, Option.some.injEq, exists_eq_left', henglish,
      List.mem_cons, List.not_mem_nil, or_false]
    grind
  have hisMissing : ∀ key, Incomplete rivalLocales key ↔ key ∈ ["bye"] := by
    intro key
    rw [Incomplete, hhas, hisObsolete]
    simp only [rivalLocales, List.mem_cons, List.not_mem_nil, or_false, exists_eq_or_imp,
      exists_eq_left, hfrench, henglish, hitalian]
    grind
  obtain rfl : missing = ["bye"] := KeyMap.eq_of_ordered hordered (by simp) fun key =>
    (hmissing key).trans (hisMissing key)
  refine ⟨hids, obsolete, ?_, ?_, by decide +kernel, by decide +kernel⟩
  · refine (List.perm_ext_iff_of_nodup (List.nodup_append.1 hnodup).1 (by decide)).2 fun key => ?_
    exact (hobsolete key).trans (hisObsolete key)
  · have hmismatches : (Agreement.addAll {} rivalLocales).close.2 = [] := by decide +kernel
    have hlackers : lackers rivalLocales "bye" = ["fr", "it"] := by decide +kernel
    rw [hissues, hmismatches, List.append_nil, missingIssues, List.map_singleton, hlackers]
    rfl

end Polyglot
