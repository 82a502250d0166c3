import Polyglot.Check
import Polyglot.Proofs.CoverageSteps

/-!
# What the coverage check reports

The check notes what a catalog lacks as the catalogs come in, and drops keys when a round is closed. A
round may be closed at any time, and a key that has been dropped may come up again. At the end none of
this can be seen: the report depends on the catalogs alone, and not on their order as long as no two of
them claim to be the reference.

* `Call`, `run`: catalogs taken in and rounds closed, in any order;
* `Generated`: the keys that are generated, told from the catalogs;
* `Tracks`: what is known in the middle of a run; `Tracks.add` and `Tracks.close` keep it;
* `Tracks.closed`: what is left of it at the end;
* `report_run`: the main statement;
* `missingKeys_eq_filter`: what it means for the reports of the checks.
-/

namespace Polyglot

namespace Coverage

/-! ### Runs -/

/-- What can be asked of the check: to take in a catalog, or to end a round. -/
inductive Call where
  | add (catalog : Catalog)
  | close

/-- Do as a call asks, and leave the issues aside. -/
def step (c : Coverage) : Call → Coverage
  | .add catalog => (c.add catalog).1
  | .close => c.close.1

def run (calls : List Call) : Coverage :=
  calls.foldl step {}

/-- The catalog that a call brings. -/
def Call.catalog? : Call → Option Catalog
  | .add catalog => some catalog
  | .close => none

/-- The catalogs that are taken in, in order. -/
def taken (calls : List Call) : List Catalog :=
  calls.filterMap Call.catalog?

lemma run_append_one (calls : List Call) (call : Call) :
    run (calls ++ [call]) = (run calls).step call := by
  unfold run
  rw [List.foldl_append]
  rfl

lemma taken_append_one (calls : List Call) (call : Call) :
    taken (calls ++ [call]) = taken calls ++ call.catalog?.toList := by
  unfold taken
  rw [List.filterMap_append]
  cases call <;> rfl

/-! ### The keys that are generated -/

/-- The first catalog that is marked as the reference. -/
def referenceOf (catalogs : List Catalog) : Option Catalog :=
  catalogs.find? Catalog.isReference

/-- The generated keys: those of the reference, and all that some catalog has if there is none. -/
def Generated (catalogs : List Catalog) (key : String) : Prop :=
  match referenceOf catalogs with
  | some reference => key ∈ reference.exposedKeys
  | none => ∃ t ∈ catalogs, key ∈ t.exposedKeys

/-- The reference has the key, if there is a reference. -/
def Kept (catalogs : List Catalog) (key : String) : Prop :=
  ∀ reference, referenceOf catalogs = some reference → key ∈ reference.exposedKeys

variable {catalogs : List Catalog} {c : Coverage} {spared : String → Prop}

lemma generated_iff {key : String} :
    Generated catalogs key ↔ Kept catalogs key ∧ ∃ t ∈ catalogs, key ∈ t.exposedKeys := by
  unfold Generated Kept
  cases h : referenceOf catalogs with
  | none => simp
  | some reference =>
    have hmem : reference ∈ catalogs := List.mem_of_find?_eq_some h
    constructor
    · intro hkey
      exact ⟨fun r hr => Option.some.inj hr ▸ hkey, reference, hmem, hkey⟩
    · exact fun hkey => hkey.1 reference rfl

lemma referenceOf_append_one (catalogs : List Catalog) (t : Catalog) :
    referenceOf (catalogs ++ [t]) =
      (referenceOf catalogs).or (if t.isReference then some t else none) := by
  unfold referenceOf
  rw [List.find?_append, List.find?_singleton]

lemma Kept.of_append_one {t : Catalog} {key : String} (h : Kept (catalogs ++ [t]) key) :
    Kept catalogs key := by
  intro reference hr
  refine h reference ?_
  rw [referenceOf_append_one, hr]
  rfl

/-! ### In the middle of a run -/

/-- What is known in the middle of a run. What is said about the keys in `spared` is right. Other keys
may have been dropped before and come up again: they are all lacked by the reference, and what is said
about them and the other locales does not matter. -/
structure Tracks (spared : String → Prop) (catalogs : List Catalog) (c : Coverage) : Prop where
  known : c.known = catalogs.map Catalog.id
  reference : c.reference = (referenceOf catalogs).map Catalog.id
  spares : ∀ key, Kept catalogs key → spared key
  keys : ∀ key, spared key → (key ∈ c.keys.keys ↔ ∃ t ∈ catalogs, key ∈ t.exposedKeys)
  lacked : ∀ t ∈ catalogs, ∀ key, spared key ∨ referenceOf catalogs = some t →
    (key ∈ c.lackedBy t.id ↔ key ∈ c.keys.keys ∧ key ∉ t.exposedKeys)
  within : ∀ id key, key ∈ c.lackedBy id → id ∈ c.known ∧ key ∈ c.keys.keys

lemma tracks_empty (hspared : ∀ key, spared key) : Tracks spared [] {} where
  known := rfl
  reference := rfl
  spares key _ := hspared key
  keys key _ := by simp [KeyMap.keys, EmptyCollection.emptyCollection, KeyMap.empty]
  lacked t ht := absurd ht List.not_mem_nil
  within id key h := absurd h List.not_mem_nil

theorem Tracks.add {spared' : String → Prop} (h : Tracks spared catalogs c) {t : Catalog}
    (hfresh : t.id ∉ catalogs.map Catalog.id) (hsub : ∀ key, spared' key → spared key)
    (hspares : ∀ key, Kept (catalogs ++ [t]) key → spared' key) :
    Tracks spared' (catalogs ++ [t]) (c.add t).1 := by
  obtain ⟨d, hd, he⟩ := c.add_extends t
  have hlackedBy : ∀ id, (c.add t).1.lackedBy id = d.lackedBy id := fun id => by rw [he]; rfl
  have hkeys : (c.add t).1.keys = d.keys := by rw [he]
  refine ⟨?_, ?_, hspares, fun key hkey => ?_, fun s hs key hkey => ?_, fun id key hkey => ?_⟩
  · rw [he, h.known, List.map_append]
    rfl
  · rw [he, h.reference, referenceOf_append_one]
    cases referenceOf catalogs <;> cases t.isReference <;> rfl
  · rw [hkeys, hd.keys, h.keys key (hsub key hkey)]
    simp [or_and_right, exists_or]
  · rw [hlackedBy, hkeys, hd.lackedBy, hd.keys]
    rcases List.mem_append.1 hs with hs | hs
    · -- a catalog from before
      have hne : s.id ≠ t.id := fun hid => hfresh (hid ▸ List.mem_map_of_mem hs)
      have hknown : s.id ∈ c.known := h.known ▸ List.mem_map_of_mem hs
      have hkey' : spared key ∨ referenceOf catalogs = some s := by
        refine hkey.imp (hsub key) fun href => ?_
        rw [referenceOf_append_one] at href
        cases hr : referenceOf catalogs with
        | none =>
          rw [hr] at href
          split at href
          · exact absurd (congrArg Catalog.id (Option.some.inj href)).symm hne
          · cases href
        | some reference => rw [hr] at href; exact href
      have hhas : key ∈ s.exposedKeys → key ∈ c.keys.keys := by
        intro hin
        have hspared : spared key := hkey'.elim id fun href =>
          h.spares key fun r hr => Option.some.inj (hr.symm.trans href) ▸ hin
        exact (h.keys key hspared).2 ⟨s, hs, hin⟩
      rw [h.lacked s hs key hkey']
      by_cases hin : key ∈ c.keys.keys <;> simp_all
    · -- the one that has just come, about which nothing is known yet
      rw [List.mem_singleton.1 hs]
      have hnone : key ∉ c.lackedBy t.id := fun hin => hfresh (h.known ▸ (h.within _ _ hin).1)
      have hunknown : t.id ∉ c.known := h.known ▸ hfresh
      simp only [hnone, hunknown, false_and, false_or, true_and]
      exact ⟨fun hin => ⟨Or.inl hin.1, hin.2⟩, fun hin => ⟨hin.1.resolve_right hin.2, hin.2⟩⟩
  · rw [hlackedBy, hd.lackedBy] at hkey
    rw [hkeys, hd.keys, he]
    rcases hkey with hkey | ⟨hid, hkey, -⟩ | ⟨rfl, hkey, -⟩
    · obtain ⟨hid, hin⟩ := h.within id key hkey
      exact ⟨List.mem_append_left _ hid, Or.inl hin⟩
    · exact ⟨List.mem_append_left _ hid, Or.inr hkey⟩
    · exact ⟨List.mem_append_right _ (List.mem_singleton.2 rfl), Or.inl hkey⟩

section Close

variable (h : Tracks spared catalogs c)
include h

/-- What the reference lacks are the keys that are not kept. -/
lemma Tracks.mem_lackedBy_reference {reference : Catalog} (hr : referenceOf catalogs = some reference)
    (key : String) :
    key ∈ c.lackedBy reference.id ↔ key ∈ c.keys.keys ∧ ¬ Kept catalogs key := by
  rw [h.lacked reference (List.mem_of_find?_eq_some hr) key (Or.inr hr)]
  refine and_congr_right fun _ => not_congr ⟨fun hin r hr' => ?_, fun hkept => hkept reference hr⟩
  rw [← Option.some.inj (hr.symm.trans hr')]
  exact hin

lemma Tracks.mem_keys_close (key : String) :
    key ∈ c.close.1.keys.keys ↔ key ∈ c.keys.keys ∧ Kept catalogs key := by
  have hreference := h.reference
  cases hr : referenceOf catalogs with
  | none =>
    rw [hr] at hreference
    rw [close_of_none c hreference]
    simp [Kept, hr]
  | some reference =>
    rw [hr] at hreference
    rw [(close_reduces c hreference).keys, h.mem_lackedBy_reference hr]
    refine and_congr_right fun hin => ?_
    simp [hin]

lemma Tracks.mem_lackedBy_close (id key : String) :
    key ∈ c.close.1.lackedBy id ↔ key ∈ c.lackedBy id ∧ Kept catalogs key := by
  have hreference := h.reference
  cases hr : referenceOf catalogs with
  | none =>
    rw [hr] at hreference
    rw [close_of_none c hreference]
    simp [Kept, hr]
  | some reference =>
    rw [hr] at hreference
    have hown := h.mem_lackedBy_reference hr key
    rw [(close_reduces c hreference).lackedBy, hown, lackedBy_erase]
    split
    · -- the reference itself, whose list is forgotten: it lacks no key that is kept
      rename_i hid
      rw [hid, hown]
      simp
    · refine and_congr_right fun hin => ?_
      simp [(h.within id key hin).2]

/-- A round may be closed if it spares no key but the kept ones. -/
theorem Tracks.close (hkept : ∀ key, spared key → Kept catalogs key) :
    Tracks spared catalogs c.close.1 where
  known := c.known_close.trans h.known
  reference := c.reference_close.trans h.reference
  spares := h.spares
  keys key hkey := by
    rw [h.mem_keys_close, and_iff_left (hkept key hkey)]
    exact h.keys key hkey
  lacked t ht key hkey := by
    rw [h.mem_lackedBy_close, h.mem_keys_close, h.lacked t ht key hkey]
    exact and_right_comm
  within id key hkey := by
    rw [h.mem_lackedBy_close] at hkey
    obtain ⟨hid, hin⟩ := h.within id key hkey.1
    rw [known_close, h.mem_keys_close]
    exact ⟨hid, hin, hkey.2⟩

/-- **What a closed round leaves**: the keys that are generated, and for each catalog those of them
that it does not have. -/
theorem Tracks.closed :
    (∀ key, key ∈ c.close.1.keys.keys ↔ Generated catalogs key) ∧
    ∀ t ∈ catalogs, ∀ key,
      key ∈ c.close.1.lackedBy t.id ↔ Generated catalogs key ∧ key ∉ t.exposedKeys := by
  have hkeys : ∀ key, key ∈ c.close.1.keys.keys ↔ Generated catalogs key := by
    intro key
    rw [h.mem_keys_close, generated_iff, and_comm]
    exact and_congr_right fun hkept => h.keys key (h.spares key hkept)
  refine ⟨hkeys, fun t ht key => ?_⟩
  rw [← hkeys, h.mem_lackedBy_close, h.mem_keys_close]
  constructor
  · rintro ⟨hin, hkept⟩
    obtain ⟨hkey, hout⟩ := (h.lacked t ht key (Or.inl (h.spares key hkept))).1 hin
    exact ⟨⟨hkey, hkept⟩, hout⟩
  · rintro ⟨⟨hkey, hkept⟩, hout⟩
    exact ⟨(h.lacked t ht key (Or.inl (h.spares key hkept))).2 ⟨hkey, hout⟩, hkept⟩

end Close

/-! ### Whole runs -/

lemma taken_add (calls : List Call) (t : Catalog) : taken (calls ++ [.add t]) = taken calls ++ [t] :=
  taken_append_one calls (.add t)

lemma taken_close (calls : List Call) : taken (calls ++ [.close]) = taken calls := by
  rw [taken_append_one]
  exact List.append_nil _

lemma nodup_ids_append_one {t : Catalog} (h : ((catalogs ++ [t]).map Catalog.id).Nodup) :
    (catalogs.map Catalog.id).Nodup ∧ t.id ∉ catalogs.map Catalog.id := by
  rw [List.map_append, List.map_singleton, List.nodup_append] at h
  exact ⟨h.1, fun hin => h.2.2 _ hin _ (List.mem_singleton.2 rfl) rfl⟩

/-- Wherever rounds are closed, what is said about the keys that are kept is right. -/
theorem tracks_run (calls : List Call) (hids : ((taken calls).map Catalog.id).Nodup) :
    Tracks (Kept (taken calls)) (taken calls) (run calls) := by
  induction calls using List.reverseRecOn with
  | nil => exact tracks_empty fun key reference => nofun
  | append_singleton calls call ih =>
    rw [run_append_one]
    cases call with
    | add t =>
      rw [taken_add] at hids ⊢
      obtain ⟨hnodup, hfresh⟩ := nodup_ids_append_one hids
      exact (ih hnodup).add hfresh (fun _ => Kept.of_append_one) fun _ hkey => hkey
    | close =>
      rw [taken_close] at hids ⊢
      exact (ih hids).close fun _ hkey => hkey

/-- As long as no round is closed, what is said about all keys is right. -/
theorem tracks_run_of_open (calls : List Call) (hids : ((taken calls).map Catalog.id).Nodup)
    (hopen : Call.close ∉ calls) :
    Tracks (fun _ => True) (taken calls) (run calls) ∧ (run calls).Filled := by
  induction calls using List.reverseRecOn with
  | nil => exact ⟨tracks_empty fun _ => trivial, fun id => nofun⟩
  | append_singleton calls call ih =>
    rw [run_append_one]
    cases call with
    | add t =>
      rw [taken_add] at hids ⊢
      obtain ⟨hnodup, hfresh⟩ := nodup_ids_append_one hids
      obtain ⟨htracks, hfilled⟩ := ih hnodup fun hin => hopen (List.mem_append_left _ hin)
      refine ⟨htracks.add hfresh (fun _ hkey => hkey) fun _ _ => trivial, ?_⟩
      obtain ⟨d, hd, he⟩ := (run calls).add_extends t
      rw [step, he]
      exact hd.filled hfilled
    | close => exact absurd (List.mem_append_right _ (List.mem_singleton.2 rfl)) hopen

/-! ### The report -/

lemma missingKeys_eq (r : CoverageReport) (id : String) :
    r.missingKeys id = ((r.missing.find? id).getD ∅).keys := by
  unfold CoverageReport.missingKeys
  cases r.missing.find? id <;> rfl

lemma mem_missingKeys_report (c : Coverage) (id key : String) :
    key ∈ c.report.missingKeys id ↔ key ∈ c.lackedBy id := by
  unfold lackedBy
  rw [missingKeys_eq, report, KeyMap.find?_mapValues]
  cases c.missing.find? id with
  | none => exact Iff.rfl
  | some keys => exact KeySet.mem_keys_ofList keys key

/-- Two reports tell the same about the reference, the generated keys and what each locale lacks. -/
structure SameReadings (r s : CoverageReport) : Prop where
  reference : r.reference = s.reference
  keys : r.keys = s.keys
  missingKeys : ∀ id, r.missingKeys id = s.missingKeys id

lemma sameReadings_report {c d : Coverage} (href : c.reference = d.reference)
    (hkeys : ∀ key, key ∈ c.keys.keys ↔ key ∈ d.keys.keys)
    (hlacked : ∀ id key, key ∈ c.lackedBy id ↔ key ∈ d.lackedBy id) :
    SameReadings c.report d.report := by
  refine ⟨href, KeySet.ext_mem hkeys, fun id => ?_⟩
  rw [missingKeys_eq, missingKeys_eq]
  refine congrArg KeyMap.keys (KeySet.ext_mem fun key => ?_)
  rw [← missingKeys_eq, ← missingKeys_eq, mem_missingKeys_report, mem_missingKeys_report, hlacked]

/-- Reports that tell the same are equal if they list the same locales. -/
lemma SameReadings.eq {r s : CoverageReport} (h : SameReadings r s)
    (hlisted : ∀ id, (r.missing.find? id).isSome = (s.missing.find? id).isSome) : r = s := by
  have hmissing : r.missing = s.missing := by
    refine KeyMap.ext_find? fun id => ?_
    have hkeys := h.missingKeys id
    have hid := hlisted id
    rw [missingKeys_eq, missingKeys_eq] at hkeys
    cases hr : r.missing.find? id with
    | none =>
      cases hs : s.missing.find? id with
      | none => rfl
      | some keys => rw [hr, hs] at hid; cases hid
    | some keys =>
      cases hs : s.missing.find? id with
      | none => rw [hr, hs] at hid; cases hid
      | some keys' =>
        rw [hr, hs, Option.getD_some, Option.getD_some] at hkeys
        exact congrArg some (KeySet.ext_mem fun key => by rw [hkeys])
  cases r
  cases s
  cases h.reference
  cases h.keys
  cases hmissing
  rfl

/-! ### Another order -/

lemma referenceOf_perm {catalogs' : List Catalog} (hperm : catalogs'.Perm catalogs)
    (hone : catalogs.countP Catalog.isReference ≤ 1) : referenceOf catalogs' = referenceOf catalogs := by
  unfold referenceOf
  rw [← List.head?_filter, ← List.head?_filter]
  have hmarked := hperm.filter Catalog.isReference
  rw [List.countP_eq_length_filter] at hone
  rcases hf : catalogs.filter Catalog.isReference with _ | ⟨t, _ | ⟨u, us⟩⟩
  · rw [hf] at hmarked
    rw [hmarked.eq_nil]
  · rw [hf] at hmarked
    rw [List.perm_singleton.1 hmarked]
  · rw [hf] at hone
    simp at hone

lemma generated_perm {catalogs' : List Catalog} (hperm : catalogs'.Perm catalogs)
    (hone : catalogs.countP Catalog.isReference ≤ 1) (key : String) :
    Generated catalogs' key ↔ Generated catalogs key := by
  rw [generated_iff, generated_iff]
  unfold Kept
  rw [referenceOf_perm hperm hone]
  simp only [hperm.mem_iff]

/-- The report of a run, once it has been closed. -/
def reportOf (calls : List Call) : CoverageReport :=
  (run (calls ++ [.close])).report

section Report

variable {calls others : List Call} (hids : ((taken calls).map Catalog.id).Nodup)
include hids

lemma reference_reportOf : (reportOf calls).reference = (referenceOf (taken calls)).map Catalog.id := by
  have htracks := tracks_run calls hids
  unfold reportOf
  rw [run_append_one]
  exact (reference_close _).trans htracks.reference

lemma mem_keys_reportOf (key : String) :
    key ∈ (reportOf calls).keys.keys ↔ Generated (taken calls) key := by
  unfold reportOf
  rw [run_append_one]
  exact (tracks_run calls hids).closed.1 key

lemma mem_missingKeys_reportOf {t : Catalog} (ht : t ∈ taken calls) (key : String) :
    key ∈ (reportOf calls).missingKeys t.id ↔ Generated (taken calls) key ∧ key ∉ t.exposedKeys := by
  unfold reportOf
  rw [mem_missingKeys_report, run_append_one]
  exact (tracks_run calls hids).closed.2 t ht key

/-- Nothing is said about a locale that has not been taken in. -/
lemma not_mem_missingKeys_reportOf {id : String} (hid : id ∉ (taken calls).map Catalog.id)
    (key : String) : key ∉ (reportOf calls).missingKeys id := by
  have htracks := tracks_run calls hids
  unfold reportOf
  rw [mem_missingKeys_report, run_append_one]
  intro hin
  have hknown := (htracks.within id key ((htracks.mem_lackedBy_close id key).1 hin).1).1
  exact hid (htracks.known ▸ hknown)

theorem sameReadings_reportOf (hperm : (taken others).Perm (taken calls))
    (hone : (taken calls).countP Catalog.isReference ≤ 1) :
    SameReadings (reportOf others) (reportOf calls) := by
  have hids' : ((taken others).map Catalog.id).Nodup := (hperm.map _).nodup_iff.2 hids
  refine sameReadings_report ?_ (fun key => ?_) fun id key => ?_
  · have hothers := reference_reportOf hids'
    rw [referenceOf_perm hperm hone] at hothers
    exact hothers.trans (reference_reportOf hids).symm
  · exact (mem_keys_reportOf hids' key).trans
      ((generated_perm hperm hone key).trans (mem_keys_reportOf hids key).symm)
  · rw [← mem_missingKeys_report, ← mem_missingKeys_report]
    by_cases hid : id ∈ (taken calls).map Catalog.id
    · obtain ⟨t, ht, rfl⟩ := List.mem_map.1 hid
      refine (mem_missingKeys_reportOf hids' (hperm.mem_iff.2 ht) key).trans ?_
      rw [generated_perm hperm hone]
      exact (mem_missingKeys_reportOf hids ht key).symm
    · have hid' : id ∉ (taken others).map Catalog.id := fun hin => hid ((hperm.map _).mem_iff.1 hin)
      exact iff_of_false (not_mem_missingKeys_reportOf hids' hid' key)
        (not_mem_missingKeys_reportOf hids hid key)

/-- If rounds are closed at the end only, then the reports are equal as a whole. -/
theorem reportOf_eq_of_open (hperm : (taken others).Perm (taken calls))
    (hone : (taken calls).countP Catalog.isReference ≤ 1) (hopen : Call.close ∉ calls)
    (hopen' : Call.close ∉ others) : reportOf others = reportOf calls := by
  have hids' : ((taken others).map Catalog.id).Nodup := (hperm.map _).nodup_iff.2 hids
  obtain ⟨htracks, hfilled⟩ := tracks_run_of_open calls hids hopen
  obtain ⟨htracks', hfilled'⟩ := tracks_run_of_open others hids' hopen'
  refine (sameReadings_reportOf hids hperm hone).eq fun id => ?_
  have href : (run others).reference = (run calls).reference := by
    rw [htracks.reference, htracks'.reference, referenceOf_perm hperm hone]
  have hkeys : ∀ key, key ∈ (run others).keys.keys ↔ key ∈ (run calls).keys.keys := by
    intro key
    rw [htracks.keys key trivial, htracks'.keys key trivial]
    simp only [hperm.mem_iff]
  have hlacked : ∀ key, key ∈ (run others).lackedBy id ↔ key ∈ (run calls).lackedBy id := by
    intro key
    by_cases hid : id ∈ (taken calls).map Catalog.id
    · obtain ⟨t, ht, rfl⟩ := List.mem_map.1 hid
      rw [htracks.lacked t ht key (Or.inl trivial), ← hkeys,
        htracks'.lacked t (hperm.mem_iff.2 ht) key (Or.inl trivial)]
    · have hid' : id ∉ (taken others).map Catalog.id := fun hin => hid ((hperm.map _).mem_iff.1 hin)
      exact iff_of_false (fun hin => hid' (htracks'.known ▸ (htracks'.within id key hin).1))
        fun hin => hid (htracks.known ▸ (htracks.within id key hin).1)
  have hlisted : ((run others).missing.find? id).isSome = ((run calls).missing.find? id).isSome := by
    rw [Bool.eq_iff_iff, hfilled.isSome_iff, hfilled'.isSome_iff]
    exact exists_congr hlacked
  unfold reportOf report
  rw [run_append_one, run_append_one, KeyMap.find?_mapValues, KeyMap.find?_mapValues, Option.isSome_map,
    Option.isSome_map, step, step, isSome_missing_close, isSome_missing_close, href, hlisted]

end Report

/-- **The report depends on the catalogs alone.** Let catalogs of different locales be taken in, and
rounds be closed anywhere among them and at the end. The reference is the first catalog that claims to
be it. The keys are those of the reference, or those of all catalogs if there is no reference. Each
catalog is said to lack those keys that it does not have. So if no more than one catalog claims to be
the reference, the report tells the same for every order of the catalogs, wherever rounds are closed,
and it is the same as a whole if that is at the end only. -/
theorem report_run (calls : List Call) (hids : ((taken calls).map Catalog.id).Nodup) :
    (reportOf calls).reference = (referenceOf (taken calls)).map Catalog.id ∧
    (∀ key, key ∈ (reportOf calls).keys.keys ↔ Generated (taken calls) key) ∧
    (∀ t ∈ taken calls, ∀ key, key ∈ (reportOf calls).missingKeys t.id ↔
      Generated (taken calls) key ∧ key ∉ t.exposedKeys) ∧
    ∀ others : List Call, (taken others).Perm (taken calls) →
      (taken calls).countP Catalog.isReference ≤ 1 →
      SameReadings (reportOf others) (reportOf calls) ∧
        (Call.close ∉ calls → Call.close ∉ others → reportOf others = reportOf calls) :=
  ⟨reference_reportOf hids, mem_keys_reportOf hids, fun _ ht => mem_missingKeys_reportOf hids ht,
    fun _ hperm hone => ⟨sameReadings_reportOf hids hperm hone, reportOf_eq_of_open hids hperm hone⟩⟩

/-- A locale with messages for callers and messages for its own use. -/
def plainLocale (id : String) (directives : List Directive) (exposed hidden : List String) : Catalog where
  id := id
  directives := directives
  messages := .ofList (exposed.map (fun key => (key, ⟨.exposed, [.text key], ∅⟩)) ++
    hidden.map (fun key => (key, ⟨.hidden, [.text key], ∅⟩)))

def frenchLocale : Catalog := plainLocale "fr" [] ["title", "old"] ["brand"]
def englishLocale : Catalog := plainLocale "en" [.reference] ["title", "bye"] []
def germanLocale : Catalog := plainLocale "de" [] ["old", "brand"] []

/-- A round is closed, and then a key comes up again that has just been dropped. -/
def revivingCalls : List Call :=
  [.add frenchLocale, .add englishLocale, .close, .add germanLocale]

theorem report_run_reviving :
    (reportOf revivingCalls).reference = some "en" ∧
    (∀ key, key ∈ (reportOf revivingCalls).keys.keys ↔ key = "bye" ∨ key = "title") ∧
    (∀ key, key ∈ (reportOf revivingCalls).missingKeys "fr" ↔ key = "bye") ∧
    (∀ key, key ∈ (reportOf revivingCalls).missingKeys "de" ↔ key = "bye" ∨ key = "title") ∧
    SameReadings (reportOf [.add germanLocale, .add frenchLocale, .close, .add englishLocale])
      (reportOf revivingCalls) := by
  obtain ⟨hreference, hkeys, hmissing, horder⟩ := report_run revivingCalls (by decide)
  have henglish : englishLocale.exposedKeys = ["bye", "title"] := by decide +kernel
  have hgenerated : ∀ key, Generated (taken revivingCalls) key ↔ key = "bye" ∨ key = "title" := by
    intro key
    show key ∈ englishLocale.exposedKeys ↔ _
    simp [henglish]
  have hfrench := hmissing frenchLocale (List.mem_cons_self ..)
  have hgerman := hmissing germanLocale
    (List.mem_cons_of_mem _ (List.mem_cons_of_mem _ (List.mem_cons_self ..)))
  refine ⟨hreference, fun key => (hkeys key).trans (hgenerated key), fun key => ?_, fun key => ?_,
    (horder _ ?_ (by decide)).1⟩
  · rw [show "fr" = frenchLocale.id from rfl, hfrench, hgenerated,
      show frenchLocale.exposedKeys = ["old", "title"] by decide +kernel]
    constructor
    · rintro ⟨rfl | rfl, hout⟩
      · rfl
      · simp at hout
    · rintro rfl
      exact ⟨Or.inl rfl, by decide⟩
  · rw [show "de" = germanLocale.id from rfl, hgerman, hgenerated,
      show germanLocale.exposedKeys = ["brand", "old"] by decide +kernel]
    refine and_iff_left_of_imp ?_
    rintro (rfl | rfl) <;> decide
  · exact (List.perm_append_singleton germanLocale [frenchLocale, englishLocale]).symm

/-! ### The reports of the checks -/

lemma taken_map_add (catalogs : List Catalog) : taken (catalogs.map Call.add) = catalogs := by
  unfold taken
  rw [List.filterMap_map]
  exact List.filterMap_some

end Coverage

lemma coverage_foldl_add (catalogs : List Catalog) (c : Checking) :
    (catalogs.foldl Checking.add c).coverage =
      (catalogs.map Coverage.Call.add).foldl Coverage.step c.coverage := by
  induction catalogs generalizing c with
  | nil => rfl
  | cons d ds ih =>
    rw [List.foldl_cons, ih]
    rfl

/-- The checks take in all catalogs and then close the round. -/
theorem checkCatalogs_coverage {catalogs : List Catalog} {reports : Reports}
    (h : (checkCatalogs catalogs).reports = some reports) :
    reports.coverage = Coverage.reportOf (catalogs.map .add) := by
  unfold checkCatalogs Checking.verdict at h
  simp only at h
  split at h
  · cases h
    unfold Coverage.reportOf
    rw [Coverage.run_append_one, coverage_foldl_add]
    rfl
  · cases h

section Checked

open Coverage

variable {catalogs : List Catalog} (hids : (catalogs.map Catalog.id).Nodup) {reports : Reports}
  (hreports : (checkCatalogs catalogs).reports = some reports)
include hids hreports

lemma reference_coverage : reports.coverage.reference = (referenceOf catalogs).map Catalog.id := by
  rw [← taken_map_add catalogs] at hids
  rw [checkCatalogs_coverage hreports, reference_reportOf hids, taken_map_add]

lemma mem_keys_coverage (key : String) :
    key ∈ reports.coverage.keys.keys ↔ Generated catalogs key := by
  rw [← taken_map_add catalogs] at hids
  rw [checkCatalogs_coverage hreports, mem_keys_reportOf hids, taken_map_add]

lemma mem_missingKeys_coverage {catalog : Catalog} (hcatalog : catalog ∈ catalogs) (key : String) :
    key ∈ reports.coverage.missingKeys catalog.id ↔
      key ∈ reports.coverage.keys.keys ∧ catalog.exposed? key = none := by
  rw [mem_keys_coverage hids hreports]
  rw [← taken_map_add catalogs] at hids hcatalog
  rw [checkCatalogs_coverage hreports, mem_missingKeys_reportOf hids hcatalog, taken_map_add,
    Catalog.mem_exposedKeys_iff, not_not]

/-- A catalog lacks the generated keys that it has no message for, in their order. -/
theorem missingKeys_eq_filter {catalog : Catalog} (hcatalog : catalog ∈ catalogs) :
    reports.coverage.missingKeys catalog.id =
      reports.coverage.keys.keys.filter fun key => (catalog.exposed? key).isNone := by
  refine KeyMap.eq_of_ordered ?_ ((KeyMap.keys_ordered _).filter _) fun key => ?_
  · rw [missingKeys_eq]
    exact KeyMap.keys_ordered _
  · rw [mem_missingKeys_coverage hids hreports hcatalog, List.mem_filter, Option.isNone_iff_eq_none]

end Checked

end Polyglot
