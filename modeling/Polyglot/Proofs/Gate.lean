import Polyglot.Proofs.Buckets

/-!
# When the checks give reports

Generation goes on only if no key has more than one signature. Whether that is so can be told from the
catalogs alone: each message that can be called must have fewer names than all the earlier ones of its
key together, or more. The one signature of a key is then what all its messages have.

* `summarises_collect`: what one signature says about those it has been put together from;
* `length_collect_le_one_iff`: when signatures can be put together to one;
* `isSome_reports_iff`: there are reports exactly if no key has a second signature;
* `checkCatalogs_gate`: the main statement.
-/

namespace Polyglot

open Parameter (names)

/-! ### The hint of a name -/

namespace Parameter

/-- The hint that parameters have for a name, `unknown` if they do not have the name. -/
def hintOf (ps : List Parameter) (name : String) : Hint :=
  ((find? ps name).map (·.hint)).getD .unknown

lemma hintOf_of_mem {ps : List Parameter} (hnodup : (names ps).Nodup) {p : Parameter} (hp : p ∈ ps) :
    hintOf ps p.name = p.hint := by
  have hget : find? ps p.name = some p := by
    induction ps with
    | nil => cases hp
    | cons q qs ih =>
      obtain ⟨hq, hqs⟩ := List.nodup_cons.1 hnodup
      rcases List.mem_cons.1 hp with rfl | hp
      · exact List.find?_cons_of_pos (by simp)
      · have hne : q.name ≠ p.name := fun he => hq (List.mem_map.2 ⟨p, hp, he.symm⟩)
        rw [find?, List.find?_cons_of_neg (by simpa using hne)]
        exact ih hqs hp
  rw [hintOf, hget]
  rfl

end Parameter

open Parameter (hintOf find? Clash exceeds_iff_not_subset)

namespace Hint

lemma unknown_merge (h : Hint) : Hint.unknown.merge h = h := by
  cases h <;> rfl

lemma merge_comm (h k : Hint) : h.merge k = k.merge h := by
  cases h <;> cases k <;> rfl

end Hint

namespace Signature

lemma find?_joinParameters (base other : List Parameter) (name : String) :
    find? (joinParameters base other) name =
      ((find? base name).map (withHintOf other)).or (find? other name) := by
  have hbase : find? (base.map (withHintOf other)) name = (find? base name).map (withHintOf other) := by
    unfold find?
    rw [List.find?_map]
    rfl
  have hother : find? base name = none → find? (missingFrom base other) name = find? other name := by
    intro hnone
    unfold missingFrom
    rw [find?, find?, List.find?_filter]
    congr 1
    funext p
    by_cases hp : p.name = name
    · simp [hp, hnone]
    · simp [hp]
  have happend : find? (joinParameters base other) name =
      (find? (base.map (withHintOf other)) name).or (find? (missingFrom base other) name) :=
    List.find?_append
  rw [happend, hbase]
  cases hget : find? base name with
  | none => exact hother hget
  | some p => rfl

lemma hintOf_joinParameters (base other : List Parameter) (name : String) :
    hintOf (joinParameters base other) name = (hintOf base name).merge (hintOf other name) := by
  unfold hintOf
  rw [find?_joinParameters]
  cases hget : find? base name with
  | none => exact (Hint.unknown_merge _).symm
  | some p =>
    have hname : p.name = name := by simpa using List.find?_some hget
    subst hname
    rfl

/-- A merge has the hints of both. -/
theorem hintOf_merge? {a b c : Signature} (h : a.merge? b = some c) (name : String) :
    hintOf c.parameters name = (hintOf a.parameters name).merge (hintOf b.parameters name) := by
  rcases merge?_parameters h with hc | hc
  · rw [hc, hintOf_joinParameters]
  · rw [hc, hintOf_joinParameters, Hint.merge_comm]

lemma usedIn_merge? {a b c : Signature} (h : a.merge? b = some c) :
    c.usedIn = a.usedIn.union b.usedIn := by
  unfold merge? at h
  split at h
  · cases h
    rfl
  · split at h
    · cases h
      rfl
    · cases h

end Signature

namespace Agreement

/-! ### One signature for many -/

/-- The parameters of some signatures, one after the other. -/
def mentions (ss : List Signature) : List Parameter :=
  ss.flatMap (·.parameters)

/-- The hints that some signatures have for a name, merged. -/
def sharedHint (ss : List Signature) (name : String) : Hint :=
  ss.foldl (fun h s => h.merge (hintOf s.parameters name)) .unknown

/-- The signature has the names, the hints and the locales of all of these, and no name twice unless
one of them has. -/
structure Summarises (s : Signature) (ss : List Signature) : Prop where
  names : ∀ name, name ∈ names s.parameters ↔ name ∈ names (mentions ss)
  distinct : (∀ t ∈ ss, (Parameter.names t.parameters).Nodup) →
    (Parameter.names s.parameters).Nodup
  hint : ∀ name, hintOf s.parameters name = sharedHint ss name
  usedIn : ∀ id, id ∈ s.usedIn.keys ↔ ∃ t ∈ ss, id ∈ t.usedIn.keys

lemma mem_names_mentions_append_one {ss : List Signature} {x : Signature} {name : String} :
    name ∈ names (mentions (ss ++ [x])) ↔ name ∈ names (mentions ss) ∨ name ∈ names x.parameters := by
  simp [names, mentions]

lemma sharedHint_append_one (ss : List Signature) (x : Signature) (name : String) :
    sharedHint (ss ++ [x]) name = (sharedHint ss name).merge (hintOf x.parameters name) := by
  unfold sharedHint
  rw [List.foldl_append]
  rfl

lemma summarises_one (x : Signature) : Summarises x [x] where
  names name := by simp [mentions]
  distinct h := h x (List.mem_singleton.2 rfl)
  hint name := (Hint.unknown_merge _).symm
  usedIn id := by simp

lemma Summarises.merge {u x s : Signature} {ss : List Signature} (h : Summarises u ss)
    (hm : u.merge? x = some s) : Summarises s (ss ++ [x]) where
  names name := by
    rw [Signature.mem_names_merge? hm, h.names, mem_names_mentions_append_one]
  distinct hss := by
    refine Signature.nodup_names_merge? hm (h.distinct fun t ht => hss t ?_) (hss x ?_)
    · exact List.mem_append_left _ ht
    · exact List.mem_append_right _ (List.mem_singleton.2 rfl)
  hint name := by
    rw [Signature.hintOf_merge? hm, h.hint, sharedHint_append_one]
  usedIn id := by
    rw [Signature.usedIn_merge? hm, KeySet.mem_keys_union, h.usedIn]
    simp [or_and_right, exists_or]

lemma collect_eq_nil_iff (ss : List Signature) : collect ss = [] ↔ ss = [] := by
  refine ⟨fun h => ?_, fun h => by rw [h]; rfl⟩
  induction ss using List.reverseRecOn with
  | nil => rfl
  | append_singleton ss x =>
    rw [collect_append_one] at h
    rcases place_cases (collect ss) x with ⟨before, t, after, merged, -, -, -, he⟩ | ⟨-, he⟩
    · simp [he] at h
    · simp [he] at h

lemma place_eq_singleton {bucket : List Signature} {x s : Signature}
    (h : (place bucket x).1 = [s]) :
    bucket = [] ∧ x = s ∨ ∃ u, bucket = [u] ∧ u.merge? x = some s := by
  rcases place_cases bucket x with ⟨before, t, after, merged, hb, -, hm, he⟩ | ⟨-, he⟩
  · rw [he] at h
    obtain ⟨rfl, hcons⟩ := (List.append_eq_singleton_iff.1 h).resolve_right (by simp)
    cases hcons
    exact Or.inr ⟨t, hb, hm⟩
  · rw [he] at h
    obtain ⟨hb, hx⟩ := (List.append_eq_singleton_iff.1 h).resolve_right (by simp)
    exact Or.inl ⟨hb, List.singleton_inj.1 hx⟩

/-- **If one signature is left, it stands for all that have been taken in.** -/
theorem summarises_collect {ss : List Signature} {s : Signature} (h : collect ss = [s]) :
    Summarises s ss := by
  induction ss using List.reverseRecOn generalizing s with
  | nil => cases h
  | append_singleton ss x ih =>
    rw [collect_append_one] at h
    rcases place_eq_singleton h with ⟨hnil, rfl⟩ | ⟨u, hu, hm⟩
    · rw [(collect_eq_nil_iff ss).1 hnil]
      exact summarises_one x
    · exact (ih hu).merge hm

/-- One more signature leaves one if there was no more than one, and its names are among those
before, or these among its own. -/
lemma length_collect_append_one (ss : List Signature) (x : Signature) :
    (collect (ss ++ [x])).length ≤ 1 ↔ (collect ss).length ≤ 1 ∧
      (names x.parameters ⊆ names (mentions ss) ∨ names (mentions ss) ⊆ names x.parameters) := by
  rw [collect_append_one]
  rcases hc : collect ss with _ | ⟨t, _ | ⟨u, us⟩⟩
  · rw [(collect_eq_nil_iff ss).1 hc]
    simp [place, mergeFirst, mentions, names]
  · -- the one signature has all names so far
    have hnames : ∀ name, name ∈ names t.parameters ↔ name ∈ names (mentions ss) :=
      (summarises_collect hc).names
    have hclash : (names x.parameters ⊆ names (mentions ss) ∨
        names (mentions ss) ⊆ names x.parameters) ↔ t.merge? x ≠ none := by
      rw [Ne, Signature.merge?_eq_none_iff, Clash, exceeds_iff_not_subset, exceeds_iff_not_subset,
        not_and_or, not_not, not_not, or_comm]
      simp [List.subset_def, hnames]
    rw [hclash]
    cases hm : t.merge? x with
    | none => simp [place, mergeFirst, hm]
    | some merged => simp [place, mergeFirst, hm]
  · have hle := length_le_place (t :: u :: us) x
    simp only [List.length_cons] at hle ⊢
    constructor <;> intro h <;> omega

/-- Signatures are put together to one exactly if the names of each are among those before, or these
among its own. -/
theorem length_collect_le_one_iff (ss : List Signature) :
    (collect ss).length ≤ 1 ↔ ∀ before x, before ++ [x] <+: ss →
      names x.parameters ⊆ names (mentions before) ∨ names (mentions before) ⊆ names x.parameters := by
  induction ss using List.reverseRecOn with
  | nil => simp [collect]
  | append_singleton ss x ih =>
    rw [length_collect_append_one, ih]
    constructor
    · rintro ⟨hold, hnew⟩ before y hpre
      rcases List.prefix_concat_iff.1 hpre with he | hpre
      · obtain ⟨rfl, hy⟩ := List.append_inj' he rfl
        rw [List.singleton_inj.1 hy]
        exact hnew
      · exact hold before y hpre
    · intro h
      exact ⟨fun before y hpre => h before y (hpre.trans (List.prefix_append ..)),
        h ss x List.prefix_rfl⟩

/-! ### The locales of a key -/

lemma uses_ne_nil_iff {catalogs : List Catalog} {key : String} :
    uses catalogs key ≠ [] ↔ ∃ catalog ∈ catalogs, catalog.exposed? key ≠ none := by
  unfold uses
  rw [Ne, List.filterMap_eq_nil_iff]
  simp

lemma mem_usedIn_uses {catalogs : List Catalog} {key id : String} :
    (∃ t ∈ uses catalogs key, id ∈ t.usedIn.keys) ↔
      ∃ catalog ∈ catalogs, catalog.id = id ∧ catalog.exposed? key ≠ none := by
  have hlocale : ∀ (ps : List Parameter) (other : String),
      id ∈ (Signature.ofLocale ps other).usedIn.keys ↔ id = other := by
    intro ps other
    unfold Signature.ofLocale
    rw [KeySet.mem_keys_insert]
    exact or_iff_left List.not_mem_nil
  constructor
  · rintro ⟨t, ht, hid⟩
    obtain ⟨catalog, hc, m, hm, rfl⟩ := mem_uses_iff.1 ht
    exact ⟨catalog, hc, ((hlocale _ _).1 hid).symm, by simp [hm]⟩
  · rintro ⟨catalog, hc, rfl, hne⟩
    obtain ⟨m, hm⟩ := Option.ne_none_iff_exists'.1 hne
    exact ⟨_, mem_uses_iff.2 ⟨catalog, hc, m, hm, rfl⟩, (hlocale _ _).2 rfl⟩

lemma find?_report_addAll (catalogs : List Catalog) (key : String) :
    (addAll {} catalogs).report.find? key = (collect (uses catalogs key)).head? := by
  rw [find?_report, find?_addAll]
  split
  · rename_i hnil
    rw [hnil]
    rfl
  · rfl

/-! ### The verdict -/

/-- No key has more than one signature. -/
def Single (a : Agreement) : Prop :=
  ∀ key bucket, a.buckets.find? key = some bucket → bucket.length ≤ 1

lemma close_iff_single (a : Agreement) : a.close.1 = true ↔ a.Single := by
  refine ⟨fun h key bucket hf => length_le_one_of_close h hf, fun h => ?_⟩
  refine List.isEmpty_iff.2 (List.filterMap_eq_nil_iff.2 fun e he => if_neg ?_)
  exact Nat.not_lt.2 (h e.1 e.2 ((KeyMap.mem_entries_iff _ _ _).1 he))

lemma single_addAll_iff (catalogs : List Catalog) :
    (addAll {} catalogs).Single ↔ ∀ key, (collect (uses catalogs key)).length ≤ 1 := by
  constructor
  · intro h key
    by_cases hnil : uses catalogs key = []
    · rw [hnil]
      exact Nat.zero_le 1
    · exact h key _ (by rw [find?_addAll, if_neg hnil])
  · intro h key bucket hf
    rw [find?_addAll] at hf
    split at hf
    · cases hf
    · rw [← Option.some.inj hf]
      exact h key

/-- What holds at the end of a run and then held before each step has held throughout, so that no step
has changed `g`. -/
lemma foldl_backward {σ α β : Type} {f : σ → α → σ} {I : σ → Prop} {g : σ → β}
    (hstep : ∀ s x, I (f s x) → I s ∧ g (f s x) = g s) (xs : List α) (s : σ)
    (h : I (xs.foldl f s)) : I s ∧ g (xs.foldl f s) = g s := by
  induction xs generalizing s with
  | nil => exact ⟨h, rfl⟩
  | cons x xs ih =>
    obtain ⟨hx, hg⟩ := ih (f s x) h
    obtain ⟨hs, hg'⟩ := hstep s x hx
    exact ⟨hs, hg.trans hg'⟩

/-- A signature that does not fit is put beside another. -/
lemma fits_of_length_place {bucket : List Signature} {s : Signature}
    (h : (place bucket s).1.length ≤ 1) : (place bucket s).2 = true := by
  rcases place_cases bucket s with ⟨before, t, after, merged, -, -, -, he⟩ | ⟨-, he⟩
  · rw [he]
  · rw [he] at h ⊢
    rw [List.isEmpty_iff, ← List.length_eq_zero_iff]
    simpa using h

/-- A message that does not fit leaves a second signature, and that one stays. -/
lemma single_of_addMessage {id : String} {state : Agreement × Bool} {e : String × Message}
    (h : (addMessage id state e).1.Single) :
    state.1.Single ∧ (addMessage id state e).2 = state.2 := by
  have hplace := h e.1 _ (by rw [find?_addMessage, if_pos rfl])
  constructor
  · intro key bucket hf
    by_cases hk : key = e.1
    · subst hk
      rw [hf] at hplace
      exact Nat.le_trans (length_le_place _ _) hplace
    · exact h key bucket (by rw [find?_addMessage, if_neg hk, hf])
  · unfold addMessage
    simp only [fits_of_length_place hplace, Bool.and_true]

lemma single_of_add {a : Agreement} {catalog : Catalog} (h : (a.add catalog).1.Single) :
    a.Single ∧ (a.add catalog).2 = true :=
  foldl_backward (f := addMessage catalog.id) (I := fun state => state.1.Single)
    (fun _ _ => single_of_addMessage) catalog.exposed (a, true) h

end Agreement

lemma Checking.single_of_add {c : Checking} {catalog : Catalog} (h : (c.add catalog).agreement.Single) :
    c.agreement.Single ∧ (c.add catalog).valid = c.valid := by
  obtain ⟨hsingle, hfits⟩ := Agreement.single_of_add (a := c.agreement) h
  refine ⟨hsingle, ?_⟩
  unfold Checking.add
  simp only [hfits, Bool.and_true]

/-- There are reports exactly if no key has a second signature. -/
theorem isSome_reports_iff (catalogs : List Catalog) :
    (checkCatalogs catalogs).reports.isSome = true ↔ (Agreement.addAll {} catalogs).Single := by
  constructor
  · intro h
    obtain ⟨reports, hreports⟩ := Option.isSome_iff_exists.1 h
    exact (Agreement.close_iff_single _).1 (checkCatalogs_agreement hreports).1
  · intro h
    have hagreement : (catalogs.foldl Checking.add {}).agreement = Agreement.addAll {} catalogs :=
      agreement_foldl_add catalogs {}
    have hvalid : (catalogs.foldl Checking.add {}).valid = true :=
      (Agreement.foldl_backward (I := fun c : Checking => c.agreement.Single)
        (fun _ _ => Checking.single_of_add) catalogs {} (hagreement ▸ h)).2
    have hclose : (catalogs.foldl Checking.add {}).agreement.close.1 = true :=
      (Agreement.close_iff_single _).2 (hagreement ▸ h)
    unfold checkCatalogs Checking.verdict
    simp only [hvalid, hclose, Bool.and_true, if_true, Option.isSome_some]

/-! ### The gate -/

open Agreement (uses mentions sharedHint)

/-- **When the checks give reports, and what they say of a key.** There are reports exactly if the
names of each message that can be called are among the names that the earlier catalogs have for its
key, or these among its own. The reports have a signature for just those keys that can be called in
some catalog. It has the names that any of the catalogs has for the key, none of them twice, and it is
used in the locales that have the key. Each of its parameters has the hints that the catalogs have for
its name. -/
theorem checkCatalogs_gate (catalogs : List Catalog) :
    ((checkCatalogs catalogs).reports.isSome = true ↔
      ∀ key earlier catalog m, earlier ++ [catalog] <+: catalogs → catalog.exposed? key = some m →
        names m.parameters.toList ⊆ names (mentions (uses earlier key)) ∨
          names (mentions (uses earlier key)) ⊆ names m.parameters.toList) ∧
    ∀ reports, (checkCatalogs catalogs).reports = some reports → ∀ key,
      (reports.agreement.find? key ≠ none ↔ ∃ catalog ∈ catalogs, catalog.exposed? key ≠ none) ∧
      ∀ s, reports.agreement.find? key = some s →
        (∀ name, name ∈ names s.parameters ↔ name ∈ names (mentions (uses catalogs key))) ∧
        (∀ id, id ∈ s.usedIn.keys ↔
          ∃ catalog ∈ catalogs, catalog.id = id ∧ catalog.exposed? key ≠ none) ∧
        (names s.parameters).Nodup ∧
        ∀ p ∈ s.parameters, p.hint = sharedHint (uses catalogs key) p.name := by
  refine ⟨?_, fun reports hreports key => ?_⟩
  · rw [isSome_reports_iff, Agreement.single_addAll_iff]
    refine forall_congr' fun key => ?_
    rw [Agreement.length_collect_le_one_iff]
    constructor
    · intro h earlier catalog m hpre hm
      exact h _ _ (Agreement.prefix_uses_iff.2 ⟨earlier, catalog, m, hpre, hm, rfl, rfl⟩)
    · intro h before x hpre
      obtain ⟨earlier, catalog, m, hcatalog, hm, rfl, rfl⟩ := Agreement.prefix_uses_iff.1 hpre
      exact h earlier catalog m hcatalog hm
  · obtain ⟨hclose, hreport⟩ := checkCatalogs_agreement hreports
    have hsingle := (Agreement.single_addAll_iff _).1 ((Agreement.close_iff_single _).1 hclose) key
    rw [hreport, Agreement.find?_report_addAll]
    refine ⟨?_, fun s hs => ?_⟩
    · rw [Ne, List.head?_eq_none_iff, Agreement.collect_eq_nil_iff, ← Ne, Agreement.uses_ne_nil_iff]
    · have hsum : Agreement.Summarises s (uses catalogs key) := by
        refine Agreement.summarises_collect ?_
        obtain ⟨rest, hrest⟩ := List.head?_eq_some_iff.1 hs
        rw [hrest] at hsingle ⊢
        rw [List.length_eq_zero_iff.1 (Nat.le_zero.1 (Nat.le_of_succ_le_succ hsingle))]
      have hnodup : (names s.parameters).Nodup := by
        refine hsum.distinct fun t ht => ?_
        obtain ⟨catalog, -, m, -, rfl⟩ := Agreement.mem_uses_iff.1 ht
        exact m.parameters.nodup
      refine ⟨hsum.names, fun id => ?_, hnodup, fun p hp => ?_⟩
      · rw [hsum.usedIn, Agreement.mem_usedIn_uses]
      · rw [← Parameter.hintOf_of_mem hnodup hp, hsum.hint]

/-- Two locales of which the second has one name more and a hint for the other. -/
def countingLocales : List Catalog :=
  [Agreement.localeWith "de" [⟨"count", .unknown⟩],
    Agreement.localeWith "en" [⟨"count", .number⟩, ⟨"what", .unknown⟩]]

theorem checkCatalogs_gate_counting :
    ∃ reports s, (checkCatalogs countingLocales).reports = some reports ∧
      reports.agreement.find? "title" = some s ∧
      (∀ name, name ∈ names s.parameters ↔ name = "count" ∨ name = "what") ∧
      (∀ id, id ∈ s.usedIn.keys ↔ id = "de" ∨ id = "en") ∧
      (names s.parameters).Nodup ∧
      ∀ p ∈ s.parameters, p.hint = if p.name = "count" then .number else .unknown := by
  obtain ⟨reports, hreports⟩ := Option.isSome_iff_exists.1
    (show (checkCatalogs countingLocales).reports.isSome = true by decide +kernel)
  obtain ⟨hkey, hsignature⟩ := (checkCatalogs_gate countingLocales).2 reports hreports "title"
  obtain ⟨s, hs⟩ := Option.ne_none_iff_exists'.1
    (hkey.2 (by simp [countingLocales]))
  obtain ⟨hnames, husedIn, hnodup, hhint⟩ := hsignature s hs
  have hmentions : names (mentions (uses countingLocales "title")) = ["count", "count", "what"] := by
    decide +kernel
  have hnames' : ∀ name, name ∈ names s.parameters ↔ name = "count" ∨ name = "what" := by
    simp [hnames, hmentions]
  refine ⟨reports, s, hreports, hs, hnames', fun id => ?_, hnodup, fun p hp => ?_⟩
  · rw [husedIn]
    simp [countingLocales, eq_comm]
  · rw [hhint p hp]
    rcases (hnames' p.name).1 (List.mem_map_of_mem hp) with he | he
    · rw [he]
      decide +kernel
    · rw [he]
      decide +kernel

end Polyglot
