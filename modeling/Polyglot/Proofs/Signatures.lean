import Polyglot.Check
import Polyglot.Proofs.Maps
import Polyglot.Proofs.Parameters

/-!
# Signatures and the names in them

Merging two signatures keeps the names of both, so that the signature of a key only ever grows. If
the checks give reports, each key has one signature, and it has every name that some catalog uses.

* `names_joinParameters`, `mem_names_merge?`, `nodup_names_merge?`: the names of a merge;
* `mergeFirst_some`: where a signature goes;
* `Agreement.Covers`, `Agreement.Proper`: what one message keeps, a catalog keeps and a round keeps;
* `reports_signature`: what the signature of a key has in the reports.
-/

namespace Polyglot

open Parameter (names)

/-! ### The names of a merge -/

namespace Signature

lemma find?_isNone_iff (qs : List Parameter) (name : String) :
    (Parameter.find? qs name).isNone = true ↔ name ∉ names qs := by
  unfold Parameter.find? names
  rw [Option.isNone_iff_eq_none, List.find?_eq_none]
  constructor
  · intro h hmem
    obtain ⟨p, hp, rfl⟩ := List.mem_map.1 hmem
    exact h p hp (by simp)
  · intro h p hp heq
    exact h (List.mem_map.2 ⟨p, hp, by simpa using heq⟩)

lemma names_missingFrom (qs ps : List Parameter) :
    names (missingFrom qs ps) = (names ps).filter (fun name => decide (name ∉ names qs)) := by
  unfold missingFrom names
  rw [List.filter_map]
  congr 1
  refine List.filter_congr fun p _ => ?_
  rw [Bool.eq_iff_iff, find?_isNone_iff]
  simp [names]

theorem names_joinParameters (base other : List Parameter) :
    names (joinParameters base other) =
      names base ++ (names other).filter (fun name => decide (name ∉ names base)) := by
  have hbase : names (base.map (withHintOf other)) = names base := by
    unfold names
    rw [List.map_map]
    rfl
  rw [← names_missingFrom, ← hbase]
  unfold joinParameters names
  rw [List.map_append]

lemma mem_names_joinParameters {base other : List Parameter} {name : String} :
    name ∈ names (joinParameters base other) ↔ name ∈ names base ∨ name ∈ names other := by
  rw [names_joinParameters, List.mem_append, List.mem_filter, decide_eq_true_iff]
  constructor
  · rintro (h | ⟨h, -⟩)
    · exact Or.inl h
    · exact Or.inr h
  · rintro (h | h)
    · exact Or.inl h
    · by_cases hb : name ∈ names base
      · exact Or.inl hb
      · exact Or.inr ⟨h, hb⟩

lemma nodup_names_joinParameters {base other : List Parameter} (hb : (names base).Nodup)
    (ho : (names other).Nodup) : (names (joinParameters base other)).Nodup := by
  rw [names_joinParameters]
  refine List.nodup_append.2 ⟨hb, ho.filter _, ?_⟩
  intro a ha b hmem heq
  obtain ⟨-, hb'⟩ := List.mem_filter.1 hmem
  exact (decide_eq_true_iff.1 hb') (heq ▸ ha)

/-- A merge joins the parameters, in one order or the other. -/
lemma merge?_parameters {a b c : Signature} (h : a.merge? b = some c) :
    c.parameters = joinParameters a.parameters b.parameters ∨
      c.parameters = joinParameters b.parameters a.parameters := by
  unfold merge? at h
  split at h
  · cases h
    exact Or.inl rfl
  · split at h
    · cases h
      exact Or.inr rfl
    · cases h

theorem mem_names_merge? {a b c : Signature} (h : a.merge? b = some c) {name : String} :
    name ∈ names c.parameters ↔ name ∈ names a.parameters ∨ name ∈ names b.parameters := by
  rcases merge?_parameters h with hc | hc
  · rw [hc, mem_names_joinParameters]
  · rw [hc, mem_names_joinParameters]
    exact or_comm

theorem nodup_names_merge? {a b c : Signature} (h : a.merge? b = some c)
    (ha : (names a.parameters).Nodup) (hb : (names b.parameters).Nodup) :
    (names c.parameters).Nodup := by
  rcases merge?_parameters h with hc | hc
  · rw [hc]
    exact nodup_names_joinParameters ha hb
  · rw [hc]
    exact nodup_names_joinParameters hb ha

/-- All names are different, and have the property `P`. -/
def Proper (P : String → Prop) (s : Signature) : Prop :=
  (names s.parameters).Nodup ∧ ∀ name ∈ names s.parameters, P name

theorem Proper.merge? {P : String → Prop} {a b c : Signature} (ha : a.Proper P) (hb : b.Proper P)
    (h : a.merge? b = some c) : c.Proper P := by
  refine ⟨nodup_names_merge? h ha.1 hb.1, fun name hn => ?_⟩
  rcases (mem_names_merge? h).1 hn with hn | hn
  · exact ha.2 name hn
  · exact hb.2 name hn

end Signature

lemma Catalog.mem_exposed_iff {catalog : Catalog} {e : String × Message} :
    e ∈ catalog.exposed ↔ catalog.exposed? e.1 = some e.2 := by
  unfold exposed exposed?
  rw [List.mem_filter, Option.filter_eq_some_iff, ← KeyMap.mem_entries_iff]

/-! ### The signatures of a key -/

namespace Agreement

theorem mergeFirst_some {s : Signature} {bucket bucket' : List Signature}
    (h : mergeFirst s bucket = some bucket') :
    ∃ before t after merged, bucket = before ++ t :: after ∧ (∀ u ∈ before, u.merge? s = none) ∧
      t.merge? s = some merged ∧ bucket' = before ++ merged :: after := by
  induction bucket generalizing bucket' with
  | nil => cases h
  | cons t ts ih =>
    unfold mergeFirst at h
    split at h
    · rename_i merged hm
      cases h
      exact ⟨[], t, ts, merged, rfl, fun u hu => absurd hu List.not_mem_nil, hm, rfl⟩
    · rename_i hnone
      obtain ⟨ts', hts, rfl⟩ := Option.map_eq_some_iff.1 h
      obtain ⟨before, u, after, merged, rfl, hbefore, hm, rfl⟩ := ih hts
      exact ⟨t :: before, u, after, merged, rfl, List.forall_mem_cons.2 ⟨hnone, hbefore⟩, hm, rfl⟩

lemma mergeFirst_none {s : Signature} {bucket : List Signature} (h : mergeFirst s bucket = none) :
    ∀ t ∈ bucket, t.merge? s = none := by
  induction bucket with
  | nil => exact fun t ht => absurd ht List.not_mem_nil
  | cons t ts ih =>
    unfold mergeFirst at h
    split at h
    · cases h
    · rename_i hnone
      exact List.forall_mem_cons.2 ⟨hnone, ih (Option.map_eq_none_iff.1 h)⟩

/-- What taking in a signature does to those that are there: the first that can takes it up, or it
goes to the end. -/
theorem place_cases (bucket : List Signature) (s : Signature) :
    (∃ before t after merged, bucket = before ++ t :: after ∧ (∀ u ∈ before, u.merge? s = none) ∧
      t.merge? s = some merged ∧ place bucket s = (before ++ merged :: after, true)) ∨
    (∀ t ∈ bucket, t.merge? s = none) ∧ place bucket s = (bucket ++ [s], bucket.isEmpty) := by
  unfold place
  split
  · rename_i bucket' h
    obtain ⟨before, t, after, merged, hb, hbefore, hm, rfl⟩ := mergeFirst_some h
    exact Or.inl ⟨before, t, after, merged, hb, hbefore, hm, rfl⟩
  · rename_i h
    exact Or.inr ⟨mergeFirst_none h, rfl⟩

/-- Some signature has all these names. -/
def BucketCovers (bucket : List Signature) (ps : List Parameter) : Prop :=
  ∃ s ∈ bucket, ∀ name ∈ names ps, name ∈ names s.parameters

lemma bucketCovers_place {bucket : List Signature} {ps : List Parameter}
    (h : BucketCovers bucket ps) (s : Signature) : BucketCovers (place bucket s).1 ps := by
  obtain ⟨u, hu, hnames⟩ := h
  rcases place_cases bucket s with ⟨before, t, after, merged, rfl, -, hm, he⟩ | ⟨-, he⟩
  · rw [he]
    rcases List.mem_append.1 hu with hu | hu
    · exact ⟨u, List.mem_append_left _ hu, hnames⟩
    · rcases List.mem_cons.1 hu with rfl | hu
      · refine ⟨merged, List.mem_append_right _ (List.mem_cons_self ..), fun name hn => ?_⟩
        exact (Signature.mem_names_merge? hm).2 (Or.inl (hnames name hn))
      · exact ⟨u, List.mem_append_right _ (List.mem_cons_of_mem _ hu), hnames⟩
  · rw [he]
    exact ⟨u, List.mem_append_left _ hu, hnames⟩

lemma bucketCovers_place_self (bucket : List Signature) (s : Signature) :
    BucketCovers (place bucket s).1 s.parameters := by
  rcases place_cases bucket s with ⟨before, t, after, merged, -, -, hm, he⟩ | ⟨-, he⟩
  · rw [he]
    refine ⟨merged, List.mem_append_right _ (List.mem_cons_self ..), fun name hn => ?_⟩
    exact (Signature.mem_names_merge? hm).2 (Or.inr hn)
  · rw [he]
    exact ⟨s, List.mem_append_right _ (List.mem_cons_self ..), fun name hn => hn⟩

lemma proper_place {P : String → Prop} {bucket : List Signature} {s : Signature}
    (hb : ∀ t ∈ bucket, t.Proper P) (hs : s.Proper P) : ∀ t ∈ (place bucket s).1, t.Proper P := by
  rcases place_cases bucket s with ⟨before, t, after, merged, rfl, -, hm, he⟩ | ⟨-, he⟩
  · rw [he]
    intro u hu
    rcases List.mem_append.1 hu with hu | hu
    · exact hb u (List.mem_append_left _ hu)
    · rcases List.mem_cons.1 hu with rfl | hu
      · exact (hb t (by simp)).merge? hs hm
      · exact hb u (List.mem_append_right _ (List.mem_cons_of_mem _ hu))
  · rw [he]
    intro u hu
    rcases List.mem_append.1 hu with hu | hu
    · exact hb u hu
    · rw [List.mem_singleton.1 hu]
      exact hs

/-! ### One message, one catalog, a round -/

/-- Some signature of the key has all these names. -/
def Covers (a : Agreement) (key : String) (ps : List Parameter) : Prop :=
  ∃ bucket, a.buckets.find? key = some bucket ∧ BucketCovers bucket ps

/-- In every signature the names are different and have the property `P`. -/
def Proper (P : String → Prop) (a : Agreement) : Prop :=
  ∀ key bucket, a.buckets.find? key = some bucket → ∀ s ∈ bucket, s.Proper P

section Step

variable {id : String} {state : Agreement × Bool} {e : String × Message}

lemma find?_addMessage (key : String) :
    (addMessage id state e).1.buckets.find? key =
      if key = e.1 then
        some (place ((state.1.buckets.find? e.1).getD []) (.ofLocale e.2.parameters.toList id)).1
      else state.1.buckets.find? key :=
  KeyMap.find?_insert state.1.buckets e.1 key _

theorem Covers.addMessage {key : String} {ps : List Parameter} (h : state.1.Covers key ps) :
    (addMessage id state e).1.Covers key ps := by
  obtain ⟨bucket, hf, hc⟩ := h
  unfold Covers
  rw [find?_addMessage]
  by_cases hk : key = e.1
  · subst hk
    rw [if_pos rfl, hf]
    exact ⟨_, rfl, bucketCovers_place hc _⟩
  · rw [if_neg hk]
    exact ⟨bucket, hf, hc⟩

theorem covers_addMessage : (addMessage id state e).1.Covers e.1 e.2.parameters.toList := by
  unfold Covers
  rw [find?_addMessage, if_pos rfl]
  exact ⟨_, rfl, bucketCovers_place_self _ (.ofLocale e.2.parameters.toList id)⟩

theorem Proper.addMessage {P : String → Prop} (h : state.1.Proper P)
    (he : ∀ name ∈ names e.2.parameters.toList, P name) :
    (addMessage id state e).1.Proper P := by
  intro key bucket hf
  rw [find?_addMessage] at hf
  split at hf
  · cases hf
    refine proper_place (fun t ht => ?_) ⟨e.2.parameters.nodup, he⟩
    cases hb : state.1.buckets.find? e.1 with
    | none => rw [hb] at ht; cases ht
    | some bucket => rw [hb] at ht; exact h e.1 bucket hb t ht
  · exact h key bucket hf

end Step

/-- What one element brings about and every element keeps, a list with that element brings about. -/
lemma foldl_of_mem {σ α : Type} {f : σ → α → σ} {I : σ → Prop} {x : α} {xs : List α}
    (hkeep : ∀ s y, I s → I (f s y)) (hreach : ∀ s, I (f s x)) (hx : x ∈ xs) (s : σ) :
    I (xs.foldl f s) := by
  induction xs generalizing s with
  | nil => cases hx
  | cons y ys ih =>
    rcases List.mem_cons.1 hx with rfl | hx
    · exact List.foldlRecOn ys f (hreach s) fun s hs y _ => hkeep s y hs
    · exact ih hx _

/-- What each message keeps, a catalog keeps. -/
lemma add_induction {I : Agreement → Prop} {catalog : Catalog} {a : Agreement} (h : I a)
    (hstep : ∀ state e, e ∈ catalog.exposed → I state.1 → I (addMessage catalog.id state e).1) :
    I (a.add catalog).1 :=
  List.foldlRecOn (motive := fun state => I state.1) catalog.exposed (addMessage catalog.id) h
    fun state hs e he => hstep state e he hs

theorem Covers.add {a : Agreement} {key : String} {ps : List Parameter} (h : a.Covers key ps)
    (catalog : Catalog) : (a.add catalog).1.Covers key ps :=
  add_induction (I := fun a => a.Covers key ps) h fun _ _ _ hs => hs.addMessage

theorem covers_add (a : Agreement) {catalog : Catalog} {e : String × Message}
    (he : e ∈ catalog.exposed) : (a.add catalog).1.Covers e.1 e.2.parameters.toList :=
  foldl_of_mem (f := addMessage catalog.id) (I := fun state => state.1.Covers e.1 e.2.parameters.toList)
    (fun _ _ hs => hs.addMessage) (fun _ => covers_addMessage) he (a, true)

theorem Proper.add {P : String → Prop} {a : Agreement} (h : a.Proper P) {catalog : Catalog}
    (hc : ∀ e ∈ catalog.exposed, ∀ name ∈ names e.2.parameters.toList, P name) :
    (a.add catalog).1.Proper P :=
  add_induction (I := fun a => a.Proper P) h fun _ e he hs => hs.addMessage (hc e he)

/-- Catalogs taken in one after the other. -/
def addAll (a : Agreement) (catalogs : List Catalog) : Agreement :=
  catalogs.foldl (fun a catalog => (a.add catalog).1) a

theorem covers_addAll {a : Agreement} {catalogs : List Catalog} {catalog : Catalog}
    (hc : catalog ∈ catalogs) {e : String × Message} (he : e ∈ catalog.exposed) :
    (a.addAll catalogs).Covers e.1 e.2.parameters.toList :=
  foldl_of_mem (I := fun a => a.Covers e.1 e.2.parameters.toList) (fun _ c ha => ha.add c)
    (fun a => covers_add a he) hc a

theorem Proper.addAll {P : String → Prop} {a : Agreement} (h : a.Proper P) {catalogs : List Catalog}
    (hc : ∀ catalog ∈ catalogs, ∀ e ∈ catalog.exposed,
      ∀ name ∈ names e.2.parameters.toList, P name) :
    (a.addAll catalogs).Proper P :=
  List.foldlRecOn catalogs _ h fun _ ha catalog hmem => ha.add (hc catalog hmem)

/-! ### The report -/

theorem length_le_one_of_close {a : Agreement} (h : a.close.1 = true) {key : String}
    {bucket : List Signature} (hf : a.buckets.find? key = some bucket) : bucket.length ≤ 1 := by
  have hnil : a.mismatches = [] := List.isEmpty_iff.1 h
  have hnone := List.filterMap_eq_nil_iff.1 hnil _ ((KeyMap.mem_entries_iff _ _ _).2 hf)
  rcases Nat.lt_or_ge 1 bucket.length with hlt | hle
  · rw [if_pos hlt] at hnone
    cases hnone
  · exact hle

theorem find?_report (a : Agreement) (key : String) :
    a.report.find? key = (a.buckets.find? key).bind List.head? := by
  refine Option.ext fun s => ?_
  rw [← KeyMap.mem_entries_iff, Option.bind_eq_some_iff]
  unfold report
  rw [List.mem_filterMap]
  constructor
  · rintro ⟨⟨k, bucket⟩, hmem, hhead⟩
    obtain ⟨t, ht, he⟩ := Option.map_eq_some_iff.1 hhead
    cases he
    exact ⟨bucket, (KeyMap.mem_entries_iff _ _ _).1 hmem, ht⟩
  · rintro ⟨bucket, hf, hs⟩
    exact ⟨(key, bucket), (KeyMap.mem_entries_iff _ _ _).2 hf, by simp [hs]⟩

end Agreement

/-! ### The checks -/

lemma agreement_foldl_add (catalogs : List Catalog) (c : Checking) :
    (catalogs.foldl Checking.add c).agreement = c.agreement.addAll catalogs := by
  induction catalogs generalizing c with
  | nil => rfl
  | cons d ds ih =>
    rw [List.foldl_cons, ih]
    rfl

/-- The issues of the checks: those that come with the catalogs, those of coverage at its end, and those
of agreement at its end. -/
lemma issues_checkCatalogs (catalogs : List Catalog) :
    (checkCatalogs catalogs).issues = (catalogs.foldl Checking.add {}).issues ++
      (catalogs.foldl Checking.add {}).coverage.close.2 ++
      (Agreement.addAll {} catalogs).mismatches := by
  have hagreement : (catalogs.foldl Checking.add {}).agreement = Agreement.addAll {} catalogs :=
    agreement_foldl_add catalogs {}
  rw [← hagreement]
  rfl

lemma checkCatalogs_agreement {catalogs : List Catalog} {reports : Reports}
    (h : (checkCatalogs catalogs).reports = some reports) :
    (Agreement.addAll {} catalogs).close.1 = true ∧
      reports.agreement = (Agreement.addAll {} catalogs).report := by
  unfold checkCatalogs Checking.verdict at h
  simp only at h
  split at h
  · rename_i hv
    cases h
    rw [agreement_foldl_add] at hv ⊢
    exact ⟨(Bool.and_eq_true_iff.1 hv).2, rfl⟩
  · cases h

/-- **The signature of a key in the reports.** It has the names that any of the catalogs uses for
the key, each once, and if all names in the catalogs have a property, so have those in the
signature. -/
theorem reports_signature {P : String → Prop} {catalogs : List Catalog} {reports : Reports}
    (h : (checkCatalogs catalogs).reports = some reports)
    (hc : ∀ catalog ∈ catalogs, ∀ e ∈ catalog.exposed,
      ∀ name ∈ names e.2.parameters.toList, P name) :
    (∀ key s, reports.agreement.find? key = some s → s.Proper P) ∧
    ∀ catalog ∈ catalogs, ∀ e ∈ catalog.exposed, ∃ s, reports.agreement.find? e.1 = some s ∧
      ∀ name ∈ names e.2.parameters.toList, name ∈ names s.parameters := by
  obtain ⟨hclose, hreport⟩ := checkCatalogs_agreement h
  have hproper : (Agreement.addAll {} catalogs).Proper P := by
    refine Agreement.Proper.addAll (fun key bucket hf => ?_) hc
    cases hf
  rw [hreport]
  refine ⟨fun key s hs => ?_, fun catalog hcat e he => ?_⟩
  · rw [Agreement.find?_report] at hs
    obtain ⟨bucket, hf, hhead⟩ := Option.bind_eq_some_iff.1 hs
    exact hproper key bucket hf s (List.mem_of_mem_head? hhead)
  · obtain ⟨bucket, hf, s, hs, hnames⟩ := Agreement.covers_addAll (a := {}) hcat he
    have hlen := Agreement.length_le_one_of_close hclose hf
    -- a bucket with a member and no more than one is that member
    obtain ⟨t, rfl⟩ : ∃ t, bucket = [t] := by
      rcases bucket with _ | ⟨t, _ | ⟨u, ts⟩⟩
      · cases hs
      · exact ⟨t, rfl⟩
      · simp at hlen
    refine ⟨s, ?_, hnames⟩
    rw [Agreement.find?_report, hf, List.mem_singleton.1 hs]
    rfl

end Polyglot
