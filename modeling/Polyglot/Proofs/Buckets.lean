import Polyglot.Proofs.Signatures

/-!
# Signatures side by side

The signatures of a key depend on what the catalogs have for that key, and on nothing else. They are
taken in one after the other, each by the first signature that can be merged with it. A signature that
takes one up may grow, and is not compared again with those that stand after it.

* `uses`: the signatures that catalogs give for a key;
* `collect`: what becomes of signatures that are taken in one after the other;
* `find?_addAll`: the bucket of a key is what becomes of its uses;
* `merge?_eq_none_iff`: two signatures are merged unless each has a name that the other lacks;
* `buckets_sideBySide`: how the signatures in a bucket differ.
-/

namespace Polyglot

open Parameter (names)

/-! ### Comparing names -/

namespace Parameter

/-- Some name is in `ps` and not in `qs`. -/
def Exceeds (ps qs : List Parameter) : Prop :=
  ∃ name ∈ names ps, name ∉ names qs

/-- Each has a name that the other lacks. -/
def Clash (ps qs : List Parameter) : Prop :=
  Exceeds ps qs ∧ Exceeds qs ps

/-- The names are the same, in whatever order. -/
def SameNames (ps qs : List Parameter) : Prop :=
  ∀ name, name ∈ names ps ↔ name ∈ names qs

instance (ps qs : List Parameter) : Decidable (Exceeds ps qs) :=
  inferInstanceAs (Decidable (∃ name ∈ names ps, name ∉ names qs))

variable {ps ps' qs qs' rs : List Parameter}

lemma exceeds_iff_not_subset : Exceeds ps qs ↔ ¬ names ps ⊆ names qs := by
  simp [Exceeds, List.subset_def]

lemma Exceeds.mono (h : Exceeds ps qs) (hp : names ps ⊆ names ps') (hq : names qs' ⊆ names qs) :
    Exceeds ps' qs' := by
  obtain ⟨name, hin, hout⟩ := h
  exact ⟨name, hp hin, fun h' => hout (hq h')⟩

lemma SameNames.symm (h : SameNames ps qs) : SameNames qs ps :=
  fun name => (h name).symm

lemma SameNames.trans (h : SameNames ps qs) (h' : SameNames qs rs) : SameNames ps rs :=
  fun name => (h name).trans (h' name)

lemma SameNames.subset (h : SameNames ps qs) : names ps ⊆ names qs :=
  fun name hname => (h name).1 hname

end Parameter

open Parameter (Exceeds Clash SameNames exceeds_iff_not_subset)

namespace Signature

lemma missingFrom_isEmpty_iff (qs ps : List Parameter) :
    (missingFrom qs ps).isEmpty = true ↔ names ps ⊆ names qs := by
  have hempty : (missingFrom qs ps).isEmpty = true ↔ names (missingFrom qs ps) = [] := by
    rw [List.isEmpty_iff, names, List.map_eq_nil_iff]
  rw [hempty, names_missingFrom, List.filter_eq_nil_iff]
  simp [List.subset_def]

/-- Two signatures are merged unless each has a name that the other lacks. -/
theorem merge?_eq_none_iff (a b : Signature) :
    a.merge? b = none ↔ Clash a.parameters b.parameters := by
  unfold merge? Clash
  rw [exceeds_iff_not_subset, exceeds_iff_not_subset, ← missingFrom_isEmpty_iff,
    ← missingFrom_isEmpty_iff]
  split
  · simp [*]
  · split <;> simp [*]

lemma subset_merge?_left {a b c : Signature} (h : a.merge? b = some c) :
    names a.parameters ⊆ names c.parameters :=
  fun _ hname => (mem_names_merge? h).2 (Or.inl hname)

lemma subset_merge?_right {a b c : Signature} (h : a.merge? b = some c) :
    names b.parameters ⊆ names c.parameters :=
  fun _ hname => (mem_names_merge? h).2 (Or.inr hname)

/-- A merge has the names of one of the two. -/
theorem sameNames_merge? {a b c : Signature} (h : a.merge? b = some c) :
    SameNames c.parameters a.parameters ∨ SameNames c.parameters b.parameters := by
  have hclash : ¬ Clash a.parameters b.parameters := by
    rw [← merge?_eq_none_iff, h]
    exact Option.some_ne_none c
  rw [Clash, exceeds_iff_not_subset, exceeds_iff_not_subset, not_and_or, not_not, not_not] at hclash
  rcases hclash with hab | hba
  · refine Or.inr fun name => ?_
    rw [mem_names_merge? h]
    exact or_iff_right_of_imp fun ha => hab ha
  · refine Or.inl fun name => ?_
    rw [mem_names_merge? h]
    exact or_iff_left_of_imp fun hb => hba hb

end Signature

/-! ### The uses of a key -/

namespace Agreement

/-- The signatures that catalogs give for a key, in the order of the catalogs. -/
def uses (catalogs : List Catalog) (key : String) : List Signature :=
  catalogs.filterMap fun c => (c.exposed? key).map fun m => .ofLocale m.parameters.toList c.id

/-- What becomes of signatures that are taken in one after the other. -/
def collect (ss : List Signature) : List Signature :=
  ss.foldl (fun bucket s => (place bucket s).1) []

lemma collect_append_one (ss : List Signature) (s : Signature) :
    collect (ss ++ [s]) = (place (collect ss) s).1 := by
  unfold collect
  rw [List.foldl_append]
  rfl

lemma mem_uses_iff {catalogs : List Catalog} {key : String} {s : Signature} :
    s ∈ uses catalogs key ↔ ∃ catalog ∈ catalogs, ∃ m, catalog.exposed? key = some m ∧
      s = .ofLocale m.parameters.toList catalog.id := by
  simp only [uses, List.mem_filterMap, Option.map_eq_some_iff, @eq_comm _ s]

lemma uses_append_one (catalogs : List Catalog) (c : Catalog) (key : String) :
    uses (catalogs ++ [c]) key = uses catalogs key ++
      ((c.exposed? key).map fun m => Signature.ofLocale m.parameters.toList c.id).toList := by
  unfold uses
  rw [List.filterMap_append]
  cases hm : c.exposed? key <;> simp [hm]

lemma addAll_append_one (a : Agreement) (catalogs : List Catalog) (c : Catalog) :
    a.addAll (catalogs ++ [c]) = ((a.addAll catalogs).add c).1 := by
  unfold addAll
  rw [List.foldl_append]
  rfl

lemma find?_foldl_addMessage_of_ne {es : List (String × Message)} {key : String} (id : String)
    (hne : ∀ e ∈ es, e.1 ≠ key) (state : Agreement × Bool) :
    (es.foldl (addMessage id) state).1.buckets.find? key = state.1.buckets.find? key := by
  induction es generalizing state with
  | nil => rfl
  | cons e es ih =>
    obtain ⟨he, hes⟩ := List.forall_mem_cons.1 hne
    rw [List.foldl_cons, ih hes, find?_addMessage, if_neg fun h => he h.symm]

lemma find?_add_of_none (a : Agreement) {catalog : Catalog} {key : String}
    (h : catalog.exposed? key = none) :
    (a.add catalog).1.buckets.find? key = a.buckets.find? key := by
  refine find?_foldl_addMessage_of_ne catalog.id (fun e he hk => ?_) (a, true)
  have hm := Catalog.mem_exposed_iff.1 he
  rw [hk, h] at hm
  cases hm

/-- The other messages of a catalog do not touch the bucket of a key. -/
lemma find?_add_of_some (a : Agreement) {catalog : Catalog} {key : String} {m : Message}
    (h : catalog.exposed? key = some m) :
    (a.add catalog).1.buckets.find? key =
      some (place ((a.buckets.find? key).getD []) (.ofLocale m.parameters.toList catalog.id)).1 := by
  obtain ⟨before, after, hes⟩ := List.append_of_mem (Catalog.mem_exposed_iff (e := (key, m)) |>.2 h)
  have hsorted : catalog.exposed.Pairwise (fun x y => x.1 < y.1) := catalog.messages.ordered.filter _
  rw [hes, List.pairwise_append, List.pairwise_cons] at hsorted
  obtain ⟨-, ⟨hafter, -⟩, hbefore⟩ := hsorted
  have hbefore' : ∀ e ∈ before, e.1 ≠ key := by
    rintro e he rfl
    exact String.lt_irrefl _ (hbefore e he (e.1, m) (List.mem_cons_self ..))
  have hafter' : ∀ e ∈ after, e.1 ≠ key := by
    rintro e he rfl
    exact String.lt_irrefl _ (hafter e he)
  unfold add
  rw [hes, List.foldl_append, List.foldl_cons, find?_foldl_addMessage_of_ne _ hafter', find?_addMessage,
    if_pos rfl, find?_foldl_addMessage_of_ne _ hbefore']

/-- **The bucket of a key is what becomes of its uses.** -/
theorem find?_addAll (catalogs : List Catalog) (key : String) :
    (addAll {} catalogs).buckets.find? key =
      if uses catalogs key = [] then none else some (collect (uses catalogs key)) := by
  induction catalogs using List.reverseRecOn with
  | nil => rfl
  | append_singleton catalogs c ih =>
    rw [addAll_append_one, uses_append_one]
    cases hm : c.exposed? key with
    | none =>
      rw [find?_add_of_none _ hm, ih]
      simp
    | some m =>
      have hbucket : ((addAll {} catalogs).buckets.find? key).getD [] = collect (uses catalogs key) := by
        rw [ih]
        split
        · rename_i hnil
          rw [hnil]
          rfl
        · rfl
      rw [find?_add_of_some _ hm, hbucket, ← collect_append_one]
      simp

/-- A use among the uses of a key comes from a catalog among the catalogs. -/
lemma prefix_uses_iff {catalogs : List Catalog} {key : String} {before : List Signature}
    {s : Signature} :
    before ++ [s] <+: uses catalogs key ↔
      ∃ earlier catalog m, earlier ++ [catalog] <+: catalogs ∧ catalog.exposed? key = some m ∧
        before = uses earlier key ∧ s = .ofLocale m.parameters.toList catalog.id := by
  constructor
  · intro h
    induction catalogs using List.reverseRecOn with
    | nil => simp [uses] at h
    | append_singleton catalogs c ih =>
      have hcases : (∃ m, c.exposed? key = some m ∧ before ++ [s] = uses catalogs key ++
          [.ofLocale m.parameters.toList c.id]) ∨ before ++ [s] <+: uses catalogs key := by
        rw [uses_append_one] at h
        cases hm : c.exposed? key with
        | none => exact Or.inr (by simpa [hm] using h)
        | some m =>
          rw [hm] at h
          exact (List.prefix_concat_iff.1 h).imp_left fun he => ⟨m, rfl, he⟩
      rcases hcases with ⟨m, hm, he⟩ | h
      · obtain ⟨hbefore, hs⟩ := List.append_inj' he rfl
        exact ⟨catalogs, c, m, List.prefix_rfl, hm, hbefore, List.singleton_inj.1 hs⟩
      · obtain ⟨earlier, catalog, m, hpre, rest⟩ := ih h
        exact ⟨earlier, catalog, m, hpre.trans (List.prefix_append ..), rest⟩
  · rintro ⟨earlier, catalog, m, hpre, hm, rfl, rfl⟩
    have huses : uses (earlier ++ [catalog]) key = uses earlier key ++
        [.ofLocale m.parameters.toList catalog.id] := by
      rw [uses_append_one, hm]
      rfl
    rw [← huses]
    exact hpre.filterMap _

/-! ### How the signatures in a bucket differ -/

/-- A signature is taken up at its place, by the first that can, or it goes to the end. -/
lemma place_cases_getElem? (bucket : List Signature) (s : Signature) :
    (∃ k t merged, bucket[k]? = some t ∧ (∀ i < k, ∀ u, bucket[i]? = some u → u.merge? s = none) ∧
      t.merge? s = some merged ∧ (place bucket s).1 = bucket.set k merged) ∨
    (∀ t ∈ bucket, t.merge? s = none) ∧ (place bucket s).1 = bucket ++ [s] := by
  rcases place_cases bucket s with ⟨before, t, after, merged, rfl, hbefore, hm, he⟩ | ⟨hnone, he⟩
  · refine Or.inl ⟨before.length, t, merged, by simp, fun i hi u hu => ?_, hm, by simp [he]⟩
    rw [List.getElem?_append_left hi] at hu
    exact hbefore u (List.mem_of_getElem? hu)
  · exact Or.inr ⟨hnone, by rw [he]⟩

lemma length_le_place (bucket : List Signature) (s : Signature) :
    bucket.length ≤ (place bucket s).1.length := by
  rcases place_cases_getElem? bucket s with ⟨k, t, merged, -, -, -, he⟩ | ⟨-, he⟩
  · simp [he]
  · simp [he]

/-- Every signature has the names of one that has been taken in. -/
lemma sameNames_collect (ss : List Signature) :
    ∀ s ∈ collect ss, ∃ u ∈ ss, SameNames s.parameters u.parameters := by
  induction ss using List.reverseRecOn with
  | nil => exact fun s hs => absurd hs List.not_mem_nil
  | append_singleton ss x ih =>
    have hold : ∀ s ∈ collect ss, ∃ u ∈ ss ++ [x], SameNames s.parameters u.parameters := by
      intro s hs
      obtain ⟨u, hu, hsame⟩ := ih s hs
      exact ⟨u, List.mem_append_left _ hu, hsame⟩
    have hnew : x ∈ ss ++ [x] := by simp
    rw [collect_append_one]
    intro s hs
    rcases place_cases_getElem? (collect ss) x with ⟨k, t, merged, ht, -, hm, he⟩ | ⟨-, he⟩
    · rw [he] at hs
      rcases List.mem_or_eq_of_mem_set hs with hs | rfl
      · exact hold s hs
      · rcases Signature.sameNames_merge? hm with hsame | hsame
        · obtain ⟨u, hu, hsame'⟩ := hold t (List.mem_of_getElem? ht)
          exact ⟨u, hu, hsame.trans hsame'⟩
        · exact ⟨x, hnew, hsame⟩
    · rw [he] at hs
      rcases List.mem_append.1 hs with hs | hs
      · exact hold s hs
      · rw [List.mem_singleton.1 hs]
        exact ⟨x, hnew, fun _ => Iff.rfl⟩

/-- There is a second signature only if two of those taken in clash. -/
lemma exists_clash_of_collect {ss : List Signature} (h : 1 < (collect ss).length) :
    ∃ u ∈ ss, ∃ v ∈ ss, Clash u.parameters v.parameters := by
  induction ss using List.reverseRecOn with
  | nil => simp [collect] at h
  | append_singleton ss x ih =>
    by_cases hlen : 1 < (collect ss).length
    · obtain ⟨u, hu, v, hv, hclash⟩ := ih hlen
      exact ⟨u, List.mem_append_left _ hu, v, List.mem_append_left _ hv, hclash⟩
    · -- the second signature has just come, so it clashes with the first
      rw [collect_append_one] at h
      rcases place_cases_getElem? (collect ss) x with ⟨k, t, merged, -, -, -, he⟩ | ⟨hnone, he⟩
      · rw [he, List.length_set] at h
        exact absurd h hlen
      · obtain ⟨t, ht⟩ := List.exists_mem_of_length_pos (l := collect ss) (by
          rw [he, List.length_append, List.length_singleton] at h
          omega)
        obtain ⟨u, hu, hsame⟩ := sameNames_collect ss t ht
        obtain ⟨htx, hxt⟩ := (Signature.merge?_eq_none_iff t x).1 (hnone t ht)
        exact ⟨u, List.mem_append_left _ hu, x, by simp,
          htx.mono hsame.subset (List.Subset.refl _), hxt.mono (List.Subset.refl _) hsame.symm.subset⟩

/-- What holds of an earlier signature `s` and the later one `t` at the place `j`. The earlier has a
name that the later lacks. So has the later, unless a signature with just the names of `s` has been
taken in when there was a signature at the place `j` already. -/
def Beside (ss : List Signature) (j : Nat) (s t : Signature) : Prop :=
  Exceeds s.parameters t.parameters ∧
    (Exceeds t.parameters s.parameters ∨
      ∃ before u, before ++ [u] <+: ss ∧ SameNames u.parameters s.parameters ∧
        j < (collect before).length)

lemma Beside.mono {ss ss' : List Signature} {j : Nat} {s t : Signature} (h : Beside ss j s t)
    (hpre : ss <+: ss') : Beside ss' j s t :=
  ⟨h.1, h.2.imp_right fun ⟨before, u, hu, hsame, hj⟩ => ⟨before, u, hu.trans hpre, hsame, hj⟩⟩

lemma Beside.of_clash {ss : List Signature} {j : Nat} {s t : Signature}
    (h : Clash s.parameters t.parameters) : Beside ss j s t :=
  ⟨h.1, Or.inl h.2⟩

/-- A signature that takes up `x` clashes with those before it, for they could not. -/
lemma Beside.merge_later {ss : List Signature} {j : Nat} {s t x merged : Signature}
    (h : Beside ss j s t) (hnone : s.merge? x = none) (hm : t.merge? x = some merged) :
    Beside (ss ++ [x]) j s merged := by
  obtain ⟨hsx, hxs⟩ := (Signature.merge?_eq_none_iff s x).1 hnone
  refine Beside.of_clash ⟨?_, hxs.mono (Signature.subset_merge?_right hm) (List.Subset.refl _)⟩
  rcases Signature.sameNames_merge? hm with hsame | hsame
  · exact h.1.mono (List.Subset.refl _) hsame.subset
  · exact hsx.mono (List.Subset.refl _) hsame.subset

/-- It keeps what those after it lack, and if it grows, it grows to the names of `x`. -/
lemma Beside.merge_earlier {ss : List Signature} {j : Nat} {t u x merged : Signature}
    (h : Beside ss j t u) (hj : j < (collect ss).length) (hm : t.merge? x = some merged) :
    Beside (ss ++ [x]) j merged u := by
  refine ⟨h.1.mono (Signature.subset_merge?_left hm) (List.Subset.refl _), ?_⟩
  rcases Signature.sameNames_merge? hm with hsame | hsame
  · rcases h.2 with hut | ⟨before, v, hv, hvt, hjv⟩
    · exact Or.inl (hut.mono (List.Subset.refl _) hsame.subset)
    · exact Or.inr ⟨before, v, hv.trans (List.prefix_append ..), hvt.trans hsame.symm, hjv⟩
  · exact Or.inr ⟨ss, x, List.prefix_rfl, hsame.symm, hj⟩

theorem beside_collect (ss : List Signature) {i j : Nat} {s t : Signature} (hij : i < j)
    (hs : (collect ss)[i]? = some s) (ht : (collect ss)[j]? = some t) : Beside ss j s t := by
  induction ss using List.reverseRecOn generalizing i j s t with
  | nil => simp [collect] at hs
  | append_singleton ss x ih =>
    have hold : ∀ {i j s t}, i < j → (collect ss)[i]? = some s → (collect ss)[j]? = some t →
        Beside (ss ++ [x]) j s t :=
      fun hij hs ht => (ih hij hs ht).mono (List.prefix_append ..)
    rw [collect_append_one] at hs ht
    rcases place_cases_getElem? (collect ss) x with ⟨k, u, merged, hu, hbefore, hm, he⟩ | ⟨hnone, he⟩
    · rw [he, List.getElem?_set] at hs ht
      split at hs
      · -- the earlier of the two has taken `x` up
        rename_i hk
        subst hk
        rw [if_neg (Nat.ne_of_lt hij)] at ht
        split at hs
        · cases hs
          exact (ih hij hu ht).merge_earlier (List.getElem?_eq_some_iff.1 ht).1 hm
        · cases hs
      · split at ht
        · -- the later has taken it up, after the earlier could not
          rename_i hk
          subst hk
          split at ht
          · cases ht
            exact (ih hij hs hu).merge_later (hbefore i hij s hs) hm
          · cases ht
        · exact hold hij hs ht
    · rw [he] at hs ht
      rcases Nat.lt_or_ge j (collect ss).length with hj | hj
      · rw [List.getElem?_append_left hj] at ht
        rw [List.getElem?_append_left (Nat.lt_trans hij hj)] at hs
        exact hold hij hs ht
      · rw [List.getElem?_append_right hj, List.getElem?_singleton] at ht
        split at ht
        · cases ht
          rw [List.getElem?_append_left (by omega)] at hs
          exact .of_clash ((Signature.merge?_eq_none_iff s x).1 (hnone s (List.mem_of_getElem? hs)))
        · cases ht

/-- **How the signatures of a key differ.** Of two signatures in a bucket, the earlier has a name that
the later lacks. The later has one that the earlier lacks, unless a catalog with just the names of the
earlier has been taken in when the later was there already. And there is more than one signature only
if two of the catalogs clash over the key. -/
theorem buckets_sideBySide (catalogs : List Catalog) {key : String} {bucket : List Signature}
    (h : (addAll {} catalogs).buckets.find? key = some bucket) :
    (∀ i j s t, i < j → bucket[i]? = some s → bucket[j]? = some t →
      Exceeds s.parameters t.parameters ∧
        (Exceeds t.parameters s.parameters ∨
          ∃ earlier catalog m before, earlier ++ [catalog] <+: catalogs ∧
            catalog.exposed? key = some m ∧ SameNames m.parameters.toList s.parameters ∧
            (addAll {} earlier).buckets.find? key = some before ∧ j < before.length)) ∧
    (1 < bucket.length → ∃ c ∈ catalogs, ∃ d ∈ catalogs, ∃ m n, c.exposed? key = some m ∧
      d.exposed? key = some n ∧ Clash m.parameters.toList n.parameters.toList) := by
  obtain rfl : bucket = collect (uses catalogs key) := by
    rw [find?_addAll] at h
    split at h
    · cases h
    · exact (Option.some.inj h).symm
  refine ⟨fun i j s t hij hs ht => ?_, fun hlen => ?_⟩
  · obtain ⟨hst, hts⟩ := beside_collect _ hij hs ht
    refine ⟨hst, hts.imp_right ?_⟩
    rintro ⟨before, u, hpre, hsame, hj⟩
    obtain ⟨earlier, catalog, m, hcat, hm, rfl, rfl⟩ := prefix_uses_iff.1 hpre
    refine ⟨earlier, catalog, m, _, hcat, hm, hsame, ?_, hj⟩
    rw [find?_addAll, if_neg fun hnil => ?_]
    rw [hnil] at hj
    exact absurd hj (Nat.not_lt_zero j)
  · obtain ⟨u, hu, v, hv, hclash⟩ := exists_clash_of_collect hlen
    obtain ⟨c, hc, m, hm, rfl⟩ := mem_uses_iff.1 hu
    obtain ⟨d, hd, n, hn, rfl⟩ := mem_uses_iff.1 hv
    exact ⟨c, hc, d, hd, m, n, hm, hn, hclash⟩

/-- A locale with one message, which has these parameters. -/
def localeWith (id : String) (ps : List Parameter) : Catalog where
  id := id
  messages := .ofList [("title", ⟨.exposed, ps.map (.parameter ·.name none), .ofList ps⟩)]

@[simp] lemma id_localeWith (id : String) (ps : List Parameter) : (localeWith id ps).id = id := rfl

@[simp] lemma exposed?_localeWith (id : String) (ps : List Parameter) :
    (localeWith id ps).exposed? "title" =
      some ⟨.exposed, ps.map (.parameter ·.name none), .ofList ps⟩ :=
  rfl

/-- Two locales that clash, and a third that has the names of both. -/
def wideningLocales : List Catalog :=
  [localeWith "de" [⟨"first", .unknown⟩], localeWith "en" [⟨"last", .unknown⟩],
    localeWith "fr" [⟨"first", .unknown⟩, ⟨"last", .unknown⟩]]

/-- The first signature has grown, and now has the name of the second. -/
def widenedBucket : List Signature :=
  [⟨[⟨"first", .unknown⟩, ⟨"last", .unknown⟩], .ofList ["de", "fr"]⟩,
    ⟨[⟨"last", .unknown⟩], .ofList ["en"]⟩]

lemma find?_wideningLocales :
    (addAll {} wideningLocales).buckets.find? "title" = some widenedBucket := by
  decide +kernel

/-- Signatures in a bucket need not clash. -/
theorem not_buckets_clash :
    ¬ ∀ (catalogs : List Catalog) (key : String) (bucket : List Signature),
      (addAll {} catalogs).buckets.find? key = some bucket →
        ∀ s ∈ bucket, ∀ t ∈ bucket, s ≠ t → Clash s.parameters t.parameters := by
  intro h
  have hclash := h wideningLocales "title" widenedBucket find?_wideningLocales
    _ (List.mem_cons_self ..) _ (List.mem_cons_of_mem _ (List.mem_cons_self ..)) (by decide)
  exact absurd hclash.2 (by decide)

/-- The third locale has come when the second signature was there. -/
theorem buckets_sideBySide_widening :
    (addAll {} wideningLocales).buckets.find? "title" = some widenedBucket ∧
    Exceeds [⟨"first", .unknown⟩, ⟨"last", .unknown⟩] [⟨"last", .unknown⟩] ∧
    (∃ earlier catalog m before, earlier ++ [catalog] <+: wideningLocales ∧
      catalog.exposed? "title" = some m ∧
      SameNames m.parameters.toList [⟨"first", .unknown⟩, ⟨"last", .unknown⟩] ∧
      (addAll {} earlier).buckets.find? "title" = some before ∧ 1 < before.length) ∧
    ∃ c ∈ wideningLocales, ∃ d ∈ wideningLocales, ∃ m n, c.exposed? "title" = some m ∧
      d.exposed? "title" = some n ∧ Clash m.parameters.toList n.parameters.toList := by
  obtain ⟨hpairs, htwo⟩ := buckets_sideBySide wideningLocales find?_wideningLocales
  obtain ⟨hfirst, hsecond⟩ := hpairs 0 1 _ _ (by decide) rfl rfl
  exact ⟨find?_wideningLocales, hfirst, hsecond.resolve_left (by decide), htwo (by decide)⟩

end Agreement

end Polyglot
