import Polyglot.Project.Run
import Polyglot.Proofs.Discovery
import Polyglot.Proofs.FileNames
import Polyglot.Proofs.Maps
import Mathlib.Data.List.Nodup

/-!
# Locales that would get the same names

Of the locales whose classes would have the same name, the first is kept. The others are left out,
each with an issue that names the one which is kept.

* `Fate`: what becomes of a catalog;
* `Fate.Justified`: a catalog is left out exactly if one that is kept before it has its name;
* `dropCollisions_fates`: a run, from any point on;
* `dropCollisions_classNames`: the main statement.
-/

namespace Polyglot

/-- What becomes of a catalog. -/
structure Fate where
  catalog : SourcedCatalog
  /-- The catalog for which this one is left out. -/
  rival : Option SourcedCatalog

namespace Fate

/-- The catalogs that are kept. -/
def kept (fs : List Fate) : List SourcedCatalog :=
  (fs.filter (·.rival.isNone)).map (·.catalog)

/-- The issue of a catalog that is left out. -/
def issue? (p : Project) (f : Fate) : Option Issue :=
  f.rival.map fun k => .localeCollision (p.displayPath f.catalog.source) f.catalog.catalog.id
    k.catalog.id (toIdentifier f.catalog.catalog.id)

/-- Each catalog is left out exactly if one of those that are kept before it has its name, and that
one is its rival. `earlier` are the ones that were kept before the first. -/
def Justified (name : SourcedCatalog → String) (earlier : List SourcedCatalog) (fs : List Fate) :
    Prop :=
  ∀ before f after, fs = before ++ f :: after →
    ∀ k, f.rival = some k ↔ k ∈ earlier ++ kept before ∧ name k = name f.catalog

lemma kept_cons (f : Fate) (fs : List Fate) : kept (f :: fs) = kept [f] ++ kept fs := by
  unfold kept
  rw [← List.map_append, ← List.filter_append]
  rfl

lemma kept_sublist (fs : List Fate) : (kept fs).Sublist (fs.map (·.catalog)) :=
  List.filter_sublist.map _

section Justified

variable {name : SourcedCatalog → String} {earlier : List SourcedCatalog}

lemma justified_nil : Justified name earlier [] := by
  intro before f after h
  simp at h

lemma justified_cons_iff {f : Fate} {fs : List Fate} : Justified name earlier (f :: fs) ↔
    (∀ k, f.rival = some k ↔ k ∈ earlier ∧ name k = name f.catalog) ∧
      Justified name (earlier ++ kept [f]) fs := by
  constructor
  · intro h
    refine ⟨fun k => by simpa [kept] using h [] f fs rfl k, ?_⟩
    rintro before g after rfl
    rw [List.append_assoc, ← kept_cons]
    exact h (f :: before) g after rfl
  · rintro ⟨hf, hfs⟩ before g after h
    cases before with
    | nil =>
      obtain ⟨rfl, -⟩ := List.cons.inj h
      simpa [kept] using hf
    | cons e before =>
      obtain ⟨rfl, hrest⟩ := List.cons.inj h
      rw [kept_cons, ← List.append_assoc]
      exact hfs before g after hrest

/-- No two catalogs that are kept have the same name. -/
lemma Justified.nodup {fs : List Fate} (h : Justified name earlier fs)
    (hearlier : (earlier.map name).Nodup) : ((earlier ++ kept fs).map name).Nodup := by
  induction fs generalizing earlier with
  | nil => simpa [kept] using hearlier
  | cons f fs ih =>
    obtain ⟨hf, hfs⟩ := justified_cons_iff.1 h
    rw [kept_cons, ← List.append_assoc]
    refine ih hfs ?_
    cases hrival : f.rival with
    | some k => simpa [kept, hrival] using hearlier
    | none =>
      have hnew : name f.catalog ∉ earlier.map name := by
        intro hmem
        obtain ⟨k, hk, hname⟩ := List.mem_map.1 hmem
        have hsome := (hf k).2 ⟨hk, hname⟩
        rw [hrival] at hsome
        cases hsome
      have hlast : kept [f] = [f.catalog] := by simp [kept, hrival]
      rw [hlast, List.map_append]
      exact hearlier.append (List.nodup_singleton _) (List.disjoint_singleton.2 hnew)

/-- Only which names are the same matters. -/
lemma Justified.congr {name' : SourcedCatalog → String} {fs : List Fate}
    (h : Justified name [] fs) (hname : ∀ a ∈ fs.map (·.catalog), ∀ b ∈ fs.map (·.catalog),
      name a = name b ↔ name' a = name' b) : Justified name' [] fs := by
  rintro before f after rfl k
  rw [h before f after rfl k]
  refine and_congr_right fun hk => hname k ?_ f.catalog ?_
  · rw [List.map_append]
    exact List.mem_append_left _ ((kept_sublist before).subset hk)
  · simp

end Justified

end Fate

open Fate

/-- The identifier of a catalog's locale. -/
def SourcedCatalog.identifier (c : SourcedCatalog) : String :=
  toIdentifier c.catalog.id

namespace Project

/-- `seen` maps the identifiers of these catalogs, which are all different, to their locales. -/
structure Seen (seen : KeyMap String) (cs : List SourcedCatalog) : Prop where
  distinct : (cs.map SourcedCatalog.identifier).Nodup
  find : ∀ c ∈ cs, seen.find? c.identifier = some c.catalog.id
  mem : ∀ x, seen.find? x ≠ none → ∃ c ∈ cs, c.identifier = x

lemma seen_empty : Seen ∅ [] :=
  ⟨List.nodup_nil, by simp, fun _ h => absurd rfl h⟩

/-- One more catalog, with an identifier of its own. -/
lemma Seen.insert {seen : KeyMap String} {cs : List SourcedCatalog} (h : Seen seen cs)
    {c : SourcedCatalog} (hc : seen.find? c.identifier = none) :
    Seen (seen.insert c.identifier c.catalog.id) (cs ++ [c]) := by
  have hnew : c.identifier ∉ cs.map SourcedCatalog.identifier := by
    intro hmem
    obtain ⟨k, hk, hsame⟩ := List.mem_map.1 hmem
    rw [← hsame, h.find k hk] at hc
    cases hc
  refine ⟨?_, ?_, ?_⟩
  · rw [List.map_append]
    exact h.distinct.append (List.nodup_singleton _) (List.disjoint_singleton.2 hnew)
  · intro k hk
    rw [KeyMap.find?_insert]
    rcases List.mem_append.1 hk with hk | hk
    · rw [if_neg, h.find k hk]
      exact fun hsame => hnew (hsame ▸ List.mem_map_of_mem hk)
    · rw [List.mem_singleton.1 hk, if_pos rfl]
  · intro x hx
    rw [KeyMap.find?_insert] at hx
    by_cases hsame : x = c.identifier
    · exact ⟨c, by simp, hsame.symm⟩
    · rw [if_neg hsame] at hx
      obtain ⟨k, hk, hkx⟩ := h.mem x hx
      exact ⟨k, List.mem_append_left _ hk, hkx⟩

/-- The catalog that has an identifier already is the only one. -/
lemma Seen.rival_iff {seen : KeyMap String} {cs : List SourcedCatalog} (h : Seen seen cs)
    {k c : SourcedCatalog} (hk : k ∈ cs) (hsame : k.identifier = c.identifier) (l : SourcedCatalog) :
    some k = some l ↔ l ∈ cs ∧ l.identifier = c.identifier := by
  constructor
  · rintro ⟨⟩
    exact ⟨hk, hsame⟩
  · rintro ⟨hl, hlc⟩
    rw [List.inj_on_of_nodup_map h.distinct hk hl (hsame.trans hlc.symm)]

/-- **A run, from any point on.** -/
theorem dropCollisions_fates (p : Project) {seen : KeyMap String} {earlier : List SourcedCatalog}
    (h : Seen seen earlier) (cs : List SourcedCatalog) :
    ∃ fs : List Fate, fs.map (·.catalog) = cs ∧
      p.dropCollisions seen cs = (kept fs, fs.filterMap (issue? p)) ∧
      Justified SourcedCatalog.identifier earlier fs := by
  induction cs generalizing seen earlier with
  | nil => exact ⟨[], rfl, rfl, justified_nil⟩
  | cons c cs ih =>
    rw [dropCollisions]
    cases hfind : seen.find? c.identifier with
    | none =>
      obtain ⟨fs, rfl, hrun, hfs⟩ := ih (h.insert hfind)
      refine ⟨⟨c, none⟩ :: fs, rfl, ?_, justified_cons_iff.2 ⟨fun k => ⟨nofun, ?_⟩, hfs⟩⟩
      · simp only [SourcedCatalog.identifier] at hfind hrun
        simp only [hfind, hrun]
        rfl
      · rintro ⟨hk, hsame⟩
        have hnone := h.find k hk
        rw [hsame, hfind] at hnone
        cases hnone
    | some id =>
      obtain ⟨k, hk, hsame⟩ := h.mem c.identifier (by rw [hfind]; nofun)
      obtain ⟨fs, rfl, hrun, hfs⟩ := ih h
      have hid : id = k.catalog.id := by
        have hfound := h.find k hk
        rw [hsame, hfind] at hfound
        exact Option.some.inj hfound
      refine ⟨⟨c, some k⟩ :: fs, rfl, ?_, justified_cons_iff.2 ⟨h.rival_iff hk hsame, ?_⟩⟩
      · simp only [SourcedCatalog.identifier] at hfind
        simp only [hfind, hrun, hid]
        rfl
      · simpa [kept] using hfs

open Generate (TargetOptions indexName)

/-- **Locales are left out exactly as the names of generated files need it.** The catalogs that are
kept are among the given ones, in their order. Their classes have different names, which are
identifiers, and their modules have different names, none of which is that of the index module.
A catalog is left out exactly if its class would have the name of one that is kept before it; there
is one issue for each catalog that is left out, which names it and the one that is kept. -/
theorem dropCollisions_classNames (p : Project) (o : TargetOptions) {cs : List SourcedCatalog}
    (hids : ∀ c ∈ cs, c.catalog.id ≠ "") :
    ∃ fs : List Fate, fs.map (·.catalog) = cs ∧
      p.dropCollisions ∅ cs = (kept fs, fs.filterMap (issue? p)) ∧
      (kept fs).Sublist cs ∧
      ((kept fs).map fun c => o.className c.catalog.id).Nodup ∧
      ((kept fs).map fun c => o.moduleName c.catalog.id).Nodup ∧
      (∀ c ∈ kept fs, isIdentifier (o.className c.catalog.id) = true ∧
        o.moduleName c.catalog.id ≠ indexName) ∧
      ∀ before f after, fs = before ++ f :: after → ∀ k, f.rival = some k ↔
        k ∈ kept before ∧ o.className k.catalog.id = o.className f.catalog.catalog.id := by
  obtain ⟨fs, rfl, hrun, hfs⟩ := p.dropCollisions_fates seen_empty cs
  have hjustified : Justified (fun c => o.className c.catalog.id) [] fs :=
    hfs.congr fun a ha b hb => (o.className_eq_iff (hids a ha) (hids b hb)).symm
  have hclasses := hjustified.nodup List.nodup_nil
  have hmodules : ((kept fs).map fun c => o.moduleName c.catalog.id) =
      ((kept fs).map fun c => o.className c.catalog.id).map (· ++ OutputKind.modules.ending) := by
    rw [List.map_map]
    rfl
  refine ⟨fs, rfl, hrun, kept_sublist fs, hclasses, ?_, ?_, hjustified⟩
  · rw [hmodules]
    exact hclasses.map fun a b h => (String.append_left_inj _).1 h
  · exact fun c _ => ⟨isIdentifier_toIdentifier _, o.moduleName_ne_indexName _⟩

/-- Locales of which three have the same identifier. -/
def alikeLocales : List SourcedCatalog :=
  ["en-US", "1", "en_US", "-1", "en US"].map fun id =>
    ⟨{ id }, .ofText ("./translations/" ++ id ++ ".tm")⟩

theorem dropCollisions_classNames_alike :
    (∀ c ∈ alikeLocales, c.catalog.id ≠ "") ∧
    (plain.dropCollisions ∅ alikeLocales).2 =
      [.localeCollision "translations/en_US.tm" "en_US" "en-US" "en_US",
        .localeCollision "translations/-1.tm" "-1" "1" "_1",
        .localeCollision "translations/en US.tm" "en US" "en-US" "en_US"] ∧
    ∃ fs : List Fate, fs.map (·.catalog) = alikeLocales ∧
      (plain.dropCollisions ∅ alikeLocales).1 = kept fs ∧
      ((kept fs).map fun c => (plain.targetOptions {}).moduleName c.catalog.id).Nodup := by
  have hids : ∀ c ∈ alikeLocales, c.catalog.id ≠ "" := by
    intro c hc
    simp only [alikeLocales, List.map_cons, List.map_nil, List.mem_cons, List.not_mem_nil,
      or_false] at hc
    rcases hc with rfl | rfl | rfl | rfl | rfl <;> decide
  obtain ⟨fs, hfs, hrun, -, -, hmodules, -⟩ :=
    plain.dropCollisions_classNames (plain.targetOptions {}) hids
  exact ⟨hids, by decide +kernel, fs, hfs, congrArg Prod.fst hrun, hmodules⟩

end Project

end Polyglot
