import Polyglot.Generate.LocaleClass
import Polyglot.Project.Loading
import Polyglot.Proofs.ReadNames
import Polyglot.Proofs.Resolving
import Polyglot.Proofs.Signatures

/-!
# Generated classes are well scoped

A method of a locale class mentions the parameters of its message. They have to be declared, under
names that a method may declare. This holds from the reading of a file on (`Scoped`), it is kept by
resolving references and by merging the signatures of several locales, and so it holds of the class.

* `Scoped content ps`: the parameters in a content are among `ps`, whose names are fit for use;
* `Text.Named.scoped`: reading without a fatal slip gives scoped texts;
* `resolve_scoped`: resolving keeps contents scoped;
* `kept_scoped`: so a catalog that is kept has scoped messages only;
* `localeClass_wellScoped`: the main statement.
-/

namespace Polyglot

open Parameter (names)

/-! ### Scoped contents -/

/-- The parameters that a content mentions, by name. -/
def mentioned (content : List Part) : List String :=
  content.filterMap fun
    | .parameter name _ => some name
    | _ => none

lemma mem_mentioned {content : List Part} {name : String} :
    name ∈ mentioned content ↔ ∃ format, Part.parameter name format ∈ content := by
  unfold mentioned
  rw [List.mem_filterMap]
  constructor
  · rintro ⟨p, hp, he⟩
    cases p with
    | parameter name' format => cases he; exact ⟨format, hp⟩
    | text value => cases he
    | reference other => cases he
  · rintro ⟨format, hp⟩
    exact ⟨_, hp, rfl⟩

lemma mem_mentioned_normalize {content : List Part} {name : String} :
    name ∈ mentioned (normalize content) ↔ name ∈ mentioned content := by
  rw [mem_mentioned, mem_mentioned]
  exact exists_congr fun format => mem_normalize (fun s => by simp)

/-- A name that a method may declare: an identifier and no reserved word. -/
def IsDeclarable (name : String) : Prop :=
  isIdentifier name = true ∧ isReserved name = false

/-- The parameters that a content mentions are declared in `ps`, whose names are declarable. -/
structure Scoped (content : List Part) (ps : ParameterSet) : Prop where
  declared : ∀ name ∈ mentioned content, name ∈ names ps.toList
  declarable : ∀ name ∈ names ps.toList, IsDeclarable name

theorem Scoped.normalize {content : List Part} {ps : ParameterSet} (h : Scoped content ps) :
    Scoped (normalize content) ps :=
  ⟨fun name hn => h.declared name (mem_mentioned_normalize.1 hn), h.declarable⟩

theorem Scoped.append {content content' : List Part} {ps qs : ParameterSet} (h : Scoped content ps)
    (h' : Scoped content' qs) : Scoped (content ++ content') (ps.union qs) := by
  refine ⟨fun name hn => ?_, fun name hn => ?_⟩
  · unfold mentioned at hn
    rw [List.filterMap_append] at hn
    rw [ParameterSet.mem_names_union]
    exact (List.mem_append.1 hn).imp (h.declared name) (h'.declared name)
  · exact (ParameterSet.mem_names_union.1 hn).elim (h.declarable name) (h'.declarable name)

/-! ### Reading -/

/-- A text whose names are in order and that has no fatal slip is scoped. -/
theorem Text.Named.scoped {t : Text} (h : t.Named)
    (hs : ∀ slip ∈ t.slips, (Slip.toProblem slip).isFatal = false) : Scoped t.content t.parameters := by
  have hnames : ∀ name, name ∈ names t.parameters.toList ↔
      ∃ format, Piece.parameter name format ∈ t.pieces := by
    intro name
    unfold Text.parameters names
    rw [← names, ParameterSet.mem_names_ofList, names, List.mem_map]
    constructor
    · rintro ⟨p, hp, rfl⟩
      obtain ⟨piece, hmem, hpiece⟩ := List.mem_filterMap.1 hp
      cases piece with
      | parameter name format => cases hpiece; exact ⟨format, hmem⟩
      | char c => cases hpiece
      | reference other => cases hpiece
    · rintro ⟨format, hmem⟩
      exact ⟨_, List.mem_filterMap.2 ⟨_, hmem, rfl⟩, rfl⟩
  refine ⟨fun name hn => ?_, fun name hn => ?_⟩
  · rw [Text.content, mem_mentioned_normalize, mem_mentioned] at hn
    obtain ⟨format, hmem⟩ := hn
    obtain ⟨piece, hp, he⟩ := List.mem_map.1 hmem
    cases piece with
    | parameter name' written => cases he; exact (hnames _).2 ⟨written, hp⟩
    | char c => cases he
    | reference other => cases he
  · obtain ⟨format, hmem⟩ := (hnames name).1 hn
    obtain ⟨hid, hres⟩ := h name format hmem
    refine ⟨hid, ?_⟩
    cases hr : isReserved name with
    | false => rfl
    | true =>
      obtain ⟨position, hslip⟩ := hres hr
      have := hs _ hslip
      simp [Slip.toProblem, Slip.kind, Problem.isFatal] at this

/-! ### Resolving -/

/-- The content of a message is scoped, whatever its stage. -/
def Stage.Scoped : Stage → Prop
  | .waiting content ps => Polyglot.Scoped content ps
  | .underway => True
  | .done m => Polyglot.Scoped m.content m.parameters

/-- All contents in a resolver are scoped. -/
def Resolver.Scoped (r : Resolver) : Prop :=
  ∀ name e, r.entries.find? name = some e → e.stage.Scoped

lemma Resolver.Scoped.setStage {r : Resolver} (h : r.Scoped) (name : String) (v : Visibility)
    {stage : Stage} (hs : stage.Scoped) : (r.setStage name v stage).Scoped := by
  intro other e he
  have hf := KeyMap.find?_insert r.entries name other ⟨v, stage⟩
  rw [Resolver.setStage, hf] at he
  split at he
  · cases he
    exact hs
  · exact h other e he

/-- What is put together of a message with the parameters `own` is scoped, and these parameters stay
declared. -/
structure SpliceScoped (own : ParameterSet) (t : Resolver.Splice) : Prop where
  resolver : t.resolver.Scoped
  content : Scoped t.content t.parameters
  own : ∀ name ∈ names own.toList, name ∈ names t.parameters.toList

/-- Each part keeps this, if it is a part of a scoped content. -/
lemma SpliceScoped.step {own : ParameterSet} {content : List Part} (hown : Scoped content own)
    {p : Part} (hp : p ∈ content) {t : Resolver.Splice} (ht : SpliceScoped own t)
    (hres : ∀ other, (t.resolver.resolve other).2.Scoped ∧
      ∀ m, (t.resolver.resolve other).1 = some m → Scoped m.content m.parameters) :
    SpliceScoped own (Resolver.spliceWith (fun name r => r.resolve name) t p) := by
  rcases isReference_cases p with href | ⟨other, rfl⟩
  · rw [Resolver.spliceWith_keep href]
    refine ⟨ht.resolver, ⟨fun name hn => ?_, ht.content.declarable⟩, ht.own⟩
    obtain ⟨format, hmem⟩ := mem_mentioned.1 hn
    rcases List.mem_append.1 hmem with hmem | hmem
    · exact ht.content.declared name (mem_mentioned.2 ⟨format, hmem⟩)
    · rw [List.mem_singleton] at hmem
      subst hmem
      exact ht.own name (hown.declared name (mem_mentioned.2 ⟨format, hp⟩))
  · obtain ⟨hr, hm⟩ := hres other
    rcases he : t.resolver.resolve other with ⟨_ | m, r⟩
    · rw [he] at hr
      rw [Resolver.spliceWith_dropped (f := fun name r => Resolver.resolve r name) he]
      exact ⟨hr, ht.content, ht.own⟩
    · rw [he] at hr hm
      rw [Resolver.spliceWith_found (f := fun name r => Resolver.resolve r name) he]
      exact ⟨hr, ht.content.append (hm m rfl), fun name hn =>
        ParameterSet.mem_names_union.2 (Or.inl (ht.own name hn))⟩

/-- **Resolving keeps contents scoped.** -/
theorem resolve_scoped (r : Resolver) (name : String) (h : r.Scoped) :
    (r.resolve name).2.Scoped ∧
      ∀ m, (r.resolve name).1 = some m → Scoped m.content m.parameters := by
  induction hn : r.waiting using Nat.strongRecOn generalizing r name with
  | ind n ih =>
    rcases r.stage_cases name with hf | ⟨v, m, hf⟩ | ⟨v, hf⟩ | ⟨v, content, own, hf⟩
    · rw [Resolver.resolve_unknown hf]
      refine ⟨h, fun m hm => ?_⟩
      cases hm
    · rw [Resolver.resolve_done hf]
      refine ⟨h, fun m' hm => ?_⟩
      cases hm
      exact h name _ hf
    · rw [Resolver.resolve_underway hf]
      refine ⟨fun other e he => ?_, fun m hm => ?_⟩
      · rw [Resolver.entries_noteCycle] at he
        exact h other e he
      · cases hm
    · have hown : Scoped content own := h name _ hf
      have hw := Resolver.waiting_setStage_underway hf
      have hstart : SpliceScoped own ⟨[], own, r.setStage name v .underway⟩ := by
        refine ⟨h.setStage name v trivial, ⟨fun name hn => ?_, hown.declarable⟩,
          fun name hn => hn⟩
        cases hn
      have hall := Resolver.splice_induction content hstart fun p hp t hle ht =>
        ht.step hown hp fun other => ih t.resolver.waiting
          (by simp only at hle; omega) t.resolver other ht.resolver rfl
      rw [Resolver.resolve_waiting hf]
      refine ⟨hall.resolver.setStage name v hall.content.normalize, fun m hm => ?_⟩
      cases hm
      exact hall.content.normalize

lemma resolveEach_scoped (keys : List String) (r : Resolver) (h : r.Scoped) :
    ∀ key m, (r.resolveEach keys).1.find? key = some m → Scoped m.content m.parameters := by
  induction keys generalizing r with
  | nil => intro key m hm; cases hm
  | cons name keys ih =>
    intro key m hm
    obtain ⟨hr, hmsg⟩ := resolve_scoped r name h
    unfold Resolver.resolveEach at hm
    simp only at hm
    split at hm
    · rename_i m' hm'
      rw [KeyMap.find?_insert] at hm
      split at hm
      · cases hm
        exact hmsg _ hm'
      · exact ih _ hr key m hm
    · exact ih _ hr key m hm

/-! ### Catalogs -/

lemma register_scoped {r : Resolver} (h : r.Scoped) {ds : List Definition}
    (hd : ∀ d ∈ ds, Scoped d.content d.parameters) : (Catalog.register r ds).1.Scoped := by
  induction ds generalizing r with
  | nil => exact h
  | cons d ds ih =>
    have hds : ∀ e ∈ ds, Scoped e.content e.parameters :=
      fun e he => hd e (List.mem_cons_of_mem _ he)
    unfold Catalog.register
    split
    · rename_i r' hr'
      refine ih ?_ hds
      unfold Resolver.insert? at hr'
      split at hr'
      · cases hr'
      · cases hr'
        exact h.setStage d.key d.visibility (hd d (List.mem_cons_self ..))
    · exact ih h hds

/-- **The messages of a catalog that is kept are scoped.** -/
theorem kept_scoped {id source : String} {catalog : Catalog} {problems : Problems}
    (h : Catalog.ofSource id source = .ok (catalog, problems)) (hkept : problems.hasFatal = false)
    {key : String} {m : Message} (hm : catalog.messages.find? key = some m) :
    Scoped m.content m.parameters := by
  unfold Catalog.ofSource at h
  split at h
  · cases h
  · rename_i draft hread
    cases h
    have hslips : ∀ slip ∈ draft.slips, (Slip.toProblem slip).isFatal = false := by
      intro slip hslip
      have hall := List.any_eq_false.1 hkept (Slip.toProblem slip)
        (List.mem_append_left _ (List.mem_map.2 ⟨slip, hslip, rfl⟩))
      simpa using hall
    have hdefs : ∀ d ∈ draft.document.definitions, Scoped d.content d.parameters := by
      intro d hd
      obtain ⟨text, hnamed, hc, hp, hsl⟩ := read_named hread d hd
      rw [hc, hp]
      exact hnamed.scoped fun slip hslip => hslips slip (hsl slip hslip)
    have hempty : Resolver.Scoped {} := by
      intro name e he
      cases he
    exact resolveEach_scoped _ _ (register_scoped hempty hdefs) key m hm

/-! ### Classes -/

namespace Generate

open Script

/-- The head of a member that is a method. -/
def methodHead? : Member → Option MethodHead
  | .method head _ => some head
  | .property _ _ => none

/-- The members for some keys have the heads that the interface has for them. -/
theorem methodHead?_messageMembers (reports : Reports) (catalog : Catalog) (keys : List String)
    (materials : Materials) :
    ((messageMembers reports catalog keys).run materials).1.map methodHead? =
      keys.map (fun key => some (MethodHead.ofMessage key (memberParams reports key))) := by
  induction keys generalizing materials with
  | nil => rfl
  | cons key keys ih =>
    have hstep : ((messageMembers reports catalog (key :: keys)).run materials).1 =
        .method (MethodHead.ofMessage key (memberParams reports key))
          [.returning (some ((memberValue catalog key).run materials).1)] ::
        ((messageMembers reports catalog keys).run ((memberValue catalog key).run materials).2).1 := rfl
    rw [hstep, List.map_cons, ih]
    rfl

lemma names_memberParams {reports : Reports} {key : String} {s : Signature}
    (h : reports.agreement.find? key = some s) :
    (memberParams reports key).map (·.name) = names s.parameters := by
  unfold memberParams names
  rw [h, List.map_map]
  rfl

end Generate

/-- The catalogs of the files that are kept, in the order of the files. -/
def keptCatalogs (files : List (Path × String)) : List Catalog :=
  (Loading.ofFiles (files.map fun file => MessageFile.ofText file.1 file.2)).catalogs.map (·.catalog)

lemma mem_keptCatalogs {files : List (Path × String)} {catalog : Catalog}
    (h : catalog ∈ keptCatalogs files) :
    ∃ id source problems, Catalog.ofSource id source = .ok (catalog, problems) ∧
      problems.hasFatal = false := by
  obtain ⟨sourced, hs, rfl⟩ := List.mem_map.1 h
  obtain ⟨file, hf, hc⟩ := List.mem_filterMap.1 hs
  obtain ⟨⟨path, source⟩, -, rfl⟩ := List.mem_map.1 hf
  obtain ⟨catalog, hcat, rfl⟩ := Option.map_eq_some_iff.1 hc
  unfold MessageFile.ofText at hcat
  cases hread : Document.read source with
  | error e =>
    rw [hread] at hcat
    cases hcat
  | ok draft =>
    cases hid : path.localeId? with
    | none =>
      rw [hread, hid] at hcat
      cases hcat
    | some id =>
      rw [hread, hid] at hcat
      obtain ⟨hfatal, hbuilt⟩ := Option.ite_none_left_eq_some.1 hcat
      obtain rfl := Option.some.inj hbuilt
      refine ⟨id, source, (Catalog.ofDraft id draft).2, ?_, Bool.not_eq_true _ ▸ hfatal⟩
      unfold Catalog.ofSource
      rw [hread]

lemma exposed_scoped {files : List (Path × String)} {catalog : Catalog}
    (h : catalog ∈ keptCatalogs files) {e : String × Message} (he : e ∈ catalog.exposed) :
    Scoped e.2.content e.2.parameters := by
  obtain ⟨id, source, problems, hsource, hfatal⟩ := mem_keptCatalogs h
  exact kept_scoped hsource hfatal ((KeyMap.mem_entries_iff _ _ _).1 (List.mem_filter.1 he).1)

open Generate Script in
/-- **Generated classes are well scoped.** Take the catalogs that are kept of some files, and let the
checks give reports for them. The class of each catalog has, after its fixed members, one method or
getter for each generated key, with the heads of the interface in the same order. In each of these
heads the names of the parameters are different and declarable, and if the catalog has the message
for callers, then all the parameters that its resolved content mentions are declared there. -/
theorem localeClass_wellScoped (files : List (Path × String)) {reports : Reports}
    (hreports : (checkCatalogs (keptCatalogs files)).reports = some reports) {catalog : Catalog}
    (hcatalog : catalog ∈ keptCatalogs files) (className interfaceName : String)
    (materials : Materials) :
    ∃ members heads,
      ((localeClass reports catalog className interfaceName).run materials).1 =
        .ofClass className [interfaceName] (fixedMembers ++ members) ∧
      localeInterface interfaceName reports = .ofInterface interfaceName heads ∧
      members.map methodHead? = heads.map some ∧
      heads.map (·.key) = reports.coverage.keys.keys ∧
      ∀ head ∈ heads,
        (head.params.map (·.name)).Nodup ∧
        (∀ name ∈ head.params.map (·.name), isIdentifier name = true ∧ isReserved name = false) ∧
        ∀ m, catalog.exposed? head.key = some m →
          ∀ name ∈ mentioned m.content, name ∈ head.params.map (·.name) := by
  have hscoped : ∀ c ∈ keptCatalogs files, ∀ e ∈ c.exposed,
      ∀ name ∈ names e.2.parameters.toList, IsDeclarable name :=
    fun c hc e he => (exposed_scoped hc he).declarable
  obtain ⟨hproper, hcovers⟩ := reports_signature hreports hscoped
  refine ⟨((messageMembers reports catalog reports.coverage.keys.keys).run materials).1,
    reports.coverage.keys.keys.map (fun key => .ofMessage key (memberParams reports key)), rfl, rfl,
    ?_, ?_, ?_⟩
  · rw [methodHead?_messageMembers, List.map_map]
    rfl
  · rw [List.map_map]
    exact List.map_id'' (fun _ => rfl) _
  · intro head hhead
    obtain ⟨key, -, rfl⟩ := List.mem_map.1 hhead
    show ((memberParams reports key).map (·.name)).Nodup ∧
      (∀ name ∈ (memberParams reports key).map (·.name), IsDeclarable name) ∧
      ∀ m, catalog.exposed? key = some m →
        ∀ name ∈ mentioned m.content, name ∈ (memberParams reports key).map (·.name)
    refine ⟨?_, ?_, fun m hm name hn => ?_⟩
    · cases hs : reports.agreement.find? key with
      | none => simp [memberParams, hs]
      | some s => rw [names_memberParams hs]; exact (hproper key s hs).1
    · cases hs : reports.agreement.find? key with
      | none => simp [memberParams, hs]
      | some s => rw [names_memberParams hs]; exact (hproper key s hs).2
    · have he : (key, m) ∈ catalog.exposed := Catalog.mem_exposed_iff.2 hm
      obtain ⟨s, hs, hnames⟩ := hcovers catalog hcatalog (key, m) he
      rw [names_memberParams hs]
      exact hnames name ((exposed_scoped hcatalog he).declared name hn)

/-- Two locales that agree on a message, and a third that names a parameter by a reserved word. -/
def greetingFiles : List (Path × String) :=
  [(.ofText "en.tm", "@default\n(brand) = 'Elzii \x7byear:number\x7d'\n" ++
      "hello = 'Hi \x7bname\x7d from \x7b@brand\x7d'\n"),
    (.ofText "de.tm", "hello = 'Hallo \x7bname\x7d'\n"),
    (.ofText "fr.tm", "hello = 'Bonjour \x7bthis\x7d'\n")]

open Generate Script in
theorem localeClass_wellScoped_greeting :
    ∃ reports catalog,
      (checkCatalogs (keptCatalogs greetingFiles)).reports = some reports ∧
      catalog ∈ keptCatalogs greetingFiles ∧
      (catalog.exposed? "hello").map (fun m => mentioned m.content) = some ["name", "year"] ∧
      ∃ members heads,
        ((localeClass reports catalog "en_Locale" "Locale").run {}).1 =
          .ofClass "en_Locale" ["Locale"] (fixedMembers ++ members) ∧
        localeInterface "Locale" reports = .ofInterface "Locale" heads ∧
        members.map methodHead? = heads.map some ∧
        heads.map (·.key) = reports.coverage.keys.keys ∧
        ∀ head ∈ heads,
          (head.params.map (·.name)).Nodup ∧
          (∀ name ∈ head.params.map (·.name), isIdentifier name = true ∧ isReserved name = false) ∧
          ∀ m, catalog.exposed? head.key = some m →
            ∀ name ∈ mentioned m.content, name ∈ head.params.map (·.name) := by
  have hsome : (checkCatalogs (keptCatalogs greetingFiles)).reports.isSome = true := by
    decide +kernel
  obtain ⟨reports, hreports⟩ := Option.isSome_iff_exists.1 hsome
  have hfound : ((keptCatalogs greetingFiles).find? (fun catalog =>
      (catalog.exposed? "hello").map (fun m => mentioned m.content) = some ["name", "year"])).isSome =
      true := by
    decide +kernel
  obtain ⟨catalog, hcatalog⟩ := Option.isSome_iff_exists.1 hfound
  have hmem := List.mem_of_find?_eq_some hcatalog
  exact ⟨reports, catalog, hreports, hmem, by simpa using List.find?_some hcatalog,
    localeClass_wellScoped greetingFiles hreports hmem "en_Locale" "Locale" {}⟩

end Polyglot
