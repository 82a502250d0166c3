import Polyglot.Proofs.Coverage
import Polyglot.Proofs.Emitting
import Polyglot.Proofs.TemplateMeaning

/-!
# The members of a locale class

A locale class has two members of its own, the formatter and the constructor, and one for each
generated key. A member for a key returns the message that the catalog has for callers, or the fallback
if it has none.

* `memberNames_localeClass`: the names of all members;
* `nodup_memberNames_iff`: when they are different;
* `answers_messageMembers`: what each member for a key returns;
* `countP_localeClass`: members are counted by counting keys;
* `fallbacks_eq_missingKeys`: the fallbacks are the keys that the report says are missing.
-/

namespace Polyglot

/-- The members of a declaration, if it is a class. -/
def Script.Declaration.members : Declaration → List Member
  | .ofClass _ _ members => members
  | _ => []

namespace Generate

open Script Coverage Emitting

section Class

variable (reports : Reports) (catalog : Catalog) (className interfaceName : String)

lemma members_localeClass (materials : Materials) :
    ((localeClass reports catalog className interfaceName).run materials).1.members =
      fixedMembers ++ ((messageMembers reports catalog reports.coverage.keys.keys).run materials).1 :=
  rfl

/-! ### Names -/

lemma key_messageMembers (keys : List String) (materials : Materials) :
    ((messageMembers reports catalog keys).run materials).1.map Member.key = keys := by
  induction keys generalizing materials with
  | nil => rfl
  | cons key keys ih => exact congrArg (key :: ·) (ih _)

/-- The names of the members: the two that every class has, and the generated keys. -/
theorem memberNames_localeClass (materials : Materials) :
    ((localeClass reports catalog className interfaceName).run materials).1.members.map Member.key =
      formatterProperty :: "constructor" :: reports.coverage.keys.keys := by
  rw [members_localeClass, List.map_append, key_messageMembers]
  rfl

end Class

/-- **When a class declares no member twice.** The members of a locale class have different names
exactly if no generated key is named like the formatter or the constructor. -/
theorem nodup_memberNames_iff {catalogs : List Catalog} (hids : (catalogs.map Catalog.id).Nodup)
    {reports : Reports} (hreports : (checkCatalogs catalogs).reports = some reports) (catalog : Catalog)
    (className interfaceName : String) (materials : Materials) :
    (((localeClass reports catalog className interfaceName).run materials).1.members.map
        Member.key).Nodup ↔
      ¬ Generated catalogs formatterProperty ∧ ¬ Generated catalogs "constructor" := by
  rw [memberNames_localeClass, List.nodup_cons, List.nodup_cons, List.mem_cons, not_or,
    ← mem_keys_coverage hids hreports, ← mem_keys_coverage hids hreports]
  have hne : formatterProperty ≠ "constructor" := by decide
  exact ⟨fun h => ⟨h.1.2, h.2.1⟩, fun h => ⟨⟨hne, h.1⟩, h.2, KeyMap.nodup_keys _⟩⟩

/-- A locale with a message that is named like the formatter. -/
def formattingLocale : Catalog := plainLocale "de" [] ["fmt"] []

/-- There are classes that declare a member twice. -/
theorem not_nodup_memberNames :
    ¬ ∀ catalogs : List Catalog, (catalogs.map Catalog.id).Nodup → ∀ reports,
      (checkCatalogs catalogs).reports = some reports → ∀ catalog ∈ catalogs,
        ∀ className interfaceName materials,
          (((localeClass reports catalog className interfaceName).run materials).1.members.map
            Member.key).Nodup := by
  intro h
  obtain ⟨reports, hreports⟩ := Option.isSome_iff_exists.1
    (show (checkCatalogs [formattingLocale]).reports.isSome = true by decide +kernel)
  have hids : ([formattingLocale].map Catalog.id).Nodup := by decide
  have hnodup := h _ hids reports hreports formattingLocale (List.mem_singleton.2 rfl) "de_Locale"
    "Locale" {}
  rw [memberNames_localeClass, List.nodup_cons] at hnodup
  refine hnodup.1 (List.mem_cons_of_mem _ ((mem_keys_coverage hids hreports _).2 ?_))
  exact ⟨formattingLocale, List.mem_singleton.2 rfl, by decide +kernel⟩

-- The key is obsolete once there is a reference without it.
theorem nodup_memberNames_iff_obsolete :
    ∃ reports, (checkCatalogs [formattingLocale, englishLocale]).reports = some reports ∧
      (((localeClass reports formattingLocale "de_Locale" "Locale").run {}).1.members.map
        Member.key).Nodup := by
  obtain ⟨reports, hreports⟩ := Option.isSome_iff_exists.1
    (show (checkCatalogs [formattingLocale, englishLocale]).reports.isSome = true by decide +kernel)
  refine ⟨reports, hreports, (nodup_memberNames_iff (by decide) hreports _ _ _ _).2 ⟨?_, ?_⟩⟩
  · show formatterProperty ∉ englishLocale.exposedKeys
    decide +kernel
  · show "constructor" ∉ englishLocale.exposedKeys
    decide +kernel

/-! ### What the members return -/

/-- The fallback is returned, since the catalog has no message of this key for callers. -/
def FallsBack (catalog : Catalog) (key : String) (value : Expr) : Prop :=
  catalog.exposed? key = none ∧ value = fallbackTemplate key

/-- What is returned is the template of the message that the catalog has for callers. -/
def TellsOwn (catalog : Catalog) (key : String) (value : Expr) : Prop :=
  ∃ m, catalog.exposed? key = some m ∧
    ∃ materials, value = ((messageTemplate s!"{key}, {catalog.id}" m.content).run materials).1

/-- A member with the head that the interface has for a key. It returns the fallback or the message of
the catalog. -/
def Answers (reports : Reports) (catalog : Catalog) (key : String) (member : Member) : Prop :=
  ∃ value, member = .method (.ofMessage key (memberParams reports key)) [.returning (some value)] ∧
    (FallsBack catalog key value ∨ TellsOwn catalog key value)

lemma memberValue_run (catalog : Catalog) (key : String) (materials : Materials) :
    FallsBack catalog key ((memberValue catalog key).run materials).1 ∨
      TellsOwn catalog key ((memberValue catalog key).run materials).1 := by
  unfold memberValue
  cases hm : catalog.exposed? key with
  | none => exact Or.inl ⟨hm, rfl⟩
  | some m => exact Or.inr ⟨m, hm, materials, rfl⟩

/-- There is one member for each key, in the order of the keys. -/
theorem answers_messageMembers (reports : Reports) (catalog : Catalog) (keys : List String)
    (materials : Materials) :
    List.Forall₂ (Answers reports catalog) keys
      ((messageMembers reports catalog keys).run materials).1 := by
  induction keys generalizing materials with
  | nil => exact .nil
  | cons key keys ih => exact .cons ⟨_, rfl, memberValue_run catalog key materials⟩ (ih _)

/-- The catalog has a message of this key that reads like its fallback. -/
def ReadsAsFallback (catalog : Catalog) (key : String) : Prop :=
  ∃ m, catalog.exposed? key = some m ∧ textRuns m.content = ["<" ++ key ++ ">"]

/-- A message becomes the same template as a fallback only if it reads like one. -/
theorem messageTemplate_eq_fallback_iff (context key : String) (content : List Part)
    (materials : Materials) :
    ((messageTemplate context content).run materials).1 = fallbackTemplate key ↔
      textRuns content = ["<" ++ key ++ ">"] := by
  obtain ⟨first, rest, after, hparts, htexts, -⟩ := templateParts_run context content materials
  have hrun : ((messageTemplate context content).run materials).1 =
      .template (first :: rest.map (·.2)) (rest.map (·.1)) := by
    rw [messageTemplate, StateT.run_bind, hparts]
    rfl
  rw [hrun, htexts, fallbackTemplate, Expr.template.injEq]
  refine and_iff_left_of_imp fun h => ?_
  have hrest : rest = [] := List.map_eq_nil_iff.1 (List.cons.inj h).2
  rw [hrest]
  rfl

/-! ### Counting them -/

/-- A getter or method for a message. -/
def isMessage : Member → Bool
  | .method head _ => head.kind != .constructor
  | .property _ _ => false

/-- A member that returns the fallback of its name. -/
def returnsFallback : Member → Bool
  | .method head [.returning (some (.template [text] []))] => text == "<" ++ head.key ++ ">"
  | _ => false

/-- A member that returns the fallback of its name, and not a message of the catalog. -/
def isFallback (catalog : Catalog) (member : Member) : Bool :=
  returnsFallback member && (catalog.exposed? member.key).isNone

lemma returnsFallback_iff (key : String) (params : List Param) (value : Expr) :
    returnsFallback (.method (.ofMessage key params) [.returning (some value)]) = true ↔
      value = fallbackTemplate key := by
  unfold returnsFallback fallbackTemplate
  constructor
  · intro h
    split at h
    · rename_i heq
      cases heq
      rw [eq_of_beq h]
      rfl
    · cases h
  · rintro rfl
    exact beq_self_eq_true _

section Count

variable {reports : Reports} {catalog : Catalog} {key : String} {member : Member}

lemma Answers.isMessage (h : Answers reports catalog key member) : isMessage member = true := by
  obtain ⟨value, rfl, -⟩ := h
  show (MethodKind.ofParams (memberParams reports key) != .constructor) = true
  unfold MethodKind.ofParams
  split <;> rfl

lemma Answers.isFallback_eq (h : Answers reports catalog key member) :
    isFallback catalog member = (catalog.exposed? key).isNone := by
  obtain ⟨value, rfl, hvalue⟩ := h
  unfold isFallback
  rcases hvalue with ⟨hnone, rfl⟩ | ⟨m, hm, -⟩
  · rw [(returnsFallback_iff _ _ _).2 rfl]
    exact Bool.true_and _
  · show (_ && (catalog.exposed? key).isNone) = _
    rw [hm]
    exact Bool.and_false _

lemma Answers.returnsFallback_eq (h : Answers reports catalog key member)
    (hreads : ¬ ReadsAsFallback catalog key) :
    returnsFallback member = (catalog.exposed? key).isNone := by
  obtain ⟨value, rfl, hvalue⟩ := h
  rcases hvalue with ⟨hnone, rfl⟩ | ⟨m, hm, materials, rfl⟩
  · rw [(returnsFallback_iff _ _ _).2 rfl, hnone]
    rfl
  · rw [hm]
    refine Bool.eq_false_iff.2 fun h => hreads ⟨m, hm, ?_⟩
    exact (messageTemplate_eq_fallback_iff _ _ _ _).1 ((returnsFallback_iff _ _ _).1 h)

/-- To count members for keys is to count keys. -/
lemma countP_localeClass {p : String → Bool} {q : Member → Bool} (hfixed : fixedMembers.countP q = 0)
    (hq : ∀ key member, Answers reports catalog key member → q member = p key)
    (className interfaceName : String) (materials : Materials) :
    ((localeClass reports catalog className interfaceName).run materials).1.members.countP q =
      reports.coverage.keys.keys.countP p := by
  rw [members_localeClass, List.countP_append, hfixed, Nat.zero_add]
  have hmembers := answers_messageMembers reports catalog reports.coverage.keys.keys materials
  generalize ((messageMembers reports catalog reports.coverage.keys.keys).run materials).1 = members
    at hmembers ⊢
  generalize reports.coverage.keys.keys = keys at hmembers ⊢
  induction hmembers with
  | nil => rfl
  | cons hanswers _ ih => rw [List.countP_cons, List.countP_cons, ih, hq _ _ hanswers]

end Count

/-! ### Modules that are written -/

/-- The member for a key returns what the report tells of the catalog. -/
def Agrees (reports : Reports) (catalog : Catalog) (key : String) (member : Member) : Prop :=
  ∃ value, member = .method (.ofMessage key (memberParams reports key)) [.returning (some value)] ∧
    (FallsBack catalog key value ↔ key ∈ reports.coverage.missingKeys catalog.id) ∧
    (TellsOwn catalog key value ↔ key ∉ reports.coverage.missingKeys catalog.id) ∧
    (value = fallbackTemplate key ↔
      key ∈ reports.coverage.missingKeys catalog.id ∨ ReadsAsFallback catalog key)

lemma Answers.agrees {reports : Reports} {catalog : Catalog} {key : String} {member : Member}
    (h : Answers reports catalog key member)
    (hmissing : key ∈ reports.coverage.missingKeys catalog.id ↔ catalog.exposed? key = none) :
    Agrees reports catalog key member := by
  obtain ⟨value, rfl, hvalue⟩ := h
  refine ⟨value, rfl, ?_⟩
  rw [hmissing]
  rcases hvalue with ⟨hnone, rfl⟩ | ⟨m, hm, materials, rfl⟩
  · simp [FallsBack, TellsOwn, hnone]
  · refine ⟨by simp [FallsBack, hm], ⟨fun _ => by simp [hm], fun _ => ⟨m, hm, materials, rfl⟩⟩, ?_⟩
    rw [messageTemplate_eq_fallback_iff]
    simp [ReadsAsFallback, hm]

/-- The members of the classes that a module exports as its default. -/
def classMembers (program : Program) : List Member :=
  program.body.flatMap fun
    | .exportDefaultOf declaration => declaration.members
    | _ => []

/-- The module of a catalog as it is built in an emission, and what it is built from. -/
def builtModule (e : Emission) (reports : Reports) (catalog : Catalog) (source : String) :
    Program × Materials :=
  (localeProgram e.options reports catalog source).run
    { cacheKeys := e.modules.cacheKeys, supply := e.supply }

/-- A module has the class of its catalog, whatever header there is before it. -/
lemma classMembers_localeProgram (o : TargetOptions) (reports : Reports) (catalog : Catalog)
    (source : String) (materials : Materials) :
    ∃ between, classMembers ((localeProgram o reports catalog source).run materials).1 =
      ((localeClass reports catalog (o.className catalog.id) o.interfaceName).run between).1.members := by
  unfold localeProgram
  cases catalog.header with
  | none => exact ⟨_, List.append_nil _⟩
  | some code => exact ⟨((placeholder code).run _).2, List.append_nil _⟩

lemma classMembers_builtModule {e : Emission} {reports : Reports} {catalog : Catalog} {source : String}
    {program : Program} {materials : Materials}
    (hbuilt : builtModule e reports catalog source = (program, materials)) :
    ∃ between, classMembers program =
      ((localeClass reports catalog (e.options.className catalog.id) e.options.interfaceName).run
        between).1.members := by
  obtain rfl : (builtModule e reports catalog source).1 = program := congrArg Prod.fst hbuilt
  exact classMembers_localeProgram e.options reports catalog source _

/-- The module is what is written, if the target has these reports. -/
lemma gives_compileModule_iff_built {e : Emission} {reports : Reports} {catalog : Catalog}
    {source : String} {program : Program} {materials : Materials}
    (he : e.modules.reports = some reports)
    (hbuilt : builtModule e reports catalog source = (program, materials)) {dir : OutputDirectory}
    {file : EmittedFile} {e' : Emission} :
    Gives (compileModule dir catalog source) e file e' ↔
      ∃ d, dir.write e.disk (e.options.moduleName catalog.id)
          (materials.insertion.process program.text) = (.ok (), d) ∧
        file = ⟨.modules, e.options.moduleName catalog.id,
          (reports.coverage.missingKeys catalog.id).length, reports.coverage.keys.size⟩ ∧
        e' = noted e reports catalog source d := by
  have htext : (localeModule e.options reports catalog source e.modules.cacheKeys e.supply).1 =
      materials.insertion.process program.text := by
    show (builtModule e reports catalog source).2.insertion.process
      (builtModule e reports catalog source).1.text = _
    rw [hbuilt]
  rw [gives_compileModule_iff, ← htext]
  constructor
  · rintro ⟨reports', d, he', h⟩
    cases he.symm.trans he'
    exact ⟨d, h⟩
  · rintro ⟨d, h⟩
    exact ⟨reports, d, he, h⟩

/-- **Fallbacks and the report agree.** In the class of a catalog, the member for a key returns the
fallback exactly if the report says that the catalog lacks the key, and else it returns the message of
the catalog. The module is written whenever the disk allows it, and the numbers that are given back with
it are those of the fallbacks and of the messages in it. -/
theorem fallbacks_eq_missingKeys {catalogs : List Catalog} (hids : (catalogs.map Catalog.id).Nodup)
    {reports : Reports} (hreports : (checkCatalogs catalogs).reports = some reports)
    {catalog : Catalog} (hcatalog : catalog ∈ catalogs) :
    (∀ className interfaceName materials, ∃ members,
      ((localeClass reports catalog className interfaceName).run materials).1 =
        .ofClass className [interfaceName] (fixedMembers ++ members) ∧
      List.Forall₂ (Agrees reports catalog) reports.coverage.keys.keys members) ∧
    ∀ (dir : OutputDirectory) (source : String) (e : Emission), e.modules.reports = some reports →
      ∀ program materials, builtModule e reports catalog source = (program, materials) →
        (∀ d, (∃ file e', Gives (compileModule dir catalog source) e file e' ∧ e'.disk = d) ↔
          dir.write e.disk (e.options.moduleName catalog.id)
            (materials.insertion.process program.text) = (.ok (), d)) ∧
        ∀ file e', Gives (compileModule dir catalog source) e file e' →
          file.missing = (classMembers program).countP (isFallback catalog) ∧
          file.total = (classMembers program).countP isMessage ∧
          ((∀ key, ¬ ReadsAsFallback catalog key) →
            file.missing = (classMembers program).countP returnsFallback) := by
  have hmissing := missingKeys_eq_filter hids hreports hcatalog
  refine ⟨fun className interfaceName materials => ⟨_, rfl, ?_⟩, ?_⟩
  · obtain ⟨hlength, hanswers⟩ := List.forall₂_iff_zip.1
      (answers_messageMembers reports catalog reports.coverage.keys.keys materials)
    refine List.forall₂_iff_zip.2 ⟨hlength, fun hmem => (hanswers hmem).agrees ?_⟩
    rw [hmissing, List.mem_filter, Option.isNone_iff_eq_none, and_iff_right (List.of_mem_zip hmem).1]
  · intro dir source e he program materials hbuilt
    refine ⟨fun d => ⟨?_, fun hd =>
      ⟨_, _, (gives_compileModule_iff_built he hbuilt).2 ⟨d, hd, rfl, rfl⟩, rfl⟩⟩, ?_⟩
    · rintro ⟨file, e', h, rfl⟩
      obtain ⟨d, hd, -, rfl⟩ := (gives_compileModule_iff_built he hbuilt).1 h
      exact hd
    · intro file e' h
      obtain ⟨d, -, rfl, -⟩ := (gives_compileModule_iff_built he hbuilt).1 h
      obtain ⟨between, hmembers⟩ := classMembers_builtModule hbuilt
      rw [hmembers, hmissing, ← List.countP_eq_length_filter]
      refine ⟨?_, ?_, fun hreads => ?_⟩
      · rw [countP_localeClass rfl fun _ _ h => h.isFallback_eq]
      · rw [countP_localeClass rfl fun _ _ h => h.isMessage, List.countP_true, KeyMap.length_keys]
      · rw [countP_localeClass rfl fun key _ h => h.returnsFallback_eq (hreads key)]

/-- The target for modules has been started on an empty disk. -/
def rootEmission (reports : Reports) : Emission :=
  { options := rootOptions, disk := ∅, modules := { reports := some reports } }

-- The reference has a message `bye` that the French locale lacks.
theorem fallbacks_eq_missingKeys_french :
    ∃ reports, (checkCatalogs [frenchLocale, englishLocale]).reports = some reports ∧
      (∃ members, ((localeClass reports frenchLocale "fr_Locale" "Locale").run {}).1 =
          .ofClass "fr_Locale" ["Locale"] (fixedMembers ++ members) ∧
        List.Forall₂ (Agrees reports frenchLocale) ["bye", "title"] members) ∧
      ∃ file e', Gives (compileModule ⟨.ofText "/", .modules⟩ frenchLocale "fr.msg")
          (rootEmission reports) file e' ∧ file.missing = 1 ∧
        file.missing = (classMembers (builtModule (rootEmission reports) reports frenchLocale
          "fr.msg").1).countP (isFallback frenchLocale) := by
  obtain ⟨reports, hreports⟩ := Option.isSome_iff_exists.1
    (show (checkCatalogs [frenchLocale, englishLocale]).reports.isSome = true by decide +kernel)
  have hcoverage : (checkCatalogs [frenchLocale, englishLocale]).reports.map (fun r =>
      (r.coverage.keys.keys, r.coverage.missingKeys "fr")) = some (["bye", "title"], ["bye"]) := by
    decide +kernel
  rw [hreports] at hcoverage
  obtain ⟨hkeys, hmissing⟩ := Prod.mk.inj (Option.some.inj hcoverage)
  obtain ⟨hclass, hmodule⟩ := fallbacks_eq_missingKeys (by decide) hreports (List.mem_cons_self ..)
  obtain ⟨hwritten, hnumbers⟩ :=
    hmodule ⟨.ofText "/", .modules⟩ "fr.msg" (rootEmission reports) rfl _ _ rfl
  have hname : rootOptions.moduleName frenchLocale.id = "fr_Locale.ts" := by decide +kernel
  obtain ⟨file, e', hfile, -⟩ := (hwritten _).2 (by
    rw [show (rootEmission reports).options = rootOptions from rfl, hname]
    rfl)
  refine ⟨reports, hreports, hkeys ▸ hclass _ _ _, file, e', hfile, ?_, (hnumbers file e' hfile).1⟩
  obtain ⟨d, -, rfl, -⟩ := (gives_compileModule_iff_built rfl rfl).1 hfile
  exact congrArg List.length hmissing

end Generate

end Polyglot
