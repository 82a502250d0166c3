import Polyglot.Proofs.Room

/-!
# Catalogs that are compiled one after the other

This is one of the orders in which calls may take their steps, as long as there are words left to
choose from.

* `reaches_fill`, `reaches_compileFor`: a call that takes all its steps at once;
* `reaches_compile`, `reaches_compileAll`: one catalog, and all of them.
-/

namespace Polyglot

namespace Generate

open OutputDirectory Disk Emitting

/-! ### One call -/

/-- What is chosen for a piece is new. -/
lemma exists_fill {built : List (Piece Word)} {m : Materials} (p : Piece Unit)
    (hinsertion : m.insertion = insertionOf built)
    (hplaceholders : p.isCode = true → (insertionOf built).used.length < wordCount)
    (hkeys : p.isKey = true → m.cacheKeys.length < wordCount) :
    ∃ q m', p.fill.run m = (q, m') ∧ q.blank = p ∧ q.Fresh built m.cacheKeys ∧
      m'.insertion = insertionOf (built ++ [q]) ∧ m'.cacheKeys = q.key?.toList ++ m.cacheKeys := by
  simp only [insertionOf_concat, ← hinsertion]
  rw [← hinsertion] at hplaceholders
  cases p with
  | text s => exact ⟨.text s, m, rfl, rfl, trivial, by simp [Piece.insertion?], rfl⟩
  | code c _ =>
    refine ⟨.code c (m.supply.draw m.insertion.used).1, _, rfl, rfl, ?_, rfl, rfl⟩
    rw [Piece.Fresh, ← hinsertion]
    exact Supply.draw_not_mem _ (hplaceholders rfl)
  | key _ =>
    refine ⟨.key (m.supply.draw m.cacheKeys).1, _, rfl, rfl, Supply.draw_not_mem _ (hkeys rfl), ?_, rfl⟩
    show m.insertion = ⟨m.insertion.codes ++ []⟩
    rw [List.append_nil]

/-- How many pieces a call has left to add. -/
def Call.size (c : Call) : Nat :=
  c.stage.left.length

section Call

variable {reports : Reports} {e e' : Emission} {catalog : Catalog} {source : String}
  {dir : OutputDirectory}

/-- **All pieces of a module are put together.** -/
theorem reaches_fill (reports : Reports) (e : Emission) (c : Call) (left : List (Piece Unit))
    {built : List (Piece Word)} {m : Materials} (hinsertion : m.insertion = insertionOf built)
    (hkeys : m.cacheKeys = e.modules.cacheKeys) (hsupply : m.supply = e.supply)
    (before after : List Call)
    (hroom : Roomy e (before ++ { c with stage := .building built left } :: after)) :
    Reaches reports (e, before ++ { c with stage := .building built left } :: after)
        ({ e with
            supply := ((fillAll left).run m).2.supply
            modules := { e.modules with cacheKeys := ((fillAll left).run m).2.cacheKeys } },
          before ++ { c with stage := .building (built ++ ((fillAll left).run m).1) [] } :: after) ∧
      ((fillAll left).run m).2.insertion = insertionOf (built ++ ((fillAll left).run m).1) := by
  induction left generalizing built e m with
  | nil =>
    rw [fillAll_nil_run, List.append_nil, hsupply, hkeys]
    exact ⟨.refl, hinsertion⟩
  | cons p left ih =>
    obtain ⟨hcode, hkey⟩ := hroom.room (List.mem_append_right before List.mem_cons_self) rfl
    rw [← hkeys] at hkey
    obtain ⟨q, m', hfill, rfl, hfresh, hinsertion', hkeys'⟩ := exists_fill p hinsertion hcode hkey
    rw [hkeys] at hfresh
    have hstep : Step reports
        (e, before ++ { c with stage := .building built (q.blank :: left) } :: after) _ :=
      .move before after (.build q m'.supply rfl hfresh)
    obtain ⟨hreach, hfinal⟩ := ih { e with
        supply := m'.supply
        modules := { e.modules with cacheKeys := q.key?.toList ++ e.modules.cacheKeys } }
      hinsertion' (by rw [hkeys', hkeys]) rfl (hstep.roomy_iff.2 hroom)
    rw [List.append_assoc, List.singleton_append] at hreach hfinal
    rw [fillAll_cons_run hfill]
    exact ⟨.head hstep hreach, hfinal⟩

/-- The text of a module, and what is left after it, told by its pieces. -/
lemma localeModule_eq {o : TargetOptions} {cacheKeys : CacheKeys} {supply : Supply}
    {built : List (Piece Word)} {m : Materials}
    (hfill : (fillAll (modulePieces o reports catalog source)).run { cacheKeys, supply } = (built, m))
    (hinsertion : m.insertion = insertionOf built) :
    localeModule o reports catalog source cacheKeys supply =
      ((insertionOf built).process (textOf Piece.printed built), m.cacheKeys, m.supply) := by
  obtain ⟨htext, hend⟩ := localeProgram_pieces o reports catalog source { cacheKeys, supply }
  rw [hfill] at htext hend
  have hrun : localeModule o reports catalog source cacheKeys supply =
      (((localeProgram o reports catalog source).run { cacheKeys, supply }).2.insertion.process
          ((localeProgram o reports catalog source).run { cacheKeys, supply }).1.text,
        ((localeProgram o reports catalog source).run { cacheKeys, supply }).2.cacheKeys,
        ((localeProgram o reports catalog source).run { cacheKeys, supply }).2.supply) := rfl
  rw [hrun, htext, hend, hinsertion]

/-- **A call takes all its steps at once.** -/
theorem reaches_compileFor {c : Catalog × String} {files : List EmittedFile}
    (hreports : dir.kind = .modules → e.modules.reports = some reports) (before after : List Call)
    (hroom : Roomy e (before ++ Call.begin e.options reports c dir :: after))
    (h : Gives (compileFor c.1 c.2 dir) e files e') :
    ∃ built, Reaches reports
      (e, before ++ Call.begin e.options reports c dir :: after)
      (e', before ++ ⟨c.1, c.2, dir, .returned built files⟩ :: after) := by
  obtain ⟨path, kind⟩ := dir
  cases kind with
  | declarations =>
    obtain ⟨rfl, rfl⟩ := gives_compileFor_declarations.1 h
    refine ⟨[], .single (.move before after ?_)⟩
    exact .declare rfl rfl (gives_modify_iff.2 rfl)
  | modules =>
    obtain ⟨file, rfl, hcompile⟩ := gives_compileFor_modules.1 h
    obtain ⟨reports', d, hreports', hwrite, rfl, rfl⟩ := gives_compileModule_iff.1 hcompile
    cases (hreports rfl).symm.trans hreports'
    rcases hfill : (fillAll (modulePieces e.options reports c.1 c.2)).run
      { cacheKeys := e.modules.cacheKeys, supply := e.supply } with ⟨built, m⟩
    obtain ⟨hbuild, hinsertion⟩ := reaches_fill reports e
      (Call.begin e.options reports c ⟨path, .modules⟩) (modulePieces e.options reports c.1 c.2)
      (m := { cacheKeys := e.modules.cacheKeys, supply := e.supply }) rfl rfl rfl before after hroom
    rw [hfill] at hbuild hinsertion
    have hmodule := localeModule_eq hfill hinsertion
    rw [hmodule] at hwrite
    unfold noted
    rw [hmodule]
    have hwritten := hbuild.tail (.move before after
      (.write rfl rfl (gives_onDisk_iff.2 ⟨d, hwrite, rfl⟩)))
    have hnoted := hwritten.tail (.move before after (.note rfl rfl (gives_modify_iff.2 rfl)))
    exact ⟨built, hnoted⟩

end Call

/-! ### All calls -/

section Calls

variable {reports : Reports} {e e' : Emission} {files : List EmittedFile}

/-- The targets take their turns with one catalog. -/
lemma reaches_gather {c : Catalog × String} {dirs : List OutputDirectory}
    (hreports : (∃ dir ∈ dirs, dir.kind = .modules) → e.modules.reports = some reports)
    (before after : List Call)
    (hroom : Roomy e (before ++ (dirs.map (Call.begin e.options reports c) ++ after)))
    (h : Gives (gather (compileFor c.1 c.2) dirs) e files e') :
    ∃ done, Reaches reports (e, before ++ (dirs.map (Call.begin e.options reports c) ++ after))
        (e', before ++ (done ++ after)) ∧ (∀ a ∈ done, a.stage.isOver = true) ∧
      (done.flatMap fun a => a.stage.files) = files := by
  induction dirs generalizing e files before with
  | nil =>
    obtain ⟨rfl, rfl⟩ := gives_pure_iff.1 h
    exact ⟨[], .refl, by simp, rfl⟩
  | cons dir dirs ih =>
    obtain ⟨first, between, hfirst, h⟩ := gives_bind_iff.1 h
    obtain ⟨second, _, hsecond, h⟩ := gives_bind_iff.1 h
    obtain ⟨rfl, rfl⟩ := gives_pure_iff.1 h
    obtain ⟨built, hreach⟩ := reaches_compileFor
      (fun hkind => hreports ⟨dir, List.mem_cons_self .., hkind⟩) before
      (dirs.map (Call.begin e.options reports c) ++ after) hroom hfirst
    have hoptions : between.options = e.options := hreach.progress.options
    have hmodules : between.modules.reports = e.modules.reports := hreach.progress.modules
    have hroom' := hreach.roomy_iff.2 hroom
    rw [← hoptions, ← List.singleton_append, ← List.append_assoc] at hroom'
    obtain ⟨done, hreach', hover, hfiles⟩ := ih
      (fun ⟨a, ha, hkind⟩ => by rw [hmodules, hreports ⟨a, List.mem_cons_of_mem _ ha, hkind⟩])
      (before ++ [⟨c.1, c.2, dir, .returned built first⟩]) hroom' hsecond
    rw [hoptions, List.append_assoc, List.append_assoc] at hreach'
    refine ⟨⟨c.1, c.2, dir, .returned built first⟩ :: done, hreach.trans hreach', ?_, ?_⟩
    · exact List.forall_mem_cons.2 ⟨rfl, hover⟩
    · rw [List.flatMap_cons, hfiles]
      rfl

/-- **One catalog is compiled for all targets**, while other calls wait. -/
theorem reaches_compile {c : Catalog × String}
    (hreports : e.options.modulesDir ≠ none → e.modules.reports = some reports)
    (before after : List Call)
    (hroom : Roomy e (before ++ (calls e.options reports [c] ++ after)))
    (h : Gives (compile c.1 c.2) e files e') :
    ∃ done, Reaches reports (e, before ++ (calls e.options reports [c] ++ after))
        (e', before ++ (done ++ after)) ∧ (∀ a ∈ done, a.stage.isOver = true) ∧
      (done.flatMap fun a => a.stage.files) = files := by
  obtain ⟨_, _, hget, h⟩ := gives_bind_iff.1 h
  obtain ⟨rfl, rfl⟩ := gives_get_iff.1 hget
  have hcalls : calls e.options reports [c] =
      (directories e.options).map (Call.begin e.options reports c) := List.flatMap_singleton ..
  rw [hcalls] at hroom ⊢
  refine reaches_gather ?_ before after hroom h
  rintro ⟨dir, hdir, hkind⟩
  refine hreports fun hnone => ?_
  rcases mem_directories_iff.1 hdir with ⟨path, hpath, -⟩ | ⟨path, -, rfl⟩
  · rw [hnone] at hpath
    cases hpath
  · cases hkind

/-- Catalogs that are compiled one after the other, in the order of their calls. -/
lemma reaches_calls {cs : List (Catalog × String)}
    (hreports : e.options.modulesDir ≠ none → e.modules.reports = some reports) (before : List Call)
    (hroom : Roomy e (before ++ calls e.options reports cs))
    (h : Gives (compileAll cs) e files e') :
    ∃ done, Reaches reports (e, before ++ calls e.options reports cs) (e', before ++ done) ∧
      (∀ a ∈ done, a.stage.isOver = true) ∧ (done.flatMap fun a => a.stage.files) = files := by
  induction cs generalizing e files before with
  | nil =>
    obtain ⟨rfl, rfl⟩ := gives_pure_iff.1 h
    exact ⟨[], .refl, by simp, rfl⟩
  | cons c cs ih =>
    obtain ⟨first, between, hfirst, h⟩ := gives_bind_iff.1 h
    obtain ⟨second, _, hsecond, h⟩ := gives_bind_iff.1 h
    obtain ⟨rfl, rfl⟩ := gives_pure_iff.1 h
    have hcalls : calls e.options reports (c :: cs) =
        calls e.options reports [c] ++ calls e.options reports cs := by simp [calls]
    rw [hcalls] at hroom
    obtain ⟨done, hreach, hover, hfiles⟩ := reaches_compile hreports before
      (calls e.options reports cs) hroom hfirst
    have hoptions : between.options = e.options := hreach.progress.options
    have hmodules : between.modules.reports = e.modules.reports := hreach.progress.modules
    have hroom' := hreach.roomy_iff.2 hroom
    rw [← hoptions, ← List.append_assoc] at hroom'
    obtain ⟨done', hreach', hover', hfiles'⟩ := ih (by rw [hoptions, hmodules]; exact hreports)
      (before ++ done) hroom' hsecond
    rw [hoptions, List.append_assoc, List.append_assoc] at hreach'
    refine ⟨done ++ done', ?_, ?_, ?_⟩
    · rw [hcalls]
      exact hreach.trans hreach'
    · rintro a ha
      rcases List.mem_append.1 ha with ha | ha
      · exact hover a ha
      · exact hover' a ha
    · rw [List.flatMap_append, hfiles, hfiles']

/-- The order in which the calls are listed says nothing. -/
lemma Step.perm {cs cs' others : List Call} (h : Step reports (e, cs) (e', cs'))
    (hperm : cs.Perm others) : ∃ others', Step reports (e, others) (e', others') ∧ cs'.Perm others' := by
  cases h with
  | @move _ _ c c' before after hmoves =>
    obtain ⟨before', after', rfl⟩ := List.append_of_mem (hperm.mem_iff.1 (by simp : c ∈ _))
    have hrest : (before ++ after).Perm (before' ++ after') :=
      ((List.perm_middle.symm.trans hperm).trans List.perm_middle).cons_inv
    refine ⟨before' ++ c' :: after', .move before' after' hmoves, ?_⟩
    exact (List.perm_middle.trans (hrest.cons c')).trans List.perm_middle.symm

lemma Reaches.perm {s s' : Emission × List Call} (h : Reaches reports s s') {others : List Call}
    (hperm : s.2.Perm others) :
    ∃ others', Reaches reports (s.1, others) (s'.1, others') ∧ s'.2.Perm others' := by
  induction h with
  | refl => exact ⟨others, .refl, hperm⟩
  | tail _ hstep ih =>
    obtain ⟨between, hreach, hbetween⟩ := ih
    obtain ⟨others', hstep', hperm'⟩ := hstep.perm hbetween
    exact ⟨others', hreach.tail hstep', hperm'⟩

/-- **Catalogs that are compiled one after the other**, in whatever order, are compiled in one of the
orders that there are. -/
theorem reaches_compileAll {cs cs' : List (Catalog × String)} (hperm : cs'.Perm cs)
    (hreports : e.options.modulesDir ≠ none → e.modules.reports = some reports)
    (hroom : Roomy e (calls e.options reports cs)) (h : Gives (compileAll cs') e files e') :
    ∃ done, Reaches reports (e, calls e.options reports cs) (e', done) ∧
      (∀ a ∈ done, a.stage.isOver = true) ∧ (done.flatMap fun a => a.stage.files).Perm files := by
  have hcalls : (calls e.options reports cs').Perm (calls e.options reports cs) :=
    hperm.flatMap_right _
  obtain ⟨done, hreach, hover, hfiles⟩ := reaches_calls hreports [] (hroom.perm hcalls.symm) h
  obtain ⟨done', hreach', hdone⟩ := hreach.perm hcalls
  refine ⟨done', hreach', fun a ha => hover a (hdone.mem_iff.2 ha), ?_⟩
  rw [← hfiles]
  exact hdone.symm.flatMap_right _

end Calls

end Generate

end Polyglot
