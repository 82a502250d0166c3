import Polyglot.Proofs.AlikeDisks
import Polyglot.Proofs.ModulePieces
import Polyglot.Proofs.OutputFiles
import Mathlib.Logic.Relation

/-!
# Calls that take turns

Catalogs are compiled side by side, one call for each catalog and each target. The steps of different
calls come in any order: to choose the word of a placeholder or of a cache key, to write the module, to
note that it was written. Placeholders are a call's own, cache keys are shared by all.

* `Call`, `Stage`: a call, and how far it has come;
* `Moves`, `Step`: the steps of one call and of all of them;
* `Progress`, with `Moves.progress` and `Reaches.progress`: what is known after one step, and after any.
-/

namespace Polyglot.Generate

open Script OutputDirectory Disk

/-! ### Calls -/

/-- How far a call has come. -/
inductive Stage where
  /-- The module is being built: the pieces that are there, and those that are left. -/
  | building (built : List (Piece Word)) (left : List (Piece Unit))
  /-- The file has been written, but not noted. -/
  | written (built : List (Piece Word))
  /-- The call has ended and given files back. -/
  | returned (built : List (Piece Word)) (files : List EmittedFile)

/-- A call that compiles a catalog for one target. -/
structure Call where
  catalog : Catalog
  source : String
  dir : OutputDirectory
  stage : Stage

namespace Stage

/-- The pieces that are there. -/
def built : Stage → List (Piece Word)
  | building ps _ => ps
  | written ps => ps
  | returned ps _ => ps

/-- The pieces that are left. -/
def left : Stage → List (Piece Unit)
  | building _ ps => ps
  | _ => []

/-- The files that the call has given back. -/
def files : Stage → List EmittedFile
  | returned _ files => files
  | _ => []

/-- Whether the call has written all that it writes. -/
def hasWritten : Stage → Bool
  | building _ _ => false
  | _ => true

/-- Whether the call has ended. -/
def isOver : Stage → Bool
  | returned _ _ => true
  | _ => false

end Stage

namespace Call

/-- The pieces that a call puts together. Declarations are not built before the end. -/
def pieces (o : TargetOptions) (reports : Reports) (c : Catalog × String) :
    OutputKind → List (Piece Unit)
  | .modules => modulePieces o reports c.1 c.2
  | .declarations => []

/-- A call that has not taken a step yet. -/
def begin (o : TargetOptions) (reports : Reports) (c : Catalog × String) (dir : OutputDirectory) :
    Call :=
  ⟨c.1, c.2, dir, .building [] (pieces o reports c dir.kind)⟩

/-- The text of the module that a call writes. -/
def text (c : Call) : String :=
  (insertionOf c.stage.built).process (textOf Piece.printed c.stage.built)

/-- No placeholder of the module is found in its fixed text. -/
def Apart (c : Call) : Prop :=
  ∀ w ∈ (insertionOf c.stage.built).used,
    ¬ w.placeholder <:+: (textOf Piece.fixed c.stage.built).toList

end Call

/-- The file that a call for a module gives back. -/
def moduleFile (o : TargetOptions) (reports : Reports) (catalog : Catalog) : EmittedFile :=
  ⟨.modules, o.moduleName catalog.id, (reports.coverage.missingKeys catalog.id).length,
    reports.coverage.keys.size⟩

/-- All calls, by catalog and then by target. -/
def calls (o : TargetOptions) (reports : Reports) (cs : List (Catalog × String)) : List Call :=
  cs.flatMap fun c => (Emitting.directories o).map (Call.begin o reports c)

/-! ### Steps -/

open Emitting (Gives)

/-- The word that a piece comes with, if any, may be chosen: those of placeholders differ within the
call, those of cache keys within the whole run. -/
def Piece.Fresh (built : List (Piece Word)) (cacheKeys : CacheKeys) : Piece Word → Prop
  | .text _ => True
  | .code _ w => w ∉ (insertionOf built).used
  | .key w => w ∉ cacheKeys

/-- One step of a call: it adds a piece, writes the module, or makes a note of it. -/
inductive Moves (reports : Reports) : Emission → Call → Emission → Call → Prop
  | build {e : Emission} {c : Call} {built : List (Piece Word)} {left : List (Piece Unit)}
      (p : Piece Word) (supply : Supply) (hstage : c.stage = .building built (p.blank :: left))
      (hfresh : p.Fresh built e.modules.cacheKeys) :
      Moves reports e c
        { e with supply, modules := { e.modules with
          cacheKeys := p.key?.toList ++ e.modules.cacheKeys } }
        { c with stage := .building (built ++ [p]) left }
  | write {e e' : Emission} {c : Call} {built : List (Piece Word)} (hkind : c.dir.kind = .modules)
      (hstage : c.stage = .building built [])
      (hwrite : Gives (Emitting.write c.dir (e.options.moduleName c.catalog.id) c.text) e () e') :
      Moves reports e c e' { c with stage := .written built }
  | note {e e' : Emission} {c : Call} {built : List (Piece Word)} (hkind : c.dir.kind = .modules)
      (hstage : c.stage = .written built)
      (hnote : Gives (Emitting.noteModule c.catalog c.source) e () e') :
      Moves reports e c e' { c with stage := .returned built [moduleFile e.options reports c.catalog] }
  | declare {e e' : Emission} {c : Call} (hkind : c.dir.kind = .declarations)
      (hstage : c.stage = .building [] [])
      (hnote : Gives (Emitting.compileDeclarations c.source) e () e') :
      Moves reports e c e' { c with stage := .returned [] [] }

/-- One of the calls takes a step. -/
inductive Step (reports : Reports) : Emission × List Call → Emission × List Call → Prop
  | move {e e' : Emission} {c c' : Call} (before after : List Call) (h : Moves reports e c e' c') :
      Step reports (e, before ++ c :: after) (e', before ++ c' :: after)

/-- Any steps in sequence. -/
abbrev Reaches (reports : Reports) : Emission × List Call → Emission × List Call → Prop :=
  Relation.ReflTransGen (Step reports)

/-! ### What calls have done -/

namespace Call

/-- The catalog, once the target of a kind has noted it. -/
def noted (kind : OutputKind) (c : Call) : List (Catalog × String) :=
  if c.stage.isOver then if c.dir.kind = kind then [(c.catalog, c.source)] else [] else []

/-- The words of the cache keys that were chosen. -/
def keys (c : Call) : List Word :=
  c.stage.built.filterMap Piece.key?

/-- The module, once it was written. -/
def wrote (o : TargetOptions) (c : Call) : List (String × String) :=
  if c.stage.hasWritten then
    if c.dir.kind = .modules then [(o.moduleName c.catalog.id, c.text)] else []
  else []

/-- What a call is about, which stays. -/
def about (c : Call) : (Catalog × String) × OutputDirectory :=
  ((c.catalog, c.source), c.dir)

/-- The call puts its own pieces together, with different words for different placeholders, and gives
its file back. -/
structure Sound (o : TargetOptions) (reports : Reports) (c : Call) : Prop where
  pieces : c.stage.built.map Piece.blank ++ c.stage.left =
    Call.pieces o reports (c.catalog, c.source) c.dir.kind
  nodup : (insertionOf c.stage.built).used.Nodup
  files : c.stage.isOver = true →
    c.stage.files = if c.dir.kind = .modules then [moduleFile o reports c.catalog] else []
  written : c.stage.hasWritten = true → c.stage.isOver = true ∨ c.dir.kind = .modules

/-- If the module has been written, it can be written. -/
def Writable (e : Emission) (c : Call) : Prop :=
  c.stage.hasWritten = true → c.dir.kind = .modules →
    c.dir.CanWrite e.disk (e.options.moduleName c.catalog.id)

end Call

/-- What is known once the calls have come from `cs` to `cs'`. -/
structure Progress (reports : Reports) (e : Emission) (cs : List Call) (e' : Emission)
    (cs' : List Call) : Prop where
  about : cs'.map Call.about = cs.map Call.about
  options : e'.options = e.options
  modules : e'.modules.reports = e.modules.reports
  declarations : e'.declarations.reports = e.declarations.reports
  current : e'.disk.current = e.disk.current
  directory_iff : ∀ q, e.disk.standing q = .directory ↔ e'.disk.standing q = .directory
  noted : ∃ new, (cs'.flatMap (Call.noted .modules)).Perm (new ++ cs.flatMap (Call.noted .modules)) ∧
    e'.modules.sources = e.modules.sources ++ new.map Prod.snd ∧
    e'.modules.locales = e.modules.locales ++ new.map fun c => .ofCatalog e.options c.1
  declared : ∃ new,
    (cs'.flatMap (Call.noted .declarations)).Perm (new ++ cs.flatMap (Call.noted .declarations)) ∧
    e'.declarations.sources = e.declarations.sources ++ new.map Prod.snd
  keys : ∃ new, (cs'.flatMap Call.keys).Perm (new ++ cs.flatMap Call.keys) ∧
    e'.modules.cacheKeys = new ++ e.modules.cacheKeys ∧
    (e.modules.cacheKeys.Nodup → e'.modules.cacheKeys.Nodup)
  sound : (∀ c ∈ cs, c.Sound e.options reports) → ∀ c ∈ cs', c.Sound e.options reports
  writable : (∀ c ∈ cs, c.Writable e) → ∀ c ∈ cs', c.Writable e'
  wrote : ∀ place, (∀ c ∈ cs, c.dir.kind = .modules → c.dir.At e.disk place) →
    ∃ new, (cs'.flatMap (Call.wrote e.options)).Perm (new ++ cs.flatMap (Call.wrote e.options)) ∧
      Wrote place new e.disk e'.disk

section Progress

variable {reports : Reports} {e e' e'' : Emission} {cs cs' cs'' : List Call}

lemma progress_refl (e : Emission) (cs : List Call) : Progress reports e cs e cs where
  about := rfl
  options := rfl
  modules := rfl
  declarations := rfl
  current := rfl
  directory_iff := fun _ => Iff.rfl
  noted := ⟨[], .rfl, by simp, by simp⟩
  declared := ⟨[], .rfl, by simp⟩
  keys := ⟨[], .rfl, rfl, id⟩
  sound := id
  writable := id
  wrote := fun place _ => ⟨[], .rfl, wrote_nil place _⟩

lemma perm_append_trans {α : Type} {xs ys zs new new' : List α} (h : ys.Perm (new ++ xs))
    (h' : zs.Perm (new' ++ ys)) : zs.Perm ((new ++ new') ++ xs) := by
  refine h'.trans ((h.append_left new').trans ?_)
  rw [← List.append_assoc]
  exact List.perm_append_comm.append_right xs

lemma Progress.trans (h : Progress reports e cs e' cs') (h' : Progress reports e' cs' e'' cs'') :
    Progress reports e cs e'' cs'' where
  about := h'.about.trans h.about
  options := h'.options.trans h.options
  modules := h'.modules.trans h.modules
  declarations := h'.declarations.trans h.declarations
  current := h'.current.trans h.current
  directory_iff := fun q => (h.directory_iff q).trans (h'.directory_iff q)
  noted := by
    obtain ⟨new, hperm, hsources, hlocales⟩ := h.noted
    obtain ⟨new', hperm', hsources', hlocales'⟩ := h'.noted
    refine ⟨new ++ new', perm_append_trans hperm hperm', ?_, ?_⟩
    · rw [hsources', hsources, List.map_append, List.append_assoc]
    · rw [hlocales', hlocales, h.options, List.map_append, List.append_assoc]
  declared := by
    obtain ⟨new, hperm, hsources⟩ := h.declared
    obtain ⟨new', hperm', hsources'⟩ := h'.declared
    refine ⟨new ++ new', perm_append_trans hperm hperm', ?_⟩
    rw [hsources', hsources, List.map_append, List.append_assoc]
  keys := by
    obtain ⟨new, hperm, hkeys, hnodup⟩ := h.keys
    obtain ⟨new', hperm', hkeys', hnodup'⟩ := h'.keys
    refine ⟨new' ++ new, ?_, ?_, fun hkeys => hnodup' (hnodup hkeys)⟩
    · exact (perm_append_trans hperm hperm').trans (List.perm_append_comm.append_right _)
    · rw [hkeys', hkeys, List.append_assoc]
  sound := by
    intro hsound
    have hlater := h'.sound
    rw [h.options] at hlater
    exact hlater (h.sound hsound)
  writable := fun hwritable => h'.writable (h.writable hwritable)
  wrote := by
    intro place hat
    obtain ⟨new, hperm, hwrote⟩ := h.wrote place hat
    have hat' : ∀ c ∈ cs', c.dir.kind = .modules → c.dir.At e'.disk place := by
      intro c hc hkind
      obtain ⟨a, ha, habout⟩ := List.mem_map.1 (h.about ▸ List.mem_map_of_mem (f := Call.about) hc)
      have hdir : a.dir = c.dir := congrArg Prod.snd habout
      rw [← hdir] at hkind ⊢
      exact (At.congr h.current h.directory_iff).1 (hat a ha hkind)
    obtain ⟨new', hperm', hwrote'⟩ := h'.wrote place hat'
    rw [h.options] at hperm'
    exact ⟨new ++ new', perm_append_trans hperm hperm', hwrote.trans hwrote'⟩

lemma flatMap_frame {α : Type} {f : Call → List α} {c c' : Call} {new : List α}
    (h : ([c'].flatMap f).Perm (new ++ [c].flatMap f)) (before after : List Call) :
    ((before ++ c' :: after).flatMap f).Perm (new ++ (before ++ c :: after).flatMap f) := by
  simp only [List.flatMap_append, List.flatMap_cons, List.flatMap_nil, List.append_nil] at h ⊢
  refine ((h.append_right _).append_left _).trans ?_
  rw [List.append_assoc]
  exact List.perm_append_comm_assoc ..

/-- Calls that take no step stay as they are. -/
lemma Progress.frame {c c' : Call} (h : Progress reports e [c] e' [c']) (before after : List Call) :
    Progress reports e (before ++ c :: after) e' (before ++ c' :: after) where
  about := by
    have habout : c'.about = c.about := by simpa using h.about
    rw [List.map_append, List.map_append, List.map_cons, List.map_cons, habout]
  options := h.options
  modules := h.modules
  declarations := h.declarations
  current := h.current
  directory_iff := h.directory_iff
  noted := by
    obtain ⟨new, hperm, hrest⟩ := h.noted
    exact ⟨new, flatMap_frame hperm before after, hrest⟩
  declared := by
    obtain ⟨new, hperm, hrest⟩ := h.declared
    exact ⟨new, flatMap_frame hperm before after, hrest⟩
  keys := by
    obtain ⟨new, hperm, hrest⟩ := h.keys
    exact ⟨new, flatMap_frame hperm before after, hrest⟩
  sound := by
    intro hsound a ha
    have hc := h.sound (by simpa using hsound c (by simp))
    rcases List.mem_append.1 ha with ha | ha
    · exact hsound a (List.mem_append_left _ ha)
    · rcases List.mem_cons.1 ha with rfl | ha
      · exact hc _ (List.mem_singleton.2 rfl)
      · exact hsound a (List.mem_append_right _ (List.mem_cons_of_mem _ ha))
  writable := by
    intro hwritable a ha
    have hsame : ∀ a : Call, a.Writable e → a.Writable e' := by
      intro a hbefore hwritten hkind
      rw [h.options]
      exact (canWrite_congr h.current h.directory_iff).1 (hbefore hwritten hkind)
    rcases List.mem_append.1 ha with ha | ha
    · exact hsame a (hwritable a (List.mem_append_left _ ha))
    · rcases List.mem_cons.1 ha with rfl | ha
      · exact h.writable (by simpa using hwritable c (by simp)) _ (List.mem_singleton.2 rfl)
      · exact hsame a (hwritable a (List.mem_append_right _ (List.mem_cons_of_mem _ ha)))
  wrote := by
    intro place hat
    obtain ⟨new, hperm, hrest⟩ := h.wrote place (by simpa using hat c (by simp))
    exact ⟨new, flatMap_frame hperm before after, hrest⟩

end Progress

/-! ### Steps of one call -/

section Moves

variable {reports : Reports} {e : Emission} {catalog : Catalog} {source : String}
  {dir : OutputDirectory} {built : List (Piece Word)}

lemma insertionOf_concat (ps : List (Piece Word)) (p : Piece Word) :
    insertionOf (ps ++ [p]) = ⟨(insertionOf ps).codes ++ p.insertion?.toList⟩ := by
  cases p <;> simp [insertionOf, Piece.insertion?]

lemma used_insertionOf_concat (ps : List (Piece Word)) (p : Piece Word) :
    (insertionOf (ps ++ [p])).used = (insertionOf ps).used ++ p.insertion?.toList.map Prod.fst := by
  rw [insertionOf_concat]
  exact List.map_append ..

lemma keys_concat (ps : List (Piece Word)) (p : Piece Word) :
    (ps ++ [p]).filterMap Piece.key? = ps.filterMap Piece.key? ++ p.key?.toList := by
  cases p <;> simp [Piece.key?]

/-- A piece is added. -/
lemma progress_build {left : List (Piece Unit)} {p : Piece Word} (supply : Supply)
    (hfresh : p.Fresh built e.modules.cacheKeys) :
    Progress reports e [⟨catalog, source, dir, .building built (p.blank :: left)⟩]
      { e with supply, modules := { e.modules with
        cacheKeys := p.key?.toList ++ e.modules.cacheKeys } }
      [⟨catalog, source, dir, .building (built ++ [p]) left⟩] where
  about := rfl
  options := rfl
  modules := rfl
  declarations := rfl
  current := rfl
  directory_iff := fun _ => Iff.rfl
  noted := ⟨[], .rfl, by simp, by simp⟩
  declared := ⟨[], .rfl, by simp⟩
  keys := by
    refine ⟨p.key?.toList, ?_, rfl, fun hnodup => ?_⟩
    · simp only [List.flatMap_cons, List.flatMap_nil, List.append_nil, Call.keys, Stage.built,
        keys_concat]
      exact List.perm_append_comm
    · cases p with
      | key w => exact List.nodup_cons.2 ⟨hfresh, hnodup⟩
      | text | code => exact hnodup
  sound := by
    simp only [List.forall_mem_singleton]
    intro hsound
    refine ⟨?_, ?_, by simp [Stage.isOver], by simp [Stage.hasWritten]⟩
    · rw [← hsound.pieces]
      simp [Stage.built, Stage.left]
    · show (insertionOf (built ++ [p])).used.Nodup
      have hnodup : (insertionOf built).used.Nodup := hsound.nodup
      rw [used_insertionOf_concat]
      cases p with
      | code c w => exact List.nodup_append_comm.1 (List.nodup_cons.2 ⟨hfresh, hnodup⟩)
      | text | key => simpa [Piece.insertion?] using hnodup
  writable := by simp [Call.Writable, Stage.hasWritten]
  wrote := fun place _ => ⟨[], .rfl, wrote_nil place _⟩

/-- The module is written. -/
lemma progress_write {d : Disk} (hkind : dir.kind = .modules)
    (hwrite : dir.write e.disk (e.options.moduleName catalog.id)
      (Call.text ⟨catalog, source, dir, .building built []⟩) = (.ok (), d)) :
    Progress reports e [⟨catalog, source, dir, .building built []⟩] { e with disk := d }
      [⟨catalog, source, dir, .written built⟩] := by
  obtain ⟨place, q, hat, hq, hputs⟩ := puts_of_write (e.options.isSegment_moduleName _) hwrite
  exact {
    about := rfl
    options := rfl
    modules := rfl
    declarations := rfl
    current := hputs.current
    directory_iff := hputs.directory_iff (by simp)
    noted := ⟨[], .rfl, by simp, by simp⟩
    declared := ⟨[], .rfl, by simp⟩
    keys := ⟨[], .rfl, rfl, id⟩
    sound := by
      simp only [List.forall_mem_singleton]
      intro hsound
      refine ⟨?_, hsound.nodup, by simp [Stage.isOver], fun _ => Or.inr hkind⟩
      rw [← hsound.pieces]
      rfl
    writable := by
      simp only [List.forall_mem_singleton]
      intro _ _ _
      exact (canWrite_congr hputs.current (hputs.directory_iff (by simp))).1 (canWrite_of_write hwrite)
    wrote := by
      simp only [List.forall_mem_singleton]
      intro place' hat'
      cases hat.unique (hat' hkind)
      refine ⟨[(e.options.moduleName catalog.id, Call.text ⟨catalog, source, dir, .written built⟩)], ?_,
        wrote_of_puts hq hputs⟩
      simp [Call.wrote, Stage.hasWritten, hkind] }

/-- The module is noted. -/
lemma progress_note (hkind : dir.kind = .modules) :
    Progress reports e [⟨catalog, source, dir, .written built⟩]
      { e with modules := { e.modules with
        sources := e.modules.sources ++ [source]
        locales := e.modules.locales ++ [.ofCatalog e.options catalog] } }
      [⟨catalog, source, dir, .returned built [moduleFile e.options reports catalog]⟩] where
  about := rfl
  options := rfl
  modules := rfl
  declarations := rfl
  current := rfl
  directory_iff := fun _ => Iff.rfl
  noted := ⟨[(catalog, source)], by simp [Call.noted, Stage.isOver, hkind], rfl, rfl⟩
  declared := ⟨[], by simp [Call.noted, Stage.isOver, hkind], by simp⟩
  keys := ⟨[], .rfl, rfl, id⟩
  sound := by
    simp only [List.forall_mem_singleton]
    intro hsound
    refine ⟨?_, hsound.nodup, fun _ => by simp [Stage.files, hkind], fun _ => Or.inl rfl⟩
    rw [← hsound.pieces]
    rfl
  writable := by
    simp only [List.forall_mem_singleton]
    intro hwritable _
    exact hwritable rfl
  wrote := fun place _ => ⟨[], .rfl, wrote_nil place _⟩

/-- A catalog is noted for the declaration file. -/
lemma progress_declare (hkind : dir.kind = .declarations) :
    Progress reports e [⟨catalog, source, dir, .building [] []⟩] (Emitting.declared e source)
      [⟨catalog, source, dir, .returned [] []⟩] where
  about := rfl
  options := rfl
  modules := rfl
  declarations := rfl
  current := rfl
  directory_iff := fun _ => Iff.rfl
  noted := ⟨[], by simp [Call.noted, Stage.isOver, hkind], (List.append_nil _).symm,
    (List.append_nil _).symm⟩
  declared := ⟨[(catalog, source)], by simp [Call.noted, Stage.isOver, hkind], rfl⟩
  keys := ⟨[], .rfl, rfl, id⟩
  sound := by
    simp only [List.forall_mem_singleton]
    intro hsound
    refine ⟨?_, hsound.nodup, fun _ => by simp [Stage.files, hkind], fun _ => Or.inl rfl⟩
    rw [← hsound.pieces]
    rfl
  writable := by simp [Call.Writable, hkind]
  wrote := by
    intro place _
    refine ⟨[], ?_, wrote_nil place _⟩
    simp [Call.wrote, hkind]

end Moves

/-- **One step of a call.** -/
theorem Moves.progress {reports : Reports} {e e' : Emission} {c c' : Call}
    (h : Moves reports e c e' c') : Progress reports e [c] e' [c'] := by
  obtain ⟨catalog, source, dir, stage⟩ := c
  cases h with
  | build p supply hstage hfresh =>
    obtain rfl : stage = _ := hstage
    exact progress_build supply hfresh
  | write hkind hstage hwrite =>
    obtain rfl : stage = _ := hstage
    obtain ⟨d, hd, rfl⟩ := Emitting.gives_onDisk_iff.1 hwrite
    exact progress_write hkind hd
  | note hkind hstage hnote =>
    obtain rfl : stage = _ := hstage
    cases Emitting.gives_modify_iff.1 hnote
    exact progress_note hkind
  | declare hkind hstage hnote =>
    obtain rfl : stage = _ := hstage
    cases Emitting.gives_modify_iff.1 hnote
    exact progress_declare hkind

/-- **Any steps of the calls**, in whatever order. -/
theorem Reaches.progress {reports : Reports} {s s' : Emission × List Call}
    (h : Reaches reports s s') : Progress reports s.1 s.2 s'.1 s'.2 := by
  induction h with
  | refl => exact progress_refl ..
  | tail _ hstep ih =>
    cases hstep with
    | move before after hmoves => exact ih.trans (hmoves.progress.frame before after)

end Polyglot.Generate
