import Polyglot.Proofs.Finishing
import Polyglot.Proofs.Interleaving

/-!
# Runs in which all calls have ended

However the steps of the calls came about, at the end each target has noted each catalog once, the
files that were given back are the same, and each file that was written is the module of a catalog.

* `Interleaves`: all calls have taken all their steps;
* `IsModule`: a text is the module of a catalog, up to the choice of cache keys;
* `Interleaves.complete`, `Interleaves.files`, `Interleaves.wrote`: what is known then.
-/

namespace Polyglot.Generate

open Disk OutputDirectory
open Emitting (Gives directories start finish)

/-! ### Calls that are over -/

/-- All calls have taken their steps, in some order, and each has placeholders that are not found in
the text of its module. -/
structure Interleaves (reports : Reports) (cs : List (Catalog × String)) (e e' : Emission)
    (done : List Call) : Prop where
  reaches : Reaches reports (e, calls e.options reports cs) (e', done)
  ended : ∀ c ∈ done, c.stage.isOver = true
  apart : ∀ c ∈ done, c.Apart

/-- The text is the module of a catalog, for some choice of cache keys that are all different. -/
def IsModule (o : TargetOptions) (reports : Reports) (c : Catalog × String) (text : String) : Prop :=
  ∃ built : List (Piece Word), built.map Piece.blank = modulePieces o reports c.1 c.2 ∧
    (built.filterMap Piece.key?).Nodup ∧ text = textOf Piece.finished built

section Initial

variable (o : TargetOptions) (reports : Reports) (cs : List (Catalog × String))

lemma about_calls : (calls o reports cs).map Call.about =
    cs.flatMap fun c => (directories o).map fun dir => (c, dir) := by
  unfold calls
  rw [List.map_flatMap]
  simp only [List.map_map]
  rfl

/-- A call that has not taken a step has done nothing. -/
lemma mem_calls_iff {c : Call} :
    c ∈ calls o reports cs ↔ ∃ a ∈ cs, ∃ dir ∈ directories o, c = Call.begin o reports a dir := by
  simp only [calls, List.mem_flatMap, List.mem_map, eq_comm]

lemma flatMap_calls {α : Type} {f : Call → List α}
    (h : ∀ a dir, f (Call.begin o reports a dir) = []) : (calls o reports cs).flatMap f = [] := by
  rw [List.flatMap_eq_nil_iff]
  intro c hc
  obtain ⟨a, -, dir, -, rfl⟩ := (mem_calls_iff o reports cs).1 hc
  exact h a dir

lemma sound_calls : ∀ c ∈ calls o reports cs, c.Sound o reports := by
  intro c hc
  obtain ⟨a, -, dir, -, rfl⟩ := (mem_calls_iff o reports cs).1 hc
  exact ⟨rfl, List.nodup_nil, by simp [Call.begin, Stage.isOver], by simp [Call.begin, Stage.hasWritten]⟩

lemma writable_calls (e : Emission) : ∀ c ∈ calls o reports cs, c.Writable e := by
  intro c hc
  obtain ⟨a, -, dir, -, rfl⟩ := (mem_calls_iff o reports cs).1 hc
  simp [Call.begin, Call.Writable, Stage.hasWritten]

/-- Each catalog is compiled once for a target that is wanted. -/
lemma flatMap_about {kind : OutputKind} (hwanted : ∃ dir ∈ directories o, dir.kind = kind) :
    (cs.flatMap fun c => (directories o).map fun dir => (c, dir)).flatMap
      (fun a => if a.2.kind = kind then [a.1] else []) = cs := by
  have hone : ∀ c : Catalog × String, ((directories o).map fun dir => (c, dir)).flatMap
      (fun a => if a.2.kind = kind then [a.1] else []) = [c] := by
    intro c
    obtain ⟨dir, hdir, rfl⟩ := hwanted
    rcases Emitting.mem_directories_iff.1 hdir with ⟨path, hpath, rfl⟩ | ⟨path, hpath, rfl⟩
    · cases hother : o.declarationsDir <;> simp [directories, hpath, hother]
    · cases hother : o.modulesDir <;> simp [directories, hpath, hother]
  rw [List.flatMap_assoc]
  simp only [hone]
  exact List.flatMap_singleton' cs

end Initial

section Over

variable {reports : Reports} {cs : List (Catalog × String)} {e e' : Emission} {done : List Call}

lemma Interleaves.progress (h : Interleaves reports cs e e' done) :
    Progress reports e (calls e.options reports cs) e' done :=
  h.reaches.progress

lemma Interleaves.sound (h : Interleaves reports cs e e' done) :
    ∀ c ∈ done, c.Sound e.options reports :=
  h.progress.sound (sound_calls _ _ _)

/-- What calls that are over have done is told by what they are about. -/
lemma Interleaves.flatMap {α : Type} {f : Call → List α}
    {g : (Catalog × String) × OutputDirectory → List α} (h : Interleaves reports cs e e' done)
    (hfg : ∀ c ∈ done, f c = g c.about) :
    done.flatMap f =
      (cs.flatMap fun c => (directories e.options).map fun dir => (c, dir)).flatMap g := by
  rw [← about_calls e.options reports cs, ← h.progress.about, List.flatMap_map]
  exact List.flatMap_congr hfg

/-- A target that is wanted has noted each catalog once. -/
lemma Interleaves.noted (h : Interleaves reports cs e e' done) {kind : OutputKind}
    (hwanted : ∃ dir ∈ directories e.options, dir.kind = kind) :
    done.flatMap (Call.noted kind) = cs := by
  refine (h.flatMap fun c hc => ?_).trans (flatMap_about e.options cs hwanted)
  rw [Call.noted, if_pos (h.ended c hc)]
  rfl

/-- The calls give the files of their modules back. -/
lemma Interleaves.files (h : Interleaves reports cs e e' done) :
    (done.flatMap fun c => c.stage.files) =
      (cs.flatMap fun c => (directories e.options).map fun dir => (c, dir)).flatMap fun a =>
        if a.2.kind = .modules then [moduleFile e.options reports a.1.1] else [] :=
  h.flatMap fun c hc => (h.sound c hc).files (h.ended c hc)

/-- There is a call for each catalog and each wanted target. -/
lemma Progress.mem_about_iff (h : Progress reports e (calls e.options reports cs) e' done)
    {a : Catalog × String} {dir : OutputDirectory} :
    (a, dir) ∈ done.map Call.about ↔ a ∈ cs ∧ dir ∈ directories e.options := by
  rw [h.about, about_calls]
  simp

lemma Stage.left_of_isOver {s : Stage} (h : s.isOver = true) : s.left = [] := by
  cases s <;> simp_all [Stage.isOver, Stage.left]

lemma Stage.hasWritten_of_isOver {s : Stage} (h : s.isOver = true) : s.hasWritten = true := by
  cases s <;> simp_all [Stage.isOver, Stage.hasWritten]

/-- All cache keys of a run are different, since each was new when it was chosen. -/
lemma Progress.keys_calls {o : TargetOptions} (h : Progress reports e (calls o reports cs) e' done)
    (hkeys : e.modules.cacheKeys = []) :
    (done.flatMap Call.keys).Perm e'.modules.cacheKeys ∧ e'.modules.cacheKeys.Nodup := by
  obtain ⟨new, hperm, hnew, hnodup⟩ := h.keys
  rw [flatMap_calls _ _ _ fun _ _ => rfl, List.append_nil] at hperm
  have hall : e'.modules.cacheKeys.Nodup := hnodup (by rw [hkeys]; exact List.nodup_nil)
  rw [hkeys, List.append_nil] at hnew
  exact ⟨hnew ▸ hperm, hall⟩

/-- What a call writes is the module of its catalog. -/
lemma Interleaves.isModule (h : Interleaves reports cs e e' done) (hkeys : e.modules.cacheKeys = [])
    {c : Call} (hc : c ∈ done) (hkind : c.dir.kind = .modules) :
    IsModule e.options reports (c.catalog, c.source) c.text := by
  have hsound := h.sound c hc
  have hpieces := hsound.pieces
  rw [Stage.left_of_isOver (h.ended c hc), List.append_nil, hkind] at hpieces
  obtain ⟨hperm, hall⟩ := h.progress.keys_calls hkeys
  refine ⟨c.stage.built, hpieces, ?_, process_printed hsound.nodup (h.apart c hc)⟩
  exact (List.nodup_flatMap.1 (hperm.nodup_iff.2 hall)).1 c hc

/-- At the end the wanted targets have noted all catalogs. -/
lemma Interleaves.complete {o : TargetOptions} {d : Disk} {supply : Supply}
    (hbegun : Emitting.Begun reports { options := o, disk := d, supply } e)
    (h : Interleaves reports cs e e' done) : Complete o reports cs e' := by
  have hoptions : e.options = o := hbegun.options
  have hmodules : o.modulesDir ≠ none →
      ∃ new : List (Catalog × String), new.Perm cs ∧ e'.modules.sources = new.map Prod.snd ∧
        e'.modules.locales = new.map fun c => .ofCatalog o c.1 := by
    intro hwanted
    obtain ⟨path, hpath⟩ := Option.ne_none_iff_exists'.1 hwanted
    obtain ⟨new, hperm, hsources, hlocales⟩ := h.progress.noted
    rw [h.noted ⟨⟨path, .modules⟩, Emitting.mem_directories_iff.2 (Or.inl ⟨path, by rw [hoptions, hpath],
      rfl⟩), rfl⟩, flatMap_calls _ _ _ fun _ _ => rfl, List.append_nil] at hperm
    rw [hbegun.sources] at hsources
    rw [hbegun.locales, hoptions] at hlocales
    exact ⟨new, hperm.symm, hsources, hlocales⟩
  have hdeclarations : o.declarationsDir ≠ none →
      ∃ new : List (Catalog × String), new.Perm cs ∧ e'.declarations.sources = new.map Prod.snd := by
    intro hwanted
    obtain ⟨path, hpath⟩ := Option.ne_none_iff_exists'.1 hwanted
    obtain ⟨new, hperm, hsources⟩ := h.progress.declared
    rw [h.noted ⟨⟨path, .declarations⟩, Emitting.mem_directories_iff.2 (Or.inr ⟨path,
      by rw [hoptions, hpath], rfl⟩), rfl⟩, flatMap_calls _ _ _ fun _ _ => rfl, List.append_nil] at hperm
    rw [hbegun.declared] at hsources
    exact ⟨new, hperm.symm, hsources⟩
  refine ⟨h.progress.options.trans hoptions, fun hwanted => ?_, fun hwanted => ?_, fun hwanted => ?_,
    fun hwanted => ?_, fun hwanted => ?_⟩
  · rw [h.progress.modules, hbegun.modules hwanted]
  · obtain ⟨new, hperm, hsources, -⟩ := hmodules hwanted
    rw [hsources]
    exact hperm.map _
  · obtain ⟨new, hperm, -, hlocales⟩ := hmodules hwanted
    rw [hlocales]
    exact hperm.map _
  · rw [h.progress.declarations, hbegun.declarations hwanted]
  · obtain ⟨new, hperm, hsources⟩ := hdeclarations hwanted
    rw [hsources]
    exact hperm.map _

/-- The files that were written are the modules of the catalogs. -/
lemma Interleaves.wrote (h : Interleaves reports cs e e' done) (hkeys : e.modules.cacheKeys = [])
    {place : Trail}
    (hat : ∀ path, e.options.modulesDir = some path → OutputDirectory.At ⟨path, .modules⟩ e.disk place) :
    ∃ files, Wrote place files e.disk e'.disk ∧
      (∀ f ∈ files, e.options.modulesDir ≠ none ∧
        ∃ c ∈ cs, f.1 = e.options.moduleName c.1.id ∧ IsModule e.options reports c f.2) ∧
      (e.options.modulesDir ≠ none → ∀ c ∈ cs, e.options.moduleName c.1.id ∈ files.map Prod.fst) := by
  have hdir : ∀ {dir : OutputDirectory}, dir ∈ directories e.options → dir.kind = .modules →
      ∃ path, e.options.modulesDir = some path ∧ dir = ⟨path, .modules⟩ := by
    intro dir hdir hkind
    rcases Emitting.mem_directories_iff.1 hdir with hdir | ⟨path, -, rfl⟩
    · exact hdir
    · cases hkind
  have hcalls : ∀ c ∈ calls e.options reports cs, c.dir.kind = .modules → c.dir.At e.disk place := by
    intro c hc hkind
    obtain ⟨a, -, dir, hmem, rfl⟩ := (mem_calls_iff _ _ _).1 hc
    obtain ⟨path, hpath, rfl⟩ := hdir hmem hkind
    exact hat path hpath
  obtain ⟨files, hperm, hwrote⟩ := h.progress.wrote place hcalls
  rw [flatMap_calls _ _ _ fun _ _ => rfl, List.append_nil] at hperm
  have hwritten : ∀ c ∈ done, c.wrote e.options =
      if c.dir.kind = .modules then [(e.options.moduleName c.catalog.id, c.text)] else [] := by
    intro c hc
    rw [Call.wrote, if_pos (Stage.hasWritten_of_isOver (h.ended c hc))]
  refine ⟨files, hwrote, fun f hf => ?_, fun hwanted c hc => ?_⟩
  · obtain ⟨c, hc, hfc⟩ := List.mem_flatMap.1 (hperm.mem_iff.2 hf)
    rw [hwritten c hc] at hfc
    obtain ⟨hmem, hdirs⟩ := h.progress.mem_about_iff.1 (List.mem_map_of_mem (f := Call.about) hc)
    split at hfc
    · rename_i hkind
      obtain ⟨path, hpath, -⟩ := hdir hdirs hkind
      rw [List.mem_singleton.1 hfc]
      exact ⟨by rw [hpath]; simp, _, hmem, rfl, h.isModule hkeys hc hkind⟩
    · cases hfc
  · obtain ⟨path, hpath⟩ := Option.ne_none_iff_exists'.1 hwanted
    obtain ⟨call, hcall, habout⟩ := List.mem_map.1 (h.progress.mem_about_iff.2
      ⟨hc, Emitting.mem_directories_iff.2 (Or.inl ⟨path, hpath, rfl⟩)⟩)
    obtain ⟨hcatalog, hcalldir⟩ := Prod.mk.inj habout
    refine List.mem_map.2 ⟨(e.options.moduleName call.catalog.id, call.text), hperm.mem_iff.1 ?_, ?_⟩
    · refine List.mem_flatMap.2 ⟨call, hcall, ?_⟩
      rw [hwritten call hcall, hcalldir, if_pos rfl]
      exact List.mem_singleton_self _
    · rw [← hcatalog]

end Over

end Polyglot.Generate
