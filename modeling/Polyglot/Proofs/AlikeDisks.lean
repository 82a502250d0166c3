import Polyglot.Proofs.DiskChanges

/-!
# Disks that differ in what some files hold

Two disks are alike if they have the same directories and the same files, and what the files hold is
related. What is done to the one can then be done to the other, and leaves them alike.

* `Disk.Alike`: the relation;
* `OutputDirectory.CanWrite`: whether a file can be written, which the directories decide;
* `exists_write_alike`, `exists_cleanUp_alike`: writing a file, and cleaning up.
-/

namespace Polyglot

/-- Both are nothing, directories, or files with related contents. -/
def Standing.Alike (R : Contents → Contents → Prop) : Standing → Standing → Prop
  | .nothing, .nothing => True
  | .directory, .directory => True
  | .file x, .file y => R x y
  | _, _ => False

lemma Standing.alike_refl {R : Contents → Contents → Prop} (h : ∀ x, R x x) (s : Standing) :
    s.Alike R s := by
  cases s with
  | nothing | directory => trivial
  | file x => exact h x

lemma Standing.alike_of {R : Contents → Contents → Prop} {s s' : Standing}
    (hdirectory : s = .directory ↔ s' = .directory) (hleft : ∀ x, s = .file x → ∃ y, s' = .file y ∧ R x y)
    (hright : ∀ y, s' = .file y → ∃ x, s = .file x) : s.Alike R s' := by
  cases s with
  | directory => rw [hdirectory.1 rfl]; trivial
  | file x =>
    obtain ⟨y, rfl, hR⟩ := hleft x rfl
    exact hR
  | nothing =>
    cases s' with
    | nothing => trivial
    | directory => cases hdirectory.2 rfl
    | file y =>
      obtain ⟨x, hx⟩ := hright y rfl
      cases hx

namespace Disk

/-- At each place the disks have the same, but for what is in the files. -/
structure Alike (R : Trail → Contents → Contents → Prop) (d d' : Disk) : Prop where
  current : d'.current = d.current
  standing : ∀ q, (d.standing q).Alike (R q) (d'.standing q)

section Alike

variable {R : Trail → Contents → Contents → Prop} {d d' : Disk}

lemma Alike.directory_iff (h : Alike R d d') (q : Trail) :
    d.standing q = .directory ↔ d'.standing q = .directory := by
  have hq := h.standing q
  cases hd : d.standing q <;> cases hd' : d'.standing q <;> simp_all [Standing.Alike]

lemma Alike.file_left (h : Alike R d d') {q : Trail} {x : Contents}
    (hfile : d.standing q = .file x) : ∃ y, d'.standing q = .file y ∧ R q x y := by
  have hq := h.standing q
  rw [hfile] at hq
  cases hd' : d'.standing q with
  | file y =>
    rw [hd'] at hq
    exact ⟨y, rfl, hq⟩
  | nothing | directory => rw [hd'] at hq; exact hq.elim

lemma Alike.file_right (h : Alike R d d') {q : Trail} {y : Contents}
    (hfile : d'.standing q = .file y) : ∃ x, d.standing q = .file x ∧ R q x y := by
  have hq := h.standing q
  rw [hfile] at hq
  cases hd : d.standing q with
  | file x =>
    rw [hd] at hq
    exact ⟨x, rfl, hq⟩
  | nothing | directory => rw [hd] at hq; exact hq.elim

/-- The directories decide where a path leads. -/
lemma resolve_congr (hcurrent : d'.current = d.current)
    (h : ∀ q, d.standing q = .directory ↔ d'.standing q = .directory) {p : Path}
    {place : Trail} : d.resolve p = .ok place ↔ d'.resolve p = .ok place := by
  rw [resolve_eq_ok_iff, resolve_eq_ok_iff, leads_congr hcurrent.symm h]

lemma Alike.resolve (h : Alike R d d') {p : Path} {place : Trail} :
    d.resolve p = .ok place ↔ d'.resolve p = .ok place :=
  resolve_congr h.current h.directory_iff

/-- Where only equal contents are related, the disks have the same. -/
lemma Alike.standing_eq (h : Alike R d d') {q : Trail} (hR : ∀ x y, R q x y → x = y) :
    d'.standing q = d.standing q := by
  cases hd : d.standing q with
  | directory => exact (h.directory_iff q).1 hd
  | file x =>
    obtain ⟨y, hy, hxy⟩ := h.file_left hd
    rw [hy, hR x y hxy]
  | nothing =>
    cases hd' : d'.standing q with
    | nothing => rfl
    | directory => cases hd.symm.trans ((h.directory_iff q).2 hd')
    | file y =>
      obtain ⟨x, hx, -⟩ := h.file_right hd'
      cases hd.symm.trans hx

lemma Alike.at (h : Alike R d d') {o : OutputDirectory} {place : Trail} :
    o.At d place ↔ o.At d' place :=
  OutputDirectory.At.congr h.current h.directory_iff

/-- The same is put at a place of both. -/
lemma Alike.puts (h : Alike R d d') {place : Trail} {what : Standing} {d₁ d₁' : Disk}
    (hputs : Puts d place what d₁) (hputs' : Puts d' place what d₁')
    (hwhat : what.Alike (R place) what) : Alike R d₁ d₁' where
  current := by rw [hputs.current, hputs'.current, h.current]
  standing := by
    intro q
    by_cases hq : q = place
    · subst hq
      rw [hputs.standing_self, hputs'.standing_self]
      exact hwhat
    · rw [hputs.standing_of_ne hq, hputs'.standing_of_ne hq]
      exact h.standing q

end Alike

end Disk

namespace OutputDirectory

open Disk

variable {R : Trail → Contents → Contents → Prop} {o : OutputDirectory} {d d' d₁ : Disk}

/-- A file is written where its path leads. -/
lemma puts_resolve_of_write {name content : String} (h : o.write d name content = (.ok (), d₁)) :
    ∃ place, d.resolve (o.filePath name) = .ok place ∧ d.standing place ≠ .directory ∧
      Puts d place (.file (.text content)) d₁ := by
  obtain ⟨place, hresolve, hold, rfl⟩ := writeText_iff.1 (write_eq_ok_iff.1 h)
  exact ⟨place, hresolve, hold, puts_of_resolve hresolve hold _⟩

/-- The disk lets a file be written. -/
def CanWrite (o : OutputDirectory) (d : Disk) (name : String) : Prop :=
  ∃ place, d.resolve (o.filePath name) = .ok place ∧ d.standing place ≠ .directory

lemma CanWrite.exists_write {name : String} (h : o.CanWrite d name) (content : String) :
    ∃ d', o.write d name content = (.ok (), d') := by
  obtain ⟨place, hresolve, hold⟩ := h
  exact ⟨_, write_eq_ok_iff.2 (writeText_iff.2 ⟨place, hresolve, hold, rfl⟩)⟩

lemma canWrite_of_write {name content : String} (h : o.write d name content = (.ok (), d₁)) :
    o.CanWrite d name := by
  obtain ⟨place, hresolve, hold, -⟩ := puts_resolve_of_write h
  exact ⟨place, hresolve, hold⟩

/-- The directories decide which files can be written. -/
lemma canWrite_congr {name : String} (hcurrent : d'.current = d.current)
    (h : ∀ q, d.standing q = .directory ↔ d'.standing q = .directory) :
    o.CanWrite d name ↔ o.CanWrite d' name := by
  unfold CanWrite
  simp only [resolve_congr hcurrent h, Ne, h]

/-- **What is written to one of two disks that are alike can be written to the other.** -/
theorem exists_write_alike (h : Alike R d d') {name content : String}
    (hwrite : o.write d name content = (.ok (), d₁))
    (hsame : ∀ place, R place (.text content) (.text content)) :
    ∃ d₁', o.write d' name content = (.ok (), d₁') ∧ Alike R d₁ d₁' := by
  obtain ⟨place, hresolve, -, hputs⟩ := puts_resolve_of_write hwrite
  obtain ⟨d₁', hwrite'⟩ := ((canWrite_congr h.current h.directory_iff).1
    (canWrite_of_write hwrite)).exists_write content
  obtain ⟨place', hresolve', -, hputs'⟩ := puts_resolve_of_write hwrite'
  cases (h.resolve.1 hresolve).symm.trans hresolve'
  exact ⟨d₁', hwrite', h.puts hputs hputs' (hsame place)⟩

/-- Files that were removed had paths that can be followed. -/
lemma nameable_of_removeAll {names : List FileName} (h : o.removeAll d names = (.ok (), d₁)) :
    ∀ name ∈ names, (o.path.join name.toPath).Nameable := by
  induction names generalizing d with
  | nil => simp
  | cons name names ih =>
    unfold removeAll at h
    cases hremove : d.removeFile (o.path.join name.toPath) with
    | error e => simp only [hremove] at h; cases h
    | ok d₂ =>
      simp only [hremove] at h
      obtain ⟨_, _, hresolve, -, -⟩ := removeFile_iff.1 hremove
      exact List.forall_mem_cons.2 ⟨(resolve_eq_ok_iff.1 hresolve).1, ih h⟩

/-- A directory has been cleaned up, or nothing has happened. -/
lemma at_or_eq_of_cleanUp {keep removed : List String} (h : o.cleanUp d keep = (.ok removed, d₁)) :
    (∃ place, o.At d place) ∨ d₁ = d := by
  obtain ⟨inside, hlisting, -, hremove⟩ := cleanUp_eq_ok_iff.1 h
  obtain ⟨place, hresolve, ⟨hdir, -⟩ | ⟨-, rfl⟩⟩ := listing_eq_ok_iff.1 hlisting
  · exact Or.inl ⟨place, (resolve_eq_ok_iff.1 hresolve).2, hdir⟩
  · cases hremove
    exact Or.inr rfl

/-- **What is cleaned up on one of two disks that are alike can be cleaned up on the other.** -/
theorem exists_cleanUp_alike (h : Alike R d d') {keep removed : List String}
    (hclean : o.cleanUp d keep = (.ok removed, d₁)) :
    ∃ removed' d₁', o.cleanUp d' keep = (.ok removed', d₁') ∧ Alike R d₁ d₁' := by
  obtain ⟨inside, hlisting, -, hremove⟩ := cleanUp_eq_ok_iff.1 hclean
  obtain ⟨place, hresolve, ⟨hdir, rfl⟩ | ⟨⟨x, hx⟩, rfl⟩⟩ := listing_eq_ok_iff.1 hlisting
  · obtain ⟨hpath, hleads⟩ := resolve_eq_ok_iff.1 hresolve
    have hat : o.At d place := ⟨hleads, hdir⟩
    have hat' := h.at.1 hat
    have hroom : ∀ (name : FileName) contents, o.kind.owns name.shown = true → name.shown ∉ keep →
        d'.standing (place ++ [name]) = .file contents → (o.path.join name.toPath).Nameable := by
      intro name contents howns hkeep hfile
      obtain ⟨x, hx, -⟩ := h.file_right hfile
      exact nameable_of_removeAll hremove name (mem_stale_iff.2
        ⟨howns, hkeep, x, mem_children_iff.2 ⟨by simp, hx⟩⟩)
    obtain ⟨removed', d₁', hclean'⟩ := exists_cleanUp hat' hpath keep hroom
    obtain ⟨hcurrent, hdirectory, hfile⟩ := standing_cleanUp hat hclean
    obtain ⟨hcurrent', hdirectory', hfile'⟩ := standing_cleanUp hat' hclean'
    refine ⟨removed', d₁', hclean', by rw [hcurrent, hcurrent', h.current], fun q => ?_⟩
    refine Standing.alike_of ?_ ?_ ?_
    · rw [hdirectory, hdirectory', h.directory_iff]
    · intro x hx
      obtain ⟨hbefore, hkept⟩ := (hfile q x).1 hx
      obtain ⟨y, hy, hR⟩ := h.file_left hbefore
      exact ⟨y, (hfile' q y).2 ⟨hy, hkept⟩, hR⟩
    · intro y hy
      obtain ⟨hbefore, hkept⟩ := (hfile' q y).1 hy
      obtain ⟨x, hx, -⟩ := h.file_right hbefore
      exact ⟨x, (hfile q x).2 ⟨hx, hkept⟩⟩
  · -- A file has nothing inside, and nothing is removed.
    cases hremove
    obtain ⟨y, hy, -⟩ := h.file_left hx
    refine ⟨[], d', cleanUp_eq_ok_iff.2 ⟨[], ?_, rfl, rfl⟩, h⟩
    exact listing_eq_ok_iff.2 ⟨place, h.resolve.1 hresolve, Or.inr ⟨⟨y, hy⟩, rfl⟩⟩

end OutputDirectory

end Polyglot
