import Polyglot.Disk
import Polyglot.Problem
import Polyglot.Proofs.RawTexts
import Mathlib.Tactic.Lemma
import Mathlib.Data.List.Basic
import Mathlib.Data.List.Nodup

/-!
# What stands at the places of a disk

A path leads from directory to directory, so that the place it ends at depends on the directories alone.

* `Disk.standing_put`: what stands at the places after one change;
* `Disk.mem_children_iff`: what is directly inside a directory;
* `Disk.Leads`: the place that a path leads to, with `leads_join_iff` for what lies in a directory and
  `leads_congr` for two disks that have the same directories;
* `Disk.resolve_eq_ok_iff`, `Disk.look_eq_ok_iff`: when a path can be followed, and what is seen there.
-/

namespace Polyglot

/-! ### Names -/

namespace FileName

/-- A segment that goes down to a name. -/
def IsStep (s : RawText) : Prop :=
  s ≠ [] ∧ s ≠ [dot] ∧ s ≠ [dot, dot]

instance (s : RawText) : Decidable (IsStep s) :=
  inferInstanceAs (Decidable (_ ∧ _ ∧ _))

lemma isFileName_iff {bs : RawText} : isFileName bs = true ↔
    IsStep bs ∧ slash ∉ bs ∧ 0 ∉ bs ∧ bs.length ≤ nameLimit := by
  unfold isFileName IsStep
  simp [and_assoc]

section

variable (name : FileName)

lemma isStep : IsStep name.bytes := (isFileName_iff.1 name.valid).1

lemma slash_not_mem : slash ∉ name.bytes := (isFileName_iff.1 name.valid).2.1

lemma zero_not_mem : 0 ∉ name.bytes := (isFileName_iff.1 name.valid).2.2.1

lemma length_le : name.bytes.length ≤ nameLimit := (isFileName_iff.1 name.valid).2.2.2

end

lemma bytes_injective {a b : FileName} (h : a.bytes = b.bytes) : a = b := by
  obtain ⟨a, ha⟩ := a
  obtain ⟨b, hb⟩ := b
  obtain rfl : a = b := h
  rfl

instance : Std.IsLinearOrder FileName where
  le_refl a := List.le_refl a.bytes
  le_trans a b c := (Std.le_trans : a.bytes ≤ b.bytes → b.bytes ≤ c.bytes → a.bytes ≤ c.bytes)
  le_antisymm _ _ hab hba := bytes_injective (List.le_antisymm hab hba)
  le_total a b := List.le_total a.bytes b.bytes

instance : Std.LawfulOrderLT FileName where
  lt_iff a b := Std.LawfulOrderLT.lt_iff a.bytes b.bytes

lemma ofBytes?_eq_some_iff {bs : RawText} {name : FileName} :
    ofBytes? bs = some name ↔ name.bytes = bs := by
  unfold ofBytes?
  constructor
  · intro h
    split at h
    · rw [← Option.some.inj h]
    · cases h
  · rintro rfl
    rw [dif_pos name.valid]

/-- A name that is text is shown as it is. -/
lemma shown_of_bytes {n : FileName} {name : String} (h : n.bytes = .ofText name) : n.shown = name := by
  rw [shown, h, RawText.shown_ofText]

end FileName

/-- The text is one segment of a path, and goes down to a name. -/
structure IsSegment (name : String) : Prop where
  step : FileName.IsStep (.ofText name)
  noSlash : slash ∉ RawText.ofText name

/-! ### Places -/

namespace Disk

/-- The place of what has this name in the directory at another one. -/
def Holds (place : Trail) (name : RawText) (q : Trail) : Prop :=
  ∃ n : FileName, n.bytes = name ∧ q = place ++ [n]

lemma holds_concat (place : Trail) (name : FileName) : Holds place name.bytes (place ++ [name]) :=
  ⟨name, rfl, rfl⟩

lemma holds_concat_iff {place : Trail} {name : RawText} {n : FileName} :
    Holds place name (place ++ [n]) ↔ n.bytes = name := by
  constructor
  · rintro ⟨m, rfl, heq⟩
    rw [List.singleton_inj.1 (List.append_cancel_left heq)]
  · rintro rfl
    exact holds_concat place n

lemma Holds.unique {place q q' : Trail} {name : RawText} (h : Holds place name q)
    (h' : Holds place name q') : q = q' := by
  obtain ⟨n, hn, rfl⟩ := h
  obtain ⟨n', hn', rfl⟩ := h'
  rw [FileName.bytes_injective (hn.trans hn'.symm)]

/-- A place has one name. -/
lemma Holds.name_unique {place place' q : Trail} {name name' : RawText} (h : Holds place name q)
    (h' : Holds place' name' q) : name = name' := by
  obtain ⟨n, rfl, rfl⟩ := h
  obtain ⟨n', rfl, heq⟩ := h'
  rw [List.singleton_inj.1 (List.append_inj_right' heq rfl)]

lemma standing_root (d : Disk) : d.standing [] = .directory := rfl

lemma standing_eq_lookup (d : Disk) {place : Trail} (h : place ≠ []) :
    d.standing place = (d.entries.lookup place).getD .nothing := by
  unfold standing Entries.standing
  rw [if_neg h]

lemma mem_of_lookup {entries : Entries} {place : Trail} {what : Standing}
    (h : entries.lookup place = some what) : (place, what) ∈ entries := by
  induction entries with
  | nil => cases h
  | cons e entries ih =>
    obtain ⟨q, what'⟩ := e
    rw [Entries.lookup_cons_eq] at h
    split at h
    · rename_i hq
      rw [hq, Option.some.inj h]
      exact List.mem_cons_self ..
    · exact List.mem_cons_of_mem _ (ih h)

lemma lookup_of_mem {entries : Entries} (hnodup : (entries.map Prod.fst).Nodup) {place : Trail}
    {what : Standing} (h : (place, what) ∈ entries) : entries.lookup place = some what := by
  induction entries with
  | nil => cases h
  | cons e entries ih =>
    obtain ⟨q, what'⟩ := e
    obtain ⟨hq, hrest⟩ := List.nodup_cons.1 hnodup
    rw [Entries.lookup_cons_eq]
    rcases List.mem_cons.1 h with heq | hmem
    · obtain ⟨rfl, rfl⟩ := Prod.mk.inj heq
      exact if_pos rfl
    · have hkey : place ∈ entries.map Prod.fst := List.mem_map_of_mem (f := Prod.fst) hmem
      rw [if_neg fun heq : place = q => hq (heq ▸ hkey), ih hrest hmem]

/-- What is there is what the entries tell. -/
lemma mem_entries_iff {d : Disk} {place : Trail} {what : Standing} :
    (place, what) ∈ d.entries ↔ place ≠ [] ∧ what ≠ .nothing ∧ d.standing place = what := by
  constructor
  · intro h
    have hne := (d.isTree.inside _ h).1
    refine ⟨hne, d.isTree.something _ h, ?_⟩
    rw [d.standing_eq_lookup hne, lookup_of_mem d.isTree.distinct h]
    rfl
  · rintro ⟨hne, hwhat, hstanding⟩
    rw [d.standing_eq_lookup hne] at hstanding
    cases hlookup : d.entries.lookup place with
    | none =>
      rw [hlookup] at hstanding
      exact absurd hstanding.symm hwhat
    | some what' =>
      rw [hlookup] at hstanding
      rw [← show what' = what from hstanding]
      exact mem_of_lookup hlookup

/-- What stands in a place stands in a directory. -/
lemma standing_of_concat {d : Disk} {place : Trail} {name : FileName}
    (h : d.standing (place ++ [name]) ≠ .nothing) : d.standing place = .directory := by
  have hmem : (place ++ [name], d.standing (place ++ [name])) ∈ d.entries :=
    mem_entries_iff.2 ⟨by simp, h, rfl⟩
  have hinside := (d.isTree.inside _ hmem).2
  rw [List.dropLast_concat] at hinside
  exact hinside

lemma standing_dropLast {d : Disk} {place : Trail} (h : d.standing place = .directory) :
    d.standing place.dropLast = .directory := by
  rcases List.eq_nil_or_concat place with rfl | ⟨parent, name, rfl⟩
  · exact h
  · rw [List.concat_eq_append] at h ⊢
    rw [List.dropLast_concat]
    exact standing_of_concat (by rw [h]; simp)

/-- **One change at a place.** -/
theorem standing_put {d : Disk} {parent : Trail} {name : FileName}
    (hdir : d.standing parent = .directory) (hold : d.standing (parent ++ [name]) ≠ .directory)
    (what : Standing) :
    (d.put (parent ++ [name]) what).current = d.current ∧
    ∀ q, (d.put (parent ++ [name]) what).standing q =
      if q = parent ++ [name] then what else d.standing q := by
  have hne : parent ++ [name] ≠ [] := by simp
  have hfree : Free d.entries (parent ++ [name]) :=
    ⟨⟨hne, by rw [List.dropLast_concat]; exact hdir⟩, hold⟩
  unfold put
  rw [dif_pos hfree]
  exact ⟨rfl, Entries.standing_put _ hne what⟩

lemma childIn_eq_some_iff {place : Trail} {e : Trail × Standing} {name : FileName} {what : Standing} :
    childIn place e = some (name, what) ↔ e = (place ++ [name], what) := by
  obtain ⟨q, what'⟩ := e
  unfold childIn
  constructor
  · intro h
    split at h
    · rename_i hplace
      obtain ⟨n, hn, heq⟩ := Option.map_eq_some_iff.1 h
      obtain ⟨rfl, rfl⟩ := Prod.mk.inj heq
      obtain ⟨front, rfl⟩ := List.getLast?_eq_some_iff.1 hn
      rw [← hplace]
      simp
    · cases h
  · intro h
    obtain ⟨rfl, rfl⟩ := Prod.mk.inj h
    simp

/-- **What is directly inside a directory.** -/
theorem mem_children_iff {d : Disk} {place : Trail} {name : FileName} {what : Standing} :
    (name, what) ∈ d.children place ↔ what ≠ .nothing ∧ d.standing (place ++ [name]) = what := by
  unfold children
  rw [List.mem_mergeSort, List.mem_filterMap]
  simp only [childIn_eq_some_iff, exists_eq_right, mem_entries_iff]
  simp

/-- No name occurs twice in a directory. -/
lemma nodup_children (d : Disk) (place : Trail) : ((d.children place).map Prod.fst).Nodup := by
  have hperm := List.mergeSort_perm (d.entries.filterMap (childIn place)) (fun a b => a.1 ≤ b.1)
  have hname : ∀ e : Trail × Standing, (childIn place e).map Prod.fst =
      if e.1.dropLast = place then e.1.getLast? else none := by
    intro e
    unfold childIn
    split
    · rw [Option.map_map]
      exact Option.map_id' ..
    · rfl
  have hmap : (d.entries.filterMap (childIn place)).map Prod.fst =
      (d.entries.map Prod.fst).filterMap fun q => if q.dropLast = place then q.getLast? else none := by
    rw [List.map_filterMap, List.filterMap_map]
    exact List.filterMap_congr fun e _ => hname e
  unfold children
  rw [(hperm.map Prod.fst).nodup_iff, hmap]
  refine d.isTree.distinct.filterMap ?_
  intro q q' n hn hn'
  have hback : ∀ {q : Trail}, n ∈ (if q.dropLast = place then q.getLast? else none) →
      q = place ++ [n] := by
    intro q hq
    split at hq
    · rename_i hplace
      obtain ⟨front, rfl⟩ := List.getLast?_eq_some_iff.1 hq
      rw [← hplace, List.dropLast_concat]
    · cases hq
  rw [hback hn, hback hn']

/-! ### Walking -/

/-- A walk goes on from directories only. -/
lemma walk_cons_iff {d : Disk} {place q : Trail} {s : RawText} {ss : List RawText} :
    d.walk place (s :: ss) = .ok q ↔
      d.standing place = .directory ∧ ∃ next, step? place s = some next ∧ d.walk next ss = .ok q := by
  rw [walk]
  cases d.standing place with
  | nothing => simp
  | file contents => simp
  | directory => cases step? place s <;> simp

lemma walk_one_iff {d : Disk} {place q : Trail} {s : RawText} :
    d.walk place [s] = .ok q ↔ d.standing place = .directory ∧ step? place s = some q := by
  rw [walk_cons_iff]
  refine and_congr_right fun _ => ?_
  simp [walk]

lemma walk_append_iff {d : Disk} {place q : Trail} {first second : List RawText} :
    d.walk place (first ++ second) = .ok q ↔
      ∃ between, d.walk place first = .ok between ∧ d.walk between second = .ok q := by
  induction first generalizing place with
  | nil => simp [walk]
  | cons s ss ih =>
    rw [List.cons_append, walk_cons_iff]
    simp only [walk_cons_iff, ih]
    constructor
    · rintro ⟨hdir, next, hnext, between, hss, hsecond⟩
      exact ⟨between, ⟨hdir, next, hnext, hss⟩, hsecond⟩
    · rintro ⟨between, ⟨hdir, next, hnext, hss⟩, hsecond⟩
      exact ⟨hdir, next, hnext, between, hss, hsecond⟩

/-- The directories decide where a walk ends. -/
lemma walk_congr {d d' : Disk}
    (h : ∀ q, d.standing q = .directory ↔ d'.standing q = .directory) {place q : Trail}
    (segments : List RawText) : d.walk place segments = .ok q ↔ d'.walk place segments = .ok q := by
  induction segments generalizing place with
  | nil => exact Iff.rfl
  | cons s ss ih => simp only [walk_cons_iff, h, ih]

lemma step?_of_isStep {s : RawText} (hs : FileName.IsStep s) {place q : Trail} :
    step? place s = some q ↔ Holds place s q := by
  obtain ⟨hempty, hdot, hup⟩ := hs
  unfold step? Holds
  rw [if_neg (by simp [hempty, hdot]), if_neg hup, Option.map_eq_some_iff]
  simp only [FileName.ofBytes?_eq_some_iff, eq_comm (a := q)]

/-- Any other segment leads from a directory to a directory. -/
lemma standing_step?_of_not_isStep {d : Disk} {s : RawText} (hs : ¬ FileName.IsStep s) {place q : Trail}
    (hdir : d.standing place = .directory) (hnext : step? place s = some q) :
    d.standing q = .directory := by
  unfold step? at hnext
  by_cases hstay : (s = [] || s = [dot]) = true
  · rw [if_pos hstay] at hnext
    rwa [← Option.some.inj hnext]
  · have hup : s = [dot, dot] := by
      simp only [Bool.or_eq_true, decide_eq_true_eq, not_or] at hstay
      by_contra hne
      exact hs ⟨hstay.1, hstay.2, hne⟩
    rw [if_neg hstay, if_pos hup] at hnext
    rw [← Option.some.inj hnext]
    exact standing_dropLast hdir

end Disk

/-! ### Paths -/

lemma slashSegments_ne_nil (bs : RawText) : slashSegments bs ≠ [] := by
  cases bs with
  | nil => simp [slashSegments]
  | cons b bs =>
    rw [slashSegments]
    split
    · simp
    · split <;> simp

lemma slashSegments_cons {b : UInt8} {bs s : RawText} {ss : List RawText}
    (h : slashSegments bs = s :: ss) :
    slashSegments (b :: bs) = if b = slash then [] :: s :: ss else (b :: s) :: ss := by
  rw [slashSegments, h]

lemma slashSegments_append (as bs : RawText) :
    slashSegments (as ++ slash :: bs) = slashSegments as ++ slashSegments bs := by
  induction as with
  | nil =>
    obtain ⟨s, ss, hbs⟩ := List.exists_cons_of_ne_nil (slashSegments_ne_nil bs)
    rw [List.nil_append, slashSegments_cons hbs, if_pos rfl, hbs]
    rfl
  | cons a as ih =>
    obtain ⟨s, ss, has⟩ := List.exists_cons_of_ne_nil (slashSegments_ne_nil as)
    rw [has, List.cons_append] at ih
    rw [List.cons_append, slashSegments_cons ih, slashSegments_cons has]
    split <;> rfl

lemma slashSegments_of_not_mem {bs : RawText} (h : slash ∉ bs) : slashSegments bs = [bs] := by
  induction bs with
  | nil => rfl
  | cons b bs ih =>
    rw [List.mem_cons, not_or] at h
    rw [slashSegments_cons (ih h.2), if_neg (Ne.symm h.1)]

lemma Trail.ofText_eq_singleton {n : FileName} {name : String} (h : n.bytes = .ofText name) :
    Trail.ofText name = [n] := by
  unfold ofText ofBytes
  rw [← h, slashSegments_of_not_mem n.slash_not_mem, List.filterMap_cons,
    FileName.ofBytes?_eq_some_iff.2 rfl]
  rfl

/-- A segment has no slash, and all that is in it is in the whole. -/
lemma mem_slashSegments {bs s : RawText} (hs : s ∈ slashSegments bs) : slash ∉ s ∧ s ⊆ bs := by
  induction bs generalizing s with
  | nil =>
    simp only [slashSegments, List.mem_singleton] at hs
    subst hs
    simp
  | cons b bs ih =>
    obtain ⟨t, ts, hbs⟩ := List.exists_cons_of_ne_nil (slashSegments_ne_nil bs)
    rw [slashSegments_cons hbs] at hs
    have htail : ∀ u ∈ t :: ts, slash ∉ u ∧ u ⊆ b :: bs := by
      intro u hu
      obtain ⟨hslash, hsub⟩ := ih (hbs ▸ hu)
      exact ⟨hslash, List.subset_cons_of_subset b hsub⟩
    by_cases hb : b = slash
    · rw [if_pos hb] at hs
      rcases List.mem_cons.1 hs with rfl | hs
      · simp
      · exact htail s hs
    · rw [if_neg hb] at hs
      rcases List.mem_cons.1 hs with rfl | hs
      · obtain ⟨hslash, hsub⟩ := htail t (List.mem_cons_self ..)
        refine ⟨fun h => ?_, List.cons_subset.2 ⟨List.mem_cons_self .., hsub⟩⟩
        rcases List.mem_cons.1 h with h | h
        · exact hb h.symm
        · exact hslash h
      · exact htail s (List.mem_cons_of_mem t hs)

namespace Path

/-- The segments of a path. -/
def steps (p : Path) : List RawText :=
  slashSegments p.bytes

/-- The path can be followed at all. -/
def Nameable (p : Path) : Prop :=
  0 ∉ p.bytes ∧ p.bytes ≠ [] ∧ p.bytes.length ≤ Disk.pathLimit

lemma exists_steps_concat (p : Path) : ∃ init s, p.steps = init ++ [s] := by
  have hne : p.steps ≠ [] := slashSegments_ne_nil p.bytes
  exact ⟨p.steps.dropLast, p.steps.getLast hne, (List.dropLast_append_getLast hne).symm⟩

lemma isAbsolute_eq_false {name : RawText} (hslash : slash ∉ name) :
    (Path.mk name).isAbsolute = false := by
  unfold isAbsolute
  cases name with
  | nil => rfl
  | cons b bs =>
    rw [List.mem_cons, not_or] at hslash
    simpa using Ne.symm hslash.1

lemma isAbsolute_join {p : Path} {name : RawText} (hslash : slash ∉ name) :
    (p.join ⟨name⟩).isAbsolute = p.isAbsolute := by
  have hname := isAbsolute_eq_false hslash
  unfold join
  rw [hname, Bool.false_or]
  cases hbytes : p.bytes with
  | nil =>
    rw [if_pos List.isEmpty_nil, hname]
    simp [isAbsolute, hbytes]
  | cons b bs =>
    rw [if_neg (by simp)]
    split <;> simp [isAbsolute, hbytes]

/-- The name comes last. A slash at the end of the path only says that a directory is meant. -/
lemma steps_join {p : Path} {name : RawText} (hslash : slash ∉ name) :
    (∃ init, p.steps = init ++ [[]] ∧ (p.join ⟨name⟩).steps = init ++ [name]) ∨
      (p.join ⟨name⟩).steps = p.steps ++ [name] := by
  have hlast : slashSegments name = [name] := slashSegments_of_not_mem hslash
  unfold join
  rw [isAbsolute_eq_false hslash, Bool.false_or]
  by_cases hempty : p.bytes.isEmpty = true
  · rw [if_pos hempty]
    refine Or.inl ⟨[], ?_, hlast⟩
    rw [steps, List.isEmpty_iff.1 hempty]
    rfl
  · rw [if_neg hempty]
    by_cases hend : p.bytes.getLast? = some slash
    · rw [if_pos hend]
      obtain ⟨bs, hbs⟩ := List.getLast?_eq_some_iff.1 hend
      refine Or.inl ⟨slashSegments bs, ?_, ?_⟩
      · rw [steps, hbs, slashSegments_append]
        rfl
      · show slashSegments (p.bytes ++ name) = _
        rw [hbs, List.append_assoc, List.singleton_append, slashSegments_append, hlast]
    · rw [if_neg hend]
      refine Or.inr ?_
      show slashSegments (p.bytes ++ slash :: name) = _
      rw [slashSegments_append, hlast]
      rfl

end Path

namespace Disk

lemma segments_eq_ok_iff {p : Path} {segs : List RawText} :
    segments p = .ok segs ↔ p.Nameable ∧ p.steps = segs := by
  unfold segments Path.Nameable Path.steps
  by_cases hzero : 0 ∈ p.bytes
  · simp [hzero]
  · by_cases hempty : p.bytes = []
    · simp [hempty]
    · by_cases hlong : pathLimit < p.bytes.length
      · simp [hzero, hempty, hlong, Nat.not_le_of_lt hlong]
      · simp [hzero, hempty, hlong, Nat.le_of_not_lt hlong]

/-- Segments lead to a place from where the path starts. -/
def Leads (d : Disk) (p : Path) (segments : List RawText) (place : Trail) : Prop :=
  d.walk (d.origin p) segments = .ok place

lemma Leads.unique {d : Disk} {p : Path} {segments : List RawText} {place place' : Trail}
    (h : d.Leads p segments place) (h' : d.Leads p segments place') : place = place' :=
  Except.ok.inj (h.symm.trans h')

/-- When a path names a place. -/
theorem resolve_eq_ok_iff {d : Disk} {p : Path} {place : Trail} :
    d.resolve p = .ok place ↔ p.Nameable ∧ d.Leads p p.steps place := by
  unfold resolve
  cases hsegs : segments p with
  | error e =>
    constructor
    · rintro ⟨⟩
    · rintro ⟨hname, -⟩
      cases hsegs.symm.trans (segments_eq_ok_iff.2 ⟨hname, rfl⟩)
  | ok segs =>
    obtain ⟨hname, rfl⟩ := segments_eq_ok_iff.1 hsegs
    exact (and_iff_right hname).symm

lemma look_eq_ok_iff {d : Disk} {p : Path} {what : Standing} :
    d.look p = .ok what ↔ ∃ place, d.resolve p = .ok place ∧ d.standing place = what :=
  map_eq_ok_iff

/-- **What lies in a directory.** A path with a name after it leads there exactly if the path leads to
a directory. -/
theorem leads_join_iff {d : Disk} {p : Path} {name : RawText} (hname : FileName.IsStep name)
    (hslash : slash ∉ name) {q : Trail} :
    d.Leads (p.join ⟨name⟩) (p.join ⟨name⟩).steps q ↔
      ∃ place, d.Leads p p.steps place ∧ d.standing place = .directory ∧ Holds place name q := by
  have horigin : d.origin (p.join ⟨name⟩) = d.origin p := by
    unfold origin
    rw [Path.isAbsolute_join hslash]
  unfold Leads
  rw [horigin]
  rcases Path.steps_join (p := p) hslash with ⟨init, hp, hjoin⟩ | hjoin
  · rw [hp, hjoin]
    simp only [walk_append_iff, walk_one_iff, step?_of_isStep hname]
    constructor
    · rintro ⟨place, hinit, hdir, hq⟩
      exact ⟨place, ⟨place, hinit, hdir, rfl⟩, hdir, hq⟩
    · rintro ⟨place, ⟨place', hinit, hdir', hnext⟩, hdir, hq⟩
      cases Option.some.inj hnext
      exact ⟨place, hinit, hdir, hq⟩
  · rw [hjoin]
    simp only [walk_append_iff, walk_one_iff, step?_of_isStep hname]

lemma leads_join_name_iff {d : Disk} {p : Path} {name : FileName} {q : Trail} :
    d.Leads (p.join name.toPath) (p.join name.toPath).steps q ↔
      ∃ place, d.Leads p p.steps place ∧ d.standing place = .directory ∧ q = place ++ [name] := by
  rw [FileName.toPath, leads_join_iff name.isStep name.slash_not_mem]
  refine exists_congr fun place => and_congr_right fun _ => and_congr_right fun _ => ?_
  constructor
  · exact fun h => h.unique (holds_concat place name)
  · rintro rfl
    exact holds_concat place name

lemma leads_congr {d d' : Disk} (hcurrent : d.current = d'.current)
    (h : ∀ q, d.standing q = .directory ↔ d'.standing q = .directory) {p : Path}
    {segments : List RawText} {place : Trail} :
    d.Leads p segments place ↔ d'.Leads p segments place := by
  unfold Leads origin
  rw [hcurrent]
  exact walk_congr h segments

end Disk

end Polyglot
