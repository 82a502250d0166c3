import Polyglot.Project
import Polyglot.Proofs.Standing
import Mathlib.Data.List.Forall2
import Mathlib.Data.List.Infix

/-!
# Where settings are found

The search for the settings file takes the components off the end of a path one by one. So it goes back
the way that the path has taken, step by step, to where the path starts. If the path goes down at each
step, the directories on the way back are those above its end.

* `Path.piecesFrom_append`, `Path.steps_slice`: what is left of a path when components are taken off;
* `Disk.enter`, `Disk.wayBack`: the places on the way, from the last to the first;
* `Settings.nearest`, `Settings.IsNearest`: the first directory with a settings file;
* `Settings.find?_retraces`: the main statement.
-/

namespace Polyglot

/-! ### The bytes of a path -/

/-- Segments with a slash behind each. -/
def lead (ss : List RawText) : RawText :=
  ss.flatMap (· ++ [slash])

lemma lead_append (ss : List RawText) (s : RawText) : lead (ss ++ [s]) = lead ss ++ s ++ [slash] := by
  simp [lead]

lemma slashSegments_lead {ss : List RawText} {s : RawText} (hss : ∀ t ∈ ss, slash ∉ t)
    (hs : slash ∉ s) : slashSegments (lead ss ++ s) = ss ++ [s] := by
  induction ss with
  | nil => exact slashSegments_of_not_mem hs
  | cons t ss ih =>
    have htext : lead (t :: ss) ++ s = t ++ slash :: (lead ss ++ s) := by simp [lead]
    rw [htext, slashSegments_append, slashSegments_of_not_mem (hss t (List.mem_cons_self ..)),
      ih fun u hu => hss u (List.mem_cons_of_mem t hu)]
    rfl

lemma lead_slashSegments (bs : RawText) {ss : List RawText} {s : RawText}
    (h : slashSegments bs = ss ++ [s]) : lead ss ++ s = bs := by
  induction bs generalizing ss s with
  | nil =>
    obtain ⟨rfl, hs⟩ := (List.append_eq_singleton_iff.1 h.symm).resolve_right (by simp)
    rw [List.singleton_inj.1 hs]
    rfl
  | cons b bs ih =>
    obtain ⟨t, ts, hbs⟩ := List.exists_cons_of_ne_nil (slashSegments_ne_nil bs)
    rw [slashSegments_cons hbs] at h
    by_cases hb : b = slash
    · rw [if_pos hb] at h
      cases ss with
      | nil => simp at h
      | cons u ss =>
        obtain ⟨rfl, htail⟩ := List.cons_eq_cons.1 h
        have hrest := ih (hbs.trans htail)
        simp only [lead, List.flatMap_cons, List.nil_append] at hrest ⊢
        rw [List.append_assoc, hrest, hb]
        rfl
    · rw [if_neg hb] at h
      cases ss with
      | nil =>
        obtain ⟨rfl, rfl⟩ := List.cons_eq_cons.1 h
        have hrest : lead [] ++ t = bs := ih hbs
        rw [← hrest]
        rfl
      | cons u ss =>
        obtain ⟨rfl, rfl⟩ := List.cons_eq_cons.1 h
        have hrest : lead (t :: ss) ++ s = bs := ih hbs
        rw [← hrest]
        rfl

/-- Segments from the front are the beginning of the bytes. -/
lemma lead_prefix {bs : RawText} {ss post : List RawText} {s : RawText}
    (h : slashSegments bs = ss ++ s :: post) : lead ss ++ s <+: bs := by
  rcases List.eq_nil_or_concat post with rfl | ⟨init, last, rfl⟩
  · rw [lead_slashSegments bs h]
  · rw [List.concat_eq_append] at h
    have htext : lead (ss ++ s :: init) ++ last = bs := lead_slashSegments bs (by rw [h]; simp)
    rw [← htext]
    refine ⟨slash :: (lead init ++ last), ?_⟩
    simp [lead]

namespace Path

/-- The component that a segment is, unless it says nothing. -/
def pieceOf (first : Bool) (offset : Nat) (s : RawText) : Option PathPiece :=
  if s = [] then none
  else if s = [dot] then if first then some ⟨.current, offset, offset + 1⟩ else none
  else if s = [dot, dot] then some ⟨.parent, offset, offset + 2⟩
  else some ⟨.normal s, offset, offset + s.length⟩

lemma piecesFrom_cons (first : Bool) (offset : Nat) (s : RawText) (ss : List RawText) :
    piecesFrom first offset (s :: ss) =
      (pieceOf first offset s).toList ++ piecesFrom false (offset + s.length + 1) ss := by
  unfold pieceOf
  rw [piecesFrom]
  split
  · rfl
  · split
    · split <;> rfl
    · split <;> rfl

/-- The last segment has the last component. -/
lemma piecesFrom_append (first : Bool) (offset : Nat) (ss : List RawText) (s : RawText) :
    piecesFrom first offset (ss ++ [s]) = piecesFrom first offset ss ++
      (pieceOf (first && ss.isEmpty) (offset + (lead ss).length) s).toList := by
  induction ss generalizing first offset with
  | nil => simp [piecesFrom_cons, piecesFrom, lead]
  | cons t ss ih =>
    have hoffset : offset + (lead (t :: ss)).length = offset + t.length + 1 + (lead ss).length := by
      simp [lead]
      omega
    rw [List.cons_append, piecesFrom_cons, piecesFrom_cons, ih, hoffset, List.append_assoc]
    simp

lemma pieceOf_eq_some {first : Bool} {offset : Nat} {s : RawText} {piece : PathPiece}
    (h : pieceOf first offset s = some piece) :
    piece.stop = offset + s.length ∧ piece.component ≠ .root ∧ s ≠ [] := by
  unfold pieceOf at h
  split at h
  · cases h
  · rename_i hs
    split at h
    · rename_i hdot
      split at h
      · cases h
        exact ⟨by rw [hdot]; rfl, by simp, hs⟩
      · cases h
    · split at h
      · rename_i hup
        cases h
        exact ⟨by rw [hup]; rfl, by simp, hs⟩
      · cases h
        exact ⟨rfl, by simp, hs⟩

lemma pieceOf_eq_none {first : Bool} {offset : Nat} {s : RawText}
    (h : pieceOf first offset s = none) : s = [] ∨ s = [dot] := by
  unfold pieceOf at h
  split at h
  · exact Or.inl ‹_›
  · split at h
    · exact Or.inr ‹_›
    · split at h <;> cases h

/-- What is left of a path up to the end of a segment. -/
lemma steps_slice {p : Path} {ss post : List RawText} {s : RawText} (h : p.steps = ss ++ s :: post) :
    (p.slice 0 ((lead ss).length + s.length)).steps = ss ++ [s] ∧
      (s ≠ [] → (p.slice 0 ((lead ss).length + s.length)).isAbsolute = p.isAbsolute) := by
  obtain ⟨rest, hrest⟩ := lead_prefix h
  have hslash : ∀ t ∈ ss ++ s :: post, slash ∉ t := by
    intro t ht
    exact (mem_slashSegments (h ▸ ht)).1
  have hbytes : (p.slice 0 ((lead ss).length + s.length)).bytes = lead ss ++ s := by
    unfold slice
    rw [List.drop_zero, ← hrest, ← List.length_append]
    exact List.take_left' rfl
  refine ⟨?_, fun hs => ?_⟩
  · unfold steps
    rw [hbytes, slashSegments_lead (fun t ht => hslash t (List.mem_append_left _ ht))
      (hslash s (by simp))]
  · unfold isAbsolute
    rw [hbytes, ← hrest]
    have hne : lead ss ++ s ≠ [] := by simp [hs]
    obtain ⟨b, bs, hbs⟩ := List.exists_cons_of_ne_nil hne
    rw [hbs]
    rfl

lemma isAbsolute_iff {p : Path} : p.isAbsolute = true ↔ ∃ bs, p.bytes = slash :: bs := by
  unfold isAbsolute
  cases p.bytes with
  | nil => simp
  | cons b bs => simp

/-- The path of the root, if there is one, or else the empty path. -/
lemma steps_base (p : Path) :
    (if p.isAbsolute then p.slice 0 1 else ⟨[]⟩).isAbsolute = p.isAbsolute ∧
      ∀ s ∈ (if p.isAbsolute then p.slice 0 1 else ⟨[]⟩).steps, s = [] := by
  by_cases habs : p.isAbsolute = true
  · obtain ⟨bs, hbs⟩ := isAbsolute_iff.1 habs
    have hslice : p.slice 0 1 = ⟨[slash]⟩ := by
      unfold slice
      rw [hbs]
      rfl
    rw [if_pos habs, hslice, habs]
    refine ⟨by decide, ?_⟩
    simp [steps, slashSegments]
  · rw [if_neg habs, Bool.not_eq_true] at *
    refine ⟨by rw [habs]; rfl, ?_⟩
    simp [steps, slashSegments]

/-- The paths from one whose components are given, from the last to the first. -/
def climb (p : Path) : List PathPiece → List Path
  | [] => [⟨[]⟩]
  | piece :: pieces => p.slice 0 piece.stop :: parentsFrom p (piece :: pieces)

lemma parentsFrom_cons (p : Path) {piece : PathPiece} (hroot : piece.component ≠ .root)
    (pieces : List PathPiece) : parentsFrom p (piece :: pieces) = climb p pieces := by
  cases pieces with
  | nil => simp [parentsFrom, climb, hroot]
  | cons next pieces => rfl

end Path

/-! ### The way of a path -/

namespace Disk

/-- The place that a segment leads to. What cannot be a name leads nowhere. -/
def enter (place : Trail) (s : RawText) : Trail :=
  (step? place s).getD place

/-- The places on the way from `start`, the last one first. -/
def wayBack (start : Trail) (steps : List RawText) : List Trail :=
  (steps.inits.map (·.foldl enter start)).reverse

lemma wayBack_nil (start : Trail) : wayBack start [] = [start] := rfl

lemma wayBack_concat (start : Trail) (steps : List RawText) (s : RawText) :
    wayBack start (steps ++ [s]) = (steps ++ [s]).foldl enter start :: wayBack start steps := by
  unfold wayBack
  rw [List.inits_append]
  simp

lemma exists_wayBack (start : Trail) (steps : List RawText) :
    ∃ rest, wayBack start steps = steps.foldl enter start :: rest := by
  rcases List.eq_nil_or_concat steps with rfl | ⟨init, s, rfl⟩
  · exact ⟨[], rfl⟩
  · rw [List.concat_eq_append]
    exact ⟨_, wayBack_concat start init s⟩

lemma foldl_of_walk {d : Disk} {start place : Trail} {steps : List RawText}
    (h : d.walk start steps = .ok place) : steps.foldl enter start = place := by
  induction steps generalizing start with
  | nil => exact Except.ok.inj h
  | cons s ss ih =>
    obtain ⟨-, next, hnext, hwalk⟩ := walk_cons_iff.1 h
    rw [List.foldl_cons, enter, hnext]
    exact ih hwalk

lemma pathExists_iff {d : Disk} {p : Path} :
    d.pathExists p = true ↔ ∃ place, d.resolve p = .ok place ∧ d.standing place ≠ .nothing := by
  unfold pathExists look
  cases d.resolve p with
  | error e => simp [Except.map]
  | ok place => cases hplace : d.standing place <;> simp [Except.map, hplace]

end Disk

/-! ### The search -/

namespace Settings

open Disk (wayBack enter)

lemma isFileName_fileName : isFileName (.ofText fileName) = true := by decide

lemma isFileName_repositoryMark : isFileName (.ofText repositoryMark) = true := by decide

/-- The name of settings files, as it is on disk. -/
def settingsFile : FileName := ⟨_, isFileName_fileName⟩

/-- The mark of a repository, as it is on disk. -/
def mark : FileName := ⟨_, isFileName_repositoryMark⟩

/-- The first of these directories that has a settings file, if none before it is the top of a
repository. -/
def IsNearest (d : Disk) (dirs : List Trail) (dir : Trail) : Prop :=
  ∃ nearer farther, dirs = nearer ++ dir :: farther ∧ d.standing (dir ++ [settingsFile]) ≠ .nothing ∧
    ∀ x ∈ nearer, d.standing (x ++ [settingsFile]) = .nothing ∧
      d.standing (x ++ [mark]) = .nothing

/-- The search through directories instead of paths. -/
def nearest (d : Disk) : List Trail → Option Trail
  | [] => none
  | dir :: above =>
    if d.standing (dir ++ [settingsFile]) ≠ .nothing then some dir
    else if d.standing (dir ++ [mark]) ≠ .nothing then none
    else nearest d above

lemma nearest_eq_some_iff {d : Disk} {dirs : List Trail} {dir : Trail} :
    nearest d dirs = some dir ↔ IsNearest d dirs dir := by
  induction dirs with
  | nil => simp [nearest, IsNearest]
  | cons x above ih =>
    rw [nearest]
    by_cases hfile : d.standing (x ++ [settingsFile]) ≠ .nothing
    · rw [if_pos hfile, Option.some.injEq]
      constructor
      · rintro rfl
        exact ⟨[], above, rfl, hfile, by simp⟩
      · rintro ⟨nearer, farther, hdirs, -, hnearer⟩
        cases nearer with
        | nil => exact (List.cons_eq_cons.1 hdirs).1
        | cons y nearer =>
          rw [(List.cons_eq_cons.1 hdirs).1] at hfile
          exact absurd (hnearer y (List.mem_cons_self ..)).1 hfile
    · rw [if_neg hfile]
      by_cases hmark : d.standing (x ++ [mark]) ≠ .nothing
      · rw [if_pos hmark]
        constructor
        · intro h
          cases h
        · rintro ⟨nearer, farther, hdirs, hdir, hnearer⟩
          cases nearer with
          | nil =>
            rw [← (List.cons_eq_cons.1 hdirs).1] at hdir
            exact absurd hdir hfile
          | cons y nearer =>
            rw [(List.cons_eq_cons.1 hdirs).1] at hmark
            exact absurd (hnearer y (List.mem_cons_self ..)).2 hmark
      · rw [if_neg hmark, ih]
        rw [not_not] at hfile hmark
        constructor
        · rintro ⟨nearer, farther, rfl, hdir, hnearer⟩
          refine ⟨x :: nearer, farther, rfl, hdir, fun y hy => ?_⟩
          rcases List.mem_cons.1 hy with rfl | hy
          · exact ⟨hfile, hmark⟩
          · exact hnearer y hy
        · rintro ⟨nearer, farther, hdirs, hdir, hnearer⟩
          cases nearer with
          | nil =>
            rw [← (List.cons_eq_cons.1 hdirs).1] at hdir
            exact absurd hfile hdir
          | cons y nearer =>
            exact ⟨nearer, farther, (List.cons_eq_cons.1 hdirs).2, hdir,
              fun z hz => hnearer z (List.mem_cons_of_mem _ hz)⟩

/-- To look twice at a directory makes no difference. -/
lemma nearest_repeat (d : Disk) (x : Trail) (above : List Trail) :
    nearest d (x :: x :: above) = nearest d (x :: above) := by
  by_cases hfile : d.standing (x ++ [settingsFile]) ≠ .nothing
  · simp only [nearest, if_pos hfile]
  · by_cases hmark : d.standing (x ++ [mark]) ≠ .nothing
    · simp only [nearest, if_neg hfile, if_pos hmark]
    · simp only [nearest, if_neg hfile, if_neg hmark]

/-- The path leads to the place, and there is room for the names of files behind it. -/
structure Reaches (d : Disk) (p : Path) (place : Trail) : Prop where
  leads : d.Leads p p.steps place
  zero : 0 ∉ p.bytes
  room : p.bytes.length + settingsFile.bytes.length < Disk.pathLimit

lemma Reaches.nameable_join {d : Disk} {p : Path} {place : Trail} (h : Reaches d p place)
    {name : FileName} (hsize : name.bytes.length ≤ settingsFile.bytes.length) :
    (p.join name.toPath).Nameable := by
  have hroom := h.room
  have hzero := name.zero_not_mem
  have hne := name.isStep.1
  unfold Path.join
  rw [FileName.toPath, Path.isAbsolute_eq_false name.slash_not_mem, Bool.false_or]
  split
  · exact ⟨hzero, hne, by show name.bytes.length ≤ _; omega⟩
  · split
    · refine ⟨by simpa using ⟨h.zero, hzero⟩, by simp [hne], ?_⟩
      show (p.bytes ++ name.bytes).length ≤ _
      rw [List.length_append]
      omega
    · refine ⟨by simpa using ⟨h.zero, by decide, hzero⟩, by simp, ?_⟩
      show (p.bytes ++ slash :: name.bytes).length ≤ _
      rw [List.length_append, List.length_cons]
      omega

/-- What is in a directory is found under its name behind the path. -/
lemma Reaches.resolve_join {d : Disk} {p : Path} {place : Trail} (h : Reaches d p place)
    {name : FileName} (hsize : name.bytes.length ≤ settingsFile.bytes.length)
    (hstands : d.standing (place ++ [name]) ≠ .nothing) :
    d.resolve (p.join name.toPath) = .ok (place ++ [name]) :=
  Disk.resolve_eq_ok_iff.2 ⟨h.nameable_join hsize,
    Disk.leads_join_name_iff.2 ⟨place, h.leads, Disk.standing_of_concat hstands, rfl⟩⟩

lemma Reaches.pathExists_join {d : Disk} {p : Path} {place : Trail} (h : Reaches d p place)
    (name : FileName) (hsize : name.bytes.length ≤ settingsFile.bytes.length) :
    d.pathExists (p.join name.toPath) = true ↔ d.standing (place ++ [name]) ≠ .nothing := by
  rw [Disk.pathExists_iff]
  constructor
  · rintro ⟨q, hq, hstands⟩
    obtain ⟨place', hleads, -, rfl⟩ := Disk.leads_join_name_iff.1 (Disk.resolve_eq_ok_iff.1 hq).2
    cases h.leads.unique hleads
    exact hstands
  · intro hstands
    exact ⟨_, h.resolve_join hsize hstands, hstands⟩

/-- **The search through paths is the one through the directories that they lead to.** -/
theorem resolve_findIn {d : Disk} {paths : List Path} {places : List Trail}
    (h : List.Forall₂ (Reaches d) paths places) :
    (findIn d paths).map d.resolve = (nearest d places).map fun dir => .ok (dir ++ [settingsFile]) := by
  induction h with
  | nil => rfl
  | @cons p place paths places hp _ ih =>
    have hfile : d.pathExists (p.join (.ofText fileName)) = true ↔ _ :=
      hp.pathExists_join settingsFile (Nat.le_refl _)
    have hmark : d.pathExists (p.join (.ofText repositoryMark)) = true ↔ _ :=
      hp.pathExists_join mark (by decide)
    rw [findIn, nearest]
    by_cases hexists : d.standing (place ++ [settingsFile]) ≠ .nothing
    · rw [if_pos (hfile.2 hexists), if_pos hexists, Option.map_some, Option.map_some]
      exact congrArg some (hp.resolve_join (Nat.le_refl _) hexists)
    · rw [if_neg (mt hfile.1 hexists), if_neg hexists]
      by_cases htop : d.standing (place ++ [mark]) ≠ .nothing
      · rw [if_pos (hmark.2 htop), if_pos htop]
        rfl
      · rw [if_neg (mt hmark.1 htop), if_neg htop]
        exact ih

section Way

variable {d : Disk} {p : Path} {place : Trail}

/-- A path that has been cut off leaves as much room. -/
lemma reaches_slice (hzero : 0 ∉ p.bytes)
    (hroom : p.bytes.length + settingsFile.bytes.length < Disk.pathLimit) (n : Nat)
    (h : d.Leads (p.slice 0 n) (p.slice 0 n).steps place) : Reaches d (p.slice 0 n) place := by
  refine ⟨h, fun hmem => hzero (List.mem_of_mem_take hmem), ?_⟩
  have hlength : (p.slice 0 n).bytes.length ≤ p.bytes.length := List.length_take_le' n p.bytes
  omega

/-- Where the components end that have been taken off. -/
def basePieces (p : Path) : List PathPiece :=
  if p.isAbsolute then [⟨.root, 0, 1⟩] else []

lemma pieces_eq (p : Path) :
    p.pieces = basePieces p ++ Path.piecesFrom (!p.isAbsolute) 0 p.steps := by
  unfold Path.pieces basePieces Path.steps
  cases p.isAbsolute <;> rfl

lemma standing_start {start : Trail} (h : d.walk start p.steps = .ok place) :
    d.standing start = .directory := by
  obtain ⟨s, ss, hsteps⟩ := List.exists_cons_of_ne_nil (slashSegments_ne_nil p.bytes)
  rw [Path.steps, hsteps] at h
  exact (Disk.walk_cons_iff.1 h).1

lemma origin_congr {q : Path} (h : q.isAbsolute = p.isAbsolute) : d.origin q = d.origin p := by
  unfold Disk.origin
  rw [h]

/-- A path without any names leads to where it starts. -/
lemma leads_of_empty {q : Path} (hdir : d.standing (d.origin q) = .directory)
    (hempty : ∀ s ∈ q.steps, s = []) : d.Leads q q.steps (d.origin q) := by
  unfold Disk.Leads
  generalize q.steps = steps at hempty
  induction steps with
  | nil => rfl
  | cons s ss ih =>
    refine Disk.walk_cons_iff.2 ⟨hdir, _, ?_, ih fun t ht => hempty t (List.mem_cons_of_mem s ht)⟩
    rw [hempty s (List.mem_cons_self ..)]
    rfl

/-- The paths that are tried lead to the directories on the way back. The induction is over the
segments from the front of the path; those without a component lead nowhere else. -/
lemma reaches_climb (hleads : d.Leads p p.steps place) (hzero : 0 ∉ p.bytes)
    (hroom : p.bytes.length + settingsFile.bytes.length < Disk.pathLimit)
    (ss post : List RawText) (h : p.steps = ss ++ post) :
    ∃ places, List.Forall₂ (Reaches d)
        (p.climb (basePieces p ++ Path.piecesFrom (!p.isAbsolute) 0 ss).reverse) places ∧
      nearest d places = nearest d (wayBack (d.origin p) ss) ∧
      places.head? = some (ss.foldl enter (d.origin p)) := by
  induction ss using List.reverseRecOn generalizing post with
  | nil =>
    have hbase : p.climb (basePieces p ++ Path.piecesFrom (!p.isAbsolute) 0 []).reverse =
        [if p.isAbsolute then p.slice 0 1 else ⟨[]⟩] := by
      unfold basePieces
      cases p.isAbsolute <;> rfl
    obtain ⟨habsolute, hempty⟩ := p.steps_base
    have horigin := origin_congr (d := d) habsolute
    have hstart := leads_of_empty (by rw [horigin]; exact standing_start hleads) hempty
    rw [horigin] at hstart
    refine ⟨[d.origin p], ?_, rfl, rfl⟩
    rw [hbase]
    refine List.Forall₂.cons ?_ List.Forall₂.nil
    by_cases habs : p.isAbsolute = true
    · rw [if_pos habs] at hstart ⊢
      exact reaches_slice hzero hroom 1 hstart
    · rw [if_neg habs] at hstart ⊢
      exact ⟨hstart, by simp, Nat.lt_of_le_of_lt (Nat.add_le_add_right (Nat.zero_le _) _) hroom⟩
  | append_singleton ss s ih =>
    have hsteps : p.steps = ss ++ s :: post := by
      rw [h, List.append_assoc]
      rfl
    obtain ⟨places, hreach, hnear, hhead⟩ := ih (s :: post) hsteps
    rw [Disk.wayBack_concat, Path.piecesFrom_append]
    cases hpiece : Path.pieceOf (!p.isAbsolute && ss.isEmpty) (0 + (lead ss).length) s with
    | none =>
      have henter : ∀ x, enter x s = x := by
        intro x
        rcases Path.pieceOf_eq_none hpiece with rfl | rfl
        · rfl
        · rfl
      obtain ⟨rest, hrest⟩ := Disk.exists_wayBack (d.origin p) ss
      rw [List.foldl_append, List.foldl_cons, List.foldl_nil, henter]
      refine ⟨places, by simpa using hreach, ?_, hhead⟩
      rw [hnear, hrest, nearest_repeat]
    | some piece =>
      obtain ⟨hstop, hroot, hs⟩ := Path.pieceOf_eq_some hpiece
      rw [Nat.zero_add] at hstop
      obtain ⟨hslice, habsolute⟩ := Path.steps_slice hsteps
      refine ⟨(ss ++ [s]).foldl enter (d.origin p) :: places, ?_, ?_, rfl⟩
      · have hclimb : p.climb (basePieces p ++ (Path.piecesFrom (!p.isAbsolute) 0 ss ++
            (some piece).toList)).reverse = p.slice 0 piece.stop ::
              p.climb (basePieces p ++ Path.piecesFrom (!p.isAbsolute) 0 ss).reverse := by
          rw [← List.append_assoc, List.reverse_append]
          show p.slice 0 piece.stop :: p.parentsFrom (piece :: _) = _
          rw [Path.parentsFrom_cons p hroot]
          rfl
        rw [hclimb]
        refine List.Forall₂.cons (reaches_slice hzero hroom _ ?_) hreach
        -- The walk along the whole path begins with the walk along this part of it.
        have hwalk := hleads
        rw [Disk.Leads, h] at hwalk
        obtain ⟨between, hfirst, -⟩ := Disk.walk_append_iff.1 hwalk
        rw [Disk.foldl_of_walk hfirst, hstop, hslice, Disk.Leads, origin_congr (habsolute hs)]
        exact hfirst
      · simp only [nearest, hnear]

/-- All paths that are tried, the given one first. -/
lemma reaches_ancestors (hleads : d.Leads p p.steps place) (hzero : 0 ∉ p.bytes)
    (hroom : p.bytes.length + settingsFile.bytes.length < Disk.pathLimit) :
    ∃ places, List.Forall₂ (Reaches d) p.ancestors places ∧
      nearest d places = nearest d (wayBack (d.origin p) p.steps) := by
  obtain ⟨places, hreach, hnear, hhead⟩ :=
    reaches_climb hleads hzero hroom p.steps [] (List.append_nil _).symm
  rw [← pieces_eq] at hreach
  obtain ⟨rest, rfl⟩ := List.head?_eq_some_iff.1 hhead
  refine ⟨_, ?_, hnear⟩
  have hp : Reaches d p (p.steps.foldl enter (d.origin p)) :=
    ⟨by rw [Disk.foldl_of_walk hleads]; exact hleads, hzero, hroom⟩
  -- The first of the paths is not cut off, which makes no difference to where it leads.
  refine List.Forall₂.cons hp ?_
  cases hpieces : p.pieces.reverse with
  | nil =>
    rw [hpieces] at hreach
    cases hreach with
    | cons _ htail => exact htail
  | cons piece pieces =>
    rw [hpieces] at hreach
    cases hreach with
    | cons _ htail => exact htail

end Way

/-- What a search finds is the settings file of the nearest of these directories. -/
def Finds (d : Disk) (found : Option Path) (dirs : List Trail) : Prop :=
  (∀ dir, IsNearest d dirs dir ↔ ∃ q, found = some q ∧ d.resolve q = .ok (dir ++ [settingsFile])) ∧
    (found = none ↔ ∀ dir, ¬ IsNearest d dirs dir)

lemma finds_of_resolve {d : Disk} {found : Option Path} {dirs : List Trail}
    (h : found.map d.resolve = (nearest d dirs).map fun dir => .ok (dir ++ [settingsFile])) :
    Finds d found dirs := by
  unfold Finds
  simp only [← nearest_eq_some_iff]
  cases hnear : nearest d dirs with
  | none =>
    rw [hnear, Option.map_none, Option.map_eq_none_iff] at h
    simp [h]
  | some dir =>
    rw [hnear, Option.map_some] at h
    obtain ⟨q, rfl, hq⟩ := Option.map_eq_some_iff.1 h
    simp [hq]

/-- The directories from `start` down along the names, the last one first. -/
def chain (start names : Trail) : List Trail :=
  (names.inits.map (start ++ ·)).reverse

lemma chain_concat (start names : Trail) (name : FileName) :
    chain start (names ++ [name]) = (start ++ (names ++ [name])) :: chain start names := by
  unfold chain
  rw [List.inits_append]
  simp

/-- If a path goes down at each step, its way back goes up. -/
lemma nearest_wayBack (d : Disk) (start : Trail) {steps : List RawText} (h : [dot, dot] ∉ steps) :
    ∃ names, steps.foldl enter start = start ++ names ∧
      nearest d (wayBack start steps) = nearest d (chain start names) := by
  induction steps using List.reverseRecOn with
  | nil => exact ⟨[], (List.append_nil _).symm, by simp [chain, Disk.wayBack_nil]⟩
  | append_singleton steps s ih =>
    obtain ⟨hsteps, hs⟩ : [dot, dot] ∉ steps ∧ s ≠ [dot, dot] := by
      constructor
      · exact fun hmem => h (List.mem_append_left _ hmem)
      · rintro rfl
        exact h (by simp)
    obtain ⟨names, hfold, hnear⟩ := ih hsteps
    rw [Disk.wayBack_concat, List.foldl_append, List.foldl_cons, List.foldl_nil, hfold]
    have hdown : enter (start ++ names) s = start ++ names ∨
        ∃ name, enter (start ++ names) s = start ++ (names ++ [name]) := by
      by_cases hstep : FileName.IsStep s
      · unfold enter
        cases hnext : Disk.step? (start ++ names) s with
        | none => exact Or.inl rfl
        | some next =>
          obtain ⟨name, -, rfl⟩ := (Disk.step?_of_isStep hstep).1 hnext
          exact Or.inr ⟨name, List.append_assoc ..⟩
      · left
        by_cases hempty : s = []
        · rw [hempty]
          rfl
        · have hdot : s = [dot] := by
            by_contra hdot
            exact hstep ⟨hempty, hdot, hs⟩
          rw [hdot]
          rfl
    rcases hdown with hstay | ⟨name, hdown⟩
    · obtain ⟨rest, hrest⟩ := Disk.exists_wayBack start steps
      refine ⟨names, hstay, ?_⟩
      rw [hstay, ← hnear, hrest, hfold, nearest_repeat]
    · refine ⟨names ++ [name], hdown, ?_⟩
      rw [hdown, chain_concat]
      simp only [nearest, hnear]

/-- **The search goes back the way that the path has taken.** It finds the settings file of the
nearest directory on that way. If the path goes down at each step, these directories are its end and
those above it, up to where the path starts: the root for an absolute path, and the current directory
for any other. -/
theorem find?_retraces {d : Disk} {p : Path} {place : Trail} (hzero : 0 ∉ p.bytes)
    (hroom : p.bytes.length + settingsFile.bytes.length < Disk.pathLimit)
    (hplace : d.walk (d.origin p) p.steps = .ok place) :
    Finds d (find? d p) (wayBack (d.origin p) p.steps) ∧
      ([dot, dot] ∉ p.steps →
        ∃ names, place = d.origin p ++ names ∧ Finds d (find? d p) (chain (d.origin p) names)) ∧
      d.origin p = if p.isAbsolute then [] else d.current := by
  obtain ⟨places, hreach, hnear⟩ := reaches_ancestors hplace hzero hroom
  have hfind := resolve_findIn hreach
  rw [hnear] at hfind
  refine ⟨finds_of_resolve hfind, fun hdown => ?_, rfl⟩
  obtain ⟨names, hfold, hchain⟩ := nearest_wayBack d (d.origin p) hdown
  rw [hchain] at hfind
  exact ⟨names, (Disk.foldl_of_walk hplace).symm.trans hfold, finds_of_resolve hfind⟩

/-- A project two directories above a package, in a repository. -/
def packageDisk : Disk :=
  .ofList [(.ofText ".git", .directory), (.ofText "app", .directory),
    (.ofText ("app/" ++ fileName), .file (.text "{}")), (.ofText "app/packages", .directory),
    (.ofText "app/packages/web", .directory)]

theorem find?_retraces_package : ∃ q, find? packageDisk (.ofText "/app/packages/./web/") = some q ∧
    packageDisk.resolve q = .ok (.ofText ("app/" ++ fileName)) := by
  have hplace : packageDisk.walk [] (Path.steps (.ofText "/app/packages/./web/")) =
      .ok (.ofText "app/packages/web") := by
    decide +kernel
  obtain ⟨-, hdown, -⟩ := find?_retraces (p := .ofText "/app/packages/./web/")
    (by decide +kernel) (by decide +kernel) hplace
  obtain ⟨names, hnames, hfinds, -⟩ := hdown (by decide +kernel)
  have hstart : packageDisk.origin (.ofText "/app/packages/./web/") = [] := rfl
  rw [hstart, List.nil_append] at hnames
  rw [hstart, ← hnames] at hfinds
  have hnearest : IsNearest packageDisk (chain [] (.ofText "app/packages/web")) (.ofText "app") :=
    ⟨[.ofText "app/packages/web", .ofText "app/packages"], [[]], by decide +kernel, by decide +kernel,
      by decide +kernel⟩
  exact (hfinds (.ofText "app")).1 hnearest

/-- A directory with settings of its own, in one that has none. -/
def innerDisk : Disk :=
  .ofList [(.ofText "inner", .directory), (.ofText ("inner/" ++ fileName), .file (.text "{}"))]

/-- A path that goes down and up again makes the search go into a directory that is not above. -/
theorem not_find?_above :
    ¬ ∀ (d : Disk) (p : Path) (place : Trail), 0 ∉ p.bytes →
      p.bytes.length + settingsFile.bytes.length < Disk.pathLimit →
      d.walk (d.origin p) p.steps = .ok place → Finds d (find? d p) (chain [] place) := by
  intro h
  obtain ⟨-, hnone⟩ := h innerDisk (.ofText "inner/..") [] (by decide +kernel) (by decide +kernel)
    (by decide +kernel)
  have hfound : find? innerDisk (.ofText "inner/..") ≠ none := by
    decide +kernel
  refine hfound (hnone.2 ?_)
  rintro dir ⟨nearer, farther, hdirs, hfile, -⟩
  have hdir : dir ∈ chain [] [] := by
    rw [hdirs]
    simp
  rw [List.mem_singleton.1 hdir] at hfile
  exact absurd hfile (by decide +kernel)

end Settings

namespace Project

/-- The project of the current directory, if there are no settings. -/
def withoutSettings (catalogsDir : Path) : Project where
  root := currentDirectory
  settings := {}
  hasSettingsFile := false
  catalogsDir := catalogsDir
  ignores := []

/-- The same with message files where the defaults have them. -/
def plain : Project :=
  withoutSettings (.ofText "./translations")

lemma load_of_find?_eq_none {d : Disk} (h : Settings.find? d currentDirectory = none)
    {given : Overrides} (hroot : given.root = none) (hgiven : given.catalogsDir = none) :
    load d given = .ok plain := by
  have hdir : resolveIn currentDirectory (.ofText ({} : Settings).catalogs) =
      .ofText "./translations" := by
    decide +kernel
  unfold load LoadedSettings.load plain
  rw [hroot, hgiven, Option.getD_none, h, ← hdir]
  rfl

end Project

end Polyglot
