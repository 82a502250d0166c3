import Polyglot.Path

/-!
# File trees

A file tree is told by what stands at each of its places: nothing, a directory, or a file with what it
holds. A place is the list of names that leads to it from the root. What is in a tree has a place of its
own, in a directory; a tree is only ever changed so that this stays true.

* `Entries`: what is at the places, with `Entries.standing` and `Entries.put`.
* `IsTree`: everything has a place of its own in a directory, with `IsTree.put`.
* `Disk`: a tree, and the directory that relative paths start from.
* `Disk.put`: something else at a place.
* `Disk.children`: what is directly inside a directory.
-/

namespace Polyglot

/-- What a file holds: text, or bytes that are none. -/
inductive Contents where
  | text (value : String)
  | binary (bytes : List UInt8)
deriving DecidableEq, Repr

/-- What is seen at a place. -/
inductive Standing where
  | nothing
  | directory
  | file (contents : Contents)
deriving DecidableEq, Repr

/-- The names that lead to something from the root. -/
abbrev Trail := List FileName

/-- Places, and what is there. -/
abbrev Entries := List (Trail × Standing)

namespace Contents

/-- The contents that bytes are. -/
def ofBytes (bytes : ByteArray) : Contents :=
  match String.fromUTF8? bytes with
  | some value => .text value
  | none => .binary bytes.toList

end Contents

/-- The place that bytes name from the root. -/
def Trail.ofBytes (bs : RawText) : Trail :=
  (slashSegments bs).filterMap FileName.ofBytes?

def Trail.ofText (s : String) : Trail :=
  .ofBytes (.ofText s)

namespace Entries

/-- What is seen at a place. The root needs no entry. -/
def standing (entries : Entries) (place : Trail) : Standing :=
  if place = [] then .directory else (entries.lookup place).getD .nothing

/-- Something at a place, whatever was there. -/
def put (entries : Entries) (place : Trail) (what : Standing) : Entries :=
  (if what = .nothing then [] else [(place, what)]) ++ entries.filter (fun e => e.1 != place)

end Entries

/-- Everything has a place of its own, in a directory. -/
structure IsTree (entries : Entries) : Prop where
  distinct : (entries.map Prod.fst).Nodup
  something : ∀ e ∈ entries, e.2 ≠ .nothing
  inside : ∀ e ∈ entries, e.1 ≠ [] ∧ entries.standing e.1.dropLast = .directory

/-- Something can be put at a place that is in a directory and is none itself. -/
structure Free (entries : Entries) (place : Trail) : Prop where
  inside : place ≠ [] ∧ entries.standing place.dropLast = .directory
  old : entries.standing place ≠ .directory

namespace Entries

theorem lookup_cons_eq (q place : Trail) (what : Standing) (entries : Entries) :
    ((place, what) :: entries).lookup q = if q = place then some what else entries.lookup q := by
  rw [List.lookup_cons]
  by_cases hq : q = place
  · simp [hq]
  · simp [hq, beq_eq_false_iff_ne.2 hq]

theorem lookup_filter_ne (entries : Entries) (place q : Trail) :
    (entries.filter (fun e => e.1 != place)).lookup q =
      if q = place then none else entries.lookup q := by
  induction entries with
  | nil => simp
  | cons e entries ih =>
    obtain ⟨x, what⟩ := e
    rw [List.filter_cons, lookup_cons_eq]
    by_cases hx : x = place
    · rw [if_neg (by simp [hx]), ih, hx]
      split <;> rfl
    · rw [if_pos (by simp [hx]), lookup_cons_eq, ih]
      by_cases hq : q = x
      · simp [hq, hx]
      · simp [hq]

/-- What is put at a place is seen there, and nothing else is seen to change. -/
theorem standing_put (entries : Entries) {place : Trail} (hplace : place ≠ []) (what : Standing)
    (q : Trail) :
    (entries.put place what).standing q = if q = place then what else entries.standing q := by
  unfold standing put
  by_cases hq : q = place
  · rw [if_neg (hq ▸ hplace), if_pos hq]
    by_cases hwhat : what = .nothing
    · rw [if_pos hwhat, List.nil_append, lookup_filter_ne, if_pos hq, hwhat]
      rfl
    · rw [if_neg hwhat, List.singleton_append, lookup_cons_eq, if_pos hq]
      rfl
  · rw [if_neg hq]
    by_cases hwhat : what = .nothing
    · rw [if_pos hwhat, List.nil_append, lookup_filter_ne, if_neg hq]
    · rw [if_neg hwhat, List.singleton_append, lookup_cons_eq, lookup_filter_ne, if_neg hq, if_neg hq]

theorem mem_put {entries : Entries} {place : Trail} {what : Standing} {e : Trail × Standing}
    (h : e ∈ entries.put place what) :
    (e = (place, what) ∧ what ≠ .nothing) ∨ e ∈ entries ∧ e.1 ≠ place := by
  rcases List.mem_append.1 h with hnew | hold
  · split at hnew
    · cases hnew
    · exact .inl ⟨List.mem_singleton.1 hnew, ‹_›⟩
  · obtain ⟨hmem, hne⟩ := List.mem_filter.1 hold
    exact .inr ⟨hmem, by simpa using hne⟩

theorem nodup_put {entries : Entries} (h : (entries.map Prod.fst).Nodup) (place : Trail)
    (what : Standing) : ((entries.put place what).map Prod.fst).Nodup := by
  have hrest : ((entries.filter (fun e => e.1 != place)).map Prod.fst).Nodup :=
    h.sublist (List.filter_sublist.map Prod.fst)
  unfold put
  split
  · exact hrest
  · refine List.nodup_cons.2 ⟨fun hmem => ?_, hrest⟩
    obtain ⟨e, he, hplace⟩ := List.mem_map.1 hmem
    simpa [hplace] using (List.mem_filter.1 he).2

end Entries

namespace IsTree

theorem nil : IsTree [] :=
  ⟨List.nodup_nil, nofun, nofun⟩

/-- A tree stays one when something is put at a free place. -/
theorem put {entries : Entries} (h : IsTree entries) {place : Trail} (hfree : Free entries place)
    (what : Standing) : IsTree (entries.put place what) where
  distinct := Entries.nodup_put h.distinct place what
  something := by
    intro e he
    rcases Entries.mem_put he with ⟨rfl, hwhat⟩ | ⟨hmem, -⟩
    · exact hwhat
    · exact h.something e hmem
  inside := by
    -- No directory has gone, since none was at the place.
    have hdir : ∀ q, entries.standing q = .directory →
        (entries.put place what).standing q = .directory := by
      intro q hq
      have hne : q ≠ place := by
        rintro rfl
        exact hfree.old hq
      rw [Entries.standing_put _ hfree.inside.1, if_neg hne, hq]
    intro e he
    rcases Entries.mem_put he with ⟨rfl, -⟩ | ⟨hmem, -⟩
    · exact ⟨hfree.inside.1, hdir _ hfree.inside.2⟩
    · exact ⟨(h.inside e hmem).1, hdir _ (h.inside e hmem).2⟩

end IsTree

instance (entries : Entries) (place : Trail) : Decidable (Free entries place) :=
  decidable_of_iff
    ((place ≠ [] ∧ entries.standing place.dropLast = .directory) ∧ entries.standing place ≠ .directory)
    ⟨fun h => ⟨h.1, h.2⟩, fun h => ⟨h.inside, h.old⟩⟩

/-- A file tree in memory. -/
structure Disk where
  /-- All that is there, but for the root. -/
  entries : Entries
  /-- Where relative paths start. -/
  current : Trail := []
  isTree : IsTree entries

namespace Disk

/-- Nothing but the root. -/
instance : EmptyCollection Disk := ⟨⟨[], [], .nil⟩⟩

/-- What is seen at a place. -/
def standing (d : Disk) (place : Trail) : Standing :=
  d.entries.standing place

/-- Put something at a place, if it is free. -/
def put (d : Disk) (place : Trail) (what : Standing) : Disk :=
  if h : Free d.entries place then
    { d with entries := d.entries.put place what, isTree := d.isTree.put h what }
  else d

/-- A disk that is built up from the root. -/
def ofList (entries : List (RawText × Standing)) : Disk :=
  entries.foldl (fun d e => d.put (.ofBytes e.1) e.2) ∅

/-- The name of an entry that is directly inside the directory at `place`. -/
def childIn (place : Trail) (e : Trail × Standing) : Option (FileName × Standing) :=
  if e.1.dropLast = place then e.1.getLast?.map (·, e.2) else none

/-- What is directly inside a directory, by name. -/
def children (d : Disk) (place : Trail) : List (FileName × Standing) :=
  (d.entries.filterMap (childIn place)).mergeSort (fun a b => a.1 ≤ b.1)

end Disk

end Polyglot
