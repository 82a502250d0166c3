import Polyglot.Hint

/-!
# Parameters

The parameters of a message: each name once, in the order in which the names were first met. A
name that is met again merges the hints.

* `Parameter.names`, `Parameter.find?`: lists of parameters, which may have a name twice.
* `ParameterSet`: parameters with different names, built by `add` and `union`.
-/

namespace Polyglot

structure Parameter where
  name : String
  hint : Hint
deriving DecidableEq, Repr

namespace Parameter

/-- The names in order. -/
def names (ps : List Parameter) : List String :=
  ps.map (·.name)

/-- The first parameter of a name. -/
def find? (ps : List Parameter) (name : String) : Option Parameter :=
  List.find? (fun p => p.name == name) ps

/-- Add one parameter: at the end if its name is new, else into the hint that is there. -/
def addTo : List Parameter → Parameter → List Parameter
  | [], p => [p]
  | q :: qs, p =>
    if q.name = p.name then { q with hint := q.hint.merge p.hint } :: qs else q :: addTo qs p

/-- A new name goes to the end, a known one changes no name. -/
theorem names_addTo (ps : List Parameter) (p : Parameter) :
    names (addTo ps p) = if p.name ∈ names ps then names ps else names ps ++ [p.name] := by
  induction ps with
  | nil => simp [addTo, names]
  | cons q qs ih =>
    unfold addTo
    by_cases h : q.name = p.name
    · rw [if_pos h, if_pos (by simp [names, h])]
      simp [names]
    · rw [if_neg h]
      have hiff : p.name ∈ names (q :: qs) ↔ p.name ∈ names qs := by
        simp only [names, List.map_cons, List.mem_cons]
        exact or_iff_right fun e => h e.symm
      have hcons : names (q :: addTo qs p) = q.name :: names (addTo qs p) := rfl
      rw [hcons, ih]
      by_cases hm : p.name ∈ names qs
      · rw [if_pos hm, if_pos (hiff.2 hm)]
        rfl
      · rw [if_neg hm, if_neg (fun h' => hm (hiff.1 h'))]
        rfl

theorem nodup_names_addTo {ps : List Parameter} (h : (names ps).Nodup) (p : Parameter) :
    (names (addTo ps p)).Nodup := by
  rw [names_addTo]
  split
  · exact h
  · rename_i hn
    refine List.nodup_append.2 ⟨h, by simp, ?_⟩
    intro a ha b hb heq
    rw [List.mem_singleton] at hb
    exact hn (hb ▸ heq ▸ ha)

end Parameter

/-- Parameters in the order of their first mention, no name twice. -/
@[ext]
structure ParameterSet where
  toList : List Parameter
  nodup : (Parameter.names toList).Nodup
deriving DecidableEq, Repr

namespace ParameterSet

instance : EmptyCollection ParameterSet :=
  ⟨⟨[], List.nodup_nil⟩⟩

/-- Add one parameter, or its hint to the one that has its name. -/
def add (ps : ParameterSet) (p : Parameter) : ParameterSet :=
  ⟨Parameter.addTo ps.toList p, Parameter.nodup_names_addTo ps.nodup p⟩

/-- Add parameters, from left to right. -/
def addAll (ps : ParameterSet) (qs : List Parameter) : ParameterSet :=
  qs.foldl add ps

/-- Add all parameters of `qs`, from left to right. -/
def union (ps qs : ParameterSet) : ParameterSet :=
  ps.addAll qs.toList

/-- The set with these parameters added one by one. -/
def ofList (ps : List Parameter) : ParameterSet :=
  addAll ∅ ps

/-- The parameter of a name. -/
def get? (ps : ParameterSet) (name : String) : Option Parameter :=
  Parameter.find? ps.toList name

end ParameterSet

end Polyglot
