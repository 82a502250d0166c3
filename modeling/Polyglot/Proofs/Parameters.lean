import Polyglot.Parameter
import Mathlib.Data.List.Induction

/-!
# The names and the hints of a parameter set

* `mem_names_add`, `mem_names_union`: a step and a union have the names of both sides;
* `addAll_append`: parameters can be added piece by piece;
* `toList_ofList`: adding parameters one by one gives each name once, where it is mentioned first,
  with the hints of all its mentions.
-/

namespace Polyglot

namespace Parameter

/-! ### First mentions -/

/-- The hints of all mentions of a name, merged. -/
def mergedHint (ps : List Parameter) (name : String) : Hint :=
  ((ps.filter (·.name = name)).map (·.hint)).foldl Hint.merge .unknown

/-- Each name once, in the order of first mention, with its hints merged. -/
def firstMentions (ps : List Parameter) : List Parameter :=
  (names ps).eraseDups.map fun name => ⟨name, mergedHint ps name⟩

lemma mergedHint_append (ps : List Parameter) (p : Parameter) (name : String) :
    mergedHint (ps ++ [p]) name =
      if name = p.name then (mergedHint ps name).merge p.hint else mergedHint ps name := by
  unfold mergedHint
  by_cases h : name = p.name
  · simp [h]
  · have h' : ¬ p.name = name := fun e => h e.symm
    simp [h, h']

lemma mergedHint_of_not_mem {ps : List Parameter} {name : String} (h : name ∉ names ps) :
    mergedHint ps name = .unknown := by
  have hnil : ps.filter (·.name = name) = [] := by
    refine List.filter_eq_nil_iff.2 fun p hp hname => h ?_
    exact List.mem_map.2 ⟨p, hp, of_decide_eq_true hname⟩
  rw [mergedHint, hnil]
  rfl

lemma eraseDups_append_one (ns : List String) (n : String) :
    (ns ++ [n]).eraseDups = if n ∈ ns then ns.eraseDups else ns.eraseDups ++ [n] := by
  rw [List.eraseDups_append]
  by_cases h : n ∈ ns <;> simp [List.removeAll, h, List.eraseDups_cons]

/-- Adding a parameter to a list that is given by its names and a hint for each of them. -/
lemma addTo_map {ns : List String} (hns : ns.Nodup) (hint : String → Hint) (p : Parameter)
    (hp : p.name ∉ ns → hint p.name = .unknown) :
    addTo (ns.map fun n => ⟨n, hint n⟩) p = (if p.name ∈ ns then ns else ns ++ [p.name]).map
      fun n => ⟨n, if n = p.name then (hint n).merge p.hint else hint n⟩ := by
  induction ns with
  | nil =>
    have hmerge : Hint.merge .unknown p.hint = p.hint := by cases p.hint <;> rfl
    simp [addTo, hp, hmerge]
  | cons n ns ih =>
    obtain ⟨hn, hns⟩ := List.nodup_cons.1 hns
    rw [List.map_cons, addTo]
    by_cases h : n = p.name
    · -- no later name changes, for this one does not come again
      have hrest : (ns.map fun m => (⟨m, hint m⟩ : Parameter)) =
          ns.map fun m => ⟨m, if m = p.name then (hint m).merge p.hint else hint m⟩ := by
        refine List.map_congr_left fun m hm => ?_
        have hne : ¬ m = p.name := fun e => hn (h ▸ e ▸ hm)
        rw [if_neg hne]
      simp [h, hrest]
    · have hiff : p.name ∈ n :: ns ↔ p.name ∈ ns := by
        rw [List.mem_cons]
        exact or_iff_right fun e => h e.symm
      rw [if_neg h, ih hns fun hm => hp fun h' => hm (hiff.1 h')]
      by_cases hm : p.name ∈ ns <;> simp [hiff, hm, h]

end Parameter

namespace ParameterSet

open Parameter (names)

/-! ### Adding parameters -/

lemma mem_names_add {ps : ParameterSet} {p : Parameter} {name : String} :
    name ∈ names (ps.add p).toList ↔ name ∈ names ps.toList ∨ name = p.name := by
  rw [add, Parameter.names_addTo]
  split
  · rename_i h
    constructor
    · exact Or.inl
    · rintro (h' | rfl)
      · exact h'
      · exact h
  · simp

lemma addAll_append (ps : ParameterSet) (qs rs : List Parameter) :
    ps.addAll (qs ++ rs) = (ps.addAll qs).addAll rs :=
  List.foldl_append

lemma mem_names_addAll {ps : ParameterSet} {qs : List Parameter} {name : String} :
    name ∈ names (ps.addAll qs).toList ↔ name ∈ names ps.toList ∨ name ∈ names qs := by
  induction qs generalizing ps with
  | nil => simp [addAll, names]
  | cons q qs ih =>
    have hstep : ps.addAll (q :: qs) = (ps.add q).addAll qs := rfl
    rw [hstep, ih, mem_names_add]
    simp [names, or_assoc]

lemma mem_names_union {ps qs : ParameterSet} {name : String} :
    name ∈ names (ps.union qs).toList ↔ name ∈ names ps.toList ∨ name ∈ names qs.toList :=
  mem_names_addAll

lemma mem_names_ofList {qs : List Parameter} {name : String} :
    name ∈ names (ofList qs).toList ↔ name ∈ names qs := by
  refine mem_names_addAll.trans (or_iff_right ?_)
  exact List.not_mem_nil

/-- **Adding parameters one by one gives the first mentions.** -/
theorem toList_ofList (ps : List Parameter) : (ofList ps).toList = Parameter.firstMentions ps := by
  induction ps using List.reverseRecOn with
  | nil => rfl
  | append_singleton ps p ih =>
    have hnodup : (names ps).eraseDups.Nodup := by
      have h := (ofList ps).nodup
      rw [ih] at h
      simpa [names, Parameter.firstMentions, Function.comp_def] using h
    have hstep : (ofList (ps ++ [p])).toList = Parameter.addTo (ofList ps).toList p :=
      congrArg toList (addAll_append ∅ ps [p])
    have hnames : names (ps ++ [p]) = names ps ++ [p.name] := List.map_append
    rw [hstep, ih, Parameter.firstMentions, Parameter.firstMentions, hnames,
      Parameter.eraseDups_append_one]
    rw [Parameter.addTo_map hnodup _ p fun h =>
      Parameter.mergedHint_of_not_mem fun h' => h (List.mem_eraseDups.2 h')]
    simp only [List.mem_eraseDups, Parameter.mergedHint_append]

lemma nodup_names_firstMentions (ps : List Parameter) :
    (names (Parameter.firstMentions ps)).Nodup :=
  toList_ofList ps ▸ (ofList ps).nodup

/-- The set of the first mentions. -/
def firstMentions (ps : List Parameter) : ParameterSet :=
  ⟨Parameter.firstMentions ps, nodup_names_firstMentions ps⟩

lemma ofList_eq_firstMentions (ps : List Parameter) : ofList ps = firstMentions ps :=
  ParameterSet.ext (toList_ofList ps)

end ParameterSet

end Polyglot
