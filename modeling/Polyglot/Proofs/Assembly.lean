import Polyglot.Proofs.SignatureJoin

/-!
# How a parameter set is put together

A parameter set is put together by adding single parameters and by taking in whole sets, which have
been put together in the same way. All that matters is which parameters are mentioned on the way, and
for the order of the names also when: the set is the one that comes out if the mentions are added one
by one.

* `mergedHint_below_iff`, `mergedHint_congr`: merged hints depend on which hints there are;
* `hintOf_addAll`, `names_addAll`: what steps do to the hints and to the names;
* `Assembly`, `Assembly.result_eq_ofList`: a set and its mentions;
* `Assembly.result_of_mentions`: the main statement.
-/

namespace Polyglot

namespace Hint

lemma merge_assoc (h k l : Hint) : (h.merge k).merge l = h.merge (k.merge l) := by
  cases h <;> cases k <;> cases l <;> rfl

lemma below_antisymm {h k : Hint} (hk : h.Below k) (kh : k.Below h) : h = k := by
  revert hk kh
  cases h <;> cases k <;> decide

/-- A hint is known by the hints above it. -/
lemma eq_of_below_iff {h k : Hint} (hiff : ∀ l, h.Below l ↔ k.Below l) : h = k :=
  below_antisymm ((hiff k).2 (below_refl k)) ((hiff h).1 (below_refl h))

end Hint

namespace Parameter

/-! ### Merged hints -/

/-- The merge of all hints of a name is the least hint above them. -/
theorem mergedHint_below_iff {ps : List Parameter} {name : String} {l : Hint} :
    (mergedHint ps name).Below l ↔ ∀ p ∈ ps, p.name = name → p.hint.Below l := by
  induction ps using List.reverseRecOn with
  | nil =>
    refine iff_of_true ?_ (by simp)
    exact Or.inr (Or.inl rfl)
  | append_singleton ps p ih =>
    rw [mergedHint_append]
    by_cases h : name = p.name
    · subst h
      rw [if_pos rfl, Hint.merge_below_iff, ih]
      simp [or_imp, forall_and]
    · have h' : p.name ≠ name := fun he => h he.symm
      rw [if_neg h, ih]
      simp [or_imp, forall_and, h']

/-- The order of the mentions makes no difference to the hints, nor does their number. -/
theorem mergedHint_congr {ps qs : List Parameter} (h : ∀ p, p ∈ ps ↔ p ∈ qs) (name : String) :
    mergedHint ps name = mergedHint qs name := by
  refine Hint.eq_of_below_iff fun l => ?_
  rw [mergedHint_below_iff, mergedHint_below_iff]
  simp only [h]

/-! ### One step -/

lemma hintOf_addTo (ps : List Parameter) (p : Parameter) (name : String) :
    hintOf (addTo ps p) name =
      if name = p.name then (hintOf ps name).merge p.hint else hintOf ps name := by
  induction ps with
  | nil =>
    by_cases h : p.name = name
    · simp [hintOf, find?, addTo, h, Hint.unknown_merge]
    · have h' : ¬ name = p.name := fun he => h he.symm
      simp [hintOf, find?, addTo, h, h']
  | cons q qs ih =>
    have hcons : ∀ (r : Parameter) (rs : List Parameter),
        hintOf (r :: rs) name = if r.name = name then r.hint else hintOf rs name := by
      intro r rs
      by_cases h : r.name = name
      · simp [hintOf, find?, h]
      · simp [hintOf, find?, h]
    unfold addTo
    by_cases hqp : q.name = p.name
    · rw [if_pos hqp, hcons, hcons]
      by_cases h : q.name = name
      · simp [h, ← hqp]
      · have h' : ¬ name = p.name := fun he => h (hqp.trans he.symm)
        simp [h, h']
    · rw [if_neg hqp, hcons, hcons, ih]
      by_cases h : q.name = name
      · have h' : ¬ name = p.name := fun he => hqp (h.trans he)
        simp [h, h']
      · simp [h]

lemma eraseDups_of_nodup {ns : List String} (h : ns.Nodup) : ns.eraseDups = ns := by
  induction ns using List.reverseRecOn with
  | nil => rfl
  | append_singleton ns n ih =>
    obtain ⟨hns, -, hapart⟩ := List.nodup_append.1 h
    have hn : n ∉ ns := fun hmem => hapart n hmem n (by simp) rfl
    rw [eraseDups_append_one, if_neg hn, ih hns]

lemma eraseDups_append_eraseDups (ms ns : List String) :
    (ms ++ ns.eraseDups).eraseDups = (ms ++ ns).eraseDups := by
  induction ns using List.reverseRecOn with
  | nil => rfl
  | append_singleton ns n ih =>
    rw [← List.append_assoc, eraseDups_append_one, eraseDups_append_one]
    by_cases hn : n ∈ ns
    · rw [if_pos hn, ih, if_pos (List.mem_append_right ms hn)]
    · rw [if_neg hn, ← List.append_assoc, eraseDups_append_one, ih]
      simp only [List.mem_append, List.mem_eraseDups]

end Parameter

namespace ParameterSet

open Parameter (names hintOf mergedHint)

/-- In a set each name has one hint, so there is nothing to merge. -/
lemma mergedHint_toList (ps : ParameterSet) (name : String) :
    mergedHint ps.toList name = hintOf ps.toList name := by
  by_cases hmem : name ∈ names ps.toList
  · obtain ⟨q, hq, rfl⟩ := List.mem_map.1 hmem
    rw [Parameter.hintOf_of_mem ps.nodup hq]
    refine Hint.eq_of_below_iff fun l => ?_
    rw [Parameter.mergedHint_below_iff]
    constructor
    · exact fun hall => hall q hq rfl
    · intro hbelow p hp hname
      rwa [← Parameter.hintOf_of_mem ps.nodup hp, hname, Parameter.hintOf_of_mem ps.nodup hq]
  · rw [Parameter.mergedHint_of_not_mem hmem, Parameter.hintOf_of_not_mem hmem]

/-- Parameters that are added merge their hints with those that are there. -/
theorem hintOf_addAll (ps : ParameterSet) (qs : List Parameter) (name : String) :
    hintOf (ps.addAll qs).toList name = (hintOf ps.toList name).merge (mergedHint qs name) := by
  induction qs using List.reverseRecOn with
  | nil =>
    rw [Hint.merge_comm]
    exact (Hint.unknown_merge _).symm
  | append_singleton qs q ih =>
    have hstep : (ps.addAll (qs ++ [q])).toList = Parameter.addTo (ps.addAll qs).toList q :=
      congrArg toList (addAll_append ps qs [q])
    rw [hstep, Parameter.hintOf_addTo, ih, Parameter.mergedHint_append]
    split
    · exact Hint.merge_assoc _ _ _
    · rfl

/-- The names that are there stay in front, and the new ones follow. -/
theorem names_addAll (ps : ParameterSet) (qs : List Parameter) :
    names (ps.addAll qs).toList = (names ps.toList ++ names qs).eraseDups := by
  induction qs using List.reverseRecOn with
  | nil =>
    have hnil : names ps.toList ++ names [] = names ps.toList := List.append_nil _
    rw [hnil]
    exact (Parameter.eraseDups_of_nodup ps.nodup).symm
  | append_singleton qs q ih =>
    have hstep : (ps.addAll (qs ++ [q])).toList = Parameter.addTo (ps.addAll qs).toList q :=
      congrArg toList (addAll_append ps qs [q])
    have hnames : names (qs ++ [q]) = names qs ++ [q.name] := List.map_append
    rw [hstep, Parameter.names_addTo, ih, hnames, ← List.append_assoc,
      Parameter.eraseDups_append_one]
    simp only [List.mem_eraseDups]

/-- A set is known by its names, in order, and the hints that it has for them. -/
lemma ext_hintOf {ps qs : ParameterSet} (hnames : names ps.toList = names qs.toList)
    (hhint : ∀ name, hintOf ps.toList name = hintOf qs.toList name) : ps = qs := by
  have hmap : ∀ rs : ParameterSet,
      rs.toList = (names rs.toList).map fun name => ⟨name, hintOf rs.toList name⟩ := by
    intro rs
    unfold names
    rw [List.map_map]
    refine (List.map_id rs.toList).symm.trans (List.map_congr_left fun p hp => ?_)
    rw [Function.comp_apply, Parameter.hintOf_of_mem rs.nodup hp]
    rfl
  refine ParameterSet.ext ?_
  rw [hmap ps, hmap qs, hnames]
  simp only [hhint]

/-! ### Many steps -/

lemma names_ofList (qs : List Parameter) : names (ofList qs).toList = (names qs).eraseDups :=
  names_addAll ∅ qs

lemma hintOf_ofList (qs : List Parameter) (name : String) :
    hintOf (ofList qs).toList name = mergedHint qs name :=
  (hintOf_addAll ∅ qs name).trans (Hint.unknown_merge _)

/-- It makes no difference whether parameters are added one by one or put together to a set first. -/
theorem union_ofList (ps : ParameterSet) (qs : List Parameter) :
    ps.union (ofList qs) = ps.addAll qs := by
  refine ext_hintOf ?_ fun name => ?_
  · rw [union, names_addAll, names_addAll, names_ofList, Parameter.eraseDups_append_eraseDups]
  · rw [union, hintOf_addAll, hintOf_addAll, mergedHint_toList, hintOf_ofList]

/-- A way to put a parameter set together: from nothing, by single parameters and by whole sets. -/
inductive Assembly where
  | empty
  | add (before : Assembly) (p : Parameter)
  | union (left right : Assembly)

namespace Assembly

/-- The set that is put together. -/
def result : Assembly → ParameterSet
  | empty => ∅
  | add a p => a.result.add p
  | union a b => a.result.union b.result

/-- All parameters that are ever added, in order. -/
def mentions : Assembly → List Parameter
  | empty => []
  | add a p => a.mentions ++ [p]
  | union a b => a.mentions ++ b.mentions

/-- **The mentions decide the set**, however they are grouped. -/
theorem result_eq_ofList (a : Assembly) : a.result = ofList a.mentions := by
  induction a with
  | empty => rfl
  | add a p ih =>
    show a.result.add p = ofList (a.mentions ++ [p])
    rw [ofList, addAll_append, ih]
    rfl
  | union a b iha ihb =>
    show a.result.union b.result = ofList (a.mentions ++ b.mentions)
    rw [iha, ihb, union_ofList, ofList, ofList, addAll_append]

lemma names_result (a : Assembly) : names a.result.toList = (names a.mentions).eraseDups := by
  rw [result_eq_ofList, names_ofList]

lemma hintOf_result (a : Assembly) (name : String) :
    hintOf a.result.toList name = mergedHint a.mentions name := by
  rw [result_eq_ofList, hintOf_ofList]

lemma get?_result (a : Assembly) (name : String) : a.result.get? name =
    if name ∈ names a.mentions then some ⟨name, mergedHint a.mentions name⟩ else none := by
  have hmem : name ∈ names a.result.toList ↔ name ∈ names a.mentions := by
    rw [names_result, List.mem_eraseDups]
  split
  · rename_i h
    exact Parameter.find?_eq_some_iff.2 ⟨hmem.2 h, by rw [hintOf_result]⟩
  · rename_i h
    exact Parameter.find?_eq_none_iff.2 fun h' => h (hmem.1 h')

/-- Nothing is new the second time. -/
lemma result_union_self (a : Assembly) : (union a a).result = a.result := by
  refine ext_hintOf ?_ fun name => ?_
  · have hnames : names (union a a).mentions = names a.mentions ++ names a.mentions := List.map_append
    have hnone : (names a.mentions).removeAll (names a.mentions) = [] := by
      simp [List.removeAll]
    rw [names_result, names_result, hnames, List.eraseDups_append, hnone, List.eraseDups_nil,
      List.append_nil]
  · rw [hintOf_result, hintOf_result]
    refine Parameter.mergedHint_congr (fun p => ?_) name
    show p ∈ a.mentions ++ a.mentions ↔ _
    simp

/-- **Parameter sets are unique, ordered and insensitive to how they were put together.** No name
occurs twice, the names are in the order of their first mention, and each has the merge of all hints
it was ever mentioned with. So whatever mentions the same parameters, in any order, any grouping and
any number, has the same hint for each name, and a set that is joined to itself stays what it is. -/
theorem result_of_mentions :
    (∀ a : Assembly, (names a.result.toList).Nodup ∧
      names a.result.toList = (names a.mentions).eraseDups ∧
      ∀ name, a.result.get? name =
        if name ∈ names a.mentions then some ⟨name, mergedHint a.mentions name⟩ else none) ∧
    (∀ a b : Assembly, (∀ p, p ∈ a.mentions ↔ p ∈ b.mentions) →
      ∀ name, a.result.get? name = b.result.get? name) ∧
    ∀ a : Assembly, (union a a).result = a.result := by
  refine ⟨fun a => ⟨a.result.nodup, names_result a, get?_result a⟩, ?_, result_union_self⟩
  intro a b hsame name
  have hnames : name ∈ names a.mentions ↔ name ∈ names b.mentions := by
    simp only [names, List.mem_map, hsame]
  rw [get?_result, get?_result, Parameter.mergedHint_congr hsame name]
  simp only [hnames]

/-- Two sets that are joined. -/
def joinedPair : Assembly :=
  union (add (add empty ⟨"count", .unknown⟩) ⟨"name", .string⟩)
    (add (add empty ⟨"name", .number⟩) ⟨"count", .number⟩)

/-- The same parameters one by one, in another order and with one of them twice. -/
def oneByOne : Assembly :=
  add (add (add (add (add empty ⟨"name", .number⟩) ⟨"count", .number⟩) ⟨"name", .string⟩)
    ⟨"count", .unknown⟩) ⟨"name", .number⟩

/-- The names come in another order, and have the same hints. -/
theorem result_of_mentions_regrouped :
    (∀ p, p ∈ joinedPair.mentions ↔ p ∈ oneByOne.mentions) ∧
    joinedPair.result.toList = [⟨"count", .number⟩, ⟨"name", .mixed⟩] ∧
    oneByOne.result.toList = [⟨"name", .mixed⟩, ⟨"count", .number⟩] ∧
    ∀ name, joinedPair.result.get? name = oneByOne.result.get? name := by
  have hsame : ∀ p, p ∈ joinedPair.mentions ↔ p ∈ oneByOne.mentions := by
    intro p
    simp only [joinedPair, oneByOne, mentions, List.nil_append, List.cons_append, List.mem_cons,
      List.not_mem_nil, or_false]
    grind
  exact ⟨hsame, by decide, by decide, result_of_mentions.2.1 joinedPair oneByOne hsame⟩

end Assembly

end ParameterSet

end Polyglot
