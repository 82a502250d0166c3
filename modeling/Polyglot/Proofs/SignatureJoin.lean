import Polyglot.Proofs.Gate

/-!
# Merging as a join

Signatures are ordered by their names, the hints of their names and their locales. If the names of one
signature are among the names of another, the merge of the two is the least signature above both, and
it is the same for both orders up to the order of its names. Otherwise there is no merge, and both
signatures stay what they are.

* `Hint.Below`, `Hint.merge_below_iff`: a merged hint is the least hint above two;
* `isSome_merge?_iff`: when there is a merge;
* `Join`, `join_of_merge?`: what a merge has, and in which order;
* `Join.least`, `Join.find?_eq`: it is least, and unique up to the order of its names;
* `getElem?_place_of_clash`: a signature that cannot take up another one is left as it is;
* `merge?_join`: the main statement.
-/

namespace Polyglot

open Parameter (names hintOf find?)

namespace Hint

/-- The order of hints: `unknown` is below every hint, and `mixed` is above. -/
def Below (h k : Hint) : Prop :=
  h = k ∨ h = unknown ∨ k = mixed

instance (h k : Hint) : Decidable (h.Below k) :=
  inferInstanceAs (Decidable (h = k ∨ h = unknown ∨ k = mixed))

/-- A merged hint is the least hint above two. -/
theorem merge_below_iff {h k l : Hint} : (h.merge k).Below l ↔ h.Below l ∧ k.Below l := by
  cases h <;> cases k <;> cases l <;> decide

lemma below_refl (h : Hint) : h.Below h :=
  Or.inl rfl

end Hint

namespace Parameter

lemma find?_eq_none_iff {ps : List Parameter} {name : String} :
    find? ps name = none ↔ name ∉ names ps := by
  rw [← Option.isNone_iff_eq_none, Signature.find?_isNone_iff]

/-- The parameter of a name has that name, and the hint of that name. -/
lemma find?_eq_some_iff {ps : List Parameter} {name : String} {p : Parameter} :
    find? ps name = some p ↔ name ∈ names ps ∧ p = ⟨name, hintOf ps name⟩ := by
  constructor
  · intro h
    have hname : p.name = name := by simpa using List.find?_some h
    subst hname
    refine ⟨List.mem_map_of_mem (List.mem_of_find?_eq_some h), ?_⟩
    rw [hintOf, h]
    rfl
  · rintro ⟨hmem, rfl⟩
    obtain ⟨q, hq⟩ := Option.ne_none_iff_exists'.1 fun hnone => find?_eq_none_iff.1 hnone hmem
    have hname : q.name = name := by simpa using List.find?_some hq
    subst hname
    rw [hintOf, hq]
    rfl

lemma find?_congr {ps qs : List Parameter} {name : String} (hmem : name ∈ names ps ↔ name ∈ names qs)
    (hhint : hintOf ps name = hintOf qs name) : find? ps name = find? qs name := by
  refine Option.ext fun p => ?_
  rw [find?_eq_some_iff, find?_eq_some_iff, hmem, hhint]

lemma hintOf_of_not_mem {ps : List Parameter} {name : String} (h : name ∉ names ps) :
    hintOf ps name = .unknown := by
  rw [hintOf, find?_eq_none_iff.2 h]
  rfl

end Parameter

open Parameter (Clash exceeds_iff_not_subset)

namespace Signature

variable {a b c d : Signature}

/-! ### What a merge has -/

/-- There is a merge exactly if the names of one signature are among those of the other. -/
lemma isSome_merge?_iff :
    (a.merge? b).isSome = true ↔
      names a.parameters ⊆ names b.parameters ∨ names b.parameters ⊆ names a.parameters := by
  rw [← Option.ne_none_iff_isSome, Ne, merge?_eq_none_iff, Clash, exceeds_iff_not_subset,
    exceeds_iff_not_subset, not_and_or, not_not, not_not]

/-- `c` has what `a` and `b` have together: their names, each once, with the hints and the locales of
both. The names of the contained side come first, those of `a` if both sides have the same names, and
then what the other side has beyond them. -/
structure Join (a b c : Signature) : Prop where
  distinct : (names c.parameters).Nodup
  mem_names : ∀ name,
    name ∈ names c.parameters ↔ name ∈ names a.parameters ∨ name ∈ names b.parameters
  names_of_subset : names a.parameters ⊆ names b.parameters →
    names c.parameters = names a.parameters ++
      (names b.parameters).filter (fun name => decide (name ∉ names a.parameters))
  names_of_not_subset : ¬ names a.parameters ⊆ names b.parameters →
    names c.parameters = names b.parameters ++
      (names a.parameters).filter (fun name => decide (name ∉ names b.parameters))
  hint : ∀ p ∈ c.parameters,
    p.hint = (hintOf a.parameters p.name).merge (hintOf b.parameters p.name)
  mem_usedIn : ∀ id, id ∈ c.usedIn.keys ↔ id ∈ a.usedIn.keys ∨ id ∈ b.usedIn.keys

/-- The contained side gives the first names of a merge. -/
lemma parameters_merge? (h : a.merge? b = some c) :
    (names a.parameters ⊆ names b.parameters →
      c.parameters = joinParameters a.parameters b.parameters) ∧
    (¬ names a.parameters ⊆ names b.parameters →
      c.parameters = joinParameters b.parameters a.parameters) := by
  unfold merge? at h
  split at h
  · rename_i hempty
    rw [missingFrom_isEmpty_iff] at hempty
    cases h
    exact ⟨fun _ => rfl, fun hnot => absurd hempty hnot⟩
  · rename_i hnot
    rw [missingFrom_isEmpty_iff] at hnot
    split at h
    · cases h
      exact ⟨fun hsub => absurd hsub hnot, fun _ => rfl⟩
    · cases h

theorem join_of_merge? (ha : (names a.parameters).Nodup) (hb : (names b.parameters).Nodup)
    (h : a.merge? b = some c) : Join a b c := by
  have hdistinct := nodup_names_merge? h ha hb
  refine ⟨hdistinct, fun name => mem_names_merge? h, fun hsub => ?_, fun hsub => ?_, fun p hp => ?_,
    fun id => ?_⟩
  · rw [(parameters_merge? h).1 hsub, names_joinParameters]
  · rw [(parameters_merge? h).2 hsub, names_joinParameters]
  · rw [← Parameter.hintOf_of_mem hdistinct hp, hintOf_merge? h]
  · rw [usedIn_merge? h, KeySet.mem_keys_union]

lemma Join.hintOf_eq (h : Join a b c) (name : String) :
    hintOf c.parameters name = (hintOf a.parameters name).merge (hintOf b.parameters name) := by
  by_cases hmem : name ∈ names c.parameters
  · obtain ⟨p, hp, rfl⟩ := List.mem_map.1 hmem
    rw [Parameter.hintOf_of_mem h.distinct hp, h.hint p hp]
  · -- a name that neither side has: all three hints are `unknown`
    have hnone := not_or.1 (mt (h.mem_names name).2 hmem)
    rw [Parameter.hintOf_of_not_mem hmem, Parameter.hintOf_of_not_mem hnone.1,
      Parameter.hintOf_of_not_mem hnone.2]
    rfl

/-! ### The order of signatures -/

/-- `b` has the names and the locales of `a`, and its hints are not below those of `a`. -/
structure Below (a b : Signature) : Prop where
  names : names a.parameters ⊆ names b.parameters
  hint : ∀ name, (hintOf a.parameters name).Below (hintOf b.parameters name)
  usedIn : a.usedIn.keys ⊆ b.usedIn.keys

/-- A join is above both sides, and below every signature that is. -/
theorem Join.least (h : Join a b c) (d : Signature) : c.Below d ↔ a.Below d ∧ b.Below d := by
  constructor
  · intro hd
    have hhint : ∀ name, (hintOf a.parameters name).Below (hintOf d.parameters name) ∧
        (hintOf b.parameters name).Below (hintOf d.parameters name) := by
      intro name
      rw [← Hint.merge_below_iff, ← h.hintOf_eq]
      exact hd.hint name
    constructor
    · refine ⟨fun name hname => ?_, fun name => (hhint name).1, fun id hid => ?_⟩
      · exact hd.names ((h.mem_names name).2 (Or.inl hname))
      · exact hd.usedIn ((h.mem_usedIn id).2 (Or.inl hid))
    · refine ⟨fun name hname => ?_, fun name => (hhint name).2, fun id hid => ?_⟩
      · exact hd.names ((h.mem_names name).2 (Or.inr hname))
      · exact hd.usedIn ((h.mem_usedIn id).2 (Or.inr hid))
  · rintro ⟨ha, hb⟩
    refine ⟨fun name hname => ?_, fun name => ?_, fun id hid => ?_⟩
    · rcases (h.mem_names name).1 hname with hname | hname
      · exact ha.names hname
      · exact hb.names hname
    · rw [h.hintOf_eq]
      exact Hint.merge_below_iff.2 ⟨ha.hint name, hb.hint name⟩
    · rcases (h.mem_usedIn id).1 hid with hid | hid
      · exact ha.usedIn hid
      · exact hb.usedIn hid

/-- The two sides may change places: only the order of the names may then be another one. -/
theorem Join.find?_eq (h : Join a b c) (h' : Join b a d) (name : String) :
    find? c.parameters name = find? d.parameters name := by
  refine Parameter.find?_congr ?_ ?_
  · rw [h.mem_names, h'.mem_names, or_comm]
  · rw [h.hintOf_eq, h'.hintOf_eq, Hint.merge_comm]

lemma Join.usedIn_eq (h : Join a b c) (h' : Join b a d) : c.usedIn = d.usedIn := by
  refine KeySet.ext_mem fun id => ?_
  rw [h.mem_usedIn, h'.mem_usedIn, or_comm]

end Signature

/-! ### Where there is no merge -/

/-- A signature that cannot take up another one stays where it is and as it is, whatever becomes of the
other one. -/
lemma Agreement.getElem?_place_of_clash {a b : Signature} (h : a.merge? b = none)
    {bucket : List Signature} {i : Nat} (hi : bucket[i]? = some a) :
    (place bucket b).1[i]? = some a := by
  rcases place_cases bucket b with ⟨before, t, after, merged, rfl, -, hm, he⟩ | ⟨-, he⟩
  · rw [he]
    rcases Nat.lt_trichotomy i before.length with hlt | rfl | hgt
    · rw [List.getElem?_append_left hlt] at hi ⊢
      exact hi
    · -- the place of the signature that does take it up
      rw [List.getElem?_append_right (Nat.le_refl _), Nat.sub_self, List.getElem?_cons_zero] at hi
      rw [Option.some.inj hi, h] at hm
      cases hm
    · obtain ⟨k, hk⟩ : ∃ k, i - before.length = k + 1 := ⟨i - before.length - 1, by omega⟩
      rw [List.getElem?_append_right (by omega), hk, List.getElem?_cons_succ] at hi ⊢
      exact hi
  · rw [he]
    have hlt : i < bucket.length := (List.getElem?_eq_some_iff.1 hi).1
    rw [List.getElem?_append_left hlt]
    exact hi

namespace Signature

/-- **Merging is a join, and fails without a trace.** Let two signatures have no name twice. There is a
merge exactly if the names of one are among the names of the other. If there is none, a signature stays
as it is wherever the other one is offered to it. If there is one, it has the names of both, each once
and with the merged hints, and the locales of both; the names of the contained side come first, in
their order, and then the others in theirs; and it is the least signature above both. With the sides
changed there is a merge in the same cases, with the same parameter for each name and the same
locales. -/
theorem merge?_join (a b : Signature) (ha : (names a.parameters).Nodup)
    (hb : (names b.parameters).Nodup) :
    ((a.merge? b).isSome = true ↔
      names a.parameters ⊆ names b.parameters ∨ names b.parameters ⊆ names a.parameters) ∧
    (a.merge? b = none → ∀ (bucket : List Signature) (i : Nat), bucket[i]? = some a →
      (Agreement.place bucket b).1[i]? = some a) ∧
    (∀ c, a.merge? b = some c → Join a b c ∧ ∀ d, c.Below d ↔ a.Below d ∧ b.Below d) ∧
    (a.merge? b).isSome = (b.merge? a).isSome ∧
    ∀ c d, a.merge? b = some c → b.merge? a = some d →
      (∀ name, find? c.parameters name = find? d.parameters name) ∧ c.usedIn = d.usedIn := by
  refine ⟨isSome_merge?_iff, fun h bucket i => Agreement.getElem?_place_of_clash h, fun c h => ?_, ?_,
    fun c d h h' => ?_⟩
  · have hjoin := join_of_merge? ha hb h
    exact ⟨hjoin, hjoin.least⟩
  · rw [Bool.eq_iff_iff, isSome_merge?_iff, isSome_merge?_iff]
    exact or_comm
  · have hjoin := join_of_merge? ha hb h
    have hjoin' := join_of_merge? hb ha h'
    exact ⟨hjoin.find?_eq hjoin', hjoin.usedIn_eq hjoin'⟩

def shortSignature : Signature := .ofLocale [⟨"who", .string⟩, ⟨"count", .unknown⟩] "de"

def longSignature : Signature :=
  .ofLocale [⟨"count", .number⟩, ⟨"what", .list⟩, ⟨"who", .number⟩] "en"

def otherSignature : Signature := .ofLocale [⟨"place", .unknown⟩] "it"

/-- The shorter side gives the first names whichever side it is on; a third signature fits neither. -/
theorem merge?_join_short :
    ∃ c d, shortSignature.merge? longSignature = some c ∧ longSignature.merge? shortSignature = some d ∧
      c.parameters = [⟨"who", .mixed⟩, ⟨"count", .number⟩, ⟨"what", .list⟩] ∧
      (∀ name, find? c.parameters name = find? d.parameters name) ∧ c.usedIn = d.usedIn ∧
      shortSignature.Below c ∧
      (Agreement.place [longSignature, shortSignature] otherSignature).1[1]? = some shortSignature := by
  obtain ⟨hiff, -, hjoin, hsymm, hsame⟩ :=
    merge?_join shortSignature longSignature (by decide) (by decide)
  obtain ⟨-, hclash, -⟩ := merge?_join shortSignature otherSignature (by decide) (by decide)
  obtain ⟨c, hc⟩ := Option.isSome_iff_exists.1 (hiff.2 (Or.inl (by decide)))
  obtain ⟨d, hd⟩ := Option.isSome_iff_exists.1 (hsymm.symm.trans (hiff.2 (Or.inl (by decide))))
  have hparameters : (shortSignature.merge? longSignature).map (·.parameters) =
      some [⟨"who", .mixed⟩, ⟨"count", .number⟩, ⟨"what", .list⟩] := by decide +kernel
  rw [hc] at hparameters
  refine ⟨c, d, hc, hd, Option.some.inj hparameters, (hsame c d hc hd).1, (hsame c d hc hd).2,
    (((hjoin c hc).2 c).1 ⟨fun _ h => h, fun _ => Hint.below_refl _, fun _ h => h⟩).1, ?_⟩
  exact hclash (by decide +kernel) _ 1 rfl

end Signature

end Polyglot
