import Polyglot.Issue
import Mathlib.Data.List.Sort

/-!
# The order of issues

Issues are compared in a chain of steps: whether they are about a file, the file, the position, the
rule if there is no file, and the message. So their order is a total preorder. Where different issues
never compare equal, it does not matter in which order they are collected.

* `Issue.compare_eq_chain`: the order as a chain;
* `Issue.compare_eq_eq_iff`: what issues that compare equal have in common;
* `Issue.sort_eq_self`, `Issue.sort_eq_of_perm`, `Issue.map_sort_eq_of_perm`: what sorting does.
-/

namespace Polyglot

lemma Rule.rank_injective : Function.Injective Rule.rank := by
  intro a b h
  cases a <;> cases b <;> first | rfl | cases h

namespace Position

instance : Ord Position :=
  ⟨Position.compare⟩

instance : Std.TransOrd Position :=
  inferInstanceAs (Std.TransCmp (compareLex (compareOn line) (compareOn column)))

lemma compare_eq_eq_iff {p q : Position} : p.compare q = .eq ↔ p = q := by
  obtain ⟨line, column⟩ := p
  obtain ⟨line', column'⟩ := q
  simp [Position.compare, Ordering.then_eq_eq]

end Position

namespace Issue

lemma comparePositions_eq (p q : Option Position) : comparePositions p q = compare p q := by
  cases p <;> cases q <;> rfl

lemma comparePositions_eq_eq_iff {p q : Option Position} : comparePositions p q = .eq ↔ p = q := by
  cases p <;> cases q <;> simp [comparePositions, Position.compare_eq_eq_iff]

/-- Whether an issue is about no file. -/
def isCommon (i : Issue) : Bool :=
  i.location.path?.isNone

/-- The place of the rule, for issues about no file. -/
def commonRank (i : Issue) : Nat :=
  match i.location.path? with
  | none => i.rule.rank
  | some _ => 0

lemma position?_eq_none {i : Issue} (h : i.location.path? = none) :
    i.location.position? = none := by
  cases hloc : i.location with
  | everywhere => rfl
  | source path position line => rw [hloc] at h; cases h
  | file path => rw [hloc] at h; cases h

/-- The order is a chain of comparisons. -/
lemma compare_eq_chain : Issue.compare =
    compareLex (compareOn isCommon) (compareLex (compareOn (·.location.path?))
      (compareLex (compareOn (·.location.position?))
        (compareLex (compareOn commonRank) (compareOn message)))) := by
  funext a b
  simp only [Issue.compare, compareLex, compareOn, commonRank, isCommon, comparePositions_eq]
  cases ha : a.location.path? with
  | none =>
    cases hb : b.location.path? with
    | none =>
      rw [position?_eq_none ha, position?_eq_none hb]
      rfl
    | some q => rfl
  | some p =>
    cases hb : b.location.path? with
    | none => rfl
    | some q => exact Ordering.then_assoc _ _ _

instance : Std.TransCmp Issue.compare := by
  rw [compare_eq_chain]
  infer_instance

lemma compare_swap (a b : Issue) : Issue.compare b a = (Issue.compare a b).swap :=
  Std.OrientedCmp.eq_swap

/-- Issues that compare equal have their file, position and message in common, and their rule if they
are about no file. -/
lemma compare_eq_eq_iff {a b : Issue} : Issue.compare a b = .eq ↔
    a.location.path? = b.location.path? ∧ a.location.position? = b.location.position? ∧
      a.message = b.message ∧ (a.location.path? = none → a.rule = b.rule) := by
  unfold Issue.compare
  cases ha : a.location.path? with
  | none =>
    cases hb : b.location.path? with
    | none =>
      rw [position?_eq_none ha, position?_eq_none hb]
      simp [Ordering.then_eq_eq, Rule.rank_injective.eq_iff, and_comm]
    | some q => simp
  | some p =>
    cases hb : b.location.path? with
    | none => simp
    | some q => simp [Ordering.then_eq_eq, comparePositions_eq_eq_iff, and_assoc]

/-! ### Sorting -/

/-- A list in which no issue comes before the ones in front of it. -/
def Sorted (issues : List Issue) : Prop :=
  issues.Pairwise fun a b => (Issue.compare a b).isLE

lemma sorted_sort (issues : List Issue) : Sorted (sort issues) := by
  refine List.pairwise_mergeSort (fun a b c => Std.TransCmp.isLE_trans) (fun a b => ?_) issues
  rw [Bool.or_eq_true, compare_swap a b]
  cases Issue.compare a b <;> simp

lemma sort_eq_self {issues : List Issue} (h : Sorted issues) : sort issues = issues :=
  List.mergeSort_of_pairwise h

/-- Where only equal issues compare equal, it does not matter how they are collected. -/
theorem sort_eq_of_perm {issues issues' : List Issue} (hperm : issues'.Perm issues)
    (hties : ∀ i ∈ issues, ∀ j ∈ issues, Issue.compare i j = .eq → i = j) :
    sort issues' = sort issues := by
  have hsorted : (sort issues').Perm issues := (List.mergeSort_perm _ _).trans hperm
  refine List.Perm.eq_of_pairwise ?_ (sorted_sort issues') (sorted_sort issues)
    (hsorted.trans (List.mergeSort_perm _ _).symm)
  intro i j hi hj hij hji
  exact hties i (hsorted.mem_iff.1 hi) j ((List.mergeSort_perm _ _).mem_iff.1 hj)
    (Std.OrientedCmp.isLE_antisymm hij hji)

/-- The same for what is left of issues, if it is enough for the order. -/
theorem map_sort_eq_of_perm {f : Issue → Issue}
    (hf : ∀ i j, Issue.compare (f i) (f j) = Issue.compare i j)
    {issues issues' : List Issue} (hperm : issues'.Perm issues)
    (hties : ∀ i ∈ issues, ∀ j ∈ issues, Issue.compare i j = .eq → f i = f j) :
    (sort issues').map f = (sort issues).map f := by
  have hmap : ∀ issues : List Issue, (sort issues).map f = sort (issues.map f) := fun issues =>
    List.map_mergeSort fun i _ j _ => by rw [hf]
  rw [hmap, hmap]
  refine sort_eq_of_perm (hperm.map f) ?_
  intro a ha b hb h
  obtain ⟨i, hi, rfl⟩ := List.mem_map.1 ha
  obtain ⟨j, hj, rfl⟩ := List.mem_map.1 hb
  exact hties i hi j hj ((hf i j).symm.trans h)

end Issue

end Polyglot
