import Polyglot.Proofs.Runs
import Mathlib.Data.List.Cycle

/-!
# The faults of a catalog

Resolving all messages of a catalog finds its faults, and finds them exactly. A message is noted as
cyclic if a reference to it is met while it is underway. Every message underway leads to the one whose
references are looked at, so a noted message lies on a cycle. On the other hand, once a message is
done, its references lead to messages done before it, unless they are noted, so no cycle goes without
a noted message.

* `IsCycle r c`: messages that refer to one another in a ring;
* `Takes.onCycle`: what is noted lies on a cycle;
* `Takes.grounded`: past the noted messages, references go down for a while and end;
* `Takes.count_unknown`: an unknown name is noted once for each reference to it;
* `faults_resolveAll`: the main statement.
-/

namespace Polyglot

/-- The name that a part refers to. -/
def Part.reference? : Part → Option String
  | .reference name => some name
  | _ => none

/-- The names that a content refers to, one for each reference. -/
def referenceNames (content : List Part) : List String :=
  content.filterMap Part.reference?

/-- The names that a message still refers to, one for each reference. -/
def Entry.references (e : Entry) : List String :=
  match e.stage with
  | .waiting content _ => referenceNames content
  | _ => []

@[simp] lemma referenceNames_reference (name : String) (ps : List Part) :
    referenceNames (.reference name :: ps) = name :: referenceNames ps := rfl

lemma referenceNames_keep {p : Part} (h : p.isReference = false) (ps : List Part) :
    referenceNames (p :: ps) = referenceNames ps := by
  cases p with
  | text value => rfl
  | parameter name format => rfl
  | reference name => cases h

/-- The message that leads back to itself. -/
def ReferenceFault.cyclic? : ReferenceFault → Option String
  | .cyclic name => some name
  | .unknown _ => none

namespace Resolver

open Relation (TransGen ReflTransGen)

/-- Resolvers that messages have been registered in, and nothing else has been done to. -/
inductive Filled : Resolver → Prop where
  | empty : Filled {}
  | insert {r r' : Resolver} {name : String} {v : Visibility} {content : List Part}
      {own : ParameterSet} (h : Filled r) (hi : r.insert? name v content own = some r') : Filled r'

/-- Messages that refer to one another in a ring, each of them to the next. -/
def IsCycle (r : Resolver) (c : Cycle String) : Prop :=
  c ≠ .nil ∧ c.Nodup ∧ c.Chain r.Refers

/-- The names that are referred to by messages that wait, one for each reference. -/
def openReferences (r : Resolver) : List String :=
  r.entries.entries.flatMap fun e => e.2.references

/-- The names that have been noted as leading back to themselves, in order. -/
def cyclicNames (faults : List ReferenceFault) : List String :=
  faults.filterMap ReferenceFault.cyclic?

theorem Filled.fresh {r : Resolver} (h : r.Filled) : r.Fresh := by
  induction h with
  | empty => exact fresh_empty
  | insert _ hi ih => exact fresh_insert? ih hi

/-- Registering messages notes nothing. -/
theorem Filled.unnoted {r : Resolver} (h : r.Filled) : r.faults = [] ∧ r.cyclic = [] := by
  induction h with
  | empty => exact ⟨rfl, rfl⟩
  | insert _ hi ih =>
    unfold insert? at hi
    split at hi
    · cases hi
    · cases hi
      exact ih

/-! ### What is noted, is noted once -/

/-- The cyclic names among the faults are those that are known to have been noted. -/
structure Noted (r : Resolver) : Prop where
  faults : cyclicNames r.faults = r.cyclic.reverse
  once : r.cyclic.Nodup

theorem Noted.noteUnknown {r : Resolver} (h : r.Noted) (name : String) :
    (r.noteUnknown name).Noted := by
  refine ⟨?_, h.once⟩
  unfold Resolver.noteUnknown cyclicNames
  rw [List.filterMap_append]
  exact (List.append_nil _).trans h.faults

theorem Noted.noteCycle {r : Resolver} (h : r.Noted) (name : String) : (r.noteCycle name).Noted := by
  unfold Resolver.noteCycle
  split
  · exact h
  · rename_i hnew
    refine ⟨?_, List.nodup_cons.2 ⟨by simpa using hnew, h.once⟩⟩
    unfold cyclicNames
    rw [List.filterMap_append, List.reverse_cons]
    exact congrArg (· ++ [name]) h.faults

theorem Takes.noted {t t' : Splice} {ps : List Part} (h : Takes t ps t') (hn : t.resolver.Noted) :
    t'.resolver.Noted := by
  induction h with
  | nil => exact hn
  | keep _ _ ih => exact ih hn
  | unknown _ _ ih => exact ih (hn.noteUnknown _)
  | done _ _ ih => exact ih hn
  | underway _ _ ih => exact ih (hn.noteCycle _)
  | waiting _ _ _ ihinner ihrest =>
    have hinner := ihinner ⟨hn.faults, hn.once⟩
    exact ihrest ⟨hinner.faults, hinner.once⟩

/-! ### What is noted lies on a cycle -/

/-- A path without detours. -/
lemma exists_nodup_isChain {α : Type} {R : α → α → Prop} {a b : α} (h : ReflTransGen R a b) :
    ∃ l, (a :: l).Nodup ∧ (a :: l).IsChain R ∧ (a :: l).getLast (List.cons_ne_nil a l) = b := by
  induction h using ReflTransGen.head_induction_on with
  | refl => exact ⟨[], by simp, .singleton b, rfl⟩
  | @head a c hac _ ih =>
    obtain ⟨l, hnodup, hchain, hlast⟩ := ih
    by_cases ha : a ∈ c :: l
    · -- the path has been here before, so what lies between is left out
      obtain ⟨before, after, he⟩ := List.append_of_mem ha
      refine ⟨after, ?_, ?_, ?_⟩
      · rw [he] at hnodup
        exact (List.nodup_append.1 hnodup).2.1
      · rw [he] at hchain
        exact hchain.right_of_append
      · simp only [he] at hlast
        rwa [List.getLast_append_of_ne_nil _ (List.cons_ne_nil a after)] at hlast
    · exact ⟨c :: l, List.nodup_cons.2 ⟨ha, hnodup⟩, .cons_cons hac hchain, by simpa using hlast⟩

lemma exists_isCycle {r : Resolver} {name : String} (h : TransGen r.Refers name name) :
    ∃ c, r.IsCycle c ∧ name ∈ c := by
  obtain ⟨next, hnext, hback⟩ := TransGen.head'_iff.1 h
  obtain ⟨l, hnodup, hchain, hlast⟩ := exists_nodup_isChain hback
  refine ⟨(next :: l : List String), ⟨by simp, hnodup, ?_⟩, ?_⟩
  · rw [Cycle.chain_ne_nil _ (List.cons_ne_nil next l), hlast]
    exact .cons_cons hnext hchain
  · have hmem := List.getLast_mem (List.cons_ne_nil next l)
    rwa [hlast] at hmem

/-- **What is noted lies on a cycle**, if every message that is underway leads to all messages that
the parts refer to. -/
theorem Takes.onCycle {r : Resolver} {t t' : Splice} {ps : List Part} (h : Takes t ps t')
    (hr : Follows r t.resolver)
    (hlead : ∀ u, t.resolver.Underway u → ∀ other, .reference other ∈ ps → TransGen r.Refers u other)
    (hc : ∀ name ∈ t.resolver.cyclic, TransGen r.Refers name name) :
    ∀ name ∈ t'.resolver.cyclic, TransGen r.Refers name name := by
  induction h with
  | nil => exact hc
  | keep _ _ ih =>
    exact ih hr (fun u hu other ho => hlead u hu other (List.mem_cons_of_mem _ ho)) hc
  | unknown _ _ ih =>
    refine ih (hr.trans (proceeds_noteUnknown _ _).toFollows) (fun u hu other ho => ?_) hc
    exact hlead u hu other (List.mem_cons_of_mem _ ho)
  | done _ _ ih =>
    exact ih hr (fun u hu other ho => hlead u hu other (List.mem_cons_of_mem _ ho)) hc
  | @underway t _ name v ps hf _ ih =>
    refine ih (hr.trans (proceeds_noteCycle _ _).toFollows) (fun u hu other ho => ?_) fun other ho => ?_
    · exact hlead u (underway_noteCycle.1 hu) other (List.mem_cons_of_mem _ ho)
    · rcases mem_cyclic_noteCycle.1 ho with rfl | ho
      · exact hlead other ⟨v, hf⟩ other (List.mem_cons_self ..)
      · exact hc other ho
  | @waiting t u t' name v content ps own hf inner _ ihinner ihrest =>
    have hp := inner.proceeds.takeUp (m := ⟨v, normalize u.content, u.parameters⟩) hf
    have hname := hr.waiting name v content own hf
    have hrefers : ∀ other, .reference other ∈ content → r.Refers name other :=
      fun other ho => ⟨v, content, own, hname, ho⟩
    have hinner := ihinner (hr.setStage hname rfl)
      (fun x hx other ho => by
        rcases underway_setStage_underway.1 hx with rfl | hx
        · exact .single (hrefers other ho)
        · exact .tail (hlead x hx name (List.mem_cons_self ..)) (hrefers other ho))
      hc
    refine ihrest (hr.trans hp.toFollows) (fun x hx other ho => ?_) hinner
    exact hlead x ((hp.underway x).1 hx) other (List.mem_cons_of_mem _ ho)

/-! ### No cycle goes unnoted -/

/-- A reference to a message that has not been noted. -/
def Evades (r s : Resolver) (name other : String) : Prop :=
  r.Refers name other ∧ other ∉ s.cyclic

/-- From a message that is done one cannot go on for ever past the noted ones. -/
def Grounded (r s : Resolver) : Prop :=
  ∀ name v m, s.entries.find? name = some ⟨v, .done m⟩ → Acc (fun a b => r.Evades s b a) name

lemma acc_of_unregistered {r s : Resolver} {name : String} (h : r.entries.find? name = none) :
    Acc (fun a b => r.Evades s b a) name := by
  refine .intro name fun other ho => ?_
  obtain ⟨⟨v, content, own, hf, -⟩, -⟩ := ho
  rw [h] at hf
  cases hf

theorem Grounded.noteCycle {r s : Resolver} (h : Grounded r s) (name : String) :
    Grounded r (s.noteCycle name) := by
  intro other v m hf
  rw [entries_noteCycle] at hf
  refine Subrelation.accessible (fun {a b} hab => ?_) (h other v m hf)
  exact ⟨hab.1, fun hc => hab.2 (mem_cyclic_noteCycle.2 (Or.inr hc))⟩

/-- A message that is done with leads to such as were done before, unless they are noted. -/
theorem Grounded.setDone {r s : Resolver} (h : Grounded r s) {name : String} {v : Visibility}
    {m : Message} (hname : ∀ other, r.Refers name other → other ∈ s.cyclic ∨
      r.entries.find? other = none ∨ ∃ v m, s.entries.find? other = some ⟨v, .done m⟩) :
    Grounded r (s.setStage name v (.done m)) := by
  intro other v' m' hf
  rw [find?_setStage] at hf
  split at hf
  · rename_i he
    subst he
    refine .intro other fun next hnext => ?_
    rcases hname next hnext.1 with hc | hnone | ⟨v, m, hdone⟩
    · exact absurd hc hnext.2
    · exact acc_of_unregistered hnone
    · exact h next v m hdone
  · exact h other v' m' hf

theorem Takes.grounded {r : Resolver} {t t' : Splice} {ps : List Part} (h : Takes t ps t')
    (hr : Follows r t.resolver) (hg : Grounded r t.resolver) : Grounded r t'.resolver := by
  induction h with
  | nil => exact hg
  | keep _ _ ih => exact ih hr hg
  | unknown _ _ ih => exact ih (hr.trans (proceeds_noteUnknown _ _).toFollows) hg
  | done _ _ ih => exact ih hr hg
  | underway _ _ ih => exact ih (hr.trans (proceeds_noteCycle _ _).toFollows) (hg.noteCycle _)
  | @waiting t u t' name v content ps own hf inner _ ihinner ihrest =>
    have hp := inner.proceeds.takeUp (m := ⟨v, normalize u.content, u.parameters⟩) hf
    have hname := hr.waiting name v content own hf
    have hstart : Follows r (t.resolver.setStage name v .underway) := hr.setStage hname rfl
    have hinner : Grounded r u.resolver := by
      refine ihinner hstart fun other v' m hdone => ?_
      rw [find?_setStage] at hdone
      split at hdone
      · cases hdone
      · exact hg other v' m hdone
    refine ihrest (hr.trans hp.toFollows) (hinner.setDone fun other hrefers => ?_)
    obtain ⟨v', content', own', hname', hmem⟩ := hrefers
    rw [hname] at hname'
    cases hname'
    obtain ⟨hwait, hcyclic⟩ := inner.settles hmem
    rcases stage_cases u.resolver other with hf' | hf' | hf' | ⟨v', content', own', hf'⟩
    · exact Or.inr (Or.inl ((hstart.trans inner.proceeds.toFollows).known other |>.1 hf'))
    · exact Or.inr (Or.inr hf')
    · exact Or.inl (hcyclic ((inner.proceeds.underway other).1 hf'))
    · exact absurd hf' (hwait v' content' own')

/-- If the references that evade the noted messages go down, then every cycle has a noted message. -/
lemma IsCycle.exists_noted {r s : Resolver} (hwf : WellFounded fun a b => r.Evades s b a)
    {c : Cycle String} (hc : r.IsCycle c) : ∃ name ∈ c, name ∈ s.cyclic := by
  obtain ⟨hne, -, hchain⟩ := hc
  by_contra hnone
  have hevades : c.Chain (TransGen (r.Evades s)) := by
    induction c using Cycle.induction_on with
    | nil => exact Cycle.Chain.nil _
    | cons name names =>
      rw [Cycle.chain_coe_cons] at hchain ⊢
      refine hchain.imp_of_mem_imp fun a b _ hb hab => .single ⟨hab, fun hnoted => hnone ⟨b, ?_, hnoted⟩⟩
      simpa [or_comm] using hb
  have : Std.Irrefl (TransGen (r.Evades s)) :=
    ⟨fun name hloop => hwf.transGen.irrefl.irrefl name (Relation.transGen_swap.1 hloop)⟩
  exact hne hevades.eq_nil_of_irrefl

/-! ### Unknown names -/

lemma ne_of_registered {r : Resolver} {name other : String} {e : Entry}
    (hname : r.entries.find? name = some e) (hother : r.entries.find? other = none) :
    name ≠ other := by
  rintro rfl
  rw [hother] at hname
  cases hname

lemma count_openReferences_setStage {r : Resolver} {name : String} {e : Entry}
    (hf : r.entries.find? name = some e) (v : Visibility) (stage : Stage) (other : String) :
    (r.setStage name v stage).openReferences.count other + e.references.count other =
      r.openReferences.count other + (Entry.mk v stage).references.count other := by
  obtain ⟨before, after, he, hins⟩ := KeyMap.entries_insert_replace r.entries hf ⟨v, stage⟩
  unfold openReferences Resolver.setStage
  rw [he, hins]
  simp only [List.flatMap_append, List.flatMap_cons, List.count_append]
  omega

lemma count_unknown_noteUnknown (r : Resolver) (name other : String) :
    (r.noteUnknown name).faults.count (.unknown other) =
      r.faults.count (.unknown other) + [name].count other := by
  simp [noteUnknown, List.count_singleton]

lemma count_unknown_noteCycle (r : Resolver) (name other : String) :
    (r.noteCycle name).faults.count (.unknown other) = r.faults.count (.unknown other) := by
  unfold noteCycle
  split
  · rfl
  · simp

lemma openReferences_noteCycle (r : Resolver) (name : String) :
    (r.noteCycle name).openReferences = r.openReferences := by
  unfold openReferences
  rw [entries_noteCycle]

/-- **An unknown name is noted once for each reference to it.** What has been noted and what is still
open add up to the same number, but for the references that are taken in from outside. -/
theorem Takes.count_unknown {t t' : Splice} {ps : List Part} (h : Takes t ps t') {other : String}
    (hother : t.resolver.entries.find? other = none) :
    t'.resolver.faults.count (.unknown other) + t'.resolver.openReferences.count other =
      t.resolver.faults.count (.unknown other) + t.resolver.openReferences.count other +
        (referenceNames ps).count other := by
  induction h with
  | nil => rfl
  | keep hp _ ih => rw [ih hother, referenceNames_keep hp]
  | @unknown t t' name ps _ _ ih =>
    have hfaults := count_unknown_noteUnknown t.resolver name other
    have hopen : (t.resolver.noteUnknown name).openReferences = t.resolver.openReferences := rfl
    rw [ih hother, hfaults, hopen, referenceNames_reference, List.count_cons, List.count_cons,
      List.count_nil]
    omega
  | done hf _ ih =>
    rw [ih hother, referenceNames_reference, List.count_cons_of_ne (ne_of_registered hf hother)]
  | underway hf _ ih =>
    rw [ih (by rw [entries_noteCycle]; exact hother), referenceNames_reference,
      List.count_cons_of_ne (ne_of_registered hf hother), openReferences_noteCycle,
      count_unknown_noteCycle]
  | @waiting t u t' name v content ps own hf inner _ ihinner ihrest =>
    have hne := ne_of_registered hf hother
    have hp := inner.proceeds.takeUp (m := ⟨v, normalize u.content, u.parameters⟩) hf
    obtain ⟨v', hunderway⟩ := (inner.proceeds.underway name).2 ⟨v, by rw [find?_setStage, if_pos rfl]⟩
    -- the references of `name` are open until it is taken up, and taken in from then on
    have htaken : (t.resolver.setStage name v .underway).openReferences.count other +
        (referenceNames content).count other = t.resolver.openReferences.count other :=
      count_openReferences_setStage hf v .underway other
    have hdone : (u.resolver.setStage name v
        (.done ⟨v, normalize u.content, u.parameters⟩)).openReferences.count other =
          u.resolver.openReferences.count other :=
      count_openReferences_setStage hunderway v _ other
    have hinner : u.resolver.faults.count (.unknown other) + u.resolver.openReferences.count other =
        t.resolver.faults.count (.unknown other) +
          (t.resolver.setStage name v .underway).openReferences.count other +
            (referenceNames content).count other :=
      ihinner (by rw [find?_setStage, if_neg hne.symm]; exact hother)
    have hrest : t'.resolver.faults.count (.unknown other) + t'.resolver.openReferences.count other =
        u.resolver.faults.count (.unknown other) + (u.resolver.setStage name v
          (.done ⟨v, normalize u.content, u.parameters⟩)).openReferences.count other +
            (referenceNames ps).count other :=
      ihrest ((hp.known other).2 hother)
    rw [referenceNames_reference, List.count_cons_of_ne hne]
    omega

/-- A registered name is never noted as unknown. -/
theorem Takes.count_registered {t t' : Splice} {ps : List Part} (h : Takes t ps t') {other : String}
    (hother : t.resolver.entries.find? other ≠ none) :
    t'.resolver.faults.count (.unknown other) = t.resolver.faults.count (.unknown other) := by
  induction h with
  | nil => rfl
  | keep _ _ ih => exact ih hother
  | @unknown t t' name ps hf _ ih =>
    have hne : name ≠ other := fun he => hother (he ▸ hf)
    rw [ih hother, count_unknown_noteUnknown, List.count_cons_of_ne hne]
    rfl
  | done _ _ ih => exact ih hother
  | underway _ _ ih =>
    rw [ih (by rw [entries_noteCycle]; exact hother), count_unknown_noteCycle]
  | @waiting t u t' name v content ps own hf inner _ ihinner ihrest =>
    have hp := inner.proceeds.takeUp (m := ⟨v, normalize u.content, u.parameters⟩) hf
    have hstart : Follows t.resolver (t.resolver.setStage name v .underway) :=
      (Follows.refl t.resolver).setStage hf rfl
    rw [ihrest fun hnone => hother ((hp.known other).1 hnone)]
    exact ihinner fun hnone => hother ((hstart.known other).1 hnone)

/-! ### All messages of a catalog -/

section All

variable {r : Resolver} (hr : r.Filled)
include hr

lemma Filled.noted_resolveAll : r.resolveAll.2.Noted := by
  obtain ⟨t, ht, he⟩ := takes_resolveAll r
  obtain ⟨hfaults, hcyclic⟩ := hr.unnoted
  rw [← he]
  refine ht.noted ⟨?_, ?_⟩
  · rw [hfaults, hcyclic]
    rfl
  · rw [hcyclic]
    exact List.nodup_nil

lemma Filled.mem_cyclicNames {name : String} :
    name ∈ cyclicNames r.resolveAll.2.faults ↔ name ∈ r.resolveAll.2.cyclic := by
  rw [hr.noted_resolveAll.faults, List.mem_reverse]

lemma Filled.onCycle {name : String} (hname : name ∈ r.resolveAll.2.cyclic) :
    TransGen r.Refers name name := by
  obtain ⟨t, ht, he⟩ := takes_resolveAll r
  rw [← he] at hname
  refine ht.onCycle (Follows.refl r) (fun u hu => absurd hu (hr.fresh.not_underway u)) ?_ name hname
  rw [hr.unnoted.2]
  exact fun other ho => by cases ho

lemma Filled.done_resolveAll {name : String} (hname : r.entries.find? name ≠ none) :
    ∃ v m, r.resolveAll.2.entries.find? name = some ⟨v, .done m⟩ := by
  obtain ⟨t, ht, he⟩ := takes_resolveAll r
  rw [← he]
  refine ht.done_of_idle hr.fresh.not_underway (List.mem_map.2 ⟨name, ?_, rfl⟩) hname
  exact (KeyMap.mem_keys_iff _ _).2 hname

lemma Filled.wellFounded_evades : WellFounded fun a b => r.Evades r.resolveAll.2 b a := by
  refine ⟨fun name => ?_⟩
  by_cases hname : r.entries.find? name = none
  · exact acc_of_unregistered hname
  · obtain ⟨v, m, hdone⟩ := hr.done_resolveAll hname
    obtain ⟨t, ht, he⟩ := takes_resolveAll r
    rw [← he] at hdone ⊢
    refine ht.grounded (Follows.refl r) (fun other v m hother => ?_) name v m hdone
    cases hr.fresh other _ hother

/-- When all is done, no reference is open. -/
lemma Filled.openReferences_resolveAll : r.resolveAll.2.openReferences = [] := by
  obtain ⟨t, ht, he⟩ := takes_resolveAll r
  refine List.flatMap_eq_nil_iff.2 fun ⟨name, e⟩ hmem => ?_
  have hf := (KeyMap.mem_entries_iff _ _ _).1 hmem
  have hname : r.entries.find? name ≠ none := by
    intro hnone
    rw [← he, (ht.proceeds.known name).2 hnone] at hf
    cases hf
  obtain ⟨v, m, hdone⟩ := hr.done_resolveAll hname
  rw [hdone] at hf
  cases hf
  rfl

lemma Filled.count_unknown_resolveAll (name : String) :
    r.resolveAll.2.faults.count (.unknown name) =
      if r.entries.contains name then 0 else r.openReferences.count name := by
  obtain ⟨t, ht, he⟩ := takes_resolveAll r
  have hstart : r.faults.count (.unknown name) = 0 := by rw [hr.unnoted.1]; rfl
  split
  · rename_i hname
    obtain ⟨e, hf⟩ := (KeyMap.contains_iff _ _).1 hname
    rw [← he, ht.count_registered (by simp [hf]), hstart]
  · rename_i hname
    have hnone : r.entries.find? name = none := by
      by_contra hf
      exact hname ((KeyMap.contains_iff _ _).2 (Option.ne_none_iff_exists'.1 hf))
    have hnames : (referenceNames (r.names.map .reference)).count name = 0 := by
      have hall : referenceNames (r.names.map .reference) = r.names := by
        unfold referenceNames
        rw [List.filterMap_map]
        exact List.filterMap_some
      rw [hall, List.count_eq_zero]
      exact fun hmem => (KeyMap.mem_keys_iff _ _).1 hmem hnone
    have hcount := ht.count_unknown hnone
    rw [he, hr.openReferences_resolveAll, hnames, hstart] at hcount
    simpa using hcount

end All

/-- **The faults of a catalog are found exactly.** The names noted as leading back to themselves are
different, each of them lies on a cycle of references, and on every cycle there is one of them, so that
there is none if there is no cycle. An unknown name is noted once for each reference to it, and a
registered name is never noted as unknown. -/
theorem faults_resolveAll {r : Resolver} (hr : r.Filled) :
    (cyclicNames r.resolveAll.2.faults).Nodup ∧
    (∀ name ∈ cyclicNames r.resolveAll.2.faults, ∃ c, r.IsCycle c ∧ name ∈ c) ∧
    (∀ c, r.IsCycle c → ∃ name ∈ c, name ∈ cyclicNames r.resolveAll.2.faults) ∧
    (r.Acyclic → cyclicNames r.resolveAll.2.faults = []) ∧
    ∀ name, r.resolveAll.2.faults.count (.unknown name) =
      if r.entries.contains name then 0 else r.openReferences.count name := by
  refine ⟨?_, fun name hname => ?_, fun c hc => ?_, fun hacyclic => ?_, hr.count_unknown_resolveAll⟩
  · rw [hr.noted_resolveAll.faults]
    exact List.nodup_reverse.2 hr.noted_resolveAll.once
  · exact exists_isCycle (hr.onCycle (hr.mem_cyclicNames.1 hname))
  · obtain ⟨name, hmem, hnoted⟩ := hc.exists_noted hr.wellFounded_evades
    exact ⟨name, hmem, hr.mem_cyclicNames.2 hnoted⟩
  · refine List.eq_nil_iff_forall_not_mem.2 fun name hname => ?_
    exact hacyclic name (hr.onCycle (hr.mem_cyclicNames.1 hname))

/-- Two rings that share a message, one of whose messages refers to itself, and a name that nobody has
registered. -/
def tangle : Resolver where
  entries := .ofList
    [("a", ⟨.exposed, .waiting [.reference "b", .reference "c"] ∅⟩),
      ("b", ⟨.exposed, .waiting [.text "B", .reference "a", .reference "d"] ∅⟩),
      ("c", ⟨.hidden, .waiting [.reference "d", .reference "c", .reference "a", .reference "d"] ∅⟩)]

lemma tangle_filled : tangle.Filled := by
  have h1 := Filled.empty.insert
    (show insert? {} "a" .exposed [.reference "b", .reference "c"] ∅ = some _ from rfl)
  have h2 := h1.insert
    (show insert? _ "b" .exposed [.text "B", .reference "a", .reference "d"] ∅ = some _ from rfl)
  exact h2.insert (show insert? _ "c" .hidden [.reference "d", .reference "c", .reference "a",
    .reference "d"] ∅ = some tangle from rfl)

theorem faults_resolveAll_tangle :
    tangle.Filled ∧
    tangle.resolveAll.2.faults = [.cyclic "a", .unknown "d", .unknown "d", .cyclic "c", .unknown "d"] ∧
    (cyclicNames tangle.resolveAll.2.faults).Nodup ∧
    (∀ name ∈ cyclicNames tangle.resolveAll.2.faults, ∃ c, tangle.IsCycle c ∧ name ∈ c) ∧
    (∀ c, tangle.IsCycle c → ∃ name ∈ c, name ∈ cyclicNames tangle.resolveAll.2.faults) ∧
    (tangle.Acyclic → cyclicNames tangle.resolveAll.2.faults = []) ∧
    ∀ name, tangle.resolveAll.2.faults.count (.unknown name) =
      if tangle.entries.contains name then 0 else tangle.openReferences.count name :=
  ⟨tangle_filled, by decide +kernel, faults_resolveAll tangle_filled⟩

end Resolver

end Polyglot
