import Polyglot.Proofs.Parameters
import Polyglot.Proofs.Resolving
import Mathlib.Logic.Relation

/-!
# Resolving is plain expansion

Where no chain of references leads back to its start and every name is registered, resolving a
message gives what one gets by writing it out: each reference replaced by the written-out content of
the message it names, over and over, and the outcome normalized once. Which messages were resolved
before, and in which order, has no bearing on it.

* `Expands r parts written gathered`: the plain expansion of some parts;
* `Memo r s`: the resolver `s` has come from `r` by resolving, and what it has kept are expansions;
* `resolve_memo`: resolving keeps the memo and finds no fault;
* `resolve_eq_expansion`: the main statement.
-/

namespace Polyglot.Resolver

open Relation (TransGen)

/-! ### References -/

/-- Every message waits, as it does once it is registered. -/
def Fresh (r : Resolver) : Prop :=
  ∀ name e, r.entries.find? name = some e → e.isWaiting = true

/-- The message `name` has a reference to `other`. -/
def Refers (r : Resolver) (name other : String) : Prop :=
  ∃ v content own, r.entries.find? name = some ⟨v, .waiting content own⟩ ∧
    Part.reference other ∈ content

/-- No chain of references leads back to where it began. -/
def Acyclic (r : Resolver) : Prop :=
  ∀ name, ¬ TransGen r.Refers name name

/-- Every name that is referred to is registered. -/
def Closed (r : Resolver) : Prop :=
  ∀ name other, r.Refers name other → r.entries.contains other = true

theorem fresh_empty : Fresh {} := by
  intro name e h
  cases h

theorem fresh_insert? {r r' : Resolver} (h : r.Fresh) {name : String} {v : Visibility}
    {content : List Part} {own : ParameterSet} (hi : r.insert? name v content own = some r') :
    r'.Fresh := by
  intro other e he
  unfold insert? at hi
  split at hi
  · cases hi
  · cases hi
    rw [KeyMap.find?_insert] at he
    split at he
    · cases he
      rfl
    · exact h other e he

/-- References that go down in some rank have no cycle. -/
theorem acyclic_of_rank {r : Resolver} (rank : String → Nat)
    (h : ∀ name other, r.Refers name other → rank other < rank name) : r.Acyclic := by
  have hdown : ∀ name other, TransGen r.Refers name other → rank other < rank name := by
    intro name other hto
    induction hto with
    | single h1 => exact h _ _ h1
    | tail _ h2 ih => exact Nat.lt_trans (h _ _ h2) ih
  exact fun name hcycle => Nat.lt_irrefl _ (hdown name name hcycle)

/-! ### Plain expansion -/

/-- Parts written out in full. A reference gives way to the written-out content of the message it
names. The parameters gathered are those of the messages referred to, from left to right: each
brings its own, and then what its references bring. -/
inductive Expands (r : Resolver) : List Part → List Part → List Parameter → Prop where
  | nil : Expands r [] [] []
  | keep {p : Part} {ps written : List Part} {gathered : List Parameter}
      (hp : p.isReference = false) (hps : Expands r ps written gathered) :
      Expands r (p :: ps) (p :: written) gathered
  | refer {other : String} {v : Visibility} {content : List Part} {own : ParameterSet}
      {ps inner written : List Part} {below gathered : List Parameter}
      (hother : r.entries.find? other = some ⟨v, .waiting content own⟩)
      (hcontent : Expands r content inner below) (hps : Expands r ps written gathered) :
      Expands r (.reference other :: ps) (inner ++ written) ((own.addAll below).toList ++ gathered)

/-- The message that plain expansion gives for a name. -/
def Written (r : Resolver) (name : String) (m : Message) : Prop :=
  ∃ v content own written gathered, r.entries.find? name = some ⟨v, .waiting content own⟩ ∧
    Expands r content written gathered ∧ m = ⟨v, normalize written, own.addAll gathered⟩

theorem Expands.unique {r : Resolver} {ps w w' : List Part} {g g' : List Parameter}
    (h : Expands r ps w g) (h' : Expands r ps w' g') : w = w' ∧ g = g' := by
  induction h generalizing w' g' with
  | nil =>
    cases h'
    exact ⟨rfl, rfl⟩
  | keep hp _ ih =>
    cases h' with
    | keep _ hps' =>
      obtain ⟨rfl, rfl⟩ := ih hps'
      exact ⟨rfl, rfl⟩
    | refer _ _ _ => cases hp
  | refer hother _ _ ihc ihp =>
    cases h' with
    | keep hp _ => cases hp
    | refer hother' hcontent' hps' =>
      rw [hother] at hother'
      cases hother'
      obtain ⟨rfl, rfl⟩ := ihc hcontent'
      obtain ⟨rfl, rfl⟩ := ihp hps'
      exact ⟨rfl, rfl⟩

theorem Written.unique {r : Resolver} {name : String} {m m' : Message} (h : r.Written name m)
    (h' : r.Written name m') : m = m' := by
  obtain ⟨v, content, own, w, g, hf, he, rfl⟩ := h
  obtain ⟨v', content', own', w', g', hf', he', rfl⟩ := h'
  rw [hf] at hf'
  cases hf'
  obtain ⟨rfl, rfl⟩ := he.unique he'
  rfl

/-! ### The memo -/

/-- The message is being resolved. -/
def Underway (s : Resolver) (name : String) : Prop :=
  ∃ v, s.entries.find? name = some ⟨v, .underway⟩

/-- The resolver `s` has come from the fresh `r`: messages that wait are as they were registered,
and what has been kept of the others is their expansion. -/
structure Memo (r s : Resolver) : Prop where
  known : ∀ name, s.entries.find? name = none → r.entries.find? name = none
  waiting : ∀ name v content own, s.entries.find? name = some ⟨v, .waiting content own⟩ →
    r.entries.find? name = some ⟨v, .waiting content own⟩
  done : ∀ name v m, s.entries.find? name = some ⟨v, .done m⟩ → r.Written name m

theorem Fresh.memo {r : Resolver} (h : r.Fresh) : Memo r r where
  known _ h' := h'
  waiting _ _ _ _ h' := h'
  done name v m h' := by cases h name _ h'

theorem Fresh.not_underway {r : Resolver} (h : r.Fresh) (name : String) : ¬ r.Underway name := by
  rintro ⟨v, hv⟩
  cases h name _ hv

lemma find?_setStage (s : Resolver) (name other : String) (v : Visibility) (stage : Stage) :
    (s.setStage name v stage).entries.find? other =
      if other = name then some ⟨v, stage⟩ else s.entries.find? other :=
  KeyMap.find?_insert s.entries name other ⟨v, stage⟩

/-- A message that is taken up or done with, if what is kept of it is its expansion. -/
theorem Memo.setStage {r s : Resolver} (h : Memo r s) {name : String} {v : Visibility} {stage : Stage}
    (hwaiting : (Entry.mk v stage).isWaiting = false)
    (hdone : ∀ m, stage = .done m → r.Written name m) : Memo r (s.setStage name v stage) := by
  refine ⟨fun other ho => ?_, fun other v' content own ho => ?_, fun other v' m ho => ?_⟩
  · rw [find?_setStage] at ho
    split at ho
    · cases ho
    · exact h.known other ho
  · rw [find?_setStage] at ho
    split at ho
    · cases ho
      cases hwaiting
    · exact h.waiting other v' content own ho
  · rw [find?_setStage] at ho
    split at ho
    · rename_i he
      cases ho
      exact he ▸ hdone m rfl
    · exact h.done other v' m ho

/-- What resolving one more name keeps. -/
structure Continues (r s s' : Resolver) : Prop where
  memo : Memo r s'
  faults : s'.faults = s.faults
  underway : ∀ name, s'.Underway name ↔ s.Underway name

theorem Continues.trans {r s s' s'' : Resolver} (h : Continues r s s') (h' : Continues r s' s'') :
    Continues r s s'' :=
  ⟨h'.memo, h'.faults.trans h.faults, fun name => (h'.underway name).trans (h.underway name)⟩

/-! ### One content -/

/-- Parts of the message `name` are taken in while `name` is underway. Each reference is resolved by
`hres`; the message it names is not underway, as it would then lead to `name` and back. -/
lemma splice_expands {r : Resolver} {n : Nat} (name : String)
    (hres : ∀ (s : Resolver) (other : String), s.waiting ≤ n → Memo r s →
      (∀ u, s.Underway u → TransGen r.Refers u other) → r.entries.contains other = true →
      ∃ m s', s.resolve other = (some m, s') ∧ r.Written other m ∧ Continues r s s')
    (hclosed : r.Closed) :
    ∀ (ps : List Part) (t : Splice), (∀ other, Part.reference other ∈ ps → r.Refers name other) →
      t.resolver.waiting ≤ n → Memo r t.resolver →
      (∀ u, t.resolver.Underway u → u = name ∨ TransGen r.Refers u name) →
      ∃ written gathered, Expands r ps written gathered ∧
        (∀ rest, (splice ps t).content.foldr Part.cons rest =
          t.content.foldr Part.cons (written.foldr Part.cons rest)) ∧
        (splice ps t).parameters = t.parameters.addAll gathered ∧
        Continues r t.resolver (splice ps t).resolver := by
  intro ps
  induction ps with
  | nil =>
    intro t _ _ hmemo _
    exact ⟨[], [], .nil, fun rest => rfl, rfl, hmemo, rfl, fun u => Iff.rfl⟩
  | cons p ps ih =>
    intro t hrefs hle hmemo hup
    have hrefs' : ∀ other, Part.reference other ∈ ps → r.Refers name other :=
      fun other ho => hrefs other (List.mem_cons_of_mem _ ho)
    have hcons : splice (p :: ps) t = splice ps (spliceWith (fun name r => r.resolve name) t p) := rfl
    rcases isReference_cases p with hp | ⟨other, rfl⟩
    · rw [hcons, spliceWith_keep hp]
      obtain ⟨written, gathered, he, hcontent, hparams, hcont⟩ :=
        ih { t with content := t.content ++ [p] } hrefs' hle hmemo hup
      refine ⟨p :: written, gathered, .keep hp he, fun rest => ?_, hparams, hcont⟩
      rw [hcontent rest, List.foldr_append]
      rfl
    · have hrefers := hrefs other (List.mem_cons_self ..)
      have hup' : ∀ u, t.resolver.Underway u → TransGen r.Refers u other := by
        intro u hu
        rcases hup u hu with rfl | hto
        · exact .single hrefers
        · exact .tail hto hrefers
      obtain ⟨m, s', hs', ⟨v, content, own, inner, below, hother, hinner, rfl⟩, hcont'⟩ :=
        hres t.resolver other hle hmemo hup' (hclosed name other hrefers)
      have hle' : s'.waiting ≤ n := by
        have := resolve_waiting_le t.resolver other
        rw [hs'] at this
        exact Nat.le_trans this hle
      rw [hcons, spliceWith_found (f := fun name r => Resolver.resolve r name) hs']
      obtain ⟨written, gathered, he, hcontent, hparams, hcont⟩ :=
        ih ⟨t.content ++ normalize inner, t.parameters.union (own.addAll below), s'⟩ hrefs' hle'
          hcont'.memo (fun u hu => hup u ((hcont'.underway u).1 hu))
      refine ⟨inner ++ written, (own.addAll below).toList ++ gathered, .refer hother hinner he,
        fun rest => ?_, ?_, hcont'.trans hcont⟩
      · rw [hcontent rest, List.foldr_append, foldr_normalize, List.foldr_append]
      · rw [hparams, ParameterSet.addAll_append]
        rfl

/-! ### One message, and a run -/

/-- **Resolving keeps the memo.** The messages underway lead to `name`, so that on an acyclic graph
`name` is not one of them. -/
theorem resolve_memo {r : Resolver} (hclosed : r.Closed) (hacyclic : r.Acyclic) (s : Resolver)
    (name : String) (hmemo : Memo r s) (hup : ∀ u, s.Underway u → TransGen r.Refers u name)
    (hname : r.entries.contains name = true) :
    ∃ m s', s.resolve name = (some m, s') ∧ r.Written name m ∧ Continues r s s' := by
  induction hn : s.waiting using Nat.strongRecOn generalizing s name with
  | ind n ih =>
    rcases stage_cases s name with hf | ⟨v, m, hf⟩ | ⟨v, hf⟩ | ⟨v, content, own, hf⟩
    · obtain ⟨e, he⟩ := (KeyMap.contains_iff _ _).1 hname
      rw [hmemo.known name hf] at he
      cases he
    · exact ⟨m, s, resolve_done hf, hmemo.done name v m hf, hmemo, rfl, fun u => Iff.rfl⟩
    · exact absurd (hup name ⟨v, hf⟩) (hacyclic name)
    · have hr := hmemo.waiting name v content own hf
      have hw := waiting_setStage_underway hf
      have hup' : ∀ u, (s.setStage name v .underway).Underway u ↔ u = name ∨ s.Underway u := by
        intro u
        unfold Underway
        rw [find?_setStage]
        by_cases hu : u = name
        · simp [hu]
        · simp [hu]
      obtain ⟨written, gathered, he, hcontent, hparams, hcont⟩ :=
        splice_expands name
          (fun t other (hle : t.waiting ≤ (s.setStage name v .underway).waiting) hm hu hc =>
            ih t.waiting (by omega) t other hm hu hc rfl)
          hclosed content ⟨[], own, s.setStage name v .underway⟩ (fun other ho => ⟨v, content, own, hr, ho⟩)
          (Nat.le_refl _) (hmemo.setStage rfl fun m hm => by cases hm) (fun u hu => ((hup' u).1 hu).imp_right (hup u))
      have hnormal : normalize (splice content ⟨[], own, s.setStage name v .underway⟩).content =
          normalize written := hcontent []
      have hwritten : r.Written name ⟨v, normalize written, own.addAll gathered⟩ :=
        ⟨v, content, own, written, gathered, hr, he, rfl⟩
      refine ⟨_, _, resolve_waiting hf, ?_, ?_, ?_, ?_⟩
      · rw [hnormal, hparams]
        exact hwritten
      · rw [hnormal, hparams]
        refine hcont.memo.setStage rfl fun m hm => ?_
        cases hm
        exact hwritten
      · exact hcont.faults
      · intro u
        unfold Underway
        rw [find?_setStage]
        by_cases hu : u = name
        · -- `name` was waiting before and is done now
          subst hu
          simp [hf]
        · rw [if_neg hu]
          exact (hcont.underway u).trans ((hup' u).trans (or_iff_right hu))

/-- Resolve names one after the other, for the sake of what that leaves. -/
def resolveCalls (r : Resolver) (calls : List String) : Resolver :=
  calls.foldl (fun s name => (s.resolve name).2) r

/-- After any calls the memo stands and no message is underway. -/
theorem memo_resolveCalls {r : Resolver} (hfresh : r.Fresh) (hclosed : r.Closed)
    (hacyclic : r.Acyclic) (calls : List String) :
    Memo r (r.resolveCalls calls) ∧ ∀ u, ¬ (r.resolveCalls calls).Underway u := by
  refine List.foldlRecOn (motive := fun s => Memo r s ∧ ∀ u, ¬ s.Underway u) calls _
    ⟨hfresh.memo, hfresh.not_underway⟩ ?_
  rintro s ⟨hmemo, hup⟩ name -
  by_cases hname : r.entries.contains name = true
  · obtain ⟨m, s', hs', -, hcont⟩ := resolve_memo hclosed hacyclic s name hmemo
      (fun u hu => absurd hu (hup u)) hname
    rw [hs']
    exact ⟨hcont.memo, fun u hu => hup u ((hcont.underway u).1 hu)⟩
  · -- a name that is not registered leaves nothing but a fault
    have hnone : s.entries.find? name = none := by
      rcases stage_cases s name with hf | ⟨v, m, hf⟩ | ⟨v, hf⟩ | ⟨v, content, own, hf⟩
      · exact hf
      · obtain ⟨v', content, own, -, -, hr, -⟩ := hmemo.done name v m hf
        exact absurd ((KeyMap.contains_iff _ _).2 ⟨_, hr⟩) hname
      · exact absurd ⟨v, hf⟩ (hup name)
      · exact absurd ((KeyMap.contains_iff _ _).2 ⟨_, hmemo.waiting name v content own hf⟩) hname
    rw [resolve_unknown hnone]
    exact ⟨⟨hmemo.known, hmemo.waiting, hmemo.done⟩, hup⟩

/-- **Resolving is plain expansion.** Let every message wait, let no chain of references lead back to
its start and let every name referred to be registered. Then a registered message expands, and
whatever names were resolved before, resolving it gives its visibility, its expansion in normal form
and its own parameters with those that were gathered, and notes no fault. -/
theorem resolve_eq_expansion {r : Resolver} (hfresh : r.Fresh) (hacyclic : r.Acyclic)
    (hclosed : r.Closed) {name : String} {v : Visibility} {content : List Part} {own : ParameterSet}
    (hname : r.entries.find? name = some ⟨v, .waiting content own⟩) :
    ∃ written gathered, Expands r content written gathered ∧
      ∀ calls : List String,
        ((r.resolveCalls calls).resolve name).1 =
          some ⟨v, normalize written, own.addAll gathered⟩ ∧
        ((r.resolveCalls calls).resolve name).2.faults = (r.resolveCalls calls).faults := by
  have hcontains : r.entries.contains name = true := (KeyMap.contains_iff _ _).2 ⟨_, hname⟩
  have hcall : ∀ calls, ∃ m s', (r.resolveCalls calls).resolve name = (some m, s') ∧
      r.Written name m ∧ Continues r (r.resolveCalls calls) s' := by
    intro calls
    obtain ⟨hmemo, hup⟩ := memo_resolveCalls hfresh hclosed hacyclic calls
    exact resolve_memo hclosed hacyclic _ name hmemo
      (fun u hu => absurd hu (hup u)) hcontains
  -- the first call tells what the expansion is, and all calls agree with it
  obtain ⟨m, -, -, hm, -⟩ := hcall []
  obtain ⟨v', content', own', written, gathered, hname', he, hm'⟩ := id hm
  rw [hname] at hname'
  cases hname'
  refine ⟨written, gathered, he, fun calls => ?_⟩
  obtain ⟨m', s', hs', hw, hcont⟩ := hcall calls
  rw [hs', ← hm', hm.unique hw]
  exact ⟨rfl, hcont.faults⟩

/-- Three messages, the last of which reaches the first in two ways. -/
def diamond : Resolver where
  entries := .ofList
    [("brand", ⟨.hidden, .waiting [.text "Elzii"] ∅⟩),
      ("hello", ⟨.exposed, .waiting [.text "Hi ", .parameter "who" none, .text " from ",
        .reference "brand"] (.ofList [⟨"who", .unknown⟩])⟩),
      ("page", ⟨.exposed, .waiting [.reference "hello", .text " to ", .reference "brand"] ∅⟩)]

lemma diamond_fresh : diamond.Fresh := by
  have h1 := fresh_insert? fresh_empty
    (show insert? {} "brand" .hidden [.text "Elzii"] ∅ = some _ from rfl)
  have h2 := fresh_insert? h1
    (show insert? _ "hello" .exposed [.text "Hi ", .parameter "who" none, .text " from ",
      .reference "brand"] (.ofList [⟨"who", .unknown⟩]) = some _ from rfl)
  exact fresh_insert? h2
    (show insert? _ "page" .exposed [.reference "hello", .text " to ", .reference "brand"] ∅ =
      some diamond from rfl)

lemma diamond_refers {name other : String} (h : diamond.Refers name other) :
    (name, other) ∈ [("hello", "brand"), ("page", "hello"), ("page", "brand")] := by
  obtain ⟨v, content, own, hf, hmem⟩ := h
  have he := (KeyMap.mem_entries_iff _ _ _).2 hf
  simp only [show diamond.entries.entries = [("brand", ⟨.hidden, .waiting [.text "Elzii"] ∅⟩),
      ("hello", ⟨.exposed, .waiting [.text "Hi ", .parameter "who" none, .text " from ",
        .reference "brand"] (.ofList [⟨"who", .unknown⟩])⟩),
      ("page", ⟨.exposed, .waiting [.reference "hello", .text " to ", .reference "brand"] ∅⟩)]
    from rfl, List.mem_cons, List.not_mem_nil, or_false, Prod.mk.injEq, Entry.mk.injEq,
    Stage.waiting.injEq] at he
  rcases he with ⟨rfl, -, rfl, -⟩ | ⟨rfl, -, rfl, -⟩ | ⟨rfl, -, rfl, -⟩
  all_goals simp_all

theorem resolve_eq_expansion_diamond :
    diamond.Fresh ∧ diamond.Acyclic ∧ diamond.Closed ∧
      ∃ written gathered,
        Expands diamond [.reference "hello", .text " to ", .reference "brand"] written gathered ∧
        ∀ calls : List String,
          ((diamond.resolveCalls calls).resolve "page").1 =
            some ⟨.exposed, normalize written, ParameterSet.ofList gathered⟩ ∧
          ((diamond.resolveCalls calls).resolve "page").2.faults =
            (diamond.resolveCalls calls).faults := by
  have hacyclic : diamond.Acyclic := by
    refine acyclic_of_rank (fun name => if name = "page" then 2 else if name = "hello" then 1 else 0)
      fun name other h => ?_
    have h := diamond_refers h
    simp only [List.mem_cons, Prod.mk.injEq, List.not_mem_nil, or_false] at h
    rcases h with ⟨rfl, rfl⟩ | ⟨rfl, rfl⟩ | ⟨rfl, rfl⟩ <;> decide
  have hclosed : diamond.Closed := by
    intro name other h
    have h := diamond_refers h
    simp only [List.mem_cons, Prod.mk.injEq, List.not_mem_nil, or_false] at h
    rcases h with ⟨rfl, rfl⟩ | ⟨rfl, rfl⟩ | ⟨rfl, rfl⟩ <;> decide
  exact ⟨diamond_fresh, hacyclic, hclosed, resolve_eq_expansion diamond_fresh hacyclic hclosed rfl⟩

end Polyglot.Resolver
