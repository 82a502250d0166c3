import Polyglot.Proofs.Expansion

/-!
# Runs of the resolver

What resolving does on any graph of references, cyclic or not, with or without unknown names. A run
is a finite derivation in which every message that waits is taken up and done with. No bound on the
depth comes into it, so that there is a run for every start is to say that resolving ends.

* `Takes t ps t'`: the parts `ps`, taken in one after the other, lead from `t` to `t'`;
* `takes_splice`, `takes_resolveCalls`: there is a run for every start, and it is what is computed;
* `Proceeds s s'`, `Takes.proceeds`: what every run keeps;
* `Takes.settles`: what becomes of the messages that a run refers to.
-/

namespace Polyglot.Resolver

/-! ### Derivations -/

/-- Taking in parts one after the other. What a reference leads to depends on how far the message is
that it names; one that waits has its own content taken in first. -/
inductive Takes : Splice → List Part → Splice → Prop where
  | nil {t : Splice} : Takes t [] t
  | keep {t t' : Splice} {p : Part} {ps : List Part} (hp : p.isReference = false)
      (rest : Takes { t with content := t.content ++ [p] } ps t') : Takes t (p :: ps) t'
  | unknown {t t' : Splice} {name : String} {ps : List Part}
      (hf : t.resolver.entries.find? name = none)
      (rest : Takes { t with resolver := t.resolver.noteUnknown name } ps t') :
      Takes t (.reference name :: ps) t'
  | done {t t' : Splice} {name : String} {v : Visibility} {m : Message} {ps : List Part}
      (hf : t.resolver.entries.find? name = some ⟨v, .done m⟩)
      (rest : Takes ⟨t.content ++ m.content, t.parameters.union m.parameters, t.resolver⟩ ps t') :
      Takes t (.reference name :: ps) t'
  | underway {t t' : Splice} {name : String} {v : Visibility} {ps : List Part}
      (hf : t.resolver.entries.find? name = some ⟨v, .underway⟩)
      (rest : Takes { t with resolver := t.resolver.noteCycle name } ps t') :
      Takes t (.reference name :: ps) t'
  | waiting {t u t' : Splice} {name : String} {v : Visibility} {content ps : List Part}
      {own : ParameterSet} (hf : t.resolver.entries.find? name = some ⟨v, .waiting content own⟩)
      (inner : Takes ⟨[], own, t.resolver.setStage name v .underway⟩ content u)
      (rest : Takes ⟨t.content ++ normalize u.content, t.parameters.union u.parameters,
        u.resolver.setStage name v (.done ⟨v, normalize u.content, u.parameters⟩)⟩ ps t') :
      Takes t (.reference name :: ps) t'

/-- **There is a run for every start**, and splicing computes where it ends. -/
theorem takes_splice (ps : List Part) (t : Splice) : Takes t ps (splice ps t) := by
  induction hn : t.resolver.waiting using Nat.strongRecOn generalizing ps t with
  | ind n ih =>
    -- the parts go one by one, and never does a step make more messages wait
    replace hn : t.resolver.waiting ≤ n := Nat.le_of_eq hn
    induction ps generalizing t with
    | nil => exact .nil
    | cons p ps ihps =>
      have hcons : splice (p :: ps) t = splice ps (spliceWith (fun name r => r.resolve name) t p) := rfl
      rw [hcons]
      rcases isReference_cases p with hp | ⟨name, rfl⟩
      · rw [spliceWith_keep hp]
        exact .keep hp (ihps _ hn)
      · have hle := Nat.le_trans (resolve_waiting_le t.resolver name) hn
        rcases stage_cases t.resolver name with hf | ⟨v, m, hf⟩ | ⟨v, hf⟩ | ⟨v, content, own, hf⟩
        · have he := resolve_unknown hf
          rw [he] at hle
          rw [spliceWith_dropped (f := fun name r => Resolver.resolve r name) he]
          exact .unknown hf (ihps _ hle)
        · have he := resolve_done hf
          rw [he] at hle
          rw [spliceWith_found (f := fun name r => Resolver.resolve r name) he]
          exact .done hf (ihps _ hle)
        · have he := resolve_underway hf
          rw [he] at hle
          rw [spliceWith_dropped (f := fun name r => Resolver.resolve r name) he]
          exact .underway hf (ihps _ hle)
        · have he := resolve_waiting hf
          rw [he] at hle
          rw [spliceWith_found (f := fun name r => Resolver.resolve r name) he]
          have hlt : (t.resolver.setStage name v .underway).waiting < n := by
            have hw := waiting_setStage_underway hf
            omega
          exact .waiting hf (ih _ hlt content _ rfl) (ihps _ hle)

/-- Resolving names one after the other takes in references to them. -/
lemma resolver_splice_references (calls : List String) (t : Splice) :
    (splice (calls.map .reference) t).resolver = t.resolver.resolveCalls calls := by
  induction calls generalizing t with
  | nil => rfl
  | cons name calls ih =>
    have hcons : splice ((name :: calls).map .reference) t =
        splice (calls.map .reference) (spliceWith (fun name r => r.resolve name) t (.reference name)) :=
      rfl
    rw [hcons, ih, resolver_spliceWith_reference]
    rfl

theorem takes_resolveCalls (r : Resolver) (calls : List String) :
    ∃ t, Takes ⟨[], ∅, r⟩ (calls.map .reference) t ∧ t.resolver = r.resolveCalls calls :=
  ⟨_, takes_splice _ _, resolver_splice_references calls ⟨[], ∅, r⟩⟩

lemma resolver_resolveEach (r : Resolver) (names : List String) :
    (r.resolveEach names).2 = r.resolveCalls names := by
  induction names generalizing r with
  | nil => rfl
  | cons name names ih => exact ih (r.resolve name).2

/-- The run that resolves all messages. -/
theorem takes_resolveAll (r : Resolver) :
    ∃ t, Takes ⟨[], ∅, r⟩ (r.names.map .reference) t ∧ t.resolver = r.resolveAll.2 := by
  obtain ⟨t, ht, he⟩ := takes_resolveCalls r r.names
  exact ⟨t, ht, he.trans (resolver_resolveEach r r.names).symm⟩

/-! ### What a run keeps -/

@[simp] lemma mem_cyclic_noteCycle {r : Resolver} {name other : String} :
    other ∈ (r.noteCycle name).cyclic ↔ other = name ∨ other ∈ r.cyclic := by
  unfold noteCycle
  split
  · rename_i h
    have hmem : name ∈ r.cyclic := by simpa using h
    exact ⟨Or.inr, fun h => h.elim (fun e => e ▸ hmem) id⟩
  · simp

@[simp] lemma underway_noteCycle {r : Resolver} {name other : String} :
    (r.noteCycle name).Underway other ↔ r.Underway other := by
  simp [Underway]

/-- The message `name` is taken up. -/
lemma underway_setStage_underway {r : Resolver} {name other : String} {v : Visibility} :
    (r.setStage name v .underway).Underway other ↔ other = name ∨ r.Underway other := by
  unfold Underway
  rw [find?_setStage]
  by_cases h : other = name <;> simp [h]

/-- The same names are registered, and no message has come to wait. -/
structure Follows (s s' : Resolver) : Prop where
  known : ∀ name, s'.entries.find? name = none ↔ s.entries.find? name = none
  waiting : ∀ name v content own, s'.entries.find? name = some ⟨v, .waiting content own⟩ →
    s.entries.find? name = some ⟨v, .waiting content own⟩

/-- Messages that were done are as they were, the same ones are underway, and what has been noted
stays noted. -/
structure Proceeds (s s' : Resolver) : Prop extends Follows s s' where
  done : ∀ name v m, s.entries.find? name = some ⟨v, .done m⟩ →
    s'.entries.find? name = some ⟨v, .done m⟩
  underway : ∀ name, s'.Underway name ↔ s.Underway name
  cyclic : ∀ name ∈ s.cyclic, name ∈ s'.cyclic

theorem Follows.refl (s : Resolver) : Follows s s :=
  ⟨fun _ => Iff.rfl, fun _ _ _ _ h => h⟩

theorem Follows.trans {s s' s'' : Resolver} (h : Follows s s') (h' : Follows s' s'') :
    Follows s s'' :=
  ⟨fun name => (h'.known name).trans (h.known name),
    fun name v content own hf => h.waiting name v content own (h'.waiting name v content own hf)⟩

theorem Follows.setStage {s s' : Resolver} (h : Follows s s') {name : String} {e : Entry}
    (hknown : s.entries.find? name = some e) {v : Visibility} {stage : Stage}
    (hstage : (Entry.mk v stage).isWaiting = false) : Follows s (s'.setStage name v stage) := by
  refine ⟨fun other => ?_, fun other v' content own hf => ?_⟩
  · rw [find?_setStage]
    split
    · rename_i he
      simp [he, hknown]
    · exact h.known other
  · rw [find?_setStage] at hf
    split at hf
    · cases hf
      cases hstage
    · exact h.waiting other v' content own hf

theorem Proceeds.trans {s s' s'' : Resolver} (h : Proceeds s s') (h' : Proceeds s' s'') :
    Proceeds s s'' where
  toFollows := h.toFollows.trans h'.toFollows
  done name v m hf := h'.done name v m (h.done name v m hf)
  underway name := (h'.underway name).trans (h.underway name)
  cyclic name hc := h'.cyclic name (h.cyclic name hc)

/-- A note changes no message. -/
theorem Proceeds.of_entries {s s' : Resolver} (he : s'.entries = s.entries)
    (hc : ∀ name ∈ s.cyclic, name ∈ s'.cyclic) : Proceeds s s' := by
  refine ⟨⟨fun name => ?_, fun name v content own hf => ?_⟩, fun name v m hf => ?_, fun name => ?_, hc⟩
  · rw [he]
  · rwa [he] at hf
  · rwa [he]
  · unfold Underway
    rw [he]

theorem proceeds_noteUnknown (s : Resolver) (name : String) : Proceeds s (s.noteUnknown name) :=
  .of_entries rfl fun _ hc => hc

theorem proceeds_noteCycle (s : Resolver) (name : String) : Proceeds s (s.noteCycle name) :=
  .of_entries (entries_noteCycle s name) fun _ hc => mem_cyclic_noteCycle.2 (Or.inr hc)

/-- A message that waits is taken up, its content is taken in, and it is done with. -/
theorem Proceeds.takeUp {s u : Resolver} {name : String} {v : Visibility} {content : List Part}
    {own : ParameterSet} {m : Message}
    (hf : s.entries.find? name = some ⟨v, .waiting content own⟩)
    (h : Proceeds (s.setStage name v .underway) u) : Proceeds s (u.setStage name v (.done m)) := by
  have hstart : Follows s (s.setStage name v .underway) := (Follows.refl s).setStage hf rfl
  refine ⟨(hstart.trans h.toFollows).setStage hf rfl, fun other v' m' ho => ?_, fun other => ?_,
    h.cyclic⟩
  · have hne : other ≠ name := by
      rintro rfl
      rw [hf] at ho
      cases ho
    rw [find?_setStage, if_neg hne]
    exact h.done other v' m' (by rw [find?_setStage, if_neg hne]; exact ho)
  · by_cases hne : other = name
    · -- it waited before and is done now
      subst hne
      simp [Underway, find?_setStage, hf]
    · have hu := h.underway other
      rw [underway_setStage_underway, or_iff_right hne] at hu
      unfold Underway at hu ⊢
      rwa [find?_setStage, if_neg hne]

theorem Takes.proceeds {t t' : Splice} {ps : List Part} (h : Takes t ps t') :
    Proceeds t.resolver t'.resolver := by
  induction h with
  | nil => exact .of_entries rfl fun _ hc => hc
  | keep _ _ ih => exact ih
  | unknown _ _ ih => exact (proceeds_noteUnknown _ _).trans ih
  | done _ _ ih => exact ih
  | underway _ _ ih => exact (proceeds_noteCycle _ _).trans ih
  | waiting hf _ _ ihinner ihrest => exact (Proceeds.takeUp hf ihinner).trans ihrest

theorem proceeds_resolveCalls (r : Resolver) (calls : List String) :
    Proceeds r (r.resolveCalls calls) := by
  obtain ⟨t, ht, he⟩ := takes_resolveCalls r calls
  rw [← he]
  exact ht.proceeds

/-! ### What a run settles -/

/-- A message that a run refers to no longer waits after it, and if it was underway then its cycle has
been noted. -/
theorem Takes.settles {t t' : Splice} {ps : List Part} (h : Takes t ps t') {name : String}
    (hname : Part.reference name ∈ ps) :
    (∀ v content own, t'.resolver.entries.find? name ≠ some ⟨v, .waiting content own⟩) ∧
      (t.resolver.Underway name → name ∈ t'.resolver.cyclic) := by
  induction h with
  | nil => cases hname
  | keep hp _ ih =>
    rcases List.mem_cons.1 hname with rfl | hname
    · cases hp
    · exact ih hname
  | unknown hf rest ih =>
    rcases List.mem_cons.1 hname with hname | hname
    · cases hname
      have hnone := (rest.proceeds.known name).2 hf
      exact ⟨fun v content own => by simp [hnone], fun ⟨v, hv⟩ => by simp [hf] at hv⟩
    · exact ih hname
  | done hf rest ih =>
    rcases List.mem_cons.1 hname with hname | hname
    · cases hname
      have hdone := rest.proceeds.done name _ _ hf
      exact ⟨fun v content own => by simp [hdone], fun ⟨v, hv⟩ => by simp [hf] at hv⟩
    · exact ih hname
  | underway hf rest ih =>
    rcases List.mem_cons.1 hname with hname | hname
    · cases hname
      refine ⟨fun v content own hw => ?_, fun _ => ?_⟩
      · have hw := rest.proceeds.waiting name v content own hw
        rw [entries_noteCycle, hf] at hw
        cases hw
      · exact rest.proceeds.cyclic name (mem_cyclic_noteCycle.2 (Or.inl rfl))
    · obtain ⟨hwait, hcyclic⟩ := ih hname
      exact ⟨hwait, fun hu => hcyclic (underway_noteCycle.2 hu)⟩
  | waiting hf inner rest _ ihrest =>
    rcases List.mem_cons.1 hname with hname | hname
    · cases hname
      have hdone := rest.proceeds.done name _ _ (by rw [find?_setStage, if_pos rfl])
      exact ⟨fun v content own => by simp [hdone], fun ⟨v, hv⟩ => by simp [hf] at hv⟩
    · obtain ⟨hwait, hcyclic⟩ := ihrest hname
      exact ⟨hwait, fun hu => hcyclic ((inner.proceeds.takeUp hf).underway name |>.2 hu)⟩

/-- After a run that began with no message underway, the registered messages that it refers to are
done. -/
theorem Takes.done_of_idle {t t' : Splice} {ps : List Part} (h : Takes t ps t')
    (hidle : ∀ u, ¬ t.resolver.Underway u) {name : String} (hname : Part.reference name ∈ ps)
    (hknown : t.resolver.entries.find? name ≠ none) :
    ∃ v m, t'.resolver.entries.find? name = some ⟨v, .done m⟩ := by
  rcases stage_cases t'.resolver name with hf | hf | hf | ⟨v, content, own, hf⟩
  · exact absurd ((h.proceeds.known name).1 hf) hknown
  · exact hf
  · exact absurd ((h.proceeds.underway name).1 hf) (hidle name)
  · exact absurd hf ((h.settles hname).1 v content own)

end Polyglot.Resolver
