import Polyglot.Resolver
import Polyglot.Proofs.Maps
import Polyglot.Proofs.NormalForm

/-!
# How a message is resolved

`Resolver.resolve` goes down at most as many references as there are messages that wait. That is
always deep enough, so the bound disappears from what can be said about it:

* `resolve_unknown`, `resolve_done`, `resolve_underway`, `resolve_waiting`: what resolving a name
  does, one equation for each stage, with references resolved by `resolve` itself;
* `resolve_waiting_le`: resolving leaves no more messages waiting than before;
* `splice_induction`: what each part taken in preserves, all of them preserve.
-/

namespace Polyglot.Resolver

/-! ### Messages that wait -/

lemma countP_insertEntry_le {α : Type} {p : String × α → Bool} {key : String} {value : α}
    (hp : p (key, value) = false) (es : List (String × α)) :
    (KeyMap.insertEntry key value es).countP p ≤ es.countP p := by
  induction es with
  | nil => simp [KeyMap.insertEntry, hp]
  | cons e es ih =>
    unfold KeyMap.insertEntry
    split
    · simp [List.countP_cons, hp]
    · split
      · simp [List.countP_cons, hp]
      · rw [List.countP_cons, List.countP_cons]
        omega

@[simp] lemma waiting_noteUnknown (r : Resolver) (name : String) :
    (r.noteUnknown name).waiting = r.waiting := rfl

@[simp] lemma entries_noteCycle (r : Resolver) (name : String) :
    (r.noteCycle name).entries = r.entries := by
  unfold noteCycle
  split <;> rfl

@[simp] lemma waiting_noteCycle (r : Resolver) (name : String) :
    (r.noteCycle name).waiting = r.waiting := by
  simp [waiting]

lemma waiting_setStage_le (r : Resolver) (name : String) (v : Visibility) {stage : Stage}
    (hs : (Entry.mk v stage).isWaiting = false) : (r.setStage name v stage).waiting ≤ r.waiting :=
  countP_insertEntry_le hs r.entries.entries

/-- Taking up a message takes it from those that wait. -/
lemma waiting_setStage_underway {r : Resolver} {name : String} {v : Visibility}
    {content : List Part} {ps : ParameterSet}
    (h : r.entries.find? name = some ⟨v, .waiting content ps⟩) :
    (r.setStage name v .underway).waiting + 1 = r.waiting := by
  have := KeyMap.countP_insert (p := fun e : String × Entry => e.2.isWaiting) r.entries h
    ⟨v, .underway⟩
  exact this

lemma stage_cases (r : Resolver) (name : String) :
    r.entries.find? name = none ∨
    (∃ v m, r.entries.find? name = some ⟨v, .done m⟩) ∨
    (∃ v, r.entries.find? name = some ⟨v, .underway⟩) ∨
    ∃ v content ps, r.entries.find? name = some ⟨v, .waiting content ps⟩ := by
  cases h : r.entries.find? name with
  | none => exact Or.inl rfl
  | some e =>
    obtain ⟨v, stage⟩ := e
    cases stage with
    | done m => exact Or.inr (Or.inl ⟨v, m, rfl⟩)
    | underway => exact Or.inr (Or.inr (Or.inl ⟨v, rfl⟩))
    | waiting content ps => exact Or.inr (Or.inr (Or.inr ⟨v, content, ps, rfl⟩))

/-! ### Taking in parts -/

section Splicing

variable {f g : String → Resolver → Option Message × Resolver} {s : Splice}

lemma spliceWith_keep {p : Part} (h : p.isReference = false) :
    spliceWith f s p = { s with content := s.content ++ [p] } := by
  cases p with
  | text value => rfl
  | parameter name format => rfl
  | reference name => cases h

lemma spliceWith_found {name : String} {m : Message} {r : Resolver}
    (h : f name s.resolver = (some m, r)) :
    spliceWith f s (.reference name) =
      ⟨s.content ++ m.content, s.parameters.union m.parameters, r⟩ := by
  simp only [spliceWith, h]

lemma spliceWith_dropped {name : String} {r : Resolver} (h : f name s.resolver = (none, r)) :
    spliceWith f s (.reference name) = { s with resolver := r } := by
  simp only [spliceWith, h]

lemma resolver_spliceWith_reference (name : String) :
    (spliceWith f s (.reference name)).resolver = (f name s.resolver).2 := by
  rcases hf : f name s.resolver with ⟨_ | m, r⟩
  · rw [spliceWith_dropped hf]
  · rw [spliceWith_found hf]

/-- A part only changes the resolver by resolving a name. -/
lemma resolver_spliceWith (p : Part) :
    (spliceWith f s p).resolver = s.resolver ∨
    ∃ name, p = .reference name ∧ (spliceWith f s p).resolver = (f name s.resolver).2 := by
  cases p with
  | text value => exact Or.inl rfl
  | parameter name format => exact Or.inl rfl
  | reference name => exact Or.inr ⟨name, rfl, resolver_spliceWith_reference name⟩

/-- Two ways of resolving that agree while at most `n` messages wait, and never make more wait,
take in parts alike. -/
lemma foldl_spliceWith_congr {n : Nat}
    (h : ∀ name r, r.waiting ≤ n → f name r = g name r ∧ (g name r).2.waiting ≤ r.waiting)
    (content : List Part) (hs : s.resolver.waiting ≤ n) :
    content.foldl (spliceWith f) s = content.foldl (spliceWith g) s ∧
      (content.foldl (spliceWith g) s).resolver.waiting ≤ s.resolver.waiting := by
  induction content generalizing s with
  | nil => exact ⟨rfl, Nat.le_refl _⟩
  | cons p ps ih =>
    have hstep : spliceWith f s p = spliceWith g s p := by
      cases p with
      | text value => rfl
      | parameter name format => rfl
      | reference name => simp only [spliceWith, (h name s.resolver hs).1]
    have hle : (spliceWith g s p).resolver.waiting ≤ s.resolver.waiting := by
      rcases resolver_spliceWith (f := g) (s := s) p with he | ⟨name, -, he⟩
      · exact Nat.le_of_eq (by rw [he])
      · rw [he]
        exact (h name s.resolver hs).2
    obtain ⟨h1, h2⟩ := ih (s := spliceWith g s p) (Nat.le_trans hle hs)
    rw [List.foldl_cons, List.foldl_cons, hstep]
    exact ⟨h1, Nat.le_trans h2 hle⟩

end Splicing

/-! ### The bound on the depth -/

/-- A message that does not wait is settled at once, at any depth. -/
lemma resolveWith_settled {r : Resolver} {name : String}
    (h : ∀ v content ps, r.entries.find? name ≠ some ⟨v, .waiting content ps⟩) (depth deeper : Nat) :
    resolveWith deeper name r = resolveWith depth name r ∧
      (resolveWith depth name r).2.waiting = r.waiting := by
  rcases stage_cases r name with hf | ⟨v, m, hf⟩ | ⟨v, hf⟩ | ⟨v, content, ps, hf⟩
  · rw [resolveWith, resolveWith, hf]
    exact ⟨rfl, waiting_noteUnknown r name⟩
  · rw [resolveWith, resolveWith, hf]
    exact ⟨rfl, rfl⟩
  · rw [resolveWith, resolveWith, hf]
    exact ⟨rfl, waiting_noteCycle r name⟩
  · exact absurd hf (h v content ps)

/-- Going deeper than the number of waiting messages changes nothing, and resolving makes no
message wait. -/
theorem resolveWith_succ (depth : Nat) (name : String) (r : Resolver) (h : r.waiting ≤ depth) :
    resolveWith (depth + 1) name r = resolveWith depth name r ∧
      (resolveWith depth name r).2.waiting ≤ r.waiting := by
  induction depth generalizing name r with
  | zero =>
    refine (resolveWith_settled (fun v content ps hf => ?_) 0 1).imp_right Nat.le_of_eq
    have := waiting_setStage_underway hf
    omega
  | succ depth ih =>
    by_cases hf : ∃ v content ps, r.entries.find? name = some ⟨v, .waiting content ps⟩
    · obtain ⟨v, content, ps, hf⟩ := hf
      have hw := waiting_setStage_underway hf
      obtain ⟨heq, hle⟩ := foldl_spliceWith_congr (fun name r hr => ih name r hr) content
        (s := ⟨[], ps, r.setStage name v .underway⟩) (by
          show (r.setStage name v .underway).waiting ≤ depth
          omega)
      rw [resolveWith, resolveWith, hf]
      simp only at heq hle ⊢
      rw [heq]
      refine ⟨rfl, Nat.le_trans (waiting_setStage_le _ name v rfl) ?_⟩
      omega
    · refine (resolveWith_settled (fun v content ps h' => ?_) _ _).imp_right Nat.le_of_eq
      exact hf ⟨v, content, ps, h'⟩

lemma resolveWith_eq_resolve {depth : Nat} {r : Resolver} (h : r.waiting ≤ depth) (name : String) :
    resolveWith depth name r = r.resolve name := by
  unfold resolve
  induction depth with
  | zero => rw [Nat.le_zero.1 h]
  | succ depth ih =>
    rcases Nat.lt_or_ge depth r.waiting with hlt | hge
    · rw [show r.waiting = depth + 1 by omega]
    · rw [(resolveWith_succ depth name r hge).1, ih hge]

/-- Resolving leaves no more messages waiting than before. -/
theorem resolve_waiting_le (r : Resolver) (name : String) :
    (r.resolve name).2.waiting ≤ r.waiting :=
  (resolveWith_succ r.waiting name r (Nat.le_refl _)).2

/-! ### One equation for each stage -/

variable {r : Resolver} {name : String}

theorem resolve_unknown (h : r.entries.find? name = none) :
    r.resolve name = (none, r.noteUnknown name) := by
  rw [resolve, resolveWith, h]

theorem resolve_done {v : Visibility} {m : Message}
    (h : r.entries.find? name = some ⟨v, .done m⟩) : r.resolve name = (some m, r) := by
  rw [resolve, resolveWith, h]

theorem resolve_underway {v : Visibility} (h : r.entries.find? name = some ⟨v, .underway⟩) :
    r.resolve name = (none, r.noteCycle name) := by
  rw [resolve, resolveWith, h]

/-- Content taken in part by part, with its references resolved. -/
def splice (content : List Part) (s : Splice) : Splice :=
  content.foldl (spliceWith fun name r => r.resolve name) s

theorem resolve_waiting {v : Visibility} {content : List Part} {ps : ParameterSet}
    (h : r.entries.find? name = some ⟨v, .waiting content ps⟩) :
    r.resolve name =
      let s := splice content ⟨[], ps, r.setStage name v .underway⟩
      let m : Message := ⟨v, normalize s.content, s.parameters⟩
      (some m, s.resolver.setStage name v (.done m)) := by
  have hw := waiting_setStage_underway h
  obtain ⟨depth, hd⟩ : ∃ depth, r.waiting = depth + 1 := ⟨_, hw.symm⟩
  have hcongr := foldl_spliceWith_congr (f := resolveWith depth)
    (g := fun name r => r.resolve name)
    (fun name r hr => ⟨resolveWith_eq_resolve hr name, resolve_waiting_le r name⟩) content
    (s := ⟨[], ps, r.setStage name v .underway⟩) (by
      show (r.setStage name v .underway).waiting ≤ depth
      omega)
  rw [resolve, hd, resolveWith, h]
  simp only [hcongr.1]
  rfl

/-! ### Induction over the parts -/

/-- **What each part preserves, all parts preserve.** In the steps no more messages wait than at
the start. -/
theorem splice_induction {P : Splice → Prop} (content : List Part) {s : Splice} (h0 : P s)
    (hstep : ∀ p ∈ content, ∀ t : Splice, t.resolver.waiting ≤ s.resolver.waiting → P t →
      P (spliceWith (fun name r => r.resolve name) t p)) : P (splice content s) := by
  have hrun : (splice content s).resolver.waiting ≤ s.resolver.waiting ∧ P (splice content s) := by
    refine List.foldlRecOn (motive := fun t => t.resolver.waiting ≤ s.resolver.waiting ∧ P t) content
      _ ⟨Nat.le_refl _, h0⟩ fun t ht p hp => ⟨?_, hstep p hp t ht.1 ht.2⟩
    rcases resolver_spliceWith (f := fun name r => Resolver.resolve r name) (s := t) p with
      he | ⟨name, -, he⟩
    · rw [he]
      exact ht.1
    · rw [he]
      exact Nat.le_trans (resolve_waiting_le t.resolver name) ht.1
  exact hrun.2

end Polyglot.Resolver
