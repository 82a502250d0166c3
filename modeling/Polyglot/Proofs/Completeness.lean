import Polyglot.Catalog.Build
import Polyglot.Proofs.Runs

/-!
# Building a catalog loses no message

Whatever the definitions of a document refer to, every key gets a message. A reference that leads
nowhere, or back to a message that is underway, is dropped, and nothing else is.

* `items`: the characters and the parameters of a content, in order;
* `Completes v content m`: `m` is what may become of a message with this content;
* `Takes.completes`: every message that is done has become what it may become;
* `Fresh.find?_resolveAll`: every registered message gets done;
* `find?_register`, `faults_register`: what is registered of a document, and what is not;
* `ofDocument_complete`: the main statement.
-/

namespace Polyglot

/-! ### Characters and parameters -/

/-- What a content consists of once it is written out. -/
inductive Item where
  | char (c : Char)
  | parameter (name : String) (format : Option Format)

/-- The items of a part; a reference has none of its own. -/
def Part.items : Part → List Item
  | .text s => s.toList.map .char
  | .parameter name format => [.parameter name format]
  | .reference _ => []

/-- The characters and the parameters of a content, in order. -/
def items (content : List Part) : List Item :=
  content.flatMap Part.items

@[simp] lemma items_nil : items [] = [] := rfl

@[simp] lemma items_cons (p : Part) (ps : List Part) : items (p :: ps) = p.items ++ items ps := rfl

@[simp] lemma items_append (ps qs : List Part) : items (ps ++ qs) = items ps ++ items qs :=
  List.flatMap_append

@[simp] lemma items_reference (name : String) : (Part.reference name).items = [] := rfl

lemma items_partCons (p : Part) (ps : List Part) : items (Part.cons p ps) = p.items ++ items ps := by
  cases p with
  | parameter name format => rfl
  | reference name => rfl
  | text s =>
    by_cases htext : ∃ t qs, ps = .text t :: qs
    · obtain ⟨t, qs, rfl⟩ := htext
      simp [Part.cons, Part.items]
    · rw [cons_text_of_not_text fun t qs he => htext ⟨t, qs, he⟩]
      by_cases hs : s = ""
      · simp [hs, Part.items]
      · simp [hs]

@[simp] theorem items_normalize (content : List Part) : items (normalize content) = items content := by
  induction content with
  | nil => rfl
  | cons p ps ih =>
    show items (Part.cons p (normalize ps)) = _
    rw [items_partCons, ih, items_cons]

/-! ### What becomes of a message -/

/-- A message that has this visibility, has no reference and is in normal form, and has all the
characters and parameters of the content, in their order. -/
structure Completes (v : Visibility) (content : List Part) (m : Message) : Prop where
  visibility : m.visibility = v
  resolved : ∀ p ∈ m.content, p.isReference = false
  normal : IsNormal m.content
  kept : (items content).Sublist (items m.content)

namespace Resolver

/-- Every message that is done completes what was registered for it. -/
def Completed (r s : Resolver) : Prop :=
  ∀ name v m, s.entries.find? name = some ⟨v, .done m⟩ →
    ∃ content own, r.entries.find? name = some ⟨v, .waiting content own⟩ ∧ Completes v content m

theorem Completed.of_find? {r s s' : Resolver} (h : Completed r s)
    (hdone : ∀ name v m, s'.entries.find? name = some ⟨v, .done m⟩ →
      s.entries.find? name = some ⟨v, .done m⟩) : Completed r s' :=
  fun name v m hf => h name v m (hdone name v m hf)

/-- **Every message that is done completes what was registered for it**, and what has been put
together of the parts has their items and no reference. -/
theorem Takes.completes {r : Resolver} {t t' : Splice} {ps : List Part} (h : Takes t ps t')
    (hr : Follows r t.resolver) (hd : Completed r t.resolver)
    (hc : ∀ p ∈ t.content, p.isReference = false) :
    Completed r t'.resolver ∧ (∀ p ∈ t'.content, p.isReference = false) ∧
      (items t.content ++ items ps).Sublist (items t'.content) := by
  induction h with
  | nil => exact ⟨hd, hc, by simp⟩
  | @keep t t' p ps hp _ ih =>
    obtain ⟨hd', hc', hk⟩ := ih hr hd fun q hq => by
      rcases List.mem_append.1 hq with hq | hq
      · exact hc q hq
      · rw [List.mem_singleton.1 hq]
        exact hp
    exact ⟨hd', hc', by simpa using hk⟩
  | unknown _ _ ih => exact ih (hr.trans (proceeds_noteUnknown _ _).toFollows) hd hc
  | @done t t' name v m ps hf _ ih =>
    obtain ⟨content, own, -, hm⟩ := hd name v m hf
    obtain ⟨hd', hc', hk⟩ := ih hr hd fun q hq => by
      rcases List.mem_append.1 hq with hq | hq
      · exact hc q hq
      · exact hm.resolved q hq
    refine ⟨hd', hc', .trans ?_ hk⟩
    simp
  | underway _ _ ih =>
    refine ih (hr.trans (proceeds_noteCycle _ _).toFollows) (hd.of_find? fun name v m hf => ?_) hc
    rwa [entries_noteCycle] at hf
  | @waiting t u t' name v content ps own hf inner _ ihinner ihrest =>
    have hp := inner.proceeds.takeUp (m := ⟨v, normalize u.content, u.parameters⟩) hf
    have hname := hr.waiting name v content own hf
    obtain ⟨hdu, hcu, hku⟩ := ihinner (hr.setStage hname rfl)
      (hd.of_find? fun other v' m ho => by
        rw [find?_setStage] at ho
        split at ho
        · cases ho
        · exact ho)
      (fun p hp => by cases hp)
    have hnormal : ∀ p ∈ normalize u.content, p.isReference = false := by
      intro p hp
      rcases isReference_cases p with href | ⟨other, rfl⟩
      · exact href
      · exact hcu _ ((mem_normalize fun s => by simp).1 hp)
    have hdone : Completed r (u.resolver.setStage name v
        (.done ⟨v, normalize u.content, u.parameters⟩)) := by
      intro other v' m ho
      rw [find?_setStage] at ho
      split at ho
      · rename_i he
        cases ho
        refine ⟨content, own, he ▸ hname, rfl, hnormal, isNormal_normalize _, ?_⟩
        simpa using hku
      · exact hdu other v' m ho
    obtain ⟨hd', hc', hk⟩ := ihrest (hr.trans hp.toFollows) hdone fun q hq => by
      rcases List.mem_append.1 hq with hq | hq
      · exact hc q hq
      · exact hnormal q hq
    refine ⟨hd', hc', .trans ?_ hk⟩
    simp

theorem Fresh.completed_resolveCalls {r : Resolver} (h : r.Fresh) (calls : List String) :
    Completed r (r.resolveCalls calls) := by
  obtain ⟨t, ht, he⟩ := takes_resolveCalls r calls
  rw [← he]
  refine (ht.completes (Follows.refl r) (fun name v m hf => ?_) fun p hp => by cases hp).1
  cases h name _ hf

/-! ### The messages of a run -/

/-- A registered message that is not underway is found, and kept. -/
lemma resolve_of_idle {s : Resolver} {name : String} (hidle : ¬ s.Underway name)
    (hname : s.entries.find? name ≠ none) :
    ∃ v m, (s.resolve name).1 = some m ∧
      (s.resolve name).2.entries.find? name = some ⟨v, .done m⟩ := by
  rcases stage_cases s name with hf | ⟨v, m, hf⟩ | hf | ⟨v, content, own, hf⟩
  · exact absurd hf hname
  · rw [resolve_done hf]
    exact ⟨v, m, rfl, hf⟩
  · exact absurd hf hidle
  · rw [resolve_waiting hf]
    exact ⟨v, _, rfl, by rw [find?_setStage, if_pos rfl]⟩

/-- The messages of a run are those that are done at its end. -/
lemma find?_resolveEach (names : List String) {s : Resolver} (hidle : ∀ u, ¬ s.Underway u)
    (hnames : ∀ name ∈ names, s.entries.find? name ≠ none) :
    (∀ name ∈ names, ∃ v m, (s.resolveEach names).1.find? name = some m ∧
      (s.resolveEach names).2.entries.find? name = some ⟨v, .done m⟩) ∧
    ∀ name, name ∉ names → (s.resolveEach names).1.find? name = none := by
  induction names generalizing s with
  | nil => exact ⟨fun name hname => absurd hname List.not_mem_nil, fun name _ => rfl⟩
  | cons first names ih =>
    obtain ⟨v, m, hm, hdone⟩ := resolve_of_idle (hidle first) (hnames first (List.mem_cons_self ..))
    have hp : Proceeds s (s.resolve first).2 := proceeds_resolveCalls s [first]
    obtain ⟨hin, hout⟩ := ih (s := (s.resolve first).2)
      (fun u hu => hidle u ((hp.underway u).1 hu))
      (fun name hname hnone => hnames name (List.mem_cons_of_mem _ hname) ((hp.known name).1 hnone))
    have hend : (s.resolveEach (first :: names)).2 = ((s.resolve first).2.resolveEach names).2 := rfl
    have hfind : ∀ name, (s.resolveEach (first :: names)).1.find? name =
        if name = first then some m else ((s.resolve first).2.resolveEach names).1.find? name := by
      intro name
      simp only [resolveEach, hm]
      exact KeyMap.find?_insert _ first name m
    refine ⟨fun name hname => ?_, fun name hname => ?_⟩
    · rw [hfind, hend]
      by_cases he : name = first
      · subst he
        refine ⟨v, m, if_pos rfl, ?_⟩
        rw [resolver_resolveEach]
        exact (proceeds_resolveCalls _ names).done name v m hdone
      · rw [if_neg he]
        exact hin name ((List.mem_cons.1 hname).resolve_left he)
    · obtain ⟨hne, hname⟩ := not_or.1 (fun h => hname (List.mem_cons.2 h))
      rw [hfind, if_neg hne]
      exact hout name hname

/-- **Every registered message is there in the end**, and no other. -/
theorem Fresh.find?_resolveAll {r : Resolver} (h : r.Fresh) (name : String) :
    (r.entries.find? name = none → r.resolveAll.1.find? name = none) ∧
    ∀ v content own, r.entries.find? name = some ⟨v, .waiting content own⟩ →
      ∃ m, r.resolveAll.1.find? name = some m ∧ Completes v content m := by
  obtain ⟨hin, hout⟩ := find?_resolveEach r.names h.not_underway fun name hname =>
    (KeyMap.mem_keys_iff r.entries name).1 hname
  constructor
  · intro hnone
    exact hout name fun hname => (KeyMap.mem_keys_iff r.entries name).1 hname hnone
  · intro v content own hf
    obtain ⟨v', m, hm, hdone⟩ := hin name ((KeyMap.mem_keys_iff r.entries name).2 (by simp [hf]))
    rw [resolver_resolveEach] at hdone
    obtain ⟨content', own', hf', hcomplete⟩ := h.completed_resolveCalls r.names name v' m hdone
    rw [hf] at hf'
    cases hf'
    exact ⟨m, hm, hcomplete⟩

lemma Fresh.mem_keys_resolveAll {r : Resolver} (h : r.Fresh) (name : String) :
    name ∈ r.resolveAll.1.keys ↔ r.entries.find? name ≠ none := by
  obtain ⟨hnone, hsome⟩ := h.find?_resolveAll name
  rw [KeyMap.mem_keys_iff]
  refine ⟨mt hnone, fun hname => ?_⟩
  rcases stage_cases r name with hf | ⟨v, m, hf⟩ | ⟨v, hf⟩ | ⟨v, content, own, hf⟩
  · exact absurd hf hname
  · cases h name _ hf
  · cases h name _ hf
  · obtain ⟨m, hm, -⟩ := hsome v content own hf
    simp [hm]

end Resolver

/-! ### Registering a document -/

namespace Catalog

open Resolver (Completed Takes)

/-- The entry that a definition asks for. -/
def entryOf (d : Definition) : Entry :=
  ⟨d.visibility, .waiting d.content d.parameters⟩

/-- The definitions whose key has been defined before them, in file order. -/
def repeated (ds : List Definition) : List Definition :=
  (ds.zipIdx.filter fun e => (ds.take e.2).any fun d => d.key == e.1.key).map (·.1)

/-- How a repeated definition is reported. -/
def repeatProblem (d : Definition) : Problem where
  kind := .checks
  message := s!"Duplicate message \"{d.key}\", only the first definition is used"
  position := some d.position

lemma repeated_append_one (ds : List Definition) (d : Definition) :
    repeated (ds ++ [d]) =
      repeated ds ++ if (ds.any fun e => e.key == d.key) = true then [d] else [] := by
  have hbefore : (ds.zipIdx.filter fun e => ((ds ++ [d]).take e.2).any fun c => c.key == e.1.key) =
      ds.zipIdx.filter fun e => (ds.take e.2).any fun c => c.key == e.1.key := by
    refine List.filter_congr fun e he => ?_
    have hle : e.2 ≤ ds.length := by
      have := List.snd_lt_of_mem_zipIdx he
      omega
    rw [List.take_append_of_le_length hle]
  unfold repeated
  rw [List.zipIdx_append, List.filter_append, List.map_append, hbefore]
  by_cases h : (ds.any fun e => e.key == d.key) = true
  · simp [h]
  · simp [h]

lemma register_append (r : Resolver) (ds es : List Definition) :
    register r (ds ++ es) =
      ((register (register r ds).1 es).1, (register r ds).2 ++ (register (register r ds).1 es).2) := by
  induction ds generalizing r with
  | nil => rfl
  | cons d ds ih =>
    rw [List.cons_append, register, register]
    split
    · exact ih _
    · simp only [ih]
      rfl

/-- The first definition of each key is registered. -/
theorem find?_register (r : Resolver) (ds : List Definition) (key : String) :
    (register r ds).1.entries.find? key =
      (r.entries.find? key).or ((ds.find? fun d => d.key == key).map entryOf) := by
  induction ds generalizing r with
  | nil => simp [register]
  | cons d ds ih =>
    unfold register Resolver.insert?
    by_cases hd : r.entries.contains d.key = true
    · obtain ⟨e, he⟩ := (KeyMap.contains_iff _ _).1 hd
      rw [if_pos hd]
      simp only [ih]
      by_cases hk : d.key = key
      · subst hk
        simp [he]
      · rw [List.find?_cons_of_neg (by simpa using hk)]
    · rw [if_neg hd]
      simp only [ih]
      by_cases hk : d.key = key
      · subst hk
        have hnone : r.entries.find? d.key = none := by
          by_contra hf
          exact hd ((KeyMap.contains_iff _ _).2 (Option.ne_none_iff_exists'.1 hf))
        rw [KeyMap.find?_insert, if_pos rfl, hnone, List.find?_cons_of_pos (by simp)]
        rfl
      · rw [KeyMap.find?_insert, if_neg fun h => hk h.symm,
          List.find?_cons_of_neg (by simpa using hk)]

lemma find?_register_empty (ds : List Definition) (key : String) :
    (register {} ds).1.entries.find? key = (ds.find? fun d => d.key == key).map entryOf :=
  find?_register {} ds key

lemma register_fresh (ds : List Definition) : (register {} ds).1.Fresh := by
  intro name e hf
  rw [find?_register_empty] at hf
  obtain ⟨d, -, rfl⟩ := Option.map_eq_some_iff.1 hf
  rfl

/-- The other definitions are reported, in file order. -/
theorem faults_register (ds : List Definition) :
    (register {} ds).2 = (repeated ds).map fun d => .duplicate d.key d.position := by
  induction ds using List.reverseRecOn with
  | nil => rfl
  | append_singleton ds d ih =>
    have hlast : (register (register {} ds).1 [d]).2 =
        if (ds.any fun e => e.key == d.key) = true then [.duplicate d.key d.position] else [] := by
      have hcontains : (register {} ds).1.entries.contains d.key = ds.any fun e => e.key == d.key := by
        rw [Bool.eq_iff_iff, KeyMap.contains_iff, ← Option.isSome_iff_exists, find?_register_empty,
          Option.isSome_map, List.find?_isSome, List.any_eq_true]
      unfold register Resolver.insert?
      rw [hcontains]
      split <;> simp_all [register]
    rw [register_append, repeated_append_one, List.map_append, ← ih, hlast]
    split <;> rfl

/-! ### The catalog of a document -/

/-- **Building a catalog loses no message.** For every document, resolving comes to an end whatever is
asked for. The catalog has exactly the keys that the document defines; the message of a key completes
the first definition of that key. No message is left underway, whatever has been resolved before. The
problems are one for each repeated definition, in file order, and then those of the references. -/
theorem ofDocument_complete (id : String) (d : Document) :
    (∀ calls : List String, ∃ t,
      Takes ⟨[], ∅, (register {} d.definitions).1⟩ (calls.map .reference) t ∧
        t.resolver = (register {} d.definitions).1.resolveCalls calls) ∧
    (∀ key, key ∈ (ofDocument id d).1.messages.keys ↔ ∃ e ∈ d.definitions, e.key = key) ∧
    (∀ key e, (d.definitions.find? fun e => e.key == key) = some e →
      ∃ m, (ofDocument id d).1.messages.find? key = some m ∧ Completes e.visibility e.content m) ∧
    (∀ (calls : List String) (name : String),
      ¬ ((register {} d.definitions).1.resolveCalls calls).Underway name) ∧
    (ofDocument id d).2.map CatalogFault.toProblem =
      (repeated d.definitions).map repeatProblem ++
        (register {} d.definitions).1.resolveAll.2.faults.map ReferenceFault.toProblem := by
  have hfresh := register_fresh d.definitions
  have hmessages : (ofDocument id d).1.messages = (register {} d.definitions).1.resolveAll.1 := rfl
  refine ⟨Resolver.takes_resolveCalls _, fun key => ?_, fun key e he => ?_, fun calls name hu => ?_, ?_⟩
  · rw [hmessages, hfresh.mem_keys_resolveAll, find?_register_empty, Ne, Option.map_eq_none_iff, ← Ne,
      ← Option.isSome_iff_ne_none, List.find?_isSome]
    simp
  · refine (hfresh.find?_resolveAll key).2 e.visibility e.content e.parameters ?_
    rw [find?_register_empty, he]
    rfl
  · exact hfresh.not_underway name
      (((Resolver.proceeds_resolveCalls _ calls).underway name).1 hu)
  · have hfaults : (ofDocument id d).2 = (register {} d.definitions).2 ++
        (register {} d.definitions).1.resolveAll.2.faults.map .reference := rfl
    rw [hfaults, faults_register, List.map_append, List.map_map, List.map_map]
    rfl

/-- Two messages that refer to each other, an unknown name, and a second definition of the first. -/
def loopingDocument : Document where
  definitions :=
    [⟨"a", .exposed, [.text "A ", .reference "b", .reference "c"], ∅, ⟨1, 1⟩⟩,
      ⟨"b", .hidden, [.reference "a", .parameter "n" none], .ofList [⟨"n", .unknown⟩], ⟨2, 1⟩⟩,
      ⟨"a", .hidden, [.text "again"], ∅, ⟨3, 1⟩⟩]

theorem ofDocument_complete_looping :
    (∃ m, (ofDocument "en" loopingDocument).1.messages.find? "a" = some m ∧
      Completes .exposed [.text "A ", .reference "b", .reference "c"] m) ∧
    (ofDocument "en" loopingDocument).2.map CatalogFault.toProblem =
      [repeatProblem ⟨"a", .hidden, [.text "again"], ∅, ⟨3, 1⟩⟩,
        (ReferenceFault.cyclic "a").toProblem, (ReferenceFault.unknown "c").toProblem] := by
  obtain ⟨-, -, hfirst, -, hproblems⟩ := ofDocument_complete "en" loopingDocument
  exact ⟨hfirst "a" _ rfl, hproblems.trans (by decide +kernel)⟩

end Catalog

end Polyglot
