import Polyglot.Proofs.Interleaving

/-!
# Words for all calls

A call needs a new word for each placeholder and for each cache key that it has left to add. With each
of these that it adds, it has one less to add: the words that are used and those that are still needed
are as many after a step as before it.

* `Call.keysLeft`, `Call.placeholders`: the words that a call needs;
* `Roomy`: there are as many words as the calls need;
* `Moves.conserves`, `Reaches.roomy_iff`: one step keeps the count, and so do any steps;
* `Roomy.room`: whatever piece comes next, there is a word for it.
-/

namespace Polyglot.Generate

namespace Piece

variable {α : Type}

/-- A piece that needs a cache key. -/
def isKey : Piece α → Bool
  | key _ => true
  | _ => false

/-- A piece that needs a placeholder. -/
def isCode : Piece α → Bool
  | code _ _ => true
  | _ => false

end Piece

/-- Each piece of code has its word. -/
lemma length_used_insertionOf (ps : List (Piece Word)) :
    (insertionOf ps).used.length = (ps.map Piece.blank).countP Piece.isCode := by
  induction ps using List.reverseRecOn with
  | nil => rfl
  | append_singleton ps p ih =>
    rw [used_insertionOf_concat, List.length_append, ih, List.map_append, List.countP_append]
    cases p <;> rfl

/-- A piece that has its word needed one. -/
lemma countP_isKey_cons (p : Piece Word) (left : List (Piece Unit)) :
    (p.blank :: left).countP Piece.isKey = p.key?.toList.length + left.countP Piece.isKey := by
  rw [List.countP_cons, Nat.add_comm]
  cases p <;> rfl

namespace Call

/-- How many cache keys a call has left to add. -/
def keysLeft (c : Call) : Nat :=
  c.stage.left.countP Piece.isKey

/-- How many placeholders there are in the module of a call, those included that are left to add. -/
def placeholders (c : Call) : Nat :=
  (c.stage.built.map Piece.blank ++ c.stage.left).countP Piece.isCode

end Call

/-- There are as many words as the calls need: cache keys have different words in all calls together,
placeholders in each. -/
@[mk_iff roomy_def]
structure Roomy (e : Emission) (cs : List Call) : Prop where
  keys : e.modules.cacheKeys.length + (cs.map Call.keysLeft).sum ≤ wordCount
  placeholders : ∀ c ∈ cs, c.placeholders ≤ wordCount

section Steps

variable {reports : Reports} {e e' : Emission} {c c' : Call} {cs cs' : List Call}
  {s s' : Emission × List Call}

/-- **Words used and words needed**, in one step of a call. -/
theorem Moves.conserves (h : Moves reports e c e' c') :
    e'.modules.cacheKeys.length + c'.keysLeft = e.modules.cacheKeys.length + c.keysLeft ∧
      c'.placeholders = c.placeholders := by
  obtain ⟨catalog, source, dir, stage⟩ := c
  cases h with
  | @build _ built left p supply hstage hfresh =>
    obtain rfl : stage = _ := hstage
    constructor
    · show (p.key?.toList ++ e.modules.cacheKeys).length + left.countP Piece.isKey =
        e.modules.cacheKeys.length + (p.blank :: left).countP Piece.isKey
      rw [countP_isKey_cons, List.length_append]
      omega
    · simp [Call.placeholders, Stage.left, Stage.built]
  | write hkind hstage hwrite =>
    obtain rfl : stage = _ := hstage
    obtain ⟨d, hd, rfl⟩ := Emitting.gives_onDisk_iff.1 hwrite
    exact ⟨rfl, rfl⟩
  | note hkind hstage hnote =>
    obtain rfl : stage = _ := hstage
    cases Emitting.gives_modify_iff.1 hnote
    exact ⟨rfl, rfl⟩
  | declare hkind hstage hnote =>
    obtain rfl : stage = _ := hstage
    cases Emitting.gives_modify_iff.1 hnote
    exact ⟨rfl, rfl⟩

lemma Step.roomy_iff (h : Step reports s s') : Roomy s'.1 s'.2 ↔ Roomy s.1 s.2 := by
  cases h with
  | @move e e' c c' before after hmoves =>
    obtain ⟨hkeys, hplaceholders⟩ := hmoves.conserves
    have hsum : e'.modules.cacheKeys.length + ((before ++ c' :: after).map Call.keysLeft).sum =
        e.modules.cacheKeys.length + ((before ++ c :: after).map Call.keysLeft).sum := by
      simp only [List.map_append, List.map_cons, List.sum_append, List.sum_cons]
      omega
    rw [roomy_def, roomy_def, hsum, List.forall_mem_append, List.forall_mem_append,
      List.forall_mem_cons, List.forall_mem_cons, hplaceholders]

/-- **Steps make no words and lose none.** -/
theorem Reaches.roomy_iff (h : Reaches reports s s') : Roomy s'.1 s'.2 ↔ Roomy s.1 s.2 := by
  induction h with
  | refl => exact Iff.rfl
  | tail _ hstep ih => exact hstep.roomy_iff.trans ih

lemma Roomy.perm (h : Roomy e cs) (hperm : cs.Perm cs') : Roomy e cs' where
  keys := by
    rw [← (hperm.map Call.keysLeft).sum_nat]
    exact h.keys
  placeholders c hc := h.placeholders c (hperm.mem_iff.2 hc)

/-- There is a word for the next piece of a call. -/
lemma Roomy.room (h : Roomy e cs) (hc : c ∈ cs) {built : List (Piece Word)} {p : Piece Unit}
    {left : List (Piece Unit)} (hstage : c.stage = .building built (p :: left)) :
    (p.isCode = true → (insertionOf built).used.length < wordCount) ∧
      (p.isKey = true → e.modules.cacheKeys.length < wordCount) := by
  constructor
  · intro hcode
    have hall := h.placeholders c hc
    rw [Call.placeholders, hstage] at hall
    simp only [Stage.built, Stage.left, List.countP_append, List.countP_cons_of_pos hcode,
      ← length_used_insertionOf] at hall
    omega
  · intro hkey
    obtain ⟨before, after, rfl⟩ := List.append_of_mem hc
    have hpos : c.keysLeft = left.countP Piece.isKey + 1 := by
      rw [Call.keysLeft, hstage]
      exact List.countP_cons_of_pos hkey
    have hall := h.keys
    simp only [List.map_append, List.map_cons, List.sum_append, List.sum_cons] at hall
    omega

end Steps

end Polyglot.Generate
