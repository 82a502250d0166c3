import Polyglot.Proofs.CompleteRuns
import Polyglot.Proofs.Sequential
import Mathlib.Algebra.Order.BigOperators.Group.List

/-!
# No order gets stuck

If the calls come to an end in one order of their steps, they do so in every order: the disk lets a
module be written at any time if it lets it be written at all, and there are words left to choose from.

* `Ends`: however the steps go on, all calls come to an end;
* `exists_moves`: a call that has not ended can take a step;
* `Interleaves.ends`: the main statement.
-/

namespace Polyglot.Generate

open Disk OutputDirectory
open Emitting (Gives directories)

/-- However the steps go on, all calls come to an end. -/
inductive Ends (reports : Reports) : Emission × List Call → Prop
  | ended {s : Emission × List Call} (h : ∀ c ∈ s.2, c.stage.isOver = true) : Ends reports s
  | next {s : Emission × List Call} (hstep : ∃ s', Step reports s s')
      (hall : ∀ s', Step reports s s' → Ends reports s') : Ends reports s

/-! ### Work -/

/-- How many steps are left at most. -/
def Stage.work : Stage → Nat
  | building _ left => left.length + 2
  | written _ => 1
  | returned _ _ => 0

def work (cs : List Call) : Nat :=
  (cs.map fun c => c.stage.work).sum

section Steps

variable {reports : Reports} {e e' : Emission} {c c' : Call} {s s' : Emission × List Call}

lemma Moves.work_lt (h : Moves reports e c e' c') : c'.stage.work < c.stage.work := by
  cases h with
  | build p supply hstage hfresh =>
    rw [hstage]
    simp [Stage.work]
  | write hkind hstage hwrite =>
    rw [hstage]
    simp [Stage.work]
  | note hkind hstage hnote =>
    rw [hstage]
    simp [Stage.work]
  | declare hkind hstage hnote =>
    rw [hstage]
    simp [Stage.work]

/-- Each step is work done. -/
lemma Step.work_lt (h : Step reports s s') : work s'.2 < work s.2 := by
  cases h with
  | move before after hmoves =>
    have hless := hmoves.work_lt
    simp only [work, List.map_append, List.map_cons, List.sum_append, List.sum_cons]
    omega

/-! ### The next step -/

/-- There is a word to choose for a piece. -/
lemma exists_fresh {built : List (Piece Word)} {cacheKeys : CacheKeys} (p : Piece Unit)
    (hplaceholders : p.isCode = true → (insertionOf built).used.length < wordCount)
    (hkeys : p.isKey = true → cacheKeys.length < wordCount) :
    ∃ q : Piece Word, q.blank = p ∧ q.Fresh built cacheKeys := by
  cases p with
  | text s => exact ⟨.text s, rfl, trivial⟩
  | code code _ =>
    exact ⟨.code code (Supply.firstUnused _), rfl, Supply.firstUnused_not_mem (hplaceholders rfl)⟩
  | key _ => exact ⟨.key (Supply.firstUnused _), rfl, Supply.firstUnused_not_mem (hkeys rfl)⟩

/-- **A call that has a piece left can add it.** -/
theorem Roomy.exists_moves {cs : List Call} (h : Roomy e cs) (hc : c ∈ cs) (hleft : c.stage.left ≠ []) :
    ∃ e' c', Moves reports e c e' c' := by
  cases hstage : c.stage with
  | building built left =>
    cases left with
    | cons p left =>
      obtain ⟨hplaceholders, hkeys⟩ := h.room hc hstage
      obtain ⟨q, rfl, hfresh⟩ := exists_fresh p hplaceholders hkeys
      exact ⟨_, _, .build q e.supply hstage hfresh⟩
    | nil => exact absurd (by rw [hstage]; rfl) hleft
  | written | returned => exact absurd (by rw [hstage]; rfl) hleft

/-- **A call that has not ended can take a step.** -/
theorem exists_moves {cs : List Call} (hsound : c.Sound e.options reports)
    (hover : c.stage.isOver = false)
    (hwrite : c.dir.kind = .modules → c.dir.CanWrite e.disk (e.options.moduleName c.catalog.id))
    (hroom : Roomy e cs) (hc : c ∈ cs) : ∃ e' c', Moves reports e c e' c' := by
  by_cases hleft : c.stage.left = []
  · cases hstage : c.stage with
    | building built left =>
      rw [hstage] at hleft
      obtain rfl : left = [] := hleft
      cases hkind : c.dir.kind with
      | modules =>
        obtain ⟨d, hd⟩ := (hwrite hkind).exists_write c.text
        exact ⟨_, _, .write hkind hstage (Emitting.gives_onDisk_iff.2 ⟨d, hd, rfl⟩)⟩
      | declarations =>
        have hpieces := hsound.pieces
        rw [hkind, hstage] at hpieces
        obtain rfl : built = [] := by simpa [Stage.built, Stage.left, Call.pieces] using hpieces
        exact ⟨_, _, .declare hkind hstage (Emitting.gives_modify_iff.2 rfl)⟩
    | written built =>
      have hkind := hsound.written (by rw [hstage]; rfl)
      rw [hstage] at hkind
      obtain hkind : c.dir.kind = .modules := by simpa [Stage.isOver] using hkind
      exact ⟨_, _, .note hkind hstage (Emitting.gives_modify_iff.2 rfl)⟩
    | returned built files =>
      rw [hstage] at hover
      cases hover
  · exact hroom.exists_moves hc hleft

end Steps

/-! ### Room for words -/

section Room

variable {reports : Reports} {cs : List (Catalog × String)} {e e' : Emission} {done : List Call}

/-- There are words enough if there are as many as the calls have pieces. -/
lemma roomy_calls
    (hroom : e.modules.cacheKeys.length + ((calls e.options reports cs).map Call.size).sum ≤ wordCount) :
    Roomy e (calls e.options reports cs) := by
  constructor
  · have hle : ((calls e.options reports cs).map Call.keysLeft).sum ≤
        ((calls e.options reports cs).map Call.size).sum :=
      List.sum_le_sum fun c _ => List.countP_le_length
    omega
  · intro c hc
    have hone : c.size ≤ ((calls e.options reports cs).map Call.size).sum :=
      List.single_le_sum (by simp) _ (List.mem_map_of_mem hc)
    have hle : c.placeholders ≤ c.size := by
      obtain ⟨a, -, dir, -, rfl⟩ := (mem_calls_iff _ _ _).1 hc
      exact List.countP_le_length
    omega

/-- **No order gets stuck** if one does not: as long as a call has not ended, there is a next step. -/
theorem Interleaves.exists_step {e₁ : Emission} {done₁ : List Call}
    (h₁ : Interleaves reports cs e e₁ done₁)
    (hroom : e.modules.cacheKeys.length + ((calls e.options reports cs).map Call.size).sum ≤ wordCount)
    {s : Emission × List Call} (h : Reaches reports (e, calls e.options reports cs) s) {c : Call}
    (hc : c ∈ s.2) (hover : c.stage.isOver = false) : ∃ s', Step reports s s' := by
  have hsound : c.Sound s.1.options reports := by
    rw [h.progress.options]
    exact h.progress.sound (sound_calls _ _ _) c hc
  have hwrite : c.dir.kind = .modules →
      c.dir.CanWrite s.1.disk (s.1.options.moduleName c.catalog.id) := by
    intro hkind
    -- The same call has written its module in the order that came to an end.
    have habout := List.mem_map_of_mem (f := Call.about) hc
    rw [h.progress.about, ← h₁.progress.about] at habout
    obtain ⟨a, ha, heq⟩ := List.mem_map.1 habout
    have hdir : a.dir = c.dir := congrArg Prod.snd heq
    have hcatalog : a.catalog = c.catalog := congrArg (fun x => x.1.1) heq
    have hwritable := h₁.progress.writable (writable_calls _ _ _ _) a ha
      (Stage.hasWritten_of_isOver (h₁.ended a ha)) (by rw [hdir, hkind])
    rw [hdir, hcatalog, h₁.progress.options, ← canWrite_congr h₁.progress.current
      h₁.progress.directory_iff] at hwritable
    rw [h.progress.options]
    exact (canWrite_congr h.progress.current h.progress.directory_iff).1 hwritable
  obtain ⟨e', c', hmoves⟩ := exists_moves hsound hover hwrite (h.roomy_iff.2 (roomy_calls hroom)) hc
  obtain ⟨before, after, hcs⟩ := List.append_of_mem hc
  obtain ⟨e₂, cs₂⟩ := s
  subst hcs
  exact ⟨_, .move before after hmoves⟩

/-- **Every order comes to an end** if one does. -/
theorem Interleaves.ends {e₁ : Emission} {done₁ : List Call} (h₁ : Interleaves reports cs e e₁ done₁)
    (hroom : e.modules.cacheKeys.length + ((calls e.options reports cs).map Call.size).sum ≤ wordCount)
    {s : Emission × List Call} (h : Reaches reports (e, calls e.options reports cs) s) :
    Ends reports s := by
  induction hwork : work s.2 using Nat.strong_induction_on generalizing s with
  | _ n ih =>
    by_cases hover : ∀ c ∈ s.2, c.stage.isOver = true
    · exact .ended hover
    · push Not at hover
      obtain ⟨c, hc, hnot⟩ := hover
      refine .next (h₁.exists_step hroom h hc (by simpa using hnot)) fun s' hstep => ?_
      exact ih (work s'.2) (hwork ▸ hstep.work_lt) (h.tail hstep) rfl

end Room

end Polyglot.Generate
