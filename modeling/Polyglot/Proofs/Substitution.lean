import Polyglot.Generate.LocaleClass
import Polyglot.Script.Literal
import Mathlib.Algebra.Order.Ring.Nat
import Mathlib.Data.List.Infix
import Mathlib.Data.List.Nodup
import Mathlib.Data.List.Perm.Subperm
import Mathlib.Tactic.Lemma

/-!
# Code in the place of placeholders

A text is made of pieces: fixed text, pieces of code, and cache keys. As it is printed, each piece of
code is held by a placeholder. If none of these placeholders is found in the fixed text, replacing
them gives the text with the code in it.

* `Supply.draw_not_mem`: a word that is drawn is new;
* `Piece`: a piece of a text, with `Piece.printed` and `Piece.finished`, its text before and after the
  placeholders are replaced;
* `placeholderAt_eq_some_iff`: what is taken for a placeholder;
* `processFrom_append`: text without a known placeholder stays;
* `process_printed`: the main statement.
-/

namespace Polyglot

/-! ### Words -/

namespace Word

lemma length_digitsOf (count n : Nat) : (digitsOf count n).length = count := by
  induction count generalizing n with
  | zero => rfl
  | succ count ih => simp [digitsOf, ih]

lemma length_digits (w : Word) : w.digits.length = placeholderDigits :=
  length_digitsOf 8 w.val

lemma isLowerHex_of_mem_digits {w : Word} {c : Char} (h : c ∈ w.digits) : isLowerHex c = true := by
  have hdigit : ∀ n : Fin 16, isLowerHex (digit n) = true := by decide
  have hdigits : ∀ count n, ∀ c ∈ digitsOf count n, isLowerHex c = true := by
    intro count
    induction count with
    | zero => simp [digitsOf]
    | succ count ih =>
      intro n c hc
      rcases List.mem_append.1 hc with hc | hc
      · exact ih _ c hc
      · rw [List.mem_singleton.1 hc]
        exact hdigit ⟨n % 16, Nat.mod_lt n (by decide)⟩
  exact hdigits 8 w.val c h

lemma digit_inj {m n : Nat} (hm : m < 16) (hn : n < 16) (h : digit m = digit n) : m = n := by
  have hall : ∀ m n : Fin 16, digit m = digit n → m = n := by decide
  exact congrArg Fin.val (hall ⟨m, hm⟩ ⟨n, hn⟩ h)

lemma digitsOf_inj {count m n : Nat} (h : digitsOf count m = digitsOf count n) :
    m % 16 ^ count = n % 16 ^ count := by
  induction count generalizing m n with
  | zero => simp [Nat.mod_one]
  | succ count ih =>
    obtain ⟨hhigh, hlow⟩ := List.append_inj' h rfl
    have hdiv := ih hhigh
    have hmod := digit_inj (Nat.mod_lt m (by decide)) (Nat.mod_lt n (by decide))
      (List.singleton_inj.1 hlow)
    rw [Nat.pow_succ, Nat.mul_comm, Nat.mod_mul, Nat.mod_mul, hdiv, hmod]

/-- Different words have different digits. -/
lemma digits_inj {v w : Word} (h : v.digits = w.digits) : v = w := by
  have hdigits := digitsOf_inj h
  have hlt : ∀ u : Word, u.val % 16 ^ 8 = u.val := fun u => Nat.mod_eq_of_lt u.isLt
  rw [hlt, hlt] at hdigits
  exact Fin.ext hdigits

/-- Different words have different placeholders. -/
lemma placeholder_inj {v w : Word} (h : v.placeholder = w.placeholder) : v = w :=
  digits_inj (List.append_cancel_left h)

lemma ofNat_inj {m n : Nat} (hm : m < wordCount) (hn : n < wordCount)
    (h : Word.ofNat m = Word.ofNat n) : m = n := by
  have hmod : m % wordCount = n % wordCount := congrArg Fin.val h
  rwa [Nat.mod_eq_of_lt hm, Nat.mod_eq_of_lt hn] at hmod

end Word

namespace Supply

lemma firstUnused_not_mem {used : List Word} (h : used.length < wordCount) :
    firstUnused used ∉ used := by
  have hnodup : ((List.range (used.length + 1)).map Word.ofNat).Nodup := by
    refine List.Nodup.map_on ?_ List.nodup_range
    intro m hm n hn
    rw [List.mem_range] at hm hn
    exact Word.ofNat_inj (by omega) (by omega)
  -- There are more candidates than used words.
  have hsome : ∃ w ∈ (List.range (used.length + 1)).map Word.ofNat, w ∉ used := by
    by_contra hall
    push Not at hall
    have hlength := (List.subperm_of_subset hnodup hall).length_le
    rw [List.length_map, List.length_range] at hlength
    omega
  unfold firstUnused
  cases hfind : ((List.range (used.length + 1)).map Word.ofNat).find? fun w => !used.contains w with
  | none =>
    obtain ⟨w, hw, hnew⟩ := hsome
    exact absurd (List.find?_eq_none.1 hfind w hw) (by simpa using hnew)
  | some w => simpa using List.find?_some hfind

/-- A word that is drawn is new, if there are any. -/
lemma draw_not_mem (s : Supply) {used : List Word} (h : used.length < wordCount) :
    (s.draw used).1 ∉ used := by
  unfold draw
  cases hdrop : s.outcomes.dropWhile used.contains with
  | nil => exact firstUnused_not_mem h
  | cons w rest =>
    have hhead := List.head?_dropWhile_not used.contains s.outcomes
    rw [hdrop] at hhead
    simpa using hhead

end Supply

/-! ### The form of placeholders -/

/-- The text has the form of a placeholder. -/
def IsPlaceholder (found : List Char) : Prop :=
  ∃ digits, found = placeholderMark ++ digits ∧ digits.length = placeholderDigits ∧
    ∀ c ∈ digits, isLowerHex c = true

lemma isPlaceholder_placeholder (w : Word) : IsPlaceholder w.placeholder :=
  ⟨w.digits, rfl, w.length_digits, fun _ => Word.isLowerHex_of_mem_digits⟩

lemma IsPlaceholder.length {found : List Char} (h : IsPlaceholder found) : found.length = 14 := by
  obtain ⟨digits, rfl, hlength, -⟩ := h
  rw [List.length_append, hlength]
  rfl

/-- What is taken for a placeholder. -/
lemma placeholderAt_eq_some_iff {cs found : List Char} :
    placeholderAt cs = some found ↔ found <+: cs ∧ IsPlaceholder found := by
  unfold placeholderAt
  constructor
  · intro h
    split at h
    · rename_i hmark
      simp only at h
      split at h
      · rename_i hdigits
        cases h
        obtain ⟨rest, rfl⟩ := List.isPrefixOf_iff_prefix.1 hmark
        rw [List.drop_left, Bool.and_eq_true, beq_iff_eq, List.all_eq_true] at *
        exact ⟨(List.prefix_append_right_inj _).2 (List.take_prefix ..), _, rfl, hdigits.1, hdigits.2⟩
      · cases h
    · cases h
  · rintro ⟨⟨rest, rfl⟩, digits, rfl, hlength, hhex⟩
    have hmark : placeholderMark.isPrefixOf (placeholderMark ++ digits ++ rest) = true := by
      rw [List.isPrefixOf_iff_prefix, List.append_assoc]
      exact List.prefix_append ..
    rw [if_pos hmark, List.append_assoc, List.drop_left, ← hlength, List.take_left]
    simp only [BEq.rfl, Bool.true_and, List.all_eq_true.2 hhex, if_true]

/-- No placeholder ends within another. -/
lemma IsPlaceholder.not_overlap {x y : List Char} (h : IsPlaceholder (x ++ y)) (hx : x ≠ [])
    (hy : y ≠ []) {w : Word} {rest : List Char} : ¬ y <+: w.placeholder ++ rest := by
  obtain ⟨digits, heq, hlength, hhex⟩ := h
  have hline : ∀ c ∈ digits, c ≠ '_' := by
    rintro c hc rfl
    exact absurd (hhex _ hc) (by decide)
  obtain ⟨d, ds, rfl⟩ : ∃ d ds, digits = d :: ds := by
    refine List.exists_cons_of_ne_nil ?_
    rintro rfl
    cases hlength
  intro hstart
  have hfirst : ∃ tail, y = '_' :: tail ∧ (tail = [] ∨ ∃ tail', tail = '_' :: tail') := by
    obtain ⟨c, tail, rfl⟩ := List.exists_cons_of_ne_nil hy
    obtain ⟨rfl, htail⟩ := List.cons_prefix_cons.1
      (show c :: tail <+: '_' :: ('_' :: (['u', 's', 'r', '_'] ++ w.digits) ++ rest) from hstart)
    refine ⟨tail, rfl, ?_⟩
    cases tail with
    | nil => exact Or.inl rfl
    | cons c tail =>
      obtain ⟨rfl, -⟩ := List.cons_prefix_cons.1 htail
      exact Or.inr ⟨tail, rfl⟩
  obtain ⟨tail, rfl, htail⟩ := hfirst
  have hdrop : ('_' :: '_' :: 'u' :: 's' :: 'r' :: '_' :: d :: ds).drop x.length = '_' :: tail := by
    rw [show '_' :: '_' :: 'u' :: 's' :: 'r' :: '_' :: d :: ds = x ++ '_' :: tail from heq.symm,
      List.drop_left]
  have hpos : 0 < x.length := List.length_pos_iff.2 hx
  -- The second part begins with an underscore, of which there are two more in the mark. Neither of
  -- these is followed by another one.
  generalize x.length = n at hdrop hpos
  match n with
  | 1 =>
    obtain ⟨-, rfl⟩ := List.cons.inj hdrop
    simp at htail
  | 2 | 3 | 4 => simp at hdrop
  | 5 =>
    obtain ⟨-, rfl⟩ := List.cons.inj hdrop
    rcases htail with htail | ⟨tail', htail⟩
    · cases htail
    · exact hline d (List.mem_cons_self ..) (List.cons.inj htail).1
  | n + 6 =>
    refine hline '_' (List.mem_of_mem_drop (i := n) ?_) rfl
    rw [show (d :: ds).drop n = '_' :: tail from hdrop]
    exact List.mem_cons_self ..

/-! ### Replacing placeholders -/

namespace Insertion

variable {table : List (List Char × List Char)}

lemma processFrom_skip (xs ys : List Char) :
    processFrom table xs.length (xs ++ ys) = processFrom table 0 ys := by
  induction xs with
  | nil => rfl
  | cons x xs ih => simpa [processFrom] using ih

lemma processFrom_placeholder {w : Word} {code : List Char}
    (hcode : table.lookup w.placeholder = some code) (rest : List Char) :
    processFrom table 0 (w.placeholder ++ rest) = code ++ processFrom table 0 rest := by
  have hfound : placeholderAt (w.placeholder ++ rest) = some w.placeholder :=
    placeholderAt_eq_some_iff.2 ⟨List.prefix_append .., isPlaceholder_placeholder w⟩
  obtain ⟨c, cs, hcs⟩ : ∃ c cs, w.placeholder = c :: cs := ⟨_, _, rfl⟩
  rw [hcs] at hfound hcode ⊢
  rw [List.cons_append] at hfound ⊢
  simp only [processFrom, hfound, hcode, Option.getD_some, List.length_cons, Nat.add_sub_cancel,
    processFrom_skip]

/-- Every placeholder begins with an underscore. -/
lemma processFrom_of_not_mem {cs : List Char} (h : '_' ∉ cs) (rest : List Char) :
    processFrom table 0 (cs ++ rest) = cs ++ processFrom table 0 rest := by
  induction cs with
  | nil => rfl
  | cons c cs ih =>
    rw [List.mem_cons, not_or] at h
    have hnone : placeholderAt (c :: (cs ++ rest)) = none := by
      rw [Option.eq_none_iff_forall_ne_some]
      intro found hfound
      obtain ⟨hstart, digits, rfl, -⟩ := placeholderAt_eq_some_iff.1 hfound
      exact h.1 (List.cons_prefix_cons.1 hstart).1
    simp only [List.cons_append, processFrom, hnone, ih h.2]

/-- **Text without a known placeholder stays**, if no placeholder begins in it and ends after it. -/
theorem processFrom_append {cs rest : List Char}
    (htable : ∀ found, IsPlaceholder found → found <:+: cs → table.lookup found = none)
    (hend : ∀ x y, x ≠ [] → x <:+ cs → y ≠ [] → IsPlaceholder (x ++ y) → ¬ y <+: rest) :
    processFrom table 0 (cs ++ rest) = cs ++ processFrom table 0 rest := by
  -- By induction on the length, since a text of that form is passed over as a whole.
  induction hn : cs.length using Nat.strong_induction_on generalizing cs with
  | h n ih =>
    cases cs with
    | nil => rfl
    | cons c cs =>
      have hstep : ∀ first cs', c :: cs = first ++ cs' → first ≠ [] →
          processFrom table 0 (cs' ++ rest) = cs' ++ processFrom table 0 rest := by
        intro first cs' hcs hfirst
        have hsuffix : cs' <:+ c :: cs := ⟨first, hcs.symm⟩
        refine ih cs'.length ?_ ?_ ?_ rfl
        · rw [← hn, hcs, List.length_append]
          have := List.length_pos_iff.2 hfirst
          omega
        · intro found hfound hinside
          exact htable found hfound (hinside.trans hsuffix.isInfix)
        · intro x y hx hxs
          exact hend x y hx (hxs.trans hsuffix)
      rw [List.cons_append, processFrom]
      cases hat : placeholderAt (c :: (cs ++ rest)) with
      | none => simp only [hstep [c] cs rfl (by simp)]; rfl
      | some found =>
        obtain ⟨hstart, hfound⟩ := placeholderAt_eq_some_iff.1 hat
        have hinside : found <+: c :: cs := by
          rcases List.prefix_or_prefix_of_prefix hstart (List.prefix_append (c :: cs) rest) with h | h
          · exact h
          · obtain ⟨y, rfl⟩ := h
            by_cases hy : y = []
            · simp [hy]
            · exact absurd ((List.prefix_append_right_inj _).1 hstart)
                (hend _ y (by simp) (List.suffix_refl _) hy hfound)
        obtain ⟨cs', hcs⟩ := hinside
        obtain ⟨f, rfl⟩ : ∃ f, found = c :: f := by
          cases found with
          | nil => cases hfound.length
          | cons a f => exact ⟨f, by rw [(List.cons.inj hcs).1]⟩
        obtain rfl : f ++ cs' = cs := (List.cons.inj hcs).2
        simp only [htable _ hfound ⟨[], cs', hcs⟩, Option.getD_none, List.length_cons,
          Nat.add_sub_cancel, List.append_assoc, processFrom_skip, hstep (c :: f) cs' rfl (by simp)]
        rw [← List.append_assoc, hcs]

end Insertion

namespace Generate

open Script

/-! ### Pieces -/

/-- A piece of a text: fixed text, code of which nothing is known, or a cache key. Code and cache keys
come with what is chosen for them. -/
inductive Piece (α : Type) where
  | text (s : String)
  | code (code : String) (word : α)
  | key (word : α)
deriving DecidableEq

namespace Piece

/-- The piece without what is chosen for it. -/
def blank {α : Type} : Piece α → Piece Unit
  | text s => text s
  | code c _ => code c ()
  | key _ => key ()

/-- The piece as it is printed. Code is held by a placeholder. -/
def printed : Piece Word → String
  | text s => s
  | code _ w => String.ofList w.placeholder
  | key w => quoteString (cacheKeyMark ++ w.text)

/-- The piece once the placeholders have been replaced. -/
def finished : Piece Word → String
  | text s => s
  | code c _ => c
  | key w => quoteString (cacheKeyMark ++ w.text)

/-- The piece if it is fixed text, and a blank for what may be chosen. -/
def fixed {α : Type} : Piece α → String
  | text s => s
  | code _ _ => " "
  | key _ => " "

/-- The word of a placeholder, with the code that it stands for. -/
def insertion? : Piece Word → Option (Word × String)
  | code c w => some (w, c)
  | _ => none

/-- The word of a cache key. -/
def key? : Piece Word → Option Word
  | key w => some w
  | _ => none

end Piece

/-- A text that is made of pieces. -/
def textOf {α : Type} (f : Piece α → String) (ps : List (Piece α)) : String :=
  String.join (ps.map f)

/-- The codes that stand in a text, with their placeholders. -/
def insertionOf (ps : List (Piece Word)) : Insertion :=
  ⟨ps.filterMap Piece.insertion?⟩

section TextOf

variable {α : Type} (f : Piece α → String)

@[simp] lemma textOf_nil : textOf f [] = "" := rfl

@[simp] lemma textOf_cons (p : Piece α) (ps : List (Piece α)) :
    textOf f (p :: ps) = f p ++ textOf f ps := by
  simp [textOf]

@[simp] lemma textOf_append (ps qs : List (Piece α)) :
    textOf f (ps ++ qs) = textOf f ps ++ textOf f qs := by
  simp [textOf]

end TextOf

lemma eq_underscore_of_mem_escapeChar {c : Char} (h : '_' ∈ escapeChar c) : c = '_' := by
  unfold escapeChar at h
  split at h
  all_goals simp only [List.mem_cons, List.not_mem_nil, or_false, Char.reduceEq] at h
  exact h.symm

/-- A cache key is printed in single quotes, and has no underscore. -/
lemma quoteString_cacheKey (w : Word) : ∃ cs,
    (quoteString (cacheKeyMark ++ w.text)).toList = '\'' :: cs ∧ '_' ∉ '\'' :: cs := by
  have hchars : ∀ c, isLowerHex c = false → c ∉ cacheKeyMark.toList →
      c ∉ (cacheKeyMark ++ w.text).toList := by
    intro c hhex hmark hc
    rw [String.toList_append, List.mem_append, or_iff_right hmark, Word.text, String.toList_ofList] at hc
    rw [Word.isLowerHex_of_mem_digits hc] at hhex
    cases hhex
  have hquote : chooseQuote (cacheKeyMark ++ w.text).toList = '\'' := by
    rw [chooseQuote_eq, List.count_eq_zero_of_not_mem (hchars '\'' (by decide) (by decide)),
      if_neg (Nat.not_lt_zero _)]
  refine ⟨escapeQuoted '\'' (cacheKeyMark ++ w.text).toList ++ ['\''], ?_, ?_⟩
  · rw [quoteString, String.toList_ofList, quoteChars, hquote]
    rfl
  rw [List.mem_cons, List.mem_append, List.mem_singleton, escapeQuoted, List.mem_flatMap]
  rintro (h | ⟨c, hc, h⟩ | h)
  · cases h
  · split at h
    · simp at h
    · obtain rfl := eq_underscore_of_mem_escapeChar h
      exact hchars '_' (by decide) (by decide) hc
  · cases h

/-! ### Finished texts -/

/-- The text with the code in it, from somewhere in the fixed text on. `before` is what has been passed
over since the last piece that is not fixed. -/
lemma processFrom_printed {table : List (List Char × List Char)} {ps : List (Piece Word)}
    (hcodes : ∀ c w, .code c w ∈ ps → table.lookup w.placeholder = some c.toList) (before : List Char)
    (htable : ∀ found, found <:+: before ++ (textOf Piece.fixed ps).toList →
      table.lookup found = none) :
    Insertion.processFrom table 0 (before ++ (textOf Piece.printed ps).toList) =
      before ++ (textOf Piece.finished ps).toList := by
  have hbefore : ∀ found, IsPlaceholder found → found <:+: before → table.lookup found = none :=
    fun found _ hinside => htable found (hinside.trans (List.prefix_append ..).isInfix)
  induction ps generalizing before with
  | nil =>
    refine Insertion.processFrom_append hbefore ?_
    intro x y _ _ hy _ hstart
    exact hy (List.prefix_nil.1 hstart)
  | cons p ps ih =>
    have hcodes' : ∀ c w, .code c w ∈ ps → table.lookup w.placeholder = some c.toList :=
      fun c w hmem => hcodes c w (List.mem_cons_of_mem _ hmem)
    have hlater : ∀ found, found <:+: (textOf Piece.fixed ps).toList → table.lookup found = none := by
      intro found hinside
      refine htable found (hinside.trans ?_)
      rw [textOf_cons, String.toList_append, ← List.append_assoc]
      exact (List.suffix_append ..).isInfix
    have hrest : Insertion.processFrom table 0 (textOf Piece.printed ps).toList =
        (textOf Piece.finished ps).toList :=
      ih hcodes' [] hlater fun found _ h => hlater found (h.trans List.nil_infix)
    rw [textOf_cons, textOf_cons, String.toList_append, String.toList_append]
    cases p with
    | text s =>
      rw [textOf_cons, String.toList_append, ← List.append_assoc] at htable
      rw [← List.append_assoc, ← List.append_assoc]
      exact ih hcodes' _ htable fun found _ h => htable found (h.trans (List.prefix_append ..).isInfix)
    | code c w =>
      rw [Insertion.processFrom_append hbefore, Piece.printed, String.toList_ofList,
        Insertion.processFrom_placeholder (hcodes c w (List.mem_cons_self ..)), hrest]
      · rfl
      · intro x y hx _ hy hplaceholder
        rw [Piece.printed, String.toList_ofList]
        exact hplaceholder.not_overlap hx hy
    | key w =>
      obtain ⟨cs, hcs, hline⟩ := quoteString_cacheKey w
      rw [Insertion.processFrom_append hbefore, Piece.printed, hcs,
        Insertion.processFrom_of_not_mem hline, hrest, ← hcs]
      · rfl
      · rintro x y - - hy ⟨digits, heq, -, hhex⟩ hstart
        rw [Piece.printed, hcs] at hstart
        obtain ⟨a, tail, rfl⟩ := List.exists_cons_of_ne_nil hy
        obtain ⟨rfl, -⟩ := List.cons_prefix_cons.1 hstart
        -- No placeholder has a quote in it.
        have hquote : '\'' ∈ placeholderMark ++ digits := by
          rw [← heq]
          simp
        rw [List.mem_append, or_iff_right (by decide)] at hquote
        exact absurd (hhex _ hquote) (by decide)

/-- Each code is found by its placeholder. -/
lemma lookup_table {i : Insertion} (hnodup : i.used.Nodup) {w : Word} {c : String}
    (h : (w, c) ∈ i.codes) : i.table.lookup w.placeholder = some c.toList := by
  obtain ⟨first, second, hcodes⟩ := List.append_of_mem h
  unfold Insertion.used at hnodup
  rw [hcodes, List.map_append, List.map_cons] at hnodup
  refine List.lookup_eq_some_iff.2 ⟨_, _, by rw [Insertion.table, hcodes, List.map_append]; rfl, ?_⟩
  intro p hp
  obtain ⟨⟨v, code⟩, hmem, rfl⟩ := List.mem_map.1 hp
  refine bne_iff_ne.2 fun hsame => ?_
  obtain rfl := Word.placeholder_inj hsame
  exact (List.nodup_append.1 hnodup).2.2 w (List.mem_map_of_mem hmem) w (List.mem_cons_self ..) rfl

/-- **The text with the code in it.** Placeholders that are all different, and none of which is found
in the fixed text, give way to their codes, and nothing else changes. -/
theorem process_printed {ps : List (Piece Word)} (hnodup : (insertionOf ps).used.Nodup)
    (hapart : ∀ w ∈ (insertionOf ps).used, ¬ w.placeholder <:+: (textOf Piece.fixed ps).toList) :
    (insertionOf ps).process (textOf Piece.printed ps) = textOf Piece.finished ps := by
  have hcodes : ∀ c w, .code c w ∈ ps →
      (insertionOf ps).table.lookup w.placeholder = some c.toList := by
    intro c w hmem
    exact lookup_table hnodup (List.mem_filterMap.2 ⟨_, hmem, rfl⟩)
  have htable : ∀ found, found <:+: (textOf Piece.fixed ps).toList →
      (insertionOf ps).table.lookup found = none := by
    intro found hinside
    refine List.lookup_eq_none_iff.2 fun p hp => bne_iff_ne.2 ?_
    rintro rfl
    obtain ⟨⟨w, c⟩, hmem, rfl⟩ := List.mem_map.1 hp
    exact hapart w (List.mem_map_of_mem hmem) hinside
  have hfinished := processFrom_printed hcodes [] htable
  rw [List.nil_append, List.nil_append] at hfinished
  rw [Insertion.process, hfinished, String.ofList_toList]

end Generate

end Polyglot
