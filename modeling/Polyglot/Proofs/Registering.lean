import Polyglot.Proofs.Substitution
import Mathlib.Data.Fintype.Card

/-!
# Codes that are noted one after the other

Each code gets a word that stands for no other code. In a text that is put together from fixed text
and the placeholders of these words, every placeholder gives way to its code, wherever the text
around it is cut.

* `Insertion.addAll`: codes that are noted one after the other;
* `Insertion.AllReturn`: the condition under which all of these calls return;
* `Insertion.addAll_spec`: a run of calls, from any point on;
* `literalRuns`: the fixed text between placeholders;
* `process_registered`: the main statement.
-/

namespace Polyglot

namespace Insertion

/-- Note codes one after the other. Gives the words that stand for them, and all that is noted in the
end. -/
def addAll (i : Insertion) (supply : Supply) : List String → List Word × Insertion
  | [] => ([], i)
  | code :: codes =>
    let (w, i, supply) := i.add supply code
    let (ws, i) := i.addAll supply codes
    (w :: ws, i)

/-- Every call finds a word that stands for nothing yet. A call for which there is none would look for
one forever. -/
def AllReturn (supply : Supply) (codes : List String) : Prop :=
  ∀ earlier code later, codes = earlier ++ code :: later →
    ∃ w, w ∉ (({} : Insertion).addAll supply earlier).2.used

/-- One call. -/
lemma add_spec {i : Insertion} (hi : i.used.Nodup) (hroom : i.used.length < wordCount)
    (supply : Supply) (code : String) :
    (i.add supply code).2.1.codes = i.codes ++ [((i.add supply code).1, code)] ∧
      (i.add supply code).2.1.used.Nodup := by
  refine ⟨rfl, ?_⟩
  show ((i.codes ++ [((supply.draw i.used).1, code)]).map (·.1)).Nodup
  rw [List.map_append]
  exact hi.append (List.nodup_singleton _)
    (List.disjoint_singleton.2 (supply.draw_not_mem hroom))

/-- **A run of calls, from any point on**, as long as there are words left. -/
theorem addAll_spec {i : Insertion} (hi : i.used.Nodup) (supply : Supply) {codes : List String}
    (hroom : i.used.length + codes.length ≤ wordCount) :
    (i.addAll supply codes).1.length = codes.length ∧
      (i.addAll supply codes).2.codes = i.codes ++ (i.addAll supply codes).1.zip codes ∧
      (i.addAll supply codes).2.used.Nodup := by
  induction codes generalizing i supply with
  | nil => exact ⟨rfl, by simp [addAll], hi⟩
  | cons code codes ih =>
    rw [List.length_cons] at hroom
    obtain ⟨hcodes, hnodup⟩ := add_spec hi (by omega) supply code
    have hlength : (i.add supply code).2.1.used.length = i.used.length + 1 := by
      simp [used, hcodes]
    obtain ⟨hwords, hall, hused⟩ := ih hnodup (i.add supply code).2.2 (by omega)
    refine ⟨congrArg (· + 1) hwords, ?_, hused⟩
    show ((i.add supply code).2.1.addAll (i.add supply code).2.2 codes).2.codes = _
    rw [hall, hcodes, List.append_assoc]
    rfl

/-- The calls on a new table, as long as there are words left. -/
lemma addAll_new (supply : Supply) {codes : List String} (hroom : codes.length ≤ wordCount) :
    (({} : Insertion).addAll supply codes).1.length = codes.length ∧
      (({} : Insertion).addAll supply codes).2.codes =
        (({} : Insertion).addAll supply codes).1.zip codes ∧
      (({} : Insertion).addAll supply codes).2.used = (({} : Insertion).addAll supply codes).1 ∧
      (({} : Insertion).addAll supply codes).2.used.Nodup := by
  have hstart : ({} : Insertion).used.length + codes.length ≤ wordCount := by
    simpa [used] using hroom
  obtain ⟨hlength, hcodes, hnodup⟩ := addAll_spec (i := {}) List.nodup_nil supply hstart
  refine ⟨hlength, hcodes, ?_, hnodup⟩
  rw [used, hcodes, List.map_append, List.map_fst_zip hlength.le]
  rfl

/-- All calls return exactly if there are no more of them than words. -/
lemma allReturn_iff {supply : Supply} {codes : List String} :
    AllReturn supply codes ↔ codes.length ≤ wordCount := by
  have hused : ∀ earlier : List String, earlier.length ≤ wordCount →
      (({} : Insertion).addAll supply earlier).2.used.Nodup ∧
        (({} : Insertion).addAll supply earlier).2.used.length = earlier.length := by
    intro earlier hroom
    obtain ⟨hlength, -, hused, hnodup⟩ := addAll_new supply hroom
    exact ⟨hnodup, by rw [hused, hlength]⟩
  constructor
  · intro h
    by_contra hmany
    obtain ⟨code, later, hlater⟩ : ∃ code later, codes.drop wordCount = code :: later := by
      refine List.exists_cons_of_ne_nil fun hnil => hmany ?_
      exact List.drop_eq_nil_iff.1 hnil
    obtain ⟨w, hw⟩ := h (codes.take wordCount) code later (by rw [← hlater, List.take_append_drop])
    -- One more word that is not used would make more words than there are.
    have hlength : (codes.take wordCount).length = wordCount := List.length_take_of_le (by omega)
    obtain ⟨hnodup, hall⟩ := hused (codes.take wordCount) hlength.le
    have hcard := (List.nodup_cons.2 ⟨hw, hnodup⟩).length_le_card
    rw [List.length_cons, hall, hlength, Fintype.card_fin] at hcard
    omega
  · rintro hroom earlier code later rfl
    rw [List.length_append, List.length_cons] at hroom
    obtain ⟨-, hall⟩ := hused earlier (by omega)
    exact ⟨_, Supply.firstUnused_not_mem (by omega)⟩

end Insertion

namespace Generate

/-! ### Fixed text -/

/-- The fixed text before, between and after the placeholders. -/
def literalRuns (ps : List (Piece Word)) : List String :=
  (ps.splitOnP fun q => q.insertion?.isSome).map (textOf Piece.printed)

lemma exists_literalRuns (ps : List (Piece Word)) : ∃ first rest, literalRuns ps = first :: rest := by
  obtain ⟨run, runs, hruns⟩ := List.exists_cons_of_ne_nil
    (List.splitOnP_ne_nil (fun q : Piece Word => q.insertion?.isSome) ps)
  exact ⟨_, _, by rw [literalRuns, hruns, List.map_cons]⟩

lemma literalRuns_code (c : String) (w : Word) (ps : List (Piece Word)) :
    literalRuns (.code c w :: ps) = "" :: literalRuns ps := by
  unfold literalRuns
  rw [List.splitOnP_cons_eq_if_modifyHead, if_pos (by simp [Piece.insertion?])]
  rfl

lemma literalRuns_fixed {q : Piece Word} (hq : q.insertion? = none) {ps : List (Piece Word)}
    {first : String} {rest : List String} (h : literalRuns ps = first :: rest) :
    literalRuns (q :: ps) = (q.printed ++ first) :: rest := by
  unfold literalRuns at h ⊢
  rw [List.splitOnP_cons_eq_if_modifyHead, if_neg (by simp [hq])]
  obtain ⟨run, runs, hruns, rfl, rfl⟩ := List.map_eq_cons_iff.1 h
  rw [hruns, List.modifyHead_cons, List.map_cons, textOf_cons]

/-- What is found on one side of a character that is not in it. -/
lemma infix_append_cons {α : Type} {l a b : List α} {x : α} (hx : x ∉ l) (h : l <:+: a ++ x :: b) :
    l <:+: a ∨ l <:+: b := by
  have hstart : ∀ m, x ∉ m → m <+: x :: b → m = [] := by
    intro m hm hpre
    cases m with
    | nil => rfl
    | cons y m =>
      obtain ⟨rfl, -⟩ := List.cons_prefix_cons.1 hpre
      exact absurd (List.mem_cons_self ..) hm
  rcases List.infix_append_iff.1 h with h | h | ⟨m, n, rfl, hm, hn⟩
  · exact .inl h
  · rcases List.infix_cons_iff.1 h with h | h
    · rw [hstart l hx h]
      exact .inl List.nil_infix
    · exact .inr h
  · rw [hstart n (fun hmem => hx (List.mem_append_right _ hmem)) hn, List.append_nil]
    exact .inl hm.isInfix

/-- What is found in a text with blanks for all that may be chosen is found in one run of it. `before`
is fixed text in front of the first run. -/
lemma infix_run_of_infix_fixed {found : List Char} (hblank : ' ' ∉ found) {ps : List (Piece Word)}
    {first : String} {rest : List String} (hruns : literalRuns ps = first :: rest)
    (before : List Char) (h : found <:+: before ++ (textOf Piece.fixed ps).toList) :
    found <:+: before ++ first.toList ∨ ∃ run ∈ rest, found <:+: run.toList := by
  induction ps generalizing first rest before with
  | nil =>
    obtain ⟨rfl, -⟩ := List.cons.inj hruns
    exact .inl h
  | cons q ps ih =>
    obtain ⟨second, others, hps⟩ := exists_literalRuns ps
    rw [textOf_cons, String.toList_append] at h
    -- it does not go across a blank
    have hblanked : found <:+: before ++ (" ".toList ++ (textOf Piece.fixed ps).toList) →
        found <:+: before ∨ found <:+: second.toList ∨ ∃ run ∈ others, found <:+: run.toList := by
      intro hin
      rw [show " ".toList = [' '] by decide] at hin
      exact (infix_append_cons hblank hin).imp_right fun hin => ih hps [] hin
    cases q with
    | text s =>
      rw [literalRuns_fixed rfl hps] at hruns
      obtain ⟨rfl, rfl⟩ := List.cons.inj hruns
      rw [String.toList_append, ← List.append_assoc]
      rw [← List.append_assoc] at h
      exact ih hps _ h
    | code c w =>
      rw [literalRuns_code, hps] at hruns
      obtain ⟨rfl, rfl⟩ := List.cons.inj hruns
      rcases hblanked h with h | h | ⟨run, hrun, h⟩
      · exact .inl (by simpa using h)
      · exact .inr ⟨second, List.mem_cons_self .., h⟩
      · exact .inr ⟨run, List.mem_cons_of_mem _ hrun, h⟩
    | key w =>
      rw [literalRuns_fixed rfl hps] at hruns
      obtain ⟨rfl, rfl⟩ := List.cons.inj hruns
      rw [String.toList_append]
      rcases hblanked h with h | h | h
      · exact .inl (h.trans (List.prefix_append ..).isInfix)
      · refine .inl (h.trans ?_)
        rw [← List.append_assoc]
        exact (List.suffix_append ..).isInfix
      · exact .inr h

/-! ### Texts that are put together -/

lemma blank_not_mem_placeholder (w : Word) : ' ' ∉ w.placeholder := by
  intro h
  rcases List.mem_append.1 h with h | h
  · exact absurd h (by decide)
  · exact absurd (Word.isLowerHex_of_mem_digits h) (by decide)

/-- **Exactly the placeholders are replaced.** Codes that are noted one after the other get different
placeholders. In a text that is put together from fixed text and these placeholders, in any order and
as often as one likes, each placeholder gives way to its code as it is, and nothing else changes, as
long as no run of fixed text contains one of the placeholders. -/
theorem process_registered {supply : Supply} {codes : List String}
    (hreturn : Insertion.AllReturn supply codes) :
    ∃ words i, ({} : Insertion).addAll supply codes = (words, i) ∧ words.length = codes.length ∧
      (words.map Word.placeholder).Nodup ∧
      ∀ ps : List (Piece Word), (∀ c w, .code c w ∈ ps → (w, c) ∈ words.zip codes) →
        (∀ run ∈ literalRuns ps, ∀ w ∈ words, ¬ w.placeholder <:+: run.toList) →
        i.process (textOf Piece.printed ps) = textOf Piece.finished ps := by
  have hroom := Insertion.allReturn_iff.1 hreturn
  obtain ⟨hlength, hcodes, hused, hnodup⟩ := Insertion.addAll_new supply hroom
  generalize ({} : Insertion).addAll supply codes = r at hlength hcodes hnodup hused
  obtain ⟨words, i⟩ := r
  obtain rfl : i.used = words := hused
  refine ⟨_, i, rfl, hlength, hnodup.map fun v w => Word.placeholder_inj, ?_⟩
  intro ps hps hruns
  have hfound : ∀ c w, .code c w ∈ ps → i.table.lookup w.placeholder = some c.toList := by
    intro c w hmem
    refine lookup_table hnodup ?_
    rw [hcodes]
    exact hps c w hmem
  have hfixed : ∀ found, found <:+: (textOf Piece.fixed ps).toList → i.table.lookup found = none := by
    intro found hinside
    refine List.lookup_eq_none_iff.2 fun e he => bne_iff_ne.2 ?_
    rintro rfl
    obtain ⟨⟨w, c⟩, hmem, rfl⟩ := List.mem_map.1 he
    have hw : w ∈ i.used := List.mem_map_of_mem hmem
    obtain ⟨first, rest, hfirst⟩ := exists_literalRuns ps
    rw [hfirst] at hruns
    rcases infix_run_of_infix_fixed (blank_not_mem_placeholder w) hfirst [] hinside with
      h | ⟨run, hrun, h⟩
    · exact hruns first (List.mem_cons_self ..) w hw h
    · exact hruns run (List.mem_cons_of_mem _ hrun) w hw h
  have hprocessed := processFrom_printed hfound [] hfixed
  rw [List.nil_append, List.nil_append] at hprocessed
  rw [Insertion.process, hprocessed, String.ofList_toList]

/-- Codes that look like placeholders, between texts that begin and end like them. The source hands
out the first word twice. -/
theorem process_registered_lookalikes :
    Insertion.AllReturn ⟨[.ofNat 0x2a, .ofNat 0x2a, .ofNat 0xc0ffee]⟩ ["__usr_00c0ffee", "$1"] ∧
    ∃ i : Insertion, ({} : Insertion).addAll ⟨[.ofNat 0x2a, .ofNat 0x2a, .ofNat 0xc0ffee]⟩
        ["__usr_00c0ffee", "$1"] = ([.ofNat 0x2a, .ofNat 0xc0ffee], i) ∧
      i.process "__usr___usr_0000002a00__usr_deadbeef__us__usr_00c0ffee__usr_0000002a_" =
        "__usr___usr_00c0ffee00__usr_deadbeef__us$1__usr_00c0ffee_" := by
  have hreturn : Insertion.AllReturn ⟨[.ofNat 0x2a, .ofNat 0x2a, .ofNat 0xc0ffee]⟩
      ["__usr_00c0ffee", "$1"] := Insertion.allReturn_iff.2 (by decide)
  obtain ⟨words, i, hrun, -, -, hprocess⟩ := process_registered hreturn
  obtain rfl : [.ofNat 0x2a, .ofNat 0xc0ffee] = words := congrArg Prod.fst hrun
  have hruns : literalRuns [.text "__usr_", .code "__usr_00c0ffee" (.ofNat 0x2a), .text "00__usr_dead",
      .text "beef__us", .code "$1" (.ofNat 0xc0ffee), .code "__usr_00c0ffee" (.ofNat 0x2a),
      .text "_"] = ["__usr_", "00__usr_deadbeef__us", "", "_"] := by
    decide
  refine ⟨hreturn, i, hrun, hprocess [.text "__usr_", .code "__usr_00c0ffee" (.ofNat 0x2a),
    .text "00__usr_dead", .text "beef__us", .code "$1" (.ofNat 0xc0ffee),
    .code "__usr_00c0ffee" (.ofNat 0x2a), .text "_"] ?_ ?_⟩
  · intro c w h
    simp only [List.mem_cons, Piece.code.injEq, reduceCtorEq, false_or, List.not_mem_nil,
      or_false] at h
    rcases h with ⟨rfl, rfl⟩ | ⟨rfl, rfl⟩ | ⟨rfl, rfl⟩ <;> simp
  · rw [hruns]
    simp only [List.forall_mem_cons, List.not_mem_nil, false_implies, implies_true, and_true]
    decide +kernel

end Generate

end Polyglot
