import Polyglot.Proofs.KeyedParts
import Polyglot.Proofs.NeverStuck
import Mathlib.Data.Fintype.EquivFin

/-!
# Cache keys are never shared

All modules of a run take their cache keys from one place. However their calls take turns and whatever
words come up, a parameter with a shorthand format has a key that no other parameter of any module has.
The calls never wait for a word in vain if and only if there are words enough for all parameters.

* `Call.program`, `Call.Sound.module`: the module of a call, built alone from the words of the call;
* `EnoughWords`, `roomy_calls_iff`: how many words the modules need;
* `NeverStuck`, `neverStuck_calls_iff`: calls that are never stuck, which have words enough;
* `KeysApart`, `cacheKeys_never_shared`: the main statement.
-/

namespace Polyglot

namespace Supply

/-- A word that comes up and is new is taken. -/
lemma draw_of_not_mem {w : Word} {used : List Word} (h : w ∉ used) (rest : List Word) :
    draw ⟨w :: rest⟩ used = (w, ⟨rest⟩) := by
  unfold draw
  rw [List.dropWhile_cons_of_neg (by simpa using h)]

end Supply

namespace Generate

open Script
open Emitting (Gives begun_start directories start compileAll sharedOptions usedDisk)

/-! ### A call alone -/

/-- The word that was chosen for a piece, if any. -/
def Piece.word? : Piece Word → Option Word
  | .text _ => none
  | .code _ w => some w
  | .key w => some w

/-- A piece is filled with its own word if this comes up and may be chosen. -/
lemma fill_of_fresh {built : List (Piece Word)} {cacheKeys : CacheKeys} {p : Piece Word}
    (h : p.Fresh built cacheKeys) (rest : List Word) :
    p.blank.fill.run ⟨insertionOf built, cacheKeys, ⟨p.word?.toList ++ rest⟩⟩ =
      (p, ⟨insertionOf (built ++ [p]), p.key?.toList ++ cacheKeys, ⟨rest⟩⟩) := by
  rw [insertionOf_concat]
  cases p with
  | text s =>
    show (Piece.text s, _) = _
    simp [Piece.word?, Piece.insertion?, Piece.key?]
  | code c w =>
    have hrun : (Piece.code c w).blank.fill.run ⟨insertionOf built, cacheKeys, ⟨w :: rest⟩⟩ =
        (.code c (Supply.draw ⟨w :: rest⟩ (insertionOf built).used).1,
          ⟨⟨(insertionOf built).codes ++ [((Supply.draw ⟨w :: rest⟩ (insertionOf built).used).1, c)]⟩,
            cacheKeys, (Supply.draw ⟨w :: rest⟩ (insertionOf built).used).2⟩) := rfl
    rw [Supply.draw_of_not_mem h] at hrun
    exact hrun
  | key w =>
    have hrun : (Piece.key w).blank.fill.run ⟨insertionOf built, cacheKeys, ⟨w :: rest⟩⟩ =
        (.key (Supply.draw ⟨w :: rest⟩ cacheKeys).1,
          ⟨insertionOf built, (Supply.draw ⟨w :: rest⟩ cacheKeys).1 :: cacheKeys,
            (Supply.draw ⟨w :: rest⟩ cacheKeys).2⟩) := rfl
    rw [Supply.draw_of_not_mem h] at hrun
    refine hrun.trans ?_
    simp [Piece.insertion?, Piece.key?]

/-- In a list of pieces with different words each piece is fresh after those before it. -/
lemma fresh_of_nodup {built left : List (Piece Word)} {p : Piece Word}
    (hcodes : (insertionOf (built ++ p :: left)).used.Nodup)
    (hkeys : ((built ++ p :: left).filterMap Piece.key?).Nodup) :
    p.Fresh built (built.filterMap Piece.key?).reverse := by
  cases p with
  | text s => trivial
  | code c w =>
    simp only [insertionOf, Insertion.used, List.filterMap_append, List.filterMap_cons, Piece.insertion?,
      List.map_append, List.map_cons] at hcodes
    intro hmem
    exact (List.nodup_append.1 hcodes).2.2 w hmem w List.mem_cons_self rfl
  | key w =>
    simp only [List.filterMap_append, List.filterMap_cons, Piece.key?] at hkeys
    intro hmem
    exact (List.nodup_append.1 hkeys).2.2 w (List.mem_reverse.1 hmem) w List.mem_cons_self rfl

/-- Pieces are filled with their own words if these come up in order. -/
lemma fillAll_words (built left : List (Piece Word)) (hcodes : (insertionOf (built ++ left)).used.Nodup)
    (hkeys : ((built ++ left).filterMap Piece.key?).Nodup) :
    (fillAll (left.map Piece.blank)).run
        ⟨insertionOf built, (built.filterMap Piece.key?).reverse, ⟨left.filterMap Piece.word?⟩⟩ =
      (left, ⟨insertionOf (built ++ left), ((built ++ left).filterMap Piece.key?).reverse, ⟨[]⟩⟩) := by
  -- By induction on the pieces that are left, each of which joins those that are there.
  induction left generalizing built with
  | nil => simp [fillAll_nil_run]
  | cons p left ih =>
    have hfill := fill_of_fresh (fresh_of_nodup hcodes hkeys) (left.filterMap Piece.word?)
    rw [List.append_cons] at hcodes hkeys ⊢
    have hwords : (p :: left).filterMap Piece.word? = p.word?.toList ++ left.filterMap Piece.word? := by
      cases p <;> rfl
    have hnext : p.key?.toList ++ (built.filterMap Piece.key?).reverse =
        ((built ++ [p]).filterMap Piece.key?).reverse := by
      rw [keys_concat, List.reverse_append]
      cases p <;> rfl
    rw [hnext] at hfill
    rw [hwords, List.map_cons, fillAll_cons_run hfill, ih _ hcodes hkeys]

namespace Call

/-- The words that a call has chosen, in order. -/
def words (c : Call) : List Word :=
  c.stage.built.filterMap Piece.word?

/-- The module of a call before code is put into it, built alone from the words of the call. -/
def program (o : TargetOptions) (reports : Reports) (c : Call) : Program :=
  ((localeProgram o reports c.catalog c.source).run { supply := ⟨c.words⟩ }).1

variable {o : TargetOptions} {reports : Reports} {c : Call}

/-- **The module of a call that has no piece left** is the one that is built alone from the same words,
and its cache keys are those that the call was given. -/
theorem Sound.module (h : c.Sound o reports) (hkind : c.dir.kind = .modules)
    (hleft : c.stage.left = []) (hkeys : c.keys.Nodup) :
    c.text = (insertionOf c.stage.built).process (c.program o reports).text ∧
      Keyed reports c.catalog (c.program o reports) c.keys := by
  have hpieces := h.pieces
  rw [hleft, hkind, List.append_nil] at hpieces
  have hfill : (fillAll (modulePieces o reports c.catalog c.source)).run { supply := ⟨c.words⟩ } =
      (c.stage.built, ⟨insertionOf c.stage.built, c.keys.reverse, ⟨[]⟩⟩) := by
    have hrun := fillAll_words [] c.stage.built h.nodup hkeys
    rw [hpieces] at hrun
    exact hrun
  obtain ⟨htext, hend⟩ :=
    localeProgram_pieces o reports c.catalog c.source { supply := ⟨c.words⟩ }
  obtain ⟨words, hwords, hkeyed⟩ :=
    keyed_localeProgram o reports c.catalog c.source { supply := ⟨c.words⟩ }
  rw [hfill] at htext hend
  rw [hend, List.append_nil] at hwords
  obtain rfl : c.keys = words := List.reverse_inj.1 hwords
  refine ⟨?_, hkeyed⟩
  rw [Call.text, Call.program, htext]

end Call

/-! ### How many words there must be -/

/-- The formats of all parameters in the module of a catalog. -/
def moduleFormats (reports : Reports) (catalog : Catalog) : List (Option Format) :=
  reports.coverage.keys.keys.flatMap (formats catalog)

def isShorthand : Option Format → Bool
  | some (.shorthand _) => true
  | _ => false

/-- How many parameters of a module have a shorthand format. -/
def shorthandCount (reports : Reports) (catalog : Catalog) : Nat :=
  (moduleFormats reports catalog).countP isShorthand

/-- How many pieces of code there are in a module: the header, and the formats of its parameters. -/
def codeCount (reports : Reports) (catalog : Catalog) : Nat :=
  catalog.header.toList.length + (moduleFormats reports catalog).countP Option.isSome

/-- There are words enough for all modules: cache keys have different words in all of them together,
placeholders in each. -/
@[mk_iff enoughWords_def]
structure EnoughWords (o : TargetOptions) (reports : Reports) (cs : List (Catalog × String)) : Prop where
  keys : o.modulesDir ≠ none → (cs.map fun c => shorthandCount reports c.1).sum ≤ wordCount
  placeholders : o.modulesDir ≠ none → ∀ c ∈ cs, codeCount reports c.1 ≤ wordCount

section Count

variable {q : Piece Unit → Bool} {f : Option Format → Bool}

/-- Pieces are counted by the formats that they are for. -/
lemma countP_contentPieces (htext : ∀ s, q (.text s) = false)
    (hformat : ∀ context name format,
      (formatPieces context name format).countP q = if f format then 1 else 0)
    (context run : String) (content : List Part) :
    (contentPieces context run content).countP q =
      ((content.filterMap parameter?).map Prod.snd).countP f := by
  induction content generalizing run with
  | nil => simp [contentPieces, htext]
  | cons part content ih =>
    cases part with
    | text s => exact ih (run ++ s)
    | parameter name format =>
      simp [contentPieces, htext, hformat, ih, parameter?, List.countP_cons, Nat.add_comm]
    | reference name => exact ih run

lemma countP_modulePieces (htext : ∀ s, q (.text s) = false)
    (hformat : ∀ context name format,
      (formatPieces context name format).countP q = if f format then 1 else 0)
    (o : TargetOptions) (reports : Reports) (catalog : Catalog) (source : String) :
    (modulePieces o reports catalog source).countP q =
      (headerPieces catalog).countP q + (moduleFormats reports catalog).countP f := by
  have hmember : ∀ key, (memberPieces reports catalog key).countP q = (formats catalog key).countP f := by
    intro key
    unfold memberPieces valuePieces formats
    cases catalog.exposed? key with
    | none => simp [htext]
    | some message => simp [htext, countP_contentPieces htext hformat]
  simp [modulePieces, moduleFormats, htext, List.countP_flatMap, Function.comp_def, hmember]

lemma countP_isKey_modulePieces (o : TargetOptions) (reports : Reports) (catalog : Catalog)
    (source : String) :
    (modulePieces o reports catalog source).countP Piece.isKey = shorthandCount reports catalog := by
  rw [countP_modulePieces (fun _ => rfl) (f := isShorthand)]
  · have hheader : (headerPieces catalog).countP Piece.isKey = 0 := by
      unfold headerPieces
      cases catalog.header <;> rfl
    rw [hheader, Nat.zero_add]
    rfl
  · rintro context name (_ | _ | _) <;> rfl

lemma countP_isCode_modulePieces (o : TargetOptions) (reports : Reports) (catalog : Catalog)
    (source : String) :
    (modulePieces o reports catalog source).countP Piece.isCode = codeCount reports catalog := by
  rw [countP_modulePieces (fun _ => rfl) (f := Option.isSome)]
  · have hheader : (headerPieces catalog).countP Piece.isCode = catalog.header.toList.length := by
      unfold headerPieces
      cases catalog.header <;> rfl
    rw [hheader]
    rfl
  · rintro context name (_ | _ | _) <;> rfl

end Count

section Calls

variable {o : TargetOptions} {reports : Reports} {cs : List (Catalog × String)} {e : Emission}

lemma keysLeft_begin (c : Catalog × String) (dir : OutputDirectory) :
    (Call.begin o reports c dir).keysLeft =
      if dir.kind = .modules then shorthandCount reports c.1 else 0 := by
  obtain ⟨path, kind⟩ := dir
  cases kind with
  | modules => exact countP_isKey_modulePieces ..
  | declarations => rfl

lemma placeholders_begin (c : Catalog × String) (dir : OutputDirectory) :
    (Call.begin o reports c dir).placeholders =
      if dir.kind = .modules then codeCount reports c.1 else 0 := by
  obtain ⟨path, kind⟩ := dir
  cases kind with
  | modules => exact countP_isCode_modulePieces ..
  | declarations => rfl

/-- The cache keys that all calls need. -/
lemma sum_keysLeft_calls :
    ((calls o reports cs).map Call.keysLeft).sum =
      if o.modulesDir = none then 0 else (cs.map fun c => shorthandCount reports c.1).sum := by
  have hone : ∀ c : Catalog × String,
      (((directories o).map (Call.begin o reports c)).map Call.keysLeft).sum =
        if o.modulesDir = none then 0 else shorthandCount reports c.1 := by
    intro c
    unfold directories
    cases o.modulesDir <;> cases o.declarationsDir <;> simp [keysLeft_begin]
  induction cs with
  | nil => simp [calls]
  | cons c cs ih =>
    have hcalls : calls o reports (c :: cs) =
        (directories o).map (Call.begin o reports c) ++ calls o reports cs := List.flatMap_cons ..
    rw [hcalls, List.map_append, List.sum_append, hone, ih]
    split <;> simp

/-- **Words enough** for all calls. -/
theorem roomy_calls_iff (hkeys : e.modules.cacheKeys = []) :
    Roomy e (calls o reports cs) ↔ EnoughWords o reports cs := by
  have hplaceholders : (∀ c ∈ calls o reports cs, c.placeholders ≤ wordCount) ↔
      (o.modulesDir ≠ none → ∀ c ∈ cs, codeCount reports c.1 ≤ wordCount) := by
    simp only [mem_calls_iff]
    constructor
    · intro h hwanted c hc
      obtain ⟨path, hpath⟩ := Option.ne_none_iff_exists'.1 hwanted
      have hcall := h _ ⟨c, hc, ⟨path, .modules⟩, Emitting.mem_directories_iff.2 (.inl ⟨path, hpath, rfl⟩),
        rfl⟩
      rwa [placeholders_begin, if_pos rfl] at hcall
    · rintro h _ ⟨c, hc, dir, hdir, rfl⟩
      rw [placeholders_begin]
      split
      · rename_i hkind
        refine h ?_ c hc
        rcases Emitting.mem_directories_iff.1 hdir with ⟨path, hpath, -⟩ | ⟨path, -, rfl⟩
        · simp [hpath]
        · cases hkind
      · exact Nat.zero_le _
  rw [roomy_def, enoughWords_def, hplaceholders, sum_keysLeft_calls, hkeys]
  refine and_congr_left' ?_
  by_cases hnone : o.modulesDir = none <;> simp [hnone]

end Calls

/-! ### Calls that are never stuck -/

section NeverStuck

variable {o : TargetOptions} {reports : Reports} {cs : List (Catalog × String)} {e : Emission}
  {s : Emission × List Call}

/-- Whoever has a piece left can add it, after any steps. -/
def NeverStuck (reports : Reports) (s : Emission × List Call) : Prop :=
  ∀ e now, Reaches reports s (e, now) → ∀ c ∈ now, c.stage.left ≠ [] → ∃ e' c', Moves reports e c e' c'

/-- Calls that are never stuck can add all their pieces. -/
lemma NeverStuck.exists_built (h : NeverStuck reports s) :
    ∃ e now, Reaches reports s (e, now) ∧ ∀ c ∈ now, c.stage.left = [] := by
  induction hwork : work s.2 using Nat.strong_induction_on generalizing s with
  | _ n ih =>
    by_cases hbuilt : ∀ c ∈ s.2, c.stage.left = []
    · exact ⟨s.1, s.2, .refl, hbuilt⟩
    · push Not at hbuilt
      obtain ⟨c, hc, hleft⟩ := hbuilt
      obtain ⟨e', c', hmoves⟩ := h s.1 s.2 .refl c hc hleft
      obtain ⟨before, after, hcs⟩ := List.append_of_mem hc
      obtain ⟨e, cs⟩ := s
      subst hcs
      have hstep : Step reports (e, before ++ c :: after) (e', before ++ c' :: after) :=
        .move before after hmoves
      obtain ⟨e'', now, hreach, hall⟩ := ih _ (hwork ▸ hstep.work_lt)
        (fun e₁ now₁ h₁ => h e₁ now₁ (.head hstep h₁)) rfl
      exact ⟨e'', now, .head hstep hreach, hall⟩

/-- There are only so many different words. -/
lemma length_le_wordCount {words : List Word} (h : words.Nodup) : words.length ≤ wordCount := by
  simpa using h.length_le_card

/-- Calls that have added all their pieces had words enough. -/
lemma roomy_of_built (hnodup : e.modules.cacheKeys.Nodup) {now : List Call}
    (hsound : ∀ c ∈ now, c.Sound o reports) (hbuilt : ∀ c ∈ now, c.stage.left = []) : Roomy e now where
  keys := by
    have hzero : (now.map Call.keysLeft).sum = 0 := by
      refine List.sum_eq_zero fun n hn => ?_
      obtain ⟨c, hc, rfl⟩ := List.mem_map.1 hn
      rw [Call.keysLeft, hbuilt c hc, List.countP_nil]
    rw [hzero]
    exact length_le_wordCount hnodup
  placeholders c hc := by
    rw [Call.placeholders, hbuilt c hc, List.append_nil, ← length_used_insertionOf]
    exact length_le_wordCount (hsound c hc).nodup

/-- **Calls are never stuck if and only if there are words enough.** -/
theorem neverStuck_calls_iff (hkeys : e.modules.cacheKeys = []) :
    NeverStuck reports (e, calls e.options reports cs) ↔ EnoughWords e.options reports cs := by
  rw [← roomy_calls_iff hkeys]
  constructor
  · intro h
    -- Once all pieces are there, different words have been found for them, and so there were enough.
    obtain ⟨e', now, hreach, hbuilt⟩ := h.exists_built
    obtain ⟨-, hnodup⟩ := hreach.progress.keys_calls hkeys
    exact hreach.roomy_iff.1
      (roomy_of_built hnodup (hreach.progress.sound (sound_calls _ _ _)) hbuilt)
  · intro hroom e' now hreach c hc hleft
    exact (hreach.roomy_iff.2 hroom).exists_moves hc hleft

end NeverStuck

/-! ### Keys of all calls -/

/-- There is a call for each catalog and each target. The cache keys that were handed out are the keys
of the calls, and they are all different. A module that has no piece left has one key for each parameter
with a shorthand format, and no other keys. -/
structure KeysApart (o : TargetOptions) (reports : Reports) (cs : List (Catalog × String))
    (e : Emission) (now : List Call) : Prop where
  about : now.map Call.about = cs.flatMap fun c => (directories o).map fun dir => (c, dir)
  handedOut : (now.flatMap Call.keys).Perm e.modules.cacheKeys
  distinct : ((now.flatMap Call.keys).map keyText).Nodup
  modules : ∀ c ∈ now, c.dir.kind = .modules → c.stage.left = [] →
    c.text = (insertionOf c.stage.built).process (c.program o reports).text ∧
      Keyed reports c.catalog (c.program o reports) c.keys

/-- What is known of the keys after any steps. -/
lemma Reaches.keysApart {reports : Reports} {cs : List (Catalog × String)} {e e' : Emission}
    {now : List Call} (hkeys : e.modules.cacheKeys = [])
    (h : Reaches reports (e, calls e.options reports cs) (e', now)) :
    KeysApart e.options reports cs e' now := by
  obtain ⟨hperm, hall⟩ := h.progress.keys_calls hkeys
  have hnodup : (now.flatMap Call.keys).Nodup := hperm.nodup_iff.2 hall
  refine ⟨h.progress.about.trans (about_calls ..), hperm, hnodup.map fun _ _ => keyText_inj, ?_⟩
  intro c hc hkind hleft
  have hsound := h.progress.sound (sound_calls _ _ _) c hc
  exact hsound.module hkind hleft ((List.nodup_flatMap.1 hnodup).1 c hc)

/-- **Cache keys are never shared**, whatever words come up and however the calls take turns. The calls
never wait for a word in vain if and only if there are words enough. If there are, catalogs that are
compiled one after the other, in whatever order, are compiled in one of the orders that there are. -/
theorem cacheKeys_never_shared {o : TargetOptions} {reports : Reports} {d : Disk} {supply : Supply}
    {cs : List (Catalog × String)} {e : Emission}
    (hstart : Gives (start reports) { options := o, disk := d, supply } () e) :
    (∀ e' now, Reaches reports (e, calls o reports cs) (e', now) → KeysApart o reports cs e' now) ∧
      (NeverStuck reports (e, calls o reports cs) ↔ EnoughWords o reports cs) ∧
      ∀ cs' files e', cs'.Perm cs → EnoughWords o reports cs → Gives (compileAll cs') e files e' →
        ∃ now, Reaches reports (e, calls o reports cs) (e', now) ∧
          ∀ c ∈ now, c.stage.isOver = true := by
  have hbegun := begun_start hstart
  have hkeys : e.modules.cacheKeys = [] := hbegun.cacheKeys
  obtain rfl : e.options = o := hbegun.options
  refine ⟨fun e' now h => h.keysApart hkeys, neverStuck_calls_iff hkeys, ?_⟩
  intro cs' files e' hperm henough hrun
  obtain ⟨now, hreach, hover, -⟩ :=
    reaches_compileAll hperm hbegun.modules ((roomy_calls_iff hkeys).2 henough) hrun
  exact ⟨now, hreach, hover⟩

/-- A price, with two shorthand formats, one explicit format and a parameter without a format. -/
def pricedLocale (id : String) : Catalog where
  id := id
  header := some "setup()"
  messages := .ofList [("price", ⟨.exposed,
    [.parameter "amount" (some (.shorthand "$f.number()")), .text " ", .parameter "unit" none,
      .parameter "tax" (some (.shorthand "$f.percent()")), .parameter "note" (some (.explicit "trim"))],
    .ofList [⟨"amount", .number⟩, ⟨"unit", .unknown⟩, ⟨"tax", .number⟩, ⟨"note", .string⟩]⟩)]

def pricedLocales : List (Catalog × String) :=
  [(pricedLocale "en", "en.tm"), (pricedLocale "fr", "fr.tm")]

/-- Words that come up again and again. -/
def fewWords : Supply :=
  ⟨[7, 8, 7, 9, 7, 8, 10, 7, 8, 8, 11, 9, 9, 12].map Word.ofNat⟩

/-- French before English: four parameters have four keys. -/
theorem cacheKeys_never_shared_priced : ∃ reports e files e' now,
    (checkCatalogs (pricedLocales.map Prod.fst)).reports = some reports ∧
      Gives (start reports) { options := sharedOptions, disk := usedDisk, supply := fewWords } () e ∧
      Gives (compileAll pricedLocales.reverse) e files e' ∧
      Reaches reports (e, calls sharedOptions reports pricedLocales) (e', now) ∧
      (∀ c ∈ now, c.stage.isOver = true) ∧ KeysApart sharedOptions reports pricedLocales e' now ∧
      NeverStuck reports (e, calls sharedOptions reports pricedLocales) ∧
      e'.modules.cacheKeys.map keyText =
        ["fmt00000009", "fmt0000000b", "fmt00000008", "fmt00000007"] := by
  have hrun : (checkCatalogs (pricedLocales.map Prod.fst)).reports.map (fun reports =>
      let begun := (start reports).run.run
        { options := sharedOptions, disk := usedDisk, supply := fewWords }
      let compiled := (compileAll pricedLocales.reverse).run.run begun.2
      decide (begun.1.isOk = true ∧ compiled.1.isOk = true ∧
        compiled.2.modules.cacheKeys.map keyText =
          ["fmt00000009", "fmt0000000b", "fmt00000008", "fmt00000007"] ∧
        (pricedLocales.map fun c => shorthandCount reports c.1).sum ≤ wordCount ∧
        ∀ c ∈ pricedLocales, codeCount reports c.1 ≤ wordCount)) = some true := by
    decide +kernel
  obtain ⟨reports, hreports, hdecide⟩ := Option.map_eq_some_iff.1 hrun
  obtain ⟨hok, hcompiled, hkeys, hshorthands, hcodes⟩ := of_decide_eq_true hdecide
  obtain ⟨_, e, hstart⟩ := Emitting.exists_gives hok
  have hend : ((start reports).run.run
      { options := sharedOptions, disk := usedDisk, supply := fewWords }).2 = e := by
    rw [hstart]
  rw [hend] at hcompiled hkeys
  obtain ⟨files, e', hrun⟩ := Emitting.exists_gives hcompiled
  rw [hrun] at hkeys
  obtain ⟨hapart, hstuck, hsequential⟩ := @cacheKeys_never_shared _ _ _ _ pricedLocales e hstart
  have henough : EnoughWords sharedOptions reports pricedLocales := ⟨fun _ => hshorthands, fun _ => hcodes⟩
  obtain ⟨now, hreach, hover⟩ := hsequential _ files e' (List.reverse_perm _) henough hrun
  exact ⟨reports, e, files, e', now, hreports, hstart, hrun, hreach, hover, hapart e' now hreach,
    hstuck.2 henough, hkeys⟩

end Generate

end Polyglot
