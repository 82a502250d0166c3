import Polyglot.Text.Raw
import Mathlib.Tactic.Lemma
import Mathlib.Data.List.Basic

/-!
# Bytes and the text that they are shown as

Bytes fall into characters and stray stretches, and nothing of them is lost. Text falls into its own
characters, so that bytes are text exactly if nothing in them is astray. An ASCII character is never
part of another character or of a stray stretch: bytes can be cut in front of it.

* `RawText.glyph_induction`: what bytes fall into, glyph by glyph;
* `RawText.text?_eq_some_iff`, `RawText.eq_ofText_of_shown`: when bytes are text;
* `RawText.glyphs_append`: bytes cut in front of an ASCII character;
* `RawText.mem_ofText_iff`, `RawText.suffix_shown`: what holds of a text holds of its bytes.
-/

namespace Polyglot

namespace RawText

/-! ### Characters -/

lemma firstChar?_encode (c : Char) (rest : RawText) :
    firstChar? (String.utf8EncodeChar c ++ rest) = some c := by
  have hle : (String.utf8EncodeChar c).length ≤ 4 := by
    rw [String.length_utf8EncodeChar]
    exact c.utf8Size_le_four
  unfold firstChar?
  rw [List.take_append, List.take_of_length_le hle, List.toByteArray_append]
  exact ByteArray.utf8DecodeChar?_utf8EncodeChar_append

lemma exists_of_firstChar? {bs : RawText} {c : Char} (h : firstChar? bs = some c) :
    ∃ rest, bs = String.utf8EncodeChar c ++ rest := by
  obtain ⟨l, hl⟩ := ByteArray.exists_of_utf8DecodeChar?_eq_some h
  have hlist : l = l.data.toList.toByteArray := by
    refine ByteArray.ext ?_
    rw [List.data_toByteArray, Array.toArray_toList]
  rw [hlist, ← List.toByteArray_append, List.toByteArray_inj] at hl
  refine ⟨l.data.toList ++ bs.drop 4, ?_⟩
  rw [← List.append_assoc, ← hl, List.take_append_drop]

lemma encode_ne_nil (c : Char) : String.utf8EncodeChar c ≠ [] := by
  rw [Ne, ← List.length_eq_zero_iff, String.length_utf8EncodeChar]
  exact Nat.ne_of_gt c.utf8Size_pos

/-- An ASCII byte is a character by itself. -/
lemma encode_eq_of_mem {b : UInt8} {c : Char} (h : b ∈ String.utf8EncodeChar c) (hb : b < 0x80) :
    String.utf8EncodeChar c = [b] := by
  have hpart : ∀ n, 128 ≤ n → n < 256 → b ≠ UInt8.ofNat n := by
    rintro n hlow hhigh rfl
    have hlt := UInt8.lt_iff_toNat_lt.1 hb
    rw [UInt8.toNat_ofNat', Nat.mod_eq_of_lt hhigh] at hlt
    exact absurd hlow (Nat.not_le_of_lt hlt)
  revert h
  fun_cases String.utf8EncodeChar c with
  | case1 => simp [eq_comm]
  | case2 v =>
    intro h
    have h₁ := hpart (v / 64 % 32 + 192) (by omega) (by omega)
    have h₂ := hpart (v % 64 + 128) (by omega) (by omega)
    simp_all
  | case3 v =>
    intro h
    have h₁ := hpart (v / 4096 % 16 + 224) (by omega) (by omega)
    have h₂ := hpart (v / 64 % 64 + 128) (by omega) (by omega)
    have h₃ := hpart (v % 64 + 128) (by omega) (by omega)
    simp_all
  | case4 v =>
    intro h
    have h₁ := hpart (v / 262144 % 8 + 240) (by omega) (by omega)
    have h₂ := hpart (v / 4096 % 64 + 128) (by omega) (by omega)
    have h₃ := hpart (v / 64 % 64 + 128) (by omega) (by omega)
    have h₄ := hpart (v % 64 + 128) (by omega) (by omega)
    simp_all

/-! ### Glyphs -/

lemma glyphsFrom_eq_drop (n : Nat) (bs : RawText) : glyphsFrom n bs = glyphs (bs.drop n) := by
  induction bs generalizing n with
  | nil => cases n <;> rfl
  | cons b bs ih =>
    cases n with
    | zero => rfl
    | succ n => exact ih n

lemma glyphs_encode_append (c : Char) (rest : RawText) :
    glyphs (String.utf8EncodeChar c ++ rest) = .char c :: glyphs rest := by
  obtain ⟨b, bs, hb⟩ := List.exists_cons_of_ne_nil (encode_ne_nil c)
  have hfirst := firstChar?_encode c rest
  have hsize : c.utf8Size - 1 = bs.length := by
    rw [← String.length_utf8EncodeChar, hb]
    rfl
  rw [hb, List.cons_append] at hfirst ⊢
  rw [glyphs, glyphsFrom, hfirst]
  simp only
  rw [glyphsFrom_eq_drop, hsize, List.drop_left]

lemma strayLength_pos (bs : RawText) : 0 < strayLength bs := by
  unfold strayLength
  split
  · split
    · exact Nat.one_pos
    · split <;> decide
  · exact Nat.one_pos

lemma glyphs_of_firstChar? {bs : RawText} (hbs : bs ≠ []) (h : firstChar? bs = none) :
    glyphs bs = .stray (bs.take (strayLength bs)) :: glyphs (bs.drop (strayLength bs)) := by
  obtain ⟨b, bs, rfl⟩ := List.exists_cons_of_ne_nil hbs
  obtain ⟨n, hn⟩ := Nat.exists_eq_add_one_of_ne_zero (Nat.ne_of_gt (strayLength_pos (b :: bs)))
  rw [glyphs, glyphsFrom, h]
  simp only
  rw [glyphsFrom_eq_drop, hn]
  rfl

/-- **Bytes begin with a character or a stray stretch**, and then go on. -/
theorem glyph_induction {P : RawText → Prop} (nil : P [])
    (char : ∀ c rest, P rest → P (String.utf8EncodeChar c ++ rest))
    (stray : ∀ bs, bs ≠ [] → firstChar? bs = none → P (bs.drop (strayLength bs)) → P bs)
    (bs : RawText) : P bs := by
  induction hn : bs.length using Nat.strongRecOn generalizing bs with
  | ind n ih =>
    by_cases hbs : bs = []
    · rw [hbs]
      exact nil
    · cases hfirst : firstChar? bs with
      | some c =>
        obtain ⟨rest, rfl⟩ := exists_of_firstChar? hfirst
        refine char c rest (ih rest.length ?_ rest rfl)
        have hpos := List.length_pos_iff.2 (encode_ne_nil c)
        rw [← hn, List.length_append]
        omega
      | none =>
        refine stray bs hbs hfirst (ih _ ?_ _ rfl)
        have hpos := strayLength_pos bs
        have hlength := List.length_pos_iff.2 hbs
        rw [List.length_drop]
        omega

/-- Nothing is lost. -/
theorem flatMap_glyphs (bs : RawText) : (glyphs bs).flatMap Glyph.bytes = bs := by
  induction bs using glyph_induction with
  | nil => rfl
  | char c rest ih =>
    rw [glyphs_encode_append, List.flatMap_cons, ih]
    rfl
  | stray bs hbs hfirst ih =>
    rw [glyphs_of_firstChar? hbs hfirst, List.flatMap_cons, ih]
    exact List.take_append_drop ..

lemma glyphs_ofChars (cs : List Char) : glyphs (ofChars cs) = cs.map .char := by
  induction cs with
  | nil => rfl
  | cons c cs ih =>
    rw [ofChars, List.flatMap_cons, glyphs_encode_append]
    exact congrArg _ ih

lemma shown_ofText (s : String) : (ofText s).shown = s := by
  rw [shown, ofText, glyphs_ofChars, List.map_map]
  show String.ofList (s.toList.map id) = s
  rw [List.map_id, String.ofList_toList]

lemma ofText_injective {s t : String} (h : ofText s = ofText t) : s = t := by
  rw [← shown_ofText s, h, shown_ofText]

lemma ofChars_shown {bs : RawText} (h : ∀ g ∈ bs.glyphs, g.isChar = true) :
    ofText bs.shown = bs := by
  have hbytes : ∀ g ∈ bs.glyphs, String.utf8EncodeChar g.shown = g.bytes := by
    intro g hg
    cases g with
    | char c => rfl
    | stray s => cases h _ hg
  rw [ofText, shown, String.toList_ofList, ofChars, List.flatMap_map]
  exact (List.flatMap_congr hbytes).trans (flatMap_glyphs bs)

/-- **Bytes are a text** exactly if they are its bytes. -/
theorem text?_eq_some_iff {bs : RawText} {s : String} : bs.text? = some s ↔ bs = ofText s := by
  unfold text?
  constructor
  · intro h
    split at h
    · rename_i hall
      rw [← Option.some.inj h]
      exact (ofChars_shown (List.all_eq_true.1 hall)).symm
    · cases h
  · rintro rfl
    rw [if_pos, shown_ofText]
    rw [ofText, glyphs_ofChars, List.all_map]
    exact List.all_eq_true.2 fun _ _ => rfl

/-- What is shown without a replacement is text. -/
theorem eq_ofText_of_shown {bs : RawText} (h : Glyph.replacement ∉ bs.shown.toList) :
    bs = ofText bs.shown := by
  refine (ofChars_shown fun g hg => ?_).symm
  cases g with
  | char c => rfl
  | stray s =>
    refine absurd ?_ h
    rw [shown, String.toList_ofList]
    exact List.mem_map.2 ⟨_, hg, rfl⟩

/-- A character that is shown is there, unless it is shown in place of another. -/
lemma subset_of_mem_shown {bs : RawText} {c : Char} (h : c ∈ bs.shown.toList)
    (hc : c ≠ Glyph.replacement) : String.utf8EncodeChar c ⊆ bs := by
  rw [shown, String.toList_ofList] at h
  obtain ⟨g, hg, rfl⟩ := List.mem_map.1 h
  cases g with
  | char c =>
    intro b hb
    rw [← flatMap_glyphs bs]
    exact List.mem_flatMap.2 ⟨_, hg, hb⟩
  | stray s => exact absurd rfl hc

/-! ### ASCII characters -/

lemma not_le_of_ascii {low b : UInt8} (hlow : 0x80 ≤ low) (hb : b < 0x80) : ¬ low ≤ b :=
  fun h => UInt8.lt_irrefl b (UInt8.lt_of_lt_of_le hb (UInt8.le_trans hlow h))

lemma isContinuation_eq_false {b : UInt8} (h : b < 0x80) : isContinuation b = false := by
  simp [isContinuation, not_le_of_ascii, h]

lemma opens_eq_false (first : UInt8) {second : UInt8} (h : second < 0x80) :
    opens first second = false := by
  simp [opens, isContinuation_eq_false h, not_le_of_ascii, h]

lemma strayLength_le {bs : RawText} (hbs : bs ≠ []) : strayLength bs ≤ bs.length := by
  match bs with
  | [b] => exact Nat.le_refl 1
  | [first, second] =>
    simp only [strayLength, List.head?_nil, Option.any_none, Bool.and_false, List.length_cons]
    split <;> simp
  | first :: second :: third :: rest =>
    simp only [strayLength, List.length_cons]
    split
    · omega
    · split <;> omega

/-- A stray stretch ends in front of an ASCII character. -/
lemma strayLength_append {bs rest : RawText} (hbs : bs ≠ []) (hrest : ∀ b ∈ rest.head?, b < 0x80) :
    strayLength (bs ++ rest) = strayLength bs := by
  cases rest with
  | nil => rw [List.append_nil]
  | cons a rest =>
    have ha : a < 0x80 := hrest a rfl
    match bs with
    | [b] => simp [strayLength, opens_eq_false b ha]
    | [first, second] => simp [strayLength, isContinuation_eq_false ha]
    | first :: second :: third :: bs => rfl

/-- No character goes on with an ASCII character. -/
lemma firstChar?_append {bs rest : RawText} (hbs : bs ≠ []) (hrest : ∀ b ∈ rest.head?, b < 0x80)
    (h : firstChar? bs = none) : firstChar? (bs ++ rest) = none := by
  rw [Option.eq_none_iff_forall_ne_some]
  intro c hc
  obtain ⟨more, hmore⟩ := exists_of_firstChar? hc
  rcases List.append_eq_append_iff.1 hmore with ⟨mid, hmid, hrest'⟩ | ⟨mid, hmid, -⟩
  · -- The character ends behind the bytes, so that an ASCII character is part of it.
    cases mid with
    | nil =>
      rw [List.append_nil] at hmid
      have hfirst := firstChar?_encode c []
      rw [List.append_nil, hmid, h] at hfirst
      cases hfirst
    | cons a mid =>
      have ha : a < 0x80 := hrest a (by rw [hrest']; rfl)
      have hone := encode_eq_of_mem (b := a) (c := c) (by rw [hmid]; simp) ha
      have hlength := congrArg List.length (hmid.symm.trans hone)
      have hpos := List.length_pos_iff.2 hbs
      simp only [List.length_append, List.length_cons, List.length_nil] at hlength
      omega
  · rw [hmid, firstChar?_encode] at h
    cases h

/-- **Bytes can be cut in front of an ASCII character.** -/
theorem glyphs_append (bs : RawText) {rest : RawText} (hrest : ∀ b ∈ rest.head?, b < 0x80) :
    glyphs (bs ++ rest) = glyphs bs ++ glyphs rest := by
  induction bs using glyph_induction with
  | nil => rfl
  | char c bs ih =>
    rw [List.append_assoc, glyphs_encode_append, glyphs_encode_append, ih, List.cons_append]
  | stray bs hbs hfirst ih =>
    have hle := strayLength_le hbs
    rw [glyphs_of_firstChar? (List.append_ne_nil_of_left_ne_nil hbs rest)
      (firstChar?_append hbs hrest hfirst), strayLength_append hbs hrest,
      glyphs_of_firstChar? hbs hfirst, List.take_append_of_le_length hle, List.drop_append_of_le_length hle, ih, List.cons_append]

lemma ofText_append (s t : String) : ofText (s ++ t) = ofText s ++ ofText t := by
  rw [ofText, String.toList_append]
  exact List.flatMap_append

/-- An ASCII character is in a text exactly if its byte is. -/
lemma mem_ofText_iff {c : Char} {b : UInt8} (hc : String.utf8EncodeChar c = [b]) (hb : b < 0x80)
    {s : String} : b ∈ ofText s ↔ c ∈ s.toList := by
  rw [ofText, ofChars, List.mem_flatMap]
  constructor
  · rintro ⟨a, ha, hmem⟩
    have hac : a = c := by
      have hfirst := firstChar?_encode a []
      rw [List.append_nil, encode_eq_of_mem hmem hb, ← hc, ← List.append_nil (String.utf8EncodeChar c),
        firstChar?_encode] at hfirst
      exact (Option.some.inj hfirst).symm
    rw [← hac]
    exact ha
  · intro h
    exact ⟨c, h, by rw [hc]; exact List.mem_singleton_self b⟩

lemma text?_eq_none_iff {bs : RawText} : bs.text? = none ↔ ∃ g ∈ bs.glyphs, g.isChar = false := by
  unfold text?
  simp

lemma lt_of_mem_head? {bs : RawText} (h : bs.head?.all (· < 0x80) = true) :
    ∀ b ∈ bs.head?, b < 0x80 := by
  intro b hb
  rw [Option.mem_def.1 hb] at h
  exact of_decide_eq_true h

/-- An ending that begins with an ASCII character makes no difference to whether bytes are text. -/
lemma text?_append_ofText_eq_none_iff {bs : RawText} {s : String}
    (hs : (ofText s).head?.all (· < 0x80) = true) :
    (bs ++ ofText s).text? = none ↔ bs.text? = none := by
  have htext : ∀ g ∈ (ofText s).glyphs, g.isChar ≠ false := by
    intro g hg
    rw [ofText, glyphs_ofChars] at hg
    obtain ⟨c, -, rfl⟩ := List.mem_map.1 hg
    simp [Glyph.isChar]
  simp only [text?_eq_none_iff, glyphs_append bs (lt_of_mem_head? hs), List.mem_append, or_and_right,
    exists_or]
  refine or_iff_left ?_
  rintro ⟨g, hg, hstray⟩
  exact htext g hg hstray

/-- An ending that begins with an ASCII character is seen at the end. -/
lemma suffix_shown {bs : RawText} {s : String} (hs : (ofText s).head?.all (· < 0x80) = true)
    (h : ofText s <:+ bs) : s.toList <:+ bs.shown.toList := by
  obtain ⟨front, rfl⟩ := h
  rw [shown, String.toList_ofList, glyphs_append front (lt_of_mem_head? hs), List.map_append]
  refine ⟨_, congrArg _ ?_⟩
  rw [← String.toList_ofList (l := (ofText s).glyphs.map Glyph.shown)]
  exact congrArg String.toList (shown_ofText s).symm

end RawText

end Polyglot
