import Polyglot.KeyMap
import Mathlib.Tactic.Lemma

/-!
# Look-ups in ordered maps

* `mem_entries_iff`: an entry is listed exactly if its key is looked up to its value;
* `find?_insert`: an insertion changes the look-up of one key only;
* `entries_insert_replace`: an insertion at a known key replaces one entry in its place;
* `countP_insert`: how that changes the number of entries with a property;
* `find?_erase`, `find?_mapValues`: what the other changes of a map do to a look-up;
* `ext_find?`: maps with the same look-ups are equal;
* `mem_keys_union`, `mem_keys_ofList`: the members of sets.
-/

namespace Polyglot.KeyMap

variable {α β : Type}

/-! ### Entries and look-ups -/

lemma eq_of_mem_of_mem {es : List (String × α)} (ho : es.Pairwise (fun a b => a.1 < b.1))
    {key : String} {v w : α} (hv : (key, v) ∈ es) (hw : (key, w) ∈ es) : v = w := by
  induction es with
  | nil => cases hv
  | cons e es ih =>
    obtain ⟨hhead, htail⟩ := List.pairwise_cons.1 ho
    rcases List.mem_cons.1 hv with rfl | hv'
    · rcases List.mem_cons.1 hw with h | hw'
      · exact (Prod.mk.inj h).2.symm
      · exact absurd (hhead _ hw') (String.lt_irrefl key)
    · rcases List.mem_cons.1 hw with rfl | hw'
      · exact absurd (hhead _ hv') (String.lt_irrefl key)
      · exact ih htail hv' hw'

theorem mem_entries_iff (m : KeyMap α) (key : String) (v : α) :
    (key, v) ∈ m.entries ↔ m.find? key = some v := by
  unfold find?
  constructor
  · intro h
    cases hf : m.entries.find? (fun e => e.1 == key) with
    | none =>
      have := List.find?_eq_none.1 hf _ h
      simp at this
    | some e =>
      obtain ⟨k, w⟩ := e
      have hk : k = key := by simpa using List.find?_some hf
      subst hk
      have := eq_of_mem_of_mem m.ordered h (List.mem_of_find?_eq_some hf)
      simp [this]
  · intro h
    obtain ⟨⟨k, w⟩, hf, hw⟩ := Option.map_eq_some_iff.1 h
    have hk : k = key := by simpa using List.find?_some hf
    subst hk
    simp only at hw
    subst hw
    exact List.mem_of_find?_eq_some hf

theorem contains_iff (m : KeyMap α) (key : String) :
    m.contains key = true ↔ ∃ v, m.find? key = some v := by
  unfold contains
  rw [List.any_eq_true]
  constructor
  · rintro ⟨⟨k, v⟩, he, hk⟩
    have hk : k = key := by simpa using hk
    subst hk
    exact ⟨v, (mem_entries_iff m k v).1 he⟩
  · rintro ⟨v, hv⟩
    exact ⟨(key, v), (mem_entries_iff m key v).2 hv, by simp⟩

theorem mem_keys_iff (m : KeyMap α) (key : String) : key ∈ m.keys ↔ m.find? key ≠ none := by
  unfold keys
  rw [Option.ne_none_iff_exists', List.mem_map]
  constructor
  · rintro ⟨⟨k, v⟩, he, rfl⟩
    exact ⟨v, (mem_entries_iff m k v).1 he⟩
  · rintro ⟨v, hv⟩
    exact ⟨(key, v), (mem_entries_iff m key v).2 hv, rfl⟩

/-! ### Insertion -/

lemma mem_insertEntry_iff {es : List (String × α)} (ho : es.Pairwise (fun a b => a.1 < b.1))
    (key : String) (value : α) (e : String × α) :
    e ∈ insertEntry key value es ↔ e = (key, value) ∨ e ∈ es ∧ e.1 ≠ key := by
  induction es with
  | nil => simp [insertEntry]
  | cons d ds ih =>
    obtain ⟨hhead, htail⟩ := List.pairwise_cons.1 ho
    unfold insertEntry
    split
    · -- the new entry comes first, so no key below is equal to it
      rename_i hlt
      have hne : ∀ x ∈ d :: ds, x.1 ≠ key := by
        intro x hx heq
        rcases List.mem_cons.1 hx with rfl | hx
        · exact absurd (heq ▸ hlt) (String.lt_irrefl _)
        · exact absurd (String.lt_trans hlt (heq ▸ hhead x hx)) (String.lt_irrefl _)
      rw [List.mem_cons]
      exact or_congr_right ⟨fun h => ⟨h, hne e h⟩, fun h => h.1⟩
    · split
      · rename_i heq
        have hne : ∀ x ∈ ds, x.1 ≠ key := by
          intro x hx h
          exact absurd (h ▸ heq ▸ hhead x hx) (String.lt_irrefl _)
        rw [List.mem_cons, List.mem_cons]
        constructor
        · rintro (rfl | h)
          · exact Or.inl rfl
          · exact Or.inr ⟨Or.inr h, hne e h⟩
        · rintro (rfl | ⟨rfl | h, hk⟩)
          · exact Or.inl rfl
          · exact absurd heq.symm hk
          · exact Or.inr h
      · rename_i hne
        rw [List.mem_cons, ih htail, List.mem_cons]
        constructor
        · rintro (rfl | rfl | ⟨h, hk⟩)
          · exact Or.inr ⟨Or.inl rfl, fun h => hne h.symm⟩
          · exact Or.inl rfl
          · exact Or.inr ⟨Or.inr h, hk⟩
        · rintro (rfl | ⟨rfl | h, hk⟩)
          · exact Or.inr (Or.inl rfl)
          · exact Or.inl rfl
          · exact Or.inr (Or.inr ⟨h, hk⟩)

theorem find?_insert (m : KeyMap α) (key other : String) (value : α) :
    (m.insert key value).find? other = if other = key then some value else m.find? other := by
  have hmem : ∀ v, (m.insert key value).find? other = some v ↔
      (other = key ∧ v = value) ∨ (m.find? other = some v ∧ other ≠ key) := by
    intro v
    rw [← mem_entries_iff, ← mem_entries_iff]
    simpa [insert] using mem_insertEntry_iff m.ordered key value (other, v)
  by_cases h : other = key
  · rw [if_pos h]
    exact (hmem value).2 (Or.inl ⟨h, rfl⟩)
  · rw [if_neg h]
    refine Option.ext fun v => ?_
    rw [hmem v]
    simp [h]

/-! ### Replacing an entry -/

lemma insertEntry_replace {es : List (String × α)} (ho : es.Pairwise (fun a b => a.1 < b.1))
    {key : String} {old : α} (hold : (key, old) ∈ es) (value : α) :
    ∃ before after, es = before ++ (key, old) :: after ∧
      insertEntry key value es = before ++ (key, value) :: after := by
  induction es with
  | nil => cases hold
  | cons d ds ih =>
    obtain ⟨hhead, htail⟩ := List.pairwise_cons.1 ho
    rcases List.mem_cons.1 hold with rfl | hold
    · refine ⟨[], ds, rfl, ?_⟩
      rw [insertEntry, if_neg (String.lt_irrefl key), if_pos rfl]
      rfl
    · have hlt : d.1 < key := hhead _ hold
      have h1 : ¬ key < d.1 := fun h => String.lt_irrefl _ (String.lt_trans h hlt)
      have h2 : key ≠ d.1 := fun h => String.lt_irrefl d.1 (h ▸ hlt)
      obtain ⟨before, after, rfl, hins⟩ := ih htail hold
      refine ⟨d :: before, after, rfl, ?_⟩
      rw [insertEntry, if_neg h1, if_neg h2, hins]
      rfl

/-- A value set at a known key takes the place of the one that was there. -/
theorem entries_insert_replace (m : KeyMap α) {key : String} {old : α}
    (hold : m.find? key = some old) (value : α) :
    ∃ before after, m.entries = before ++ (key, old) :: after ∧
      (m.insert key value).entries = before ++ (key, value) :: after :=
  insertEntry_replace m.ordered ((mem_entries_iff m key old).2 hold) value

theorem countP_insert {p : String × α → Bool} (m : KeyMap α) {key : String} {old : α}
    (hold : m.find? key = some old) (value : α) :
    (m.insert key value).entries.countP p + (if p (key, old) then 1 else 0) =
      m.entries.countP p + (if p (key, value) then 1 else 0) := by
  obtain ⟨before, after, he, hins⟩ := entries_insert_replace m hold value
  rw [he, hins, List.countP_append, List.countP_append, List.countP_cons, List.countP_cons]
  omega

/-! ### Erasing a key, and changing values -/

theorem find?_erase (m : KeyMap α) (key other : String) :
    (m.erase key).find? other = if other = key then none else m.find? other := by
  have hmem : ∀ v, (m.erase key).find? other = some v ↔ m.find? other = some v ∧ other ≠ key := by
    intro v
    rw [← mem_entries_iff, ← mem_entries_iff]
    simp [erase]
  refine Option.ext fun v => ?_
  rw [hmem v]
  split <;> simp [*]

lemma mem_keys_erase (m : KeyMap α) (key other : String) :
    other ∈ (m.erase key).keys ↔ other ∈ m.keys ∧ other ≠ key := by
  rw [mem_keys_iff, mem_keys_iff, find?_erase]
  by_cases h : other = key <;> simp [h]

theorem find?_mapValues (m : KeyMap α) (f : α → β) (key : String) :
    (m.mapValues f).find? key = (m.find? key).map f := by
  unfold find? mapValues
  rw [List.find?_map, Option.map_map, Option.map_map]
  rfl

/-! ### Equality -/

lemma keys_ordered (m : KeyMap α) : m.keys.Pairwise (· < ·) :=
  List.pairwise_map.2 m.ordered

section Ordered

variable {κ : Type} [LE κ] [LT κ] [Std.IsLinearOrder κ] [Std.LawfulOrderLT κ]

omit [Std.IsLinearOrder κ] in
lemma nodup_of_ordered {ks : List κ} (h : ks.Pairwise (· < ·)) : ks.Nodup := by
  refine h.imp ?_
  intro key other hlt heq
  exact Std.lt_irrefl (heq ▸ hlt)

/-- Strictly ordered lists with the same members are equal. -/
lemma eq_of_ordered {ks ls : List κ} (hk : ks.Pairwise (· < ·)) (hl : ls.Pairwise (· < ·))
    (h : ∀ key, key ∈ ks ↔ key ∈ ls) : ks = ls := by
  have hperm := (List.perm_ext_iff_of_nodup (nodup_of_ordered hk) (nodup_of_ordered hl)).2 h
  refine hperm.eq_of_pairwise (fun a b _ _ hab hba => ?_) hk hl
  exact absurd (Std.lt_trans hab hba) Std.lt_irrefl

/-- Sorting by keys that are all different orders them strictly. -/
lemma ordered_mergeSort [DecidableLE κ] {key : α → κ} {as : List α} (h : (as.map key).Nodup) :
    ((as.mergeSort fun a b => key a ≤ key b).map key).Pairwise (· < ·) := by
  have hsorted : (as.mergeSort fun a b => key a ≤ key b).Pairwise fun a b => key a ≤ key b := by
    refine (List.pairwise_mergeSort ?_ ?_ as).imp of_decide_eq_true
    · intro a b c hab hbc
      exact decide_eq_true (Std.le_trans (of_decide_eq_true hab) (of_decide_eq_true hbc))
    · intro a b
      simpa using Std.le_total (a := key a) (b := key b)
  have hnodup : ((as.mergeSort fun a b => key a ≤ key b).map key).Nodup :=
    ((List.mergeSort_perm as _).map _).nodup_iff.2 h
  rw [List.pairwise_map]
  refine hsorted.imp₂ ?_ (List.pairwise_map.1 hnodup)
  intro a b hle hne
  exact Std.lt_of_le_of_ne hle hne

end Ordered

lemma nodup_keys (m : KeyMap α) : m.keys.Nodup :=
  nodup_of_ordered m.keys_ordered

lemma length_keys (m : KeyMap α) : m.keys.length = m.size :=
  List.length_map _

/-- Maps with the same look-ups are equal. -/
theorem ext_find? {m n : KeyMap α} (h : ∀ key, m.find? key = n.find? key) : m = n := by
  have hnodup : ∀ l : KeyMap α, l.entries.Nodup := fun l =>
    List.Pairwise.of_map _ (fun _ _ hne he => hne (congrArg Prod.fst he)) l.nodup_keys
  have hperm : m.entries.Perm n.entries := by
    refine (List.perm_ext_iff_of_nodup (hnodup m) (hnodup n)).2 fun e => ?_
    rw [mem_entries_iff m e.1 e.2, mem_entries_iff n e.1 e.2, h]
  have hentries : m.entries = n.entries := by
    refine hperm.eq_of_pairwise (fun a b _ _ hab hba => ?_) m.ordered n.ordered
    exact absurd (String.lt_trans hab hba) (String.lt_irrefl _)
  cases m
  cases n
  cases hentries
  rfl

end Polyglot.KeyMap

/-! ### Sets -/

namespace Polyglot.KeySet

lemma mem_keys_insert (s : KeySet) (key other : String) :
    other ∈ (insert s key).keys ↔ other = key ∨ other ∈ s.keys := by
  rw [KeyMap.mem_keys_iff, KeyMap.mem_keys_iff, insert, KeyMap.find?_insert]
  by_cases h : other = key <;> simp [h]

lemma mem_keys_foldl_insert (ks : List String) (s : KeySet) (key : String) :
    key ∈ (ks.foldl insert s).keys ↔ key ∈ s.keys ∨ key ∈ ks := by
  induction ks generalizing s with
  | nil => simp
  | cons k ks ih =>
    rw [List.foldl_cons, ih, mem_keys_insert, List.mem_cons, or_assoc]
    exact or_left_comm

theorem mem_keys_union (s t : KeySet) (key : String) :
    key ∈ (s.union t).keys ↔ key ∈ s.keys ∨ key ∈ t.keys :=
  mem_keys_foldl_insert t.keys s key

theorem mem_keys_ofList (ks : List String) (key : String) : key ∈ (ofList ks).keys ↔ key ∈ ks := by
  unfold ofList
  rw [mem_keys_foldl_insert]
  exact or_iff_right List.not_mem_nil

/-- Sets with the same members are equal. -/
theorem ext_mem {s t : KeySet} (h : ∀ key, key ∈ s.keys ↔ key ∈ t.keys) : s = t := by
  refine KeyMap.ext_find? fun key => ?_
  have hkey := h key
  rw [KeyMap.mem_keys_iff, KeyMap.mem_keys_iff] at hkey
  rcases hs : s.find? key with _ | ⟨⟨⟩⟩ <;> rcases ht : t.find? key with _ | ⟨⟨⟩⟩ <;> simp_all

end Polyglot.KeySet
