/-!
# Maps kept in key order

A map from texts to values, stored as its entries in strictly increasing key order, so that two
maps with the same look-ups are the same list and a listing is always sorted.

* `KeyMap`: the type, with `find?`, `insert`, `erase`, `keys`.
* `KeySet`: a set of texts, the map that holds nothing but its keys.
-/

namespace Polyglot

/-- Entries whose keys increase strictly. Keys are compared by code point. -/
structure KeyMap (α : Type) where
  entries : List (String × α)
  ordered : entries.Pairwise (fun a b => a.1 < b.1)

namespace KeyMap

variable {α β : Type}

/-- Put an entry into ordered entries, in place of one with the same key. -/
def insertEntry (key : String) (value : α) : List (String × α) → List (String × α)
  | [] => [(key, value)]
  | e :: es =>
    if key < e.1 then (key, value) :: e :: es
    else if key = e.1 then (key, value) :: es
    else e :: insertEntry key value es

theorem mem_insertEntry {key : String} {value : α} {es : List (String × α)} {e : String × α}
    (h : e ∈ insertEntry key value es) : e.1 = key ∨ e ∈ es := by
  induction es with
  | nil => simp_all [insertEntry]
  | cons d ds ih =>
    unfold insertEntry at h
    split at h
    · simp only [List.mem_cons] at h ⊢
      rcases h with rfl | h | h <;> simp_all
    · split at h
      · simp only [List.mem_cons] at h ⊢
        rcases h with rfl | h <;> simp_all
      · simp only [List.mem_cons] at h ⊢
        rcases h with rfl | h
        · exact .inr (.inl rfl)
        · rcases ih h with h | h
          · exact .inl h
          · exact .inr (.inr h)

/-- Of two different texts, one is smaller. -/
theorem lt_of_not_lt_of_ne {a b : String} (h : ¬ a < b) (hne : a ≠ b) : b < a := by
  refine Decidable.by_contra fun hn => hne ?_
  exact String.le_antisymm (String.not_lt.1 hn) (String.not_lt.1 h)

theorem insertEntry_ordered (key : String) (value : α) {es : List (String × α)}
    (h : es.Pairwise (fun a b => a.1 < b.1)) :
    (insertEntry key value es).Pairwise (fun a b => a.1 < b.1) := by
  induction es with
  | nil => simp [insertEntry]
  | cons d ds ih =>
    rw [List.pairwise_cons] at h
    unfold insertEntry
    split
    · rename_i hlt
      refine List.pairwise_cons.2 ⟨fun e he => ?_, List.pairwise_cons.2 h⟩
      rcases List.mem_cons.1 he with rfl | he
      · exact hlt
      · exact String.lt_trans hlt (h.1 e he)
    · split
      · rename_i heq
        exact List.pairwise_cons.2 ⟨fun e he => heq ▸ h.1 e he, h.2⟩
      · rename_i hlt hne
        refine List.pairwise_cons.2 ⟨fun e he => ?_, ih h.2⟩
        rcases mem_insertEntry he with rfl | he
        · exact lt_of_not_lt_of_ne hlt hne
        · exact h.1 e he

def empty : KeyMap α := ⟨[], .nil⟩

instance : EmptyCollection (KeyMap α) := ⟨empty⟩
instance : Inhabited (KeyMap α) := ⟨empty⟩

/-- The value at a key. -/
def find? (m : KeyMap α) (key : String) : Option α :=
  (m.entries.find? (fun e => e.1 == key)).map (·.2)

def contains (m : KeyMap α) (key : String) : Bool :=
  m.entries.any (fun e => e.1 == key)

/-- Set the value at a key. -/
def insert (m : KeyMap α) (key : String) (value : α) : KeyMap α :=
  ⟨insertEntry key value m.entries, insertEntry_ordered key value m.ordered⟩

/-- Forget a key. -/
def erase (m : KeyMap α) (key : String) : KeyMap α :=
  ⟨m.entries.filter (fun e => e.1 != key), m.ordered.filter _⟩

/-- Change every value, and no key. -/
def mapValues (m : KeyMap α) (f : α → β) : KeyMap β :=
  ⟨m.entries.map (fun e => (e.1, f e.2)), List.pairwise_map.2 m.ordered⟩

/-- The keys in order. -/
def keys (m : KeyMap α) : List String :=
  m.entries.map (·.1)

def size (m : KeyMap α) : Nat :=
  m.entries.length

/-- The map with these entries, a later one taking the place of an earlier one with its key. -/
def ofList (es : List (String × α)) : KeyMap α :=
  es.foldl (fun m e => m.insert e.1 e.2) ∅

instance [DecidableEq α] : DecidableEq (KeyMap α) := fun a b =>
  match decEq a.entries b.entries with
  | isTrue h => isTrue (by cases a; cases b; simp_all)
  | isFalse h => isFalse (by intro e; exact h (by rw [e]))

end KeyMap

/-- A set of texts, listed in order. -/
abbrev KeySet := KeyMap Unit

namespace KeySet

def insert (s : KeySet) (key : String) : KeySet :=
  KeyMap.insert s key ()

def union (s t : KeySet) : KeySet :=
  t.keys.foldl insert s

def ofList (keys : List String) : KeySet :=
  keys.foldl insert ∅

end KeySet

end Polyglot
