import Polyglot.Generate.Targets
import Polyglot.Proofs.Standing

/-!
# The names of generated files

A module is named after an identifier, so that its name is a name in one directory, and neither that
of the index module nor that of a declaration file. Locales with different identifiers get different
modules.

* `owns_moduleName`, `owns_indexName`, `owns_declarationName`: each name belongs to its kind;
* `not_owns_both`: no name belongs to both kinds;
* `isIdentifier_toIdentifier`, `className_eq_iff`: the name of a class is an identifier, and tells
  locales apart as their own identifiers do;
* `isSegment_moduleName`, `isSegment_indexName`: they are names in one directory;
* `moduleName_ne_indexName`, `moduleName_inj`: no two modules have the same name.
-/

namespace Polyglot

/-! ### Endings -/

namespace OutputKind

lemma hasEnding_iff {k : OutputKind} {name : String} :
    k.hasEnding name = true ↔ k.ending.toList <:+ name.toList := by
  unfold hasEnding
  exact List.isSuffixOf_iff_suffix

lemma hasEnding_append (k : OutputKind) (s : String) : k.hasEnding (s ++ k.ending) = true := by
  rw [hasEnding_iff, String.toList_append]
  exact List.suffix_append _ _

lemma isSegment_of_hasEnding {k : OutputKind} {name : String} (h : k.hasEnding name = true)
    (hslash : '/' ∉ name.toList) : IsSegment name := by
  have hlength : 3 ≤ name.toList.length := by
    refine Nat.le_trans ?_ (hasEnding_iff.1 h).length_le
    cases k <;> decide
  have hshort : ∀ s : String, s.toList.length < 3 → RawText.ofText name ≠ .ofText s := by
    intro s hs heq
    rw [← RawText.ofText_injective heq] at hs
    exact absurd hlength (Nat.not_le_of_lt hs)
  refine ⟨⟨hshort "" (by decide), hshort "." (by decide), hshort ".." (by decide)⟩, ?_⟩
  rwa [RawText.mem_ofText_iff (c := '/') (by decide) (by decide)]

lemma hasEnding_of_owns {k : OutputKind} {name : String} (h : k.owns name = true) :
    k.hasEnding name = true := by
  cases k with
  | modules => exact (Bool.and_eq_true_iff.1 h).1
  | declarations => exact h

/-- No name belongs to both kinds. -/
lemma not_owns_both {k k' : OutputKind} {name : String} (h : k.owns name = true)
    (h' : k'.owns name = true) : k = k' := by
  cases k <;> cases k' <;> simp_all [owns]

/-- A module is named after something without a dot. -/
lemma owns_modules_append {s : String} (hdot : '.' ∉ s.toList) :
    modules.owns (s ++ modules.ending) = true := by
  have hmodule := hasEnding_append modules s
  have hdeclaration : declarations.hasEnding (s ++ modules.ending) = false := by
    refine Bool.eq_false_iff.2 fun h => hdot ?_
    have hsuffix := hasEnding_iff.1 h
    rw [String.toList_append, show declarations.ending.toList = ['.', 'd'] ++ modules.ending.toList from
      by decide, List.suffix_append_inj_of_length_eq rfl] at hsuffix
    exact hsuffix.1.subset (by simp)
  show (modules.hasEnding _ && !declarations.hasEnding _) = true
  rw [hmodule, hdeclaration]
  rfl

end OutputKind

/-! ### Identifiers -/

lemma isIdentifierPart_maskPart (c : Char) : isIdentifierPart (maskPart c) = true := by
  unfold maskPart
  split
  · assumption
  · decide

lemma isIdentifierPart_of_mem_toIdentifier {name : String} {c : Char}
    (hc : c ∈ (toIdentifier name).toList) : isIdentifierPart c = true := by
  have hmasked : ∀ c ∈ name.toList.map maskPart, isIdentifierPart c = true := by
    intro c hc
    obtain ⟨d, -, rfl⟩ := List.mem_map.1 hc
    exact isIdentifierPart_maskPart d
  rw [toIdentifier, String.toList_ofList] at hc
  unfold toIdentifierChars at hc
  simp only at hc
  split at hc
  · rw [List.mem_singleton.1 hc]
    decide
  · split at hc
    · exact hmasked c hc
    · rcases List.mem_cons.1 hc with rfl | hc
      · decide
      · exact hmasked c hc

/-- An identifier is made from any text. -/
lemma isIdentifier_toIdentifier (name : String) : isIdentifier (toIdentifier name) = true := by
  have hparts : ∀ cs : List Char, (cs.map maskPart).all isIdentifierPart = true := by
    intro cs
    rw [List.all_map, List.all_eq_true]
    exact fun c _ => isIdentifierPart_maskPart c
  unfold isIdentifier toIdentifier
  rw [String.toList_ofList]
  cases name.toList with
  | nil => rfl
  | cons c cs =>
    unfold toIdentifierChars
    simp only [List.map_cons]
    split
    · rename_i hstart
      exact Bool.and_eq_true_iff.2 ⟨hstart, hparts cs⟩
    · exact hparts (c :: cs)

lemma toIdentifierChars_append {cs : List Char} (hcs : cs ≠ []) (ds : List Char) :
    toIdentifierChars (cs ++ ds) = toIdentifierChars cs ++ ds.map maskPart := by
  obtain ⟨c, cs, rfl⟩ := List.exists_cons_of_ne_nil hcs
  unfold toIdentifierChars
  simp only [List.cons_append, List.map_cons, List.map_append]
  split <;> simp

namespace Generate

namespace TargetOptions

variable (o : TargetOptions)

lemma isIdentifierPart_of_mem_className {id : String} {c : Char}
    (hc : c ∈ (o.className id).toList) : isIdentifierPart c = true :=
  isIdentifierPart_of_mem_toIdentifier hc

lemma owns_moduleName (id : String) : OutputKind.modules.owns (o.moduleName id) = true := by
  refine OutputKind.owns_modules_append fun h => ?_
  exact absurd (o.isIdentifierPart_of_mem_className h) (by decide)

lemma not_mem_moduleName (id : String) {c : Char} (hc : isIdentifierPart c = false)
    (hending : c ∉ OutputKind.modules.ending.toList) : c ∉ (o.moduleName id).toList := by
  unfold moduleName
  rw [String.toList_append, List.mem_append, not_or]
  refine ⟨fun h => ?_, hending⟩
  rw [o.isIdentifierPart_of_mem_className h] at hc
  cases hc

lemma isSegment_moduleName (id : String) : IsSegment (o.moduleName id) :=
  OutputKind.isSegment_of_hasEnding (OutputKind.hasEnding_of_owns (o.owns_moduleName id))
    (o.not_mem_moduleName id (by decide) (by decide))

/-- The name of a locale and that of the interface are held apart by an underscore. -/
lemma underscore_mem_className (id : String) : '_' ∈ (o.className id).toList := by
  have hmasked : '_' ∈ (id ++ "_" ++ o.interfaceName).toList.map maskPart := by
    refine List.mem_map.2 ⟨'_', ?_, by decide⟩
    simp
  unfold className toIdentifier
  rw [String.toList_ofList]
  unfold toIdentifierChars
  simp only
  split
  · simp
  · split
    · exact hmasked
    · exact List.mem_cons_of_mem _ hmasked

lemma moduleName_ne_indexName (id : String) : o.moduleName id ≠ indexName := by
  intro h
  have hmem : '_' ∈ indexName.toList := by
    rw [← h, moduleName, String.toList_append, List.mem_append]
    exact Or.inl (o.underscore_mem_className id)
  exact absurd hmem (by decide)

lemma toList_className {id : String} (hid : id ≠ "") : (o.className id).toList =
    (toIdentifier id).toList ++ ("_" ++ o.interfaceName).toList.map maskPart := by
  unfold className toIdentifier
  rw [String.toList_ofList, String.toList_ofList, String.append_assoc, String.toList_append]
  exact toIdentifierChars_append (by simpa using hid) _

/-- The name of a class tells locales apart exactly as their identifiers do. -/
lemma className_eq_iff {id id' : String} (hid : id ≠ "") (hid' : id' ≠ "") :
    o.className id = o.className id' ↔ toIdentifier id = toIdentifier id' := by
  rw [← String.toList_inj, o.toList_className hid, o.toList_className hid', List.append_left_inj,
    String.toList_inj]

/-- Locales with different identifiers have different modules. -/
lemma moduleName_inj {id id' : String} (hid : id ≠ "") (hid' : id' ≠ "")
    (h : o.moduleName id = o.moduleName id') : toIdentifier id = toIdentifier id' :=
  (o.className_eq_iff hid hid').1 ((String.append_left_inj _).1 h)

/-- The name of the declaration file. -/
def declarationName : String := o.interfaceName ++ OutputKind.declarations.ending

lemma owns_declarationName : OutputKind.declarations.owns o.declarationName = true :=
  OutputKind.hasEnding_append _ _

variable {o} in
lemma not_mem_declarationName (h : isIdentifier o.interfaceName = true) {c : Char}
    (hc : isIdentifierPart c = false) (hending : c ∉ OutputKind.declarations.ending.toList) :
    c ∉ o.declarationName.toList := by
  obtain ⟨-, -, -, -, hparts⟩ := exists_cons_of_isIdentifier h
  unfold declarationName
  rw [String.toList_append, List.mem_append, not_or]
  refine ⟨fun hmem => ?_, hending⟩
  rw [hparts c hmem] at hc
  cases hc

variable {o} in
lemma isSegment_declarationName (h : isIdentifier o.interfaceName = true) :
    IsSegment o.declarationName :=
  OutputKind.isSegment_of_hasEnding (OutputKind.hasEnding_of_owns o.owns_declarationName)
    (not_mem_declarationName h (by decide) (by decide))

end TargetOptions

lemma owns_indexName : OutputKind.modules.owns indexName = true := by
  decide

lemma isSegment_indexName : IsSegment indexName :=
  OutputKind.isSegment_of_hasEnding (OutputKind.hasEnding_of_owns owns_indexName) (by decide)

end Generate

end Polyglot
