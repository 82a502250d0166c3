import Polyglot.Message
import Mathlib.Data.List.Chain
import Mathlib.Tactic.Lemma

/-!
# Normal forms of contents

Normalizing is a right fold, so content can be normalized piece by piece. The one fact that carries
this is that two texts put in front one after the other are one text put in front (`cons_text_text`).

* `foldr_normalize`: in front of any content, a normal form does what the content itself does, so a
  part of the content may be normalized early;
* `mem_normalize`: parts other than texts stay;
* `isNormal_normalize`: no text is empty or stands beside another one;
* `atoms`, `normalize_atoms`: normalizing sees the characters and the other parts of a content, and not
  how the characters are grouped into texts;
* `normalize_canonical`: the main statement.
-/

namespace Polyglot

/-- Whether a part refers to another message. -/
def Part.isReference : Part → Bool
  | .reference _ => true
  | _ => false

lemma isReference_cases (p : Part) : p.isReference = false ∨ ∃ name, p = .reference name := by
  cases p with
  | text value => exact Or.inl rfl
  | parameter name format => exact Or.inl rfl
  | reference name => exact Or.inr ⟨name, rfl⟩

lemma cons_text_of_not_text {s : String} {ps : List Part} (h : ∀ t qs, ps ≠ .text t :: qs) :
    Part.cons (.text s) ps = if s.isEmpty then ps else .text s :: ps := by
  rcases ps with _ | ⟨p, ps⟩
  · rfl
  · cases p with
    | text t => exact absurd rfl (h t ps)
    | parameter name format => rfl
    | reference name => rfl

lemma cons_text_empty (ps : List Part) : Part.cons (.text "") ps = ps := by
  rcases ps with _ | ⟨p, ps⟩
  · rfl
  · cases p <;> simp [Part.cons]

/-- Two texts in front of some content are one. -/
theorem cons_text_text (s t : String) (ps : List Part) :
    Part.cons (.text s) (Part.cons (.text t) ps) = Part.cons (.text (s ++ t)) ps := by
  by_cases htext : ∃ u qs, ps = .text u :: qs
  · obtain ⟨u, qs, rfl⟩ := htext
    simp [Part.cons, String.append_assoc]
  · have hps : ∀ u qs, ps ≠ .text u :: qs := fun u qs h => htext ⟨u, qs, h⟩
    rw [cons_text_of_not_text hps, cons_text_of_not_text hps]
    by_cases ht : t = ""
    · subst ht
      simp [cons_text_of_not_text hps]
    · simp [ht, Part.cons]

/-- A text is put in front one character at a time. -/
lemma foldr_chars (cs : List Char) (rest : List Part) :
    (cs.map fun c => Part.text c.toString).foldr Part.cons rest =
      Part.cons (.text (String.ofList cs)) rest := by
  induction cs with
  | nil => exact (cons_text_empty rest).symm
  | cons c cs ih =>
    have hcons : c.toString ++ String.ofList cs = String.ofList (c :: cs) := by
      rw [← String.toList_inj]
      simp
    rw [List.map_cons, List.foldr_cons, ih, cons_text_text, hcons]

lemma foldr_cons_cons (p : Part) (ps rest : List Part) :
    (Part.cons p ps).foldr Part.cons rest = Part.cons p (ps.foldr Part.cons rest) := by
  cases p with
  | parameter name format => rfl
  | reference name => rfl
  | text s =>
    by_cases htext : ∃ u qs, ps = .text u :: qs
    · obtain ⟨u, qs, rfl⟩ := htext
      show Part.cons (.text (s ++ u)) _ = Part.cons (.text s) (Part.cons (.text u) _)
      rw [cons_text_text]
    · rw [cons_text_of_not_text fun u qs h => htext ⟨u, qs, h⟩]
      by_cases hs : s = ""
      · subst hs
        simp [cons_text_empty]
      · simp [hs]

/-- In front of any content, a normal form does what the content itself does. -/
theorem foldr_normalize (ps rest : List Part) :
    (normalize ps).foldr Part.cons rest = ps.foldr Part.cons rest := by
  induction ps with
  | nil => rfl
  | cons p ps ih =>
    show (Part.cons p (normalize ps)).foldr Part.cons rest = _
    rw [foldr_cons_cons, ih]
    rfl

theorem normalize_append (ps qs : List Part) :
    normalize (ps ++ qs) = ps.foldr Part.cons (normalize qs) :=
  List.foldr_append

/-! ### What normalizing keeps -/

lemma mem_cons {p q : Part} {ps : List Part} (hq : ∀ s, q ≠ .text s) :
    q ∈ Part.cons p ps ↔ q = p ∨ q ∈ ps := by
  cases p with
  | parameter name format => simp [Part.cons]
  | reference name => simp [Part.cons]
  | text s =>
    rcases ps with _ | ⟨⟨t⟩ | ⟨name, format⟩ | ⟨name⟩, ps⟩ <;>
      by_cases hs : s = "" <;> simp [Part.cons, hs, hq]

/-- Parts other than texts stay. -/
theorem mem_normalize {q : Part} {ps : List Part} (hq : ∀ s, q ≠ .text s) :
    q ∈ normalize ps ↔ q ∈ ps := by
  induction ps with
  | nil => rfl
  | cons p ps ih =>
    show q ∈ Part.cons p (normalize ps) ↔ _
    rw [mem_cons hq, ih, List.mem_cons]

/-! ### What normalizing achieves -/

def Part.isText : Part → Bool
  | .text _ => true
  | _ => false

/-- No text is empty, and no two texts stand side by side. -/
structure IsNormal (content : List Part) : Prop where
  nonempty : Part.text "" ∉ content
  apart : content.IsChain fun p q => ¬ (p.isText = true ∧ q.isText = true)

lemma IsNormal.tail {p : Part} {ps : List Part} (h : IsNormal (p :: ps)) : IsNormal ps :=
  ⟨fun hmem => h.nonempty (List.mem_cons_of_mem _ hmem), h.apart.tail⟩

lemma IsNormal.cons_of_ne {p : Part} {ps : List Part} (h : IsNormal ps) (hp : p ≠ .text "")
    (hhead : ∀ q ∈ ps.head?, ¬ (p.isText = true ∧ q.isText = true)) : IsNormal (p :: ps) := by
  refine ⟨fun hmem => ?_, List.isChain_cons.2 ⟨hhead, h.apart⟩⟩
  rcases List.mem_cons.1 hmem with he | hmem
  · exact hp he.symm
  · exact h.nonempty hmem

theorem IsNormal.cons {ps : List Part} (h : IsNormal ps) (p : Part) : IsNormal (Part.cons p ps) := by
  cases p with
  | parameter name format => exact h.cons_of_ne (by simp) (by simp [Part.isText])
  | reference name => exact h.cons_of_ne (by simp) (by simp [Part.isText])
  | text s =>
    by_cases htext : ∃ t qs, ps = .text t :: qs
    · obtain ⟨t, qs, rfl⟩ := htext
      have ht : t ≠ "" := fun he => h.nonempty (by simp [he])
      refine h.tail.cons_of_ne (by simp [ht]) fun q hq => ?_
      exact (List.isChain_cons.1 h.apart).1 q hq
    · have hps : ∀ t qs, ps ≠ .text t :: qs := fun t qs he => htext ⟨t, qs, he⟩
      rw [cons_text_of_not_text hps]
      split
      · exact h
      · rename_i hs
        refine h.cons_of_ne (by simpa using hs) fun q hq htexts => ?_
        obtain ⟨qs, rfl⟩ := List.head?_eq_some_iff.1 hq
        cases q with
        | text t => exact hps t qs rfl
        | parameter name format => cases htexts.2
        | reference name => cases htexts.2

theorem isNormal_normalize (content : List Part) : IsNormal (normalize content) := by
  induction content with
  | nil => exact ⟨by simp [normalize], .nil⟩
  | cons p ps ih => exact ih.cons p

/-- Normal content gets its first part back. -/
lemma IsNormal.cons_eq {p : Part} {ps : List Part} (h : IsNormal (p :: ps)) :
    Part.cons p ps = p :: ps := by
  cases p with
  | parameter name format => rfl
  | reference name => rfl
  | text s =>
    have hs : s ≠ "" := fun he => h.nonempty (by simp [he])
    have hps : ∀ t qs, ps ≠ .text t :: qs := by
      rintro t qs rfl
      exact (List.isChain_cons.1 h.apart).1 (.text t) rfl ⟨rfl, rfl⟩
    rw [cons_text_of_not_text hps, if_neg (by simpa using hs)]

/-- Normal content is its own normal form. -/
theorem IsNormal.normalize_eq {ps : List Part} (h : IsNormal ps) : normalize ps = ps := by
  induction ps with
  | nil => rfl
  | cons p ps ih =>
    show Part.cons p (normalize ps) = _
    rw [ih h.tail, h.cons_eq]

/-! ### What normalizing sees -/

/-- What content is made of: single characters, and parts other than texts. -/
inductive Atom where
  | char (c : Char)
  | parameter (name : String) (format : Option Format)
  | reference (name : String)
deriving DecidableEq, Repr

/-- The part that an atom is when it stands alone. -/
def Atom.toPart : Atom → Part
  | char c => .text c.toString
  | parameter name format => .parameter name format
  | reference name => .reference name

def Part.atoms : Part → List Atom
  | .text s => s.toList.map .char
  | .parameter name format => [.parameter name format]
  | .reference name => [.reference name]

/-- The atoms of a content, from left to right. -/
def atoms (content : List Part) : List Atom :=
  content.flatMap Part.atoms

lemma atoms_append (ps qs : List Part) : atoms (ps ++ qs) = atoms ps ++ atoms qs :=
  List.flatMap_append

lemma atoms_cons (p : Part) (ps : List Part) : atoms (Part.cons p ps) = p.atoms ++ atoms ps := by
  cases p with
  | parameter name format => rfl
  | reference name => rfl
  | text s =>
    by_cases htext : ∃ u qs, ps = .text u :: qs
    · obtain ⟨u, qs, rfl⟩ := htext
      simp [Part.cons, atoms, Part.atoms]
    · rw [cons_text_of_not_text fun u qs h => htext ⟨u, qs, h⟩]
      by_cases hs : s = ""
      · subst hs
        rfl
      · rw [if_neg (by simpa using hs)]
        rfl

/-- Normalizing keeps the atoms. -/
theorem atoms_normalize (ps : List Part) : atoms (normalize ps) = atoms ps := by
  induction ps with
  | nil => rfl
  | cons p ps ih =>
    show atoms (Part.cons p (normalize ps)) = _
    rw [atoms_cons, ih]
    rfl

lemma foldr_atoms (p : Part) (rest : List Part) :
    (p.atoms.map Atom.toPart).foldr Part.cons rest = Part.cons p rest := by
  cases p with
  | parameter name format => rfl
  | reference name => rfl
  | text s =>
    rw [Part.atoms, List.map_map]
    show (s.toList.map fun c => Part.text c.toString).foldr Part.cons rest = _
    rw [foldr_chars, String.ofList_toList]

/-- The atoms alone decide the normal form. -/
theorem normalize_atoms (ps : List Part) : normalize ((atoms ps).map Atom.toPart) = normalize ps := by
  induction ps with
  | nil => rfl
  | cons p ps ih =>
    have hsplit : (atoms (p :: ps)).map Atom.toPart =
        p.atoms.map Atom.toPart ++ (atoms ps).map Atom.toPart := List.map_append
    rw [hsplit, normalize_append, ih, foldr_atoms]
    rfl

theorem normalize_eq_iff {ps qs : List Part} : normalize ps = normalize qs ↔ atoms ps = atoms qs := by
  constructor
  · intro h
    rw [← atoms_normalize ps, h, atoms_normalize]
  · intro h
    rw [← normalize_atoms ps, h, normalize_atoms]

/-- **Normalizing gives a canonical form.** In a normal form no text is empty and no two texts stand
side by side. It has the atoms of the content, and contents have the same normal form exactly if they
have the same atoms. So normalizing again changes nothing, and neither does normalizing a stretch of
the content early. -/
theorem normalize_canonical :
    (∀ a, IsNormal (normalize a)) ∧ (∀ a, atoms (normalize a) = atoms a) ∧
    (∀ a b, atoms a = atoms b ↔ normalize a = normalize b) ∧
    (∀ a, normalize (normalize a) = normalize a) ∧
    ∀ a b c, normalize (a ++ normalize b ++ c) = normalize (a ++ b ++ c) := by
  refine ⟨isNormal_normalize, atoms_normalize, fun a b => normalize_eq_iff.symm, ?_, ?_⟩
  · exact fun a => (isNormal_normalize a).normalize_eq
  · intro a b c
    rw [normalize_eq_iff]
    simp only [atoms_append, atoms_normalize]

end Polyglot
