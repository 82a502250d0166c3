import Polyglot.Proofs.ClassMembers
import Polyglot.Proofs.ModulePieces
import Polyglot.Proofs.Unbroken

/-!
# The cache keys in a module

A parameter with a shorthand format goes through the formatter of its class, which is given a cache key
with it. Each such parameter has one key and no other parameter has any, and the keys in a module are
those that were handed out while it was built, in the same order.

* `IsCacheKey`: the form of a cache key;
* `cacheKey?`, `programKeys`: the keys that are found in a tree;
* `Receives`, `receives_formatExpression`: the keys of one parameter;
* `HandsOut`: what is built has the keys that were handed out for it;
* `Keyed`, `keyed_localeProgram`: the main statement.
-/

namespace Polyglot.Generate

open Script

/-! ### Keys -/

/-- The cache key of a word. -/
def keyText (w : Word) : String :=
  cacheKeyMark ++ w.text

/-- The form of a cache key: `fmt` and eight hexadecimal digits, with letters in lower case. -/
def IsCacheKey (key : String) : Prop :=
  ∃ digits : List Char, key = "fmt" ++ String.ofList digits ∧ digits.length = 8 ∧
    ∀ c ∈ digits, isLowerHex c = true

lemma isCacheKey_keyText (w : Word) : IsCacheKey (keyText w) :=
  ⟨w.digits, rfl, w.length_digits, fun _ => Word.isLowerHex_of_mem_digits⟩

/-- Different words have different cache keys. -/
lemma keyText_inj {v w : Word} (h : keyText v = keyText w) : v = w := by
  have hdigits : cacheKeyMark.toList ++ v.digits = cacheKeyMark.toList ++ w.digits := by
    simpa [keyText, Word.text] using congrArg String.toList h
  exact Word.digits_inj (List.append_cancel_left hdigits)

/-- The cache key that an expression itself gives to the formatter. -/
def cacheKey? : Expr → Option String
  | .call (.member (.member .this property) method) [_, _, .literal key, _] =>
    if property = formatterProperty ∧ method = formatMethod then some key else none
  | _ => none

/-- There is no cache key in an expression. -/
def Keyless (e : Expr) : Prop :=
  e.All fun x => cacheKey? x = none

/-- The keys in what a member returns. -/
def valueKeys : Expr → List String
  | .template _ exprs => exprs.filterMap cacheKey?
  | _ => []

def memberKeys : Member → List String
  | .method _ [.returning (some value)] => valueKeys value
  | _ => []

/-- The keys in the class of a module. -/
def programKeys (program : Program) : List String :=
  (classMembers program).flatMap memberKeys

/-! ### Parameters -/

/-- What the expression of a parameter has: one cache key if the format is a shorthand, else none. -/
def Receives : Option Format → Expr → Prop
  | some (.shorthand _), e =>
    (∃ key, cacheKey? e = some key ∧ IsCacheKey key) ∧ ∀ x ∈ e.children, Keyless x
  | _, e => Keyless e

section Keyless

@[simp] lemma keyless_identifier (name : String) : Keyless (.identifier name) :=
  Expr.all_iff.2 ⟨rfl, fun _ h => nomatch h⟩

@[simp] lemma keyless_literal (value : String) : Keyless (.literal value) :=
  Expr.all_iff.2 ⟨rfl, fun _ h => nomatch h⟩

@[simp] lemma keyless_this : Keyless .this :=
  Expr.all_iff.2 ⟨rfl, fun _ h => nomatch h⟩

@[simp] lemma keyless_member {object : Expr} {property : String} :
    Keyless (.member object property) ↔ Keyless object :=
  Expr.all_iff.trans ((and_iff_right rfl).trans List.forall_mem_singleton)

@[simp] lemma keyless_arrow {params : List Param} {body : Expr} :
    Keyless (.arrow params body) ↔ Keyless body :=
  Expr.all_iff.trans ((and_iff_right rfl).trans List.forall_mem_singleton)

end Keyless

/-- **What the expression of a parameter receives.** -/
theorem receives_formatExpression (context name : String) (format : Option Format) (m : Materials) :
    Receives format ((formatExpression context name format).run m).1 := by
  rcases format with _ | code | code
  · exact keyless_identifier name
  · obtain ⟨w, after, hw⟩ := placeholder_run code m
    rw [formatExpression, StateT.run_bind, hw]
    refine Expr.all_iff.2 ⟨rfl, ?_⟩
    show ∀ x ∈ [Expr.identifier (String.ofList w.placeholder), .identifier name], Keyless x
    simp
  · obtain ⟨w, k, between, after, -, -, hrun⟩ := formatExpression_shorthand_fill context name code m
    rw [hrun]
    refine ⟨⟨keyText k, rfl, isCacheKey_keyText k⟩, ?_⟩
    simp [Expr.children]

/-- Each parameter of a content has its expression. -/
lemma receives_parameterExpressions (context : String) (content : List Part) (m : Materials) :
    List.Forall₂ Receives ((content.filterMap parameter?).map Prod.snd)
      ((parameterExpressions context content).run m).1 := by
  unfold parameterExpressions
  generalize content.filterMap parameter? = ps
  induction ps generalizing m with
  | nil => exact .nil
  | cons p ps ih =>
    rw [List.mapM_cons, StateT.run_bind]
    exact .cons (receives_formatExpression context p.1 p.2 m) (ih _)

/-- The template literal of a content has the expressions of its parameters. -/
lemma messageTemplate_run (context : String) (content : List Part) (m : Materials) :
    ∃ quasis, (messageTemplate context content).run m =
      (.template quasis ((parameterExpressions context content).run m).1,
        ((parameterExpressions context content).run m).2) := by
  obtain ⟨first, rest, after, hparts, -, hexprs⟩ := templateParts_run context content m
  refine ⟨first :: rest.map (·.2), ?_⟩
  rw [messageTemplate, StateT.run_bind, hparts, hexprs]
  rfl

/-! ### Keys that are handed out -/

/-- The keys in what is built are those that were handed out for it, in the same order. -/
def HandsOut {α : Type} (build : Build α) (keysOf : α → List String) : Prop :=
  ∀ m, ∃ words : List Word, (build.run m).2.cacheKeys = words.reverse ++ m.cacheKeys ∧
    keysOf (build.run m).1 = words.map keyText

section HandsOut

variable {α β γ : Type} {x : Build α} {y : Build β} {keysX : α → List String}
  {keysY : β → List String} {keysOf : γ → List String}

lemma handsOut_pure {a : α} (h : keysX a = []) : HandsOut (pure a) keysX :=
  fun _ => ⟨[], rfl, h⟩

/-- One thing is built after the other. -/
lemma HandsOut.both (hx : HandsOut x keysX) (hy : HandsOut y keysY) {f : α → β → γ}
    (hf : ∀ a b, keysOf (f a b) = keysX a ++ keysY b) :
    HandsOut (do let a ← x; let b ← y; return f a b) keysOf := by
  intro m
  obtain ⟨first, hfirst, hkeys⟩ := hx m
  obtain ⟨second, hsecond, hkeys'⟩ := hy (x.run m).2
  refine ⟨first ++ second, ?_, ?_⟩
  · show (y.run (x.run m).2).2.cacheKeys = _
    rw [hsecond, hfirst, List.reverse_append, List.append_assoc]
  · show keysOf (f (x.run m).1 (y.run (x.run m).2).1) = _
    rw [hf, hkeys, hkeys', List.map_append]

end HandsOut

lemma handsOut_formatExpression (context name : String) (format : Option Format) :
    HandsOut (formatExpression context name format) fun e => (cacheKey? e).toList := by
  rcases format with _ | code | code
  · exact handsOut_pure rfl
  · exact fun m => ⟨[], rfl, rfl⟩
  · intro m
    obtain ⟨w, k, between, after, hcode, hkey, hrun⟩ := formatExpression_shorthand_fill context name code m
    obtain rfl : ((Piece.code code ()).fill.run m).2 = between := congrArg Prod.snd hcode
    obtain rfl : ((Piece.key ()).fill.run _).2 = after := congrArg Prod.snd hkey
    obtain rfl : _ = k := Piece.key.inj (congrArg Prod.fst hkey)
    rw [hrun]
    exact ⟨[_], rfl, rfl⟩

lemma handsOut_parameterExpressions (context : String) (content : List Part) :
    HandsOut (parameterExpressions context content) fun es => es.filterMap cacheKey? := by
  unfold parameterExpressions
  generalize content.filterMap parameter? = ps
  induction ps with
  | nil => exact handsOut_pure rfl
  | cons p ps ih =>
    rw [List.mapM_cons]
    refine (handsOut_formatExpression context p.1 p.2).both ih fun e es => ?_
    rw [List.filterMap_cons]
    cases cacheKey? e <;> rfl

lemma handsOut_memberValue (catalog : Catalog) (key : String) :
    HandsOut (memberValue catalog key) valueKeys := by
  unfold memberValue
  cases catalog.exposed? key with
  | none => exact handsOut_pure rfl
  | some message =>
    intro m
    obtain ⟨quasis, hrun⟩ := messageTemplate_run s!"{key}, {catalog.id}" message.content m
    obtain ⟨words, hwords, hkeys⟩ :=
      handsOut_parameterExpressions s!"{key}, {catalog.id}" message.content m
    rw [hrun]
    exact ⟨words, hwords, hkeys⟩

lemma handsOut_messageMembers (reports : Reports) (catalog : Catalog) (keys : List String) :
    HandsOut (messageMembers reports catalog keys) (·.flatMap memberKeys) := by
  induction keys with
  | nil => exact handsOut_pure rfl
  | cons key keys ih => exact (handsOut_memberValue catalog key).both ih fun _ _ => rfl

lemma handsOut_localeProgram (o : TargetOptions) (reports : Reports) (catalog : Catalog)
    (source : String) : HandsOut (localeProgram o reports catalog source) programKeys := by
  have hclass : HandsOut (localeClass reports catalog (o.className catalog.id) o.interfaceName)
      fun d => d.members.flatMap memberKeys :=
    handsOut_messageMembers reports catalog reports.coverage.keys.keys
  intro m
  unfold localeProgram
  -- The header comes before the class, and has no keys.
  cases catalog.header with
  | none =>
    obtain ⟨words, hwords, hkeys⟩ := hclass m
    exact ⟨words, hwords, (congrArg (·.flatMap memberKeys) (List.append_nil _)).trans hkeys⟩
  | some code =>
    obtain ⟨words, hwords, hkeys⟩ := hclass ((placeholder code).run m).2
    exact ⟨words, hwords, (congrArg (·.flatMap memberKeys) (List.append_nil _)).trans hkeys⟩

/-! ### Modules -/

/-- The formats of the parameters of the message that a catalog has for a key, if it has one. -/
def formats (catalog : Catalog) (key : String) : List (Option Format) :=
  match catalog.exposed? key with
  | some m => (m.content.filterMap parameter?).map Prod.snd
  | none => []

/-- The member for a key returns a template literal with an expression for each parameter of its
message, and each of these expressions has the cache keys that the format asks for. -/
def KeyedMember (catalog : Catalog) (key : String) (member : Member) : Prop :=
  ∃ params quasis exprs,
    member = .method (.ofMessage key params) [.returning (some (.template quasis exprs))] ∧
    List.Forall₂ Receives (formats catalog key) exprs

/-- The module of a catalog has a member for each generated key, with the cache keys that its parameters
ask for. In all they are the keys of these words, in order. -/
structure Keyed (reports : Reports) (catalog : Catalog) (program : Program) (words : List Word) :
    Prop where
  members : ∃ members, classMembers program = fixedMembers ++ members ∧
    List.Forall₂ (KeyedMember catalog) reports.coverage.keys.keys members
  keys : programKeys program = words.map keyText

lemma Answers.keyed {reports : Reports} {catalog : Catalog} {key : String} {member : Member}
    (h : Answers reports catalog key member) : KeyedMember catalog key member := by
  obtain ⟨value, rfl, ⟨hnone, rfl⟩ | ⟨message, hmessage, m, rfl⟩⟩ := h
  · refine ⟨_, _, [], rfl, ?_⟩
    rw [formats, hnone]
    exact .nil
  · obtain ⟨quasis, hrun⟩ := messageTemplate_run s!"{key}, {catalog.id}" message.content m
    refine ⟨_, quasis, _, by rw [hrun], ?_⟩
    rw [formats, hmessage]
    exact receives_parameterExpressions _ message.content m

/-- **The keys in the module of a catalog** are those that its parameters ask for, and those that were
handed out while it was built. -/
theorem keyed_localeProgram (o : TargetOptions) (reports : Reports) (catalog : Catalog)
    (source : String) (m : Materials) :
    ∃ words : List Word,
      ((localeProgram o reports catalog source).run m).2.cacheKeys = words.reverse ++ m.cacheKeys ∧
      Keyed reports catalog ((localeProgram o reports catalog source).run m).1 words := by
  obtain ⟨words, hwords, hkeys⟩ := handsOut_localeProgram o reports catalog source m
  obtain ⟨between, hmembers⟩ := classMembers_localeProgram o reports catalog source m
  refine ⟨words, hwords, ⟨_, hmembers.trans (members_localeClass ..), ?_⟩, hkeys⟩
  exact (answers_messageMembers reports catalog _ between).imp fun _ _ => Answers.keyed

end Polyglot.Generate
