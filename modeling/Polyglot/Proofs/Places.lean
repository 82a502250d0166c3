import Polyglot.Proofs.CursorMoves
import Polyglot.Proofs.ReadNames

/-!
# The places that reading notes

Reading notes a place for each message and for each slip, some of them only after it has read on. All
the same every place is that of an offset of the text, what stands there is what the note is about, and
the places come in the order of the text.

* `Position.ofOffset`: the place of an offset, from the text before it alone;
* `Slip.Marks`, `Definition.Marks`: what stands where a slip or a message was noted;
* `Charted`: notes that were made one after the other between two offsets, with `Charted.append` and
  `Charted.placed`;
* `textBody_charted`, `statement_found`: the slips of a text and what a statement begins with;
* `Draft.Charted.add`, `statements_charted`: one more statement, and all statements of a file;
* `read_places`: the main statement.
-/

namespace Polyglot

/-! ### Offsets -/

namespace Position

/-- The place of an offset of a text. Each line feed before it ends a line, and the characters since the
last of them are the columns before it. -/
def ofOffset (text : List Char) (n : Nat) : Position :=
  ⟨(text.take n).count '\n' + 1, ((text.take n).reverse.takeWhile (· != '\n')).length + 1⟩

lemma ofOffset_succ {text : List Char} {n : Nat} {c : Char} {cs : List Char}
    (h : text.drop n = c :: cs) : ofOffset text (n + 1) = (ofOffset text n).after c := by
  have htake : text.take (n + 1) = text.take n ++ [c] := by
    rw [List.take_add, h]
    rfl
  unfold ofOffset after
  rw [htake, List.count_append, List.reverse_append]
  by_cases hc : c = '\n'
  · simp [hc]
  · simp [hc]

lemma ofOffset_add {text : List Char} {n : Nat} {taken rest : List Char}
    (h : text.drop n = taken ++ rest) :
    ofOffset text (n + taken.length) = (ofOffset text n).afterAll taken := by
  induction taken generalizing n with
  | nil => rfl
  | cons c cs ih =>
    have hnext : text.drop (n + 1) = cs ++ rest := by
      rw [← List.drop_drop, h]
      rfl
    rw [afterAll_cons, ← ofOffset_succ h, ← ih hnext, List.length_cons, Nat.add_right_comm,
      Nat.add_assoc]

lemma compare_eq_lt_iff {p q : Position} :
    p.compare q = .lt ↔ p.line < q.line ∨ p.line = q.line ∧ p.column < q.column := by
  unfold Position.compare
  rw [Ordering.then_eq_lt, Nat.compare_eq_lt, Nat.compare_eq_eq, Nat.compare_eq_lt]

lemma compare_after (p : Position) (c : Char) : p.compare (p.after c) = .lt := by
  rw [compare_eq_lt_iff, after]
  split
  · exact Or.inl (Nat.lt_succ_self _)
  · exact Or.inr ⟨rfl, Nat.lt_succ_self _⟩

lemma compare_trans {p q r : Position} (h : p.compare q = .lt) (h' : q.compare r = .lt) :
    p.compare r = .lt := by
  rw [compare_eq_lt_iff] at h h' ⊢
  omega

/-- Places come in the order of the offsets. -/
lemma compare_ofOffset {text : List Char} {n m : Nat} (h : n < m) (hm : m ≤ text.length) :
    (ofOffset text n).compare (ofOffset text m) = .lt := by
  have hstep : ∀ k < text.length, (ofOffset text k).compare (ofOffset text (k + 1)) = .lt := by
    intro k hk
    rw [ofOffset_succ (List.drop_eq_getElem_cons hk)]
    exact compare_after _ _
  induction m with
  | zero => exact absurd h (Nat.not_lt_zero n)
  | succ m ih =>
    rcases Nat.lt_succ_iff_lt_or_eq.1 h with hlt | rfl
    · exact compare_trans (ih hlt (Nat.le_of_succ_le hm)) (hstep m hm)
    · exact hstep n hm

end Position

/-- The cursor has come to this offset of the text. -/
structure Cursor.OnOffset (text : List Char) (n : Nat) (cur : Cursor) : Prop where
  rest : text.drop n = cur.rest
  position : cur.position = .ofOffset text n

namespace Cursor

variable {text : List Char} {n m : Nat} {cur next : Cursor}

lemma onOffset_ofText (text : List Char) : (ofText text).OnOffset text 0 :=
  ⟨rfl, rfl⟩

lemma OnOffset.lt_length (h : cur.OnOffset text n) (hrest : cur.rest ≠ []) : n < text.length := by
  by_contra hn
  rw [← h.rest, List.drop_eq_nil_of_le (Nat.le_of_not_lt hn)] at hrest
  exact hrest rfl

lemma OnOffset.take_add (h : cur.OnOffset text n) {taken rest : List Char}
    (hrest : cur.rest = taken ++ rest) : text.take (n + taken.length) = text.take n ++ taken := by
  rw [List.take_add, h.rest, hrest, List.take_left]

lemma OnOffset.add (h : cur.OnOffset text n) {taken : List Char}
    (hrest : cur.rest = taken ++ next.rest) (hpos : next.position = cur.position.afterAll taken) :
    next.OnOffset text (n + taken.length) := by
  have hdrop : text.drop n = taken ++ next.rest := h.rest.trans hrest
  constructor
  · rw [← List.drop_drop, hdrop, List.drop_left]
  · rw [hpos, h.position, Position.ofOffset_add hdrop]

lemma OnOffset.eat (h : cur.OnOffset text n) {c : Char} (heat : cur.eat c = some next) :
    next.OnOffset text (n + 1) := by
  obtain ⟨hrest, hpos⟩ := eat_eq_some_iff.1 heat
  exact (h.add (show cur.rest = [c] ++ next.rest from hrest) hpos :)

lemma OnOffset.skip (h : cur.OnOffset text n) (p : Char → Bool) :
    (cur.skip p).OnOffset text (n + (cur.rest.takeWhile p).length) :=
  h.add List.takeWhile_append_dropWhile.symm rfl

lemma OnOffset.moves (h : cur.OnOffset text n) (hm : cur.Moves next) :
    ∃ m, n ≤ m ∧ next.OnOffset text m := by
  obtain ⟨taken, hrest, hpos, -⟩ := hm
  exact ⟨_, Nat.le_add_right n taken.length, h.add hrest hpos⟩

/-- Less is left at a later offset. -/
lemma OnOffset.lt (h : cur.OnOffset text n) (h' : next.OnOffset text m)
    (hlt : next.rest.length < cur.rest.length) : n < m := by
  rw [← h.rest, ← h'.rest, List.length_drop, List.length_drop] at hlt
  omega

end Cursor

/-! ### What stands at a place -/

/-- A text begins with this identifier, and the identifier ends there. -/
def BeginsWith (name : String) (text : List Char) : Prop :=
  isIdentifier name = true ∧
    ∃ tail, text = name.toList ++ tail ∧ ∀ c ∈ tail.head?, isIdentifierPart c = false

/-- A text ends with an opening brace and blanks on its line. -/
def EndsWithBrace (text : List Char) : Prop :=
  ∃ earlier blanks, text = earlier ++ '{' :: blanks ∧ ∀ c ∈ blanks, isInlineBlank c = true

/-- The name of the directive that was refused. -/
def DirectiveFault.about : DirectiveFault → String
  | unknown name => name
  | arity name _ _ => name
  | duplicate d => d.name

/-- What stands before and after the place of a slip: the backslash of an unknown escape, a closing brace
without a second one, a reserved word after an opening brace, or the sign of the refused directive. -/
def Slip.Marks (s : Slip) (before after : List Char) : Prop :=
  match s with
  | unknownEscape c => unescape c = none ∧ ∃ rest, after = '\\' :: c :: rest
  | unmatchedBrace => ∃ rest, after = '}' :: rest ∧ rest.head? ≠ some '}'
  | reservedParameter name => isReserved name = true ∧ BeginsWith name after ∧ EndsWithBrace before
  | directive fault => ∃ rest, after = '@' :: rest ∧ BeginsWith fault.about rest

/-- The key of a message as it is written: plain, or after a parenthesis if the message is hidden. -/
def Visibility.Key (key : String) (text : List Char) : Visibility → Prop
  | exposed => BeginsWith key text
  | hidden => ∃ blanks rest, text = '(' :: (blanks ++ rest) ∧
      (∀ c ∈ blanks, isInlineBlank c = true) ∧ BeginsWith key rest

/-- The place of a message is before its key, or before the parenthesis that hides it. -/
def Definition.Marks (d : Definition) (_before after : List Char) : Prop :=
  d.visibility.Key d.key after

/-- A message with the place where it begins. -/
def Definition.found (d : Definition) : At Definition :=
  ⟨d, d.position⟩

/-! ### Notes in their order -/

section

variable {α : Type} {text : List Char} {marks : α → List Char → List Char → Prop}

/-- A note has the place of an offset, and what stands there is what it is about. -/
structure Stands (text : List Char) (marks : α → List Char → List Char → Prop) (k : Nat) (x : At α) :
    Prop where
  lt_length : k < text.length
  position : x.position = .ofOffset text k
  marks : marks x.value (text.take k) (text.drop k)

/-- Each note stands at an offset of the text, and their places come strictly in order. -/
structure Placed (text : List Char) (marks : α → List Char → List Char → Prop) (found : List (At α)) :
    Prop where
  stands : ∀ x ∈ found, ∃ k, Stands text marks k x
  increasing : found.Pairwise (fun x y => x.position.compare y.position = .lt)

/-- The notes stand one after the other, from the first offset on and before the second. -/
def Charted (text : List Char) (marks : α → List Char → List Char → Prop) :
    Nat → List (At α) → Nat → Prop
  | n, [], m => n ≤ m
  | n, x :: xs, m => ∃ k, n ≤ k ∧ Stands text marks k x ∧ Charted text marks (k + 1) xs m

lemma charted_singleton {n k m : Nat} {x : At α} (hx : Stands text marks k x) (hn : n ≤ k) (hm : k < m) :
    Charted text marks n [x] m :=
  ⟨k, hn, hx, hm⟩

lemma Charted.append {n k m : Nat} {xs ys : List (At α)} (hxs : Charted text marks n xs k)
    (hys : Charted text marks k ys m) : Charted text marks n (xs ++ ys) m := by
  induction xs generalizing n with
  | nil =>
    cases ys with
    | nil => exact Nat.le_trans hxs hys
    | cons y ys =>
      obtain ⟨j, hkj, hy, hrest⟩ := hys
      exact ⟨j, Nat.le_trans hxs hkj, hy, hrest⟩
  | cons x xs ih =>
    obtain ⟨j, hnj, hx, hrest⟩ := hxs
    exact ⟨j, hnj, hx, ih hrest⟩

lemma Charted.mono {n n' m m' : Nat} {xs : List (At α)} (h : Charted text marks n xs m) (hn : n' ≤ n)
    (hm : m ≤ m') : Charted text marks n' xs m' := by
  have hleft : Charted text marks n' [] n := hn
  have hright : Charted text marks m [] m' := hm
  have := (hleft.append h).append hright
  rwa [List.nil_append, List.append_nil] at this

lemma Charted.exists_stands {n m : Nat} {xs : List (At α)} (h : Charted text marks n xs m) :
    ∀ x ∈ xs, ∃ k, n ≤ k ∧ Stands text marks k x := by
  induction xs generalizing n with
  | nil => simp
  | cons y xs ih =>
    obtain ⟨j, hnj, hy, hrest⟩ := h
    intro x hx
    rcases List.mem_cons.1 hx with rfl | hx
    · exact ⟨j, hnj, hy⟩
    · obtain ⟨k, hjk, hk⟩ := ih hrest x hx
      exact ⟨k, by omega, hk⟩

/-- Notes that stand one after the other are in place and in order. -/
lemma Charted.placed {n m : Nat} {xs : List (At α)} (h : Charted text marks n xs m) :
    Placed text marks xs := by
  constructor
  · intro x hx
    obtain ⟨k, -, hk⟩ := h.exists_stands x hx
    exact ⟨k, hk⟩
  · induction xs generalizing n with
    | nil => exact List.Pairwise.nil
    | cons y xs ih =>
      obtain ⟨j, hnj, hy, hrest⟩ := h
      refine List.Pairwise.cons (fun x hx => ?_) (ih hrest)
      obtain ⟨k, hjk, hk⟩ := hrest.exists_stands x hx
      rw [hy.position, hk.position]
      exact Position.compare_ofOffset hjk hk.lt_length.le

end

/-! ### The slips of a text -/

lemma Cursor.beginsWith_identifier {cur next : Cursor} {name : String}
    (h : cur.identifier = some (name, next)) : BeginsWith name cur.rest := by
  obtain ⟨-, hspan⟩ := identifier_eq_some_iff.1 h
  have hname : cur.rest.takeWhile isIdentifierPart = name.toList := congrArg Prod.fst hspan
  refine ⟨identifier_isIdentifier h, cur.rest.dropWhile isIdentifierPart, ?_, fun c hc => ?_⟩
  · rw [← hname]
    exact List.takeWhile_append_dropWhile.symm
  · have hhead := List.head?_dropWhile_not isIdentifierPart cur.rest
    rw [Option.mem_def.1 hc] at hhead
    exact hhead

namespace Read

variable {text : List Char} {n : Nat}

/-- A reading that began at this offset has come to a later one, and its slips stand in between. -/
def Charts {α : Type} (text : List Char) (n : Nat) (slips : α → List (At Slip)) (r : α × Cursor) :
    Prop :=
  ∃ m, r.2.OnOffset text m ∧ Charted text Slip.Marks n (slips r.1) m

lemma charts_of_moves {α : Type} {slips : α → List (At Slip)} {r : α × Cursor} {cur : Cursor}
    (hcur : cur.OnOffset text n) (hmoves : cur.Moves r.2) (hslips : slips r.1 = []) :
    Charts text n slips r := by
  obtain ⟨m, hle, hm⟩ := hcur.moves hmoves
  exact ⟨m, hm, hslips ▸ hle⟩

lemma Charts.mono {α : Type} {slips : α → List (At Slip)} {r : α × Cursor} {k : Nat}
    (h : Charts text k slips r) (hle : n ≤ k) : Charts text n slips r := by
  obtain ⟨m, hm, hslips⟩ := h
  exact ⟨m, hm, hslips.mono hle (Nat.le_refl m)⟩

lemma charts_slip {α : Type} {slips : α → List (At Slip)} {r : α × Cursor} {cur : Cursor} {s : Slip}
    {m : Nat} (hcur : cur.OnOffset text n) (hrest : cur.rest ≠ []) (hs : s.Marks (text.take n) cur.rest)
    (hnext : r.2.OnOffset text m) (hlt : n < m) (hslips : slips r.1 = [⟨s, cur.position⟩]) :
    Charts text n slips r := by
  refine ⟨m, hnext, ?_⟩
  rw [hslips]
  refine charted_singleton ⟨hcur.lt_length hrest, hcur.position, ?_⟩ (Nat.le_refl n) hlt
  rw [hcur.rest]
  exact hs

lemma parameter_charted {cur next : Cursor} {found : Text} (hcur : cur.OnOffset text n)
    (hbrace : EndsWithBrace (text.take n)) (h : parameter cur = .ok (found, next)) :
    Charts text n Text.slips (found, next) := by
  have hstays := parameter_stays cur
  rw [h] at hstays
  have hless := parameter_lt h
  obtain ⟨name, after, format, hid, hend, rfl⟩ := parameter_eq_ok_iff.1 h
  by_cases hname : isReserved name = true
  · obtain ⟨m, -, hm⟩ := hcur.moves hstays.1
    refine charts_slip (s := .reservedParameter name) hcur ?_
      ⟨hname, Cursor.beginsWith_identifier hid, hbrace⟩ hm (hcur.lt hm hless) (if_pos hname)
    intro hnil
    rw [hnil] at hless
    exact Nat.not_lt_zero _ hless
  · exact charts_of_moves hcur hstays.1 (if_neg hname)

lemma placeholder_charted {cur next : Cursor} {found : Text} {before : List Char}
    (hcur : cur.OnOffset text n) (hbrace : text.take n = before ++ ['{'])
    (h : placeholder cur = .ok (found, next)) : Charts text n Text.slips (found, next) := by
  have hskip : cur.skipInline.OnOffset text _ := hcur.skip isInlineBlank
  have hstays := placeholder_stays cur
  rw [h] at hstays
  rcases placeholder_eq_ok_iff.1 h with ⟨after, -, href⟩ | ⟨-, hparam⟩
  · obtain ⟨name, _, -, -, rfl⟩ := reference_eq_ok_iff.1 href
    exact charts_of_moves hcur hstays.1 rfl
  · refine (parameter_charted hskip ⟨before, cur.rest.takeWhile isInlineBlank, ?_, ?_⟩ hparam).mono
      (Nat.le_add_right _ _)
    · rw [hcur.take_add List.takeWhile_append_dropWhile.symm, hbrace, List.append_assoc]
      rfl
    · exact fun c hc => List.all_eq_true.1 List.all_takeWhile c hc

lemma escaped_charted {cur next after : Cursor} {e : Char} (hcur : cur.OnOffset text n)
    (heat : cur.eat '\\' = some next) (hescaped : next.eat e = some after) :
    Charts text n foundSlips (some (escaped e cur.position), after) := by
  have hafter := (hcur.eat heat).eat hescaped
  have hrest : cur.rest = '\\' :: e :: after.rest := by
    rw [(Cursor.eat_eq_some_iff.1 heat).1, (Cursor.eat_eq_some_iff.1 hescaped).1]
  unfold escaped
  split
  · exact ⟨_, hafter, show n ≤ n + 1 + 1 by omega⟩
  · rename_i he
    exact charts_slip (s := .unknownEscape e) hcur (by simp [hrest]) ⟨he, after.rest, hrest⟩ hafter
      (by omega) rfl

/-- One step of reading a text. -/
lemma textStep_charted {quote : Char} {start : Position} {cur next : Cursor} {found : Option Text}
    (hcur : cur.OnOffset text n) (h : textStep quote start cur = .ok (found, next)) :
    Charts text n foundSlips (found, next) := by
  cases textStep_eq_ok_iff.1 h with
  | closed heat => exact ⟨_, hcur.eat heat, Nat.le_succ n⟩
  | escape _ _ heat hescaped => exact escaped_charted hcur heat hescaped
  | pair _ _ heat hsecond =>
    exact ⟨_, (hcur.eat heat).eat hsecond, show n ≤ n + 1 + 1 by omega⟩
  | @placeholder inside _ _ _ heat _ hfound =>
    have hbrace : text.take (n + 1) = text.take n ++ ['{'] :=
      hcur.take_add (show cur.rest = ['{'] ++ inside.rest from (Cursor.eat_eq_some_iff.1 heat).1)
    obtain ⟨m, hm, hslips⟩ := placeholder_charted (hcur.eat heat) hbrace hfound
    exact ⟨m, hm, hslips.mono (Nat.le_succ n) (Nat.le_refl m)⟩
  | unmatched _ heat hsecond =>
    have hrest := (Cursor.eat_eq_some_iff.1 heat).1
    exact charts_slip (s := .unmatchedBrace) hcur (by simp [hrest])
      ⟨_, hrest, Cursor.eat_eq_none_iff.1 hsecond⟩ (hcur.eat heat) (Nat.lt_succ_self n) rfl
  | plain _ _ heat => exact ⟨_, hcur.eat heat, Nat.le_succ n⟩

/-- The slips of a text stand where reading passes, one after the other. -/
theorem textBody_charted {quote : Char} {start : Position} {cur : Cursor} {r : Text × Cursor}
    (hcur : cur.OnOffset text n) (h : textBody quote start cur = .ok r) : Charts text n Text.slips r := by
  fun_induction textBody quote start cur generalizing n r with
  | case1 cur e hs => cases h
  | case2 cur next hs =>
    cases h
    exact textStep_charted hcur hs
  | case3 cur found next hs ih =>
    obtain ⟨a, ha, rfl⟩ := map_eq_ok_iff.1 h
    obtain ⟨k, hk, hfirst⟩ := textStep_charted hcur hs
    obtain ⟨m, hm, hrest⟩ := ih hk ha
    exact ⟨m, hm, hfirst.append hrest⟩

lemma text_charted {cur : Cursor} {r : Text × Cursor} (hcur : cur.OnOffset text n)
    (h : Read.text cur = .ok r) : Charts text n Text.slips r := by
  obtain ⟨quote, next, -, heat, hbody⟩ := text_eq_ok_iff.1 h
  exact (textBody_charted (hcur.eat heat) hbody).mono (Nat.le_succ n)

/-! ### What a statement begins with -/

lemma key_of_ok {cur next : Cursor} {name : String} {visibility : Visibility}
    (h : key cur = .ok ((name, visibility), next)) : visibility.Key name cur.rest := by
  rcases key_eq_ok_iff.1 h with ⟨rfl, opened, after, hopen, hid, -⟩ | ⟨rfl, -, hid⟩
  · refine ⟨opened.rest.takeWhile isInlineBlank, opened.skipInline.rest, ?_, ?_,
      Cursor.beginsWith_identifier hid⟩
    · rw [(Cursor.eat_eq_some_iff.1 hopen).1]
      exact congrArg _ List.takeWhile_append_dropWhile.symm
    · exact fun c hc => List.all_eq_true.1 List.all_takeWhile c hc
  · exact Cursor.beginsWith_identifier hid

lemma moves_lineEnd {fault : Char → SyntaxError} {cur next : Cursor} (h : lineEnd fault cur = .ok next) :
    cur.Moves next := by
  have hskip := Cursor.moves_skipInline cur
  rcases lineEnd_eq_ok_iff.1 h with ⟨-, rfl⟩ | ⟨-, rfl⟩
  · exact hskip
  · exact hskip.trans (Cursor.moves_skipLine _)

end Read

/-- What a statement that was read between two offsets has begun with, and that the slips of a message
stand between the offsets. -/
def Statement.Found (text : List Char) (n m : Nat) : Statement → Prop
  | directive name _ => ∃ rest, text.drop n = '@' :: rest ∧ BeginsWith name rest
  | message key visibility t => visibility.Key key (text.drop n) ∧ Charted text Slip.Marks n t.slips m
  | _ => True

namespace Read

variable {text : List Char} {n : Nat}

lemma message_found {cur next : Cursor} {s : Statement} (hcur : cur.OnOffset text n)
    (h : message cur = .ok (s, next)) : ∃ m, next.OnOffset text m ∧ s.Found text n m := by
  obtain ⟨name, visibility, t, afterKey, value, afterText, hkey, heat, htext, hend, rfl⟩ :=
    message_eq_ok_iff.1 h
  have hstays := key_stays cur
  rw [hkey] at hstays
  have hvalue : cur.Moves value.skipInline :=
    hstays.1.trans ((Cursor.moves_skipInline afterKey).trans
      ((Cursor.moves_eat (by decide) heat).trans (Cursor.moves_skipInline value)))
  obtain ⟨k, hle, hk⟩ := hcur.moves hvalue
  obtain ⟨j, hj, hslips⟩ := text_charted hk htext
  obtain ⟨m, hjm, hm⟩ := hj.moves (moves_lineEnd hend)
  refine ⟨m, hm, ?_, hslips.mono hle hjm⟩
  rw [hcur.rest]
  exact key_of_ok hkey

/-- One statement, from its first character on. -/
theorem statement_found {seen : Bool} {cur next : Cursor} {c : Char} {cs : List Char} {s : Statement}
    (hcur : cur.OnOffset text n) (hrest : cur.rest = c :: cs)
    (h : statement seen cur c ⟨cs, cur.position.after c⟩ = .ok (s, next)) :
    ∃ m, n < m ∧ next.OnOffset text m ∧ s.Found text n m := by
  have hless := statement_lt hrest h
  suffices hfound : ∃ m, next.OnOffset text m ∧ s.Found text n m by
    obtain ⟨m, hm, hs⟩ := hfound
    exact ⟨m, hcur.lt hm hless, hm, hs⟩
  have hstays := statement_stays seen hrest
  rw [h] at hstays
  obtain ⟨m, -, hm⟩ := hcur.moves hstays.1
  cases statement_eq_ok_iff.1 h with
  | comment => exact ⟨m, hm, trivial⟩
  | header _ _ h =>
    obtain ⟨-, _, _, -, -, rfl⟩ := header_eq_ok_iff.1 h
    exact ⟨m, hm, trivial⟩
  | directive hc _ h =>
    obtain ⟨name, _, hid, -, rfl⟩ := directive_eq_ok_iff.1 h
    refine ⟨m, hm, cs, ?_, Cursor.beginsWith_identifier hid⟩
    rw [hcur.rest, hrest, hc]
  | message _ h => exact message_found hcur h

end Read

/-! ### A document -/

lemma Directive.about_of_error {name : String} {args : List String} {ds : List Directive}
    {fault : DirectiveFault} (h : (build name args).bind (addTo ds) = .error fault) :
    fault.about = name := by
  unfold build at h
  split at h
  · cases h
    rfl
  · rename_i d hd
    split at h
    · change addTo ds d = .error fault at h
      unfold addTo at h
      split at h
      · cases h
        unfold ofName? at hd
        split at hd
        · rename_i hname
          cases hd
          exact hname.symm
        · cases hd
      · cases h
    · cases h
      rfl

/-- The notes of a draft stand in the text before this offset, one after the other. -/
structure Draft.Charted (text : List Char) (n : Nat) (d : Draft) : Prop where
  slips : Polyglot.Charted text Slip.Marks 0 d.slips n
  definitions : Polyglot.Charted text Definition.Marks 0 (d.document.definitions.map Definition.found) n

lemma Draft.Charted.mono {text : List Char} {n m : Nat} {d : Draft} (h : d.Charted text n) (hle : n ≤ m) :
    d.Charted text m :=
  ⟨h.slips.mono (Nat.le_refl 0) hle, h.definitions.mono (Nat.le_refl 0) hle⟩

/-- **One more statement.** Its notes stand after those that the draft has. -/
theorem Draft.Charted.add {text : List Char} {n m : Nat} {d : Draft} {cur : Cursor} {s : Statement}
    (h : d.Charted text n) (hcur : cur.OnOffset text n) (hrest : cur.rest ≠ []) (hlt : n < m)
    (hs : s.Found text n m) : (d.add ⟨s, cur.position⟩).Charted text m := by
  have hpassed := h.mono hlt.le
  cases s with
  | comment => exact hpassed
  | header code => exact ⟨hpassed.slips, hpassed.definitions⟩
  | directive name args =>
    unfold Draft.add Draft.addDirective
    simp only
    split
    · exact ⟨hpassed.slips, hpassed.definitions⟩
    · rename_i fault hfault
      refine ⟨h.slips.append (charted_singleton ?_ (Nat.le_refl n) hlt), hpassed.definitions⟩
      refine ⟨hcur.lt_length hrest, hcur.position, ?_⟩
      obtain ⟨rest, hsign, hname⟩ := hs
      exact ⟨rest, hsign, Directive.about_of_error hfault ▸ hname⟩
  | message key visibility t =>
    obtain ⟨hkey, hslips⟩ := hs
    refine ⟨h.slips.append hslips, ?_⟩
    have hone : Polyglot.Charted text Definition.Marks n
        [(⟨key, visibility, t.content, t.parameters, cur.position⟩ : Definition).found] m :=
      charted_singleton ⟨hcur.lt_length hrest, hcur.position, hkey⟩ (Nat.le_refl n) hlt
    have := h.definitions.append hone
    rwa [← List.map_singleton, ← List.map_append] at this

/-- **All statements that are left.** -/
theorem Read.statements_charted {text : List Char} {n : Nat} {seen : Bool} {cur : Cursor}
    {ss : List (At Statement)} {d : Draft} (hcur : cur.OnOffset text n) (hd : d.Charted text n)
    (h : statements seen cur = .ok ss) : ∃ m, (ss.foldl Draft.add d).Charted text m := by
  fun_induction statements seen cur generalizing n ss d with
  | case1 seen cur hrest =>
    cases h
    exact ⟨n, hd⟩
  | case2 => cases h
  | case3 =>
    rename_i cur c cs hrest here s next hs ih
    have hhere : here.OnOffset text _ := hcur.skip isBlank
    obtain ⟨m, hlt, hnext, hfound⟩ := statement_found hhere hrest hs
    obtain ⟨rest, hrest', rfl⟩ := map_eq_ok_iff.1 h
    have hadd := (hd.mono (Nat.le_add_right n _)).add hhere (by simp [here, hrest]) hlt hfound
    exact (ih hnext hadd hrest' :)

lemma Position.Within.exists_ofOffset {text : List Char} {p : Position} (h : p.Within text) :
    ∃ n ≤ text.length, p = .ofOffset text n := by
  obtain ⟨before, after, rfl, rfl, -⟩ := h
  refine ⟨before.length, by simp, ?_⟩
  have hend := ofOffset_add (show (before ++ after).drop 0 = before ++ after from rfl)
  rw [Nat.zero_add] at hend
  exact hend.symm

/-- **Places are right and in order.** For every source, the places of messages and those of slips are
places of offsets of the text without its mark, where stands what was noted, and each of the two lists
increases strictly. The fault that ends a reading has the place of an offset or of the end. -/
theorem read_places (source : String) :
    (∀ draft, Document.read source = .ok draft →
      Placed (dropMark source.toList) Definition.Marks
        (draft.document.definitions.map Definition.found) ∧
      Placed (dropMark source.toList) Slip.Marks draft.slips) ∧
    ∀ e, Document.read source = .error e →
      ∃ n ≤ (dropMark source.toList).length, e.position = .ofOffset (dropMark source.toList) n := by
  constructor
  · intro draft h
    obtain ⟨ss, hss, rfl⟩ := map_eq_ok_iff.1 h
    have hempty : ({} : Draft).Charted (dropMark source.toList) 0 := ⟨Nat.le_refl 0, Nat.le_refl 0⟩
    obtain ⟨m, hm⟩ := Read.statements_charted (Cursor.onOffset_ofText _) hempty hss
    exact ⟨hm.definitions.placed, hm.slips.placed⟩
  · intro e h
    exact ((read_within source).2 e h).exists_ofOffset

/-- A file with a mark, a refused directive, and a slip of each other kind in its two messages. -/
def slippedSource : String :=
  "\uFEFF@colour\n(brand) = 'a\\q\x7d'\nhi = \"\x7b if \x7d\"\n"

def slippedDraft : Draft where
  document :=
    { definitions := [⟨"brand", .hidden, [.text "a"], ∅, ⟨2, 1⟩⟩,
        ⟨"hi", .exposed, [.parameter "if" none], .ofList [⟨"if", .unknown⟩], ⟨3, 1⟩⟩] }
  slips := [⟨.directive (.unknown "colour"), ⟨1, 1⟩⟩, ⟨.unknownEscape 'q', ⟨2, 13⟩⟩,
    ⟨.unmatchedBrace, ⟨2, 15⟩⟩, ⟨.reservedParameter "if", ⟨3, 9⟩⟩]

theorem read_places_slipped :
    (Document.read slippedSource = .ok slippedDraft ∧
      Placed (dropMark slippedSource.toList) Definition.Marks
        (slippedDraft.document.definitions.map Definition.found) ∧
      Placed (dropMark slippedSource.toList) Slip.Marks slippedDraft.slips) ∧
    Document.read "hi\n= 'a'" = .error ⟨.noEquals "hi", ⟨1, 3⟩⟩ ∧
      ∃ n ≤ (dropMark "hi\n= 'a'".toList).length,
        (⟨1, 3⟩ : Position) = .ofOffset (dropMark "hi\n= 'a'".toList) n := by
  have hread : Document.read slippedSource = .ok slippedDraft := by
    decide +kernel
  have hfault : Document.read "hi\n= 'a'" = .error ⟨.noEquals "hi", ⟨1, 3⟩⟩ := by
    decide +kernel
  exact ⟨⟨hread, (read_places slippedSource).1 _ hread⟩, hfault,
    (read_places "hi\n= 'a'").2 _ hfault⟩

end Polyglot
