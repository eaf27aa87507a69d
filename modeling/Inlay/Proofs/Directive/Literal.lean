import Mathlib.Algebra.Order.Group.Int
import Mathlib.Order.Bounds.Defs
import Inlay.Directive.Parenthesis

/-!
The literals that a scan for a closing parenthesis meets. A literal opens at a double quote outside
of literals, and closes at the next one that belongs to no escape. The scan reads character by
character, and knows at each index whether it stands in a literal. Indices may be negative, and then
count from the end of the body.
-/

namespace Inlay

namespace Text

def at? (text : Text) (index : Int) : Option CodePoint :=
  if 0 ≤ index then text[index.toNat]?
  else if -text.length ≤ index then text[(text.length + index).toNat]?
  else none

variable {text : Text} {index : Int}

theorem lt_length_of_at? {c : CodePoint} (found : text.at? index = some c) :
    index < text.length := by
  by_cases forward : 0 ≤ index
  · rw [at?, if_pos forward] at found
    have inside := (List.getElem?_eq_some_iff.mp found).1
    omega
  · omega

theorem exists_at? (first : -text.length ≤ index) (last : index < text.length) :
    ∃ c, text.at? index = some c := by
  by_cases forward : 0 ≤ index
  · rw [at?, if_pos forward]
    exact ⟨_, List.getElem?_eq_getElem (by omega)⟩
  · rw [at?, if_neg forward, if_pos first]
    exact ⟨_, List.getElem?_eq_getElem (by omega)⟩

end Text

namespace Parenthesis

/-- The characters of a literal between two indices. An escape takes two of them. -/
inductive Content (body : Text) : Int → Int → Prop
  | done {index : Int} : Content body index index
  | plain {index last : Int} {c : CodePoint} :
      body.at? index = some c → c ≠ '\\' → c ≠ '"' → Content body (index + 1) last →
      Content body index last
  | escape {index last : Int} {c : CodePoint} :
      body.at? index = some (.ofChar '\\') → body.at? (index + 1) = some c →
      Content body (index + 2) last → Content body index last

/-- A literal with its double quotes at the two indices. -/
structure Literal (body : Text) (opening closing : Int) : Prop where
  opened : body.at? opening = some (.ofChar '"')
  content : Content body (opening + 1) closing
  closed : body.at? closing = some (.ofChar '"')

def quotes (body : Text) (start : Int) : Set Int :=
  {index | start ≤ index ∧ body.at? index = some (.ofChar '"')}

/-- The double quotes that open a literal, if the body is read from an index on. -/
inductive Opens (body : Text) (start : Int) : Int → Prop
  | first {opening : Int} : IsLeast (quotes body start) opening → Opens body start opening
  | next {earlier closing opening : Int} :
      Opens body start earlier → Literal body earlier closing →
      IsLeast (quotes body (closing + 1)) opening → Opens body start opening

/-- An index in a literal, which need not be closed. -/
def Quoted (body : Text) (start index : Int) : Prop :=
  ∃ opening, Opens body start opening ∧ opening < index ∧
    ∀ closing, Literal body opening closing → index ≤ closing

namespace Content

variable {body : Text} {first middle last : Int}

theorem trans (content : Content body first middle) (more : Content body middle last) :
    Content body first last := by
  induction content with
  | done => exact more
  | plain found notEscape notQuote _ induction =>
      exact .plain found notEscape notQuote (induction more)
  | escape found behind _ induction => exact .escape found behind (induction more)

theorem le (content : Content body first last) : first ≤ last := by
  induction content with
  | done => exact Int.le_refl _
  | plain => omega
  | escape => omega

theorem le_of_quote {closing : Int} (content : Content body first last)
    (other : Content body first closing) (quote : body.at? closing = some (.ofChar '"')) :
    last ≤ closing := by
  induction content with
  | done => exact other.le
  | plain found notEscape notQuote _ induction =>
      cases other with
      | done => exact absurd (Option.some.inj (found.symm.trans quote)) notQuote
      | plain _ _ _ other => exact induction other
      | escape found' => exact absurd (Option.some.inj (found.symm.trans found')) notEscape
  | escape found _ _ induction =>
      cases other with
      | done => exact absurd (found.symm.trans quote) (by decide)
      | plain found' notEscape => exact absurd (Option.some.inj (found'.symm.trans found)) notEscape
      | escape _ _ other => exact induction other

end Content

/-- Whether a scan stands in a literal, by the number of indices that it has passed. -/
def quotingAfter (body : Text) (start : Int) : Nat → Quoting
  | 0 => .outside
  | offset + 1 =>
      let quoting := quotingAfter body start offset
      (body.at? (start + offset)).elim quoting quoting.next

def quotingAt (body : Text) (start index : Int) : Quoting :=
  quotingAfter body start (index - start).toNat

section State

variable {body : Text} {start index : Int}

theorem quotingAt_start : quotingAt body start start = .outside := by
  rw [quotingAt, Int.sub_self]
  rfl

theorem quotingAt_succ (passed : start ≤ index) :
    quotingAt body start (index + 1) =
      (body.at? index).elim (quotingAt body start index) (quotingAt body start index).next := by
  have offset : (index + 1 - start).toNat = (index - start).toNat + 1 := by omega
  have place : start + ((index - start).toNat : Int) = index := by omega
  rw [quotingAt, offset, quotingAfter, place]
  rfl

theorem quotingAt_succ_of_some {c : CodePoint} (passed : start ≤ index)
    (found : body.at? index = some c) :
    quotingAt body start (index + 1) = (quotingAt body start index).next c := by
  rw [quotingAt_succ passed, found, Option.elim_some]

theorem quotingAt_behind_quote (passed : start ≤ index)
    (outside : quotingAt body start index = .outside)
    (quote : body.at? index = some (.ofChar '"')) :
    quotingAt body start (index + 1) = .inside := by
  rw [quotingAt_succ_of_some passed quote, outside]
  rfl

theorem quotingAt_behind_backslash (passed : start ≤ index)
    (inside : quotingAt body start index = .inside)
    (escape : body.at? index = some (.ofChar '\\')) :
    quotingAt body start (index + 1) = .escaped := by
  rw [quotingAt_succ_of_some passed escape, inside]
  rfl

theorem quotingAt_behind_escape {c : CodePoint} (passed : start ≤ index)
    (escaped : quotingAt body start (index + 1) = .escaped)
    (behind : body.at? (index + 1) = some c) : quotingAt body start (index + 2) = .inside := by
  rw [show index + 2 = index + 1 + 1 by omega, quotingAt_succ_of_some (by omega) behind, escaped]
  rfl

theorem quotingAt_behind_plain {c : CodePoint} (passed : start ≤ index)
    (inside : quotingAt body start index = .inside) (found : body.at? index = some c)
    (notEscape : c ≠ '\\') (notQuote : c ≠ '"') :
    quotingAt body start (index + 1) = .inside := by
  rw [quotingAt_succ_of_some passed found, inside, Quoting.next, if_neg notEscape,
    if_neg notQuote]

theorem quotingAt_of_no_quote {last : Int} (passed : start ≤ index) (le : index ≤ last)
    (outside : quotingAt body start index = .outside)
    (noQuote : ∀ between, index ≤ between → between < last →
      body.at? between ≠ some (.ofChar '"')) :
    quotingAt body start last = .outside := by
  induction last, le using Int.leInduction with
  | base => exact outside
  | succ last le induction =>
      have before := induction fun between lower upper => noQuote between lower (by omega)
      rw [quotingAt_succ (by omega), before]
      cases found : body.at? last with
      | none => rfl
      | some c =>
          have notQuote : c ≠ '"' := fun quote => noQuote last le (by omega) (quote ▸ found)
          exact if_neg notQuote

theorem quotingAt_of_isLeast {opening : Int} (passed : start ≤ index)
    (outside : quotingAt body start index = .outside)
    (least : IsLeast (quotes body index) opening) :
    quotingAt body start opening = .outside := by
  refine quotingAt_of_no_quote passed least.1.1 outside ?_
  intro between lower upper quote
  exact absurd (least.2 ⟨lower, quote⟩) (by omega)

theorem Content.quotingAt_inside {first last : Int} (content : Content body first last)
    (passed : start ≤ first) (inside : quotingAt body start first = .inside) :
    quotingAt body start last = .inside := by
  induction content with
  | done => exact inside
  | plain found notEscape notQuote _ induction =>
      apply induction (by omega)
      exact quotingAt_behind_plain passed inside found notEscape notQuote
  | escape found behind _ induction =>
      apply induction (by omega)
      exact quotingAt_behind_escape passed (quotingAt_behind_backslash passed inside found) behind

theorem Opens.at?_eq {opening : Int} (opens : Opens body start opening) :
    body.at? opening = some (.ofChar '"') := by
  cases opens with
  | first least => exact least.1.2
  | next _ _ least => exact least.1.2

theorem Opens.quotingAt_outside {opening : Int} (opens : Opens body start opening) :
    start ≤ opening ∧ quotingAt body start opening = .outside := by
  induction opens with
  | first least =>
      exact ⟨least.1.1, quotingAt_of_isLeast (Int.le_refl start) quotingAt_start least⟩
  | @next earlier closing opening opens literal least induction =>
      obtain ⟨passed, outside⟩ := induction
      have opened := quotingAt_behind_quote passed outside literal.opened
      have bounded := literal.content.le
      have closed : quotingAt body start (closing + 1) = .outside := by
        rw [quotingAt_succ_of_some (by omega) literal.closed,
          literal.content.quotingAt_inside (by omega) opened]
        rfl
      have behind := least.1.1
      exact ⟨by omega, quotingAt_of_isLeast (by omega) closed least⟩

/-- A scan can come to an index, as there is a character at each one that it passes. -/
structure Reached (body : Text) (start index : Int) : Prop where
  inside : -body.length ≤ start
  passed : start ≤ index
  bounded : start < index → index ≤ body.length

theorem Reached.exists_at? {between : Int} (reached : Reached body start index)
    (lower : start ≤ between) (upper : between < index) : ∃ c, body.at? between = some c :=
  Text.exists_at? (Int.le_trans reached.inside lower)
    (Int.lt_of_lt_of_le upper (reached.bounded (Int.lt_of_le_of_lt lower upper)))

theorem Reached.succ {c : CodePoint} (reached : Reached body start index)
    (found : body.at? index = some c) : Reached body start (index + 1) :=
  ⟨reached.inside, Int.le_trans reached.passed (Int.le_of_lt (Int.lt_succ index)),
    fun _ => Text.lt_length_of_at? found⟩

theorem Reached.exists_closing {first : Int} (reached : Reached body start index)
    (passed : start ≤ first) (le : first ≤ index)
    (inside : quotingAt body start first = .inside)
    (outside : quotingAt body start index = .outside) :
    ∃ closing, closing < index ∧ Content body first closing ∧
      body.at? closing = some (.ofChar '"') := by
  have before : first < index := by
    refine lt_of_le_of_ne le ?_
    rintro rfl
    simp [inside] at outside
  obtain ⟨c, found⟩ := reached.exists_at? passed before
  -- The recursion goes on behind the two characters of an escape, or behind the one that is none.
  by_cases isEscape : c = '\\'
  · subst isEscape
    have escaped := quotingAt_behind_backslash passed inside found
    have further : first + 1 < index := by
      refine lt_of_le_of_ne before ?_
      rintro rfl
      simp [escaped] at outside
    obtain ⟨d, behind⟩ := reached.exists_at? (by omega) further
    obtain ⟨closing, ends, content, quote⟩ := reached.exists_closing (by omega) (by omega)
      (quotingAt_behind_escape passed escaped behind) outside
    exact ⟨closing, ends, .escape found behind content, quote⟩
  · by_cases isQuote : c = '"'
    · subst isQuote
      exact ⟨first, before, .done, found⟩
    · have next := quotingAt_behind_plain passed inside found isEscape isQuote
      obtain ⟨closing, ends, content, quote⟩ :=
        reached.exists_closing (by omega) (by omega) next outside
      exact ⟨closing, ends, .plain found isEscape isQuote content, quote⟩
termination_by (index - first).toNat

/-- What the state at an index says about the literals in front of it. -/
def Lexed (body : Text) (start index : Int) : Quoting → Prop
  -- Every literal in front is closed, so the next double quote opens one.
  | .outside => ∀ opening, IsLeast (quotes body index) opening → Opens body start opening
  | .inside =>
      ∃ opening, Opens body start opening ∧ opening < index ∧ Content body (opening + 1) index
  | .escaped =>
      ∃ opening before, before + 1 = index ∧ Opens body start opening ∧
        Content body (opening + 1) before ∧ body.at? before = some (.ofChar '\\')

theorem Lexed.step {quoting : Quoting} {c : CodePoint} (lexed : Lexed body start index quoting)
    (found : body.at? index = some c) : Lexed body start (index + 1) (quoting.next c) := by
  cases quoting with
  | outside =>
      by_cases isQuote : c = '"'
      · subst isQuote
        have opens : Opens body start index :=
          lexed index ⟨⟨Int.le_refl index, found⟩, fun _ member => member.1⟩
        exact ⟨index, opens, by omega, .done⟩
      · rw [Quoting.next, if_neg isQuote]
        intro opening least
        refine lexed opening ⟨⟨?_, least.1.2⟩, ?_⟩
        · exact Int.le_trans (by omega) least.1.1
        · rintro other ⟨lower, quote⟩
          have ne : index ≠ other := by
            rintro rfl
            exact isQuote (Option.some.inj (found.symm.trans quote))
          exact least.2 ⟨by omega, quote⟩
  | inside =>
      obtain ⟨opening, opens, before, content⟩ := lexed
      by_cases isEscape : c = '\\'
      · subst isEscape
        exact ⟨opening, index, rfl, opens, content, found⟩
      · rw [Quoting.next, if_neg isEscape]
        by_cases isQuote : c = '"'
        · subst isQuote
          intro next least
          exact .next opens ⟨opens.at?_eq, content, found⟩ least
        · rw [if_neg isQuote]
          exact ⟨opening, opens, by omega, content.trans (.plain found isEscape isQuote .done)⟩
  | escaped =>
      obtain ⟨opening, before, rfl, opens, content, escape⟩ := lexed
      have bounded := content.le
      refine ⟨opening, opens, by omega, content.trans ?_⟩
      rw [Int.add_assoc]
      exact .escape escape found .done

theorem Reached.lexed (reached : Reached body start index) :
    Lexed body start index (quotingAt body start index) := by
  obtain ⟨inside, passed, bounded⟩ := reached
  induction index, passed using Int.leInduction with
  | base =>
      rw [quotingAt_start]
      exact fun opening least => .first least
  | succ index passed induction =>
      have bounded := bounded (Int.lt_add_one_of_le passed)
      obtain ⟨c, found⟩ := Text.exists_at? (Int.le_trans inside passed) bounded
      rw [quotingAt_succ_of_some passed found]
      exact (induction fun _ => Int.le_of_lt bounded).step found

theorem Lexed.quoted {quoting : Quoting} (lexed : Lexed body start index quoting)
    (notOutside : quoting ≠ .outside) : Quoted body start index := by
  cases quoting with
  | outside => contradiction
  | inside =>
      obtain ⟨opening, opens, before, content⟩ := lexed
      exact ⟨opening, opens, before, fun closing literal =>
        content.le_of_quote literal.content literal.closed⟩
  | escaped =>
      obtain ⟨opening, before, rfl, opens, content, escape⟩ := lexed
      have bounded := content.le
      refine ⟨opening, opens, by omega, fun closing literal => ?_⟩
      have le := content.le_of_quote literal.content literal.closed
      have ne : before ≠ closing := by
        rintro rfl
        exact absurd (escape.symm.trans literal.closed) (by decide)
      omega

theorem Reached.quoted_iff (reached : Reached body start index) :
    Quoted body start index ↔ quotingAt body start index ≠ .outside := by
  refine ⟨?_, reached.lexed.quoted⟩
  rintro ⟨opening, opens, before, unclosed⟩ outside
  obtain ⟨passed, outsideOpening⟩ := opens.quotingAt_outside
  have opened := quotingAt_behind_quote passed outsideOpening opens.at?_eq
  obtain ⟨closing, closed, content, quote⟩ :=
    reached.exists_closing (by omega) (by omega) opened outside
  have bounded := unclosed closing ⟨opens.at?_eq, content, quote⟩
  omega

end State

end Parenthesis

end Inlay
