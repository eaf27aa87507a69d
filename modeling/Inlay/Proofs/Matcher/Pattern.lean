import Inlay.Matcher.Basic
import Inlay.Proofs.Matcher.Checked

/-!
How the regular expression of a matcher is read. A backslash and the character behind it are one
token, and any other character is one. The tokens of the marker and of the tag stand for their
characters, so the expression tells which marker and which tag it was made of.
-/

namespace Inlay.Matcher

def metacharacters : Text :=
  ".^$*+?\x7b\x7d[]\\|()"

/-- A character of a regular expression, by itself or behind a backslash that escapes it. -/
inductive Token where
  | plain (c : CodePoint)
  | escaped (c : CodePoint)
deriving DecidableEq

namespace Token

def character : Token → CodePoint
  | plain c | escaped c => c

def text : Token → Text
  | plain c => [c]
  | escaped c => ['\\', c]

end Token

def tokens : Text → List Token
  | [] => []
  | [c] => [.plain c]
  | c :: d :: rest =>
      if c = '\\' then .escaped d :: tokens rest else .plain c :: tokens (d :: rest)

theorem flatMap_text_tokens (text : Text) : (tokens text).flatMap Token.text = text := by
  fun_induction tokens text with
  | case1 => rfl
  | case2 => rfl
  | case3 d rest induction => exact congrArg (_ :: d :: ·) induction
  | case4 c d rest notBackslash induction => exact congrArg (c :: ·) induction

/-- What follows a text is read by itself, unless a backslash is left over for it. -/
theorem tokens_append {lead : Text} (complete : .plain '\\' ∉ tokens lead) (rest : Text) :
    tokens (lead ++ rest) = tokens lead ++ tokens rest := by
  fun_induction tokens lead with
  | case1 => rfl
  | case2 c =>
      -- A backslash at the end would escape the first character of the rest.
      have notBackslash : c ≠ '\\' := by
        rintro rfl
        exact complete (List.mem_singleton.mpr rfl)
      cases rest with
      | nil => rfl
      | cons d rest => exact if_neg notBackslash
  | case3 d lead induction =>
      rw [List.cons_append, List.cons_append, tokens, if_pos rfl,
        induction fun member => complete (List.mem_cons_of_mem _ member), List.cons_append]
  | case4 c d lead notBackslash induction =>
      rw [List.cons_append, List.cons_append, tokens, if_neg notBackslash, ← List.cons_append,
        induction fun member => complete (List.mem_cons_of_mem _ member), List.cons_append]

def literal (c : CodePoint) : Token :=
  if c ∈ specialCharacters then .escaped c else .plain c

theorem not_special_of_literal {c d : CodePoint} (same : literal c = .plain d) :
    d ∉ specialCharacters := by
  intro special
  rw [literal] at same
  split at same
  · contradiction
  · next ordinary =>
      cases same
      exact ordinary special

theorem special_of_literal {c d : CodePoint} (same : literal c = .escaped d) :
    d ∈ specialCharacters := by
  rw [literal] at same
  split at same
  · next special =>
      cases same
      exact special
  · contradiction

theorem character_literal (c : CodePoint) : (literal c).character = c := by
  rw [literal]
  split <;> rfl

theorem map_character_literal (text : Text) :
    (text.map literal).map Token.character = text := by
  simp [Function.comp_def, character_literal]

theorem tokens_escape (text : Text) : tokens (escape text) = text.map literal := by
  induction text with
  | nil => rfl
  | cons c text induction =>
      rw [escape, List.flatMap_cons, List.map_cons, ← induction, literal]
      by_cases special : c ∈ specialCharacters
      · rw [if_pos special, if_pos special]
        exact tokens_append (by simp [tokens]) _
      · have notBackslash : c ≠ '\\' := by
          rintro rfl
          exact special (by decide)
        rw [if_neg special, if_neg special]
        exact tokens_append (by simpa [tokens] using notBackslash.symm) _

/-- A part of a regular expression that stands for a text: what is special there is escaped, and
nothing else is, and without the escaping backslashes it is the text. -/
structure StandsFor (part text : Text) : Prop where
  plain : ∀ c, .plain c ∈ tokens part → c ∉ metacharacters ∧ c ∉ specialCharacters
  escaped : ∀ c, .escaped c ∈ tokens part → c ∈ specialCharacters
  removed : (tokens part).map Token.character = text

theorem special_of_metacharacter : ∀ c ∈ metacharacters, c ∈ specialCharacters := by
  decide

theorem standsFor_escape (text : Text) : StandsFor (escape text) text where
  plain c member := by
    rw [tokens_escape] at member
    obtain ⟨d, _, same⟩ := List.mem_map.mp member
    have ordinary := not_special_of_literal same
    exact ⟨mt (special_of_metacharacter c) ordinary, ordinary⟩
  escaped c member := by
    rw [tokens_escape] at member
    obtain ⟨d, _, same⟩ := List.mem_map.mp member
    exact special_of_literal same
  removed := by rw [tokens_escape, map_character_literal]

theorem backslash_notMem_tokens_escape (text : Text) : .plain '\\' ∉ tokens (escape text) :=
  fun member => ((standsFor_escape text).plain _ member).2 (by decide)

theorem tokens_pattern (matcher : Matcher) :
    tokens matcher.pattern =
      tokens "^[ \\t]*(" ++ (tokens (escape matcher.marker) ++ (tokens "[ \\t]+" ++
        (tokens (escape matcher.tag) ++ tokens ":(.+))$"))) := by
  rw [pattern, List.append_assoc, List.append_assoc, List.append_assoc,
    tokens_append (by decide), tokens_append (backslash_notMem_tokens_escape _),
    tokens_append (by decide), tokens_append (backslash_notMem_tokens_escape _)]

theorem ne_bracket_of_mem_tokens_escape {text : Text} {token : Token}
    (member : token ∈ tokens (escape text)) : token ≠ .plain '[' := by
  rintro rfl
  exact ((standsFor_escape text).plain _ member).1 (by decide)

theorem parts_eq_of_pattern_eq {matcher other : Matcher}
    (same : matcher.pattern = other.pattern) :
    tokens (escape matcher.marker) = tokens (escape other.marker) ∧
      tokens (escape matcher.tag) = tokens (escape other.tag) := by
  have read := congrArg tokens same
  rw [tokens_pattern, tokens_pattern] at read
  obtain ⟨sameMarker, sameRest⟩ :=
    @append_inj_of_takeWhile _ (· ≠ Token.plain '[') _ _ _ _ (List.append_cancel_left read)
      (fun _ member => decide_eq_true (ne_bracket_of_mem_tokens_escape member))
      (fun _ member => decide_eq_true (ne_bracket_of_mem_tokens_escape member)) rfl rfl
  exact ⟨sameMarker, List.append_cancel_right (List.append_cancel_left sameRest)⟩

/-- The expression of a matcher has a part for the marker and one for the tag, which are read by
themselves and stand for them. No other matcher has the same expression. -/
theorem pattern_reads_back (matcher : Matcher) :
    (∃ markerPart tagPart : Text,
      matcher.pattern = "^[ \\t]*(" ++ markerPart ++ "[ \\t]+" ++ tagPart ++ ":(.+))$" ∧
      tokens matcher.pattern =
        tokens "^[ \\t]*(" ++ (tokens markerPart ++ (tokens "[ \\t]+" ++
          (tokens tagPart ++ tokens ":(.+))$"))) ∧
      StandsFor markerPart matcher.marker ∧ StandsFor tagPart matcher.tag) ∧
    (tokens matcher.pattern).flatMap Token.text = matcher.pattern ∧
    ∀ other : Matcher, matcher.pattern = other.pattern →
      matcher.tag = other.tag ∧ matcher.marker = other.marker := by
  refine ⟨⟨escape matcher.marker, escape matcher.tag, rfl, tokens_pattern matcher,
    standsFor_escape _, standsFor_escape _⟩, flatMap_text_tokens _, ?_⟩
  intro other same
  obtain ⟨sameMarker, sameTag⟩ := parts_eq_of_pattern_eq same
  constructor
  · rw [← (standsFor_escape matcher.tag).removed, sameTag, (standsFor_escape other.tag).removed]
  · rw [← (standsFor_escape matcher.marker).removed, sameMarker,
      (standsFor_escape other.marker).removed]

end Inlay.Matcher
