import Inlay.Json.Reader
import Inlay.Proofs.Basic

namespace Inlay

namespace Json

/-- What one of the readers gives: a value, or what lies between the brackets of an array or of an
object, with the closing bracket. -/
inductive Phrase where
  | value (value : Value)
  | elements (values : List Value)
  | members (members : List (Text × Value))

inductive Reads : Phrase → Text → Text → Prop
  | string {opening : Nat} {text : Text} {found : Scanned Text text} :
      quoted opening text = .ok found →
      Reads (.value (.str found.value)) ('"' :: text) found.rest
  | emptyObject {text rest : Text} :
      skipBlanks text = .ofChar '}' :: rest → Reads (.value (.obj [])) ('{' :: text) rest
  | object {members : List (Text × Value)} {text rest : Text} :
      Reads (.members members) (skipBlanks text) rest →
      Reads (.value (.obj (Fields.ofMembers members))) ('{' :: text) rest
  | emptyArray {text rest : Text} :
      skipBlanks text = .ofChar ']' :: rest → Reads (.value (.arr [])) ('[' :: text) rest
  | array {values : List Value} {text rest : Text} :
      Reads (.elements values) (skipBlanks text) rest →
      Reads (.value (.arr values)) ('[' :: text) rest
  | scalar {c : CodePoint} {text : Text} {found : Scanned Value (c :: text)} :
      c ≠ '"' → c ≠ '{' → c ≠ '[' → scalar (c :: text) = .ok found →
      Reads (.value found.value) (c :: text) found.rest
  | lastElement {value : Value} {text afterValue rest : Text} :
      Reads (.value value) text afterValue → skipBlanks afterValue = .ofChar ']' :: rest →
      Reads (.elements [value]) text rest
  | element {value : Value} {values : List Value} {text afterValue afterComma rest : Text} :
      Reads (.value value) text afterValue → skipBlanks afterValue = .ofChar ',' :: afterComma →
      Reads (.elements values) (skipBlanks afterComma) rest →
      Reads (.elements (value :: values)) text rest
  | lastMember {opening : Nat} {value : Value} {text afterColon afterValue rest : Text}
      {name : Scanned Text text} :
      quoted opening text = .ok name → skipBlanks name.rest = .ofChar ':' :: afterColon →
      Reads (.value value) (skipBlanks afterColon) afterValue →
      skipBlanks afterValue = .ofChar '}' :: rest →
      Reads (.members [(name.value, value)]) ('"' :: text) rest
  | member {opening : Nat} {value : Value} {members : List (Text × Value)}
      {text afterColon afterValue afterComma rest : Text} {name : Scanned Text text} :
      quoted opening text = .ok name → skipBlanks name.rest = .ofChar ':' :: afterColon →
      Reads (.value value) (skipBlanks afterColon) afterValue →
      skipBlanks afterValue = .ofChar ',' :: afterComma →
      Reads (.members members) (skipBlanks afterComma) rest →
      Reads (.members ((name.value, value) :: members)) ('"' :: text) rest

theorem mark?_sound {text : Text} {mark : Scanned CodePoint text} (found : mark? text = some mark) :
    skipBlanks text = mark.value :: mark.rest := by
  unfold mark? at found
  split at found
  · contradiction
  · next shape =>
      cases found
      exact shape

def Sound {α : Type} (phrase : α → Phrase) (read : (text : Text) → Except Fault (Scanned α text))
    (text : Text) : Prop :=
  ∀ found, read text = .ok found → Reads (phrase found.value) text found.rest

theorem sound_value {text : Text}
    (shorter : ∀ inner : Text, inner.length < text.length →
      Sound .elements elements inner ∧ Sound .members members inner) :
    Sound .value value text := by
  intro found read
  cases text with
  | nil =>
      simp only [value] at read
      contradiction
  | cons c rest =>
      obtain ⟨soundElements, soundMembers⟩ := shorter (skipBlanks rest)
        (Nat.lt_succ_of_le (length_skipBlanks_le rest))
      simp only [value] at read
      split at read
      · next quote =>
          subst quote
          split at read
          · contradiction
          · next string readString =>
              cases read
              exact .string readString
      · next notQuote =>
          split at read
          · next brace =>
              subst brace
              split at read
              case h_2 => contradiction
              rename_i mark marked
              split at read
              · next closes =>
                  cases read
                  exact .emptyObject (closes ▸ mark?_sound marked)
              · split at read
                · contradiction
                · next all readMembers =>
                    cases read
                    exact .object (soundMembers all readMembers)
          · next notBrace =>
              split at read
              · next bracket =>
                  subst bracket
                  split at read
                  case h_2 => contradiction
                  rename_i mark marked
                  split at read
                  · next closes =>
                      cases read
                      exact .emptyArray (closes ▸ mark?_sound marked)
                  · split at read
                    · contradiction
                    · next all readElements =>
                        cases read
                        exact .array (soundElements all readElements)
              · next notBracket => exact .scalar notQuote notBrace notBracket read

theorem sound_elements {text : Text} (soundValue : Sound .value value text)
    (shorter : ∀ inner : Text, inner.length < text.length → Sound .elements elements inner) :
    Sound .elements elements text := by
  intro found read
  rw [elements.eq_def] at read
  split at read
  · contradiction
  rename_i first readFirst
  have readsFirst := soundValue first readFirst
  split at read
  · contradiction
  rename_i mark marked
  have shape := mark?_sound marked
  split at read
  · next closes =>
      cases read
      exact .lastElement readsFirst (closes ▸ shape)
  split at read
  case isFalse => contradiction
  rename_i comma
  split at read
  · contradiction
  · next more readMore =>
      cases read
      have passed : (skipBlanks mark.rest).length < text.length :=
        Nat.lt_of_le_of_lt (length_skipBlanks_le mark.rest)
          (Nat.lt_trans mark.shorter first.shorter)
      exact .element readsFirst (comma ▸ shape) (shorter _ passed more readMore)

theorem sound_members {text : Text}
    (shorter : ∀ inner : Text, inner.length < text.length →
      Sound .value value inner ∧ Sound .members members inner) :
    Sound .members members text := by
  intro found read
  cases text with
  | nil =>
      simp only [members] at read
      contradiction
  | cons c rest =>
      simp only [members] at read
      split at read
      case isFalse => contradiction
      rename_i quote
      subst quote
      split at read
      · contradiction
      rename_i name readName
      split at read
      · contradiction
      rename_i colon colonMarked
      split at read
      case isFalse => contradiction
      rename_i isColon
      have colonShape := isColon ▸ mark?_sound colonMarked
      split at read
      · contradiction
      rename_i first readFirst
      have passedColon : (skipBlanks colon.rest).length < rest.length :=
        Nat.lt_of_le_of_lt (length_skipBlanks_le colon.rest)
          (Nat.lt_trans colon.shorter name.shorter)
      have readsFirst := (shorter _ (Nat.lt_succ_of_lt passedColon)).1 first readFirst
      split at read
      · contradiction
      rename_i mark marked
      have shape := mark?_sound marked
      split at read
      · next closes =>
          cases read
          exact .lastMember readName colonShape readsFirst (closes ▸ shape)
      split at read
      case isFalse => contradiction
      rename_i comma
      split at read
      · contradiction
      · next more readMore =>
          cases read
          have passed : (skipBlanks mark.rest).length < rest.length :=
            Nat.lt_of_le_of_lt (length_skipBlanks_le mark.rest)
              (Nat.lt_trans mark.shorter (Nat.lt_trans first.shorter passedColon))
          exact .member readName colonShape readsFirst (comma ▸ shape)
            ((shorter _ (Nat.lt_succ_of_lt passed)).2 more readMore)

theorem sound_readers (text : Text) :
    Sound .value value text ∧ Sound .elements elements text ∧ Sound .members members text := by
  induction counted : text.length using Nat.strongRecOn generalizing text with
  | ind length induction =>
      have shorter (inner : Text) (less : inner.length < text.length) :=
        induction inner.length (counted ▸ less) inner rfl
      have soundValue : Sound .value value text :=
        sound_value fun inner less => (shorter inner less).2
      exact ⟨soundValue,
        sound_elements soundValue fun inner less => (shorter inner less).2.1,
        sound_members fun inner less => ⟨(shorter inner less).1, (shorter inner less).2.2⟩⟩

theorem reads_of_parse {text : Text} {parsed : Value} (succeeded : parse text = .ok parsed) :
    ∃ rest, Reads (.value parsed) (skipBlanks text) rest ∧ skipBlanks rest = [] := by
  unfold parse at succeeded
  split at succeeded
  · contradiction
  · split at succeeded
    · contradiction
    · next only readOnly =>
        simp only at succeeded
        split at succeeded
        · next ended =>
            cases succeeded
            exact ⟨only.rest, (sound_readers _).1 only readOnly, ended⟩
        · contradiction

end Json

end Inlay
