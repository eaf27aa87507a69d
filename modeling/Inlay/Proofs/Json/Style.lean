import Inlay.Double.Shortest
import Inlay.Json.Quoted
import Inlay.Proofs.Text.Numeral
import Inlay.Proofs.Basic
import Inlay.Value.Basic

namespace Inlay

/-- Values whose numbers are integers within the limit, and whose objects have distinct keys. -/
inductive Value.Writable : Value → Prop
  | null : Writable .null
  | bool (truth : Bool) : Writable (.bool truth)
  | int {number : Int} : number.natAbs < 10 ^ Text.digitLimit → Writable (.int number)
  | str (text : Text) : Writable (.str text)
  | arr {items : List Value} : (∀ item ∈ items, Writable item) → Writable (.arr items)
  | obj {fields : Fields} :
      fields.keys.Nodup → (∀ field ∈ fields, Writable field.2) → Writable (.obj fields)

namespace Json

/-- What is left open about the text of a value: the blanks after commas and colons, and whether a
control character that has a letter of its own is escaped by it or by number. -/
structure Style where
  afterComma : Text
  afterColon : Text
  letters : Bool
  afterComma_blank : ∀ c ∈ afterComma, c.isBlank = true
  afterColon_blank : ∀ c ∈ afterColon, c.isBlank = true

namespace Style

def letter? (c : CodePoint) : Option CodePoint :=
  if c = '\x08' then some 'b'
  else if c = '\x0c' then some 'f'
  else if c = '\n' then some 'n'
  else if c = '\r' then some 'r'
  else if c = '\t' then some 't'
  else none

def escape (style : Style) (c : CodePoint) : Text :=
  match if style.letters then letter? c else none with
  | some letter => ['\\', letter]
  | none => "\\u" ++ Text.hexadecimal 4 c.val

def character (style : Style) (c : CodePoint) : Text :=
  if c = '"' ∨ c = '\\' then ['\\', c]
  else if c.val < 0x20 then style.escape c
  else [c]

def literal (style : Style) (text : Text) : Text :=
  "\"" ++ text.flatMap style.character ++ "\""

def separator (style : Style) : Text :=
  "," ++ style.afterComma

mutual

def value (style : Style) : Value → Text
  | .null => "null"
  | .bool truth => if truth then "true" else "false"
  | .int number => Text.ofInt number
  | .real number => number.text
  | .str text => style.literal text
  | .arr items => "[" ++ Text.join style.separator (style.values items) ++ "]"
  | .obj fields => "\x7b" ++ Text.join style.separator (style.members fields) ++ "\x7d"
termination_by structural value => value

def values (style : Style) : List Value → List Text
  | [] => []
  | item :: items => style.value item :: style.values items
termination_by structural items => items

def members (style : Style) : List (Text × Value) → List Text
  | [] => []
  | (key, item) :: fields =>
      (style.literal key ++ ":" ++ style.afterColon ++ style.value item) :: style.members fields
termination_by structural fields => fields

end

end Style

inductive Written : CodePoint → Text → Prop
  | special {c : CodePoint} : c = '"' ∨ c = '\\' → Written c ['\\', c]
  | letter {c letter : CodePoint} : Style.letter? c = some letter → Written c ['\\', letter]
  | number {c : CodePoint} : c.val < 0x20 → Written c ("\\u" ++ Text.hexadecimal 4 c.val)
  | plain {c : CodePoint} : c ≠ '"' → c ≠ '\\' → 0x20 ≤ c.val → Written c [c]

theorem Style.written_escape (style : Style) {c : CodePoint} (control : c.val < 0x20) :
    Written c (style.escape c) := by
  unfold escape
  split
  · next letter chosen =>
      split at chosen
      · exact .letter chosen
      · contradiction
  · exact .number control

theorem Style.written_character (style : Style) (c : CodePoint) :
    Written c (style.character c) := by
  unfold character
  split
  · next special => exact .special special
  · next ordinary =>
      obtain ⟨notQuote, notBackslash⟩ := not_or.mp ordinary
      split
      · next control => exact style.written_escape control
      · next visible => exact .plain notQuote notBackslash (Nat.le_of_not_lt visible)

theorem hexValue?_hexDigit (n : Nat) :
    (CodePoint.hexDigit n).hexValue? = some ⟨n % 16, by omega⟩ := by
  unfold CodePoint.hexDigit CodePoint.hexValue?
  by_cases decimal : n % 16 < 10
  · have range : 0x30 ≤ 0x30 + n % 16 ∧ 0x30 + n % 16 ≤ 0x39 := by omega
    simp [decimal, range]
  · have range : 0x61 ≤ 0x57 + n % 16 ∧ 0x57 + n % 16 ≤ 0x66 := by omega
    have outside : ¬(0x30 ≤ 0x57 + n % 16 ∧ 0x57 + n % 16 ≤ 0x39) := by omega
    simp [decimal, range, outside]

theorem simpleEscape?_letter {c letter : CodePoint} (found : Style.letter? c = some letter) :
    letter ≠ 'u' ∧ simpleEscape? letter = some c := by
  unfold Style.letter? at found
  repeat' split at found
  all_goals cases found
  all_goals
    subst c
    exact ⟨by decide, rfl⟩

section OneLine

variable (style : Style)

theorem newline_notMem_join {separator : Text} {parts : List Text} (apart : .newline ∉ separator)
    (each : ∀ part ∈ parts, .newline ∉ part) : .newline ∉ Text.join separator parts := by
  fun_induction Text.join separator parts with
  | case1 => exact List.not_mem_nil
  | case2 part => exact each part (List.mem_cons_self ..)
  | case3 part parts _ induction =>
      have here := each part (List.mem_cons_self ..)
      have later := induction fun other member => each other (List.mem_cons_of_mem part member)
      simp only [List.mem_append, not_or]
      exact ⟨⟨here, apart⟩, later⟩

theorem newline_notMem_hexadecimal (width n : Nat) : .newline ∉ Text.hexadecimal width n := by
  induction width generalizing n with
  | zero => exact List.not_mem_nil
  | succ width induction =>
      have notDigit : .newline ≠ CodePoint.hexDigit n := by
        intro same
        have value := hexValue?_hexDigit n
        rw [← same] at value
        contradiction
      simp [Text.hexadecimal, induction, notDigit]

theorem newline_notMem_ofInt (number : Int) : .newline ∉ Text.ofInt number := by
  have spelled (n : Nat) : .newline ∉ Text.ofNat n := by
    intro member
    have digit := Text.isDigit_of_mem_ofNat .newline member
    contradiction
  cases number with
  | ofNat n => exact spelled n
  | negSucc n =>
      rw [Text.ofInt, List.mem_cons, not_or]
      exact ⟨by decide, spelled (n + 1)⟩

theorem Written.newline_notMem {c : CodePoint} {text : Text} (written : Written c text) :
    .newline ∉ text := by
  cases written with
  | special special =>
      cases special with
      | inl quote =>
          rw [quote]
          decide
      | inr backslash =>
          rw [backslash]
          decide
  | @letter letter found =>
      have notLetter : .newline ≠ letter := by
        intro same
        subst same
        have simple := (simpleEscape?_letter found).2
        contradiction
      rw [List.mem_cons, List.mem_singleton, not_or]
      exact ⟨by decide, notLetter⟩
  | number =>
      rw [List.mem_append, not_or]
      exact ⟨by decide, newline_notMem_hexadecimal 4 c.val⟩
  | plain _ _ visible =>
      rw [List.mem_singleton]
      intro same
      subst same
      contradiction

theorem newline_notMem_literal (text : Text) : .newline ∉ style.literal text := by
  have inside : .newline ∉ text.flatMap style.character := by
    intro member
    obtain ⟨c, _, here⟩ := List.mem_flatMap.mp member
    exact (style.written_character c).newline_notMem here
  simp only [Style.literal, List.mem_append, not_or]
  exact ⟨⟨by decide, inside⟩, by decide⟩

theorem newline_notMem_separator : .newline ∉ style.separator := by
  rw [Style.separator, List.mem_append, not_or]
  exact ⟨by decide, Text.newline_notMem_of_isBlank style.afterComma_blank⟩

theorem newline_notMem_values {items : List Value}
    (each : ∀ item ∈ items, .newline ∉ style.value item) :
    ∀ part ∈ style.values items, .newline ∉ part := by
  induction items with
  | nil => exact nofun
  | cons item items induction =>
      have here := each item (List.mem_cons_self ..)
      have later := induction fun other member => each other (List.mem_cons_of_mem item member)
      exact List.forall_mem_cons.mpr ⟨here, later⟩

theorem newline_notMem_members {fields : List (Text × Value)}
    (each : ∀ field ∈ fields, .newline ∉ style.value field.2) :
    ∀ part ∈ style.members fields, .newline ∉ part := by
  induction fields with
  | nil => exact nofun
  | cons field fields induction =>
      obtain ⟨key, item⟩ := field
      have here : .newline ∉ style.literal key ++ ":" ++ style.afterColon ++ style.value item := by
        simp only [List.mem_append, not_or]
        exact ⟨⟨⟨newline_notMem_literal style key, by decide⟩,
          Text.newline_notMem_of_isBlank style.afterColon_blank⟩, each _ (List.mem_cons_self ..)⟩
      have later := induction fun other member =>
        each other (List.mem_cons_of_mem (key, item) member)
      exact List.forall_mem_cons.mpr ⟨here, later⟩

theorem newline_notMem_list {items : List Value}
    (each : ∀ item ∈ items, .newline ∉ style.value item) :
    .newline ∉ Text.join style.separator (style.values items) :=
  newline_notMem_join (newline_notMem_separator style) (newline_notMem_values style each)

theorem newline_notMem_value {item : Value} (writable : item.Writable) :
    .newline ∉ style.value item := by
  induction writable with
  | null =>
      rw [Style.value]
      decide
  | bool truth =>
      rw [Style.value]
      cases truth <;> decide
  | int => exact newline_notMem_ofInt _
  | str text => exact newline_notMem_literal style text
  | arr _ induction =>
      simp only [Style.value, List.mem_append, not_or]
      exact ⟨⟨by decide, newline_notMem_list style induction⟩, by decide⟩
  | obj _ _ induction =>
      have inside := newline_notMem_join (newline_notMem_separator style)
        (newline_notMem_members style induction)
      simp only [Style.value, List.mem_append, not_or]
      exact ⟨⟨by decide, inside⟩, by decide⟩

end OneLine

end Json

end Inlay
