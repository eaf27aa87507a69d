import Inlay.Proofs.Json.Scalar
import Inlay.Proofs.Json.Style
import Inlay.Proofs.Value.Fields

namespace Inlay.Json

theorem hexEscape?_hexadecimal {c : CodePoint} (small : c.val < 0x10000) (next : CodePoint)
    (rest : Text) :
    ∃ shorter, hexEscape? (Text.hexadecimal 4 c.val ++ next :: rest) =
      some ⟨c, next :: rest, shorter⟩ := by
  have digits : Text.hexadecimal 4 c.val =
      [.hexDigit (c.val / 16 / 16 / 16), .hexDigit (c.val / 16 / 16), .hexDigit (c.val / 16),
        .hexDigit c.val] := rfl
  rw [digits]
  refine ⟨by simp, ?_⟩
  simp only [List.cons_append, List.nil_append, hexEscape?, hexValue?_hexDigit]
  congr 2
  ext
  simp only
  omega

theorem unicodeEscape_hexadecimal {c : CodePoint} (control : c.val < 0x20) (next : CodePoint)
    (rest : Text) :
    Gives unicodeEscape (Text.hexadecimal 4 c.val ++ next :: rest) c (next :: rest) := by
  obtain ⟨shorter, read⟩ := @hexEscape?_hexadecimal c (by omega) next rest
  have alone : c.isHighSurrogate = false := by
    simp only [CodePoint.isHighSurrogate, Bool.and_eq_false_iff, decide_eq_false_iff_not]
    omega
  refine ⟨shorter, ?_⟩
  simp only [unicodeEscape, read, alone, Bool.false_eq_true, if_false]

theorem Written.read {c : CodePoint} {text : Text} (written : Written c text) (opening : Nat)
    (next : CodePoint) (rest : Text) :
    Gives (character opening) (text ++ next :: rest) c (next :: rest) := by
  cases written with
  | special special =>
      cases special with
      | inl quote =>
          subst quote
          exact .of_map rfl
      | inr backslash =>
          subst backslash
          exact .of_map rfl
  | letter found =>
      obtain ⟨notNumber, simple⟩ := simpleEscape?_letter found
      apply Gives.of_map
      simp only [List.cons_append, List.nil_append, character, if_true, if_neg notNumber, simple]
      rfl
  | number control =>
      obtain ⟨_, read⟩ := unicodeEscape_hexadecimal control next rest
      have spelled : Text.ofString "\\u" ++ Text.hexadecimal 4 c.val ++ next :: rest =
          .ofChar '\\' :: .ofChar 'u' :: (Text.hexadecimal 4 c.val ++ next :: rest) := rfl
      rw [spelled]
      apply Gives.of_map
      simp only [character, if_true, read]
      rfl
  | plain _ notBackslash visible =>
      apply Gives.of_map
      simp only [List.singleton_append, character, if_neg notBackslash,
        if_neg (Nat.not_lt.mpr visible)]
      rfl

theorem Written.head {c : CodePoint} {text : Text} (written : Written c text) :
    ∃ first more, text = first :: more ∧ first ≠ '"' := by
  cases written with
  | special => exact ⟨_, _, rfl, by decide⟩
  | letter => exact ⟨_, _, rfl, by decide⟩
  | number => exact ⟨.ofChar '\\', _, rfl, by decide⟩
  | plain notQuote => exact ⟨_, _, rfl, notQuote⟩

variable (style : Style)

theorem quoted_characters (text : Text) (opening : Nat) (rest : Text) :
    Gives (quoted opening) (text.flatMap style.character ++ .ofChar '"' :: rest) text rest := by
  induction text with
  | nil =>
      rw [List.flatMap_nil, List.nil_append]
      apply Gives.of_map
      rw [quoted, if_pos rfl]
      rfl
  | cons c text induction =>
      -- An escape by number is read only if something follows it, which the quote always does.
      obtain ⟨next, tail, shape⟩ : ∃ next tail,
          text.flatMap style.character ++ .ofChar '"' :: rest = next :: tail := by
        cases text.flatMap style.character with
        | nil => exact ⟨_, _, rfl⟩
        | cons => exact ⟨_, _, rfl⟩
      rw [List.flatMap_cons, List.append_assoc]
      rw [shape] at induction ⊢
      have readsFirst := (style.written_character c).read opening next tail
      obtain ⟨first, more, spelled, notQuote⟩ := (style.written_character c).head
      rw [spelled, List.cons_append] at readsFirst ⊢
      exact quoted_cons notQuote readsFirst induction

theorem isBlank_of_mem {blanks : Text} (blank : ∀ c ∈ blanks, c.isBlank = true) :
    ∀ c ∈ blanks, isBlank c = true := by
  intro c member
  have either := blank c member
  simp only [CodePoint.isBlank, Bool.or_eq_true, decide_eq_true_eq] at either
  cases either with
  | inl space => simp [isBlank, space]
  | inr tab => simp [isBlank, tab]

/-- A value is read from its text whenever a delimiter follows. -/
def ReadBack (item : Value) : Prop :=
  ∀ rest : Text, Delimited rest → Reads (.value item) (style.value item ++ rest) rest

theorem literal_append (text rest : Text) :
    style.literal text ++ rest =
      .ofChar '"' :: (text.flatMap style.character ++ .ofChar '"' :: rest) := by
  simp only [Style.literal, List.append_assoc]
  rfl

theorem join_append (part next : Text) (parts : List Text) (rest : Text) :
    Text.join style.separator (part :: next :: parts) ++ rest =
      part ++ .ofChar ',' ::
        (style.afterComma ++ (Text.join style.separator (next :: parts) ++ rest)) := by
  simp only [Text.join, Style.separator, List.append_assoc]
  rfl

theorem reads_elements {item : Value} {items : List Value}
    (readBack : ∀ other ∈ item :: items, ReadBack style other) (rest : Text) :
    Reads (.elements (item :: items))
      (Text.join style.separator (style.values (item :: items)) ++ .ofChar ']' :: rest) rest := by
  have readsFirst := readBack item (List.mem_cons_self ..)
  induction items generalizing item with
  | nil => exact .lastElement (readsFirst _ (.bracket rest)) rfl
  | cons next items induction =>
      have later (other : Value) (member : other ∈ next :: items) :=
        readBack other (List.mem_cons_of_mem item member)
      have readsMore := induction later (later next (List.mem_cons_self ..))
      simp only [Style.values] at readsMore ⊢
      rw [join_append]
      exact .element (readsFirst _ (.comma _)) rfl
        (readsMore.after_blanks (isBlank_of_mem style.afterComma_blank))

theorem member_append (key : Text) (item : Value) (rest : Text) :
    style.literal key ++ ":" ++ style.afterColon ++ style.value item ++ rest =
      .ofChar '"' :: (key.flatMap style.character ++ .ofChar '"' :: .ofChar ':' ::
        (style.afterColon ++ (style.value item ++ rest))) := by
  simp only [List.append_assoc]
  rw [literal_append]
  rfl

theorem Reads.of_last_name {opening : Nat} {key text afterColon rest : Text} {item : Value}
    (name : Gives (quoted opening) text key (.ofChar ':' :: afterColon))
    (reads : Reads (.value item) (skipBlanks afterColon) (.ofChar '}' :: rest)) :
    Reads (.members [(key, item)]) ('"' :: text) rest := by
  obtain ⟨_, read⟩ := name
  exact .lastMember read rfl reads rfl

theorem Reads.of_name {opening : Nat} {key text afterColon afterComma rest : Text} {item : Value}
    {fields : List (Text × Value)}
    (name : Gives (quoted opening) text key (.ofChar ':' :: afterColon))
    (reads : Reads (.value item) (skipBlanks afterColon) (.ofChar ',' :: afterComma))
    (readsMore : Reads (.members fields) (skipBlanks afterComma) rest) :
    Reads (.members ((key, item) :: fields)) ('"' :: text) rest := by
  obtain ⟨_, read⟩ := name
  exact .member read rfl reads rfl readsMore

theorem reads_members {field : Text × Value} {fields : List (Text × Value)}
    (readBack : ∀ other ∈ field :: fields, ReadBack style other.2) (rest : Text) :
    Reads (.members (field :: fields))
      (Text.join style.separator (style.members (field :: fields)) ++ .ofChar '}' :: rest)
      rest := by
  have readsFirst := readBack field (List.mem_cons_self ..)
  induction fields generalizing field with
  | nil =>
      obtain ⟨key, item⟩ := field
      simp only [Style.members, Text.join]
      rw [member_append]
      have readsItem := readsFirst _ (.brace rest)
      exact .of_last_name (quoted_characters style key 0 _)
        (readsItem.after_blanks (isBlank_of_mem style.afterColon_blank))
  | cons next fields induction =>
      obtain ⟨key, item⟩ := field
      have later (other : Text × Value) (member : other ∈ next :: fields) :=
        readBack other (List.mem_cons_of_mem (key, item) member)
      have readsMore := induction later (later next (List.mem_cons_self ..))
      simp only [Style.members] at readsMore ⊢
      rw [join_append, member_append]
      exact .of_name (quoted_characters style key 0 _)
        ((readsFirst _ (.comma _)).after_blanks (isBlank_of_mem style.afterColon_blank))
        (readsMore.after_blanks (isBlank_of_mem style.afterComma_blank))

theorem readBack_arr {items : List Value} (readBack : ∀ item ∈ items, ReadBack style item) :
    ReadBack style (.arr items) := by
  intro rest _
  have shape : style.value (.arr items) ++ rest =
      .ofChar '[' :: (Text.join style.separator (style.values items) ++ .ofChar ']' :: rest) := by
    simp only [Style.value, List.append_assoc]
    rfl
  rw [shape]
  cases items with
  | nil => exact .emptyArray rfl
  | cons item items =>
      have reads := reads_elements style readBack rest
      rw [← reads.skipBlanks_eq] at reads
      exact .array reads

theorem readBack_obj {fields : Fields} (distinct : fields.keys.Nodup)
    (readBack : ∀ field ∈ fields, ReadBack style field.2) : ReadBack style (.obj fields) := by
  intro rest _
  have shape : style.value (.obj fields) ++ rest =
      .ofChar '{' :: (Text.join style.separator (style.members fields) ++
        .ofChar '}' :: rest) := by
    simp only [Style.value, List.append_assoc]
    rfl
  rw [shape]
  cases fields with
  | nil => exact .emptyObject rfl
  | cons field fields =>
      have reads := reads_members style readBack rest
      rw [← reads.skipBlanks_eq] at reads
      have readsObject := Reads.object reads
      rwa [Fields.ofMembers_eq_self distinct] at readsObject

theorem readBack_of_writable {item : Value} (writable : item.Writable) : ReadBack style item := by
  induction writable with
  | null =>
      intro rest _
      exact .of_scalar (@scalar_of_mem_names "null" .null (by simp [names]) rest)
  | bool truth =>
      intro rest _
      apply Reads.of_scalar
      cases truth with
      | true => exact @scalar_of_mem_names "true" (.bool true) (by simp [names]) rest
      | false => exact @scalar_of_mem_names "false" (.bool false) (by simp [names]) rest
  | int bounded =>
      intro rest delimited
      exact .of_scalar (scalar_ofInt bounded delimited)
  | str text =>
      intro rest _
      obtain ⟨_, read⟩ := quoted_characters style text 0 rest
      rw [Style.value, literal_append]
      exact .string read
  | arr _ induction => exact readBack_arr style induction
  | obj distinct _ induction => exact readBack_obj style distinct induction

theorem parse_value {item : Value} (writable : item.Writable) :
    parse (style.value item) = .ok item := by
  have reads := readBack_of_writable style writable [] .ended
  rw [List.append_nil, ← reads.skipBlanks_eq] at reads
  exact parse_of_reads reads rfl

end Inlay.Json
