import Mathlib.Logic.ExistsUnique
import Inlay.Proofs.Matcher.Occurrence
import Inlay.Proofs.Basic

/-!
The occurrences of a matcher are exactly the directive lines of a text. Whatever can be told apart
into the parts of a directive line is found, unless it begins inside of a line that was found
before; and the parts are told apart with as many leading blanks as possible.
-/

namespace Inlay

def Text.LineStart (text : Text) (start : Nat) : Prop :=
  start = 0 ∨ text[start - 1]? = some .newline

/-- A part of a text takes up whole lines and is told apart into the parts of a directive line. -/
structure Matcher.MatchAt (matcher : Matcher) (text : Text) (start stop : Nat)
    (line : DirectiveLine) : Prop where
  lineStart : text.LineStart start
  slice : text.slice start stop = line.text
  lineStop : stop = text.length ∨ text[stop]? = some .newline
  fits : line.Fits matcher

namespace Text

theorem firstLine_append {line : Text} (oneLine : .newline ∉ line) (rest : Text) :
    (line ++ rest).firstLine = line ++ rest.firstLine := by
  apply List.takeWhile_append_of_pos
  intro c member
  have different : c ≠ .newline := by
    rintro rfl
    exact oneLine member
  simpa using different

theorem firstLine_drop_eq_nil {text : Text} {stop : Nat}
    (lineStop : stop = text.length ∨ text[stop]? = some .newline) :
    (Text.firstLine (text.drop stop)) = [] := by
  rcases lineStop with rfl | newline
  · rw [List.drop_length]
    rfl
  · obtain ⟨inside, found⟩ := List.getElem?_eq_some_iff.mp newline
    rw [List.drop_eq_getElem_cons inside, found]
    rfl

end Text

namespace Matcher

variable {matcher : Matcher} {text : Text}

section Readers

variable {α : Type} {read? : Text → Option α} {blanks rest : Text} {found : α}

theorem afterBlanks?_complete (allBlank : ∀ c ∈ blanks, c.isBlank = true)
    (read : read? rest = some found) :
    ∃ more result, afterBlanks? read? (blanks ++ rest) = some (more, result) ∧
      blanks.length ≤ more.length := by
  induction blanks with
  | nil =>
      rw [List.nil_append]
      cases rest with
      | nil => exact ⟨[], found, by simp [afterBlanks?, read], Nat.le_refl 0⟩
      | cons c rest =>
          simp only [afterBlanks?, read, Option.map_some]
          split
          · next more result further => exact ⟨c :: more, result, rfl, Nat.zero_le _⟩
          · exact ⟨[], found, rfl, Nat.le_refl 0⟩
  | cons c blanks induction =>
      obtain ⟨more, result, further, longer⟩ :=
        induction fun d member => allBlank d (List.mem_cons_of_mem c member)
      refine ⟨c :: more, result, ?_, Nat.succ_le_succ longer⟩
      simp only [List.cons_append, afterBlanks?, allBlank c (List.mem_cons_self ..), if_true,
        further]

theorem afterGap?_complete (nonempty : blanks ≠ []) (allBlank : ∀ c ∈ blanks, c.isBlank = true)
    (read : read? rest = some found) :
    ∃ more result, afterGap? read? (blanks ++ rest) = some (more, result) := by
  cases blanks with
  | nil => contradiction
  | cons c blanks =>
      obtain ⟨more, result, further, _⟩ := @afterBlanks?_complete _ read? blanks rest found
        (fun d member => allBlank d (List.mem_cons_of_mem c member)) read
      refine ⟨c :: more, result, ?_⟩
      simp only [List.cons_append, afterGap?, allBlank c (List.mem_cons_self ..), if_true, further,
        Option.map_some]

end Readers

theorem body?_complete {body rest : Text} (nonempty : body ≠ []) (oneLine : .newline ∉ body)
    (ended : rest.firstLine = []) :
    matcher.body? (matcher.tag ++ ":" ++ (body ++ rest)) = some body := by
  have first : (body ++ rest).firstLine = body := by
    rw [Text.firstLine_append oneLine, ended, List.append_nil]
  simp only [body?, Text.after?_eq_some_iff.mpr rfl, first, nonempty, if_false]

theorem comment?_complete {line : DirectiveLine} (fits : line.Fits matcher) {rest : Text}
    (ended : rest.firstLine = []) :
    ∃ comment body, matcher.comment? (line.comment ++ rest) = some (comment, body) := by
  obtain ⟨gap, nonempty, allBlank, parts⟩ := fits.comment_parts
  obtain ⟨more, body, read⟩ := afterGap?_complete nonempty allBlank
    (@body?_complete matcher _ _ fits.body_nonempty fits.body_oneLine ended)
  have marked : Text.after? matcher.marker (line.comment ++ rest) =
      some (gap ++ (matcher.tag ++ ":" ++ (line.body ++ rest))) := by
    rw [Text.after?_eq_some_iff, parts]
    simp only [List.append_assoc]
  exact ⟨_, body, by simp only [comment?, marked, read, Option.map_some]; rfl⟩

theorem line?_complete {line : DirectiveLine} (fits : line.Fits matcher) {rest : Text}
    (ended : rest.firstLine = []) :
    ∃ found, matcher.line? (line.text ++ rest) = some found ∧
      line.padding.length ≤ found.padding.length := by
  obtain ⟨_, _, commentRead⟩ := comment?_complete fits ended
  obtain ⟨padding, ⟨comment, body⟩, read, longer⟩ :=
    afterBlanks?_complete fits.padding_blank commentRead
  refine ⟨⟨padding, comment, body⟩, ?_, longer⟩
  simp only [line?, DirectiveLine.text, List.append_assoc, read, Option.map_some]

namespace MatchAt

variable {start stop : Nat} {line : DirectiveLine}

theorem of_drop {rest : Text} (starts : text.LineStart start)
    (shape : text.drop start = line.text ++ rest) (ended : rest.firstLine = [])
    (fits : line.Fits matcher) :
    matcher.MatchAt text start (start + line.text.length) line where
  lineStart := starts
  slice := by
    have length : ((start + line.text.length : Nat) : Int).toNat - (start : Int).toNat =
        line.text.length := by omega
    rw [Text.slice, length, Int.toNat_natCast, shape, List.take_left]
  lineStop := by
    have atStop : text[start + line.text.length]? = rest.head? := by
      rw [← List.getElem?_drop, shape, List.getElem?_append_right (Nat.le_refl _), Nat.sub_self,
        List.head?_eq_getElem?]
    rcases Text.head?_of_firstLine_eq_nil ended with rfl | newline
    · have counted := congrArg List.length shape
      have positive := fits.text_length_pos
      simp only [List.append_nil, List.length_drop] at counted
      exact .inl (by omega)
    · exact .inr (atStop.trans newline)
  fits := fits

theorem start_lt_stop (found : matcher.MatchAt text start stop line) : start < stop := by
  apply Nat.lt_of_not_le
  intro reversed
  have positive := found.fits.text_length_pos
  have empty : (stop : Int).toNat - (start : Int).toNat = 0 := by omega
  rw [← found.slice, Text.slice, empty, List.take_zero] at positive
  contradiction

theorem drop_eq (found : matcher.MatchAt text start stop line) :
    text.drop start = line.text ++ text.drop stop := by
  rw [← found.slice]
  exact (Text.slice_append_drop (Int.ofNat_le.mpr (Nat.le_of_lt found.start_lt_stop))).symm

theorem exists_line? (found : matcher.MatchAt text start stop line) :
    ∃ first, matcher.line? (text.drop start) = some first ∧
      line.padding.length ≤ first.padding.length := by
  rw [found.drop_eq]
  exact line?_complete found.fits (Text.firstLine_drop_eq_nil found.lineStop)

end MatchAt

theorem ScannedTo.lineStart_eq_true {before rest : Text} {lineStart : Bool} {offset : Nat}
    (scanned : ScannedTo before lineStart offset) (starts : (before ++ rest).LineStart offset) :
    lineStart = true := by
  apply scanned.atLineStart.mpr
  rw [scanned.counted] at starts
  rcases starts with empty | newline
  · exact .inl (List.length_eq_zero_iff.mp empty)
  · cases before with
    | nil => exact .inl rfl
    | cons c before =>
        rw [List.getElem?_append_left (by simp), ← List.getLast?_eq_getElem?] at newline
        exact .inr newline

/-- A scan misses nothing that it could read at the start of a line, unless an occurrence has begun
before and still goes on there. -/
theorem covered_of_line? {before rest : Text} {lineStart : Bool} {skip offset start : Nat}
    (scanned : ScannedTo before lineStart offset) (passed : offset + skip ≤ start)
    (starts : (before ++ rest).LineStart start) {line : DirectiveLine}
    (read : matcher.line? ((before ++ rest).drop start) = some line) :
    ∃ occurrence ∈ matcher.occurrencesFrom lineStart skip offset rest,
      occurrence.start = start ∨ occurrence.start < start ∧ start < occurrence.stop := by
  induction rest generalizing before lineStart skip offset with
  | nil =>
      have ended : (before ++ []).drop start = [] := by
        rw [List.append_nil, List.drop_eq_nil_iff, ← scanned.counted]
        omega
      rw [ended, line?_nil] at read
      contradiction
  | cons c rest induction =>
      have shape : before ++ c :: rest = before ++ [c] ++ rest := by simp
      have further {skip : Nat} (passed : offset + 1 + skip ≤ start) :=
        @induction (before ++ [c]) _ skip _ (scanned.step c) passed (shape ▸ starts) (shape ▸ read)
      simp only [occurrencesFrom]
      by_cases here : start = offset
      · subst here
        have ready : lineStart = true ∧ skip = 0 :=
          ⟨scanned.lineStart_eq_true starts, by omega⟩
        rw [scanned.counted, List.drop_left] at read
        rw [if_pos ready, read]
        exact ⟨_, List.mem_cons_self .., .inl rfl⟩
      · split
        · next found _ =>
            by_cases inside : start < offset + found.text.length
            · refine ⟨_, List.mem_cons_self .., .inr ⟨?_, inside⟩⟩
              change offset < start
              omega
            · obtain ⟨occurrence, member, covers⟩ := @further (found.text.length - 1) (by omega)
              exact ⟨occurrence, List.mem_cons_of_mem _ member, covers⟩
        · exact further (by omega)

theorem MatchAt.covered {start stop : Nat} {line : DirectiveLine}
    (found : matcher.MatchAt text start stop line) :
    ∃ occurrence ∈ matcher.occurrences text,
      occurrence.start = start ∨ occurrence.start < start ∧ start < occurrence.stop := by
  obtain ⟨first, read, _⟩ := found.exists_line?
  exact covered_of_line? .beginning (Nat.zero_le _) found.lineStart read

end Matcher

namespace Occurrence

variable {matcher : Matcher} {text : Text} {occurrence : Occurrence}

theorem StandsIn.matchAt (stands : occurrence.StandsIn matcher text) :
    matcher.MatchAt text occurrence.start occurrence.stop occurrence.toDirectiveLine := by
  obtain ⟨fits, rest, shape, ended⟩ := Matcher.line?_sound stands.read
  exact .of_drop stands.lineStart shape ended fits

theorem StandsIn.length_padding_le (stands : occurrence.StandsIn matcher text) {stop : Nat}
    {line : DirectiveLine} (found : matcher.MatchAt text occurrence.start stop line) :
    line.padding.length ≤ occurrence.padding.length := by
  obtain ⟨first, read, longest⟩ := found.exists_line?
  rw [stands.read] at read
  cases read
  exact longest

theorem StandsIn.eq_of_start_eq {other : Occurrence} (stands : occurrence.StandsIn matcher text)
    (otherStands : other.StandsIn matcher text) (same : other.start = occurrence.start) :
    other = occurrence := by
  have read := otherStands.read
  rw [same, stands.read] at read
  cases occurrence
  cases other
  simp_all

end Occurrence

/-- A line can be told apart into the parts of a directive line. -/
def Matcher.HasForm (matcher : Matcher) (line : Text) : Prop :=
  ∃ parts : DirectiveLine, parts.Fits matcher ∧ parts.text = line

theorem DirectiveLine.Fits.newline_notMem_text {matcher : Matcher} {line : DirectiveLine}
    (fits : line.Fits matcher) (oneLine : matcher.OneLine) : .newline ∉ line.text := by
  have paddingOneLine := Text.newline_notMem_of_isBlank fits.padding_blank
  obtain ⟨gap, _, gapBlank, parts⟩ := fits.comment_parts
  have gapOneLine := Text.newline_notMem_of_isBlank gapBlank
  rw [DirectiveLine.text, parts]
  simp only [List.mem_append, not_or]
  exact ⟨paddingOneLine, ⟨⟨⟨oneLine.marker, gapOneLine⟩, oneLine.tag⟩, by decide⟩,
    fits.body_oneLine⟩

section

variable {matcher : Matcher} {text : Text} {occurrence : Occurrence}

theorem Occurrence.StandsIn.firstLine_eq (stands : occurrence.StandsIn matcher text)
    (oneLine : matcher.OneLine) :
    Text.firstLine (text.drop occurrence.start) = occurrence.text := by
  rw [stands.matchAt.drop_eq, Text.firstLine_append (stands.fits.newline_notMem_text oneLine),
    Text.firstLine_drop_eq_nil stands.matchAt.lineStop, List.append_nil]

theorem Occurrence.StandsIn.not_lineStart (stands : occurrence.StandsIn matcher text)
    (oneLine : matcher.OneLine) {start : Nat} (after : occurrence.start < start)
    (before : start < occurrence.stop) : ¬text.LineStart start := by
  rintro (atBeginning | newline)
  · omega
  · obtain ⟨rest, _, characters⟩ := stands.exists_rest
    have place : start - 1 = occurrence.start + (start - 1 - occurrence.start) := by omega
    have inside : start - 1 - occurrence.start < occurrence.text.length := by
      simp only [Occurrence.stop] at before
      omega
    rw [place, characters, List.getElem?_append_left inside] at newline
    exact stands.fits.newline_notMem_text oneLine (List.mem_of_getElem? newline)

theorem Matcher.HasForm.exists_matchAt {start : Nat} (starts : text.LineStart start)
    (hasForm : matcher.HasForm (Text.firstLine (text.drop start))) :
    ∃ stop line, matcher.MatchAt text start stop line := by
  obtain ⟨line, fits, same⟩ := hasForm
  have shape := Text.firstLine_append_rest (text.drop start)
  rw [← same] at shape
  exact ⟨_, line, .of_drop starts shape (Text.firstLine_dropWhile _) fits⟩

theorem Matcher.existsUnique_occurrence (oneLine : matcher.OneLine) {start : Nat}
    (starts : text.LineStart start)
    (hasForm : matcher.HasForm (Text.firstLine (text.drop start))) :
    ∃! occurrence, occurrence ∈ matcher.occurrences text ∧ occurrence.start = start := by
  obtain ⟨stop, line, found⟩ := hasForm.exists_matchAt starts
  obtain ⟨occurrence, member, covers⟩ := found.covered
  have stands := Matcher.standsIn_of_mem_occurrences member
  have here : occurrence.start = start := by
    rcases covers with here | ⟨after, before⟩
    · exact here
    · exact absurd starts (stands.not_lineStart oneLine after before)
  refine ⟨occurrence, ⟨member, here⟩, ?_⟩
  rintro other ⟨otherMember, otherHere⟩
  exact stands.eq_of_start_eq (Matcher.standsIn_of_mem_occurrences otherMember)
    (otherHere.trans here.symm)

end

/-- The occurrences are matches with the longest leading blanks, they stand in order, and every match
starts at one of them or inside of one. Those of a matcher without newlines are the lines of the text
that have the form of a directive line. -/
theorem Matcher.occurrences_are_matches (matcher : Matcher) (text : Text) :
    (∀ occurrence ∈ matcher.occurrences text,
      matcher.MatchAt text occurrence.start occurrence.stop occurrence.toDirectiveLine ∧
      ∀ line, matcher.MatchAt text occurrence.start occurrence.stop line →
        line.padding.length ≤ occurrence.padding.length) ∧
    ((matcher.occurrences text).Pairwise fun earlier later =>
      earlier.stop < later.start ∧ text[earlier.stop]? = some .newline) ∧
    (∀ start stop line, matcher.MatchAt text start stop line →
      ∃ occurrence ∈ matcher.occurrences text,
        occurrence.start = start ∨ occurrence.start < start ∧ start < occurrence.stop) ∧
    (matcher.OneLine →
      (∀ occurrence ∈ matcher.occurrences text, .newline ∉ occurrence.text ∧
        occurrence.text = Text.firstLine (text.drop occurrence.start)) ∧
      ∀ start, text.LineStart start →
        (matcher.HasForm (Text.firstLine (text.drop start)) →
          ∃! occurrence, occurrence ∈ matcher.occurrences text ∧ occurrence.start = start) ∧
        (¬matcher.HasForm (Text.firstLine (text.drop start)) →
          ∀ occurrence ∈ matcher.occurrences text, occurrence.start ≠ start)) := by
  have standing {occurrence : Occurrence} (member : occurrence ∈ matcher.occurrences text) :=
    standsIn_of_mem_occurrences member
  refine ⟨?_, ?_, fun start stop line found => found.covered, ?_⟩
  · intro occurrence member
    exact ⟨(standing member).matchAt, fun line found => (standing member).length_padding_le found⟩
  · apply (matcher.pairwise_occurrences text).imp_of_mem
    intro earlier later earlierMember laterMember apart
    have extended := (standing laterMember).start_lt_stop
    have inside := (standing laterMember).stop_le_length
    exact ⟨apart, (standing earlierMember).newline_at_stop (by omega)⟩
  · intro oneLine
    refine ⟨?_, ?_⟩
    · intro occurrence member
      exact ⟨(standing member).fits.newline_notMem_text oneLine,
        ((standing member).firstLine_eq oneLine).symm⟩
    · intro start starts
      refine ⟨existsUnique_occurrence oneLine starts, ?_⟩
      rintro formless occurrence member rfl
      rw [(standing member).firstLine_eq oneLine] at formless
      exact formless ⟨occurrence.toDirectiveLine, (standing member).fits, rfl⟩

example : (⟨" ", "x"⟩ : Matcher).occurrences "   x:b" = [⟨⟨" ", "  x:b", "b"⟩, 0⟩] := by decide

end Inlay
