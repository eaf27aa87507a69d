import Inlay.Matcher.Occurrence
import Inlay.Proofs.Matcher.Line

namespace Inlay

namespace Occurrence

/-- An occurrence is what the matcher reads at its start, which is the start of a line. -/
structure StandsIn (matcher : Matcher) (text : Text) (occurrence : Occurrence) : Prop where
  lineStart : occurrence.start = 0 ∨ text[occurrence.start - 1]? = some .newline
  read : matcher.line? (text.drop occurrence.start) = some occurrence.toDirectiveLine

variable {matcher : Matcher} {text : Text} {occurrence : Occurrence}

theorem StandsIn.fits (stands : occurrence.StandsIn matcher text) :
    occurrence.toDirectiveLine.Fits matcher :=
  (Matcher.line?_sound stands.read).1

theorem StandsIn.start_lt_stop (stands : occurrence.StandsIn matcher text) :
    occurrence.start < occurrence.stop := by
  have positive := stands.fits.text_length_pos
  simp only [Occurrence.stop]
  omega

theorem StandsIn.exists_rest (stands : occurrence.StandsIn matcher text) :
    ∃ rest : Text, rest.firstLine = [] ∧
      ∀ offset, text[occurrence.start + offset]? = (occurrence.text ++ rest)[offset]? := by
  obtain ⟨_, rest, same, ended⟩ := Matcher.line?_sound stands.read
  refine ⟨rest, ended, fun offset => ?_⟩
  rw [← same, List.getElem?_drop]

theorem StandsIn.stop_le_length (stands : occurrence.StandsIn matcher text) :
    occurrence.stop ≤ text.length := by
  have bound := Matcher.length_text_le_of_line? stands.read
  have positive := stands.fits.text_length_pos
  rw [List.length_drop] at bound
  simp only [Occurrence.stop]
  omega

theorem StandsIn.ne_newline_before_stop (stands : occurrence.StandsIn matcher text) :
    text[occurrence.stop - 1]? ≠ some .newline := by
  obtain ⟨rest, _, characters⟩ := stands.exists_rest
  have positive := stands.fits.text_length_pos
  have place : occurrence.stop - 1 = occurrence.start + (occurrence.text.length - 1) := by
    simp only [Occurrence.stop]
    omega
  rw [place, characters, List.getElem?_append_left (by omega), ← List.getLast?_eq_getElem?]
  exact stands.fits.getLast?_text_ne_newline

theorem StandsIn.newline_at_stop (stands : occurrence.StandsIn matcher text)
    (inside : occurrence.stop < text.length) : text[occurrence.stop]? = some .newline := by
  obtain ⟨rest, ended, characters⟩ := stands.exists_rest
  have atStop : text[occurrence.stop]? = rest.head? := by
    rw [Occurrence.stop, characters, List.getElem?_append_right (Nat.le_refl _), Nat.sub_self,
      List.head?_eq_getElem?]
  rcases Text.head?_of_firstLine_eq_nil ended with rfl | newline
  · rw [List.head?_nil, List.getElem?_eq_none_iff] at atStop
    omega
  · rw [atStop, newline]

def behind (lead : Text) (occurrence : Occurrence) : Occurrence :=
  { occurrence with start := occurrence.start + lead.length }

theorem stop_behind (lead : Text) (occurrence : Occurrence) :
    (occurrence.behind lead).stop = occurrence.stop + lead.length :=
  Nat.add_right_comm ..

theorem behind_behind (outer lead : Text) (occurrence : Occurrence) :
    (occurrence.behind lead).behind outer = occurrence.behind (outer ++ lead) := by
  simp only [behind, List.length_append, Nat.add_assoc, Nat.add_comm lead.length]

end Occurrence

namespace Matcher

variable {matcher : Matcher}

/-- How far a scan has come when `before` lies behind it. -/
structure ScannedTo (before : Text) (lineStart : Bool) (offset : Nat) : Prop where
  counted : offset = before.length
  atLineStart : lineStart = true ↔ before = [] ∨ before.getLast? = some .newline

theorem ScannedTo.beginning : ScannedTo [] true 0 :=
  ⟨rfl, by simp⟩

theorem ScannedTo.step {before : Text} {lineStart : Bool} {offset : Nat}
    (scanned : ScannedTo before lineStart offset) (c : CodePoint) :
    ScannedTo (before ++ [c]) (c = .newline) (offset + 1) where
  counted := by simp [scanned.counted]
  atLineStart := by simp

theorem ScannedTo.newline_before {before : Text} {offset : Nat}
    (scanned : ScannedTo before true offset) (rest : Text) :
    offset = 0 ∨ (before ++ rest)[offset - 1]? = some .newline := by
  obtain ⟨rfl, atLineStart⟩ := scanned
  rcases atLineStart.mp rfl with rfl | newline
  · exact .inl rfl
  · refine .inr ?_
    have nonempty : 0 < before.length := by
      cases before with
      | nil => simp at newline
      | cons => simp
    rw [List.getElem?_append_left (by omega), ← List.getLast?_eq_getElem?, newline]

theorem standsIn_of_mem_occurrencesFrom {before rest : Text} {lineStart : Bool}
    {skip offset : Nat} (scanned : ScannedTo before lineStart offset) {occurrence : Occurrence}
    (member : occurrence ∈ matcher.occurrencesFrom lineStart skip offset rest) :
    occurrence.StandsIn matcher (before ++ rest) ∧ offset + skip ≤ occurrence.start := by
  induction rest generalizing lineStart skip offset before with
  | nil => simp [occurrencesFrom] at member
  | cons c rest induction =>
      have further {skip : Nat}
          (member : occurrence ∈
            matcher.occurrencesFrom (c = .newline) skip (offset + 1) rest) :
          occurrence.StandsIn matcher (before ++ c :: rest) ∧
            offset + 1 + skip ≤ occurrence.start := by
        have found := induction (scanned.step c) member
        simpa only [List.append_assoc, List.singleton_append] using found
      simp only [occurrencesFrom] at member
      split at member
      · next line read =>
          split at read
          · next ready =>
              obtain ⟨rfl, rfl⟩ := ready
              rcases List.mem_cons.mp member with rfl | later
              · have here : (before ++ c :: rest).drop offset = c :: rest := by
                  rw [scanned.counted, List.drop_left]
                exact ⟨⟨scanned.newline_before _, by rw [here, read]⟩, Nat.le_refl _⟩
              · obtain ⟨stands, passed⟩ := further later
                exact ⟨stands, by omega⟩
          · contradiction
      · obtain ⟨stands, passed⟩ := further member
        exact ⟨stands, by omega⟩

theorem pairwise_occurrencesFrom {before rest : Text} {lineStart : Bool} {skip offset : Nat}
    (scanned : ScannedTo before lineStart offset) :
    (matcher.occurrencesFrom lineStart skip offset rest).Pairwise
      fun earlier later => earlier.stop < later.start := by
  induction rest generalizing lineStart skip offset before with
  | nil => exact .nil
  | cons c rest induction =>
      have standing {occurrence : Occurrence}
          (member : occurrence ∈
            matcher.occurrencesFrom lineStart skip offset (c :: rest)) :=
        (standsIn_of_mem_occurrencesFrom scanned member).1
      simp only [occurrencesFrom] at standing ⊢
      split
      · next line read =>
          rw [read] at standing
          refine .cons ?_ (induction (scanned.step c))
          intro later member
          have earlierStands := standing (List.mem_cons_self ..)
          have laterStands := standing (List.mem_cons_of_mem _ member)
          have positive := earlierStands.fits.text_length_pos
          have passed := (standsIn_of_mem_occurrencesFrom (scanned.step c) member).2
          simp only [Occurrence.stop] at positive ⊢
          -- The two could only touch at a newline that ends the earlier one.
          have apart : offset + line.text.length ≠ later.start := by
            intro touching
            rcases laterStands.lineStart with first | newline
            · omega
            · rw [← touching] at newline
              exact earlierStands.ne_newline_before_stop newline
          omega
      · exact induction (scanned.step c)

theorem standsIn_of_mem_occurrences {text : Text} {occurrence : Occurrence}
    (member : occurrence ∈ matcher.occurrences text) : occurrence.StandsIn matcher text :=
  (standsIn_of_mem_occurrencesFrom .beginning member).1

theorem pairwise_occurrences (matcher : Matcher) (text : Text) :
    (matcher.occurrences text).Pairwise fun earlier later => earlier.stop < later.start :=
  pairwise_occurrencesFrom .beginning

theorem occurrencesFrom_add (lineStart : Bool) (skip offset distance : Nat) (text : Text) :
    matcher.occurrencesFrom lineStart skip (offset + distance) text =
      (matcher.occurrencesFrom lineStart skip offset text).map fun occurrence =>
        { occurrence with start := occurrence.start + distance } := by
  induction text generalizing lineStart skip offset with
  | nil => rfl
  | cons c text induction =>
      simp only [occurrencesFrom, Nat.add_right_comm offset distance 1, induction]
      split <;> rfl

theorem occurrencesFrom_eq_map (offset : Nat) (text : Text) :
    matcher.occurrencesFrom true 0 offset text =
      (matcher.occurrences text).map fun occurrence =>
        { occurrence with start := occurrence.start + offset } := by
  have shifted := @occurrencesFrom_add matcher true 0 0 offset text
  rwa [Nat.zero_add] at shifted

/-- A newline is the end of whatever the scan skips, so the two sides of it are scanned apart. -/
theorem occurrencesFrom_append_newline (oneLine : matcher.OneLine) {lineStart : Bool}
    {skip offset : Nat} {text : Text} (within : skip ≤ text.length) (rest : Text) :
    matcher.occurrencesFrom lineStart skip offset (text ++ .newline :: rest) =
      matcher.occurrencesFrom lineStart skip offset text ++
        matcher.occurrencesFrom true 0 (offset + text.length + 1) rest := by
  induction text generalizing lineStart skip offset with
  | nil =>
      have none_skipped : skip = 0 := Nat.le_zero.mp within
      have unread := line?_append_newline oneLine [] rest
      rw [List.nil_append, line?_nil] at unread
      simp [occurrencesFrom, unread, none_skipped]
  | cons c text induction =>
      have unaffected := line?_append_newline oneLine (c :: text) rest
      simp only [List.cons_append] at unaffected
      simp only [List.length_cons] at within
      simp only [List.cons_append, occurrencesFrom, unaffected, List.length_cons]
      split
      · next line read =>
          have bound : line.text.length ≤ text.length + 1 := by
            split at read
            · exact length_text_le_of_line? read
            · contradiction
          rw [induction (by omega), List.cons_append]
          simp only [Nat.add_assoc, Nat.add_comm 1]
      · rw [induction (by omega)]
        simp only [Nat.add_assoc, Nat.add_comm 1]

theorem occurrences_append (oneLine : matcher.OneLine) {lead : Text}
    (ended : lead = [] ∨ lead.getLast? = some .newline) (text : Text) :
    matcher.occurrences (lead ++ text) =
      matcher.occurrences lead ++ (matcher.occurrences text).map (Occurrence.behind lead) := by
  have scannedApart : matcher.occurrences (lead ++ text) =
      matcher.occurrences lead ++ matcher.occurrencesFrom true 0 lead.length text := by
    cases ended with
    | inl empty =>
        subst empty
        rfl
    | inr newline =>
        obtain ⟨front, rfl⟩ := List.getLast?_eq_some_iff.mp newline
        have split (rest : Text) := @occurrencesFrom_append_newline matcher oneLine true 0 0 front
          (Nat.zero_le _) rest
        rw [List.append_assoc, List.singleton_append, occurrences, occurrences, split, split []]
        simp [occurrencesFrom]
  rw [scannedApart, occurrencesFrom_eq_map]
  rfl

theorem occurrencesFrom_append_surrounded (oneLine : matcher.OneLine) {offset : Nat}
    {content : Text} (first : content.head? = some .newline)
    (last : content.getLast? = some .newline) (text rest : Text) :
    matcher.occurrencesFrom true 0 offset (text ++ content ++ rest) =
      matcher.occurrencesFrom true 0 offset text ++
        matcher.occurrencesFrom true 0 (offset + text.length) content ++
        matcher.occurrencesFrom true 0 (offset + text.length + content.length) rest := by
  obtain ⟨inner, rfl⟩ : ∃ inner, content = .newline :: inner := by
    cases content with
    | nil => simp at first
    | cons c inner => exact ⟨inner, by simpa using first⟩
  have split (offset : Nat) (left right : Text) :=
    @occurrencesFrom_append_newline matcher oneLine true 0 offset left (Nat.zero_le _) right
  have scanNewline (offset : Nat) (right : Text) :
      matcher.occurrencesFrom true 0 offset (.newline :: right) =
        matcher.occurrencesFrom true 0 (offset + 1) right :=
    split offset [] right
  rcases List.eq_nil_or_concat inner with rfl | ⟨middle, closing, rfl⟩
  · rw [List.append_assoc, List.singleton_append, split, scanNewline]
    simp [occurrencesFrom]
  · obtain rfl : closing = .newline := by
      simpa [List.getLast?_cons, List.getLast?_append] using last
    have shape : text ++ .newline :: (middle ++ [.newline]) ++ rest =
        text ++ .newline :: (middle ++ .newline :: rest) := by simp
    rw [List.concat_eq_append, shape, split, split, scanNewline, split]
    simp [occurrencesFrom, Nat.add_assoc, Nat.add_comm 1]

theorem occurrencesFrom_inside {text : Text} (oneLine : .newline ∉ text) (skip offset : Nat) :
    matcher.occurrencesFrom false skip offset text = [] := by
  induction text generalizing skip offset with
  | nil => rfl
  | cons c text induction =>
      simp only [List.mem_cons, not_or] at oneLine
      obtain ⟨different, later⟩ := oneLine
      simp only [occurrencesFrom, Bool.false_eq_true, false_and, if_false, Ne.symm different,
        decide_false]
      exact induction later _ _

theorem occurrencesFrom_line {line : Text} (oneLine : .newline ∉ line) (offset : Nat) :
    matcher.occurrencesFrom true 0 offset line =
      (matcher.line? line).toList.map fun found => { found with start := offset } := by
  cases line with
  | nil => simp [occurrencesFrom]
  | cons c rest =>
      simp only [List.mem_cons, not_or] at oneLine
      obtain ⟨different, later⟩ := oneLine
      simp only [occurrencesFrom, and_self, if_true, Ne.symm different, decide_false,
        occurrencesFrom_inside later]
      cases matcher.line? (c :: rest) with
      | none => rfl
      | some found => rfl

theorem occurrences_line (oneLine : matcher.OneLine) {line : Text} (unbroken : .newline ∉ line)
    (rest : Text) :
    matcher.occurrences (line ++ .newline :: rest) =
      ((matcher.line? line).toList.map fun found => { found with start := 0 }) ++
        (matcher.occurrences rest).map (Occurrence.behind (line ++ [.newline])) := by
  have closed : matcher.occurrences (line ++ [.newline]) = matcher.occurrences line := by
    rw [occurrences, occurrencesFrom_append_newline oneLine (Nat.zero_le _)]
    exact List.append_nil _
  have first := @occurrencesFrom_line matcher line unbroken 0
  rw [← occurrences] at first
  rw [List.append_cons, occurrences_append oneLine (.inr List.getLast?_concat), closed, first]

end Matcher

end Inlay
