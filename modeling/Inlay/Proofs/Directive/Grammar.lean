import Inlay.Directive.Command
import Inlay.Proofs.Directive.Argument

/-!
The grammar of directives. The body of a directive line is read exactly when, apart from trailing
white space, it is one of the bare names, or a name with JSON in parentheses and then anything at
all.
-/

namespace Inlay

namespace Json

open Parenthesis

theorem Reads.exists_arr {parsed : Value} {text rest : Text}
    (reads : Reads (.value parsed) ('[' :: text) rest) : ∃ values, parsed = .arr values := by
  cases reads with
  | emptyArray => exact ⟨[], rfl⟩
  | array => exact ⟨_, rfl⟩
  | scalar _ _ notBracket => exact absurd rfl notBracket

theorem exists_arr_of_parse {text : Text} {parsed : Value}
    (succeeded : parse ("[" ++ text ++ "]") = .ok parsed) : ∃ values, parsed = .arr values := by
  obtain ⟨rest, reads, _⟩ := reads_of_parse succeeded
  exact reads.exists_arr

theorem passes_of_parse_list {text : Text} {parsed : Value}
    (succeeded : parse ("[" ++ text ++ "]") = .ok parsed) : Passes .outside text .outside [] := by
  obtain ⟨last, passesOpened, passesClosing⟩ := (passes_of_parse succeeded).split
  obtain ⟨first, passesOpening, passesText⟩ := passesOpened.split
  obtain rfl : .outside = first := passesOpening.next_eq
  -- A closing bracket inside of a literal would leave the scan in there.
  have outside : last = .outside := by
    have closed := passesClosing.next_eq
    cases last with
    | outside => rfl
    | inside => contradiction
    | escaped => contradiction
  rw [outside] at passesText
  exact passesText

end Json

namespace Command

theorem readArgument_eq_ok_iff {text source : Text} {value : Value} :
    readArgument text source = .ok value ↔ Json.parse text = .ok value := by
  unfold readArgument
  cases Json.parse text with
  | error fault => simp
  | ok parsed => simp

theorem readObject_eq_ok_iff {kind : Kind} {text : Text} {fields : Fields} :
    readObject kind text = .ok fields ↔ Json.parse text = .ok (.obj fields) := by
  rw [← @readArgument_eq_ok_iff text text]
  unfold readObject
  cases readArgument text text with
  | error fault => simp
  | ok value => cases value <;> simp

theorem readList_eq_ok_iff {text : Text} {values : List Value} :
    readList text = .ok values ↔ Json.parse ("[" ++ text ++ "]") = .ok (.arr values) := by
  unfold readList
  simp only [readArgument]
  cases parsed : Json.parse ("[" ++ text ++ "]") with
  | error fault => simp
  | ok value =>
      obtain ⟨items, rfl⟩ := Json.exists_arr_of_parse parsed
      simp

inductive Argument : Kind → Text → Command → Prop
  | assign {text : Text} {fields : Fields} :
      Json.parse text = .ok (.obj fields) → Argument .assign text (.assign fields)
  | merge {text : Text} {fields : Fields} :
      Json.parse text = .ok (.obj fields) → Argument .merge text (.merge fields)
  | emit {text : Text} {values : List Value} :
      Json.parse ("[" ++ text ++ "]") = .ok (.arr values) → Argument .emit text (.emit values)

theorem ofArguments_eq_ok_iff {kind : Kind} {text : Text} {command : Command} :
    ofArguments kind text = .ok command ↔ Argument kind text command := by
  constructor
  · intro succeeded
    cases kind with
    | beginBlock => contradiction
    | endBlock => contradiction
    | assign =>
        obtain ⟨fields, read, rfl⟩ := map_eq_ok_iff.mp succeeded
        exact .assign (readObject_eq_ok_iff.mp read)
    | merge =>
        obtain ⟨fields, read, rfl⟩ := map_eq_ok_iff.mp succeeded
        exact .merge (readObject_eq_ok_iff.mp read)
    | emit =>
        obtain ⟨values, read, rfl⟩ := map_eq_ok_iff.mp succeeded
        exact .emit (readList_eq_ok_iff.mp read)
  · intro argument
    cases argument with
    | assign parsed => exact map_eq_ok_iff.mpr ⟨_, readObject_eq_ok_iff.mpr parsed, rfl⟩
    | merge parsed => exact map_eq_ok_iff.mpr ⟨_, readObject_eq_ok_iff.mpr parsed, rfl⟩
    | emit parsed => exact map_eq_ok_iff.mpr ⟨_, readList_eq_ok_iff.mpr parsed, rfl⟩

namespace Argument

variable {kind : Kind} {text : Text} {command : Command}

theorem takesArguments (argument : Argument kind text command) : kind.takesArguments = true := by
  cases argument <;> rfl

theorem passes (argument : Argument kind text command) :
    Parenthesis.Passes .outside text .outside [] := by
  cases argument with
  | assign parsed => exact Json.passes_of_parse parsed
  | merge parsed => exact Json.passes_of_parse parsed
  | emit parsed => exact Json.passes_of_parse_list parsed

end Argument

theorem closing?_call (rest : Text) :
    Parenthesis.closing? .outside 0 (.ofChar '(' :: rest) =
      (Parenthesis.closing? .outside 1 rest).map (· + 1) := rfl

theorem ofCall_of_argument {kind : Kind} {text : Text} {command : Command}
    (argument : Argument kind text command) (after : Text) :
    ofCall kind.name (.ofChar '(' :: (text ++ .ofChar ')' :: after)) = .ok command := by
  have closed : Parenthesis.closing? .outside 1 (.ofChar ')' :: after) = some 0 := rfl
  have found : Parenthesis.closing? .outside 0 (.ofChar '(' :: (text ++ .ofChar ')' :: after)) =
      some (text.length + 1) := by
    rw [closing?_call, argument.passes.closing?_append, closed]
    simp
  simp only [ofCall, Kind.ofName?_name, argument.takesArguments, if_true, found]
  have cut : ((.ofChar '(' :: (text ++ .ofChar ')' :: after) : Text).take (text.length + 1)).drop 1 =
      text := by simp
  rw [cut]
  exact ofArguments_eq_ok_iff.mpr argument

theorem argument_of_ofCall {name rest : Text} {command : Command}
    (succeeded : ofCall name (.ofChar '(' :: rest) = .ok command) :
    ∃ (kind : Kind) (text after : Text), name = kind.name ∧
      rest = text ++ .ofChar ')' :: after ∧ Argument kind text command := by
  unfold ofCall at succeeded
  split at succeeded
  · contradiction
  rename_i kind known
  split at succeeded
  case isFalse => contradiction
  rw [closing?_call] at succeeded
  split at succeeded
  · contradiction
  · next found =>
      obtain ⟨inner, foundInner, rfl⟩ := Option.map_eq_some_iff.mp found
      obtain ⟨text, after, rfl, rfl⟩ := Parenthesis.closing?_sound foundInner
      refine ⟨kind, text, after, (Kind.name_of_ofName? known).symm, rfl, ?_⟩
      apply ofArguments_eq_ok_iff.mp
      simpa using succeeded

theorem not_opensArguments_of_mem {name : Text} (bare : .ofChar '(' ∉ name) :
    ∀ c ∈ name, (!opensArguments c) = true := by
  intro c member
  have different : c ≠ '(' := by
    rintro rfl
    exact bare member
  simp [opensArguments, different]

theorem parse_of_bare {body : Text} (bare : .ofChar '(' ∉ body.trimEnd) :
    parse body = ofBareName body.trimEnd := by
  have closed := not_opensArguments_of_mem bare
  have call := @List.dropWhile_append_of_pos _ _ _ [] closed
  have name := @List.takeWhile_append_of_pos _ _ _ [] closed
  rw [List.append_nil, List.dropWhile_nil] at call
  rw [List.append_nil, List.takeWhile_nil, List.append_nil] at name
  simp only [parse, call, name, if_true]

theorem parse_of_call {body name rest : Text}
    (shape : body.trimEnd = name ++ .ofChar '(' :: rest) (bare : .ofChar '(' ∉ name) :
    parse body = ofCall name (.ofChar '(' :: rest) := by
  have closed := not_opensArguments_of_mem bare
  simp only [parse, shape]
  rw [List.takeWhile_append_of_pos closed, List.dropWhile_append_of_pos closed,
    List.takeWhile_cons_of_neg (by decide), List.dropWhile_cons_of_neg (by decide),
    List.append_nil, if_neg (List.cons_ne_nil _ _)]

theorem parenthesis_notMem_name (kind : Kind) : .ofChar '(' ∉ kind.name := by
  cases kind <;> decide

/-- How a body without trailing white space spells a command. Anything may follow the parenthesis
that closes the arguments. -/
inductive Spells : Text → Command → Prop
  | beginBlock : Spells "begin" .beginBlock
  | endBlock : Spells "end" .endBlock
  | call {kind : Kind} {text : Text} {command : Command} (after : Text) :
      Argument kind text command → Spells (kind.name ++ "(" ++ text ++ ")" ++ after) command

theorem call_eq (name text after : Text) :
    name ++ "(" ++ text ++ ")" ++ after =
      name ++ .ofChar '(' :: (text ++ .ofChar ')' :: after) := by
  simp only [List.append_assoc]
  rfl

theorem spells_of_ofBareName {name : Text} {command : Command}
    (succeeded : ofBareName name = .ok command) : Spells name command := by
  unfold ofBareName at succeeded
  split at succeeded
  · contradiction
  · next known =>
      cases succeeded
      rw [← Kind.name_of_ofName? known]
      exact .beginBlock
  · next known =>
      cases succeeded
      rw [← Kind.name_of_ofName? known]
      exact .endBlock
  · contradiction

theorem spells_of_parse {body : Text} {command : Command} (succeeded : parse body = .ok command) :
    Spells body.trimEnd command := by
  by_cases called : .ofChar '(' ∈ body.trimEnd
  · obtain ⟨name, rest, shape, bare⟩ := List.eq_append_cons_of_mem called
    rw [parse_of_call shape bare] at succeeded
    obtain ⟨kind, text, after, rfl, rfl, argument⟩ := argument_of_ofCall succeeded
    rw [shape, ← call_eq]
    exact .call after argument
  · rw [parse_of_bare called] at succeeded
    exact spells_of_ofBareName succeeded

theorem parse_of_spells {body : Text} {command : Command} (spells : Spells body.trimEnd command) :
    parse body = .ok command := by
  generalize shape : body.trimEnd = trimmed at spells
  cases spells with
  | beginBlock =>
      rw [parse_of_bare (shape ▸ parenthesis_notMem_name .beginBlock), shape]
      rfl
  | endBlock =>
      rw [parse_of_bare (shape ▸ parenthesis_notMem_name .endBlock), shape]
      rfl
  | @call kind text _ after argument =>
      have called := shape.trans (call_eq kind.name text after)
      rw [parse_of_call called (parenthesis_notMem_name kind)]
      exact ofCall_of_argument argument after

/-- The body of a directive line gives the command that it spells, and a fault if it spells none. -/
theorem parse_eq_ok_iff_spells (body : Text) :
    (∀ command, parse body = .ok command ↔ Spells body.trimEnd command) ∧
      ((∃ fault, parse body = .error fault) ↔ ∀ command, ¬Spells body.trimEnd command) := by
  have agrees (command : Command) : parse body = .ok command ↔ Spells body.trimEnd command :=
    ⟨spells_of_parse, parse_of_spells⟩
  refine ⟨agrees, ?_⟩
  simp only [← agrees]
  cases parse body with
  | error fault => simp
  | ok command => simp

example : parse "emit(\")\\\"\", null) // :)\t" = .ok (.emit [.str ")\"", .null]) := by cbv

end Command

end Inlay
