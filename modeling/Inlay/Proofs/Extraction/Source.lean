import Inlay.Proofs.Directive.Grammar
import Inlay.Proofs.Extraction.Outcome
import Inlay.Proofs.Json.Printed
import Inlay.Proofs.Matcher.Checked
import Inlay.Proofs.Matcher.Occurrence

namespace Inlay

theorem Text.trimEnd_append_singleton {lead : Text} {c : CodePoint} (visible : c.isSpace = false) :
    Text.trimEnd (lead ++ [c]) = lead ++ [c] := by
  simp [Text.trimEnd, visible]

namespace Command

inductive Writable : Command → Prop
  | beginBlock : Writable .beginBlock
  | endBlock : Writable .endBlock
  | assign {fields : Fields} : (Value.obj fields).Writable → Writable (.assign fields)
  | merge {fields : Fields} : (Value.obj fields).Writable → Writable (.merge fields)
  | emit {arguments : List Value} :
      (∀ argument ∈ arguments, argument.Writable) → Writable (.emit arguments)

def argument? (style : Json.Style) : Command → Option Text
  | .beginBlock | .endBlock => none
  | .assign fields | .merge fields => some (style.value (.obj fields))
  | .emit arguments => some (Text.join style.separator (style.values arguments))

def text (style : Json.Style) (command : Command) : Text :=
  match command.argument? style with
  | none => command.kind.name
  | some argument => command.kind.name ++ "(" ++ argument ++ ")"

namespace Writable

variable {command : Command}

theorem spells (writable : command.Writable) (style : Json.Style) :
    Spells (command.text style) command := by
  have call {kind : Kind} {argument : Text} (spelled : Argument kind argument command) :
      Spells (kind.name ++ "(" ++ argument ++ ")") command := by
    have called := Spells.call [] spelled
    rwa [List.append_nil] at called
  cases writable with
  | beginBlock => exact .beginBlock
  | endBlock => exact .endBlock
  | assign writable => exact call (.assign (Json.parse_value style writable))
  | merge writable => exact call (.merge (Json.parse_value style writable))
  | emit writable => exact call (.emit (Json.parse_value style (.arr writable)))

theorem newline_notMem_argument (writable : command.Writable) {style : Json.Style} {argument : Text}
    (given : command.argument? style = some argument) : .newline ∉ argument := by
  cases writable with
  | beginBlock => contradiction
  | endBlock => contradiction
  | assign writable =>
      cases given
      exact Json.newline_notMem_value style writable
  | merge writable =>
      cases given
      exact Json.newline_notMem_value style writable
  | emit writable =>
      cases given
      exact Json.newline_notMem_list style fun argument member =>
        Json.newline_notMem_value style (writable argument member)

theorem newline_notMem_text (writable : command.Writable) (style : Json.Style) :
    .newline ∉ command.text style := by
  have named (kind : Kind) : .newline ∉ kind.name := by cases kind <;> decide
  unfold text
  split
  · exact named command.kind
  · next argument given =>
      simp only [List.mem_append, not_or]
      exact ⟨⟨⟨named command.kind, by decide⟩, writable.newline_notMem_argument given⟩, by decide⟩

end Writable

theorem text_eq_append_singleton (style : Json.Style) (command : Command) :
    ∃ lead c, command.text style = lead ++ [c] ∧ c.isSpace = false := by
  unfold text
  split
  · cases command.kind with
    | beginBlock => exact ⟨"begi", 'n', rfl, rfl⟩
    | endBlock => exact ⟨"en", 'd', rfl, rfl⟩
    | assign => exact ⟨"assig", 'n', rfl, rfl⟩
    | merge => exact ⟨"merg", 'e', rfl, rfl⟩
    | emit => exact ⟨"emi", 't', rfl, rfl⟩
  · exact ⟨_, ')', rfl, rfl⟩

theorem Writable.parse_text {command : Command} (writable : command.Writable)
    (style : Json.Style) : parse (command.text style) = .ok command := by
  apply parse_of_spells
  obtain ⟨lead, c, shape, visible⟩ := text_eq_append_singleton style command
  have spells := writable.spells style
  rw [shape] at spells ⊢
  rwa [Text.trimEnd_append_singleton visible]

end Command

namespace Source

inductive Item where
  | plain (line : Text)
  | directive (padding : Text) (command : Command)

namespace Item

inductive Valid (matcher : Matcher) : Item → Prop
  | plain {line : Text} :
      .newline ∉ line → ¬matcher.HasForm line → Valid matcher (.plain line)
  | directive {padding : Text} {command : Command} :
      (∀ c ∈ padding, c.isBlank = true) → command.Writable →
      Valid matcher (.directive padding command)

def line (matcher : Matcher) (style : Json.Style) : Item → Text
  | plain line => line
  | directive padding command =>
      padding ++ (matcher.marker ++ " " ++ matcher.tag ++ ":" ++ command.text style)

/-- The directive of an item whose line starts at an offset. -/
def directives (matcher : Matcher) (style : Json.Style) (offset : Nat) (item : Item) :
    List Directive :=
  match item with
  | plain _ => []
  | directive padding command =>
      [⟨command, padding, offset, (offset + (item.line matcher style).length : Nat)⟩]

end Item

def text (matcher : Matcher) (style : Json.Style) (items : List Item) : Text :=
  Text.join [.newline] (items.map (Item.line matcher style))

def directivesFrom (matcher : Matcher) (style : Json.Style) (offset : Nat) :
    List Item → List Directive
  | [] => []
  | item :: items =>
      item.directives matcher style offset ++
        directivesFrom matcher style (offset + (item.line matcher style).length + 1) items

def directives (matcher : Matcher) (style : Json.Style) (items : List Item) : List Directive :=
  directivesFrom matcher style 0 items

variable {matcher : Matcher} (style : Json.Style)

def parts (matcher : Matcher) (style : Json.Style) (padding : Text) (command : Command) :
    DirectiveLine :=
  ⟨padding, matcher.marker ++ " " ++ matcher.tag ++ ":" ++ command.text style, command.text style⟩

theorem fits_parts {padding : Text} (blank : ∀ c ∈ padding, c.isBlank = true) {command : Command}
    (writable : command.Writable) : (parts matcher style padding command).Fits matcher where
  padding_blank := blank
  comment_parts := ⟨" ", by decide, by decide, rfl⟩
  body_nonempty := by
    obtain ⟨lead, c, shape, _⟩ := command.text_eq_append_singleton style
    simp [parts, shape]
  body_oneLine := writable.newline_notMem_text style

theorem Item.Valid.readsAs {item : Item} (valid : item.Valid matcher) (checked : matcher.Checked)
    (offset : Nat) :
    List.Forall₂ Extraction.ReadsAs
      (matcher.occurrencesFrom true 0 offset (item.line matcher style))
      (item.directives matcher style offset) := by
  cases valid with
  | plain oneLine formless =>
      have unread := (checked.line?_eq_none_iff oneLine).mpr formless
      rw [Item.line, Matcher.occurrencesFrom_line oneLine, unread]
      exact .nil
  | @directive padding command blank writable =>
      have fits := @fits_parts matcher style padding blank command writable
      have spelled : (Item.directive padding command).line matcher style =
          (parts matcher style padding command).text := rfl
      rw [spelled, Matcher.occurrencesFrom_line (fits.newline_notMem_text checked.oneLine),
        checked.line?_eq_some fits]
      exact .cons ⟨command, writable.parse_text style, rfl⟩ .nil

theorem readsAs_text (checked : matcher.Checked) {items : List Item}
    (valid : ∀ item ∈ items, item.Valid matcher) (offset : Nat) :
    List.Forall₂ Extraction.ReadsAs
      (matcher.occurrencesFrom true 0 offset (text matcher style items))
      (directivesFrom matcher style offset items) := by
  induction items generalizing offset with
  | nil => exact .nil
  | cons item items induction =>
      have readsFirst := (valid item (List.mem_cons_self ..)).readsAs style checked offset
      have readsMore := induction fun other member => valid other (List.mem_cons_of_mem item member)
      cases items with
      | nil =>
          rw [directivesFrom, directivesFrom, List.append_nil]
          exact readsFirst
      | cons next items =>
          have shape : text matcher style (item :: next :: items) =
              item.line matcher style ++ .newline :: text matcher style (next :: items) := by
            simp [text, Text.join]
          rw [shape, Matcher.occurrencesFrom_append_newline checked.oneLine (Nat.zero_le _)]
          exact List.rel_append readsFirst (readsMore _)

/-- The directives of a text are those that it was written from. -/
theorem directivesOf_text {tag marker : Text}
    (tagChecked : Settings.checkPart (.str tag) = .ok tag)
    (markerChecked : Settings.checkPart (.str marker) = .ok marker) (style : Json.Style)
    {items : List Item} (valid : ∀ item ∈ items, item.Valid ⟨marker, tag⟩) (defaults : Matcher) :
    Matcher.choose defaults (some tag) (some marker) = .ok ⟨marker, tag⟩ ∧
      (Extraction.directivesOf ⟨marker, tag⟩ (text ⟨marker, tag⟩ style items)).outcome =
        .ok (directives ⟨marker, tag⟩ style items) := by
  have checked : Matcher.Checked ⟨marker, tag⟩ := ⟨markerChecked, tagChecked⟩
  refine ⟨checked.choose_eq_ok defaults, ?_⟩
  apply Extraction.outcome_directivesOf_eq_ok_iff.mpr
  exact readsAs_text style checked valid 0

theorem directivesOf_text_of_quotes :
    Matcher.choose .standard (some "inj") (some "//") = .ok ⟨"//", "inj"⟩ ∧
      (Extraction.directivesOf ⟨"//", "inj"⟩
        "a\n\t// inj:emit(\")\\u000a\\\"\", [true])").outcome =
        .ok [⟨.emit [.str ")\n\"", .arr [.bool true]], "\t", 2, 35⟩] := by
  have checked : Matcher.Checked ⟨"//", "inj"⟩ := ⟨rfl, rfl⟩
  have formless : ¬Matcher.HasForm ⟨"//", "inj"⟩ "a" :=
    (checked.line?_eq_none_iff (by decide)).mp rfl
  have truths : Value.Writable (.arr [.bool true]) :=
    .arr (List.forall_mem_cons.mpr ⟨.bool true, nofun⟩)
  have writable : Command.Writable (.emit [.str ")\n\"", .arr [.bool true]]) :=
    .emit (List.forall_mem_cons.mpr ⟨.str _, List.forall_mem_cons.mpr ⟨truths, nofun⟩⟩)
  have valid : ∀ item ∈ [Item.plain "a", .directive "\t" _], item.Valid ⟨"//", "inj"⟩ :=
    List.forall_mem_cons.mpr ⟨.plain (by decide) formless,
      List.forall_mem_cons.mpr ⟨.directive (by decide) writable, nofun⟩⟩
  exact directivesOf_text rfl rfl ⟨" ", [], false, by decide, nofun⟩ valid .standard

end Source

end Inlay
