import Inlay.Directive.Kind
import Inlay.Value.Display

/-!
What happens during an extraction, in order. A message about an event is written from a certain
verbosity on. Its words are put together in any case, and numbers with too many digits prevent this.
-/

namespace Inlay

/-- A part of the text that can be replaced, with what is known where it stands. It starts where the
emitting line stops, and stops where the closing line starts. -/
structure Region where
  arguments : List Value
  data : Fields
  padding : Text
  start : Int
  stop : Int

inductive Event where
  | directive (kind : Kind) (offset : Int)
  | directives (count : Nat)
  | opened (depth : Nat)
  | closed (depth : Nat)
  | stopped (offset : Int)
  | assigned (data : Fields)
  | merged (data : Fields)
  | region (region : Region)
  | regions (count : Nat)

namespace Event

def level : Event → Nat
  | regions _ => 1
  | directive _ _ | directives _ | opened _ | closed _ | stopped _ | region _ => 2
  | assigned _ | merged _ => 3

def region? : Event → Option Region
  | region found => some found
  | _ => none

/-- Whether the numbers in the message about an event are short. Counts always are. -/
def isShort (text : Text) : Event → Bool
  | directive _ offset | stopped offset => text.isShortOffset offset
  | assigned data | merged data => data.isShort
  | region found =>
      Value.allShort found.arguments && text.isShortOffset found.start &&
        text.isShortOffset found.stop
  | directives _ | opened _ | closed _ | regions _ => true

def wording : Event → Text
  | directive kind offset => "Directive " ++ kind.name ++ " at offset " ++ Text.ofInt offset
  | directives count => "Found " ++ Text.ofNat count ++ " directives"
  | opened depth => "Scope opened, depth " ++ Text.ofNat depth
  | closed depth => "Scope closed, depth " ++ Text.ofNat depth
  | stopped offset => "End at document root (offset " ++ Text.ofInt offset ++ "), stopping"
  | assigned data => "assign -> " ++ (Value.obj data).display
  | merged data => "merge -> " ++ (Value.obj data).display
  | region found =>
      "Region " ++ (Value.arr found.arguments).display ++ " at " ++ Text.ofInt found.start ++
        ".." ++ Text.ofInt found.stop
  | regions count => "Extracted " ++ Text.ofNat count ++ " regions"

def message? (text : Text) (event : Event) : Option Text :=
  if event.isShort text then some event.wording else none

end Event

/-- The result of a computation, and the events up to its end. -/
structure Traced (ε α : Type) where
  events : List Event
  outcome : Except ε α

namespace Traced

variable {ε ζ α β : Type}

def ok (value : α) : Traced ε α :=
  ⟨[], .ok value⟩

def fail (fault : ε) : Traced ε α :=
  ⟨[], .error fault⟩

def after (event : Event) (traced : Traced ε α) : Traced ε α :=
  ⟨event :: traced.events, traced.outcome⟩

def map (f : α → β) (traced : Traced ε α) : Traced ε β :=
  ⟨traced.events, traced.outcome.map f⟩

def mapError (f : ε → ζ) (traced : Traced ε α) : Traced ζ α :=
  ⟨traced.events, traced.outcome.mapError f⟩

def andThen (traced : Traced ε α) (next : α → Traced ε β) : Traced ε β :=
  match traced.outcome with
  | .ok value =>
      let more := next value
      ⟨traced.events ++ more.events, more.outcome⟩
  | .error fault => ⟨traced.events, .error fault⟩

def writtenFrom (text : Text) (fault : ε) (outcome : Except ε α) : List Event → Traced ε α
  | [] => ⟨[], outcome⟩
  | event :: rest =>
      if event.isShort text then (writtenFrom text fault outcome rest).after event
      else ⟨[event], .error fault⟩

/-- The trace up to the first event that cannot be put into words, which is a fault. -/
def written (text : Text) (fault : ε) (traced : Traced ε α) : Traced ε α :=
  writtenFrom text fault traced.outcome traced.events

def messages (text : Text) (traced : Traced ε α) (verbosity : Int) : List Text :=
  (traced.events.filter fun event => event.level ≤ verbosity).filterMap (Event.message? text)

/-- The completed regions, also those in front of a fault. -/
def regions (traced : Traced ε α) : List Region :=
  traced.events.filterMap Event.region?

@[simp] theorem events_after (event : Event) (traced : Traced ε α) :
    (traced.after event).events = event :: traced.events := rfl

@[simp] theorem outcome_after (event : Event) (traced : Traced ε α) :
    (traced.after event).outcome = traced.outcome := rfl

@[simp] theorem events_map (f : α → β) (traced : Traced ε α) :
    (traced.map f).events = traced.events := rfl

@[simp] theorem outcome_map (f : α → β) (traced : Traced ε α) :
    (traced.map f).outcome = traced.outcome.map f := rfl

@[simp] theorem events_mapError (f : ε → ζ) (traced : Traced ε α) :
    (traced.mapError f).events = traced.events := rfl

@[simp] theorem outcome_mapError (f : ε → ζ) (traced : Traced ε α) :
    (traced.mapError f).outcome = traced.outcome.mapError f := rfl

theorem outcome_andThen_of_ok {traced : Traced ε α} {value : α}
    (succeeded : traced.outcome = .ok value) (next : α → Traced ε β) :
    (traced.andThen next).outcome = (next value).outcome := by
  simp [andThen, succeeded]

theorem outcome_andThen_of_error {traced : Traced ε α} {fault : ε}
    (failed : traced.outcome = .error fault) (next : α → Traced ε β) :
    (traced.andThen next).outcome = .error fault := by
  simp [andThen, failed]

end Traced

end Inlay
