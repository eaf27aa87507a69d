import Inlay.Text.Basic

namespace Inlay

inductive Severity where
  | trace
  | debug
  | info
  | success
  | warning
  | error
  | critical
deriving DecidableEq

namespace Severity

def all : List Severity :=
  [trace, debug, info, success, warning, error, critical]

def name : Severity → Text
  | trace => "TRACE"
  | debug => "DEBUG"
  | info => "INFO"
  | success => "SUCCESS"
  | warning => "WARNING"
  | error => "ERROR"
  | critical => "CRITICAL"

def rank : Severity → Nat
  | trace => 0
  | debug => 1
  | info => 2
  | success => 3
  | warning => 4
  | error => 5
  | critical => 6

def ofName? (name : Text) : Option Severity :=
  all.find? (·.name = name)

end Severity

structure Record where
  severity : Severity
  component : Option Text
  message : Text

namespace Record

def ownComponent : Text := "incode"

def own (message : Text) : Record :=
  ⟨.debug, some ownComponent, message⟩

end Record

structure Sink where
  name : Text
  severity : Severity
  ownOnly : Bool

namespace Sink

def hears (sink : Sink) (record : Record) : Bool :=
  sink.severity.rank ≤ record.severity.rank &&
    (!sink.ownOnly || record.component = some Record.ownComponent)

/-- Whether any sink listens to records of a severity. A record of no interest is not even
written. -/
def anyListens (sinks : List Sink) (severity : Severity) : Bool :=
  sinks.any fun sink => sink.severity.rank ≤ severity.rank

/-- What each sink hears of a list of records. Sinks that hear nothing are left out. -/
def heard (sinks : List Sink) (records : List Record) : List (Text × List Record) :=
  let entries := sinks.map fun sink => (sink.name, records.filter sink.hears)
  entries.filter fun entry => !entry.2.isEmpty

end Sink

end Inlay
