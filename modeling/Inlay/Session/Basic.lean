import Inlay.Injection.Renderer
import Inlay.Session.Sink
import Inlay.Settings.Basic
import Inlay.Template.Basic

/-!
A session runs steps one after the other. Settings and sinks belong to the whole session; the
verbosity belongs to a context, which may leave it open. Steps in an inner context start from
the verbosity around them, and what they change of it is forgotten afterwards.
-/

namespace Inlay

structure Session where
  verbosity : Option Int := none
  settings : Settings := .default
  sinks : List Sink := []

namespace Session

def effectiveVerbosity (session : Session) : Int :=
  session.verbosity.getD session.settings.verbosity

structure Source where
  text : Text
  tag : Option Text
  marker : Option Text
  data : Value

inductive Default where
  | tag (text : Text)
  | marker (text : Text)
  | verbosity (level : Int)

def Default.set (settings : Settings) : Default → Settings
  | .tag text => { settings with matcher := { settings.matcher with tag := text } }
  | .marker text => { settings with matcher := { settings.matcher with marker := text } }
  | .verbosity level => { settings with verbosity := level }

inductive Step where
  | setVerbosity (level : Option Int)
  | askVerbosity
  | setDefaults (values : List Default)
  | addSink (name : Text) (level : Text) (ownOnly : Bool)
  | removeSink (name : Text)
  | log (message : Text) (level : Int) (arguments : Template.Arguments)
  | hostLog (level : Text) (message : Text)
  | matcher (tag marker : Option Text)
  | extract (source : Source)
  | inject (source : Source) (renderer : Renderer)
  | context (steps : List Step)

inductive Fault where
  | unknownSeverity (name : Text)
  | repeatedArgument (name : Text)
  | template (fault : Template.Fault)
  | matcher (fault : Matcher.Fault)
  | data (fault : Extraction.DataFault)
  | extraction (error : Extraction.Error)
  | render (message : Text)

def Fault.message : Fault → Text
  | .unknownSeverity name => "Level '" ++ name ++ "' does not exist"
  | .repeatedArgument name => "LOG() got multiple values for argument '" ++ name ++ "'"
  | .template fault => fault.message
  | .matcher fault => fault.message
  | .data fault => fault.message
  | .extraction error => error.message
  | .render message => message

inductive Result where
  | nothing
  | verbosity (level : Int)
  | matcher (matcher : Matcher)
  | regions (regions : List Region)
  | injected (text : Text) (seen : List Region)
  | fault (fault : Fault)

inductive Reply where
  | step (result : Result) (heard : List (Text × List Record))
  | context (replies : List Reply)

abbrev Told := List Record × Result

def reservedNames : List Text :=
  ["message", "level"]

/-- Writes a record of the library if the verbosity allows and a sink listens. A component among the
arguments replaces the library's own. -/
def log (session : Session) (message : Text) (level : Int)
    (arguments : Template.Arguments) : Told :=
  match arguments.find? fun argument => argument.1 ∈ reservedNames with
  | some (name, _) => ([], .fault (.repeatedArgument name))
  | none =>
      if level ≤ session.effectiveVerbosity ∧ Sink.anyListens session.sinks .debug then
        let written := if arguments = [] then .ok message else Template.fill message arguments
        match written with
        | .error fault => ([], .fault (.template fault))
        | .ok text =>
            let component := (arguments.get? "component").getD Record.ownComponent
            ([⟨.debug, some component, text⟩], .nothing)
      else ([], .nothing)

/-- Writes a record of the host. Without sinks nobody asks whether its severity exists. -/
def hostLog (session : Session) (level message : Text) : Told :=
  match session.sinks, Severity.ofName? level with
  | [], _ => ([], .nothing)
  | _, some severity => ([⟨severity, none, message⟩], .nothing)
  | _, none => ([], .fault (.unknownSeverity level))

def recordsOf {ε α : Type} (session : Session) (text : Text) (traced : Traced ε α) :
    List Record :=
  (traced.messages text session.effectiveVerbosity).map Record.own

def extractFrom (session : Session) (source : Source) (next : List Region → Result) : Told :=
  match session.settings.matcher.choose source.tag source.marker with
  | .error fault => ([], .fault (.matcher fault))
  | .ok matcher =>
      match Extraction.initialData source.data with
      | .error fault => ([], .fault (.data fault))
      | .ok data =>
          let traced := Inlay.extract matcher data source.text
          (session.recordsOf source.text traced,
            match traced.outcome with
            | .error error => .fault (.extraction error)
            | .ok regions => next regions)

def injectInto (source : Source) (renderer : Renderer) (regions : List Region) : Result :=
  match Injection.fill (renderer.render source.text) source.text regions with
  | .ok text => .injected text regions
  | .error message => .fault (.render message)

def addSink (session : Session) (name level : Text) (ownOnly : Bool) : Session × Result :=
  match Severity.ofName? level with
  | some severity =>
      ({ session with sinks := session.sinks ++ [⟨name, severity, ownOnly⟩] }, .nothing)
  | none => (session, .fault (.unknownSeverity level))

def tell (session : Session) (told : Told) : Session × Reply :=
  (session, .step told.2 (Sink.heard session.sinks told.1))

mutual

def run (session : Session) : Step → Session × Reply
  | .setVerbosity level =>
      let session := { session with verbosity := level }
      session.tell ([], .verbosity session.effectiveVerbosity)
  | .askVerbosity => session.tell ([], .verbosity session.effectiveVerbosity)
  | .setDefaults values =>
      let session := { session with settings := values.foldl Default.set session.settings }
      session.tell ([], .verbosity session.effectiveVerbosity)
  | .addSink name level ownOnly =>
      let (session, result) := session.addSink name level ownOnly
      session.tell ([], result)
  | .removeSink name =>
      { session with sinks := session.sinks.filter (·.name ≠ name) }.tell ([], .nothing)
  | .log message level arguments => session.tell (session.log message level arguments)
  | .hostLog level message => session.tell (session.hostLog level message)
  | .matcher tag marker =>
      match session.settings.matcher.choose tag marker with
      | .ok matcher => session.tell ([], .matcher matcher)
      | .error fault => session.tell ([], .fault (.matcher fault))
  | .extract source => session.tell (session.extractFrom source .regions)
  | .inject source renderer =>
      session.tell (session.extractFrom source (injectInto source renderer))
  | .context steps =>
      let (inner, replies) := session.runAll steps
      ({ inner with verbosity := session.verbosity }, .context replies)
termination_by structural step => step

def runAll (session : Session) : List Step → Session × List Reply
  | [] => (session, [])
  | step :: steps =>
      let (session, reply) := session.run step
      let (session, replies) := session.runAll steps
      (session, reply :: replies)
termination_by structural steps => steps

end

end Session

end Inlay
