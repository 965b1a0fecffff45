import LogWatch.CommandLine.Basic
import LogWatch.Scanner
import LogWatch.Settings

/-!
# The program

What a command line does: the settings are loaded, the command line's own values take the
place of theirs, and the command is carried out on the store.  Everything that reaches outside
is a step of a plan.
-/

namespace LogWatch

/-- What the program is told by its surroundings. -/
structure Surroundings where
  /-- The settings file. -/
  config : Option String := none
  stateFolder : Option String := none
  /-- The folder for the data of programs. -/
  dataHome : Option String := none
  home : Option String := none
  /-- The home folder in the system's list of users. -/
  account : Option String := none

namespace Surroundings

/-- The home folder, from the list of users if it is not told otherwise. -/
def homeFolder? (s : Surroundings) : Option String :=
  (s.home.filter (!·.isEmpty)).or (s.account.filter (!·.isEmpty))

/-- The state folder that is used when none is named. -/
def defaultStateFolder (s : Surroundings) : String :=
  match s.stateFolder.filter (!·.isEmpty) with
  | some folder => folder
  | none =>
    match s.dataHome.filter (·.startsWith "/"), s.homeFolder? with
    | some folder, _ => joinPath folder "radon"
    | none, some home => joinPath (joinPath home ".local/share") "radon"
    | none, none => ".radon"

end Surroundings

/-- The settings with the values of a command line; `payload` is the text of the file of
external events that it names. -/
def FilterSettings.override (f : FilterSettings) (o : Overrides) (payload : Option String) :
    FilterSettings :=
  let f := { f with
    filter := o.filter.getD f.filter
    maxMessages := o.maxMessages.getD f.maxMessages
    timeLimit := o.timeLimit.getD f.timeLimit
    eventLog := o.eventLog.getD f.eventLog
    remoteMachine := o.remoteMachine.getD f.remoteMachine }
  let f := match o.events with
    | some path => { f with source := .logFile, eventsPath := some path }
    | none => f
  match payload with
  | some text => { f with source := .external, externalEvents := text }
  | none => f

namespace Program

/-- What ends a run before its work is done. -/
inductive Error
  | config (e : Settings.Error)
  | external (path : String) (fault : FileFault)
  | settings (e : Settings.Error)
  | filter (r : Filter.Refusal)
  | store (e : Store.Error)
  | scan (e : Scanner.Error)
  /-- The program gives up at once. -/
  | panic (cause : String)

/-- What comes of an error of the settings.  At a limit that overflows the program gives up. -/
def Error.ofSettings : Settings.Error → Error
  | .limitOverflow => .panic Settings.Error.limitOverflow.message
  | e => .settings e

def Error.message : Error → String
  | .config e => "Failed to load config: " ++ e.message
  | .external path fault =>
    "Failed to read external events from '" ++ path ++ "': " ++ fault.message
  | .settings e => e.message
  | .filter r => r.message
  | .store e => e.message
  | .scan e => e.message
  | .panic cause => cause

/-- Work of the program on its store. -/
abbrev Work := ExceptT Error (StateT Store Plan)

/-- Prints a text; where it cannot be written the program gives up. -/
def print (text : String) : Work Unit := do
  match ← Plan.request (.print text) with
  | .ok () => return ()
  | .error fault => throw (.panic ("failed printing to stdout: " ++ fault.message))

/-- Passes on what ends a cycle. -/
def onCycle {α : Type} (c : Scanner.Cycle α) : Work α :=
  ExceptT.mk do
    match ← c.run with
    | .ok a => return .ok a
    | .error e => return .error (.scan e)

/-- Passes on what ends the work of a store. -/
def onStore {α : Type} (t : Store.Task α) : Work α :=
  ExceptT.mk do
    match ← t.run with
    | .ok a => return .ok a
    | .error e => return .error (.store e)

def onSettings {α : Type} (e : Except Settings.Error α) : Work α :=
  match e with
  | .ok a => return a
  | .error e => throw (.ofSettings e)

/-- Prints the report. -/
def printReport (format : Report.Format) : Scanner.Send := fun events config => do
  match ← Plan.request (.print (format.render events config)) with
  | .ok () => return .ok ()
  | .error fault => return .error (.io fault.message)

def scan (format : Report.Format) (f : FilterSettings) (dryRun : Bool) : Work Unit := do
  let config ← onSettings f.configuration
  match Scanner.make config with
  | .error e => throw (.scan e)
  | .ok scanner =>
    if dryRun then
      let events ← onCycle scanner.preview
      print (format.render events config)
    else
      let outcome ← onCycle (scanner.run (printReport format))
      if outcome.skipped then print (outcome.message ++ "\n")

def check (filter : String) : Work Unit :=
  match Filter.compile filter with
  | .error r => throw (.filter r)
  | .ok f =>
    if f.isMatchAll then print "OK: empty filter matches every event\n"
    else print ("OK: " ++ f.text ++ "\n")

def identity (f : FilterSettings) : Work Unit := do
  let config ← onSettings f.identityConfiguration
  print (config.identity ++ "\n")

def reset (f : FilterSettings) (all : Bool) : Work Unit := do
  if all then
    let removed ← onStore Store.clear
    print ("Removed " ++ Text.ofNat removed ++ " watermark(s)\n")
  else
    let config ← onSettings f.identityConfiguration
    if ← onStore (Store.reset config.identity) then
      print ("Removed watermark " ++ config.identity ++ "\n")
    else print ("No watermark stored for " ++ config.identity ++ "\n")

def perform (c : CommandLine) (f : FilterSettings) : Work Unit :=
  match c.command with
  | .scan dryRun => scan c.format f dryRun
  | .check filter => check filter
  | .identity => identity f
  | .reset all => reset f all

/-- The text of the file of external events, if the command line names one. -/
def payload (o : Overrides) : Plan (Except Error (Option String)) := do
  match o.external with
  | none => return .ok none
  | some path =>
    match ← Plan.readText path with
    | .ok text => return .ok (some text)
    | .error fault => return .error (.external path fault)

/-- Carries out a command line. -/
def execute (s : Surroundings) (c : CommandLine) : Plan (Except Error Unit) := do
  match ← Settings.load c.config with
  | .error e => return .error (.config e)
  | .ok settings =>
    match ← payload c.overrides with
    | .error e => return .error e
    | .ok payload =>
      let folder := (c.stateFolder.or settings.storeFolder).getD s.defaultStateFolder
      let work := perform c (settings.filter.override c.overrides payload)
      return (← work.run.run (Store.under folder)).1

/-- How a run ends. -/
inductive Ending
  | done
  | refused
  | failed (e : Error)
  | panicked (cause : String)

def Ending.exitCode : Ending → UInt32
  | .done => 0
  | .failed _ => 1
  | .refused => 2
  | .panicked _ => 101

def versionText : String := "radon 0.1.0\n"

def helpText : String :=
  "Poll an event log and report new matching events exactly once\n\n" ++
    "Usage: radon [OPTIONS] <COMMAND>\n\n" ++
    "Commands: " ++ ", ".intercalate (CommandLine.Verb.all.map CommandLine.Verb.name) ++ ", help\n"

/-- Runs the program with these words.  Help and version that cannot be printed are passed over. -/
def run (s : Surroundings) (args : List String) : Plan Ending := do
  match CommandLine.parse s.config args with
  | .error .usage => return .refused
  | .error .help => do
    let _ ← Plan.request (.print helpText)
    return .done
  | .error .version => do
    let _ ← Plan.request (.print versionText)
    return .done
  | .ok c =>
    match ← execute s c with
    | .ok () => return .done
    | .error (.panic cause) => return .panicked cause
    | .error e => return .failed e

end Program
end LogWatch
