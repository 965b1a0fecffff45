import LogWatch.CommandLine.Level

/-!
# The command line

Switches, a verb, and its switches and words.  A switch that may stand on both sides of the
verb counts as it is given after the verb.
-/

namespace LogWatch

/-- Values that take the place of those in the settings. -/
structure Overrides where
  filter : Option String := none
  maxMessages : Option Int32 := none
  timeLimit : Option String := none
  events : Option String := none
  external : Option String := none
  eventLog : Option String := none
  remoteMachine : Option String := none

inductive Command
  | scan (dryRun : Bool)
  | check (filter : String)
  | identity
  | reset (all : Bool)
  deriving DecidableEq

structure CommandLine where
  config : Option String
  stateFolder : Option String
  format : Report.Format
  verbose : Nat
  command : Command
  overrides : Overrides

namespace CommandLine

open LogWatch.Text

/-- What the words before and after a verb say together. -/
structure Reading where
  before : Level
  verb : Verb
  after : Level

namespace Reading

/-- The value of a switch, the later side first. -/
def value? (r : Reading) (s : Switch) : Option String :=
  (r.after.given.lookup s).or (r.before.given.lookup s)

def overrides (r : Reading) : Overrides :=
  let value := fun s => r.after.given.lookup s
  { filter := value .filter
    maxMessages := (value .maxMessages).bind fun s => (readInt? s.toList).bind int32?
    timeLimit := value .timeLimit
    events := value .events
    external := value .external
    eventLog := value .eventLog
    remoteMachine := value .remoteMachine }

def command? (r : Reading) : Option Command :=
  match r.verb with
  | .scan => some (.scan (r.after.given.lookup .dryRun).isSome)
  | .check => (r.after.words.head?).map .check
  | .identity => some .identity
  | .reset => some (.reset (r.after.given.lookup .all).isSome)

/-- The command line, unless its verb lacks a word or two of its switches exclude each
other. -/
def commandLine? (r : Reading) (config : Option String) : Option CommandLine := do
  let command ← r.command?
  let overrides := r.overrides
  guard !(overrides.events.isSome && overrides.external.isSome)
  return {
    config := (r.value? .config).or config
    stateFolder := r.value? .stateDir
    format := if r.value? .format == some "json" then .json else .text
    verbose := (r.after.verbose.or r.before.verbose).getD 0
    command
    overrides }

end Reading

/-- The level of the words before the verb. -/
def rootLevel : Level := { allowed := commonSwitches ++ [.version], room := 0 }

def verbLevel (v : Verb) : Level := { allowed := v.switches, room := v.words }

/-- A word that ends the first level: a verb, or a call for help. -/
def endsRoot (w : String) : Bool := (Verb.ofName? w).isSome || w == "help"

/-- Help is given for the program, for a verb, or for `help` itself. -/
def helpOn : List String → Refusal
  | [] => .help
  | [w] => if endsRoot w then .help else .usage
  | _ => .usage

/-- Reads a command line; `config` is the settings file that the environment names.  What the
words after the verb get wrong is found before a waiting value before the verb is looked at. -/
def parse (config : Option String) (args : List String) : Except Refusal CommandLine := do
  match ← rootLevel.read endsRoot args with
  | (_, []) => throw .usage
  | (before, w :: rest) =>
    match Verb.ofName? w with
    | none => throw (helpOn rest)
    | some verb => do
      let (after, _) ← (verbLevel verb).read (fun _ => false) rest
      let after ← after.finish config
      let before ← before.finish config
      match (Reading.mk before verb after).commandLine? config with
      | some commandLine => return commandLine
      | none => throw .usage

end CommandLine
end LogWatch
