import LogWatch.CommandLine.Switch

/-!
# One level of a command line

The words before a verb and the words after it are read alike, each with switches of their
own.  A value may be attached to its switch, with or without an equals sign for a letter; a
value that is a word of its own waits, and is checked when the next switch or plain word of
its level comes, or at the end.  A word that starts with a hyphen is never such a value.
After `--` all words are plain.
-/

namespace LogWatch.CommandLine

/-- Why a command line is not carried out. -/
inductive Refusal
  | usage
  | help
  | version
  deriving DecidableEq, Repr

/-- What the words of a level have said so far. -/
structure Level where
  /-- The switches that may stand here. -/
  allowed : List Switch
  /-- How many more plain words may stand here. -/
  room : Nat
  /-- Switches that were given, with their values. -/
  given : List (Switch × String) := []
  /-- How often `verbose` was given, if it was. -/
  verbose : Option Nat := none
  /-- The last switch that takes a value from the words, and that value. -/
  waiting : Option (Switch × Option String) := none
  words : List String := []

namespace Level

abbrev Outcome (α : Type) := Except Refusal α

/-- Notes a switch with its value.  No switch is given twice. -/
def give (l : Level) (s : Switch) (value : String) : Outcome Level :=
  if (l.given.lookup s).isSome || !s.accepts value then .error .usage
  else .ok { l with given := (s, value) :: l.given }

/-- Notes the switch that waits. -/
def settle (l : Level) : Outcome Level :=
  match l.waiting with
  | none => .ok l
  | some (s, some value) => ({ l with waiting := none } : Level).give s value
  | some (_, none) => .error .usage

/-- The value of a waiting switch is still to come. -/
def awaitsValue (l : Level) : Bool :=
  match l.waiting with
  | some (_, none) => true
  | _ => false

/-- A switch that takes no value. -/
def flag (l : Level) (s : Switch) : Outcome Level := do
  let l ← l.settle
  match s with
  | .help => throw .help
  | .version => throw .version
  | .verbose => return { l with verbose := some (min 255 (l.verbose.getD 0 + 1)) }
  | s => l.give s ""

/-- A switch that takes a value, which may be attached. -/
def option (l : Level) (s : Switch) (attached : Option String) : Outcome Level := do
  let l ← l.settle
  match attached with
  | some value => l.give s value
  | none => return { l with waiting := some (s, none) }

/-- A long switch, without its hyphens. -/
def long (l : Level) (cs : List Char) : Outcome Level :=
  let name := cs.takeWhile (· != '=')
  let attached := (cs.dropWhile (· != '=')).tail?.map String.ofList
  match l.allowed.find? fun s => s.longName.toList == name with
  | none => .error .usage
  | some s =>
    if s.takesValue then l.option s attached
    else if attached.isSome then .error .usage
    else l.flag s

/-- Letters behind one hyphen.  The first that takes a value has the rest attached. -/
def letters (l : Level) : List Char → Outcome Level
  | [] => .ok l
  | c :: rest =>
    match l.allowed.find? fun s => s.letter? == some c with
    | none => .error .usage
    | some s =>
      if s.takesValue then
        let attached :=
          match rest with
          | [] => none
          | '=' :: value => some (String.ofList value)
          | value => some (String.ofList value)
        l.option s attached
      else do
        let l ← l.flag s
        l.letters rest

/-- A word that is no switch and no value. -/
def plain (l : Level) (word : String) : Outcome Level := do
  match l.room with
  | 0 => throw .usage
  | room + 1 => do
    let l ← l.settle
    return { l with room, words := l.words ++ [word] }

/-- A word before any `--`. -/
def word (l : Level) (word : String) : Outcome Level :=
  match word.toList with
  | '-' :: '-' :: rest => l.long rest
  | '-' :: c :: rest => l.letters (c :: rest)
  | _ =>
    match l.waiting with
    | some (s, none) => .ok { l with waiting := some (s, some word) }
    | _ => l.plain word

/-- Reads words up to the first that `stops`; that word is left with those after it. -/
def read (stops : String → Bool) (l : Level) : List String → Outcome (Level × List String)
  | [] => .ok (l, [])
  | w :: rest =>
    if !l.awaitsValue && stops w then .ok (l, w :: rest)
    else if w == "--" then do
      let l ← rest.foldlM plain l
      return (l, [])
    else do
      let l ← l.word w
      l.read stops rest

/-- Ends a level.  Where no settings file was named, the environment may name one. -/
def finish (l : Level) (config : Option String) : Outcome Level := do
  let l ← l.settle
  match l.given.lookup .config, config with
  | none, some path => if Switch.config.accepts path then return l else throw .usage
  | _, _ => return l

end Level
end LogWatch.CommandLine
