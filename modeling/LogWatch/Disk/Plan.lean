import LogWatch.Report

/-!
# Plans

What the program does to files, to its output and to its readers is written down as a plan:
a tree of requests, each with a continuation for every answer.  A plan is carried out by
`Host.run` on a model of a disk, or step by step by the command line.
-/

namespace LogWatch

/-- Why a request to a disk failed. -/
inductive FileFault
  | notFound
  | other (cause : String)
  deriving DecidableEq

def FileFault.message : FileFault → String
  | .notFound => "No such file or directory (os error 2)"
  | .other cause => cause

/-- One step that reaches outside the program. -/
inductive Request
  /-- The bytes of a file. -/
  | read (path : String)
  /-- A folder and the folders above it, where they are missing. -/
  | createFolder (path : String)
  /-- An empty file, in place of the one that is there. -/
  | create (path : String)
  /-- More bytes at the end of a file. -/
  | append (path : String) (bytes : ByteArray)
  /-- What was written to a file is kept from now on. -/
  | sync (path : String)
  /-- Gives a file another name, in place of the file that has it. -/
  | rename (path target : String)
  | remove (path : String)
  /-- The names in a folder. -/
  | list (path : String)
  | isFile (path : String)
  /-- The time of day. -/
  | clock
  /-- A line or more of output. -/
  | print (text : String)
  /-- A report for whoever reads reports. -/
  | deliver (events : List Event) (config : Configuration)

/-- What a request is answered with. -/
def Request.Answer : Request → Type
  | .read _ => Except FileFault ByteArray
  | .createFolder _ => Except FileFault Unit
  | .create _ => Except FileFault Unit
  | .append _ _ => Except FileFault Unit
  | .sync _ => Except FileFault Unit
  | .rename _ _ => Except FileFault Unit
  | .remove _ => Except FileFault Unit
  | .list _ => Except FileFault (List String)
  | .isFile _ => Bool
  | .clock => Time.Instant
  | .print _ => Except FileFault Unit
  | .deliver _ _ => Except Report.Error Unit

inductive Plan (α : Type) : Type
  | done (a : α)
  | ask (q : Request) (next : q.Answer → Plan α)

namespace Plan

def bind {α β : Type} (p : Plan α) (f : α → Plan β) : Plan β :=
  match p with
  | .done a => f a
  | .ask q next => .ask q fun answer => (next answer).bind f

instance : Monad Plan where
  pure := .done
  bind := Plan.bind

/-- One request and its answer. -/
def request (q : Request) : Plan q.Answer := .ask q .done

/-- The text of a file; bytes that are not UTF-8 are a fault. -/
def readText (path : String) : Plan (Except FileFault String) := do
  match ← request (.read path) with
  | .error fault => return .error fault
  | .ok bytes =>
    match String.fromUTF8? bytes with
    | some s => return .ok s
    | none => return .error (.other "stream did not contain valid UTF-8")

/-! ## Lemmas -/

theorem bind_done {α : Type} (p : Plan α) : p.bind .done = p := by
  induction p with
  | done a => rfl
  | ask q next ih => exact congrArg (Plan.ask q) (funext ih)

theorem bind_assoc {α β γ : Type} (p : Plan α) (f : α → Plan β) (g : β → Plan γ) :
    (p.bind f).bind g = p.bind fun a => (f a).bind g := by
  induction p with
  | done a => rfl
  | ask q next ih => exact congrArg (Plan.ask q) (funext ih)

instance : LawfulMonad Plan := LawfulMonad.mk' _ bind_done (fun _ _ => rfl) bind_assoc

end Plan
end LogWatch
