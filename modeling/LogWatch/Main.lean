import LogWatch.Program
import Std.Time.DateTime.Timestamp

/-!
# The command line tool

Carries out the plan of the program on the files, the clock and the output of the system.
-/

namespace LogWatch.Main

def faultOf : IO.Error → FileFault
  | .noFileOrDirectory .. => .notFound
  | e => .other e.toString

/-- A step on files, its failure as a value. -/
def attempt {α : Type} (act : IO α) : IO (Except FileFault α) := do
  try return .ok (← act) catch e => return .error (faultOf e)

/-- The present, as far as instants reach. -/
def present : IO Time.Instant := do
  let nanos := (← Std.Time.Timestamp.now).toNanosecondsSinceUnixEpoch.toInt
  let second := nanos / Time.nanosPerSecond
  return (Time.Instant.ofSecond? second (nanos % Time.nanosPerSecond).toNat).getD .epoch

def answer : (q : Request) → IO q.Answer
  | .read path => attempt (IO.FS.readBinFile path)
  | .createFolder path => attempt (IO.FS.createDirAll path)
  | .create path => attempt (IO.FS.writeBinFile path .empty)
  | .append path bytes => attempt do
    let file ← IO.FS.Handle.mk path .append
    file.write bytes
    file.flush
  | .sync path => attempt do
    let file ← IO.FS.Handle.mk path .append
    file.flush
  | .rename path target => attempt (IO.FS.rename path target)
  | .remove path => attempt (IO.FS.removeFile path)
  | .list path => attempt do
    let folder ← IO.FS.realPath path
    return (← folder.readDir).toList.map fun entry => entry.fileName
  | .isFile path => do
    try
      let place ← IO.FS.realPath path
      return (← place.metadata).type == .file
    catch _ => return false
  | .clock => present
  | .print text => attempt do
    let output ← IO.getStdout
    output.putStr text
    output.flush
  | .deliver _ _ => return .error (.delivery "no reader of reports")

def carryOut {α : Type} : Plan α → IO α
  | .done a => return a
  | .ask q next => do
    let a ← answer q
    carryOut (next a)

/-- The list of users is not asked. -/
def surroundings : IO Surroundings := do
  return {
    config := ← IO.getEnv "RADON_CONFIG"
    stateFolder := ← IO.getEnv "RADON_STATE_DIR"
    dataHome := ← IO.getEnv "XDG_DATA_HOME"
    home := ← IO.getEnv "HOME" }

end LogWatch.Main

/-- Runs the program and ends with its exit code. -/
def main (args : List String) : IO UInt32 := do
  let ending ← LogWatch.Main.carryOut (LogWatch.Program.run (← LogWatch.Main.surroundings) args)
  match ending with
  | .failed e => IO.eprintln ("Error: " ++ e.message)
  | .panicked cause => IO.eprintln ("thread 'main' panicked:\n" ++ cause)
  | .refused => IO.eprintln "error: the arguments are not understood; try --help"
  | .done => pure ()
  return ending.exitCode
