import LogWatch.Disk.Plan
import LogWatch.Disk.Basic
import LogWatch.Store.Record

/-!
# The store of watermarks

Every configuration has a record of its own in the folder `watermarks` of the state folder,
named by the configuration's identity.  The folder is made when the store is first used.  A
record is written to a temporary file beside it, which then takes the record's name, so that a
record is never half written.
-/

namespace LogWatch

open LogWatch.Text

structure Store where
  /-- The folder of the records. -/
  folder : String
  /-- The folder has been made. -/
  made : Bool := false

namespace Store

inductive Error
  | io (path : String) (fault : FileFault)
  | malformedRecord (path : String) (fault : RecordFault)
  | invalidKey (key : String)
  deriving DecidableEq

/-- The message up to the cause that the system gives. -/
def Error.heading : Error → String
  | .io path _ => "Failed to access watermark store at '" ++ path ++ "': "
  | .malformedRecord path fault =>
    "Malformed watermark record '" ++ path ++ "': " ++ fault.message
  | .invalidKey key => "Invalid configuration identity '" ++ key ++ "': expected a hex digest"

def Error.message (e : Error) : String :=
  match e with
  | .io _ fault => e.heading ++ fault.message
  | _ => e.heading

/-- A store in a state folder; nothing is made yet. -/
def under (stateFolder : String) : Store := ⟨joinPath stateFolder "watermarks", false⟩

/-- Work on a store. -/
abbrev Task := ExceptT Error (StateT Store Plan)

/-- One request to the disk; a fault is reported for `path`. -/
def access (path : String) {α : Type} (p : Plan (Except FileFault α)) : Task α := do
  match ← p with
  | .ok a => return a
  | .error fault => throw (.io path fault)

/-- Keys are hexadecimal digits, at least one. -/
def isKey (key : String) : Bool :=
  !key.isEmpty && key.toList.all fun c =>
    c.isDigit || ('a' ≤ c && c ≤ 'f') || ('A' ≤ c && c ≤ 'F')

def checkKey (key : String) : Task Unit :=
  if isKey key then return () else throw (.invalidKey key)

/-- The folder of the records, made if this store has not yet made it. -/
def ensureFolder : Task String := do
  let store ← get
  if !store.made then
    access store.folder (Plan.request (.createFolder store.folder))
    set { store with made := true }
  return store.folder

/-- The watermark of a key, if there is one. -/
def get? (key : String) : Task (Option Identity) := do
  checkKey key
  let path := joinPath (← ensureFolder) key
  match ← Plan.readText path with
  | .error .notFound => return none
  | .error fault => throw (.io path fault)
  | .ok s =>
    match readRecord s with
    | .ok i => return some i
    | .error fault => throw (.malformedRecord path fault)

/-- Makes the identity of an event the watermark of a key. -/
def save (key : String) (e : Event) : Task Unit := do
  checkKey key
  let folder ← ensureFolder
  let path := joinPath folder key
  let temporary := joinPath folder ("." ++ key ++ ".tmp")
  access temporary (Plan.request (.create temporary))
  access temporary (Plan.request (.append temporary (recordText e.identity).toUTF8))
  access temporary (Plan.request (.sync temporary))
  access path (Plan.request (.rename temporary path))

/-- Removes the watermark of a key; tells whether there was one. -/
def reset (key : String) : Task Bool := do
  checkKey key
  let path := joinPath (← ensureFolder) key
  match ← Plan.request (.remove path) with
  | .ok () => return true
  | .error .notFound => return false
  | .error fault => throw (.io path fault)

/-- Removes the files of these names from a folder; tells how many there were. -/
def removeFiles (folder : String) : List String → Task Nat
  | [] => return 0
  | name :: names => do
    let path := joinPath folder name
    let isFile : Bool ← Plan.request (.isFile path)
    if isFile then
      access path (Plan.request (.remove path))
      return (← removeFiles folder names) + 1
    else removeFiles folder names

/-- Removes every watermark; tells how many there were. -/
def clear : Task Nat := do
  let folder ← ensureFolder
  let names ← access folder (Plan.request (.list folder))
  removeFiles folder names

end Store
end LogWatch
