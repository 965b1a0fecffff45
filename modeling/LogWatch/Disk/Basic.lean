import LogWatch.Disk.Plan

/-!
# Disks

A disk gives every path a file or a folder.  A path is a list of names from the root, which
is always a folder; everything else stands in a folder of its own.  A path written as a
string starts at the root or at a working folder.  Names are limited to 255 bytes, and written
paths to 4095, whatever they lead to.
-/

namespace LogWatch

/-- The path of something in a folder, as it is written. -/
def joinPath (folder name : String) : String :=
  if name.startsWith "/" then name
  else if folder.isEmpty || folder.endsWith "/" then folder ++ name
  else folder ++ "/" ++ name

abbrev Path := List String

inductive Node
  | file (bytes : ByteArray)
  | folder

structure Disk where
  entries : List (Path × Node) := []

namespace Disk

def get? (d : Disk) (p : Path) : Option Node :=
  if p.isEmpty then some .folder else d.entries.lookup p

def erase (d : Disk) (p : Path) : Disk := ⟨d.entries.filter fun e => e.1 != p⟩

def set (d : Disk) (p : Path) (n : Node) : Disk := ⟨(p, n) :: (d.erase p).entries⟩

/-- The names in a folder. -/
def children (d : Disk) (p : Path) : List String :=
  d.entries.filterMap fun (q, _) =>
    match q.reverse with
    | name :: above => if above.reverse == p then some name else none
    | [] => none

/-- Without a path and all below it. -/
def prune (d : Disk) (p : Path) : Disk := ⟨d.entries.filter fun e => !p.isPrefixOf e.1⟩

/-! ## Finding a path -/

abbrev Outcome (α : Type) := Except FileFault α

def notAFolder : FileFault := .other "Not a directory (os error 20)"

def alreadyThere : FileFault := .other "File exists (os error 17)"

def isAFolder : FileFault := .other "Is a directory (os error 21)"

def nameTooLong : FileFault := .other "File name too long (os error 36)"

def badName : FileFault := .other "file name contained an unexpected NUL byte"

def nameLimit : Nat := 255

def pathLimit : Nat := 4095

/-- The text can be a written path: it holds no NUL and is not too long. -/
def requirePath (path : String) : Outcome Unit :=
  if path.toList.contains '\x00' then .error badName
  else if pathLimit < path.utf8ByteSize then .error nameTooLong
  else .ok ()

/-- The place is a folder. -/
def requireFolder (d : Disk) (p : Path) : Outcome Unit :=
  match d.get? p with
  | some .folder => .ok ()
  | some (.file _) => .error notAFolder
  | none => .error .notFound

/-- One name further from a folder: up, down, or staying there. -/
def step (p : Path) (name : String) : Outcome Path :=
  if name.isEmpty || name == "." then .ok p
  else if name == ".." then .ok p.dropLast
  else if nameLimit < name.utf8ByteSize then .error nameTooLong
  else .ok (p ++ [name])

/-- Follows names from a place; all but the last must lead to folders. -/
def walk (d : Disk) (p : Path) : List String → Outcome Path
  | [] => .ok p
  | name :: names => do
    d.requireFolder p
    let q ← step p name
    d.walk q names

/-- The names in a written path, and where it starts. -/
def parts (working : Path) (path : String) : Path × List String :=
  (if path.startsWith "/" then [] else working, (path.toList.splitOn '/').map String.ofList)

/-- The place that a written path leads to; the last name need not exist. -/
def locate (d : Disk) (working : Path) (path : String) : Outcome Path :=
  if path.isEmpty then .error .notFound
  else do
    requirePath path
    let (start, names) := parts working path
    d.walk start names

/-! ## Steps -/

def read (d : Disk) (p : Path) : Outcome ByteArray :=
  match d.get? p with
  | some (.file bytes) => .ok bytes
  | some .folder => .error isAFolder
  | none => .error .notFound

/-- What is in the way of a folder: a file in its place, or one where a folder above it should be. -/
def inTheWay (below : List String) : FileFault :=
  if below.all String.isEmpty then alreadyThere else notAFolder

/-- Follows names from a place and makes the folders that are missing. -/
def makeFolders (d : Disk) (p : Path) : List String → Outcome Unit × Disk
  | [] => (.ok (), d)
  | name :: names =>
    match step p name with
    | .error fault => (.error fault, d)
    | .ok q =>
      match d.get? q with
      | some .folder => d.makeFolders q names
      | some (.file _) => (.error (inTheWay names), d)
      | none => (d.set q .folder).makeFolders q names

def create (d : Disk) (p : Path) : Outcome Disk :=
  match d.get? p with
  | some .folder => .error isAFolder
  | _ => .ok (d.set p (.file .empty))

def append (d : Disk) (p : Path) (bytes : ByteArray) : Outcome Disk := do
  let before ← d.read p
  return d.set p (.file (before ++ bytes))

def rename (d : Disk) (p q : Path) : Outcome Disk := do
  let bytes ← d.read p
  match d.get? q with
  | some .folder => .error isAFolder
  | _ => return (d.erase p).set q (.file bytes)

def remove (d : Disk) (p : Path) : Outcome Disk := do
  let _ ← d.read p
  return d.erase p

def list (d : Disk) (p : Path) : Outcome (List String) := do
  d.requireFolder p
  return d.children p

def isFile (d : Disk) (p : Path) : Bool :=
  match d.get? p with
  | some (.file _) => true
  | _ => false

end Disk

/-! ## Hosts -/

/-- What a plan is carried out on. -/
structure Host where
  disk : Disk := {}
  /-- The folder where relative paths start. -/
  working : Path := []
  now : Time.Instant := .epoch
  /-- What becomes of a report. -/
  sink : Report.Sink := .writing .text
  /-- The output so far, the reports passed on among it. -/
  output : String := ""

namespace Host

/-- Changes the disk at a written path. -/
def change (h : Host) (path : String) (f : Path → Disk.Outcome Disk) :
    Except FileFault Unit × Host :=
  match h.disk.locate h.working path >>= f with
  | .ok d => (.ok (), { h with disk := d })
  | .error fault => (.error fault, h)

/-- Answers a request. -/
def answer (h : Host) : (q : Request) → q.Answer × Host
  | .read path => (h.disk.locate h.working path >>= h.disk.read, h)
  | .createFolder path =>
    match Disk.requirePath path with
    | .error fault => (.error fault, h)
    | .ok () =>
      let (start, names) := Disk.parts h.working path
      let (outcome, d) := h.disk.makeFolders start names
      (outcome, { h with disk := d })
  | .create path => h.change path h.disk.create
  | .append path bytes => h.change path fun p => h.disk.append p bytes
  | .sync path => (h.disk.locate h.working path >>= fun p => (h.disk.read p).map fun _ => (), h)
  | .rename path target =>
    h.change path fun p => h.disk.locate h.working target >>= h.disk.rename p
  | .remove path => h.change path h.disk.remove
  | .list path => (h.disk.locate h.working path >>= h.disk.list, h)
  | .isFile path =>
    (match h.disk.locate h.working path with
      | .ok p => h.disk.isFile p
      | .error _ => false, h)
  | .clock => (h.now, h)
  | .print text => (.ok (), { h with output := h.output ++ text })
  | .deliver events config =>
    match h.sink events config with
    | .ok report => (.ok (), { h with output := h.output ++ report })
    | .error e => (.error e, h)

/-- Carries out a plan. -/
def run {α : Type} (h : Host) : Plan α → α × Host
  | .done a => (a, h)
  | .ask q next =>
    let (answer, h) := h.answer q
    h.run (next answer)

end Host

/-! ## Lemmas -/

namespace Disk

theorem lookup_filter_ne (es : List (Path × Node)) (p q : Path) :
    (es.filter fun e => e.1 != p).lookup q = if q = p then none else es.lookup q := by
  induction es with
  | nil => simp
  | cons e es ih =>
    obtain ⟨r, n⟩ := e
    by_cases hr : r = p
    · rw [List.filter_cons_of_neg (by simp [hr]), ih, List.lookup_cons]
      by_cases hq : q = p
      · simp [hq]
      · have hqr : (q == r) = false := by simp [hr, hq]
        simp [hq, hqr]
    · rw [List.filter_cons_of_pos (by simp [hr]), List.lookup_cons, List.lookup_cons, ih]
      by_cases hq : q = p
      · have hpr : (p == r) = false := by simp [Ne.symm hr]
        simp [hq, hpr]
      · simp [hq]

/-- Only the path itself is gone. -/
theorem get?_erase (d : Disk) {p q : Path} (h : q ≠ []) :
    (d.erase p).get? q = if q = p then none else d.get? q := by
  simp only [get?, erase, lookup_filter_ne]
  simp [h]

/-- Only the path itself changes. -/
theorem get?_set (d : Disk) {p q : Path} (h : q ≠ []) (n : Node) :
    (d.set p n).get? q = if q = p then some n else d.get? q := by
  simp only [get?, set, erase, List.lookup_cons, lookup_filter_ne]
  by_cases hq : q = p
  · simp [hq ▸ h, hq]
  · have hqp : (q == p) = false := by simp [hq]
    simp [h, hq, hqp]

end Disk

end LogWatch
