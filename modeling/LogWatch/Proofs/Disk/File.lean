import LogWatch.Proofs.Disk.Place

/-!
# Files in a folder

Making, filling and renaming files keeps every folder, so a written path that led somewhere
leads there still; and the files of other names in the folder stay what they were.
-/

namespace LogWatch
namespace Disk

theorem requireFolder_eq_ok {d : Disk} {p : Path} :
    d.requireFolder p = .ok () ↔ d.get? p = some .folder := by
  unfold requireFolder
  split <;> simp_all

/-- Every folder is still one. -/
def KeepsFolders (d d' : Disk) : Prop := ∀ p, d.get? p = some .folder → d'.get? p = some .folder

theorem walk_cons_eq_ok {d : Disk} {p q : Path} {name : String} {names : List String} :
    d.walk p (name :: names) = .ok q ↔
      d.get? p = some .folder ∧ ∃ r, step p name = .ok r ∧ d.walk r names = .ok q := by
  rw [walk_cons, ← requireFolder_eq_ok, bind_eq_ok]
  constructor
  · rintro ⟨_, hp, h⟩
    exact ⟨hp, bind_eq_ok.mp h⟩
  · rintro ⟨hp, h⟩
    exact ⟨(), hp, bind_eq_ok.mpr h⟩

theorem KeepsFolders.walk {d d' : Disk} (h : d.KeepsFolders d') {p q : Path}
    {names : List String} (hw : d.walk p names = .ok q) : d'.walk p names = .ok q := by
  induction names generalizing p with
  | nil => exact hw
  | cons name names ih =>
    obtain ⟨hp, r, hr, hq⟩ := walk_cons_eq_ok.mp hw
    exact walk_cons_eq_ok.mpr ⟨h p hp, r, hr, ih hq⟩

theorem folderAt_eq_ok {d : Disk} {working : Path} {folder : String} {p : Path} :
    d.folderAt working folder = .ok p ↔
      d.walk (parts working folder).1 (parts working folder).2 = .ok p ∧
        d.get? p = some .folder := by
  unfold folderAt
  rw [bind_eq_ok, ← requireFolder_eq_ok]
  constructor
  · rintro ⟨q, hq, h⟩
    obtain ⟨_, hf, hqp⟩ := bind_eq_ok.mp h
    obtain rfl : q = p := by simpa [pure, Except.pure] using hqp
    exact ⟨hq, hf⟩
  · rintro ⟨hw, hf⟩
    exact ⟨p, hw, bind_eq_ok.mpr ⟨(), hf, rfl⟩⟩

theorem KeepsFolders.folderAt {d d' : Disk} (h : d.KeepsFolders d') {working : Path}
    {folder : String} {p : Path} (hp : d.folderAt working folder = .ok p) :
    d'.folderAt working folder = .ok p := by
  obtain ⟨hw, hg⟩ := folderAt_eq_ok.mp hp
  exact folderAt_eq_ok.mpr ⟨h.walk hw, h p hg⟩

/-- A written path leads where it led. -/
theorem KeepsFolders.locate {d d' : Disk} (h : d.KeepsFolders d') {working : Path}
    {path : String} {p : Path} (hl : d.locate working path = .ok p) :
    d'.locate working path = .ok p := by
  unfold Disk.locate at hl ⊢
  split at hl
  · simp at hl
  · next he =>
    rw [if_neg he]
    obtain ⟨_, hr, hw⟩ := bind_eq_ok.mp hl
    exact bind_eq_ok.mpr ⟨(), hr, h.walk hw⟩

/-- Where all the folders are there, none is made. -/
theorem makeFolders_of_walk {d : Disk} {p q : Path} {names : List String}
    (hw : d.walk p names = .ok q) (hq : d.get? q = some .folder) :
    d.makeFolders p names = (.ok (), d) := by
  induction names generalizing p with
  | nil => rfl
  | cons name names ih =>
    obtain ⟨-, r, hr, hw'⟩ := walk_cons_eq_ok.mp hw
    have hfolder : d.get? r = some .folder := by
      cases names with
      | nil =>
        obtain rfl : r = q := by simpa [Disk.walk] using hw'
        exact hq
      | cons name' names' => exact (walk_cons_eq_ok.mp hw').1
    unfold makeFolders
    rw [hr]
    simp only [hfolder]
    exact ih hw'

/-! ## One file changes -/

theorem ne_nil_of_not_folder {d : Disk} {p : Path} (h : d.get? p ≠ some .folder) : p ≠ [] := by
  rintro rfl
  exact h rfl

theorem get?_set_same {d : Disk} {p : Path} (h : p ≠ []) (n : Node) :
    (d.set p n).get? p = some n := by
  rw [get?_set d h, if_pos rfl]

theorem get?_set_other (d : Disk) {p q : Path} (h : q ≠ p) (n : Node) :
    (d.set p n).get? q = d.get? q := by
  by_cases hq : q = []
  · rw [hq]
    rfl
  · rw [get?_set d hq, if_neg h]

theorem get?_erase_other (d : Disk) {p q : Path} (h : q ≠ p) :
    (d.erase p).get? q = d.get? q := by
  by_cases hq : q = []
  · rw [hq]
    rfl
  · rw [get?_erase d hq, if_neg h]

theorem keepsFolders_erase {d : Disk} {p : Path} (h : d.get? p ≠ some .folder) :
    d.KeepsFolders (d.erase p) := by
  intro q hq
  rw [get?_erase_other d (by rintro rfl; exact h hq)]
  exact hq

theorem read_eq_ok {d : Disk} {p : Path} {bytes : ByteArray} :
    d.read p = .ok bytes ↔ d.get? p = some (.file bytes) := by
  unfold read
  split <;> simp_all

theorem read_of_get?_eq_none {d : Disk} {p : Path} (h : d.get? p = none) :
    d.read p = .error .notFound := by
  unfold read
  rw [h]

theorem create_eq_ok {d d' : Disk} {p : Path} :
    d.create p = .ok d' ↔ d.get? p ≠ some .folder ∧ d' = d.set p (.file .empty) := by
  unfold create
  split
  · simp_all
  · next h => simp_all [eq_comm]

theorem append_eq_ok {d d' : Disk} {p : Path} {bytes : ByteArray} :
    d.append p bytes = .ok d' ↔
      ∃ before, d.get? p = some (.file before) ∧ d' = d.set p (.file (before ++ bytes)) := by
  unfold append
  rw [bind_eq_ok]
  simp only [read_eq_ok, pure, Except.pure, Except.ok.injEq, @eq_comm _ d']

theorem rename_eq_ok {d d' : Disk} {p q : Path} :
    d.rename p q = .ok d' ↔
      ∃ bytes, d.get? p = some (.file bytes) ∧ d.get? q ≠ some .folder ∧
        d' = (d.erase p).set q (.file bytes) := by
  unfold rename
  rw [bind_eq_ok]
  simp only [read_eq_ok]
  cases hq : d.get? q with
  | none => simp [pure, Except.pure, eq_comm]
  | some node => cases node <;> simp [pure, Except.pure, eq_comm]

theorem remove_eq_ok {d d' : Disk} {p : Path} :
    d.remove p = .ok d' ↔ ∃ bytes, d.get? p = some (.file bytes) ∧ d' = d.erase p := by
  unfold remove
  rw [bind_eq_ok]
  simp only [read_eq_ok, pure, Except.pure, Except.ok.injEq, @eq_comm _ d']

/-- One file is changed, or made: all folders stay, and all other places. -/
structure Writes (d : Disk) (p : Path) (bytes : ByteArray) (d' : Disk) : Prop where
  folders : d.KeepsFolders d'
  file : d'.get? p = some (.file bytes)
  others : ∀ q, q ≠ p → d'.get? q = d.get? q

theorem writes_set {d : Disk} {p : Path} (h : d.get? p ≠ some .folder) (bytes : ByteArray) :
    d.Writes p bytes (d.set p (.file bytes)) where
  folders := by
    intro q hq
    rw [get?_set_other d (by rintro rfl; exact h hq)]
    exact hq
  file := get?_set_same (ne_nil_of_not_folder h) _
  others := fun _ hq => get?_set_other d hq _

theorem writes_of_create {d d' : Disk} {p : Path} (h : d.create p = .ok d') :
    d.Writes p .empty d' := by
  obtain ⟨hp, rfl⟩ := create_eq_ok.mp h
  exact writes_set hp _

theorem writes_of_append {d d' : Disk} {p : Path} {bytes : ByteArray}
    (h : d.append p bytes = .ok d') :
    ∃ before, d.get? p = some (.file before) ∧ d.Writes p (before ++ bytes) d' := by
  obtain ⟨before, hp, rfl⟩ := append_eq_ok.mp h
  exact ⟨before, hp, writes_set (by simp [hp]) _⟩

/-- A file that is given a new name is gone from its old place. -/
theorem writes_of_rename {d d' : Disk} {p q : Path} (h : d.rename p q = .ok d') :
    ∃ bytes, d.get? p = some (.file bytes) ∧ d.KeepsFolders (d.erase p) ∧
      (d.erase p).Writes q bytes d' := by
  obtain ⟨bytes, hp, hq, rfl⟩ := rename_eq_ok.mp h
  have hfile : d.get? p ≠ some .folder := by simp [hp]
  refine ⟨bytes, hp, keepsFolders_erase hfile, writes_set ?_ _⟩
  by_cases hqp : q = p
  · rw [hqp, get?_erase d (ne_nil_of_not_folder hfile), if_pos rfl]
    simp
  · rw [get?_erase_other d hqp]
    exact hq

/-! ## Files by their written paths -/

/-- The bytes that a written path leads to. -/
def fileAt (d : Disk) (working : Path) (path : String) : Outcome ByteArray :=
  d.locate working path >>= d.read

theorem fileAt_eq_ok {d : Disk} {working p : Path} {path : String} {bytes : ByteArray}
    (hl : d.locate working path = .ok p) :
    d.fileAt working path = .ok bytes ↔ d.get? p = some (.file bytes) := by
  unfold fileAt
  rw [hl, ← read_eq_ok]
  rfl

theorem locate_of_fileAt {d : Disk} {working : Path} {path : String} {bytes : ByteArray}
    (h : d.fileAt working path = .ok bytes) :
    ∃ p, d.locate working path = .ok p ∧ d.get? p = some (.file bytes) := by
  obtain ⟨p, hp, hr⟩ := bind_eq_ok.mp h
  exact ⟨p, hp, read_eq_ok.mp hr⟩

theorem locate_joinPath_eq_ok {d : Disk} {working p : Path} {folder name : String}
    (hn : PlainName name) (h : d.locate working (joinPath folder name) = .ok p) :
    ∃ q, d.folderAt working folder = .ok q ∧ p = q ++ [name] := by
  rw [locate_joinPath d working folder hn] at h
  obtain ⟨_, -, h⟩ := bind_eq_ok.mp h
  obtain ⟨q, hq, h⟩ := bind_eq_ok.mp h
  rw [step_plain q hn] at h
  split at h
  · simp at h
  · exact ⟨q, hq, by simpa [eq_comm] using h⟩

/-- What a name in a folder leads to is found in the place of the folder. -/
theorem fileAt_joinPath_congr {d d' : Disk} {working q : Path} {folder name : String}
    (hn : PlainName name) (hq : d.folderAt working folder = .ok q) (hk : d.KeepsFolders d')
    (hs : d'.get? (q ++ [name]) = d.get? (q ++ [name])) :
    d'.fileAt working (joinPath folder name) = d.fileAt working (joinPath folder name) := by
  have hread : d'.read (q ++ [name]) = d.read (q ++ [name]) := by
    unfold read
    rw [hs]
  unfold fileAt
  rw [locate_joinPath d working folder hn, locate_joinPath d' working folder hn, hq,
    hk.folderAt hq]
  cases requirePath (joinPath folder name) with
  | error f => rfl
  | ok _ =>
    show step q name >>= d'.read = step q name >>= d.read
    rw [step_plain q hn]
    split
    · rfl
    · exact hread

/-- A change of one file of a folder is not seen at another name. -/
theorem fileAt_of_writes_other {d d' : Disk} {working p : Path} {folder name other : String}
    (hn : PlainName name) (ho : PlainName other) (hne : name ≠ other)
    {bytes : ByteArray} (hl : d.locate working (joinPath folder other) = .ok p)
    (hw : d.Writes p bytes d') :
    d'.fileAt working (joinPath folder name) = d.fileAt working (joinPath folder name) := by
  obtain ⟨q, hq, rfl⟩ := locate_joinPath_eq_ok ho hl
  exact fileAt_joinPath_congr hn hq hw.folders (hw.others _ (by simpa using hne))

theorem fileAt_of_writes {d d' : Disk} {working p : Path} {path : String} {bytes : ByteArray}
    (hl : d.locate working path = .ok p) (hw : d.Writes p bytes d') :
    d'.fileAt working path = .ok bytes :=
  (fileAt_eq_ok (hw.folders.locate hl)).mpr hw.file

end Disk
end LogWatch
