import LogWatch.Proofs.Store.Calm
import LogWatch.Proofs.Store.Confinement

/-!
# Removing a record

Where nothing fails, a reset takes the file of its key off the disk, whatever is in it, and leaves
all else there.  Then the store has no record of the key, and tells of every other key what it told
before.

    w.run calm (reset key) = (.ok true, (w.withStore …).onDisk (w.host.disk.erase (q ++ [key])))
                                                                       (Store.Filed.run_reset)
-/

namespace LogWatch.Store

variable {w w' : World} {key folder : String} {bytes : ByteArray} {q : Path}

/-- The place of the folder, and the file of the key in it. -/
structure Filed (w : World) (folder key : String) (q : Path) (bytes : ByteArray) : Prop where
  path : Disk.requirePath folder = .ok ()
  place : w.host.disk.folderAt w.host.working folder = .ok q
  located : w.host.disk.locate w.host.working (joinPath folder key) = .ok (q ++ [key])
  file : w.host.disk.get? (q ++ [key]) = some (.file bytes)

/-- The disk is without the file, and a store in the folder has not been opened yet. -/
structure Removed (w w' : World) (folder : String) (p : Path) : Prop where
  store : w'.store = ⟨folder, false⟩
  working : w'.host.working = w.host.working
  disk : w'.host.disk = w.host.disk.erase p

theorem filed_of_fileAt (hk : isKey key = true)
    (h : w.host.disk.fileAt w.host.working (joinPath folder key) = .ok bytes) :
    ∃ q, Filed w folder key q bytes := by
  have hn := plainName_of_isKey hk
  obtain ⟨p, hl, hfile⟩ := Disk.locate_of_fileAt h
  obtain ⟨q, hq, rfl⟩ := Disk.locate_joinPath_eq_ok hn hl
  have hwhole := hl
  rw [Disk.locate_joinPath _ _ _ hn] at hwhole
  obtain ⟨_, hpath, -⟩ := bind_eq_ok.mp hwhole
  exact ⟨q, Disk.requirePath_folder hpath hn, hq, hl, hfile⟩

namespace Filed

theorem run_reset (h : Filed w w.store.folder key q bytes) (hk : isKey key = true) :
    w.run calm (reset key) =
      (.ok true,
        (w.withStore ⟨w.store.folder, true⟩).onDisk (w.host.disk.erase (q ++ [key]))) := by
  have hopen : w.run calm ensureFolder =
      (.ok w.store.folder, w.withStore ⟨w.store.folder, true⟩) := by
    rw [World.run_ensureFolder_of_folder calm h.path h.place]
    cases w.store.made <;> rfl
  have hremove : (w.withStore ⟨w.store.folder, true⟩).follow calm
      (Plan.request (.remove (joinPath w.store.folder key))) =
        (.ok (), (w.withStore ⟨w.store.folder, true⟩).onDisk
          (w.host.disk.erase (q ++ [key]))) :=
    World.follow_calm rfl
      (Host.change_of_ok h.located (Disk.remove_eq_ok.mpr ⟨bytes, h.file, rfl⟩))
  rw [reset_eq hk, World.run_bind_of_ok hopen]
  unfold discard
  rw [World.run_bind_of_ok (World.run_plan_of hremove)]
  rfl

variable (h : Filed w folder key q bytes) (hr : Removed w w' folder (q ++ [key]))

include h hr

theorem keepsFolders : w.host.disk.KeepsFolders w'.host.disk := by
  rw [hr.disk]
  exact Disk.keepsFolders_erase (by simp [h.file])

theorem entry (name : String) :
    w'.entry name =
      .ok (joinPath folder name,
        w'.host.disk.fileAt w.host.working (joinPath folder name)) := by
  have hstore := hr.store
  have hplace : w'.host.disk.folderAt w'.host.working folder = .ok q := by
    rw [hr.working]
    exact (h.keepsFolders hr).folderAt h.place
  have hentry := World.entry_of_folder (w := w') (q := q) (by rw [hstore]; exact h.path)
    (by rw [hstore]; exact hplace) name
  rw [hentry, hstore, hr.working]

theorem record_none (hk : isKey key = true) : w'.record key = .ok none := by
  have hlocated := (h.keepsFolders hr).locate h.located
  have hgone : w'.host.disk.get? (q ++ [key]) = none := by
    rw [hr.disk, Disk.get?_erase _ (by simp), if_pos rfl]
  have hfile : w'.host.disk.fileAt w.host.working (joinPath folder key) = .error .notFound := by
    unfold Disk.fileAt
    rw [hlocated]
    exact Disk.read_of_get?_eq_none hgone
  rw [World.record_eq w' hk, h.entry hr, hfile]
  rfl

theorem record_other {other : String} (hk : isKey other = true) (hne : other ≠ key) :
    w'.record other = (w.withStore ⟨folder, false⟩).record other := by
  have hn := plainName_of_isKey hk
  have hbefore := World.entry_of_folder (w := w.withStore ⟨folder, false⟩) (q := q) h.path
    h.place other
  have hsame : w'.host.disk.fileAt w.host.working (joinPath folder other) =
      w.host.disk.fileAt w.host.working (joinPath folder other) := by
    refine Disk.fileAt_joinPath_congr hn h.place (h.keepsFolders hr) ?_
    rw [hr.disk, Disk.get?_erase_other _ (by simpa using hne)]
  refine World.record_of_entry hk ?_
  rw [h.entry hr, hbefore, hsame]
  rfl

end Filed

end LogWatch.Store
