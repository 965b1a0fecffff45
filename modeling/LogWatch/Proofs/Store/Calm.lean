import LogWatch.Proofs.Disk.Folder
import LogWatch.Proofs.Store.Lookup

/-!
# A store where nothing fails

In a folder that is there every step of a store has one outcome.  A save puts the record in the
place of its key, and takes away what was left at the place of the temporary file; a key whose
temporary file has too long a name is not saved, and nothing is changed.

    w.run calm (write folder key bytes) =
      (.ok (), w.onDisk ((w.host.disk.erase (q ++ [temporary key])).set (q ++ [key]) …))
                                                                             (run_write_calm)
-/

namespace LogWatch

open Disk (Fits)

namespace Host

theorem change_of_ok {h : Host} {path : String} {p : Path} {f : Path → Disk.Outcome Disk}
    {d : Disk} (hl : h.disk.locate h.working path = .ok p) (hf : f p = .ok d) :
    h.change path f = (.ok (), { h with disk := d }) := by
  unfold change
  rw [bind_eq_ok.mpr ⟨p, hl, hf⟩]

theorem change_of_error {h : Host} {path : String} {f : Path → Disk.Outcome Disk}
    {fault : FileFault} (hf : h.disk.locate h.working path >>= f = .error fault) :
    h.change path f = (.error fault, h) := by
  unfold change
  rw [hf]

end Host

namespace World

variable {w : World} {d : Disk} {q : Request}

/-- The world with this disk. -/
def onDisk (w : World) (d : Disk) : World := { w with host.disk := d }

theorem follow_calm {a : q.Answer} (ho : q.offer = [])
    (h : w.host.answer q = (a, { w.host with disk := d })) :
    w.follow calm (Plan.request q) = (a, w.onDisk d) := by
  rw [follow_request, answer_of_silent (t := calm) rfl ho, h]
  rfl

end World

namespace Store

variable {w : World} {p q : Path} {folder key path : String} {bytes : ByteArray}

/-- The record's text gets to the temporary file, whatever was in it. -/
theorem run_prepare_calm (hl : w.host.disk.locate w.host.working path = .ok p)
    (hp : w.host.disk.get? p ≠ some .folder) :
    w.run calm (prepare path bytes) = (.ok (), w.onDisk (w.host.disk.set p (.file bytes))) := by
  have hne := Disk.ne_nil_of_not_folder hp
  have hmade := Disk.writes_set hp .empty
  have hfilled := Disk.writes_set hp bytes
  have hcreate : w.follow calm (Plan.request (.create path)) =
      (.ok (), w.onDisk (w.host.disk.set p (.file .empty))) :=
    World.follow_calm rfl (Host.change_of_ok hl (Disk.create_eq_ok.mpr ⟨hp, rfl⟩))
  have happend : (w.onDisk (w.host.disk.set p (.file .empty))).follow calm
      (Plan.request (.append path bytes)) =
        (.ok (), w.onDisk (w.host.disk.set p (.file bytes))) := by
    refine World.follow_calm rfl (Host.change_of_ok (hmade.folders.locate hl) ?_)
    refine Disk.append_eq_ok.mpr ⟨.empty, hmade.file, ?_⟩
    rw [ByteArray.empty_append]
    exact (Disk.set_set ..).symm
  have hsync : (w.onDisk (w.host.disk.set p (.file bytes))).follow calm
      (Plan.request (.sync path)) = (.ok (), w.onDisk (w.host.disk.set p (.file bytes))) := by
    refine World.follow_calm rfl (Prod.ext ?_ rfl)
    refine bind_eq_ok.mpr ⟨p, hfilled.folders.locate hl, ?_⟩
    exact map_eq_ok.mpr ⟨bytes, Disk.read_eq_ok.mpr hfilled.file, rfl⟩
  unfold prepare
  rw [World.run_bind_of_ok (World.run_access_eq_ok.mpr hcreate),
    World.run_bind_of_ok (World.run_access_eq_ok.mpr happend)]
  exact World.run_access_eq_ok.mpr hsync

/-- The place of a folder, and the places of a key and its temporary file, where a save can put
files. -/
structure Room (w : World) (folder key : String) (q : Path) : Prop where
  place : w.host.disk.folderAt w.host.working folder = .ok q
  fits : Fits folder key
  fitsTemporary : Fits folder (temporary key)
  record : w.host.disk.get? (q ++ [key]) ≠ some .folder
  temporary : w.host.disk.get? (q ++ [temporary key]) ≠ some .folder

theorem run_write_calm (hk : isKey key = true) (h : Room w folder key q) :
    w.run calm (write folder key bytes) =
      (.ok (), w.onDisk ((w.host.disk.erase (q ++ [temporary key])).set (q ++ [key])
        (.file bytes))) := by
  have hlt := Disk.locate_of_fits (plainName_temporary hk) h.place h.fitsTemporary
  have hlk := Disk.locate_of_fits (plainName_of_isKey hk) h.place h.fits
  have hw := Disk.writes_set h.temporary bytes
  have hother : q ++ [key] ≠ q ++ [temporary key] := by simpa using ne_temporary hk key
  have hrecord := (hw.others _ hother).trans_ne h.record
  have hrename : (w.onDisk (w.host.disk.set (q ++ [temporary key]) (.file bytes))).follow calm
      (Plan.request (.rename (joinPath folder (temporary key)) (joinPath folder key))) =
      (.ok (), w.onDisk ((w.host.disk.erase (q ++ [temporary key])).set (q ++ [key])
        (.file bytes))) := by
    refine World.follow_calm rfl (Host.change_of_ok (hw.folders.locate hlt) ?_)
    refine bind_eq_ok.mpr ⟨_, hw.folders.locate hlk, ?_⟩
    rw [← Disk.erase_set _ _ (.file bytes)]
    exact Disk.rename_eq_ok.mpr ⟨bytes, hw.file, hrecord, rfl⟩
  unfold write
  rw [World.run_bind_of_ok (run_prepare_calm hlt h.temporary)]
  exact World.run_access_eq_ok.mpr hrename

theorem run_save_calm {w' : World} {e : Event} (hk : isKey key = true)
    (hopen : w.run calm ensureFolder = (.ok folder, w')) (h : Room w' folder key q) :
    w.run calm (save key e) =
      (.ok (), w'.onDisk ((w'.host.disk.erase (q ++ [temporary key])).set (q ++ [key])
        (.file (recordText e.identity).toUTF8))) := by
  rw [run_save calm w hk, hopen]
  exact run_write_calm hk h

theorem run_save_calm_of_long {w' : World} {e : Event} (hk : isKey key = true)
    (hopen : w.run calm ensureFolder = (.ok folder, w'))
    (hq : w'.host.disk.folderAt w'.host.working folder = .ok q) (hf : Fits folder key)
    (hlong : ¬Fits folder (temporary key)) :
    w.run calm (save key e) =
      (.error (.io (joinPath folder (temporary key)) Disk.nameTooLong), w') := by
  have hplain : '\x00' ∉ (temporary key).toList := by
    have hkey : '\x00' ∉ key.toList := not_mem_of_isKey hk (by decide)
    rw [toList_temporary]
    simpa using hkey
  have hcreate : w'.follow calm (Plan.request (.create (joinPath folder (temporary key)))) =
      (.error Disk.nameTooLong, w'.onDisk w'.host.disk) := by
    refine World.follow_calm rfl (Host.change_of_error ?_)
    rw [Disk.locate_of_not_fits (plainName_of_isKey hk) (plainName_temporary hk) hq hf hplain hlong]
    rfl
  rw [run_save calm w hk, hopen]
  dsimp only
  unfold write prepare
  rw [World.run_bind, World.run_bind, World.run_access (α := Unit) hcreate]
  rfl

end Store
end LogWatch
