import LogWatch.Proofs.Store.Save

/-!
# What a store tells after a save

A save that succeeds leaves the text of the record in the file of its key; a save that fails, and
a save of another key, leave the file as it is.  The identity is read back as itself exactly
when its year is plain: other years are written with a sign, which no reader of records takes,
and then the store fails on every later lookup of the key.

    w'.entry key = .ok (joinPath w.store.folder key, .ok (recordText e.identity).toUTF8)
                                                                             (entry_save_ok)
    w'.entry key = w.entry key              (entry_save_error, entry_save_other)
    w'.record key = readBack (joinPath w.store.folder key) e.identity        (record_save_ok)
-/

namespace LogWatch

namespace World

variable {t : Trouble} {w w' : World} {key other folder : String} {e : Event}

theorem entry_of_sameFile {name : String} (hm : w.store.made = true) (hs : w'.store = w.store)
    (hf : Host.SameFile (joinPath w.store.folder name) w.host w'.host) :
    w'.entry name = w.entry name := by
  rw [entry_of_made (hs ▸ hm), entry_of_made hm, hs, hf.file]

/-- Work in the opened folder that does not show in a file leaves the file of that name. -/
theorem keeps_entry_of_open {α : Type} {name : String} {work : String → Store.Task α}
    (h : ∀ folder, Keeps (view (joinPath folder name)) (work folder)) :
    Keeps (fun w => w.entry name) (Store.ensureFolder >>= work) := by
  intro t w
  have hopen := entry_ensureFolder t w name
  rw [run_bind]
  rcases hf : w.run t Store.ensureFolder with ⟨_ | folder, w₁⟩
  · rw [hf] at hopen
    exact hopen
  · rw [hf] at hopen
    obtain ⟨hstore, -⟩ := run_ensureFolder_ok hf
    obtain ⟨hs, hsame⟩ := view_eq_iff.mp (h folder t w₁)
    refine (entry_of_sameFile (by rw [hstore]) hs ?_).trans hopen
    rw [hstore]
    exact hsame

/-- A save leaves all files but the key's own and the temporary one, whatever fails. -/
theorem entry_save_other (t : Trouble) (w : World) (e : Event) {name : String}
    (hn : PlainName name) (ht : name ≠ Store.temporary other) (hne : name ≠ other) :
    (w.run t (Store.save other e)).2.entry name = w.entry name := by
  by_cases ho : Store.isKey other = true
  · rw [Store.save_eq ho]
    exact keeps_entry_of_open (fun folder => Store.keeps_view_write folder hn ho ht hne _) t w
  · rw [Store.run_save_of_not_key t w ho]

/-- A save of another key leaves the record, whatever fails. -/
theorem record_save_other (t : Trouble) (w : World) (e : Event) (hk : Store.isKey key = true)
    (hne : key ≠ other) : (w.run t (Store.save other e)).2.record key = w.record key :=
  record_of_entry hk
    (entry_save_other t w e (Store.plainName_of_isKey hk) (Store.ne_temporary hk other) hne)

/-- A save that fails leaves the key's own file. -/
theorem entry_save_error {f : Store.Error} (hk : Store.isKey key = true)
    (h : w.run t (Store.save key e) = (.error f, w')) : w'.entry key = w.entry key := by
  rw [Store.run_save t w hk] at h
  have hopen := entry_ensureFolder t w key
  rcases hf : w.run t Store.ensureFolder with ⟨_ | folder, w₁⟩
  · rw [hf] at h hopen
    rw [← (Prod.mk.inj h).2]
    exact hopen
  · rw [hf] at h hopen
    obtain ⟨hstore, -⟩ := run_ensureFolder_ok hf
    obtain ⟨hs, hsame⟩ := Store.sameFile_write_error hk h
    refine (entry_of_sameFile (by rw [hstore]) hs ?_).trans hopen
    rw [hstore]
    exact hsame

/-- A save that succeeds leaves the folder open and the record's text in the key's file. -/
theorem fileAt_save (h : w.run t (Store.save key e) = (.ok (), w')) :
    Store.isKey key = true ∧ w'.store = ⟨w.store.folder, true⟩ ∧
      w'.host.disk.fileAt w'.host.working (joinPath w.store.folder key) =
        .ok (Store.recordText e.identity).toUTF8 := by
  by_cases hk : Store.isKey key = true
  · rw [Store.run_save t w hk] at h
    rcases hf : w.run t Store.ensureFolder with ⟨_ | folder, w₁⟩
    · rw [hf] at h
      simp at h
    · rw [hf] at h
      obtain ⟨hstore, rfl⟩ := run_ensureFolder_ok hf
      obtain ⟨hs, hfile⟩ := Store.fileAt_write hk h
      exact ⟨hk, hs.trans hstore, hfile⟩
  · rw [Store.run_save_of_not_key t w hk] at h
    simp at h

end World

namespace Store

/-- What a lookup finds where the identity has been saved. -/
def readBack (path : String) (i : Identity) : Except Error (Option Identity) :=
  if i.instant.HasPlainYear then .ok (some i)
  else .error (.malformedRecord path (.badTime i.instant.toString))

theorem readBack_of_plain {e : Event} (h : e.instant.HasPlainYear) (path : String) :
    readBack path e.identity = .ok (some e.identity) := by
  have hi : e.identity.instant = e.instant := rfl
  unfold readBack
  rw [hi, if_pos h]

theorem told_recordText (path : String) (e : Event) :
    World.told path (textOf (.ok (recordText e.identity).toUTF8)) = readBack path e.identity := by
  have hread := readRecord_recordText e
  dsimp only [textOf]
  rw [fromUTF8?_toUTF8]
  dsimp only [World.told]
  rw [hread]
  unfold readBack
  have hi : e.identity.instant = e.instant := rfl
  by_cases hy : e.instant.HasPlainYear
  · rw [if_pos hy, hi, if_pos hy]
  · rw [if_neg hy, hi, if_neg hy]

end Store

namespace World

variable {t : Trouble} {w w' : World} {key other folder : String} {e : Event}

/-- After a save that succeeds the key's file holds the record's text. -/
theorem entry_save_ok (h : w.run t (Store.save key e) = (.ok (), w')) :
    w'.entry key =
      .ok (joinPath w.store.folder key, .ok (Store.recordText e.identity).toUTF8) := by
  obtain ⟨-, hstore, hfile⟩ := fileAt_save h
  rw [entry_of_made (by rw [hstore]), hstore, hfile]

/-- A file that holds the record of an event is read back as its identity, if the year is plain. -/
theorem record_of_recordText {path : String} (hk : Store.isKey key = true)
    (h : w.entry key = .ok (path, .ok (Store.recordText e.identity).toUTF8)) :
    w.record key = Store.readBack path e.identity := by
  rw [record_eq w hk, h]
  dsimp only
  rw [Store.told_recordText]

theorem record_save_ok (h : w.run t (Store.save key e) = (.ok (), w')) :
    w'.record key = Store.readBack (joinPath w.store.folder key) e.identity :=
  record_of_recordText (fileAt_save h).1 (entry_save_ok h)

/-- The store as it is opened anew over the same folder. -/
def reopened (w : World) : World := w.withStore ⟨w.store.folder, false⟩

/-- Over a folder that is there, a new store is soon as far as the old one. -/
theorem run_ensureFolder_reopened {q : Path} (hm : w.store.made = true)
    (hpath : Disk.requirePath w.store.folder = .ok ())
    (hq : w.host.disk.folderAt w.host.working w.store.folder = .ok q) :
    w.reopened.run calm Store.ensureFolder = (.ok w.store.folder, w) := by
  have hopen := run_ensureFolder_of_folder (w := w.reopened) calm hpath hq
  rw [hopen]
  show (Except.ok w.store.folder, w.withStore ⟨w.store.folder, true⟩) = _
  rw [← hm]
  rfl

/-- Over the folder of a record, a new store finds everything made. -/
theorem record_reopened {bytes : ByteArray} (hk : Store.isKey key = true)
    (hm : w.store.made = true)
    (hf : w.host.disk.fileAt w.host.working (joinPath w.store.folder key) = .ok bytes) :
    w.reopened.record key = w.record key := by
  have hn := Store.plainName_of_isKey hk
  obtain ⟨p, hl, -⟩ := Disk.locate_of_fileAt hf
  obtain ⟨q, hq, -⟩ := Disk.locate_joinPath_eq_ok hn hl
  rw [Disk.locate_joinPath _ _ _ hn] at hl
  obtain ⟨_, hpath, -⟩ := bind_eq_ok.mp hl
  have hopen := run_ensureFolder_reopened hm (Disk.requirePath_folder hpath hn) hq
  unfold record
  rw [run_get? calm _ hk, run_get? calm _ hk, hopen, run_ensureFolder_of_made calm hm]

end World

/-! ## Top theorem -/

namespace Store

/-- After a save that succeeds the store, and a store opened anew over its folder, tell the
saved identity if its year is plain; otherwise every lookup fails on the record. -/
theorem save_reads_back (t : Trouble) (w : World) (key : String) (e : Event)
    (h : (w.run t (save key e)).1 = .ok ()) :
    let after := (w.run t (save key e)).2
    let path := joinPath w.store.folder key
    after.record key =
        (if e.instant.HasPlainYear then .ok (some e.identity)
        else .error (.malformedRecord path (.badTime e.instant.toString))) ∧
      after.reopened.record key = after.record key := by
  intro after path
  have hrun : w.run t (save key e) = (.ok (), after) := Prod.ext h rfl
  obtain ⟨hk, hstore, hfile⟩ := World.fileAt_save hrun
  refine ⟨World.record_save_ok hrun, ?_⟩
  apply World.record_reopened hk (by rw [hstore])
  rw [hstore]
  exact hfile

/-- A world with an empty disk and a store that has not been opened. -/
def untouched : World := { store := ⟨"watermarks", false⟩, host := {} }

/-- Half a second into the leap second at the end of 2016, on a clock ahead of UTC. -/
def leapEvent : Event where
  message := "leap"
  time := ⟨⟨1483228799, 1500000000, by decide, by decide, by decide⟩, 330, by decide, by decide⟩

/-- A leap second is read back, its half second and all. -/
theorem save_reads_back_leap :
    (untouched.run calm (save "5eaF" leapEvent)).1 = .ok () ∧
      (untouched.run calm (save "5eaF" leapEvent)).2.reopened.record "5eaF" =
        .ok (some leapEvent.identity) := by
  have h : (untouched.run calm (save "5eaF" leapEvent)).1 = .ok () := by decide +kernel
  have hy : leapEvent.instant.HasPlainYear := by decide +kernel
  obtain ⟨hsame, hnew⟩ := save_reads_back calm untouched "5eaF" leapEvent h
  rw [if_pos hy] at hsame
  exact ⟨h, hnew.trans hsame⟩

/-- The first moment of the year 12345. -/
def farEvent : Event where
  time := .ofInstant
    { Time.Instant.epoch with second := 327403382400, inRange := by decide, leap := by decide }

/-- A source gives an event of a far year, it is saved, and no lookup takes it back. -/
theorem far_year_never_reads_back :
    (Event.ofText "\x7b\"TimeGenerated\":\"+12345-01-01T00:00:00Z\"\x7d").toOption =
        some farEvent ∧
      (untouched.run calm (save "AB" farEvent)).1 = .ok () ∧
      (untouched.run calm (save "AB" farEvent)).2.record "AB" =
        .error (.malformedRecord "watermarks/AB" (.badTime "+12345-01-01T00:00:00Z")) := by
  have hread : (Event.ofText "\x7b\"TimeGenerated\":\"+12345-01-01T00:00:00Z\"\x7d").toOption =
      some farEvent := by
    decide +kernel
  have hsaved : (untouched.run calm (save "AB" farEvent)).1 = .ok () := by decide +kernel
  have hyear : ¬farEvent.identity.instant.HasPlainYear := by decide
  have htext : farEvent.identity.instant.toString = "+12345-01-01T00:00:00Z" := by decide +kernel
  have hpath : joinPath untouched.store.folder "AB" = "watermarks/AB" := by decide +kernel
  have hrecord := World.record_save_ok (Prod.ext hsaved rfl)
  unfold readBack at hrecord
  rw [if_neg hyear, htext, hpath] at hrecord
  exact ⟨hread, hsaved, hrecord⟩

end Store
end LogWatch
