import LogWatch.Proofs.Disk.File
import LogWatch.Proofs.World

/-!
# Opening a store

The folder of the records is made once, and making it again changes nothing.  So what the files of
a store hold, and what it tells of a key, does not depend on whether the store has been opened
before.

    (w.run t ensureFolder).2.entry name = w.entry name      (entry_ensureFolder)
    w.record key = match w.entry key with
      | .ok (path, file) => told path (textOf file) | .error e => .error e   (record_eq)
-/

namespace LogWatch

theorem fromUTF8?_toUTF8 (s : String) : String.fromUTF8? s.toUTF8 = some s := by
  unfold String.fromUTF8?
  have hs : s.toUTF8.IsValidUTF8 := s.isValidUTF8
  rw [dif_pos hs]
  rfl

/-- The text that a file is read as. -/
def textOf : Except FileFault ByteArray → Except FileFault String
  | .error fault => .error fault
  | .ok bytes =>
    match String.fromUTF8? bytes with
    | some s => .ok s
    | none => .error (.other "stream did not contain valid UTF-8")

namespace Disk

/-- Everything that is there stays there. -/
def KeepsNodes (d d' : Disk) : Prop := ∀ p n, d.get? p = some n → d'.get? p = some n

theorem makeFolders_keepsNodes (d : Disk) (p : Path) (names : List String) :
    d.KeepsNodes (d.makeFolders p names).2 := by
  induction names generalizing d p with
  | nil => exact fun _ _ h => h
  | cons name names ih =>
    unfold makeFolders
    cases step p name with
    | error f => exact fun _ _ h => h
    | ok q =>
      cases hq : d.get? q with
      | none =>
        simp only [hq]
        intro r n hr
        refine ih (d.set q .folder) q r n ?_
        rw [get?_set_other d (by rintro rfl; simp [hq] at hr)]
        exact hr
      | some node =>
        cases node with
        | folder =>
          simp only [hq]
          exact ih d q
        | file bytes =>
          simp only [hq]
          exact fun _ _ h => h

/-- Folders that have been made, or could not be, are so on any disk that keeps them. -/
theorem makeFolders_of_keepsNodes {d d' : Disk} {p : Path} {names : List String}
    (h : (d.makeFolders p names).2.KeepsNodes d') :
    d'.makeFolders p names = ((d.makeFolders p names).1, d') := by
  induction names generalizing d p with
  | nil => rfl
  | cons name names ih =>
    unfold makeFolders at h ⊢
    cases hs : step p name with
    | error f => rfl
    | ok q =>
      simp only [hs] at h ⊢
      cases hq : d.get? q with
      | none =>
        simp only [hq] at h ⊢
        have hfolder : (d.set q .folder).get? q = some .folder :=
          get?_set_same (ne_nil_of_not_folder (d := d) (by simp [hq])) _
        rw [h q _ (makeFolders_keepsNodes _ q names q _ hfolder)]
        exact ih h
      | some node =>
        cases node with
        | folder =>
          simp only [hq] at h ⊢
          rw [h q _ (makeFolders_keepsNodes _ q names q _ hq)]
          exact ih h
        | file bytes =>
          simp only [hq] at h ⊢
          rw [h q _ hq]

/-- Makes the folders of a written path. -/
def makeAt (d : Disk) (working : Path) (path : String) : Outcome Unit × Disk :=
  match requirePath path with
  | .error fault => (.error fault, d)
  | .ok () => d.makeFolders (parts working path).1 (parts working path).2

theorem makeAt_again (d : Disk) (working : Path) (path : String) :
    (d.makeAt working path).2.makeAt working path = d.makeAt working path := by
  unfold makeAt
  cases requirePath path with
  | error f => rfl
  | ok _ => exact makeFolders_of_keepsNodes fun _ _ hn => hn

/-- A folder that is there is not made. -/
theorem makeAt_of_folderAt {d : Disk} {working q : Path} {folder : String}
    (hpath : requirePath folder = .ok ()) (hq : d.folderAt working folder = .ok q) :
    d.makeAt working folder = (.ok (), d) := by
  obtain ⟨hwalk, hfolder⟩ := folderAt_eq_ok.mp hq
  unfold makeAt
  rw [hpath]
  exact makeFolders_of_walk hwalk hfolder

end Disk

theorem Host.answer_createFolder (h : Host) (path : String) :
    h.answer (.createFolder path) =
      ((h.disk.makeAt h.working path).1,
        { h with disk := (h.disk.makeAt h.working path).2 }) := by
  unfold Host.answer Disk.makeAt
  dsimp only
  cases Disk.requirePath path <;> rfl

/-- Folders are made as if they had not been made before. -/
theorem Host.createFolder_again (h : Host) (path : String) :
    (h.answer (.createFolder path)).2.answer (.createFolder path) =
      h.answer (.createFolder path) := by
  simp only [Host.answer_createFolder, Disk.makeAt_again]
  rfl

namespace World

variable {α : Type}

/-! ## Requests -/

theorem answer_eq_of_not_struck {t : Trouble} {w : World} {q : Request} (h : t q = none) :
    w.answer t q =
      ((w.host.answer q).1,
        { w with host := (w.host.answer q).2, offers := w.offers ++ q.offer }) := by
  unfold World.answer Host.answerAmid
  rw [h]

/-- A step that leaves the host as it is and hands nothing on changes nothing. -/
theorem answer_snd_eq {t : Trouble} {w : World} {q : Request} (ho : q.offer = [])
    (hh : (w.host.answerAmid t q).2 = w.host) : (w.answer t q).2 = w := by
  unfold World.answer
  rw [hh, ho, List.append_nil]

theorem readText_eq (path : String) :
    Plan.readText path = Plan.request (.read path) >>= fun r => pure (textOf r) := by
  unfold Plan.readText
  congr 1
  funext r
  cases r with
  | error f => rfl
  | ok bytes =>
    dsimp only [textOf]
    cases String.fromUTF8? bytes <;> rfl

theorem answerAmid_read (t : Trouble) (h : Host) (path : String) :
    (h.answerAmid t (.read path)).2 = h := by
  unfold Host.answerAmid
  cases t (.read path) <;> rfl

theorem answer_of_silent {t : Trouble} {w : World} {q : Request} (h : t q = none)
    (ho : q.offer = []) :
    w.answer t q = ((w.host.answer q).1, { w with host := (w.host.answer q).2 }) := by
  rw [answer_eq_of_not_struck h, ho, List.append_nil]

/-- A step that is struck fails, and most steps then change nothing. -/
theorem answer_of_struck {t : Trouble} {w : World} {q : Request} {m : Mishap} {a : q.Answer}
    (h : t q = some m) (ha : q.failure m.fault = some a) (ho : q.offer = [])
    (hm : w.host.afterMishap m q = w.host) : w.answer t q = (a, w) := by
  have hanswer : w.host.answerAmid t q = (a, w.host) := by
    unfold Host.answerAmid
    rw [h]
    dsimp only
    rw [ha, hm]
  refine Prod.ext ?_ (answer_snd_eq ho (congrArg Prod.snd hanswer))
  show (w.host.answerAmid t q).1 = a
  rw [hanswer]

/-- Reading changes nothing. -/
theorem follow_readText (t : Trouble) (w : World) (path : String) :
    (w.follow t (Plan.readText path)).2 = w := by
  rw [readText_eq, follow_bind, follow_request]
  exact answer_snd_eq rfl (answerAmid_read t w.host path)

/-- Trouble keeps a file from being read at all, or does not matter. -/
theorem follow_readText_cases (t : Trouble) (w : World) (path : String) :
    (∃ m, t (.read path) = some m ∧ w.follow t (Plan.readText path) = (.error m.fault, w)) ∨
      w.follow t (Plan.readText path) =
        (textOf (w.host.disk.fileAt w.host.working path), w) := by
  have hsame := follow_readText t w path
  have hanswer : (w.follow t (Plan.readText path)).1 = textOf (w.answer t (.read path)).1 := by
    rw [readText_eq, follow_bind, follow_request]
    rfl
  cases ht : t (.read path) with
  | none =>
    right
    refine Prod.ext ?_ hsame
    rw [hanswer, answer_eq_of_not_struck ht]
    rfl
  | some m =>
    refine .inl ⟨m, rfl, Prod.ext ?_ hsame⟩
    rw [hanswer]
    unfold answer Host.answerAmid
    rw [ht]
    rfl

theorem follow_readText_of_spared {t : Trouble} (ht : t.SparesReading) (w : World)
    (path : String) :
    w.follow t (Plan.readText path) =
      (textOf (w.host.disk.fileAt w.host.working path), w) := by
  rcases follow_readText_cases t w path with ⟨m, hm, -⟩ | h
  · rw [ht.read path] at hm
    cases hm
  · exact h

/-! ## The folder -/

theorem run_checkKey (t : Trouble) (w : World) {key : String} (hk : Store.isKey key = true) :
    w.run t (Store.checkKey key) = (.ok (), w) := by
  unfold Store.checkKey
  rw [if_pos hk]
  rfl

theorem run_checkKey_of_not (t : Trouble) (w : World) {key : String}
    (hk : ¬ Store.isKey key = true) :
    w.run t (Store.checkKey key) = (.error (.invalidKey key), w) := by
  unfold Store.checkKey
  rw [if_neg hk]
  rfl

theorem run_access {t : Trouble} {w w' : World} {p : Plan (Except FileFault α)}
    {a : Except FileFault α} (h : w.follow t p = (a, w')) (path : String) :
    w.run t (Store.access path p) = (a.mapError (Store.Error.io path), w') := by
  unfold Store.access
  rw [run_bind, run_plan, h]
  cases a <;> rfl

theorem run_ensureFolder_of_made (t : Trouble) {w : World} (h : w.store.made = true) :
    w.run t Store.ensureFolder = (.ok w.store.folder, w) := by
  unfold Store.ensureFolder
  rw [run_bind, run_get]
  simp only [h, Bool.not_true, Bool.false_eq_true, if_false]
  rfl

theorem run_ensureFolder_of_not_made (t : Trouble) {w : World} (h : w.store.made = false) :
    w.run t Store.ensureFolder =
      match w.answer t (.createFolder w.store.folder) with
      | (.ok (), w') => (.ok w.store.folder, w'.withStore { w.store with made := true })
      | (.error f, w') => (.error (.io w.store.folder f), w') := by
  unfold Store.ensureFolder
  rw [run_bind, run_get]
  simp only [h, Bool.not_false, if_true]
  rcases hq : w.answer t (.createFolder w.store.folder) with ⟨a, w'⟩
  have hmake := run_access (α := Unit) (p := Plan.request (.createFolder w.store.folder)) hq
    w.store.folder
  rw [run_bind, hmake]
  cases a <;> rfl

/-- Opening a store changes nothing, or makes the folder and what the store knows of it. -/
theorem run_ensureFolder_snd (t : Trouble) (w : World) :
    (w.run t Store.ensureFolder).2 = w ∨
      ∃ made, (w.run t Store.ensureFolder).2 =
        (w.answer t (.createFolder w.store.folder)).2.withStore ⟨w.store.folder, made⟩ := by
  cases hm : w.store.made with
  | true => exact .inl (by rw [run_ensureFolder_of_made t hm])
  | false =>
    have hstore : (w.answer t (.createFolder w.store.folder)).2.store = w.store := rfl
    right
    rw [run_ensureFolder_of_not_made t hm]
    rcases ha : w.answer t (.createFolder w.store.folder) with ⟨_ | _, w'⟩ <;> rw [ha] at hstore
    · exact ⟨w.store.made, congrArg w'.withStore hstore⟩
    · exact ⟨true, rfl⟩

/-- Trouble keeps the folder from being made at all, or does not matter. -/
theorem run_ensureFolder_cases (t : Trouble) (w : World) :
    (∃ e, w.run t Store.ensureFolder = (.error e, w)) ∨
      w.run t Store.ensureFolder = w.run calm Store.ensureFolder := by
  cases hm : w.store.made with
  | true => exact .inr (by rw [run_ensureFolder_of_made t hm, run_ensureFolder_of_made calm hm])
  | false =>
    rw [run_ensureFolder_of_not_made t hm, run_ensureFolder_of_not_made calm hm]
    cases ht : t (.createFolder w.store.folder) with
    | none =>
      right
      rw [answer_eq_of_not_struck ht, answer_eq_of_not_struck (t := calm) rfl]
    | some m =>
      left
      refine ⟨.io w.store.folder m.fault, ?_⟩
      have hq : w.answer t (.createFolder w.store.folder) = (.error m.fault, w) :=
        answer_of_struck ht rfl rfl rfl
      rw [hq]

theorem run_ensureFolder_of_spared {t : Trouble} (ht : t.SparesReading) (w : World) :
    w.run t Store.ensureFolder = w.run calm Store.ensureFolder := by
  cases hm : w.store.made with
  | true => rw [run_ensureFolder_of_made t hm, run_ensureFolder_of_made calm hm]
  | false =>
    rw [run_ensureFolder_of_not_made t hm, run_ensureFolder_of_not_made calm hm,
      answer_eq_of_not_struck (ht.createFolder _), answer_eq_of_not_struck (t := calm) rfl]

theorem run_ensureFolder_again (w : World) :
    (w.run calm Store.ensureFolder).2.run calm Store.ensureFolder =
      w.run calm Store.ensureFolder := by
  cases hm : w.store.made with
  | true => rw [run_ensureFolder_of_made calm hm, run_ensureFolder_of_made calm hm]
  | false =>
    have hagain := w.host.createFolder_again w.store.folder
    rw [run_ensureFolder_of_not_made calm hm, answer_of_silent (t := calm) rfl rfl]
    rcases hq : w.host.answer (.createFolder w.store.folder) with ⟨f | _, h'⟩
    · rw [hq] at hagain
      have hw := run_ensureFolder_of_not_made calm (w := { w with host := h' }) hm
      rw [answer_of_silent (t := calm) rfl rfl] at hw
      dsimp only at hw hagain ⊢
      rw [hagain] at hw
      exact hw
    · exact run_ensureFolder_of_made calm rfl

/-- Where the folder is there, opening the store changes only what the store knows. -/
theorem run_ensureFolder_of_folder {w : World} {q : Path} (t : Trouble)
    (hpath : Disk.requirePath w.store.folder = .ok ())
    (hq : w.host.disk.folderAt w.host.working w.store.folder = .ok q) :
    w.run t Store.ensureFolder =
      match w.store.made, t (.createFolder w.store.folder) with
      | false, some m => (.error (.io w.store.folder m.fault), w)
      | _, _ => (.ok w.store.folder, w.withStore ⟨w.store.folder, true⟩) := by
  cases hm : w.store.made with
  | true =>
    have hsame : w.withStore ⟨w.store.folder, true⟩ = w := by
      rw [← hm]
      rfl
    rw [run_ensureFolder_of_made t hm]
    dsimp only
    rw [hsame]
  | false =>
    rw [run_ensureFolder_of_not_made t hm]
    cases ht : t (.createFolder w.store.folder) with
    | none =>
      have hanswer : w.answer t (.createFolder w.store.folder) = (.ok (), w) := by
        rw [answer_of_silent ht rfl, Host.answer_createFolder, Disk.makeAt_of_folderAt hpath hq]
      rw [hanswer]
    | some m =>
      have hanswer : w.answer t (.createFolder w.store.folder) = (.error m.fault, w) :=
        answer_of_struck ht rfl rfl rfl
      rw [hanswer]

theorem run_ensureFolder_ok {t : Trouble} {w w' : World} {folder : String}
    (h : w.run t Store.ensureFolder = (.ok folder, w')) :
    w'.store = ⟨folder, true⟩ ∧ w.store.folder = folder := by
  cases hm : w.store.made with
  | true =>
    rw [run_ensureFolder_of_made t hm] at h
    obtain ⟨hf, rfl⟩ := Prod.mk.inj h
    obtain rfl : w.store.folder = folder := by simpa using hf
    exact ⟨by rw [← hm], rfl⟩
  | false =>
    rw [run_ensureFolder_of_not_made t hm] at h
    rcases hq : w.answer t (.createFolder w.store.folder) with ⟨_ | _, w₁⟩
    · rw [hq] at h
      simp at h
    · rw [hq] at h
      obtain ⟨hf, rfl⟩ := Prod.mk.inj h
      obtain rfl : w.store.folder = folder := by simpa using hf
      exact ⟨rfl, rfl⟩

/-! ## Records -/

/-- The path of the file that has this name in the store's folder, and what the file holds, when
nothing fails. -/
def entry (w : World) (name : String) :
    Except Store.Error (String × Except FileFault ByteArray) :=
  match w.run calm Store.ensureFolder with
  | (.ok folder, w') =>
    .ok (joinPath folder name, w'.host.disk.fileAt w'.host.working (joinPath folder name))
  | (.error e, _) => .error e

theorem entry_of_made {w : World} (hm : w.store.made = true) (name : String) :
    w.entry name = .ok (joinPath w.store.folder name,
      w.host.disk.fileAt w.host.working (joinPath w.store.folder name)) := by
  unfold entry
  rw [run_ensureFolder_of_made calm hm]

/-- Where the folder is there, it does not matter whether the store has been opened. -/
theorem entry_of_folder {w : World} {q : Path} (hpath : Disk.requirePath w.store.folder = .ok ())
    (hq : w.host.disk.folderAt w.host.working w.store.folder = .ok q) (name : String) :
    w.entry name = .ok (joinPath w.store.folder name,
      w.host.disk.fileAt w.host.working (joinPath w.store.folder name)) := by
  unfold entry
  rw [run_ensureFolder_of_folder calm hpath hq]
  cases w.store.made <;> rfl

/-- Opening a store does not change what its files hold. -/
theorem entry_ensureFolder (t : Trouble) (w : World) (name : String) :
    (w.run t Store.ensureFolder).2.entry name = w.entry name := by
  rcases run_ensureFolder_cases t w with ⟨e, he⟩ | hc
  · rw [he]
  · rw [hc]
    unfold entry
    rw [run_ensureFolder_again]

/-- What the text of a record's file tells. -/
def told (path : String) :
    Except FileFault String → Except Store.Error (Option Identity)
  | .error .notFound => .ok none
  | .error fault => .error (.io path fault)
  | .ok s =>
    match Store.readRecord s with
    | .ok i => .ok (some i)
    | .error fault => .error (.malformedRecord path fault)

theorem told_of_fault {path : String} {fault : FileFault} (h : fault ≠ .notFound) :
    told path (.error fault) = .error (.io path fault) := by
  cases fault with
  | notFound => exact absurd rfl h
  | other cause => rfl

theorem run_get?_of_not_key (t : Trouble) (w : World) {key : String}
    (hk : ¬ Store.isKey key = true) :
    w.run t (Store.get? key) = (.error (.invalidKey key), w) := by
  unfold Store.get?
  rw [run_bind, run_checkKey_of_not t w hk]

/-- A lookup opens the store and reads one file. -/
theorem run_get? (t : Trouble) (w : World) {key : String} (hk : Store.isKey key = true) :
    w.run t (Store.get? key) =
      match w.run t Store.ensureFolder with
      | (.ok folder, w') =>
        (told (joinPath folder key)
          (w'.follow t (Plan.readText (joinPath folder key))).1, w')
      | (.error e, w') => (.error e, w') := by
  unfold Store.get?
  rw [run_bind, run_checkKey t w hk]
  simp only
  rw [run_bind]
  rcases w.run t Store.ensureFolder with ⟨_ | folder, w'⟩
  · rfl
  · simp only
    rw [run_bind, run_plan, follow_readText]
    simp only
    rcases (w'.follow t (Plan.readText (joinPath folder key))).1 with (_ | cause) | s
    · rfl
    · rfl
    · dsimp only [told]
      cases Store.readRecord s <;> rfl

/-- Behind the opening of the store a lookup changes nothing. -/
theorem run_get?_snd (t : Trouble) (w : World) {key : String} (hk : Store.isKey key = true) :
    (w.run t (Store.get? key)).2 = (w.run t Store.ensureFolder).2 := by
  rw [run_get? t w hk]
  rcases w.run t Store.ensureFolder with ⟨_ | folder, w'⟩ <;> rfl

/-- What the store tells of a key when nothing fails. -/
def record (w : World) (key : String) : Except Store.Error (Option Identity) :=
  (w.run calm (Store.get? key)).1

/-- The record of a key is what the file of its name tells. -/
theorem record_eq (w : World) {key : String} (hk : Store.isKey key = true) :
    w.record key =
      match w.entry key with
      | .ok (path, file) => told path (textOf file)
      | .error e => .error e := by
  unfold record entry
  rw [run_get? calm w hk]
  rcases w.run calm Store.ensureFolder with ⟨_ | folder, w'⟩
  · rfl
  · dsimp only
    rw [follow_readText_of_spared calm_sparesReading]

theorem record_of_entry {w w' : World} {key : String} (hk : Store.isKey key = true)
    (h : w'.entry key = w.entry key) : w'.record key = w.record key := by
  rw [record_eq w' hk, record_eq w hk, h]

/-- A file that reads as a record tells its watermark. -/
theorem record_of_readRecord {w : World} {key path s : String} {i : Identity}
    (hk : Store.isKey key = true) (hf : w.entry key = .ok (path, .ok s.toUTF8))
    (hs : Store.readRecord s = .ok i) : w.record key = .ok (some i) := by
  rw [record_eq w hk, hf]
  dsimp only [textOf]
  rw [fromUTF8?_toUTF8]
  dsimp only [told]
  rw [hs]

/-- Opening a store does not change what it tells. -/
theorem record_ensureFolder (t : Trouble) (w : World) {key : String}
    (hk : Store.isKey key = true) :
    (w.run t Store.ensureFolder).2.record key = w.record key :=
  record_of_entry hk (entry_ensureFolder t w key)

/-- A lookup that succeeds tells the record. -/
theorem record_of_run_get? {t : Trouble} {w : World} {key : String} {last : Option Identity}
    (ht : t.Honest) (hk : Store.isKey key = true)
    (h : (w.run t (Store.get? key)).1 = .ok last) : w.record key = .ok last := by
  unfold record
  rw [run_get? t w hk] at h
  rw [run_get? calm w hk]
  rcases run_ensureFolder_cases t w with ⟨e, he⟩ | hopen
  · rw [he] at h
    cases h
  · rw [hopen] at h
    rcases hr : w.run calm Store.ensureFolder with ⟨_ | folder, w₁⟩ <;> rw [hr] at h
    · cases h
    · dsimp only at h ⊢
      rw [follow_readText_of_spared calm_sparesReading]
      rcases follow_readText_cases t w₁ (joinPath folder key) with ⟨m, hm, hfailed⟩ | hread
      · rw [hfailed] at h
        cases (told_of_fault (ht _ m hm)).symm.trans h
      · rw [hread] at h
        exact h

end World
end LogWatch
