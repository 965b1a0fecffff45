import LogWatch.Proofs.Moments
import LogWatch.Proofs.Store.Calm

/-!
# Saves that are interrupted

Up to its last step a save works on the temporary file, which no lookup reads, and the last step
puts that file in the place of the record at once.  So a save that is stopped, or fails, leaves
every record as it was, on any disk.  What it leaves in the temporary file does not matter to a
later save, which starts by emptying it.

    entry_opened: what a new store finds is in the file of the key, once the folder is made
-/

namespace LogWatch

namespace Disk

variable {d : Disk} {working q : Path} {folder name other : String}

/-- Folders of which some have been made before are made as if none had been. -/
theorem makeFolders_take (d : Disk) (p : Path) (names : List String) (n : Nat) :
    (d.makeFolders p (names.take n)).2.makeFolders p names = d.makeFolders p names := by
  induction names generalizing d p n with
  | nil =>
    rw [List.take_nil]
    rfl
  | cons name names ih =>
    cases n with
    | zero => rfl
    | succ n =>
      rw [List.take_succ_cons]
      cases hs : step p name with
      | error f => simp only [makeFolders, hs]
      | ok q =>
        cases hq : d.get? q with
        | none =>
          have hmade : (d.set q .folder).get? q = some .folder :=
            get?_set_same (ne_nil_of_not_folder (d := d) (by simp [hq])) _
          have hkept := makeFolders_keepsNodes _ q (names.take n) q _ hmade
          simp only [makeFolders, hs, hq, hkept]
          exact ih _ q n
        | some node =>
          cases node with
          | folder =>
            have hkept := makeFolders_keepsNodes d q (names.take n) q _ hq
            simp only [makeFolders, hs, hq, hkept]
            exact ih d q n
          | file bytes => simp only [makeFolders, hs, hq]

theorem requirePath_of_locate (hn : PlainName name)
    (hl : d.locate working (joinPath folder name) = .ok q) : requirePath folder = .ok () := by
  rw [locate_joinPath d working folder hn] at hl
  obtain ⟨_, hpath, -⟩ := bind_eq_ok.mp hl
  exact requirePath_folder hpath hn

end Disk

namespace World

variable {t : Trouble} {w w' : World} {h h' : Host} {p q : Path}
  {folder key name other : String} {e : Event}

/-- A store newly opened over a folder. -/
def opened (folder : String) (h : Host) : World := { store := ⟨folder, false⟩, host := h }

theorem entry_opened (folder : String) (h : Host) (name : String) :
    (opened folder h).entry name =
      match h.disk.makeAt h.working folder with
      | (.ok (), d) => .ok (joinPath folder name, d.fileAt h.working (joinPath folder name))
      | (.error f, _) => .error (.io folder f) := by
  unfold entry
  rw [run_ensureFolder_of_not_made calm rfl, answer_of_silent (t := calm) rfl rfl]
  unfold opened
  dsimp only
  rw [Host.answer_createFolder]
  rcases h.disk.makeAt h.working folder with ⟨_ | _, d⟩ <;> rfl

/-- What is done to one file of the folder is not seen at another. -/
theorem entry_of_sameFile_beside (ho : PlainName other)
    (hl : w.host.disk.locate w.host.working (joinPath w.store.folder other) = .ok p)
    (hw : w'.store.folder = w.store.folder) (hk : w.host.disk.KeepsFolders w'.host.disk)
    (hs : Host.SameFile (joinPath w.store.folder name) w.host w'.host) :
    w'.entry name = w.entry name := by
  have hpath := Disk.requirePath_of_locate ho hl
  obtain ⟨q, hq, -⟩ := Disk.locate_joinPath_eq_ok ho hl
  have hq' : w'.host.disk.folderAt w'.host.working w.store.folder = .ok q := by
    rw [hs.working]
    exact hk.folderAt hq
  rw [← hw] at hpath hq'
  rw [entry_of_folder hpath hq', hw, entry_of_folder (hw ▸ hpath) hq, hs.file]

theorem entry_opened_change {f : Path → Disk.Outcome Disk} (ho : PlainName other)
    (hk : ∀ p d, h.disk.locate h.working (joinPath folder other) = .ok p → f p = .ok d →
      h.disk.KeepsFolders d)
    (hs : Host.SameFile (joinPath folder name) h (h.change (joinPath folder other) f).2) :
    (opened folder (h.change (joinPath folder other) f).2).entry name =
      (opened folder h).entry name := by
  rcases hc : h.change (joinPath folder other) f with ⟨_ | _, h'⟩
  · rw [Host.change_eq_error hc]
  · rw [hc] at hs
    obtain ⟨p, d, hp, hd, rfl⟩ := Host.change_eq_ok hc
    exact entry_of_sameFile_beside (w := opened folder h) ho hp rfl (hk p d hp hd) hs

/-! ## The steps of a save -/

theorem entry_opened_createFolder :
    (opened folder (h.answer (.createFolder folder)).2).entry name =
      (opened folder h).entry name := by
  rw [entry_opened, entry_opened, Host.answer_createFolder]
  dsimp only
  rw [Disk.makeAt_again]

theorem entry_opened_partly_createFolder (hp : h.Partly (.createFolder folder) h') :
    (opened folder h').entry name = (opened folder h).entry name := by
  cases hp with
  | folders path n hpath =>
    rw [entry_opened, entry_opened]
    unfold Disk.makeAt
    dsimp only
    rw [hpath]
    dsimp only
    rw [Disk.makeFolders_take]

theorem entry_opened_create (hn : PlainName name) (ho : PlainName other) (hne : name ≠ other) :
    (opened folder (h.answer (.create (joinPath folder other))).2).entry name =
      (opened folder h).entry name :=
  entry_opened_change ho (fun _ _ _ hd => (Disk.writes_of_create hd).folders)
    (h.sameFile_create hn ho hne)

theorem entry_opened_append (hn : PlainName name) (ho : PlainName other) (hne : name ≠ other)
    (bytes : ByteArray) :
    (opened folder (h.answer (.append (joinPath folder other) bytes)).2).entry name =
      (opened folder h).entry name := by
  refine entry_opened_change ho (fun _ _ _ hd => ?_) (h.sameFile_append hn ho hne bytes)
  obtain ⟨before, -, hw⟩ := Disk.writes_of_append hd
  exact hw.folders

theorem entry_opened_rename {target : String} (hn : PlainName name) (ho : PlainName other)
    (ht : PlainName target) (hne : name ≠ other) (hnt : name ≠ target) :
    (opened folder (h.answer (.rename (joinPath folder other) (joinPath folder target))).2).entry
      name = (opened folder h).entry name := by
  refine entry_opened_change ho (fun _ _ _ hd => ?_) (h.sameFile_rename hn ho ht hne hnt)
  obtain ⟨_, -, hd⟩ := bind_eq_ok.mp hd
  obtain ⟨bytes, -, hk, hw⟩ := Disk.writes_of_rename hd
  exact fun p hp => hw.folders p (hk p hp)

theorem spares_prepare (folder : String) (hn : PlainName name) (ho : PlainName other)
    (hne : name ≠ other) (bytes : ByteArray) :
    Spares (fun h => (opened folder h).entry name)
      (Store.prepare (joinPath folder other) bytes) := by
  unfold Store.prepare
  refine spares_bind ?_ fun _ => spares_bind ?_ fun _ => ?_
  · exact spares_access _ (fun _ _ _ => meets_request) (fun _ => entry_opened_create hn ho hne)
      (fun _ _ => rfl) fun _ _ hp => absurd hp (Host.not_partly rfl)
  · refine spares_access _ (fun _ _ _ => meets_request)
      (fun _ => entry_opened_append hn ho hne bytes) (fun _ _ => entry_opened_append hn ho hne _) ?_
    rintro h h' ⟨⟩
    exact entry_opened_append hn ho hne _
  · exact spares_access _ (fun _ _ _ => meets_request) (fun _ => rfl) (fun _ _ => rfl)
      fun _ _ hp => absurd hp (Host.not_partly rfl)

/-! ## All moments of a save -/

/-- A save of the record that is stopped has left all but the temporary file, or is done. -/
theorem passes_write {bytes : ByteArray} (hk : Store.isKey key = true)
    (hp : w.Passes t (Store.write folder key bytes) h) :
    (∀ name, PlainName name → name ≠ Store.temporary key →
        (opened folder h).entry name = (opened folder w.host).entry name) ∨
      ∃ w', w.run t (Store.write folder key bytes) = (.ok (), w') ∧ h = w'.host := by
  have hspared (name : String) (hn : PlainName name) (ht : name ≠ Store.temporary key) :=
    spares_prepare folder hn (Store.plainName_temporary hk) ht bytes t w
  obtain hfirst | ⟨_, w₁, hprepare, hrename⟩ := passes_bind hp
  · exact .inl fun name hn ht => hspared name hn ht h hfirst
  · have hlast := passes_last t w (Store.prepare (joinPath folder (Store.temporary key)) bytes)
    rw [hprepare] at hlast
    have hsame (name : String) (hn : PlainName name) (ht : name ≠ Store.temporary key) :=
      hspared name hn ht w₁.host hlast
    obtain rfl | hstopped | rfl := meets_request (passes_access hrename)
    · exact .inl hsame
    · exact absurd hstopped (Host.not_partly rfl)
    · rcases ha : w₁.answer t (.rename (joinPath folder (Store.temporary key))
        (joinPath folder key)) with ⟨fault | _, w'⟩
      · obtain ⟨hanswer, -⟩ := Prod.mk.inj ha
        have hhost : (w₁.host.answerAmid t (.rename (joinPath folder (Store.temporary key))
            (joinPath folder key))).2 = w₁.host :=
          Host.rename_error (Prod.ext hanswer rfl)
        rw [hhost]
        exact .inl hsame
      · refine .inr ⟨w', ?_, congrArg (World.host ∘ Prod.snd) ha⟩
        exact (run_bind_of_ok hprepare _).trans (run_access_eq_ok.mpr ha)

theorem entry_opened_write {bytes : ByteArray} (hk : Store.isKey key = true)
    (hrun : w.run t (Store.write folder key bytes) = (.ok (), w')) :
    (opened folder w'.host).entry key = .ok (joinPath folder key, .ok bytes) ∧
      ∀ name, PlainName name → name ≠ Store.temporary key → name ≠ key →
        (opened folder w'.host).entry name = (opened folder w.host).entry name := by
  constructor
  · have hn := Store.plainName_of_isKey hk
    obtain ⟨-, hfile⟩ := Store.fileAt_write hk hrun
    obtain ⟨p, hl, -⟩ := Disk.locate_of_fileAt hfile
    obtain ⟨q, hq, -⟩ := Disk.locate_joinPath_eq_ok hn hl
    rw [entry_of_folder (w := opened folder w'.host) (Disk.requirePath_of_locate hn hl) hq]
    exact congrArg (fun file => Except.ok (joinPath folder key, file)) hfile
  · intro name hn ht hne
    obtain ⟨_, w₁, hprepare, hrename⟩ := run_bind_eq_ok.mp hrun
    have hspared := spares_prepare folder hn (Store.plainName_temporary hk) ht bytes
      t w _ (passes_last t w _)
    rw [hprepare] at hspared
    have hanswer := host_answer_of_no_failure (run_access_eq_ok.mp hrename) nofun
    have hrenamed : (opened folder (w₁.host.answer (.rename
        (joinPath folder (Store.temporary key)) (joinPath folder key))).2).entry name =
          (opened folder w₁.host).entry name :=
      entry_opened_rename hn (Store.plainName_temporary hk) (Store.plainName_of_isKey hk) ht hne
    rw [hanswer] at hrenamed
    exact hrenamed.trans hspared

/-- The host that opening the store leaves behind holds the same records. -/
theorem passes_ensureFolder (hp : w.Passes t Store.ensureFolder h) (name : String) :
    (opened w.store.folder h).entry name = (opened w.store.folder w.host).entry name := by
  unfold Store.ensureFolder at hp
  obtain hget | ⟨_, w₁, hrun, hp⟩ := passes_bind hp
  · rw [passes_done rfl hget]
  · rw [run_get] at hrun
    obtain ⟨hstore, rfl⟩ := Prod.mk.inj hrun
    obtain rfl := Except.ok.inj hstore
    cases hm : w.store.made with
    | true =>
      simp only [hm, Bool.not_true, Bool.false_eq_true, if_false] at hp
      rw [passes_done rfl hp]
    | false =>
      simp only [hm, Bool.not_false, if_true] at hp
      have hcreate : w.host.Meets t (Plan.request (.createFolder w.store.folder)) h := by
        obtain hp | ⟨_, w₂, hrun, hp⟩ := passes_bind hp
        · exact passes_access hp
        · have hmade := congrArg (World.host ∘ Prod.snd) (run_access_eq_ok.mp hrun)
          rw [(passes_done rfl hp).trans hmade.symm]
          exact meets_last t w (Plan.request (.createFolder w.store.folder))
      obtain rfl | hstopped | rfl := meets_request hcreate
      · rfl
      · exact entry_opened_partly_createFolder hstopped
      · exact Host.answerAmid_of (P := fun h => (opened _ h).entry name = _)
          entry_opened_createFolder fun _ => rfl

/-- A save that is stopped has left every file but the temporary one, or is done. -/
theorem passes_save (hk : Store.isKey key = true) (hp : w.Passes t (Store.save key e) h) :
    (∀ name, PlainName name → name ≠ Store.temporary key →
        (opened w.store.folder h).entry name = (opened w.store.folder w.host).entry name) ∨
      ∃ w', w.run t (Store.save key e) = (.ok (), w') ∧ h = w'.host := by
  rw [Store.save_eq hk] at hp ⊢
  obtain hopening | ⟨folder, w₁, hopen, hwriting⟩ := passes_bind hp
  · exact .inl fun name _ _ => passes_ensureFolder hopening name
  · have hopened := passes_ensureFolder (passes_last t w Store.ensureFolder)
    obtain ⟨-, rfl⟩ := run_ensureFolder_ok hopen
    rw [hopen] at hopened
    obtain hsame | ⟨w', hrun, rfl⟩ := passes_write hk hwriting
    · exact .inl fun name hn ht => (hsame name hn ht).trans (hopened name)
    · exact .inr ⟨w', (run_bind_of_ok hopen _).trans hrun, rfl⟩

theorem entry_opened_save (hrun : w.run t (Store.save key e) = (.ok (), w')) :
    (opened w.store.folder w'.host).entry key =
        .ok (joinPath w.store.folder key, .ok (Store.recordText e.identity).toUTF8) ∧
      ∀ name, PlainName name → name ≠ Store.temporary key → name ≠ key →
        (opened w.store.folder w'.host).entry name = (opened w.store.folder w.host).entry name := by
  have hk := (fileAt_save hrun).1
  rw [Store.save_eq hk] at hrun
  obtain ⟨folder, w₁, hopen, hwrite⟩ := run_bind_eq_ok.mp hrun
  have hopened := passes_ensureFolder (passes_last t w Store.ensureFolder)
  obtain ⟨-, rfl⟩ := run_ensureFolder_ok hopen
  rw [hopen] at hopened
  obtain ⟨hown, hothers⟩ := entry_opened_write hk hwrite
  exact ⟨hown, fun name hn ht hne => (hothers name hn ht hne).trans (hopened name)⟩

/-! ## Left-over files -/

/-- A world without the file at a place. -/
def without (w : World) (p : Path) : World := w.onDisk (w.host.disk.erase p)

/-- A file has been left at the place of a name in the folder. -/
structure LeftOver (w : World) (name : String) (p : Path) : Prop where
  place : w.host.disk.locate w.host.working (joinPath w.store.folder name) = .ok p
  file : ∃ bytes, w.host.disk.get? p = some (.file bytes)

namespace LeftOver

theorem not_folder (hl : LeftOver w other p) : w.host.disk.get? p ≠ some .folder := by
  obtain ⟨bytes, hfile⟩ := hl.file
  rw [hfile]
  simp

theorem entry_without (hl : LeftOver w other p) (hn : PlainName name) (ho : PlainName other)
    (hne : name ≠ other) : (w.without p).entry name = w.entry name := by
  have hk := Disk.keepsFolders_erase hl.not_folder
  refine entry_of_sameFile_beside ho hl.place rfl hk ⟨rfl, ?_⟩
  obtain ⟨q, hq, rfl⟩ := Disk.locate_joinPath_eq_ok ho hl.place
  exact Disk.fileAt_joinPath_congr hn hq hk (Disk.get?_erase_other _ (by simpa using hne))

theorem withStore {s : Store} (hl : LeftOver w name p) (hs : s.folder = w.store.folder) :
    LeftOver (w.withStore s) name p where
  place := by
    show w.host.disk.locate w.host.working (joinPath s.folder name) = .ok p
    rw [hs]
    exact hl.place
  file := hl.file

theorem run_ensureFolder (hl : LeftOver w other p) (ho : PlainName other) (t : Trouble) :
    ∃ r s, s.folder = w.store.folder ∧ w.run t Store.ensureFolder = (r, w.withStore s) ∧
      (w.without p).run t Store.ensureFolder = (r, (w.without p).withStore s) := by
  have hpath := Disk.requirePath_of_locate ho hl.place
  obtain ⟨q, hq, -⟩ := Disk.locate_joinPath_eq_ok ho hl.place
  have hq' := (Disk.keepsFolders_erase hl.not_folder).folderAt hq
  have hmet := run_ensureFolder_of_folder t hpath hq
  have hclean := run_ensureFolder_of_folder (w := w.without p) t hpath hq'
  rw [show (w.without p).store = w.store from rfl] at hclean
  cases hm : w.store.made with
  | true =>
    rw [hm] at hmet hclean
    exact ⟨_, ⟨w.store.folder, true⟩, rfl, hmet, hclean⟩
  | false =>
    cases ht : t (.createFolder w.store.folder) with
    | none =>
      rw [hm, ht] at hmet hclean
      exact ⟨_, ⟨w.store.folder, true⟩, rfl, hmet, hclean⟩
    | some m =>
      rw [hm, ht] at hmet hclean
      exact ⟨_, w.store, rfl, hmet, hclean⟩

/-- The left-over file is emptied, or cannot be. -/
theorem answer_create (hl : LeftOver w name p) (t : Trouble) :
    (∃ f, w.answer t (.create (joinPath w.store.folder name)) = (.error f, w) ∧
      (w.without p).answer t (.create (joinPath w.store.folder name)) =
        (.error f, w.without p)) ∨
      w.answer t (.create (joinPath w.store.folder name)) =
        (w.without p).answer t (.create (joinPath w.store.folder name)) := by
  cases ht : t (.create (joinPath w.store.folder name)) with
  | some m =>
    exact .inl ⟨m.fault, answer_of_struck ht rfl rfl rfl, answer_of_struck ht rfl rfl rfl⟩
  | none =>
    right
    have hp := Disk.ne_nil_of_not_folder hl.not_folder
    have hfree : (w.host.disk.erase p).get? p ≠ some .folder := by
      rw [Disk.get?_erase _ hp, if_pos rfl]
      simp
    have hplace := (Disk.keepsFolders_erase hl.not_folder).locate hl.place
    have hmet : w.host.answer (.create (joinPath w.store.folder name)) =
        (.ok (), (w.onDisk (w.host.disk.set p (.file .empty))).host) :=
      Host.change_of_ok hl.place (Disk.create_eq_ok.mpr ⟨hl.not_folder, rfl⟩)
    have hclean : (w.without p).host.answer (.create (joinPath w.store.folder name)) =
        (.ok (), (w.onDisk (w.host.disk.set p (.file .empty))).host) := by
      rw [← Disk.set_erase]
      exact Host.change_of_ok (h := (w.without p).host) hplace
        (Disk.create_eq_ok.mpr ⟨hfree, rfl⟩)
    rw [answer_of_silent ht rfl, answer_of_silent ht rfl, hmet, hclean]
    rfl

/-- Once the temporary file has been emptied, or could not be, the save has the same effect. -/
theorem run_write (hl : LeftOver w (Store.temporary key) p) (t : Trouble) (bytes : ByteArray) :
    (∃ e, w.run t (Store.write w.store.folder key bytes) = (.error e, w) ∧
      (w.without p).run t (Store.write w.store.folder key bytes) = (.error e, w.without p)) ∨
      w.run t (Store.write w.store.folder key bytes) =
        (w.without p).run t (Store.write w.store.folder key bytes) := by
  have hfirst : ∃ rest : Store.Task Unit, Store.write w.store.folder key bytes =
      Store.access (joinPath w.store.folder (Store.temporary key))
        (Plan.request (.create (joinPath w.store.folder (Store.temporary key)))) >>=
          fun _ => rest := by
    unfold Store.write Store.prepare
    rw [bind_assoc]
    exact ⟨_, rfl⟩
  obtain ⟨rest, hrest⟩ := hfirst
  have hcreate (x : World) {a : Except FileFault Unit} {x' : World}
      (hx : x.answer t (.create (joinPath w.store.folder (Store.temporary key))) = (a, x')) :
      x.run t (Store.access (joinPath w.store.folder (Store.temporary key))
        (Plan.request (.create (joinPath w.store.folder (Store.temporary key))))) =
          (a.mapError (.io (joinPath w.store.folder (Store.temporary key))), x') :=
    run_access (α := Unit) (p := Plan.request (.create _)) hx _
  rw [hrest, run_bind, run_bind]
  obtain ⟨f, hmet, hclean⟩ | hsame := hl.answer_create t
  · rw [hcreate w hmet, hcreate (w.without p) hclean]
    exact .inl ⟨_, rfl, rfl⟩
  · rw [hcreate w rfl, hcreate (w.without p) hsame.symm]
    exact .inr rfl

end LeftOver

/-- A save that meets a left-over temporary file ends as one that does not. -/
theorem LeftOver.run_save (hl : LeftOver w (Store.temporary key) p)
    (hk : Store.isKey key = true) (t : Trouble) (e : Event) :
    (w.run t (Store.save key e)).1 = ((w.without p).run t (Store.save key e)).1 ∧
      ∀ name, PlainName name → name ≠ Store.temporary key →
        (w.run t (Store.save key e)).2.entry name =
            ((w.without p).run t (Store.save key e)).2.entry name ∧
          (w.run t (Store.save key e)).2.reopened.entry name =
            ((w.without p).run t (Store.save key e)).2.reopened.entry name := by
  have ho := Store.plainName_temporary hk
  have hkept (s : Store) (hs : s.folder = w.store.folder) (name : String) (hn : PlainName name)
      (hne : name ≠ Store.temporary key) :
      (w.withStore s).entry name = ((w.without p).withStore s).entry name :=
    ((hl.withStore hs).entry_without hn ho hne).symm
  obtain ⟨r, s, hs, hmet, hclean⟩ := hl.run_ensureFolder ho t
  rw [Store.save_eq hk, run_bind, run_bind, hmet, hclean]
  cases r with
  | error f =>
    exact ⟨rfl, fun name hn hne =>
      ⟨hkept s hs name hn hne, hkept ⟨s.folder, false⟩ hs name hn hne⟩⟩
  | ok folder =>
    obtain ⟨hstore, rfl⟩ := run_ensureFolder_ok hmet
    obtain rfl : s = ⟨w.store.folder, true⟩ := hstore
    obtain ⟨e', hmet', hclean'⟩ | hsame := (hl.withStore hs).run_write t
      (Store.recordText e.identity).toUTF8
    · dsimp only
      rw [show (w.withStore ⟨w.store.folder, true⟩).run t (Store.write w.store.folder key _) = _
          from hmet',
        show ((w.without p).withStore ⟨w.store.folder, true⟩).run t
          (Store.write w.store.folder key _) = _ from hclean']
      exact ⟨rfl, fun name hn hne =>
        ⟨hkept _ hs name hn hne, hkept ⟨w.store.folder, false⟩ hs name hn hne⟩⟩
    · dsimp only
      rw [show (w.withStore ⟨w.store.folder, true⟩).run t (Store.write w.store.folder key _) = _
        from hsame]
      exact ⟨rfl, fun _ _ _ => ⟨rfl, rfl⟩⟩

end World

/-! ## Top theorem -/

namespace Store

/-- A save amid any trouble, on any disk.  Wherever it is stopped, a store newly opened over what is
left tells of every key what it would have told before, unless the save is done.  Once it is, the
store tells the saved identity of its key, and of the others what it told.  Temporary files that
are met do not matter to what a save does. -/
theorem interrupted_save_loses_nothing (t : Trouble) (w : World) {key : String} {e : Event}
    (hk : isKey key = true) (hy : e.instant.HasPlainYear) :
    let saved := w.run t (save key e)
    let told (h : Host) (other : String) := (World.opened w.store.folder h).record other
    (∀ h, w.Passes t (save key e) h →
      (∀ other, isKey other = true → told h other = told w.host other) ∨
        saved.1 = .ok () ∧ h = saved.2.host) ∧
    (saved.1 = .ok () → ∀ other, isKey other = true → told saved.2.host other =
      if other = key then .ok (some e.identity) else told w.host other) ∧
    ∀ (t' : Trouble) (v : World) (p : Path) (e' : Event), v.LeftOver (temporary key) p →
      let met := v.run t' (save key e')
      let clean := (v.without p).run t' (save key e')
      met.1 = clean.1 ∧ ∀ other, isKey other = true →
        met.2.record other = clean.2.record other ∧
          met.2.reopened.record other = clean.2.reopened.record other := by
  intro saved told
  refine ⟨fun h hp => ?_, fun hok other ho => ?_, fun t' v p e' hl => ?_⟩
  · obtain hsame | ⟨w', hrun, rfl⟩ := World.passes_save hk hp
    · left
      intro other ho
      exact World.record_of_entry ho (hsame other (plainName_of_isKey ho) (ne_temporary ho key))
    · right
      rw [show saved = _ from hrun]
      exact ⟨rfl, rfl⟩
  · obtain ⟨hown, hothers⟩ := World.entry_opened_save (Prod.ext hok rfl)
    by_cases hne : other = key
    · rw [if_pos hne, hne]
      exact (World.record_of_recordText hk hown).trans (readBack_of_plain hy _)
    · rw [if_neg hne]
      exact World.record_of_entry ho
        (hothers other (plainName_of_isKey ho) (ne_temporary ho key) hne)
  · obtain ⟨hresult, hentries⟩ := hl.run_save hk t' e'
    refine ⟨hresult, fun other ho => ?_⟩
    obtain ⟨hentry, hnew⟩ := hentries other (plainName_of_isKey ho) (ne_temporary ho key)
    exact ⟨World.record_of_entry ho hentry, World.record_of_entry ho hnew⟩

/-! ## A full disk -/

/-- The folder holds a record of a key. -/
def recorded : World where
  store := ⟨"s", false⟩
  host := { disk := ⟨[(["s", "AB"], .file (recordText (Event.identity {})).toUTF8),
    (["s"], .folder)]⟩ }

/-- Three bytes can be written, and no more. -/
def full : Trouble := fun q =>
  match q with
  | .append _ _ => some ⟨.other "No space left on device (os error 28)", 3⟩
  | _ => none

/-- The save leaves three bytes in the temporary file, and the old record to be found. -/
theorem interrupted_save_on_full_disk :
    let saved := recorded.run full (save "AB" { eventId := 1 })
    (saved.1.isOk = false ∧
      saved.2.host.disk.fileAt saved.2.host.working "s/.AB.tmp" = .ok "197".toUTF8) ∧
      (World.opened "s" saved.2.host).record "AB" = .ok (some (Event.identity {})) := by
  intro saved
  have hresult : saved.1.isOk = false ∧
      saved.2.host.disk.fileAt saved.2.host.working "s/.AB.tmp" = .ok "197".toUTF8 := by
    decide +kernel
  have hbefore : (World.opened "s" recorded.host).record "AB" = .ok (some (Event.identity {})) := by
    decide +kernel
  have hk : isKey "AB" = true := by decide +kernel
  obtain ⟨hmoments, -⟩ := interrupted_save_loses_nothing full recorded (e := { eventId := 1 })
    hk (by decide)
  refine ⟨hresult, ?_⟩
  obtain hsame | ⟨hok, -⟩ := hmoments _ (World.passes_last full recorded _)
  · exact (hsame "AB" hk).trans hbefore
  · rw [show saved.1 = _ from hok] at hresult
    exact absurd hresult.1 (by decide)

end Store
end LogWatch
