import LogWatch.Proofs.Store.Lookup

/-!
# What work on one key can touch

A key is hexadecimal digits only, so its written path, and that of its temporary file, leads to a
place right in the folder of the records, and to no other key's.  So whatever is on the disk and
whatever fails, a save changes two entries of that folder, a reset one, and a lookup none; besides,
folders that are missing on the way to it are made.  A lookup that finds nothing there says so, and
what it cannot read it reports.

    w.Touches [key, temporary key] (w.run t (save key e)).2        (touches_save)
-/

namespace LogWatch

/-! ## Folders on the way -/

namespace Disk

/-- The places that names lead through, the last one included. -/
def trail (p : Path) : List String → List Path
  | [] => []
  | name :: names =>
    match step p name with
    | .error _ => []
    | .ok q => q :: trail q names

/-- Folders are made on the way only, and where nothing was. -/
theorem makeFolders_changes {d : Disk} {p r : Path} {names : List String}
    (h : (d.makeFolders p names).2.get? r ≠ d.get? r) :
    r ∈ trail p names ∧ d.get? r = none ∧ (d.makeFolders p names).2.get? r = some .folder := by
  induction names generalizing d p with
  | nil => exact absurd rfl h
  | cons name names ih =>
    unfold makeFolders at h ⊢
    unfold trail
    cases hs : step p name with
    | error f =>
      rw [hs] at h
      exact absurd rfl h
    | ok q =>
      simp only [hs] at h ⊢
      cases hq : d.get? q with
      | none =>
        simp only [hq] at h ⊢
        by_cases hr : r = q
        · subst hr
          have hfolder : (d.set r .folder).get? r = some .folder :=
            get?_set_same (ne_nil_of_not_folder (d := d) (by simp [hq])) _
          exact ⟨List.mem_cons_self, hq, makeFolders_keepsNodes _ r names r _ hfolder⟩
        · rw [← get?_set_other d hr .folder] at h ⊢
          obtain ⟨hmem, hmade⟩ := ih h
          exact ⟨List.mem_cons_of_mem _ hmem, hmade⟩
      | some node =>
        cases node with
        | folder =>
          simp only [hq] at h ⊢
          obtain ⟨hmem, hmade⟩ := ih h
          exact ⟨List.mem_cons_of_mem _ hmem, hmade⟩
        | file bytes =>
          simp only [hq] at h
          exact absurd rfl h

/-- On the way to a folder that is there, there are folders. -/
theorem folder_of_mem_trail {d : Disk} {p q r : Path} {names : List String}
    (hw : d.walk p names = .ok q) (hq : d.get? q = some .folder) (hr : r ∈ trail p names) :
    d.get? r = some .folder := by
  induction names generalizing p with
  | nil => cases hr
  | cons name names ih =>
    obtain ⟨-, next, hs, hrest⟩ := walk_cons_eq_ok.mp hw
    unfold trail at hr
    simp only [hs] at hr
    rcases List.mem_cons.mp hr with rfl | hr
    · cases names with
      | nil =>
        obtain rfl : r = q := by simpa [Disk.walk] using hrest
        exact hq
      | cons name' names' => exact (walk_cons_eq_ok.mp hrest).1
    · exact ih hrest hr

/-- A name in a folder that is there leads to its place, or is too long. -/
theorem locate_ne_notFound {d : Disk} {working q : Path} {folder name : String}
    (hn : PlainName name) (hq : d.folderAt working folder = .ok q) :
    d.locate working (joinPath folder name) ≠ .error .notFound := by
  rw [locate_joinPath d working folder hn, hq]
  intro h
  obtain h | ⟨_, -, h⟩ := bind_eq_error.mp h
  · unfold requirePath at h
    split at h
    · cases h
    · split at h <;> cases h
  · replace h : step q name = .error .notFound := h
    rw [step_plain q hn] at h
    split at h <;> cases h

theorem get?_of_read_notFound {d : Disk} {p : Path} (h : d.read p = .error .notFound) :
    d.get? p = none := by
  unfold read at h
  split at h
  · cases h
  · cases h
  · assumption

end Disk

/-! ## What a host may change -/

namespace Host

/-- The places on the way to a written path. -/
def trail (h : Host) (path : String) : List Path :=
  Disk.trail (Disk.parts h.working path).1 (Disk.parts h.working path).2

/-- Of all the host only the disk has changed, and there only entries of these names in the folder;
but if the folder was not there, folders that were missing on the way to it may have been made.  No
folder is gone, whatever its name. -/
structure Touches (folder : String) (names : List String) (h h' : Host) : Prop where
  aside : { h' with disk := h.disk } = h
  folders : h.disk.KeepsFolders h'.disk
  changed : ∀ p, h'.disk.get? p ≠ h.disk.get? p →
    (∃ q, h'.disk.folderAt h'.working folder = .ok q ∧ ∃ name ∈ names, p = q ++ [name]) ∨
      (∀ q, h.disk.folderAt h.working folder ≠ .ok q) ∧ p ∈ h.trail folder ∧
        h.disk.get? p = none ∧ h'.disk.get? p = some .folder

variable {folder : String} {names : List String} {h h' h'' : Host}

namespace Touches

theorem working (ht : Touches folder names h h') : h'.working = h.working := by
  show { h' with disk := h.disk }.working = h.working
  rw [ht.aside]

theorem refl (folder : String) (names : List String) (h : Host) : Touches folder names h h where
  aside := rfl
  folders := fun _ hp => hp
  changed := fun _ hp => absurd rfl hp

theorem trans (ht : Touches folder names h h') (ht' : Touches folder names h' h'') :
    Touches folder names h h'' where
  aside := by
    rw [← ht.aside, ← ht'.aside]
  folders := fun p hp => ht'.folders p (ht.folders p hp)
  changed := by
    -- An entry in the folder is one whatever else is changed after it.
    have hentry {p : Path} (hp : ∃ q, h'.disk.folderAt h'.working folder = .ok q ∧
        ∃ name ∈ names, p = q ++ [name]) :
        ∃ q, h''.disk.folderAt h''.working folder = .ok q ∧ ∃ name ∈ names, p = q ++ [name] := by
      obtain ⟨q, hq, hp⟩ := hp
      rw [ht'.working]
      exact ⟨q, ht'.folders.folderAt hq, hp⟩
    have htrail : h'.trail folder = h.trail folder := by
      unfold trail
      rw [ht.working]
    intro p hp
    by_cases hlast : h''.disk.get? p = h'.disk.get? p
    · rw [hlast] at hp ⊢
      exact (ht.changed p hp).imp_left hentry
    · obtain hnamed | ⟨hmissing, hmem, hnone, hmade⟩ := ht'.changed p hlast
      · exact .inl hnamed
      · by_cases hfirst : h'.disk.get? p = h.disk.get? p
        · refine .inr ⟨fun q hq => hmissing q ?_, htrail ▸ hmem, hfirst ▸ hnone, hmade⟩
          rw [ht.working]
          exact ht.folders.folderAt hq
        · obtain hnamed | ⟨-, -, -, hmade'⟩ := ht.changed p hfirst
          · exact .inl (hentry hnamed)
          · rw [hnone] at hmade'
            cases hmade'

/-- Where the folder is there, nothing but entries of these names changes. -/
theorem get?_eq (ht : Touches folder names h h') {p q : Path}
    (hq : h.disk.folderAt h.working folder = .ok q) (hp : ∀ name ∈ names, p ≠ q ++ [name]) :
    h'.disk.get? p = h.disk.get? p := by
  by_contra hne
  obtain ⟨q', hq', name, hname, hpath⟩ | ⟨hmissing, -⟩ := ht.changed p hne
  · rw [ht.working, ht.folders.folderAt hq] at hq'
    exact hp name hname (Except.ok.inj hq' ▸ hpath)
  · exact hmissing q hq

end Touches

theorem touches_createFolder (names : List String) (h : Host) (folder : String) :
    Touches folder names h (h.answer (.createFolder folder)).2 := by
  rw [answer_createFolder]
  unfold Disk.makeAt
  cases Disk.requirePath folder with
  | error f => exact .refl folder names h
  | ok _ =>
    refine ⟨rfl, fun p hp => Disk.makeFolders_keepsNodes _ _ _ p _ hp, fun p hp => .inr ?_⟩
    obtain ⟨hmem, hnone, hmade⟩ := Disk.makeFolders_changes hp
    refine ⟨fun q hq => ?_, hmem, hnone, hmade⟩
    obtain ⟨hwalk, hfolder⟩ := Disk.folderAt_eq_ok.mp hq
    rw [Disk.folder_of_mem_trail hwalk hfolder hmem] at hnone
    cases hnone

/-! ## Steps in the folder -/

section Steps

variable (hplain : ∀ name ∈ names, PlainName name)
include hplain

/-- A step that changes nothing but what names in the folder lead to. -/
theorem touches_change {path : String} {f : Path → Disk.Outcome Disk}
    (hf : ∀ p d, h.disk.locate h.working path = .ok p → f p = .ok d →
      h.disk.KeepsFolders d ∧ ∀ r, d.get? r ≠ h.disk.get? r →
        ∃ name ∈ names, h.disk.locate h.working (joinPath folder name) = .ok r) :
    Touches folder names h (h.change path f).2 := by
  rcases hc : h.change path f with ⟨fault | _, h'⟩
  · rw [change_eq_error hc]
    exact .refl folder names h
  · obtain ⟨p, d, hp, hd, rfl⟩ := change_eq_ok hc
    obtain ⟨hfolders, hchanged⟩ := hf p d hp hd
    refine ⟨rfl, hfolders, fun r hr => .inl ?_⟩
    obtain ⟨name, hname, hl⟩ := hchanged r hr
    obtain ⟨q, hq, hr⟩ := Disk.locate_joinPath_eq_ok (hplain name hname) hl
    exact ⟨q, hfolders.folderAt hq, name, hname, hr⟩

variable {name : String}

theorem touches_write {f : Path → Disk.Outcome Disk} (hname : name ∈ names)
    (hf : ∀ p d, f p = .ok d → ∃ bytes, h.disk.Writes p bytes d) :
    Touches folder names h (h.change (joinPath folder name) f).2 := by
  refine touches_change hplain fun p d hl hd => ?_
  obtain ⟨bytes, hw⟩ := hf p d hd
  refine ⟨hw.folders, fun r hr => ⟨name, hname, ?_⟩⟩
  obtain rfl : r = p := Classical.byContradiction fun hne => hr (hw.others r hne)
  exact hl

theorem touches_create (hname : name ∈ names) (h : Host) :
    Touches folder names h (h.answer (.create (joinPath folder name))).2 :=
  touches_write hplain hname fun _ _ hd => ⟨_, Disk.writes_of_create hd⟩

theorem touches_append (hname : name ∈ names) (bytes : ByteArray) (h : Host) :
    Touches folder names h (h.answer (.append (joinPath folder name) bytes)).2 := by
  refine touches_write hplain hname fun p d hd => ?_
  obtain ⟨before, -, hw⟩ := Disk.writes_of_append hd
  exact ⟨_, hw⟩

theorem touches_rename {target : String} (hname : name ∈ names) (htarget : target ∈ names)
    (h : Host) :
    Touches folder names h
      (h.answer (.rename (joinPath folder name) (joinPath folder target))).2 := by
  refine touches_change hplain fun p d hl hd => ?_
  obtain ⟨q, hq, hd⟩ := bind_eq_ok.mp hd
  obtain ⟨bytes, -, hk, hw⟩ := Disk.writes_of_rename hd
  refine ⟨fun r hr => hw.folders r (hk r hr), fun r hr => ?_⟩
  by_cases hrq : r = q
  · exact ⟨target, htarget, hrq ▸ hq⟩
  · obtain rfl : r = p := Classical.byContradiction fun hne =>
      hr ((hw.others r hrq).trans (Disk.get?_erase_other _ hne))
    exact ⟨name, hname, hl⟩

theorem touches_remove (hname : name ∈ names) (h : Host) :
    Touches folder names h (h.answer (.remove (joinPath folder name))).2 := by
  refine touches_change hplain fun p d hl hd => ?_
  obtain ⟨bytes, hfile, rfl⟩ := Disk.remove_eq_ok.mp hd
  refine ⟨Disk.keepsFolders_erase (by simp [hfile]), fun r hr => ⟨name, hname, ?_⟩⟩
  obtain rfl : r = p := Classical.byContradiction fun hne => hr (Disk.get?_erase_other _ hne)
  exact hl

end Steps
end Host

/-! ## What work may change -/

namespace World

variable {α β : Type} {folder : String} {names : List String} {t : Trouble} {w w' w'' : World}

/-- Only entries of these names in the store's folder have changed, but for folders that were
missing on the way to it, and for what the store knows of itself. -/
structure Touches (names : List String) (w w' : World) : Prop where
  folder : w'.store.folder = w.store.folder
  offers : w'.offers = w.offers
  host : Host.Touches w.store.folder names w.host w'.host

theorem Touches.refl (names : List String) (w : World) : w.Touches names w :=
  ⟨rfl, rfl, .refl _ names _⟩

theorem Touches.trans (h : w.Touches names w') (h' : w'.Touches names w'') :
    w.Touches names w'' where
  folder := h'.folder.trans h.folder
  offers := h'.offers.trans h.offers
  host := h.host.trans (h.folder ▸ h'.host)

theorem touches_answer {q : Request} (ho : q.offer = [])
    (hq : ∀ h : Host, Host.Touches w.store.folder names h (h.answer q).2)
    (hm : ∀ (h : Host) m, Host.Touches w.store.folder names h (h.afterMishap m q)) :
    w.Touches names (w.answer t q).2 where
  folder := rfl
  offers := (congrArg (w.offers ++ ·) ho).trans (List.append_nil _)
  host := Host.answerAmid_of (hq w.host) (hm w.host)

theorem touches_ensureFolder (names : List String) (t : Trouble) (w : World) :
    w.Touches names (w.run t Store.ensureFolder).2 := by
  have hmake : w.Touches names (w.answer t (.createFolder w.store.folder)).2 :=
    touches_answer rfl (fun h => Host.touches_createFolder names h _) fun h _ => .refl _ names h
  rcases run_ensureFolder_snd t w with h | ⟨made, h⟩ <;> rw [h]
  · exact .refl names w
  · exact ⟨rfl, hmake.offers, hmake.host⟩

/-- Work over this folder touches nothing else, whatever fails. -/
def Confined (folder : String) (names : List String) (work : Store.Task α) : Prop :=
  ∀ (t : Trouble) (w : World), w.store.folder = folder → w.Touches names (w.run t work).2

theorem confined_pure (folder : String) (names : List String) (a : α) :
    Confined folder names (pure a : Store.Task α) := fun _ w _ => .refl names w

theorem confined_throw (folder : String) (names : List String) (e : Store.Error) :
    Confined folder names (throw e : Store.Task α) := fun _ w _ => .refl names w

theorem confined_bind {x : Store.Task α} {f : α → Store.Task β} (hx : Confined folder names x)
    (hf : ∀ a, Confined folder names (f a)) : Confined folder names (x >>= f) := by
  intro t w hw
  have hfirst := hx t w hw
  rw [run_bind]
  rcases hr : w.run t x with ⟨e | a, w'⟩ <;> rw [hr] at hfirst
  · exact hfirst
  · exact hfirst.trans (hf a t w' (hfirst.folder.trans hw))

theorem confined_request {q : Request} (ho : q.offer = [])
    (hq : ∀ h : Host, Host.Touches folder names h (h.answer q).2)
    (hm : ∀ (h : Host) m, Host.Touches folder names h (h.afterMishap m q)) :
    Confined folder names (liftM (Plan.request q) : Store.Task q.Answer) := by
  rintro t w rfl
  rw [run_plan]
  exact touches_answer ho hq hm

theorem confined_access {q : Request} {p : Plan (Except FileFault α)} (path : String)
    (hp : ∀ t w, (w.follow t p).2 = (World.answer t w q).2) (ho : q.offer = [])
    (hq : ∀ h : Host, Host.Touches folder names h (h.answer q).2)
    (hm : ∀ (h : Host) m, Host.Touches folder names h (h.afterMishap m q)) :
    Confined folder names (Store.access path p) := by
  rintro t w rfl
  rw [run_access_snd, hp]
  exact touches_answer ho hq hm

/-- Work in the folder of a store, which is opened first. -/
theorem touches_open {work : String → Store.Task α}
    (h : ∀ folder, Confined folder names (work folder)) (t : Trouble) (w : World) :
    w.Touches names (w.run t (Store.ensureFolder >>= work)).2 := by
  have hopen := touches_ensureFolder names t w
  rw [run_bind]
  rcases hr : w.run t Store.ensureFolder with ⟨e | folder, w'⟩ <;> rw [hr] at hopen
  · exact hopen
  · exact hopen.trans (h folder t w' (hopen.folder.trans (run_ensureFolder_ok hr).2))

/-! ## Entries of the folder -/

/-- The folder of the records has an entry of this name. -/
def HasEntry (w : World) (name : String) : Prop :=
  ∃ q, w.host.disk.folderAt w.host.working w.store.folder = .ok q ∧
    w.host.disk.get? (q ++ [name]) ≠ none

/-- The entry of this name is a file, and its text is a record of the identity. -/
def Tells (w : World) (name : String) (i : Identity) : Prop :=
  ∃ q bytes s, w.host.disk.folderAt w.host.working w.store.folder = .ok q ∧
    w.host.disk.get? (q ++ [name]) = some (.file bytes) ∧ String.fromUTF8? bytes = some s ∧
      Store.readRecord s = .ok i

/-- Entries of other names stay. -/
theorem Touches.hasEntry {name : String} (h : w.Touches names w') (hn : name ∉ names)
    (he : w.HasEntry name) : w'.HasEntry name := by
  obtain ⟨q, hq, hentry⟩ := he
  have hsame := h.host.get?_eq hq (p := q ++ [name]) fun other ho heq => by
    obtain rfl : name = other := by simpa using heq
    exact hn ho
  refine ⟨q, ?_, hsame ▸ hentry⟩
  rw [h.folder, h.host.working]
  exact h.host.folders.folderAt hq

/-- There is no record without a file, there is one if its text is one, and all else fails. -/
theorem told_textOf (path : String) (file : Except FileFault ByteArray) :
    file = .error .notFound ∧ told path (textOf file) = .ok none ∨
      (∃ bytes s i, file = .ok bytes ∧ String.fromUTF8? bytes = some s ∧
        Store.readRecord s = .ok i ∧ told path (textOf file) = .ok (some i)) ∨
      ∃ e, told path (textOf file) = .error e := by
  rcases file with (_ | cause) | bytes
  · exact .inl ⟨rfl, rfl⟩
  · exact .inr (.inr ⟨_, rfl⟩)
  · dsimp only [textOf]
    cases hs : String.fromUTF8? bytes with
    | none => exact .inr (.inr ⟨_, rfl⟩)
    | some s =>
      dsimp only [told]
      cases hr : Store.readRecord s with
      | error fault => exact .inr (.inr ⟨_, rfl⟩)
      | ok i => exact .inr (.inl ⟨bytes, s, i, rfl, hs, hr, rfl⟩)

/-- Only a file that is not there is taken for no record. -/
theorem file_of_told_none {path : String} {file : Except FileFault ByteArray}
    (h : told path (textOf file) = .ok none) : file = .error .notFound := by
  obtain ⟨hfile, -⟩ | ⟨_, _, _, -, -, -, htold⟩ | ⟨_, htold⟩ := told_textOf path file
  · exact hfile
  · cases htold.symm.trans h
  · cases htold.symm.trans h

theorem file_of_told_some {path : String} {file : Except FileFault ByteArray} {i : Identity}
    (h : told path (textOf file) = .ok (some i)) :
    ∃ bytes s, file = .ok bytes ∧ String.fromUTF8? bytes = some s ∧
      Store.readRecord s = .ok i := by
  obtain ⟨-, htold⟩ | ⟨bytes, s, i', hfile, hs, hr, htold⟩ | ⟨_, htold⟩ := told_textOf path file
  · cases htold.symm.trans h
  · cases htold.symm.trans h
    exact ⟨bytes, s, hfile, hs, hr⟩
  · cases htold.symm.trans h

/-- No file is found only where there is no entry. -/
theorem not_hasEntry_of_fileAt {name : String} (hn : PlainName name)
    (h : w.host.disk.fileAt w.host.working (joinPath w.store.folder name) = .error .notFound) :
    ¬w.HasEntry name := by
  rintro ⟨q, hq, hentry⟩
  obtain hlost | ⟨p, hp, hread⟩ := bind_eq_error.mp h
  · exact Disk.locate_ne_notFound hn hq hlost
  · obtain ⟨q', hq', rfl⟩ := Disk.locate_joinPath_eq_ok hn hp
    obtain rfl : q = q' := Except.ok.inj (hq.symm.trans hq')
    exact hentry (Disk.get?_of_read_notFound hread)

theorem tells_of_fileAt {name s : String} {bytes : ByteArray} {i : Identity} (hn : PlainName name)
    (h : w.host.disk.fileAt w.host.working (joinPath w.store.folder name) = .ok bytes)
    (hs : String.fromUTF8? bytes = some s) (hi : Store.readRecord s = .ok i) : w.Tells name i := by
  obtain ⟨p, hl, hfile⟩ := Disk.locate_of_fileAt h
  obtain ⟨q, hq, rfl⟩ := Disk.locate_joinPath_eq_ok hn hl
  exact ⟨q, bytes, s, hq, hfile, hs, hi⟩

end World

namespace Store

variable {key folder : String}

/-! ## Keys -/

def hexDigits : List Char := "0123456789ABCDEFabcdef".toList

/-- At least one character, and each a hexadecimal digit. -/
def Hexadecimal (key : String) : Prop := key ≠ "" ∧ ∀ c ∈ key.toList, c ∈ hexDigits

instance (key : String) : Decidable (Hexadecimal key) :=
  decidable_of_iff (key ≠ "" ∧ key.toList.all hexDigits.contains = true) (by
    unfold Hexadecimal
    simp only [List.all_eq_true, List.contains_iff_mem])

theorem mem_hexDigits_iff {c : Char} : c ∈ hexDigits ↔
    c.isDigit = true ∨ ('a' ≤ c ∧ c ≤ 'f') ∨ ('A' ≤ c ∧ c ≤ 'F') := by
  constructor
  · intro hc
    have digits : hexDigits.all (fun c => c.isDigit || ('a' ≤ c && c ≤ 'f') ||
        ('A' ≤ c && c ≤ 'F')) = true := by
      decide
    have hdigit := List.all_eq_true.mp digits c hc
    simpa only [Bool.or_eq_true, Bool.and_eq_true, decide_eq_true_eq, or_assoc] using hdigit
  · intro hc
    have codes : ∀ n < 103, (Char.ofNat n).isDigit = true ∨
        ('a' ≤ Char.ofNat n ∧ Char.ofNat n ≤ 'f') ∨ ('A' ≤ Char.ofNat n ∧ Char.ofNat n ≤ 'F') →
          Char.ofNat n ∈ hexDigits := by
      decide +kernel
    have hle : c ≤ 'f' := by
      rcases hc with hc | hc | hc
      · unfold Char.isDigit at hc
        rw [Bool.and_eq_true, decide_eq_true_iff, decide_eq_true_iff] at hc
        exact Char.le_trans hc.2 (by decide)
      · exact hc.2
      · exact Char.le_trans hc.2 (by decide)
    rw [← Char.ofNat_toNat c] at hc ⊢
    exact codes c.toNat (Nat.lt_succ_of_le hle) hc

theorem hexadecimal_iff {key : String} : Hexadecimal key ↔ isKey key = true := by
  rw [isKey_iff]
  unfold Hexadecimal
  simp only [mem_hexDigits_iff, ne_eq, String.toList_eq_nil_iff]

/-! ## The operations -/

theorem touches_get? (t : Trouble) (w : World) (hk : isKey key = true) :
    w.Touches [] (w.run t (get? key)).2 := by
  rw [World.run_get?_snd t w hk]
  exact World.touches_ensureFolder [] t w

theorem confined_write (folder : String) (hk : isKey key = true) (bytes : ByteArray) :
    World.Confined folder [key, temporary key] (write folder key bytes) := by
  have hplain : ∀ name ∈ [key, temporary key], PlainName name := by
    simp [plainName_of_isKey hk, plainName_temporary hk]
  have hkey : key ∈ [key, temporary key] := by simp
  have htemporary : temporary key ∈ [key, temporary key] := by simp
  unfold write prepare
  refine World.confined_bind (World.confined_bind ?_ fun _ => World.confined_bind ?_ fun _ => ?_)
    fun _ => ?_
  · exact World.confined_access _ (fun _ _ => rfl) rfl (Host.touches_create hplain htemporary)
      fun h _ => .refl folder _ h
  · exact World.confined_access _ (fun _ _ => rfl) rfl
      (Host.touches_append hplain htemporary bytes)
      fun h _ => Host.touches_append hplain htemporary _ h
  · exact World.confined_access _ (fun _ _ => rfl) rfl (fun h => .refl folder _ h)
      fun h _ => .refl folder _ h
  · exact World.confined_access _ (fun _ _ => rfl) rfl (Host.touches_rename hplain htemporary hkey)
      fun h _ => .refl folder _ h

theorem touches_save (t : Trouble) (w : World) (hk : isKey key = true) (e : Event) :
    w.Touches [key, temporary key] (w.run t (save key e)).2 := by
  rw [save_eq hk]
  exact World.touches_open (fun folder => confined_write folder hk _) t w

/-- A reset in a folder that has been made. -/
def discard (folder key : String) : Task Bool := do
  let path := joinPath folder key
  match ← Plan.request (.remove path) with
  | .ok () => return true
  | .error .notFound => return false
  | .error fault => throw (.io path fault)

theorem reset_eq (hk : isKey key = true) :
    reset key = ensureFolder >>= fun folder => discard folder key := by
  unfold reset checkKey
  rw [if_pos hk, pure_bind]
  rfl

theorem run_reset_of_not_key (t : Trouble) (w : World) (hk : ¬isKey key = true) :
    w.run t (reset key) = (.error (.invalidKey key), w) := by
  unfold reset
  rw [World.run_bind, World.run_checkKey_of_not t w hk]

theorem confined_discard (folder : String) (hk : isKey key = true) :
    World.Confined folder [key] (discard folder key) := by
  have hplain : ∀ name ∈ [key], PlainName name := by
    simp [plainName_of_isKey hk]
  unfold discard
  refine World.confined_bind (World.confined_request rfl
    (Host.touches_remove hplain List.mem_cons_self) fun h _ => .refl folder _ h) fun r => ?_
  rcases r with (_ | cause) | _
  · exact World.confined_pure _ _ _
  · exact World.confined_throw _ _ _
  · exact World.confined_pure _ _ _

theorem touches_reset (t : Trouble) (w : World) (hk : isKey key = true) :
    w.Touches [key] (w.run t (reset key)).2 := by
  rw [reset_eq hk]
  exact World.touches_open (fun folder => confined_discard folder hk) t w

theorem keeps_view_discard {name : String} (folder : String) (hn : PlainName name)
    (hk : isKey key = true) (hne : name ≠ key) :
    World.Keeps (World.view (joinPath folder name)) (discard folder key) := by
  unfold discard
  refine World.keeps_bind (World.keeps_plan fun t w => ?_) fun r => ?_
  · rw [World.view_eq_iff]
    exact ⟨rfl, Host.answerAmid_of (w.host.sameFile_remove hn (plainName_of_isKey hk) hne)
      fun _ => .refl _ _⟩
  · rcases r with (_ | cause) | _
    · exact World.keeps_pure _ _
    · exact World.keeps_throw _ _
    · exact World.keeps_pure _ _

/-- A reset of another key leaves the record, whatever fails. -/
theorem record_reset_other {other : String} (t : Trouble) (w : World) (ho : isKey other = true)
    (hk : isKey key = true) (hne : other ≠ key) :
    (w.run t (reset key)).2.record other = w.record other := by
  rw [reset_eq hk]
  exact World.record_of_entry ho (World.keeps_entry_of_open
    (fun folder => keeps_view_discard folder (plainName_of_isKey ho) hk hne) t w)

theorem record_get?_other {other : String} (t : Trouble) (w : World) (ho : isKey other = true)
    (hk : isKey key = true) : (w.run t (get? key)).2.record other = w.record other := by
  rw [World.run_get?_snd t w hk]
  exact World.record_ensureFolder t w ho

/-- A lookup tells that there is no record where there is no entry, tells a record where a file
holds it, and otherwise fails. -/
theorem get?_cases {t : Trouble} {w : World} (ht : t.Honest) (hk : isKey key = true) :
    let got := w.run t (get? key)
    got.1 = .ok none ∧ ¬w.HasEntry key ∧ ¬got.2.HasEntry key ∨
      (∃ i, got.1 = .ok (some i) ∧ got.2.Tells key i) ∨ ∃ f, got.1 = .error f := by
  intro got
  have hn := plainName_of_isKey hk
  have hgot : got = _ := World.run_get? t w hk
  have htouches : w.Touches [] got.2 := touches_get? t w hk
  rcases hr : w.run t ensureFolder with ⟨f | folder, w'⟩ <;> rw [hr] at hgot
  · exact .inr (.inr ⟨f, congrArg Prod.fst hgot⟩)
  · have hfolder : w'.store.folder = folder := by rw [(World.run_ensureFolder_ok hr).1]
    have hworld : got.2 = w' := congrArg Prod.snd hgot
    have hanswer : got.1 = World.told _ _ := congrArg Prod.fst hgot
    rw [hworld] at htouches ⊢
    rcases World.follow_readText_cases t w' (joinPath folder key) with ⟨m, hm, hfailed⟩ | hread
    · rw [hfailed] at hanswer
      exact .inr (.inr ⟨_, hanswer.trans (World.told_of_fault (ht _ m hm))⟩)
    · rw [hread] at hanswer
      rcases htold : got.1 with f | (_ | i)
      · exact .inr (.inr ⟨f, rfl⟩)
      · have hfile := World.file_of_told_none (hanswer.symm.trans htold)
        have hnone := World.not_hasEntry_of_fileAt hn (hfolder ▸ hfile)
        exact .inl ⟨rfl, fun he => hnone (htouches.hasEntry List.not_mem_nil he), hnone⟩
      · obtain ⟨bytes, s, hfile, hs, hi⟩ := World.file_of_told_some (hanswer.symm.trans htold)
        exact .inr (.inl ⟨i, rfl, World.tells_of_fileAt hn (hfolder ▸ hfile) hs hi⟩)

/-! ## Top theorem -/

/-- A key that is not hexadecimal is refused and nothing changes, not even the folder is made.  With
any other key, a lookup touches no entry of the folder, a save the record and its temporary file, a
reset the record; records of other keys are told as before.  A lookup does not tell that there is no
record, unless there is no entry of that name. -/
theorem operations_touch_own_record (t : Trouble) (w : World) (key : String) (e : Event) :
    let got := w.run t (get? key)
    let saved := w.run t (save key e)
    let removed := w.run t (reset key)
    (¬Hexadecimal key → got = (.error (.invalidKey key), w) ∧
      saved = (.error (.invalidKey key), w) ∧ removed = (.error (.invalidKey key), w)) ∧
    (Hexadecimal key →
      (w.Touches [] got.2 ∧ w.Touches [key, temporary key] saved.2 ∧ w.Touches [key] removed.2) ∧
      (∀ other, Hexadecimal other → got.2.record other = w.record other ∧
        (other ≠ key → saved.2.record other = w.record other ∧
          removed.2.record other = w.record other)) ∧
      (t.Honest → got.1 = .ok none ∧ ¬w.HasEntry key ∧ ¬got.2.HasEntry key ∨
        (∃ i, got.1 = .ok (some i) ∧ got.2.Tells key i) ∨ ∃ f, got.1 = .error f)) := by
  intro got saved removed
  rw [hexadecimal_iff]
  refine ⟨fun hk => ⟨World.run_get?_of_not_key t w hk, run_save_of_not_key t w hk e,
    run_reset_of_not_key t w hk⟩, fun hk => ⟨⟨touches_get? t w hk, touches_save t w hk e,
      touches_reset t w hk⟩, fun other ho => ?_, fun ht => get?_cases ht hk⟩⟩
  rw [hexadecimal_iff] at ho
  exact ⟨record_get?_other t w ho hk, fun hne =>
    ⟨World.record_save_other t w e ho hne, record_reset_other t w ho hk hne⟩⟩

/-! ## In a folder of other things -/

/-- A folder with a damaged record, a folder named like a key, a foreign file, and what an
interrupted save has left. -/
def crowded : World where
  store := ⟨"s", false⟩
  host := { disk := ⟨[(["s"], .folder), (["s", "AB"], .file "junk".toUTF8), (["s", "CD"], .folder),
    (["s", "CD", "x"], .file "x".toUTF8), (["s", "notes.txt"], .file "n".toUTF8),
    (["s", ".EF.tmp"], .file "half".toUTF8)]⟩ }

theorem operations_touch_own_record_crowded :
    let saved := crowded.run calm (save "EF" leapEvent)
    let removed := crowded.run calm (reset "CD")
    crowded.run calm (get? "../AB") = (.error (.invalidKey "../AB"), crowded) ∧
      (saved.1 = .ok () ∧ saved.2.record "AB" = .error (.malformedRecord "s/AB" .missingHash) ∧
        ∀ p, p ≠ ["s", "EF"] → p ≠ ["s", ".EF.tmp"] →
          saved.2.host.disk.get? p = crowded.host.disk.get? p) ∧
      (removed.1 = .error (.io "s/CD" Disk.isAFolder) ∧
        removed.2.host.disk.get? ["s", "CD"] = some .folder) ∧
      crowded.record "EF" = .ok none ∧ ¬crowded.HasEntry "EF" := by
  intro saved removed
  have hplace : crowded.host.disk.folderAt crowded.host.working crowded.store.folder =
      .ok ["s"] := by
    decide +kernel
  obtain ⟨hrefused, -⟩ := operations_touch_own_record calm crowded "../AB" leapEvent
  obtain ⟨-, hkey⟩ := operations_touch_own_record calm crowded "EF" leapEvent
  obtain ⟨-, hfolder⟩ := operations_touch_own_record calm crowded "CD" leapEvent
  obtain ⟨⟨-, hsaved, -⟩, hothers, hcases⟩ := hkey (by decide)
  obtain ⟨⟨-, -, hremoved⟩, -, -⟩ := hfolder (by decide)
  have hdamaged : crowded.record "AB" = .error (.malformedRecord "s/AB" .missingHash) := by
    decide +kernel
  have hnone : (crowded.run calm (get? "EF")).1 = .ok none := by decide +kernel
  refine ⟨(hrefused (by decide)).1, ⟨by decide +kernel, ?_, ?_⟩, ⟨by decide +kernel, ?_⟩, hnone, ?_⟩
  · exact (((hothers "AB" (by decide)).2 (by decide)).1).trans hdamaged
  · intro p hp hp'
    refine hsaved.host.get?_eq hplace ?_
    simpa using ⟨hp, hp'⟩
  · exact hremoved.host.folders _ rfl
  · obtain ⟨-, hentry, -⟩ | ⟨i, hi, -⟩ | ⟨f, hf⟩ := hcases calm_sparesReading.honest
    · exact hentry
    · cases hnone.symm.trans hi
    · cases hnone.symm.trans hf

end Store
end LogWatch
