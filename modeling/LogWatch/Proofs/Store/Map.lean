import LogWatch.Proofs.Store.Calm
import Mathlib.Data.Finmap

/-!
# A store is a map

Opened over a folder that is new or empty, a store where nothing fails answers as a map from keys
to identities does: a lookup tells the identity saved last, a reset whether there was one, and a
clearing how many there were.  Opening the store anew changes nothing.  The one thing a map does
not know is that a key may be too long for its temporary file: then a save fails, and the map
stays as it is.

    Holds w q m: in the place q of the folder are the records of m, one file for each, and no more
    (inTurn World.perform w history).1 = (inTurn (Records.perform …) ∅ history).1  (store_is_map)
-/

namespace LogWatch

open Disk (Fits)

namespace Store

/-! ## What is asked -/

inductive Action
  | get (key : String)
  | save (key : String) (e : Event)
  | reset (key : String)
  | clear
  | reopen

inductive Answer
  | found (i : Option Identity)
  | saved
  | removed (there : Bool)
  | cleared (count : Nat)
  | reopened
  deriving DecidableEq

/-- The identities by their keys. -/
abbrev Records := Finmap fun _ : String => Identity

/-- Asks a map; a key may be too long to be saved. -/
def Records.perform (folder : String) (m : Records) : Action → Except Error Answer × Records
  | .get key => (.ok (.found (m.lookup key)), m)
  | .save key e =>
    if Fits folder (temporary key) then (.ok .saved, m.insert key e.identity)
    else (.error (.io (joinPath folder (temporary key)) Disk.nameTooLong), m)
  | .reset key => (.ok (.removed (decide (key ∈ m))), m.erase key)
  | .clear => (.ok (.cleared m.keys.card), ∅)
  | .reopen => (.ok .reopened, m)

end Store

/-- Asks a store, where nothing fails. -/
def World.perform (w : World) : Store.Action → Except Store.Error Store.Answer × World
  | .get key => Prod.map (Except.map .found) id (w.run calm (Store.get? key))
  | .save key e => Prod.map (Except.map fun _ => .saved) id (w.run calm (Store.save key e))
  | .reset key => Prod.map (Except.map .removed) id (w.run calm (Store.reset key))
  | .clear => Prod.map (Except.map .cleared) id (w.run calm Store.clear)
  | .reopen => (.ok .reopened, w.reopened)

/-- The answers to one action after another, and the state after all of them. -/
def inTurn {σ α β : Type} (act : σ → α → β × σ) (s : σ) : List α → List β × σ
  | [] => ([], s)
  | a :: as => ((act s a).1 :: (inTurn act (act s a).2 as).1, (inTurn act (act s a).2 as).2)

theorem inTurn_append {σ α β : Type} (act : σ → α → β × σ) (s : σ) (xs ys : List α) :
    (inTurn act s (xs ++ ys)).2 = (inTurn act (inTurn act s xs).2 ys).2 := by
  induction xs generalizing s with
  | nil => rfl
  | cons x xs ih => exact ih _

namespace Store

/-- The key is that of a file in the folder, and what is saved can be read back. -/
def Action.Allowed (folder : String) : Action → Prop
  | .get key => isKey key = true ∧ Fits folder key
  | .save key e => isKey key = true ∧ Fits folder key ∧ e.instant.HasPlainYear
  | .reset key => isKey key = true ∧ Fits folder key
  | .clear => True
  | .reopen => True

instance (folder : String) : (a : Action) → Decidable (a.Allowed folder)
  | .get _ => inferInstanceAs (Decidable (_ ∧ _))
  | .save _ _ => inferInstanceAs (Decidable (_ ∧ _ ∧ _))
  | .reset _ => inferInstanceAs (Decidable (_ ∧ _))
  | .clear => inferInstanceAs (Decidable True)
  | .reopen => inferInstanceAs (Decidable True)

/-- What may change the record of a key. -/
def Action.Touches (key : String) : Action → Prop
  | .get _ => False
  | .save other _ => other = key
  | .reset other => other = key
  | .clear => True
  | .reopen => False

theorem Records.lookup_perform_of_not_touches {folder key : String} {a : Action} (m : Records)
    (h : ¬a.Touches key) : (Records.perform folder m a).2.lookup key = m.lookup key := by
  cases a with
  | get => rfl
  | reopen => rfl
  | clear => exact absurd trivial h
  | save other e =>
    unfold perform
    dsimp only
    split
    · exact Finmap.lookup_insert_of_ne m (Ne.symm h)
    · rfl
  | reset other => exact Finmap.lookup_erase_ne (Ne.symm h)

theorem Records.lookup_inTurn_of_not_touches {folder key : String} {as : List Action}
    (m : Records) (h : ∀ a ∈ as, ¬a.Touches key) :
    (inTurn (Records.perform folder) m as).2.lookup key = m.lookup key := by
  induction as generalizing m with
  | nil => rfl
  | cons a as ih =>
    exact (ih _ fun b hb => h b (List.mem_cons_of_mem a hb)).trans
      (lookup_perform_of_not_touches m (h a List.mem_cons_self))

/-! ## The files of a map -/

/-- The store has been opened, and its folder holds the records of the map and nothing else. -/
structure Holds (w : World) (q : Path) (m : Records) : Prop where
  made : w.store.made = true
  named : w.store.folder ≠ ""
  path : Disk.requirePath w.store.folder = .ok ()
  place : w.host.disk.folderAt w.host.working w.store.folder = .ok q
  nodup : (w.host.disk.children q).Nodup
  files : ∀ name, w.host.disk.get? (q ++ [name]) =
    (m.lookup name).map fun i => .file (recordText i).toUTF8
  sound : ∀ name i, m.lookup name = some i →
    isKey name = true ∧ Fits w.store.folder name ∧
      ∃ e : Event, e.instant.HasPlainYear ∧ e.identity = i

variable {w w' : World} {q : Path} {m : Records} {key : String}

namespace Holds

theorem no_folder (h : Holds w q m) (name : String) :
    w.host.disk.get? (q ++ [name]) ≠ some .folder := by
  rw [h.files]
  cases m.lookup name <;> simp

theorem mem_children (h : Holds w q m) (name : String) :
    name ∈ w.host.disk.children q ↔ name ∈ m := by
  rw [Disk.mem_children, h.files, ← Finmap.lookup_isSome]
  cases m.lookup name <;> simp

theorem card_keys (h : Holds w q m) : (w.host.disk.children q).length = m.keys.card := by
  rw [← List.toFinset_card_of_nodup h.nodup]
  congr 1
  ext name
  rw [List.mem_toFinset, h.mem_children, Finmap.mem_keys]

/-- One more file is one more record. -/
theorem insert (h : Holds w q m) {e : Event} (hk : isKey key = true)
    (hf : Fits w.store.folder key) (hy : e.instant.HasPlainYear) :
    Holds (w.onDisk (w.host.disk.set (q ++ [key]) (.file (recordText e.identity).toUTF8))) q
      (m.insert key e.identity) where
  made := h.made
  named := h.named
  path := h.path
  place := (Disk.writes_set (h.no_folder key) _).folders.folderAt h.place
  nodup := by
    show ((w.host.disk.set _ _).children q).Nodup
    rw [Disk.children_set, List.nodup_cons]
    exact ⟨by simp, h.nodup.filter _⟩
  files := by
    intro name
    show (w.host.disk.set _ _).get? _ = _
    by_cases hn : name = key
    · rw [hn, Disk.get?_set_same (by simp), Finmap.lookup_insert]
      rfl
    · rw [Disk.get?_set_other _ (by simpa using hn), Finmap.lookup_insert_of_ne m hn]
      exact h.files name
  sound := by
    intro name i hi
    by_cases hn : name = key
    · subst hn
      rw [Finmap.lookup_insert] at hi
      exact ⟨hk, hf, e, hy, Option.some.inj hi⟩
    · rw [Finmap.lookup_insert_of_ne m hn] at hi
      exact h.sound name i hi

/-- One file less is one record less. -/
theorem erase (h : Holds w q m) (key : String) :
    Holds (w.onDisk (w.host.disk.erase (q ++ [key]))) q (m.erase key) where
  made := h.made
  named := h.named
  path := h.path
  place := (Disk.keepsFolders_erase (h.no_folder key)).folderAt h.place
  nodup := by
    show ((w.host.disk.erase _).children q).Nodup
    rw [Disk.children_erase]
    exact h.nodup.filter _
  files := by
    intro name
    show (w.host.disk.erase _).get? _ = _
    by_cases hn : name = key
    · rw [hn, Disk.get?_erase _ (by simp), if_pos rfl, Finmap.lookup_erase]
      rfl
    · rw [Disk.get?_erase_other _ (by simpa using hn), Finmap.lookup_erase_ne hn]
      exact h.files name
  sound := by
    intro name i hi
    by_cases hn : name = key
    · rw [hn, Finmap.lookup_erase] at hi
      cases hi
    · rw [Finmap.lookup_erase_ne hn] at hi
      exact h.sound name i hi

/-! ## One action -/

theorem told (h : Holds w q m) (hk : isKey key = true) (hf : Fits w.store.folder key) :
    World.told (joinPath w.store.folder key)
      (textOf (w.host.disk.fileAt w.host.working (joinPath w.store.folder key))) =
        .ok (m.lookup key) := by
  have hl := Disk.locate_of_fits (plainName_of_isKey hk) h.place hf
  have hfile := h.files key
  cases hm : m.lookup key with
  | none =>
    rw [hm] at hfile
    unfold Disk.fileAt
    rw [hl]
    show World.told _ (textOf (w.host.disk.read (q ++ [key]))) = _
    rw [Disk.read_of_get?_eq_none hfile]
    rfl
  | some i =>
    obtain ⟨-, -, e, hy, rfl⟩ := h.sound key i hm
    rw [hm] at hfile
    rw [(Disk.fileAt_eq_ok hl).mpr hfile, told_recordText, readBack_of_plain hy]

theorem run_get? (h : Holds w' q m) (hopen : w.run calm ensureFolder = (.ok w'.store.folder, w'))
    (hk : isKey key = true) (hf : Fits w'.store.folder key) :
    w.run calm (get? key) = (.ok (m.lookup key), w') := by
  rw [World.run_get? calm w hk, hopen]
  dsimp only
  rw [World.follow_readText_of_spared calm_sparesReading, h.told hk hf]

/-- No file of the folder is in a save's way, for none has the name of a temporary file. -/
theorem room (h : Holds w q m) (hf : Fits w.store.folder key)
    (htemporary : Fits w.store.folder (temporary key)) : Room w w.store.folder key q :=
  ⟨h.place, hf, htemporary, h.no_folder _, h.no_folder _⟩

theorem erase_temporary (h : Holds w q m) (key : String) :
    w.host.disk.erase (q ++ [temporary key]) = w.host.disk := by
  have hnone : m.lookup (temporary key) = none := by
    cases hm : m.lookup (temporary key) with
    | none => rfl
    | some i => exact absurd rfl (ne_temporary (h.sound _ i hm).1 key)
  refine Disk.erase_eq_self (by simp) ?_
  rw [h.files, hnone]
  rfl

theorem get?_of_mem (h : Holds w q m) (hm : key ∈ m) :
    ∃ bytes, w.host.disk.get? (q ++ [key]) = some (.file bytes) := by
  obtain ⟨i, hi⟩ := Finmap.mem_iff.mp hm
  exact ⟨_, by rw [h.files, hi]; rfl⟩

theorem fits_of_mem (h : Holds w q m) (hm : key ∈ m) :
    isKey key = true ∧ Fits w.store.folder key := by
  obtain ⟨i, hi⟩ := Finmap.mem_iff.mp hm
  obtain ⟨hk, hf, -⟩ := h.sound key i hi
  exact ⟨hk, hf⟩

theorem follow_remove (h : Holds w q m) (hm : key ∈ m) :
    w.follow calm (Plan.request (.remove (joinPath w.store.folder key))) =
      (.ok (), w.onDisk (w.host.disk.erase (q ++ [key]))) := by
  obtain ⟨hk, hf⟩ := h.fits_of_mem hm
  obtain ⟨bytes, hfile⟩ := h.get?_of_mem hm
  have hl := Disk.locate_of_fits (plainName_of_isKey hk) h.place hf
  exact World.follow_calm rfl (Host.change_of_ok hl (Disk.remove_eq_ok.mpr ⟨bytes, hfile, rfl⟩))

theorem follow_remove_of_not_mem (h : Holds w q m) (hk : isKey key = true)
    (hf : Fits w.store.folder key) (hm : key ∉ m) :
    w.follow calm (Plan.request (.remove (joinPath w.store.folder key))) =
      (.error .notFound, w) := by
  have hl := Disk.locate_of_fits (plainName_of_isKey hk) h.place hf
  have hfile := h.files key
  rw [Finmap.lookup_eq_none.mpr hm] at hfile
  refine World.follow_calm (d := w.host.disk) rfl (Host.change_of_error ?_)
  rw [hl]
  show w.host.disk.remove (q ++ [key]) = _
  unfold Disk.remove
  rw [Disk.read_of_get?_eq_none hfile]
  rfl

theorem run_reset (h : Holds w' q m) (hopen : w.run calm ensureFolder = (.ok w'.store.folder, w'))
    (hk : isKey key = true) (hf : Fits w'.store.folder key) :
    w.run calm (reset key) =
      (.ok (decide (key ∈ m)), w'.onDisk (w'.host.disk.erase (q ++ [key]))) := by
  unfold reset
  rw [World.run_bind_of_ok (World.run_checkKey calm w hk), World.run_bind_of_ok hopen]
  by_cases hm : key ∈ m
  · refine (World.run_bind_of_ok (World.run_plan_of (h.follow_remove hm)) _).trans ?_
    rw [decide_eq_true hm]
    rfl
  · refine (World.run_bind_of_ok
      (World.run_plan_of (h.follow_remove_of_not_mem hk hf hm)) _).trans ?_
    have hnone := h.files key
    rw [Finmap.lookup_eq_none.mpr hm] at hnone
    rw [decide_eq_false hm, Disk.erase_eq_self (by simp) hnone]
    rfl

theorem run_isFile (h : Holds w q m) (hm : key ∈ m) :
    w.run calm (liftM (Plan.request (.isFile (joinPath w.store.folder key))) : Task Bool) =
      (.ok true, w) := by
  obtain ⟨hk, hf⟩ := h.fits_of_mem hm
  obtain ⟨bytes, hfile⟩ := h.get?_of_mem hm
  have hl := Disk.locate_of_fits (plainName_of_isKey hk) h.place hf
  refine World.run_plan_of (World.follow_calm (d := w.host.disk) rfl (Prod.ext ?_ rfl))
  unfold Host.answer
  dsimp only
  rw [hl]
  show w.host.disk.isFile (q ++ [key]) = true
  unfold Disk.isFile
  rw [hfile]

/-- Files that are there are removed one after another. -/
theorem run_removeFiles {names : List String} (h : Holds w q m) (hn : names.Nodup)
    (hm : ∀ name ∈ names, name ∈ m) :
    ∃ w', w.run calm (removeFiles w.store.folder names) = (.ok names.length, w') ∧
      w'.store = w.store ∧ Holds w' q (names.foldl (fun m name => m.erase name) m) := by
  induction names generalizing w m with
  | nil => exact ⟨w, rfl, rfl, h⟩
  | cons name names ih =>
    obtain ⟨hfresh, hrest⟩ := List.nodup_cons.mp hn
    have hin := hm name List.mem_cons_self
    have hleft : ∀ other ∈ names, other ∈ m.erase name := fun other ho =>
      Finmap.mem_erase.mpr ⟨fun he => hfresh (he ▸ ho), hm other (List.mem_cons_of_mem _ ho)⟩
    obtain ⟨w', hrun, hstore, hholds⟩ := ih (h.erase name) hrest hleft
    refine ⟨w', ?_, hstore, hholds⟩
    unfold removeFiles
    refine (World.run_bind_of_ok (h.run_isFile hin) _).trans ?_
    rw [if_pos rfl, World.run_bind_of_ok (World.run_access_eq_ok.mpr (h.follow_remove hin))]
    exact World.run_bind_of_ok hrun _

theorem lookup_foldl_erase (names : List String) (m : Records) (name : String) :
    (names.foldl (fun m name => m.erase name) m).lookup name =
      if name ∈ names then none else m.lookup name := by
  induction names generalizing m with
  | nil => rfl
  | cons other names ih =>
    rw [List.foldl_cons, ih]
    by_cases hin : name ∈ names
    · simp [hin]
    · by_cases hn : name = other
      · subst hn
        simp [hin]
      · simp [hin, hn, Finmap.lookup_erase_ne hn]

theorem follow_list (h : Holds w q m) :
    w.follow calm (Plan.request (.list w.store.folder)) =
      (.ok (w.host.disk.children q), w) := by
  obtain ⟨hwalk, hfolder⟩ := Disk.folderAt_eq_ok.mp h.place
  refine World.follow_calm (d := w.host.disk) rfl (Prod.ext ?_ rfl)
  refine bind_eq_ok.mpr ⟨q, ?_, bind_eq_ok.mpr ⟨(), Disk.requireFolder_eq_ok.mpr hfolder, rfl⟩⟩
  unfold Disk.locate
  rw [if_neg (by simpa using h.named)]
  exact bind_eq_ok.mpr ⟨(), h.path, hwalk⟩

/-- All the files of the folder are records, and none is left. -/
theorem run_clear (h : Holds w' q m)
    (hopen : w.run calm ensureFolder = (.ok w'.store.folder, w')) :
    ∃ w'', w.run calm clear = (.ok m.keys.card, w'') ∧ w''.store = w'.store ∧ Holds w'' q ∅ := by
  obtain ⟨w'', hrun, hstore, hholds⟩ := h.run_removeFiles h.nodup fun name hn =>
    (h.mem_children name).mp hn
  have hnone : (w'.host.disk.children q).foldl (fun m name => m.erase name) m = ∅ := by
    apply Finmap.ext_lookup
    intro name
    rw [lookup_foldl_erase, Finmap.lookup_empty]
    split
    · rfl
    · next hout => exact Finmap.lookup_eq_none.mpr fun hin => hout ((h.mem_children name).mpr hin)
  rw [hnone] at hholds
  refine ⟨w'', ?_, hstore, hholds⟩
  unfold clear
  rw [World.run_bind_of_ok hopen, World.run_bind_of_ok (World.run_access_eq_ok.mpr h.follow_list),
    hrun, h.card_keys]

end Holds

/-! ## A history -/

/-- The store, once it has been opened, holds the records of the map. -/
def Represents (w : World) (q : Path) (m : Records) : Prop :=
  ∃ w', w.run calm ensureFolder = (.ok w.store.folder, w') ∧ Holds w' q m

theorem Holds.represents (h : Holds w q m) : Represents w q m :=
  ⟨w, World.run_ensureFolder_of_made calm h.made, h⟩

namespace Represents

theorem reopened (h : Represents w q m) : Represents w.reopened q m := by
  cases hm : w.store.made with
  | false =>
    have hsame : w.reopened = w := by
      show w.withStore ⟨w.store.folder, false⟩ = w
      rw [← hm]
      rfl
    rw [hsame]
    exact h
  | true =>
    obtain ⟨w', hopen, hholds⟩ := h
    rw [World.run_ensureFolder_of_made calm hm] at hopen
    obtain rfl := (Prod.mk.inj hopen).2
    exact ⟨w, World.run_ensureFolder_reopened hm hholds.path hholds.place, hholds⟩

/-- One action is answered by the store as by the map. -/
theorem perform (h : Represents w q m) {a : Action} (ha : a.Allowed w.store.folder) :
    (w.perform a).1 = (Records.perform w.store.folder m a).1 ∧
      (w.perform a).2.store.folder = w.store.folder ∧
      Represents (w.perform a).2 q (Records.perform w.store.folder m a).2 := by
  have hreopened := h.reopened
  obtain ⟨w', hopen, hholds⟩ := h
  have hfolder : w'.store.folder = w.store.folder := by
    rw [(World.run_ensureFolder_ok hopen).1]
  rw [← hfolder] at hopen ha ⊢
  cases a with
  | get key =>
    unfold World.perform
    dsimp only
    rw [hholds.run_get? hopen ha.1 ha.2]
    exact ⟨rfl, rfl, hholds.represents⟩
  | save key e =>
    obtain ⟨hk, hf, hy⟩ := ha
    unfold World.perform Records.perform
    dsimp only
    by_cases htemporary : Fits w'.store.folder (temporary key)
    · rw [if_pos htemporary, run_save_calm hk hopen (hholds.room hf htemporary),
        hholds.erase_temporary]
      exact ⟨rfl, rfl, (hholds.insert hk hf hy).represents⟩
    · rw [if_neg htemporary, run_save_calm_of_long hk hopen hholds.place hf htemporary]
      exact ⟨rfl, rfl, hholds.represents⟩
  | reset key =>
    unfold World.perform
    dsimp only
    rw [hholds.run_reset hopen ha.1 ha.2]
    exact ⟨rfl, rfl, (hholds.erase key).represents⟩
  | clear =>
    obtain ⟨w'', hclear, hstore, hempty⟩ := hholds.run_clear hopen
    unfold World.perform
    dsimp only
    rw [hclear]
    exact ⟨rfl, congrArg Store.folder hstore, hempty.represents⟩
  | reopen => exact ⟨rfl, hfolder.symm, hreopened⟩

theorem record (h : Represents w q m) (hk : isKey key = true) (hf : Fits w.store.folder key) :
    w.record key = .ok (m.lookup key) := by
  obtain ⟨w', hopen, hholds⟩ := h
  have hfolder : w'.store.folder = w.store.folder := by
    rw [(World.run_ensureFolder_ok hopen).1]
  rw [← hfolder] at hopen hf
  unfold World.record
  rw [hholds.run_get? hopen hk hf]

/-- So are all the actions of a history. -/
theorem inTurn {history : List Action} (h : Represents w q m)
    (ha : ∀ a ∈ history, a.Allowed w.store.folder) :
    (LogWatch.inTurn World.perform w history).1 =
        (LogWatch.inTurn (Records.perform w.store.folder) m history).1 ∧
      (LogWatch.inTurn World.perform w history).2.store.folder = w.store.folder ∧
      Represents (LogWatch.inTurn World.perform w history).2 q
        (LogWatch.inTurn (Records.perform w.store.folder) m history).2 := by
  induction history generalizing w m with
  | nil => exact ⟨rfl, rfl, h⟩
  | cons a history ih =>
    obtain ⟨hanswer, hfolder, hnext⟩ := h.perform (ha a List.mem_cons_self)
    have hrest : ∀ b ∈ history, b.Allowed (w.perform a).2.store.folder := fun b hb =>
      hfolder.symm ▸ ha b (List.mem_cons_of_mem a hb)
    obtain ⟨hanswers, hfolders, hlast⟩ := ih hnext hrest
    rw [hfolder] at hanswers hfolders hlast
    exact ⟨congrArg₂ List.cons hanswer hanswers, hfolders, hlast⟩

end Represents

/-! ## Top theorem -/

/-- A store in a state folder that is not there, or is empty: the folder of the records can be
made, and then there is nothing in it. -/
structure Vacant (w : World) (state : String) (q : Path) : Prop where
  unopened : w.store = .under state
  makes : (w.host.disk.makeAt w.host.working w.store.folder).1 = .ok ()
  place : (w.host.disk.makeAt w.host.working w.store.folder).2.folderAt w.host.working
    w.store.folder = .ok q
  empty : ∀ name,
    (w.host.disk.makeAt w.host.working w.store.folder).2.get? (q ++ [name]) = none

theorem plainName_watermarks : PlainName "watermarks" :=
  ⟨by decide, by decide, by decide, by decide⟩

theorem requirePath_of_makeAt {d : Disk} {working : Path} {folder : String}
    (h : (d.makeAt working folder).1 = .ok ()) : Disk.requirePath folder = .ok () := by
  unfold Disk.makeAt at h
  cases hr : Disk.requirePath folder with
  | error fault =>
    rw [hr] at h
    cases h
  | ok _ => rfl

theorem Vacant.represents {state : String} (h : Vacant w state q) : Represents w q ∅ := by
  have hanswer : w.follow calm (Plan.request (.createFolder w.store.folder)) =
      (.ok (), w.onDisk (w.host.disk.makeAt w.host.working w.store.folder).2) := by
    refine World.follow_calm rfl ?_
    rw [Host.answer_createFolder, h.makes]
    rfl
  have hopen := World.run_ensureFolder_of_not_made calm (w := w) (by rw [h.unopened]; rfl)
  rw [show w.answer calm (.createFolder w.store.folder) = _ from hanswer] at hopen
  refine ⟨_, hopen, ?_⟩
  exact {
    made := rfl
    named := by
      show w.store.folder ≠ ""
      have hne := Disk.joinPath_ne_empty state plainName_watermarks
      rw [h.unopened]
      simpa [under] using hne
    path := requirePath_of_makeAt h.makes
    place := h.place
    nodup := by
      have hnone := List.eq_nil_iff_forall_not_mem.mpr fun name hin =>
        Disk.mem_children.mp hin (h.empty name)
      exact (congrArg List.Nodup hnone).mpr List.nodup_nil
    files := h.empty
    sound := fun name i hi => by simp at hi }

/-- From a new or empty state folder on, a store where nothing fails gives the answers of a map.
In particular a lookup finds what was saved last for the key, and what is asked for other keys
does not change what it finds. -/
theorem store_is_map {state : String} {history : List Action} (hw : Vacant w state q)
    (ha : ∀ a ∈ history, a.Allowed w.store.folder) :
    (LogWatch.inTurn World.perform w history).1 =
        (LogWatch.inTurn (Records.perform w.store.folder) ∅ history).1 ∧
      (∀ before key e after, history = before ++ .save key e :: after →
        Fits w.store.folder (temporary key) → (∀ a ∈ after, ¬a.Touches key) →
          (LogWatch.inTurn World.perform w history).2.record key = .ok (some e.identity)) ∧
      ∀ before a key, history = before ++ [a] → isKey key = true → Fits w.store.folder key →
        ¬a.Touches key → (LogWatch.inTurn World.perform w history).2.record key =
          (LogWatch.inTurn World.perform w before).2.record key := by
  obtain ⟨hanswers, hfolder, hlast⟩ := hw.represents.inTurn ha
  refine ⟨hanswers, ?_, ?_⟩
  · rintro before key e after rfl hfits hafter
    obtain ⟨hk, hf, -⟩ := ha (.save key e) (by simp)
    rw [hlast.record hk (hfolder.symm ▸ hf), inTurn_append]
    show Except.ok
      ((LogWatch.inTurn _ (Records.perform _ _ (.save key e)).2 after).2.lookup key) = _
    rw [Records.lookup_inTurn_of_not_touches _ hafter]
    unfold Records.perform
    dsimp only
    rw [if_pos hfits, Finmap.lookup_insert]
  · rintro before a key rfl hk hf htouches
    obtain ⟨-, hfolder', hlast'⟩ := hw.represents.inTurn fun b hb =>
      ha b (List.mem_append_left _ hb)
    rw [hlast.record hk (hfolder.symm ▸ hf), hlast'.record hk (hfolder'.symm ▸ hf), inTurn_append]
    exact congrArg _ (Records.lookup_perform_of_not_touches _ htouches)

/-! ## A history -/

/-- A state folder of which the records have been taken away, with their folder. -/
def fresh : World where
  store := .under "state"
  host.disk := Disk.prune ⟨[(["state", "watermarks", "AB"], .file "junk".toUTF8),
    (["state", "watermarks"], .folder), (["state"], .folder)]⟩ ["state", "watermarks"]

theorem vacant_fresh : Vacant fresh "state" ["state", "watermarks"] where
  unopened := rfl
  makes := by decide +kernel
  place := by decide +kernel
  empty := by
    have hdisk : (fresh.host.disk.makeAt fresh.host.working fresh.store.folder).2.entries.map
        Prod.fst = [["state", "watermarks"], ["state"]] := by
      decide +kernel
    intro name
    rw [Disk.get?_eq_none_iff (by simp)]
    intro e he
    have hin := List.mem_map_of_mem (f := Prod.fst) he
    rw [hdisk] at hin
    rintro hname
    rw [hname] at hin
    simp at hin

/-- Two keys are saved, one of them is found by a new store and reset, and one is left. -/
theorem store_is_map_of_two_keys :
    (LogWatch.inTurn World.perform fresh [.get "5eaF", .save "5eaF" leapEvent, .save "AB" {},
      .reopen, .get "5eaF", .reset "5eaF", .reset "5eaF", .clear]).1 =
      [.ok (.found none), .ok .saved, .ok .saved, .ok .reopened,
        .ok (.found (some leapEvent.identity)), .ok (.removed true), .ok (.removed false),
        .ok (.cleared 1)] := by
  have hallowed : ∀ a ∈ [Action.get "5eaF", .save "5eaF" leapEvent, .save "AB" {},
      .reopen, .get "5eaF", .reset "5eaF", .reset "5eaF", .clear],
      a.Allowed fresh.store.folder := by
    decide +kernel
  obtain ⟨hanswers, -⟩ := store_is_map vacant_fresh hallowed
  rw [hanswers]
  decide +kernel

/-- Where the temporary file cannot be named the save fails, and a lookup still finds nothing. -/
theorem answers_of_long_key {state : String} {e : Event} (hw : Vacant w state q)
    (hk : isKey key = true) (hf : Fits w.store.folder key) (hy : e.instant.HasPlainYear)
    (hlong : ¬Fits w.store.folder (temporary key)) :
    (LogWatch.inTurn World.perform w [.save key e, .get key]).1 =
      [.error (.io (joinPath w.store.folder (temporary key)) Disk.nameTooLong),
        .ok (.found none)] := by
  have hallowed : ∀ a ∈ [Action.save key e, .get key], a.Allowed w.store.folder := by
    intro a ha
    obtain rfl | rfl := List.mem_pair.mp ha
    · exact ⟨hk, hf, hy⟩
    · exact ⟨hk, hf⟩
  have hsave : Records.perform w.store.folder ∅ (.save key e) =
      (.error (.io (joinPath w.store.folder (temporary key)) Disk.nameTooLong), ∅) :=
    if_neg hlong
  rw [(hw.represents.inTurn hallowed).1]
  show [(Records.perform _ ∅ (.save key e)).1,
    (Records.perform _ (Records.perform _ ∅ (.save key e)).2 (.get key)).1] = _
  rw [hsave]
  rfl

/-- A key that can be the name of a file, with no room for the name of its temporary file. -/
def longKey : String := String.ofList (List.replicate 251 'A')

theorem isKey_longKey : isKey longKey = true := by
  rw [isKey_iff]
  unfold longKey
  rw [String.toList_ofList]
  refine ⟨List.ne_nil_of_mem (List.mem_replicate.mpr ⟨by decide, rfl⟩), fun c hc => ?_⟩
  rw [List.eq_of_mem_replicate hc]
  decide

/-- A map would save the key and find it. -/
theorem long_key_is_never_saved :
    isKey longKey = true ∧ Fits fresh.store.folder longKey ∧
      (LogWatch.inTurn World.perform fresh [.save longKey {}, .get longKey]).1 =
        [.error (.io (joinPath fresh.store.folder (temporary longKey)) Disk.nameTooLong),
          .ok (.found none)] := by
  have hfolder : '\x00' ∉ fresh.store.folder.toList := by decide +kernel
  have hplain : '\x00' ∉ (joinPath fresh.store.folder longKey).toList := by
    rw [Disk.mem_toList_joinPath (by decide) (plainName_of_isKey isKey_longKey)]
    exact not_or.mpr ⟨hfolder, not_mem_of_isKey isKey_longKey (by decide)⟩
  have hfits : Fits fresh.store.folder longKey :=
    Disk.fits_iff.mpr ⟨by decide +kernel, hplain, by decide +kernel⟩
  exact ⟨isKey_longKey, hfits, answers_of_long_key vacant_fresh isKey_longKey hfits (by decide)
    (by decide +kernel)⟩

end Store
end LogWatch
