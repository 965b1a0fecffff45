import LogWatch.Proofs.Store.Open
import LogWatch.Proofs.Store.Record

/-!
# Saving a record

A record is written to a temporary file of its folder, which then takes the record's name.
Whatever fails on the way, the files of other keys stay as they were, and so does the old
record until the last step succeeds; after it the file holds the new record.

    keeps_view_write, sameFile_write_error, fileAt_write
-/

namespace LogWatch

/-! ## Names -/

namespace Store

/-- The name of the temporary file of a key. -/
def temporary (key : String) : String := "." ++ key ++ ".tmp"

theorem toList_temporary (key : String) :
    (temporary key).toList = '.' :: (key.toList ++ ['.', 't', 'm', 'p']) := by
  simp [temporary]

theorem isKey_iff {key : String} :
    isKey key = true ↔ key.toList ≠ [] ∧ ∀ c ∈ key.toList,
      c.isDigit = true ∨ ('a' ≤ c ∧ c ≤ 'f') ∨ ('A' ≤ c ∧ c ≤ 'F') := by
  unfold isKey
  simp [or_assoc]

theorem not_mem_of_isKey {key : String} (hk : isKey key = true) {c : Char}
    (hc : c ∈ ['.', '/', '\x00']) : c ∉ key.toList := by
  have hsign : ∀ c ∈ ['.', '/', '\x00'],
      ¬(c.isDigit = true ∨ ('a' ≤ c ∧ c ≤ 'f') ∨ ('A' ≤ c ∧ c ≤ 'F')) := by
    simp
  exact fun hm => hsign c hc ((isKey_iff.mp hk).2 c hm)

/-- A configuration's identity can name a record. -/
theorem isKey_identity (c : Configuration) : isKey c.identity = true := by
  rw [isKey_iff]
  have hdigest := Digest.Sha256.ofString_ne_nil c.canonicalText
  unfold Configuration.identity Digest.hex
  rw [String.toList_ofList]
  constructor
  · cases hd : Digest.Sha256.ofString c.canonicalText with
    | nil => exact absurd hd hdigest
    | cons b bytes => simp
  · intro ch hch
    obtain ⟨b, -, hb⟩ := List.mem_flatMap.mp hch
    have hlt := b.toNat_lt
    have hsign (n : Nat) (hn : n < 16) : ch = Digest.hexSign n →
        ch.isDigit = true ∨ ('a' ≤ ch ∧ ch ≤ 'f') ∨ ('A' ≤ ch ∧ ch ≤ 'F') := by
      rintro rfl
      have h := Digest.isHexDigit_hexSign n hn
      rw [Bool.or_eq_true, Bool.and_eq_true, decide_eq_true_iff, decide_eq_true_iff] at h
      exact h.imp_right .inr
    rcases List.mem_cons.mp hb with h | h
    · exact hsign _ (by omega) h
    · exact hsign _ (by omega) (List.mem_singleton.mp h)

theorem plainName_of_isKey {key : String} (hk : isKey key = true) : PlainName key where
  ne_empty := by
    rintro rfl
    exact (isKey_iff.mp hk).1 rfl
  ne_here := by
    rintro rfl
    exact not_mem_of_isKey (c := '.') hk (by decide) (by decide)
  ne_above := by
    rintro rfl
    exact not_mem_of_isKey (c := '.') hk (by decide) (by decide)
  no_slash := not_mem_of_isKey hk (by decide)

theorem plainName_temporary {key : String} (hk : isKey key = true) :
    PlainName (temporary key) where
  ne_empty := by
    intro h
    have hl := congrArg String.toList h
    rw [toList_temporary] at hl
    simp at hl
  ne_here := by
    intro h
    have hl := congrArg (List.length ∘ String.toList) h
    rw [Function.comp_apply, toList_temporary] at hl
    simp at hl
  ne_above := by
    intro h
    have hl := congrArg (List.length ∘ String.toList) h
    rw [Function.comp_apply, toList_temporary] at hl
    simp at hl
  no_slash := by
    rw [toList_temporary]
    simp [not_mem_of_isKey (c := '/') hk (by decide)]

theorem ne_temporary {key : String} (hk : isKey key = true) (other : String) :
    key ≠ temporary other := by
  rintro rfl
  exact not_mem_of_isKey (c := '.') hk (by decide) (by rw [toList_temporary]; simp)

end Store

/-! ## Requests in the folder -/

namespace Host

/-- The working folder and the file at a written path are the same. -/
structure SameFile (path : String) (h h' : Host) : Prop where
  working : h'.working = h.working
  file : h'.disk.fileAt h'.working path = h.disk.fileAt h.working path

theorem SameFile.refl (path : String) (h : Host) : SameFile path h h := ⟨rfl, rfl⟩

variable {folder name other : String}

theorem change_eq_ok {h h' : Host} {path : String} {f : Path → Disk.Outcome Disk}
    (hc : h.change path f = (.ok (), h')) :
    ∃ p d, h.disk.locate h.working path = .ok p ∧ f p = .ok d ∧ h' = { h with disk := d } := by
  unfold change at hc
  cases hr : h.disk.locate h.working path >>= f with
  | error fault =>
    rw [hr] at hc
    simp at hc
  | ok d =>
    rw [hr] at hc
    obtain ⟨p, hp, hd⟩ := bind_eq_ok.mp hr
    exact ⟨p, d, hp, hd, (Prod.mk.inj hc).2.symm⟩

theorem change_eq_error {h h' : Host} {path : String} {f : Path → Disk.Outcome Disk}
    {fault : FileFault} (hc : h.change path f = (.error fault, h')) : h' = h := by
  unfold change at hc
  split at hc
  · simp at hc
  · exact (Prod.mk.inj hc).2.symm

/-- What leaves a file when it succeeds leaves it when it fails. -/
theorem change_sameFile (h : Host) (path other : String) {f : Path → Disk.Outcome Disk}
    (hf : ∀ p d, h.disk.locate h.working other = .ok p → f p = .ok d →
      d.fileAt h.working path = h.disk.fileAt h.working path) :
    SameFile path h (h.change other f).2 := by
  rcases hc : h.change other f with ⟨fault | _, h'⟩
  · rw [change_eq_error hc]
    exact .refl path h
  · obtain ⟨p, d, hp, hd, rfl⟩ := change_eq_ok hc
    exact ⟨rfl, hf p d hp hd⟩

theorem sameFile_create (h : Host) (hn : PlainName name) (ho : PlainName other)
    (hne : name ≠ other) :
    SameFile (joinPath folder name) h (h.answer (.create (joinPath folder other))).2 :=
  h.change_sameFile _ _ fun _ _ hp hd =>
    Disk.fileAt_of_writes_other hn ho hne hp (Disk.writes_of_create hd)

theorem sameFile_append (h : Host) (hn : PlainName name) (ho : PlainName other)
    (hne : name ≠ other) (bytes : ByteArray) :
    SameFile (joinPath folder name) h (h.answer (.append (joinPath folder other) bytes)).2 := by
  refine h.change_sameFile _ _ fun p d hp hd => ?_
  obtain ⟨before, -, hw⟩ := Disk.writes_of_append hd
  exact Disk.fileAt_of_writes_other hn ho hne hp hw

theorem sameFile_rename (h : Host) {target : String} (hn : PlainName name)
    (ho : PlainName other) (ht : PlainName target) (hne : name ≠ other) (hnt : name ≠ target) :
    SameFile (joinPath folder name) h
      (h.answer (.rename (joinPath folder other) (joinPath folder target))).2 := by
  refine h.change_sameFile _ _ fun p d hp hd => ?_
  obtain ⟨q, hq, hd⟩ := bind_eq_ok.mp hd
  obtain ⟨bytes, -, hk, hw⟩ := Disk.writes_of_rename hd
  rw [Disk.fileAt_of_writes_other hn ht hnt (hk.locate hq) hw]
  obtain ⟨place, hplace, rfl⟩ := Disk.locate_joinPath_eq_ok ho hp
  exact Disk.fileAt_joinPath_congr hn hplace hk (Disk.get?_erase_other _ (by simpa using hne))

theorem sameFile_remove (h : Host) (hn : PlainName name) (ho : PlainName other)
    (hne : name ≠ other) :
    SameFile (joinPath folder name) h (h.answer (.remove (joinPath folder other))).2 := by
  refine h.change_sameFile _ _ fun p d hp hd => ?_
  obtain ⟨bytes, hfile, rfl⟩ := Disk.remove_eq_ok.mp hd
  obtain ⟨q, hq, rfl⟩ := Disk.locate_joinPath_eq_ok ho hp
  exact Disk.fileAt_joinPath_congr hn hq (Disk.keepsFolders_erase (by simp [hfile]))
    (Disk.get?_erase_other _ (by simpa using hne))

theorem fileAt_create {h h' : Host} {path : String} (hc : h.answer (.create path) = (.ok (), h')) :
    h'.disk.fileAt h'.working path = .ok .empty := by
  obtain ⟨p, d, hp, hd, rfl⟩ := change_eq_ok hc
  exact Disk.fileAt_of_writes hp (Disk.writes_of_create hd)

theorem fileAt_append {h h' : Host} {path : String} {before bytes : ByteArray}
    (hb : h.disk.fileAt h.working path = .ok before)
    (hc : h.answer (.append path bytes) = (.ok (), h')) :
    h'.disk.fileAt h'.working path = .ok (before ++ bytes) := by
  obtain ⟨p, d, hp, hd, rfl⟩ := change_eq_ok hc
  obtain ⟨before', hg, hw⟩ := Disk.writes_of_append hd
  rw [Disk.fileAt_eq_ok hp, hg] at hb
  obtain rfl : before' = before := by simpa using hb
  exact Disk.fileAt_of_writes hp hw

theorem fileAt_rename {h h' : Host} {path target : String} {bytes : ByteArray}
    (hb : h.disk.fileAt h.working path = .ok bytes)
    (hc : h.answer (.rename path target) = (.ok (), h')) :
    h'.disk.fileAt h'.working target = .ok bytes := by
  obtain ⟨p, d, hp, hd, rfl⟩ := change_eq_ok hc
  obtain ⟨q, hq, hd⟩ := bind_eq_ok.mp hd
  obtain ⟨bytes', hg, hk, hw⟩ := Disk.writes_of_rename hd
  rw [Disk.fileAt_eq_ok hp, hg] at hb
  obtain rfl : bytes' = bytes := by simpa using hb
  exact Disk.fileAt_of_writes (hk.locate hq) hw

/-! ## Requests amid trouble -/

/-- Trouble answers with failures only. -/
theorem answerAmid_of_no_failure {t : Trouble} {h : Host} {q : Request}
    (hq : ∀ f, q.failure f ≠ some (h.answerAmid t q).1) : h.answerAmid t q = h.answer q := by
  revert hq
  unfold answerAmid
  cases t q with
  | none => exact fun _ => rfl
  | some m =>
    dsimp only
    cases hf : q.failure m.fault with
    | none => exact fun _ => rfl
    | some a => exact fun hq => absurd hf (hq m.fault)

/-- A file that is not given its new name stays where it is, with all else. -/
theorem rename_error {t : Trouble} {h h' : Host} {path target : String} {fault : FileFault}
    (hc : h.answerAmid t (.rename path target) = (.error fault, h')) : h' = h := by
  unfold answerAmid at hc
  cases ht : t (.rename path target) with
  | none =>
    rw [ht] at hc
    exact change_eq_error hc
  | some m =>
    rw [ht] at hc
    exact (Prod.mk.inj hc).2.symm

end Host

namespace World

variable {α : Type} {t : Trouble} {w w' : World} {path : String}

/-- What is seen of the store and of the file at a written path. -/
def view (path : String) (w : World) : Store × Path × Disk.Outcome ByteArray :=
  (w.store, w.host.working, w.host.disk.fileAt w.host.working path)

theorem view_eq_iff :
    view path w' = view path w ↔ w'.store = w.store ∧ Host.SameFile path w.host w'.host := by
  constructor
  · intro h
    obtain ⟨hs, h⟩ := Prod.mk.inj h
    obtain ⟨hw, hf⟩ := Prod.mk.inj h
    exact ⟨hs, hw, hf⟩
  · rintro ⟨hs, hw, hf⟩
    exact Prod.ext hs (Prod.ext hw hf)

theorem run_access_snd (t : Trouble) (w : World) (path : String)
    (p : Plan (Except FileFault α)) :
    (w.run t (Store.access path p)).2 = (w.follow t p).2 := by
  have hp : w.follow t p = ((w.follow t p).1, (w.follow t p).2) := rfl
  rw [run_access hp]

theorem run_access_eq_ok {p : Plan (Except FileFault α)} {a : α} :
    w.run t (Store.access path p) = (.ok a, w') ↔ w.follow t p = (.ok a, w') := by
  rcases hp : w.follow t p with ⟨_ | a', w''⟩ <;> rw [run_access hp] <;> simp [Except.mapError]

theorem run_access_eq_error {p : Plan (Except FileFault α)} {e : Store.Error}
    (h : w.run t (Store.access path p) = (.error e, w')) : ∃ f, w.follow t p = (.error f, w') := by
  rcases hp : w.follow t p with ⟨f | a, w''⟩
  · rw [run_access hp] at h
    exact ⟨f, by rw [(Prod.mk.inj h).2]⟩
  · rw [run_access hp] at h
    simp [Except.mapError] at h

/-- An answer that no failure gives is the host's. -/
theorem host_answer_of_no_failure {q : Request} {a : q.Answer}
    (h : w.answer t q = (a, w')) (hq : ∀ f, q.failure f ≠ some a) :
    w.host.answer q = (a, w'.host) := by
  obtain ⟨ha, hw⟩ := Prod.mk.inj h
  rw [← Host.answerAmid_of_no_failure (t := t) (by rw [ha]; exact hq), ← hw, ← ha]

theorem keeps_view_access {q : Request} {p : Plan (Except FileFault α)} (other : String)
    (hp : ∀ t w, (w.follow t p).2 = (World.answer t w q).2)
    (hq : ∀ h : Host, Host.SameFile path h (h.answer q).2)
    (hm : ∀ (h : Host) m, Host.SameFile path h (h.afterMishap m q)) :
    Keeps (view path) (Store.access other p) := by
  intro t w
  rw [run_access_snd, hp, view_eq_iff]
  exact ⟨rfl, Host.answerAmid_of (hq w.host) (hm w.host)⟩

end World

namespace Store

variable {folder name other : String}

/-- The steps of a save before the last: the temporary file is written. -/
def prepare (path : String) (bytes : ByteArray) : Task Unit := do
  access path (Plan.request (.create path))
  access path (Plan.request (.append path bytes))
  access path (Plan.request (.sync path))

theorem keeps_view_prepare (folder : String) (hn : PlainName name) (ho : PlainName other)
    (hne : name ≠ other) (bytes : ByteArray) :
    World.Keeps (World.view (joinPath folder name)) (prepare (joinPath folder other) bytes) := by
  unfold prepare
  refine World.keeps_bind ?_ fun _ => World.keeps_bind ?_ fun _ => ?_
  · exact World.keeps_view_access _ (fun _ _ => rfl) (fun h => h.sameFile_create hn ho hne)
      fun h _ => .refl _ h
  · exact World.keeps_view_access _ (fun _ _ => rfl) (fun h => h.sameFile_append hn ho hne bytes)
      fun h m => h.sameFile_append hn ho hne _
  · exact World.keeps_view_access _ (fun _ _ => rfl) (fun h => .refl _ h) fun h _ => .refl _ h

theorem fileAt_prepare {t : Trouble} {w w' : World} {path : String} {bytes : ByteArray}
    (h : w.run t (prepare path bytes) = (.ok (), w')) :
    w'.host.disk.fileAt w'.host.working path = .ok bytes := by
  obtain ⟨_, w₁, hcreate, h⟩ := World.run_bind_eq_ok.mp h
  obtain ⟨_, w₂, happend, h⟩ := World.run_bind_eq_ok.mp h
  have h₁ := Host.fileAt_create
    (World.host_answer_of_no_failure (World.run_access_eq_ok.mp hcreate) nofun)
  have h₂ := Host.fileAt_append h₁
    (World.host_answer_of_no_failure (World.run_access_eq_ok.mp happend) nofun)
  have h₃ := World.host_answer_of_no_failure (World.run_access_eq_ok.mp h) nofun
  rw [← (Prod.mk.inj h₃).2, h₂, ByteArray.empty_append]

/-- The steps of a save in a folder that has been made. -/
def write (folder key : String) (bytes : ByteArray) : Task Unit := do
  prepare (joinPath folder (temporary key)) bytes
  access (joinPath folder key)
    (Plan.request (.rename (joinPath folder (temporary key)) (joinPath folder key)))

theorem keeps_view_write (folder : String) {key : String} (hn : PlainName name)
    (hk : isKey key = true) (ht : name ≠ temporary key) (hne : name ≠ key) (bytes : ByteArray) :
    World.Keeps (World.view (joinPath folder name)) (write folder key bytes) := by
  refine World.keeps_bind ?_ fun _ => ?_
  · exact keeps_view_prepare folder hn (plainName_temporary hk) ht bytes
  · exact World.keeps_view_access _ (fun _ _ => rfl)
      (fun h => h.sameFile_rename hn (plainName_temporary hk) (plainName_of_isKey hk) ht hne)
      fun h _ => .refl _ h

/-- Until the last step succeeds, the file of the key is the old one. -/
theorem sameFile_write_error {t : Trouble} {w w' : World} {key : String} {bytes : ByteArray}
    {f : Error} (hk : isKey key = true) (h : w.run t (write folder key bytes) = (.error f, w')) :
    w'.store = w.store ∧ Host.SameFile (joinPath folder key) w.host w'.host := by
  have hprepare := World.view_eq_iff.mp (keeps_view_prepare folder (plainName_of_isKey hk)
    (plainName_temporary hk) (ne_temporary hk key) bytes t w)
  unfold write at h
  rw [World.run_bind] at h
  rcases hp : w.run t (prepare (joinPath folder (temporary key)) bytes) with ⟨_ | _, w₁⟩
  · rw [hp] at h hprepare
    rw [← (Prod.mk.inj h).2]
    exact hprepare
  · rw [hp] at h hprepare
    obtain ⟨fault, hf⟩ := World.run_access_eq_error h
    obtain ⟨ha, hw⟩ := Prod.mk.inj hf
    have hhost : w'.host = w₁.host := by
      rw [← hw]
      exact Host.rename_error (Prod.ext ha rfl)
    have hstore : w'.store = w₁.store := by
      rw [← hw]
      rfl
    rw [hhost, hstore]
    exact hprepare

theorem fileAt_write {t : Trouble} {w w' : World} {key : String} {bytes : ByteArray}
    (hk : isKey key = true) (h : w.run t (write folder key bytes) = (.ok (), w')) :
    w'.store = w.store ∧
      w'.host.disk.fileAt w'.host.working (joinPath folder key) = .ok bytes := by
  obtain ⟨_, w₁, hprepare, hrename⟩ := World.run_bind_eq_ok.mp h
  have hkept := World.view_eq_iff.mp (keeps_view_prepare folder (plainName_of_isKey hk)
    (plainName_temporary hk) (ne_temporary hk key) bytes t w)
  rw [hprepare] at hkept
  have hanswer := World.run_access_eq_ok.mp hrename
  have hstore : w'.store = w₁.store := by
    rw [← (Prod.mk.inj hanswer).2]
    rfl
  exact ⟨hstore.trans hkept.1, Host.fileAt_rename (fileAt_prepare hprepare)
    (World.host_answer_of_no_failure hanswer nofun)⟩

theorem run_save_of_not_key (t : Trouble) (w : World) {key : String}
    (hk : ¬ isKey key = true) (e : Event) :
    w.run t (save key e) = (.error (.invalidKey key), w) := by
  unfold save
  rw [World.run_bind, World.run_checkKey_of_not t w hk]

theorem save_eq {key : String} (hk : isKey key = true) (e : Event) :
    save key e = ensureFolder >>= fun folder =>
      write folder key (recordText e.identity).toUTF8 := by
  unfold save checkKey write prepare
  rw [if_pos hk, pure_bind]
  simp only [bind_assoc]
  rfl

theorem run_save (t : Trouble) (w : World) {key : String} (hk : isKey key = true) (e : Event) :
    w.run t (save key e) =
      match w.run t ensureFolder with
      | (.ok folder, w') => w'.run t (write folder key (recordText e.identity).toUTF8)
      | (.error f, w') => (.error f, w') := by
  rw [save_eq hk, World.run_bind]
  rcases w.run t ensureFolder with ⟨_ | _, _⟩ <;> rfl

end Store
end LogWatch
