import LogWatch.Proofs.Delivery.Rerun
import LogWatch.Proofs.Selection.Kept

/-!
# Records of the older layout

Old records hold an instant of whole seconds with a blank between its date and its time, and a
hash that no event has.  Such a record reads as the watermark that it holds, whichever way its
lines end and whatever lines follow.  Since no event at its instant has its hash, all of them are
new once more; the record of the first event then ends the walk at once.

    Instant.readRecord? (String.ofList t.legacyText) = some t       (Instant.readRecord?_legacyText)
    readRecord s = .ok i                                                  (IsOldRecord.readRecord)
    unreported (some i) events = events.filter (i.instant ≤ ·.instant)      (unreported_of_foreign)
-/

namespace LogWatch

open LogWatch.Text LogWatch.Time

/-! ## The older layout of an instant -/

namespace Time.Instant

/-- The layout `yyyy-MM-dd HH:mm:ssZ`, of what a clock of UTC shows. -/
def legacyText (t : Instant) : List Char :=
  let shown := (Timestamp.ofInstant t).face
  paddedDigits 4 shown.date.year.toNat ++ '-' :: (paddedDigits 2 shown.date.month ++
    '-' :: (paddedDigits 2 shown.date.day ++ ' ' :: (paddedDigits 2 shown.hour ++
    ':' :: (paddedDigits 2 shown.minute ++ ':' :: (paddedDigits 2 shown.second ++ ['Z'])))))

/-- No part of a second is left over; a leap second may be whole too. -/
def IsWhole (t : Instant) : Prop := t.nano % nanosPerSecond = 0

instance (t : Instant) : Decidable t.IsWhole := inferInstanceAs (Decidable (_ = _))

/-- The strict reader takes the older layout: a blank may end a date. -/
theorem readRecord?_legacyText {t : Instant} (hw : t.IsWhole) (hy : t.HasPlainYear) :
    readRecord? (String.ofList t.legacyText) = some t := by
  have hend : ∀ rest, Layout.dateEnd (' ' :: rest) = some ((), rest) := fun _ => rfl
  have hstrict := (Timestamp.ofInstant t).strict_face hend (by rw [year_face]; exact hy)
  have hrest : fractionText (Timestamp.ofInstant t).face.nano ++
      offsetText (Timestamp.ofInstant t).offset = ['Z'] := by
    have hnano : (Timestamp.ofInstant t).face.nano = 0 := hw
    rw [hnano]
    rfl
  rw [hrest] at hstrict
  have hread : Timestamp.read? strict t.legacyText = some (Timestamp.ofInstant t) := by
    unfold Timestamp.read?
    rw [legacyText, Reader.whole_eq_some hstrict]
    simp only [Option.bind_eq_bind, Option.bind_some, Timestamp.resolve?_face,
      Timestamp.ofShown?_eq]
  unfold readRecord? Timestamp.readStrict?
  rw [String.toList_ofList, hread]
  rfl

/-- Beside digits, the layout has its five signs and the closing letter. -/
theorem mem_legacyText {t : Instant} {c : Char} (h : c ∈ t.legacyText) :
    c.isDigit = true ∨ c ∈ ['-', ' ', ':', 'Z'] := by
  have hdigit {n m : Nat} (hc : c ∈ paddedDigits n m) : c.isDigit = true :=
    List.all_eq_true.mp (paddedDigits_all_isDigit n m) c hc
  simp only [legacyText, List.mem_append, List.mem_cons, List.not_mem_nil, or_false] at h
  grind

theorem onOneLine_legacyText (t : Instant) : OnOneLine t.legacyText := by
  intro c hc
  rcases mem_legacyText hc with hdigit | hsign
  · exact ⟨ne_of_test hdigit rfl, ne_of_test hdigit rfl⟩
  · constructor
    · rintro rfl
      exact absurd hsign (by decide)
    · rintro rfl
      exact absurd hsign (by decide)

theorem legacyText_ne_nil (t : Instant) : t.legacyText ≠ [] := by simp [legacyText]

/-- The blank stands inside, between a digit and a letter at the ends. -/
theorem trim_legacyText (t : Instant) : trim t.legacyText = t.legacyText := by
  refine trim_of_ends (fun c hc => ?_) fun c hc => ?_
  · obtain ⟨d, hd, hdigit⟩ := head_paddedDigits 4 (Timestamp.ofInstant t).face.date.year.toNat
      ('-' :: (paddedDigits 2 (Timestamp.ofInstant t).face.date.month ++
        '-' :: (paddedDigits 2 (Timestamp.ofInstant t).face.date.day ++
        ' ' :: (paddedDigits 2 (Timestamp.ofInstant t).face.hour ++
        ':' :: (paddedDigits 2 (Timestamp.ofInstant t).face.minute ++
        ':' :: (paddedDigits 2 (Timestamp.ofInstant t).face.second ++ ['Z']))))))
    obtain rfl : d = c := Option.some.inj (hd.symm.trans hc)
    exact isBlank_of_isDigit hdigit
  · have hlast : t.legacyText.getLast? = some 'Z' := by
      simp [legacyText, List.getLast?_append, List.getLast?_cons]
    obtain rfl : 'Z' = c := Option.some.inj (hlast.symm.trans hc)
    decide

end Time.Instant

/-! ## Records -/

namespace Store

/-- The instant of a watermark in the older layout and its hash, on a line each; the second line
may be the last, and any lines may follow it. -/
def IsOldRecord (i : Identity) (s : String) : Prop :=
  ∃ ending tail, IsLineEnd ending ∧
    (tail = [] ∨ ∃ ending' rest, IsLineEnd ending' ∧ tail = ending' ++ rest) ∧
    s.toList = i.instant.legacyText ++ (ending ++ (i.hash.toList ++ tail))

theorem IsOldRecord.readRecord {i : Identity} {s : String} (h : IsOldRecord i s)
    (hw : i.instant.IsWhole) (hy : i.instant.HasPlainYear) (hne : i.hash ≠ "")
    (hb : NoBlanks i.hash.toList) : readRecord s = .ok i := by
  obtain ⟨ending, tail, hending, htail, hs⟩ := h
  have hhash : i.hash.toList ≠ [] := fun hnil => hne (String.toList_injective hnil)
  have hsecond : ∃ more, lines (i.hash.toList ++ tail) = i.hash.toList :: more := by
    rcases htail with rfl | ⟨ending', rest, hending', rfl⟩
    · exact ⟨[], by rw [List.append_nil, lines_of_onOneLine hb.onOneLine hhash]⟩
    · exact ⟨_, lines_append_end hb.onOneLine hending' rest⟩
  obtain ⟨more, hmore⟩ := hsecond
  have hlines : lines s.toList = i.instant.legacyText :: i.hash.toList :: more := by
    rw [hs, lines_append_end i.instant.onOneLine_legacyText hending, hmore]
  have htime : filledLine? (lines s.toList) 0 = some i.instant.legacyText :=
    filledLine?_of_trim (by rw [hlines]; rfl) i.instant.trim_legacyText i.instant.legacyText_ne_nil
  have hfilled : filledLine? (lines s.toList) 1 = some i.hash.toList :=
    filledLine?_of_trim (by rw [hlines]; rfl) (trim_eq_self hb) hhash
  unfold Store.readRecord
  simp only [htime, hfilled, Instant.readRecord?_legacyText hw hy, String.ofList_toList]

end Store

namespace World

theorem run_unreported {t : Trouble} {w : World} {key : String} {last : Option Identity}
    (ht : t.SparesReading) (hk : Store.isKey key = true) (hr : w.record key = .ok last)
    (events : List Event) :
    (w.run t (Store.unreported key events)).1 = .ok (unreported last events) := by
  have hlookup := run_get?_of_spared ht w hk
  rw [hr] at hlookup
  unfold Store.unreported
  rw [run_bind_of_ok hlookup]
  rfl

end World

/-! ## The walk to a hash that no event has -/

theorem unreported_of_foreign {i : Identity} {events : List Event} (h : NewestFirst events)
    (hforeign : ∀ e ∈ events, e.instant = i.instant → e.identity.hash ≠ i.hash) :
    unreported (some i) events = events.filter fun e => i.instant ≤ e.instant := by
  have hpassed : ∀ e ∈ events, i.isPassedBy e = true ↔ i.instant ≤ e.instant := by
    intro e he
    rw [isPassedBy_iff]
    constructor
    · rintro (hlt | ⟨heq, -⟩)
      · exact le_of_lt hlt
      · exact ge_of_eq heq
    · intro hle
      rcases lt_or_eq_of_le hle with hlt | heq
      · exact .inl hlt
      · exact .inr ⟨heq.symm, hforeign e he heq.symm⟩
  have hfront : events.Pairwise fun a b => i.isPassedBy b = true → i.isPassedBy a = true :=
    h.imp_of_mem fun ha hb hle hpass =>
      (hpassed _ ha).mpr (le_trans ((hpassed _ hb).mp hpass) hle)
  dsimp only [unreported]
  rw [Source.takeWhile_eq_filter hfront]
  exact List.filter_congr fun e he => by rw [Bool.eq_iff_iff, hpassed e he, decide_eq_true_iff]

/-- Events that stand newest first begin with those from an instant on. -/
theorem NewestFirst.filter_prefix {events : List Event} (h : NewestFirst events)
    (t : Instant) : (events.filter fun e => t ≤ e.instant) <+: events := by
  rw [← Source.takeWhile_eq_filter]
  · exact List.takeWhile_prefix _
  · refine h.imp fun hle hb => ?_
    simp only [decide_eq_true_iff] at hb ⊢
    exact le_trans hb hle

/-! ## Top theorem -/

/-- A record of the older layout reads as the watermark that it holds.  Where it is the record of a
key, what is new of events without its hash are all those from its instant on; and once the first
of these has been saved under the key, nothing of the same events is new. -/
theorem old_record_migrates {i : Identity} {s : String} (hs : Store.IsOldRecord i s)
    (hw : i.instant.IsWhole) (hy : i.instant.HasPlainYear) (hne : i.hash ≠ "")
    (hb : NoBlanks i.hash.toList) :
    Store.readRecord s = .ok i ∧
    ∀ (events : List Event), NewestFirst events →
      (∀ e ∈ events, e.instant = i.instant → e.identity.hash ≠ i.hash) →
      ∀ (t : Trouble) (w : World) (key path : String), t.SparesReading →
        Store.isKey key = true → w.entry key = .ok (path, .ok s.toUTF8) →
        let kept := events.filter fun e => i.instant ≤ e.instant
        (w.run t (Store.unreported key events)).1 = .ok kept ∧
        ∀ first ∈ kept.head?, first.instant.HasPlainYear →
          ∀ (t' : Trouble) (w' : World), (w'.run t' (Store.save key first)).1 = .ok () →
            ((w'.run t' (Store.save key first)).2.run t (Store.unreported key events)).1 =
              .ok [] := by
  have hread := hs.readRecord hw hy hne hb
  refine ⟨hread, fun events hsorted hforeign t w key path ht hk hfile => ⟨?_, ?_⟩⟩
  · rw [World.run_unreported ht hk (World.record_of_readRecord hk hfile hread),
      unreported_of_foreign hsorted hforeign]
  · intro first hfirst hplain t' w' hsaved
    obtain ⟨rest, hkept⟩ := List.head?_eq_some_iff.mp hfirst
    obtain ⟨older, hevents⟩ := hsorted.filter_prefix i.instant
    rw [hkept, List.cons_append] at hevents
    have hrecord := World.record_save_ok (Prod.ext hsaved rfl : w'.run t' _ = (.ok (), _))
    rw [Store.readBack_of_plain hplain] at hrecord
    rw [World.run_unreported ht hk hrecord, ← hevents,
      Scanner.unreported_of_beginning (List.prefix_refl _)]

/-! ## The end of a leap day -/

namespace Sample

/-- The last second of a leap day; a line follows the hash. -/
def leapDayText : String := "2024-02-29 23:59:59Z\r\nHASH\r\nno hash of ours"

def leapDay : Identity := ⟨"HASH", (Instant.ofSecond? 1709251199 0).getD .epoch⟩

/-- Two of these are at the instant of the record, and none has its hash. -/
def overnight : List Event :=
  [occurring 1709251200 4, occurring 1709251199 3, occurring 1709251199 2, occurring 1709251198 1]

def shelf : World where
  store := ⟨"s", false⟩
  host := { disk := ⟨[(["s", "AB"], .file leapDayText.toUTF8), (["s"], .folder)]⟩ }

end Sample

theorem old_record_migrates_overnight :
    Store.readRecord Sample.leapDayText = .ok Sample.leapDay ∧
      (Sample.shelf.run calm (Store.unreported "AB" Sample.overnight)).1 =
        .ok (Sample.overnight.take 3) ∧
      ((Sample.shelf.run calm (Store.save "AB" (Sample.occurring 1709251200 4))).2.run calm
        (Store.unreported "AB" Sample.overnight)).1 = .ok [] := by
  have hrecord : Store.IsOldRecord Sample.leapDay Sample.leapDayText :=
    ⟨['\r', '\n'], "\r\nno hash of ours".toList, .inr rfl,
      .inr ⟨['\r', '\n'], "no hash of ours".toList, .inr rfl, by decide⟩, by decide +kernel⟩
  have hforeign : ∀ e ∈ Sample.overnight, e.instant = Sample.leapDay.instant →
      e.identity.hash ≠ Sample.leapDay.hash := by
    decide +kernel
  have hfile : Sample.shelf.entry "AB" = .ok ("s/AB", .ok Sample.leapDayText.toUTF8) := by
    decide +kernel
  have hsaved : (Sample.shelf.run calm
      (Store.save "AB" (Sample.occurring 1709251200 4))).1 = .ok () := by
    decide +kernel
  have hblank : NoBlanks Sample.leapDay.hash.toList := by
    have hall : (Sample.leapDay.hash.toList.all fun c => !isBlank c) = true := by decide +kernel
    simpa [NoBlanks] using hall
  have hkept : (Sample.overnight.filter fun e => Sample.leapDay.instant ≤ e.instant) =
      Sample.overnight.take 3 := by
    decide +kernel
  obtain ⟨hread, hlaw⟩ :=
    old_record_migrates hrecord (by decide +kernel) (by decide +kernel) (by decide) hblank
  obtain ⟨hnew, hnone⟩ := hlaw Sample.overnight (by decide +kernel) hforeign calm Sample.shelf "AB"
    "s/AB" calm_sparesReading (by decide +kernel) hfile
  exact ⟨hread, hkept ▸ hnew,
    hnone _ (by rw [hkept]; rfl) (by decide +kernel) calm Sample.shelf hsaved⟩

end LogWatch
