import LogWatch.Proofs.Digest.Base
import LogWatch.Proofs.Time.Text
import LogWatch.Store.Record

/-!
# Records read back

The record of an event reads back as the event's identity when the year of its instant has
four digits, and is malformed otherwise.

    readRecord (recordText e.identity) =
      if e.instant.HasPlainYear then .ok e.identity
      else .error (.badTime e.instant.toString)                        (readRecord_recordText)
-/

namespace LogWatch

open LogWatch.Text LogWatch.Time

theorem Event.hash_eq (e : Event) :
    e.identity.hash.toList = Digest.base64 (Digest.Sha256.ofString e.canonicalText) :=
  String.toList_ofList

theorem Event.noBlanks_hash (e : Event) : NoBlanks e.identity.hash.toList := by
  rw [hash_eq]
  exact Digest.noBlanks_base64 _

theorem Event.hash_ne_nil (e : Event) : e.identity.hash.toList ≠ [] := by
  rw [hash_eq]
  exact Digest.base64_ne_nil (Digest.Sha256.ofString_ne_nil _)

namespace Store

theorem filledLine?_of_trim {lines : List (List Char)} {n : Nat} {line : List Char}
    (h : lines[n]? = some line) (ht : trim line = line) (hne : line ≠ []) :
    filledLine? lines n = some line := by
  unfold filledLine?
  rw [h]
  simp [ht, hne]

theorem filledLine?_eq_some {lines : List (List Char)} {n : Nat} {line : List Char}
    (h : lines[n]? = some line) (hb : NoBlanks line) (hne : line ≠ []) :
    filledLine? lines n = some line := filledLine?_of_trim h (trim_eq_self hb) hne

theorem readRecord_recordText (e : Event) :
    readRecord (recordText e.identity) =
      if e.instant.HasPlainYear then .ok e.identity
      else .error (.badTime e.instant.toString) := by
  have hlines : lines (recordText e.identity).toList =
      [e.instant.text, e.identity.hash.toList] := by
    have htext : (recordText e.identity).toList =
        e.instant.text ++ '\n' :: (e.identity.hash.toList ++ '\n' :: []) := by
      simp [recordText, Instant.toString, Event.identity]
    rw [htext, lines_append_newline e.instant.noBlanks_text,
      lines_append_newline e.noBlanks_hash]
    rfl
  have hread : Instant.readRecord? (String.ofList e.instant.text) = _ :=
    Instant.readRecord?_toString e.instant
  have htime : filledLine? [e.instant.text, e.identity.hash.toList] 0 = some e.instant.text :=
    filledLine?_eq_some rfl e.instant.noBlanks_text e.instant.text_ne_nil
  have hhash : filledLine? [e.instant.text, e.identity.hash.toList] 1 =
      some e.identity.hash.toList :=
    filledLine?_eq_some rfl e.noBlanks_hash e.hash_ne_nil
  unfold readRecord
  simp only [hlines, htime, hhash, hread]
  by_cases h : e.instant.HasPlainYear
  · rw [if_pos h, if_pos h, String.ofList_toList]
    rfl
  · rw [if_neg h, if_neg h]
    rfl

end Store
end LogWatch
