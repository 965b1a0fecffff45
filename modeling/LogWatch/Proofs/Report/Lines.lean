import LogWatch.Report
import LogWatch.Proofs.Identity.Canonical
import LogWatch.Proofs.Time.Text

/-!
# The lines of a text report

A text report is written line by line: the subject, the filter if there is one, an empty line, and
the lines of the events.  Of what an event has only the message is kept from breaking its line; the
source goes into the line as it is, and so do the names of the log and of the machine and the
filter.  Each line feed in one of these makes a line more.

    (pieces (text events c)).length = (textLines events c).length + 1 + strayBreaks events c
                                                                            (length_pieces_text)
    pieces (text events c) = textLines events c ++ [""] ↔ strayBreaks events c = 0
                                                                            (pieces_text_iff)
-/

namespace LogWatch

open Text

/-- The parts of a text between its line feeds. -/
def pieces (s : String) : List String := (s.toList.splitOn '\n').map String.ofList

/-- Lines with a line feed behind each of them. -/
def endedLines (ls : List String) : String := String.join (ls.map (· ++ "\n"))

/-! ## Line feeds -/

theorem lineBreaks_append (s t : String) : lineBreaks (s ++ t) = lineBreaks s + lineBreaks t := by
  unfold lineBreaks
  rw [String.toList_append, List.count_append]

theorem lineBreaks_ofList (cs : List Char) : lineBreaks (String.ofList cs) = cs.count '\n' := by
  rw [lineBreaks, String.toList_ofList]

theorem endedLines_cons (l : String) (ls : List String) :
    endedLines (l :: ls) = l ++ "\n" ++ endedLines ls := by
  unfold endedLines
  rw [List.map_cons, String.join_cons]

theorem lineBreaks_endedLines (ls : List String) :
    lineBreaks (endedLines ls) = ls.length + (ls.map lineBreaks).sum := by
  induction ls with
  | nil => rfl
  | cons l ls ih =>
    have hbreak : lineBreaks "\n" = 1 := by decide
    rw [endedLines_cons, lineBreaks_append, lineBreaks_append, hbreak, ih, List.map_cons,
      List.sum_cons, List.length_cons]
    omega

theorem length_splitOn (c : Char) (cs : List Char) :
    (cs.splitOn c).length = cs.count c + 1 := by
  induction cs with
  | nil => rfl
  | cons d cs ih =>
    rw [List.splitOn_cons_eq_if_modifyHead]
    by_cases hd : d = c
    · rw [if_pos (beq_iff_eq.mpr hd), List.length_cons, ih, hd, List.count_cons_self]
    · rw [if_neg (by simpa using hd), List.length_modifyHead, ih, List.count_cons_of_ne hd]

theorem length_pieces (s : String) : (pieces s).length = lineBreaks s + 1 := by
  unfold pieces lineBreaks
  rw [List.length_map, length_splitOn]

theorem pieces_endedLines {ls : List String} (h : ∀ l ∈ ls, lineBreaks l = 0) :
    pieces (endedLines ls) = ls ++ [""] := by
  induction ls with
  | nil => rfl
  | cons l ls ih =>
    obtain ⟨hl, hls⟩ := List.forall_mem_cons.mp h
    have hfirst : '\n' ∉ l.toList := List.count_eq_zero.mp hl
    have hsplit := List.splitOn_append_cons_self_of_not_mem hfirst (endedLines ls).toList
    have htext : (endedLines (l :: ls)).toList = l.toList ++ '\n' :: (endedLines ls).toList := by
      rw [endedLines_cons, String.toList_append, String.toList_append, List.append_assoc]
      rfl
    have hrest : pieces (endedLines ls) = ls ++ [""] := ih hls
    unfold pieces at hrest ⊢
    rw [htext, hsplit, List.map_cons, String.ofList_toList, hrest, List.cons_append]

/-- Lines can be told apart again exactly if none of them holds a line feed. -/
theorem pieces_endedLines_iff {ls : List String} :
    pieces (endedLines ls) = ls ++ [""] ↔ (ls.map lineBreaks).sum = 0 := by
  constructor
  · intro h
    have hlength := length_pieces (endedLines ls)
    rw [h, List.length_append, List.length_singleton, lineBreaks_endedLines] at hlength
    omega
  · intro h
    apply pieces_endedLines
    intro l hl
    exact List.sum_eq_zero_iff_forall_eq_nat.mp h _ (List.mem_map_of_mem hl)

namespace Report

/-! ## The lines as they are written -/

/-- The subject, the filter if there is one, an empty line, and a line for each event. -/
def textLines (events : List Event) (c : Configuration) : List String :=
  subject events c :: ((if c.filter.isEmpty then [] else ["Filter: " ++ c.filter]) ++
    "" :: events.map line)

/-- The line feeds in what goes into the lines as it is. -/
def strayBreaks (events : List Event) (c : Configuration) : Nat :=
  lineBreaks c.eventLog + lineBreaks c.remoteMachine + lineBreaks c.filter +
    (events.map fun e => lineBreaks e.source).sum

theorem text_eq_endedLines (events : List Event) (c : Configuration) :
    text events c = endedLines (textLines events c) := by
  have hevents : String.join (events.map fun e => line e ++ "\n") =
      endedLines (events.map line) := by
    unfold endedLines
    rw [List.map_map]
    rfl
  have hempty : ("" : String) ++ "\n" = "\n" := rfl
  unfold text textLines
  rw [hevents]
  by_cases hf : c.filter.isEmpty
  · simp only [if_pos hf, List.nil_append, endedLines_cons, hempty, String.append_assoc]
  · simp only [if_neg hf, List.cons_append, List.nil_append, endedLines_cons, hempty,
      String.append_assoc]

/-- Nothing that is written of a number breaks a line. -/
theorem lineBreaks_ofNat (n : Nat) : lineBreaks (ofNat n) = 0 :=
  lineBreaks_ofInt n

theorem lineBreaks_subject (events : List Event) (c : Configuration) :
    lineBreaks (subject events c) = lineBreaks c.eventLog + lineBreaks c.remoteMachine := by
  have hshown (s other : String) (ho : lineBreaks other = 0) :
      lineBreaks (if s.isEmpty then other else s) = lineBreaks s := by
    by_cases hs : s.isEmpty
    · rw [if_pos hs, ho, String.isEmpty_iff.mp hs]
      rfl
    · rw [if_neg hs]
  have hplural : lineBreaks (if events.length = 1 then "" else "s") = 0 := by
    split <;> decide
  have hstart : lineBreaks "Radon report: " = 0 := by decide
  have hnew : lineBreaks " new event" = 0 := by decide
  have hfrom : lineBreaks " from " = 0 := by decide
  have hat : lineBreaks "@" = 0 := by decide
  unfold subject
  simp only [lineBreaks_append, lineBreaks_ofNat, hplural, hstart, hnew, hfrom, hat,
    hshown c.eventLog "events" (by decide), hshown c.remoteMachine "localhost" (by decide)]
  omega

theorem lineBreaks_shownMessage (s : String) : lineBreaks (shownMessage s) = 0 := by
  unfold shownMessage
  rw [lineBreaks_ofList, List.count_eq_zero]
  intro h
  obtain ⟨c, -, hc⟩ := List.mem_flatMap.mp h
  by_cases hbreak : c = '\n'
  · rw [if_pos hbreak] at hc
    exact absurd hc (by decide)
  · rw [if_neg hbreak] at hc
    exact hbreak (List.mem_singleton.mp hc).symm

theorem count_padStart {c fill : Char} (h : fill ≠ c) (width : Nat) (cs : List Char) :
    (padStart width fill cs).count c = cs.count c := by
  have hfill : (List.replicate (width - cs.length) fill).count c = 0 := by
    rw [List.count_eq_zero]
    exact fun hc => h (List.eq_of_mem_replicate hc).symm
  rw [padStart, List.count_append, hfill, Nat.zero_add]

/-- Of what an event has only its source can break its line. -/
theorem lineBreaks_line (e : Event) : lineBreaks (line e) = lineBreaks e.source := by
  have htime : lineBreaks e.instant.toString = 0 := by
    apply lineBreaks_eq_zero
    intro h
    rw [Time.Instant.toString, String.toList_ofList] at h
    exact absurd (e.instant.noBlanks_text _ h) (by decide)
  have htype : (padEnd 12 ' ' e.entryType.name.toList).count '\n' = 0 := by
    cases e.entryType <;> decide
  have hid : (padStart 5 ' ' (signedDigits e.eventId.toInt)).count '\n' = 0 := by
    have hdigits := lineBreaks_ofInt e.eventId.toInt
    rw [ofInt, lineBreaks_ofList] at hdigits
    rw [count_padStart (by decide), hdigits]
  have hopen : lineBreaks " [" = 0 := by decide
  have hclose : lineBreaks "] " = 0 := by decide
  have hspace : lineBreaks " " = 0 := by decide
  have hbar : lineBreaks " | " = 0 := by decide
  unfold line
  simp only [lineBreaks_append, lineBreaks_ofList, htime, htype, hid, hopen, hclose, hspace, hbar,
    lineBreaks_shownMessage]
  omega

theorem sum_lineBreaks_textLines (events : List Event) (c : Configuration) :
    ((textLines events c).map lineBreaks).sum = strayBreaks events c := by
  have hlines : (events.map line).map lineBreaks = events.map fun e => lineBreaks e.source := by
    simp only [List.map_map, Function.comp_def, lineBreaks_line]
  have hfilter : ((if c.filter.isEmpty then [] else ["Filter: " ++ c.filter]).map lineBreaks).sum =
      lineBreaks c.filter := by
    by_cases hf : c.filter.isEmpty
    · rw [if_pos hf, String.isEmpty_iff.mp hf]
      rfl
    · have hhead : lineBreaks "Filter: " = 0 := by decide
      rw [if_neg hf, List.map_singleton, List.sum_singleton, lineBreaks_append, hhead, Nat.zero_add]
  have hempty : lineBreaks "" = 0 := rfl
  unfold textLines strayBreaks
  rw [List.map_cons, List.map_append, List.map_cons, List.sum_cons, List.sum_append, List.sum_cons,
    hfilter, hlines, lineBreaks_subject, hempty]
  omega

/-- Each line feed in a name, in the filter or in a source makes one line more. -/
theorem length_pieces_text (events : List Event) (c : Configuration) :
    (pieces (text events c)).length = (textLines events c).length + 1 + strayBreaks events c := by
  rw [length_pieces, text_eq_endedLines, lineBreaks_endedLines, sum_lineBreaks_textLines]
  omega

theorem pieces_text_iff (events : List Event) (c : Configuration) :
    pieces (text events c) = textLines events c ++ [""] ↔ strayBreaks events c = 0 := by
  rw [text_eq_endedLines, pieces_endedLines_iff, sum_lineBreaks_textLines]

/-! ## Top theorem -/

/-- A text report is the subject, the filter if there is one, an empty line, and a line for each
event in their order, with a line feed behind each.  Cut at its line feeds it falls into these lines
exactly if no name, no filter and no source holds a line feed; whatever a message holds.  Each line
feed in one of these makes a line more. -/
theorem text_has_line_per_event (events : List Event) (c : Configuration) :
    text events c = endedLines (textLines events c) ∧
      (pieces (text events c)).length =
        (textLines events c).length + 1 + strayBreaks events c ∧
      (pieces (text events c) = textLines events c ++ [""] ↔
        '\n' ∉ c.eventLog.toList ∧ '\n' ∉ c.remoteMachine.toList ∧ '\n' ∉ c.filter.toList ∧
          ∀ e ∈ events, '\n' ∉ e.source.toList) := by
  have hstray : strayBreaks events c = 0 ↔
      '\n' ∉ c.eventLog.toList ∧ '\n' ∉ c.remoteMachine.toList ∧ '\n' ∉ c.filter.toList ∧
        ∀ e ∈ events, '\n' ∉ e.source.toList := by
    unfold strayBreaks lineBreaks
    rw [Nat.add_eq_zero_iff, Nat.add_eq_zero_iff, Nat.add_eq_zero_iff,
      List.sum_eq_zero_iff_forall_eq_nat, List.forall_mem_map]
    simp only [List.count_eq_zero, and_assoc]
  rw [← hstray]
  exact ⟨text_eq_endedLines events c, length_pieces_text events c, pieces_text_iff events c⟩

/-! ## A forged line -/

namespace Sample

def unnamed : Configuration := .make "" .hour 0 "" ""

def healthy : Event := { source := "disk", message := "ok" }

def failing : Event := { source := "net", eventId := 7, message := "down" }

/-- An event whose source ends its line and begins that of another event. -/
def forged : Event :=
  { healthy with
    source := "disk | ok\n1970-01-01T00:00:00Z [Information ]     7 net", message := "down" }

end Sample

/-- The report on one event has the lines of the report on two. -/
theorem forged_source_breaks_line :
    pieces (text [Sample.forged] Sample.unnamed) =
        [subject [Sample.forged] Sample.unnamed, "", line Sample.healthy, line Sample.failing, ""] ∧
      pieces (text [Sample.forged] Sample.unnamed) ≠
        textLines [Sample.forged] Sample.unnamed ++ [""] := by
  have hpieces : pieces (text [Sample.forged] Sample.unnamed) =
      [subject [Sample.forged] Sample.unnamed, "", line Sample.healthy, line Sample.failing,
        ""] := by
    have htext : text [Sample.forged] Sample.unnamed = endedLines
        [subject [Sample.forged] Sample.unnamed, "", line Sample.healthy, line Sample.failing] := by
      decide +kernel
    rw [htext]
    exact pieces_endedLines (by decide +kernel)
  refine ⟨hpieces, fun h => ?_⟩
  have hlength := congrArg List.length (hpieces.symm.trans h)
  exact absurd hlength (by decide)

end Report
end LogWatch
