import LogWatch.Identity

/-!
# Watermark records

A record is the identity of the last reported event on two lines: its instant, then its
hash.  Records of an older layout of time are read too; lines after the second are ignored,
and blanks around a line do not count.
-/

namespace LogWatch.Store

open LogWatch.Text

/-- Why a text is no record. -/
inductive RecordFault
  | missingTime
  | missingHash
  | badTime (text : String)
  deriving DecidableEq

def RecordFault.message : RecordFault → String
  | .missingTime => "missing timestamp line"
  | .missingHash => "missing hash line"
  | .badTime text => "unrecognized timestamp '" ++ text ++ "'"

def recordText (i : Identity) : String := i.instant.toString ++ "\n" ++ i.hash ++ "\n"

/-- A line by its number, trimmed, unless it is blank. -/
def filledLine? (lines : List (List Char)) (n : Nat) : Option (List Char) :=
  match lines[n]? with
  | none => none
  | some line => if (trim line).isEmpty then none else some (trim line)

def readRecord (s : String) : Except RecordFault Identity :=
  let found := lines s.toList
  match filledLine? found 0 with
  | none => .error .missingTime
  | some time =>
    match filledLine? found 1 with
    | none => .error .missingHash
    | some hash =>
      match Time.Instant.readRecord? (String.ofList time) with
      | some t => .ok ⟨String.ofList hash, t⟩
      | none => .error (.badTime (String.ofList time))

end LogWatch.Store
