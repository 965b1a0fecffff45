import LogWatch.Disk.Basic
import LogWatch.Proofs.Result
import LogWatch.Proofs.Text.Lines

/-!
# Places in a folder

A plain name written after a folder leads to that name in the place of the folder.  Steps that
leave all folders and the rest of the names in a folder as they are do not change what a name
in it leads to.

    locate d working (joinPath folder name) = (folderAt d working folder >>= …)  (locate_joinPath)
-/

namespace LogWatch

/-- A name that leads to something in the folder before it. -/
structure PlainName (name : String) : Prop where
  ne_empty : name ≠ ""
  ne_here : name ≠ "."
  ne_above : name ≠ ".."
  no_slash : '/' ∉ name.toList

theorem PlainName.toList_ne_nil {name : String} (h : PlainName name) : name.toList ≠ [] := by
  intro hn
  exact h.ne_empty (String.toList_injective hn)

theorem startsWith_slash (s : String) : s.startsWith "/" = decide (s.toList.head? = some '/') := by
  rw [Bool.eq_iff_iff, String.startsWith_string_iff, decide_eq_true_iff]
  constructor
  · rintro ⟨rest, hr⟩
    rw [← hr]
    rfl
  · intro h
    obtain ⟨rest, hr⟩ := List.head?_eq_some_iff.mp h
    exact ⟨rest, hr.symm⟩

theorem endsWith_slash_iff (s : String) :
    s.endsWith "/" = true ↔ ∃ cs, s.toList = cs ++ ['/'] := by
  show s.toSlice.endsWith "/" = true ↔ _
  rw [String.Slice.endsWith_string_iff, String.copy_toSlice]
  constructor
  · rintro ⟨cs, hc⟩
    exact ⟨cs, hc.symm⟩
  · rintro ⟨cs, hc⟩
    exact ⟨cs, hc.symm⟩

theorem PlainName.startsWith {name : String} (h : PlainName name) :
    name.startsWith "/" = false := by
  rw [startsWith_slash, decide_eq_false_iff_not]
  intro hh
  exact h.no_slash (List.mem_of_head? hh)

/-- A path is joined with a slash, unless there is nothing before it or a slash already. -/
theorem toList_joinPath (folder : String) {name : String} (h : PlainName name) :
    (∃ cs, folder.toList = cs ++ ['/'] ∧
      (joinPath folder name).toList = cs ++ '/' :: name.toList) ∨
    (folder = "" ∧ joinPath folder name = name) ∨
    (folder ≠ "" ∧ (joinPath folder name).toList = folder.toList ++ '/' :: name.toList) := by
  unfold joinPath
  rw [h.startsWith]
  simp only [Bool.false_eq_true, if_false, Bool.or_eq_true, String.isEmpty_iff]
  by_cases he : folder = ""
  · exact .inr (.inl ⟨he, by simp [he]⟩)
  · by_cases hs : folder.endsWith "/" = true
    · obtain ⟨cs, hc⟩ := (endsWith_slash_iff folder).mp hs
      exact .inl ⟨cs, hc, by simp [hs, hc]⟩
    · exact .inr (.inr ⟨he, by simp [he, hs]⟩)

namespace Disk

/-- A joined path has the names of the folder and the name; a slash at the end of the folder
gives the folder an empty name, which leads nowhere else. -/
theorem parts_joinPath (working : Path) (folder : String) {name : String} (h : PlainName name) :
    ∃ names, parts working (joinPath folder name) = ((parts working folder).1, names ++ [name]) ∧
      ((parts working folder).2 = names ∨ (parts working folder).2 = names ++ [""]) := by
  have hsplit : name.toList.splitOn '/' = [name.toList] := List.splitOn_eq_singleton h.no_slash
  unfold parts
  rw [startsWith_slash, startsWith_slash]
  rcases toList_joinPath folder h with ⟨cs, hf, hj⟩ | ⟨rfl, hj⟩ | ⟨hne, hj⟩
  · refine ⟨(cs.splitOn '/').map String.ofList, ?_, .inr ?_⟩
    · rw [hj, hf, List.splitOn_append_cons_self, hsplit]
      cases cs <;> simp
    · rw [hf, List.splitOn_append_cons_self]
      simp
  · refine ⟨[], ?_, .inr (by simp)⟩
    have hhead : name.toList.head? ≠ some '/' := fun hh => h.no_slash (List.mem_of_head? hh)
    rw [hj, hsplit]
    simp [hhead]
  · refine ⟨(folder.toList.splitOn '/').map String.ofList, ?_, .inl rfl⟩
    rw [hj, List.splitOn_append_cons_self, hsplit]
    cases hf : folder.toList with
    | nil => exact absurd (String.toList_injective hf) hne
    | cons c cs => simp

theorem joinPath_ne_empty (folder : String) {name : String} (h : PlainName name) :
    (joinPath folder name).isEmpty = false := by
  rw [Bool.eq_false_iff, ne_eq, String.isEmpty_iff]
  intro he
  have hn := h.toList_ne_nil
  rcases toList_joinPath folder h with ⟨cs, -, hj⟩ | ⟨-, hj⟩ | ⟨-, hj⟩
  · rw [he] at hj
    simp at hj
  · rw [← hj, he] at hn
    simp at hn
  · rw [he] at hj
    simp at hj

/-- A folder's path is no longer than that of a thing in it. -/
theorem requirePath_folder {folder name : String}
    (h : requirePath (joinPath folder name) = .ok ()) (hn : PlainName name) :
    requirePath folder = .ok () := by
  obtain ⟨rest, hr⟩ : ∃ rest, joinPath folder name = folder ++ rest := by
    unfold joinPath
    rw [hn.startsWith]
    split
    · simp at *
    · split
      · exact ⟨name, rfl⟩
      · exact ⟨"/" ++ name, by simp [String.append_assoc]⟩
  rw [hr] at h
  unfold requirePath at h ⊢
  rw [String.utf8ByteSize_append] at h
  split at h
  · simp at h
  · next hc =>
    rw [if_neg (by simp_all)]
    split at h
    · simp at h
    · rw [if_neg (by omega)]

theorem step_plain (p : Path) {name : String} (h : PlainName name) :
    step p name =
      if nameLimit < name.utf8ByteSize then .error nameTooLong else .ok (p ++ [name]) := by
  unfold step
  rw [if_neg (by simp [h.ne_empty, h.ne_here]), if_neg (by simp [h.ne_above])]

theorem step_empty (p : Path) : step p "" = .ok p := by
  unfold step
  rw [if_pos (by simp)]

theorem walk_append (d : Disk) (p : Path) (xs ys : List String) :
    d.walk p (xs ++ ys) = d.walk p xs >>= fun q => d.walk q ys := by
  induction xs generalizing p with
  | nil => rfl
  | cons x xs ih =>
    rw [List.cons_append, walk, walk]
    cases d.requireFolder p with
    | error f => rfl
    | ok _ =>
      cases step p x with
      | error f => rfl
      | ok q => exact ih q

/-- The place of a folder by its written path. -/
def folderAt (d : Disk) (working : Path) (folder : String) : Outcome Path := do
  let p ← d.walk (parts working folder).1 (parts working folder).2
  d.requireFolder p
  return p

theorem walk_cons (d : Disk) (p : Path) (name : String) (names : List String) :
    d.walk p (name :: names) = d.requireFolder p >>= fun _ => step p name >>= fun q =>
      d.walk q names := rfl

theorem walk_singleton (d : Disk) (p : Path) (name : String) :
    d.walk p [name] = d.requireFolder p >>= fun _ => step p name := by
  rw [walk_cons]
  exact congrArg _ (funext fun _ => bind_pure (step p name))

/-- An empty name leads nowhere else. -/
theorem walk_empty (d : Disk) (p : Path) :
    d.walk p [""] = d.requireFolder p >>= fun _ => pure p := by
  rw [walk_singleton, step_empty]
  rfl

theorem requireFolder_twice {α : Type} (d : Disk) (p : Path) (f : Unit → Outcome α) :
    (d.requireFolder p >>= fun _ => d.requireFolder p >>= f) = d.requireFolder p >>= f := by
  cases d.requireFolder p <;> rfl

theorem locate_joinPath (d : Disk) (working : Path) (folder : String) {name : String}
    (h : PlainName name) :
    d.locate working (joinPath folder name) =
      requirePath (joinPath folder name) >>= fun _ => d.folderAt working folder >>= fun p =>
        step p name := by
  obtain ⟨names, hj, hf⟩ := parts_joinPath working folder h
  have hwalk : d.walk (parts working folder).1 (names ++ [name]) =
      d.folderAt working folder >>= fun p => step p name := by
    unfold folderAt
    rcases hf with hf | hf
    · rw [hf, walk_append]
      simp only [walk_singleton, bind_assoc, pure_bind]
    · rw [hf, walk_append, walk_append]
      simp only [walk_empty, bind_assoc, pure_bind, requireFolder_twice]
      simp only [walk_singleton]
  unfold locate
  rw [joinPath_ne_empty folder h, hj, ← hwalk]
  rfl

end Disk
end LogWatch
