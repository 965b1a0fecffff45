import LogWatch.Proofs.Disk.File

/-!
# The names in a folder

A folder holds exactly the names at which something is found in its place.  A file that is made
adds its name, a file that is removed takes its name away, and neither has any other effect.  A
name leads to its file unless it, or the path that it ends, is too long.

    (d.set (p ++ [name]) n).children p = name :: (d.children p).filter (· != name)  (children_set)
    name ∈ d.children p ↔ d.get? (p ++ [name]) ≠ none                               (mem_children)
-/

namespace LogWatch
namespace Disk

/-! ## One path after another -/

theorem erase_erase (d : Disk) (p : Path) : (d.erase p).erase p = d.erase p := by
  unfold erase
  simp

theorem erase_set (d : Disk) (p : Path) (n : Node) : (d.set p n).erase p = d.erase p := by
  have hagain := erase_erase d p
  unfold set
  unfold erase at hagain ⊢
  rw [List.filter_cons_of_neg (by simp)]
  exact hagain

/-- What stood at a place before does not matter. -/
theorem set_erase (d : Disk) (p : Path) (n : Node) : (d.erase p).set p n = d.set p n := by
  unfold set
  rw [erase_erase]

theorem set_set (d : Disk) (p : Path) (m n : Node) : (d.set p m).set p n = d.set p n := by
  unfold set
  rw [show (⟨(p, m) :: (d.erase p).entries⟩ : Disk) = d.set p m from rfl, erase_set]

theorem get?_eq_none_iff {d : Disk} {p : Path} (hp : p ≠ []) :
    d.get? p = none ↔ ∀ e ∈ d.entries, e.1 ≠ p := by
  unfold get?
  rw [if_neg (by simpa using hp), List.lookup_eq_none_iff]
  simp only [bne_iff_ne, ne_eq, eq_comm (a := p)]

theorem erase_eq_self {d : Disk} {p : Path} (hp : p ≠ []) (h : d.get? p = none) :
    d.erase p = d := by
  unfold erase
  rw [List.filter_eq_self.mpr]
  intro e he
  simpa using (get?_eq_none_iff hp).mp h e he

/-! ## Names -/

/-- The name by which a path stands in a folder, if it does. -/
def child? (p q : Path) : Option String :=
  match q.reverse with
  | name :: above => if above.reverse == p then some name else none
  | [] => none

theorem child?_eq_some_iff {p q : Path} {name : String} :
    child? p q = some name ↔ q = p ++ [name] := by
  unfold child?
  rcases List.eq_nil_or_concat q with rfl | ⟨front, last, rfl⟩
  · simp
  · simp [and_comm]

theorem children_eq (d : Disk) (p : Path) :
    d.children p = d.entries.filterMap fun e => child? p e.1 := rfl

theorem mem_children {d : Disk} {p : Path} {name : String} :
    name ∈ d.children p ↔ d.get? (p ++ [name]) ≠ none := by
  rw [children_eq, List.mem_filterMap, ne_eq, get?_eq_none_iff (by simp)]
  simp only [child?_eq_some_iff, ne_eq, Classical.not_forall, Classical.not_not, exists_prop]

theorem children_erase (d : Disk) (p : Path) (name : String) :
    (d.erase (p ++ [name])).children p = (d.children p).filter (· != name) := by
  rw [children_eq, children_eq]
  unfold erase
  rw [List.filterMap_filter, List.filter_filterMap]
  congr 1
  funext e
  cases hc : child? p e.1 with
  | none => split <;> rfl
  | some other =>
    rw [child?_eq_some_iff.mp hc]
    by_cases ho : other = name <;> simp [ho, Option.filter]

theorem children_set (d : Disk) (p : Path) (name : String) (n : Node) :
    (d.set (p ++ [name]) n).children p = name :: (d.children p).filter (· != name) := by
  rw [← children_erase, children_eq, children_eq]
  unfold set
  rw [List.filterMap_cons, child?_eq_some_iff.mpr rfl]

/-! ## Names that lead to a place -/

theorem requirePath_eq_ok {path : String} :
    requirePath path = .ok () ↔ '\x00' ∉ path.toList ∧ path.utf8ByteSize ≤ pathLimit := by
  unfold requirePath
  split
  · simp_all
  · split
    · simp_all
    · simp_all

/-- A file of the folder can have this name. -/
structure Fits (folder name : String) : Prop where
  short : name.utf8ByteSize ≤ nameLimit
  path : requirePath (joinPath folder name) = .ok ()

theorem fits_iff {folder name : String} :
    Fits folder name ↔ name.utf8ByteSize ≤ nameLimit ∧
      '\x00' ∉ (joinPath folder name).toList ∧
        (joinPath folder name).utf8ByteSize ≤ pathLimit := by
  rw [← requirePath_eq_ok]
  exact ⟨fun h => ⟨h.short, h.path⟩, fun h => ⟨h.1, h.2⟩⟩

instance (folder name : String) : Decidable (Fits folder name) :=
  decidable_of_iff _ fits_iff.symm

variable {d : Disk} {working q : Path} {folder name other : String}

theorem locate_of_fits (hn : PlainName name) (hq : d.folderAt working folder = .ok q)
    (hf : Fits folder name) : d.locate working (joinPath folder name) = .ok (q ++ [name]) := by
  rw [locate_joinPath d working folder hn, hf.path, hq]
  show step q name = _
  rw [step_plain q hn, if_neg (Nat.not_lt.mpr hf.short)]

theorem mem_toList_joinPath {c : Char} (hc : c ≠ '/') (hn : PlainName name) :
    c ∈ (joinPath folder name).toList ↔ c ∈ folder.toList ∨ c ∈ name.toList := by
  obtain ⟨cs, hf, hj⟩ | ⟨rfl, hj⟩ | ⟨-, hj⟩ := toList_joinPath folder hn <;> rw [hj]
  · simp [hf, hc]
  · simp
  · simp [hc]

/-- Beside a name that fits, another one is at most too long. -/
theorem locate_of_not_fits (hn : PlainName name) (ho : PlainName other)
    (hq : d.folderAt working folder = .ok q) (hf : Fits folder name)
    (hplain : '\x00' ∉ other.toList) (hlong : ¬Fits folder other) :
    d.locate working (joinPath folder other) = .error nameTooLong := by
  have hfolder : '\x00' ∉ folder.toList := fun h =>
    (requirePath_eq_ok.mp hf.path).1 ((mem_toList_joinPath (by decide) hn).mpr (.inl h))
  have hpath : '\x00' ∉ (joinPath folder other).toList := by
    rw [mem_toList_joinPath (by decide) ho]
    exact not_or.mpr ⟨hfolder, hplain⟩
  rw [locate_joinPath d working folder ho, hq]
  by_cases hr : requirePath (joinPath folder other) = .ok ()
  · rw [hr]
    show step q other = _
    rw [step_plain q ho, if_pos]
    exact Nat.lt_of_not_le fun hlen => hlong ⟨hlen, hr⟩
  · have hsize : pathLimit < (joinPath folder other).utf8ByteSize :=
      Nat.lt_of_not_le fun hle => hr (requirePath_eq_ok.mpr ⟨hpath, hle⟩)
    unfold requirePath
    rw [if_neg (by simpa using hpath), if_pos hsize]
    rfl

end Disk
end LogWatch
