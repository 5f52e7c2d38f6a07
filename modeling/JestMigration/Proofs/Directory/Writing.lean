/-
# `Proofs.Directory.Writing` — what a write changes

Where a path leads depends on which locations are files and which are folders,
not on what the files hold (`Alike`).  A text that is put into a file changes
what stands at its location and nothing else (`entry?_put`), so afterwards every
path leads where it led before.
-/
import JestMigration.Directory

namespace JestMigration

namespace Directory

variable {directory a b c : Directory} {location : Location} {path text content : String}

/-! ## Directories with the same paths -/

/-- Both have files and folders at the same locations. -/
def Alike (a b : Directory) : Prop :=
  ∀ location, (a.entry? location).map Entry.isFile = (b.entry? location).map Entry.isFile

theorem Alike.refl (directory : Directory) : Alike directory directory :=
  fun _ => rfl

theorem Alike.trans (hab : Alike a b) (hbc : Alike b c) : Alike a c :=
  fun location => (hab location).trans (hbc location)

/-- A step from a location needs a folder there, and something with the name inside. -/
theorem step_some (directory : Directory) (location : Location) (name : String) :
    directory.step (some location) name =
      match (directory.entry? location).map Entry.isFile with
      | none => .error .missing
      | some true => .error .notFolder
      | some false =>
        if name = "" ∨ name = "." then .ok (some location)
        else if name = ".." then .ok (if location.isEmpty then none else some location.dropLast)
        else if nameLimit < name.utf8ByteSize then .error .tooLong
        else if ((directory.entry? (location ++ [name])).map Entry.isFile).isSome then
          .ok (some (location ++ [name]))
        else .error .missing := by
  simp only [step, Option.isSome_map]
  cases directory.entry? location with
  | none => rfl
  | some entry => cases entry <;> rfl

theorem Alike.step (h : Alike a b) (location? : Option Location) (name : String) :
    a.step location? name = b.step location? name := by
  cases location? with
  | none => rfl
  | some location => rw [step_some, step_some, h location, h (location ++ [name])]

theorem Alike.walk (h : Alike a b) (location? : Option Location) (names : List String) :
    a.walk location? names = b.walk location? names := by
  induction names generalizing location? with
  | nil => rfl
  | cons name names ih =>
      simp only [Directory.walk, h.step]
      cases b.step location? name with
      | error obstacle => rfl
      | ok next? => exact ih next?

theorem Alike.locate (h : Alike a b) (path : String) : a.locate path = b.locate path := by
  simp only [Directory.locate, h.walk]

/-! ## Reading -/

theorem read_eq_ok_iff : directory.read path = .ok text ↔
    ∃ location, directory.locate path = .ok (some location) ∧
      directory.entry? location = some (.text text) := by
  constructor
  · intro h
    unfold read at h
    split at h
    · exact absurd h (by simp)
    · exact absurd h (by simp)
    · rename_i location hlocate
      split at h
      · rename_i content hentry
        cases h
        exact ⟨location, hlocate, hentry⟩
      · exact absurd h (by simp)
      · exact absurd h (by simp)
      · exact absurd h (by simp)
  · rintro ⟨location, hlocate, hentry⟩
    simp only [read, hlocate, hentry]

/-- A file reads the same as long as it is not written and no path changes. -/
theorem Alike.read (h : Alike a b)
    (hentry : ∀ location, b.locate path = .ok (some location) →
      a.entry? location = b.entry? location) :
    a.read path = b.read path := by
  simp only [Directory.read, h.locate path]
  cases hlocate : b.locate path with
  | error obstacle => rfl
  | ok location? =>
      cases location? with
      | none => rfl
      | some location => simp only [hentry location hlocate]

/-! ## Writing -/

theorem lookup_map_text (entries : List (Location × Entry)) (location other : Location) :
    (entries.map fun (found, entry) =>
        if found = location then (found, Entry.text text) else (found, entry)).lookup other =
      (entries.lookup other).map fun entry =>
        if other = location then Entry.text text else entry := by
  induction entries with
  | nil => rfl
  | cons first rest ih =>
      obtain ⟨found, entry⟩ := first
      have hkey : (if found = location then (found, Entry.text text) else (found, entry)) =
          (found, if found = location then Entry.text text else entry) := by
        split <;> rfl
      simp only [List.map_cons, hkey, List.lookup_cons, ih]
      cases hsame : other == found with
      | true => rw [beq_iff_eq.mp hsame]; rfl
      | false => rfl

/-- Putting a text into a file changes what stands at its location, and nothing else. -/
theorem entry?_put (h : directory.entry? location = some (.text content)) (other : Location) :
    Directory.entry? (directory.put location text) other =
      if other = location then some (.text text) else directory.entry? other := by
  have hany : (directory.put location text).entries.any
        (fun (found, _) => other.isPrefixOf found) =
      directory.entries.any fun (found, _) => other.isPrefixOf found := by
    rw [put, List.any_map]
    congr 1
    funext ⟨found, entry⟩
    simp only [Function.comp]
    split <;> rfl
  have hlookup : (directory.put location text).entries.lookup other = _ :=
    lookup_map_text directory.entries location other
  rw [ entry?, hany, hlookup]
  by_cases hother : other = location
  · subst hother
    rw [if_pos rfl]
    unfold entry? at h
    split at h
    · rename_i hentry
      simp [hentry]
    · -- Only folders are there without being listed.
      split at h <;> simp at h
  · simp only [if_neg hother, entry?]
    cases directory.entries.lookup other <;> rfl

theorem alike_put (h : directory.entry? location = some (.text content)) (text : String) :
    Alike (directory.put location text) directory := by
  intro other
  rw [entry?_put h]
  split
  · rename_i hother
    rw [hother, h]
    rfl
  · rfl

end Directory

end JestMigration
