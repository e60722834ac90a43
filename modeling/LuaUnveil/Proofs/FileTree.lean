import LuaUnveil.File.Host
import LuaUnveil.Proofs.Scan

/-!
# What writing does to a file tree

A file tree is seen through `FileTree.at?`: what stands at a place.  This file says what the
operations of a host do to this view.

**Walks.**  A walk along the parts of a path goes through directories only, and so it ends at the
same place in every tree that has these directories (`FileTree.walk_of_directories`).

**Writing.**  A path can be written to if it names a file in an existing directory and no directory
stands there: `FileTree.Writable`.  It then leads to that file for readers too
(`FileTree.Writable.locate`), and `FileTree.Wrote` says what a write has done: the text is read
back, and all other places are as they were.

**Commands.**  `FileTree.perform` runs a command on a tree, and its lemmas say what the operations
of the host come to.
-/

namespace LuaUnveil.FileTree

/-! ## Places -/

lemma lookup_filter_ne {place other : Place} (h : other ≠ place)
    (entries : List (Place × FileEntry)) :
    (entries.filter (·.1 != place)).lookup other = entries.lookup other := by
  induction entries with
  | nil => rfl
  | cons e entries ih =>
      obtain ⟨key, entry⟩ := e
      by_cases hkey : key = place
      · rw [List.filter_cons_of_neg (by simpa using hkey), ih, List.lookup_cons, hkey,
          beq_eq_false_iff_ne.mpr h]
      · rw [List.filter_cons_of_pos (by simpa using hkey), List.lookup_cons, List.lookup_cons, ih]

/-- An entry changes what stands at its place, and nothing else. -/
lemma at?_insert (tree : FileTree) {place : Place} (hplace : place ≠ []) (entry : FileEntry)
    (other : Place) :
    (tree.insert place entry).at? other = if other = place then some entry else tree.at? other := by
  unfold at? insert
  by_cases h : other = place
  · simp [h, hplace]
  · simp only [h, List.lookup_cons, beq_eq_false_iff_ne.mpr h, lookup_filter_ne h, if_false]

lemma absolutePath_of_directory {tree : FileTree} {place : Place}
    (h : tree.at? place = some .directory) :
    tree.absolutePath place = .ok ('/' :: Path.ofParts place) := by
  simp only [absolutePath, h]

lemma absolutePath_of_gone {tree : FileTree} {place : Place}
    (h : tree.at? place ≠ some .directory) : tree.absolutePath place = .error .notFound := by
  unfold absolutePath
  split
  · next hdirectory => exact absurd hdirectory h
  · rfl

/-! ## Walks -/

lemma walk_append (tree : FileTree) (here : Place) (parts later : List Text) :
    tree.walk here (parts ++ later) = (tree.walk here parts).bind (tree.walk · later) := by
  induction parts generalizing here with
  | nil => rfl
  | cons part parts ih =>
      simp only [List.cons_append, walk]
      split
      · rfl
      · rfl
      · split_ifs
        · exact ih here
        · exact ih here.dropLast
        · rfl
        · exact ih (here ++ [part])

/-- Only directories matter for where a walk ends. -/
lemma walk_of_directories {tree tree' : FileTree}
    (h : ∀ place, tree.at? place = some .directory → tree'.at? place = some .directory)
    {here place : Place} {parts : List Text} (hwalk : tree.walk here parts = .ok place) :
    tree'.walk here parts = .ok place := by
  induction parts generalizing here with
  | nil => exact hwalk
  | cons part parts ih =>
      rw [walk] at hwalk ⊢
      cases hhere : tree.at? here with
      | none => rw [hhere] at hwalk; cases hwalk
      | some entry =>
          cases entry with
          | file content => rw [hhere] at hwalk; cases hwalk
          | directory =>
              rw [hhere] at hwalk
              rw [h here hhere]
              simp only at hwalk ⊢
              split_ifs at hwalk ⊢
              · exact ih hwalk
              · exact ih hwalk
              · exact ih hwalk

/-! ## Writing -/

lemma bind_eq_ok_iff {ε α β : Type} {x : Except ε α} {f : α → Except ε β} {b : β} :
    x >>= f = .ok b ↔ ∃ a, x = .ok a ∧ f a = .ok b := by
  cases x <;> simp [bind, Except.bind]

/-- The place of the file that a path names, where a text can be written. -/
structure Writable (tree : FileTree) (workDir : Place) (path : Text) (place : Place) : Prop where
  locateNew : tree.locateNew workDir path = .ok place
  notDirectory : tree.at? place ≠ some .directory

/-- What is asked of a path that names a file: it can be followed, all but its last part leads to a
directory, and the last part is a name. -/
structure NamesFile (tree : FileTree) (workDir : Place) (path : Text) (directory : Place)
    (name : Text) : Prop where
  pathFault? : pathFault? path = none
  exists_parts : ∃ front, Path.parts path = front ++ [name] ∧
    tree.walk (origin workDir path) front = .ok directory
  directory : tree.at? directory = some .directory
  name_ne : name ≠ [] ∧ name ≠ ['.'] ∧ name ≠ ['.', '.']
  length_le : (String.ofList name).utf8ByteSize ≤ 255

/-- Where no empty part was taken off the end, the last part is the name. -/
lemma eq_dropLast_append_of_length_le {parts : List Text} :
    let names := (parts.reverse.dropWhile (· == [])).reverse
    parts.length ≤ names.length → names.getLastD [] ≠ [] →
      parts = names.dropLast ++ [names.getLastD []] := by
  intro names hlength hlast
  have hfront : names <+: parts := by
    rw [← List.reverse_suffix, List.reverse_reverse]
    exact List.dropWhile_suffix _
  have hne : names ≠ [] := by
    intro hnil
    exact hlast (by rw [hnil]; rfl)
  have hname : names.getLastD [] = names.getLast hne := by
    rw [List.getLastD_eq_getLast?, List.getLast?_eq_some_getLast hne, Option.getD_some]
  rw [hname, List.dropLast_append_getLast hne]
  exact (hfront.eq_of_length_le hlength).symm

lemma namesFile_of_locateNew {tree : FileTree} {workDir place : Place} {path : Text}
    (h : tree.locateNew workDir path = .ok place) :
    ∃ directory name, place = directory ++ [name] ∧ NamesFile tree workDir path directory name := by
  unfold FileTree.locateNew at h
  split at h
  · cases h
  · next hnofault =>
      have hfault : FileTree.pathFault? path = none :=
        Option.eq_none_iff_forall_ne_some.mpr fun fault hsome => hnofault fault hsome
      simp only at h
      split at h
      · obtain ⟨place, -, h⟩ := bind_eq_ok_iff.mp h
        split_ifs at h
      · next hlast =>
          obtain ⟨directory, hwalk, h⟩ := bind_eq_ok_iff.mp h
          simp only [not_or] at hlast
          split at h
          · cases h
          · cases h
          · next hdirectory =>
              split_ifs at h with hlength hlong
              refine ⟨directory, _, (Except.ok.inj h).symm, hfault, ⟨_, ?_, hwalk⟩, hdirectory,
                hlast, Nat.le_of_not_lt hlong⟩
              exact eq_dropLast_append_of_length_le (Nat.le_of_not_lt hlength) hlast.1

/-- Readers find the file at its place. -/
lemma NamesFile.locate {tree : FileTree} {workDir directory : Place} {path name : Text}
    (h : NamesFile tree workDir path directory name) :
    tree.locate workDir path = .ok (directory ++ [name]) := by
  obtain ⟨front, hparts, hwalk⟩ := h.exists_parts
  obtain ⟨hnil, hdot, hdots⟩ := h.name_ne
  rw [FileTree.locate, h.pathFault?]
  simp only [hparts, walk_append, hwalk]
  show tree.walk directory [name] = _
  rw [walk, h.directory]
  simp [hnil, hdot, hdots, Nat.not_lt.mpr h.length_le, walk]

namespace Writable

variable {tree : FileTree} {workDir place : Place} {path : Text}
  (h : tree.Writable workDir path place)

include h

lemma locate : tree.locate workDir path = .ok place := by
  obtain ⟨directory, name, rfl, hnames⟩ := namesFile_of_locateNew h.locateNew
  exact hnames.locate

lemma ne_nil : place ≠ [] := by
  obtain ⟨directory, name, rfl, -⟩ := namesFile_of_locateNew h.locateNew
  simp

lemma at?_insert (entry : FileEntry) (other : Place) :
    (tree.insert place entry).at? other = if other = place then some entry else tree.at? other :=
  FileTree.at?_insert tree h.ne_nil entry other

/-- A path leads to the same place when its file has been written. -/
lemma locate_insert (content : Content) :
    (tree.insert place (.file content)).locate workDir path = .ok place := by
  have hdirectories : ∀ other, tree.at? other = some .directory →
      (tree.insert place (.file content)).at? other = some .directory := by
    intro other hother
    have hne : other ≠ place := by
      rintro rfl
      exact h.notDirectory hother
    rw [h.at?_insert, if_neg hne, hother]
  have hlocate := h.locate
  unfold FileTree.locate at hlocate ⊢
  split at hlocate
  · cases hlocate
  · exact walk_of_directories hdirectories hlocate

/-- The text is put at the place. -/
lemma write_eq (text : Text) :
    tree.write workDir path text = .ok (tree.insert place (.file (.text text))) := by
  rw [write, h.locateNew]
  simp only [bind, Except.bind]
  split
  · next hdirectory => exact absurd hdirectory h.notDirectory
  · rfl

/-- And it is read back from there. -/
lemma read_insert (text : Text) :
    (tree.insert place (.file (.text text))).read workDir path = .ok text := by
  rw [read, h.locate_insert]
  simp only [bind, Except.bind, h.at?_insert, if_true]

end Writable

lemma write_of_directory {tree : FileTree} {workDir place : Place} {path : Text}
    (hlocate : tree.locateNew workDir path = .ok place)
    (hdirectory : tree.at? place = some .directory) (text : Text) :
    tree.write workDir path text = .error .isDirectory := by
  rw [write, hlocate]
  simp only [bind, Except.bind, hdirectory]

/-- What it means that a text was written to the file that a path names, and nothing else was
done. -/
structure Wrote (before after : FileTree) (workDir : Place) (path : Text) (place : Place)
    (text : Text) : Prop where
  writable : before.Writable workDir path place
  read : after.read workDir path = .ok text
  other : ∀ other, other ≠ place → after.at? other = before.at? other

/-- **A text can be written exactly where a path is writable**, and then it is written. -/
theorem write_cases (tree : FileTree) (workDir : Place) (path text : Text) :
    (∃ place after, tree.write workDir path text = .ok after ∧
        Wrote tree after workDir path place text) ∨
      (∃ fault, tree.write workDir path text = .error fault) ∧
        ¬ ∃ place, tree.Writable workDir path place := by
  cases hlocate : tree.locateNew workDir path with
  | error fault =>
      refine Or.inr ⟨⟨fault, by rw [write, hlocate]; rfl⟩, ?_⟩
      rintro ⟨place, hplace⟩
      rw [hplace.locateNew] at hlocate
      cases hlocate
  | ok place =>
      by_cases hdirectory : tree.at? place = some .directory
      · refine Or.inr ⟨⟨_, write_of_directory hlocate hdirectory text⟩, ?_⟩
        rintro ⟨other, hother⟩
        have hsame := hother.locateNew
        rw [hlocate] at hsame
        exact hother.notDirectory (Except.ok.inj hsame ▸ hdirectory)
      · have hplace : tree.Writable workDir path place := ⟨hlocate, hdirectory⟩
        refine Or.inl ⟨place, _, hplace.write_eq text, hplace, hplace.read_insert text, ?_⟩
        intro other hother
        rw [hplace.at?_insert, if_neg hother]

/-! ## Commands -/

variable {α : Type}

/-- What a command gives on a tree, and the tree that it leaves. -/
def perform (tree : FileTree) (command : StateM FileTree α) : α × FileTree := command.run tree

lemma perform_bind {β : Type} (tree : FileTree) (command : StateM FileTree α)
    (next : α → StateM FileTree β) :
    tree.perform (command >>= next)
      = (tree.perform command).2.perform (next (tree.perform command).1) := rfl

lemma perform_pure (tree : FileTree) (a : α) :
    tree.perform (pure a : StateM FileTree α) = (a, tree) := rfl

section Host

variable (tree : FileTree) (workDir : Place) (input : Content)

lemma perform_read (path : Text) :
    tree.perform ((host workDir input).read path) = (tree.read workDir path, tree) := rfl

lemma perform_has (path : Text) :
    tree.perform ((host workDir input).has path) = (tree.has workDir path, tree) := rfl

lemma perform_workDir :
    tree.perform (host workDir input).workDir = (tree.absolutePath workDir, tree) := rfl

lemma perform_write_ok {path text : Text} {after : FileTree}
    (h : tree.write workDir path text = .ok after) :
    tree.perform ((host workDir input).write path text) = (.ok (), after) := by
  simp only [perform, host, StateT.run_bind, StateT.run_get, pure_bind, h]
  rfl

lemma perform_write_error {path text : Text} {fault : FileFault}
    (h : tree.write workDir path text = .error fault) :
    tree.perform ((host workDir input).write path text) = (.error fault, tree) := by
  simp only [perform, host, StateT.run_bind, StateT.run_get, pure_bind, h]
  rfl

end Host

end LuaUnveil.FileTree
