import LuaUnveil.Proofs.Commands

/-!
# Which settings are found

Settings are looked for level by level: in the start directory, in its parent, in the parent of
that, and so on.

**Levels.**  `Path.above?` is the directory at a level, and `FileTree.settingsText?` the text of the
settings file there, if there is one that can be read.  The directories that a search goes through
are those of the first levels (`Path.ancestors_eq`), and so a search is a search for the first level
at which something stands: `FirstAt`.

**Two answers.**  `FileTree.nearestSettings` is what the nearest file says, where a malformed file
says nothing.  The search passes a malformed file by and goes on to the next one, so it finds
`FileTree.understoodSettings`, those of the nearest file that can be understood.
`understoodSettings_eq_nearestSettings_iff` says when the two are the same.
-/

namespace LuaUnveil

/-! ## Levels -/

namespace Path

/-- The directory so many levels above a path: its parent, the parent of that, and so on. -/
def above? (path : Text) : Nat → Option Text
  | 0 => some path
  | n + 1 => (above? path n).bind parent?

/-- One level more is the same as starting one level higher. -/
lemma above?_succ (path : Text) (n : Nat) :
    above? path (n + 1) = (parent? path).bind (above? · n) := by
  induction n with
  | zero => simp [above?]
  | succ n ih =>
      rw [above?, ih, Option.bind_assoc]
      rfl

/-- **The ancestors of a path are the directories of the first levels.** -/
theorem ancestors_eq (path : Text) (n : Nat) :
    ancestors path n = (List.range n).filterMap (above? path) := by
  induction n generalizing path with
  | zero => rfl
  | succ n ih =>
      have hlater : ((List.range n).map Nat.succ).filterMap (above? path)
          = (List.range n).filterMap fun k => (parent? path).bind (above? · k) := by
        rw [List.filterMap_map]
        exact congrArg (List.filterMap · _) (funext fun k => above?_succ path k)
      have hfirst : above? path 0 = some path := rfl
      rw [List.range_succ_eq_map, List.filterMap_cons_some hfirst, hlater, ancestors]
      cases hparent : parent? path with
      | none => simp
      | some parent => simp [ih]

end Path

section FirstAt

variable {α : Type}

/-- The first level at which something stands, among the levels below a bound. -/
structure FirstAt (find : Nat → Option α) (bound level : Nat) (a : α) : Prop where
  lt : level < bound
  stands : find level = some a
  nearer : ∀ n < level, find n = none

lemma FirstAt.succ_iff {find : Nat → Option α} (hzero : find 0 = none) {bound level : Nat} {a : α} :
    FirstAt find (bound + 1) (level + 1) a ↔ FirstAt (fun n => find (n + 1)) bound level a := by
  constructor
  · intro h
    exact ⟨Nat.lt_of_succ_lt_succ h.lt, h.stands, fun n hn =>
      h.nearer (n + 1) (Nat.succ_lt_succ hn)⟩
  · intro h
    refine ⟨Nat.succ_lt_succ h.lt, h.stands, fun n hn => ?_⟩
    cases n with
    | zero => exact hzero
    | succ n => exact h.nearer n (Nat.lt_of_succ_lt_succ hn)

/-- Going through the levels finds the first one. -/
lemma findSome?_range_eq_some_iff {find : Nat → Option α} {bound : Nat} {a : α} :
    (List.range bound).findSome? find = some a ↔ ∃ level, FirstAt find bound level a := by
  induction bound generalizing find with
  | zero =>
      simp only [List.range_zero, List.findSome?_nil, reduceCtorEq, false_iff]
      rintro ⟨level, hlevel⟩
      exact absurd hlevel.lt (Nat.not_lt_zero level)
  | succ bound ih =>
      rw [List.range_succ_eq_map, List.findSome?_cons]
      cases hzero : find 0 with
      | some b =>
          constructor
          · rintro ⟨rfl⟩
            exact ⟨0, Nat.succ_pos bound, hzero, fun n hn => absurd hn (Nat.not_lt_zero n)⟩
          · rintro ⟨level, hlevel⟩
            cases level with
            | zero => rw [← hlevel.stands, hzero]
            | succ level =>
                have hnone := hlevel.nearer 0 (Nat.succ_pos level)
                rw [hzero] at hnone
                cases hnone
      | none =>
          have hlater : ((List.range bound).map Nat.succ).findSome? find = some a ↔
              ∃ level, FirstAt (fun n => find (n + 1)) bound level a := by
            rw [List.findSome?_map]
            exact ih
          refine hlater.trans ?_
          constructor
          · rintro ⟨level, hlevel⟩
            exact ⟨level + 1, (FirstAt.succ_iff hzero).mpr hlevel⟩
          · rintro ⟨level, hlevel⟩
            cases level with
            | zero => rw [hlevel.stands] at hzero; cases hzero
            | succ level => exact ⟨level, (FirstAt.succ_iff hzero).mp hlevel⟩

/-- There is at most one first thing. -/
lemma FirstAt.unique {find : Nat → Option α} {bound level level' : Nat} {a a' : α}
    (h : FirstAt find bound level a) (h' : FirstAt find bound level' a') : a = a' := by
  have hfind := findSome?_range_eq_some_iff.mpr ⟨level, h⟩
  rw [findSome?_range_eq_some_iff.mpr ⟨level', h'⟩] at hfind
  exact (Option.some.inj hfind).symm

/-- Nothing is found exactly if nothing stands at any level. -/
lemma findSome?_range_eq_none_iff {find : Nat → Option α} {bound : Nat} :
    (List.range bound).findSome? find = none ↔ ∀ n < bound, find n = none := by
  simp [List.findSome?_eq_none_iff]

lemma forall_eq_none_of_not_firstAt {find : Nat → Option α} {bound : Nat}
    (h : ¬ ∃ level a, FirstAt find bound level a) : ∀ n < bound, find n = none := by
  rw [← findSome?_range_eq_none_iff, Option.eq_none_iff_forall_ne_some]
  intro a ha
  obtain ⟨level, hfirst⟩ := findSome?_range_eq_some_iff.mp ha
  exact h ⟨level, a, hfirst⟩

lemma findSome?_filterMap {β γ : Type} (g : α → Option β) (find : β → Option γ) (items : List α) :
    (items.filterMap g).findSome? find = items.findSome? fun item => (g item).bind find := by
  induction items with
  | nil => rfl
  | cons item items ih =>
      cases h : g item with
      | none => rw [List.filterMap_cons_none h, List.findSome?_cons, h, ih]; rfl
      | some b =>
          rw [List.filterMap_cons_some h, List.findSome?_cons, List.findSome?_cons, h, ih]
          rfl

end FirstAt

/-- The text of the settings file at a level above a start directory, if it can be read. -/
def FileTree.settingsText? (tree : FileTree) (workDir : Place) (start : Text) (level : Nat) :
    Option Text :=
  (Path.above? start level).bind fun directory =>
    (tree.read workDir (Path.join directory settingsFileName)).toOption

/-- The settings at a level, if the file there can be read and understood. -/
def FileTree.settingsAt? (tree : FileTree) (workDir : Place) (start : Text) (level : Nat) :
    Option Settings :=
  (tree.settingsText? workDir start level).bind Settings.parse?

/-- What the nearest settings file says, among the directories that are looked at.  A malformed file
says nothing, and then the default settings hold, as they do without any file. -/
def FileTree.nearestSettings (tree : FileTree) (workDir : Place) (start : Text) : Settings :=
  (((List.range searchDepth).findSome? (tree.settingsText? workDir start)).bind
    Settings.parse?).getD {}

/-- What the nearest file says that can be understood, among the directories that are looked at. -/
def FileTree.understoodSettings (tree : FileTree) (workDir : Place) (start : Text) : Settings :=
  ((List.range searchDepth).findSome? (tree.settingsAt? workDir start)).getD {}

section Answers

variable {tree : FileTree} {workDir : Place} {start text : Text} {level : Nat} {settings : Settings}

lemma FirstAt.settingsAt? (h : FirstAt (tree.settingsText? workDir start) searchDepth level text)
    (hparse : Settings.parse? text = some settings) :
    FirstAt (tree.settingsAt? workDir start) searchDepth level settings where
  lt := h.lt
  stands := by rw [FileTree.settingsAt?, h.stands, Option.bind_some, hparse]
  nearer n hn := by rw [FileTree.settingsAt?, h.nearer n hn, Option.bind_none]

lemma nearestSettings_of_firstAt
    (h : FirstAt (tree.settingsText? workDir start) searchDepth level text) :
    tree.nearestSettings workDir start = (Settings.parse? text).getD {} := by
  rw [FileTree.nearestSettings, findSome?_range_eq_some_iff.mpr ⟨level, h⟩, Option.bind_some]

lemma nearestSettings_of_none
    (h : ∀ level < searchDepth, tree.settingsText? workDir start level = none) :
    tree.nearestSettings workDir start = {} := by
  rw [FileTree.nearestSettings, findSome?_range_eq_none_iff.mpr h, Option.bind_none,
    Option.getD_none]

lemma understoodSettings_of_firstAt
    (h : FirstAt (tree.settingsAt? workDir start) searchDepth level settings) :
    tree.understoodSettings workDir start = settings := by
  rw [FileTree.understoodSettings, findSome?_range_eq_some_iff.mpr ⟨level, h⟩, Option.getD_some]

lemma understoodSettings_of_none
    (h : ∀ level < searchDepth, tree.settingsAt? workDir start level = none) :
    tree.understoodSettings workDir start = {} := by
  rw [FileTree.understoodSettings, findSome?_range_eq_none_iff.mpr h, Option.getD_none]

end Answers

/-! ## The search -/

section Search

variable (tree : FileTree) (workDir : Place) (input : Content) (start : Text)

/-- The search goes through the levels and leaves the tree as it is. -/
lemma perform_discoverSettings :
    tree.perform (discoverSettings (FileTree.host workDir input) start)
      = (tree.understoodSettings workDir start, tree) := by
  have hlevels : (Path.ancestors start searchDepth).findSome? (tree.settingsIn? workDir)
      = (List.range searchDepth).findSome? (tree.settingsAt? workDir start) := by
    rw [Path.ancestors_eq, findSome?_filterMap]
    congr 1
    funext level
    simp only [FileTree.settingsAt?, FileTree.settingsText?, Option.bind_assoc]
    rfl
  rw [discoverSettings, FileTree.perform_bind, perform_firstSettings, hlevels,
    FileTree.perform_pure, FileTree.understoodSettings]

/-- The nearest file that is understood says what the nearest file says, unless the latter is
malformed and the former is above it with other settings than the default ones. -/
lemma understoodSettings_eq_nearestSettings_iff :
    tree.understoodSettings workDir start = tree.nearestSettings workDir start ↔
      ∀ level text, FirstAt (tree.settingsText? workDir start) searchDepth level text →
        Settings.parse? text = none →
        ∀ higher settings, FirstAt (tree.settingsAt? workDir start) searchDepth higher settings →
          settings = {} := by
  by_cases hread : ∃ level text, FirstAt (tree.settingsText? workDir start) searchDepth level text
  · obtain ⟨level, text, hfirst⟩ := hread
    rw [nearestSettings_of_firstAt hfirst]
    cases hparse : Settings.parse? text with
    | some settings =>
        -- the nearest file is understood, and no other one counts
        rw [understoodSettings_of_firstAt (hfirst.settingsAt? hparse), Option.getD_some]
        refine iff_of_true rfl fun level' text' hfirst' hmalformed => ?_
        rw [hfirst'.unique hfirst, hparse] at hmalformed
        cases hmalformed
    | none =>
        rw [Option.getD_none]
        constructor
        · intro hdefault _ _ _ _ higher settings hhigher
          rw [← understoodSettings_of_firstAt hhigher, hdefault]
        · intro hdefault
          by_cases hhigher : ∃ higher settings,
              FirstAt (tree.settingsAt? workDir start) searchDepth higher settings
          · obtain ⟨higher, settings, hhigher⟩ := hhigher
            rw [understoodSettings_of_firstAt hhigher]
            exact hdefault level text hfirst hparse higher settings hhigher
          · exact understoodSettings_of_none (forall_eq_none_of_not_firstAt hhigher)
  · have htexts := forall_eq_none_of_not_firstAt hread
    have hnone : ∀ level < searchDepth, tree.settingsAt? workDir start level = none :=
      fun level hlevel => by rw [FileTree.settingsAt?, htexts level hlevel, Option.bind_none]
    rw [understoodSettings_of_none hnone, nearestSettings_of_none htexts]
    exact iff_of_true rfl fun level text hfirst => absurd ⟨level, text, hfirst⟩ hread

/-- **When the nearest file decides.**  The settings that are found are those of the nearest file
that can be read and understood, and the default ones if there is none.  They are what the nearest
file says, exactly if no malformed file hides anything: where the nearest file that can be read is
malformed, the nearest one above it that can be understood has the default settings. -/
theorem discovered_nearest_iff :
    ∃ found, tree.perform (discoverSettings (FileTree.host workDir input) start) = (found, tree) ∧
      (∀ level settings, FirstAt (tree.settingsAt? workDir start) searchDepth level settings →
        found = settings) ∧
      ((∀ level < searchDepth, tree.settingsAt? workDir start level = none) → found = {}) ∧
      (found = tree.nearestSettings workDir start ↔
        ∀ level text, FirstAt (tree.settingsText? workDir start) searchDepth level text →
          Settings.parse? text = none →
          ∀ higher settings, FirstAt (tree.settingsAt? workDir start) searchDepth higher settings →
            settings = {}) :=
  ⟨tree.understoodSettings workDir start, perform_discoverSettings tree workDir input start,
    fun _ _ hfirst => understoodSettings_of_firstAt hfirst, understoodSettings_of_none,
    understoodSettings_eq_nearestSettings_iff tree workDir start⟩

end Search

/-- A malformed settings file in a directory, and another settings file above it. -/
def malformedBelow : FileTree :=
  (({} : FileTree).place [settingsFileName]
    (.file (.text "[simplify]\nfixed_point = true\n".toList))).place ["a".toList, settingsFileName]
      (.file (.text "[simplify\n".toList))

/-- The malformed file is passed by: the settings above it are found, and not the default ones. -/
theorem malformed_settings_passed_by :
    malformedBelow.settingsText? [] "/a".toList 0 = some "[simplify\n".toList ∧
      Settings.parse? "[simplify\n".toList = none ∧
      malformedBelow.nearestSettings [] "/a".toList = {} ∧
      (malformedBelow.perform (discoverSettings (FileTree.host [] (.text [])) "/a".toList)).1
        = { simplify := some true } ∧
      (malformedBelow.perform (discoverSettings (FileTree.host [] (.text [])) "/a".toList)).1
        ≠ malformedBelow.nearestSettings [] "/a".toList := by
  decide +kernel

end LuaUnveil
