import LuaUnveil.Proofs.History

/-!
# What renaming does to a text

Both naming passes replace token after token.  In a session that has come about by passes this is
the same as one simultaneous map on the words of the text, because no name of a pool has the form of
a token.  Everything here holds for any search engine: a token that it refuses stays in the text.

**One pass.**  `Session.Sound.apply_identifiers` and `Session.Sound.apply_functions`: each table
acts on a text as a map on words.

**Both passes.**  `Session.rename` is the map on words that the two tables give together.  A new
name is never renamed again (`Session.Sound.rename_of_name`), and two words become the same only
if one of them becomes the other (`Session.Sound.rename_eq_rename_iff`).  The second case is real:
the names of the pools are not checked against the words of the script.
-/

namespace LuaUnveil

/-! ## One table -/

namespace RenameTable.Numbered

variable [SearchEngine] {table : RenameTable} (h : table.Numbered)

include h

/-- What a table makes of a word is a name of its pool, or the word itself. -/
lemma substitute_eq_nameAt_or (w : Text) :
    (∃ i, table.substitute w = table.pool.nameAt i) ∨
      ((SearchEngine.compiles w = true → w ∉ table.originals) ∧ table.substitute w = w) := by
  rcases table.substitute_cases w with ⟨hmem, -, heq⟩ | hstays
  · obtain ⟨i, hi⟩ := h.exists_nameAt (rename_mem_replacements hmem)
    exact Or.inl ⟨i, heq.trans hi⟩
  · exact Or.inr hstays

/-- A table of a readable pool makes words of words. -/
lemma isSingleWord_substitute (hpool : table.pool.Readable) {w : Text} (hw : IsSingleWord w) :
    IsSingleWord (table.substitute w) := by
  rcases h.substitute_eq_nameAt_or w with ⟨i, heq⟩ | ⟨-, heq⟩
  · rw [heq]
    exact hpool.isSingleWord_nameAt i
  · rwa [heq]

/-- A word of the result is a name of the pool, or it was a word of the text and was left there. -/
lemma eq_nameAt_or_of_mem_words (hpool : table.pool.Readable) {text w : Text}
    (hw : w ∈ words (mapWords table.substitute text)) :
    (∃ i, w = table.pool.nameAt i) ∨
      (w ∈ words text ∧ (SearchEngine.compiles w = true → w ∉ table.originals)) := by
  rw [words_mapWords fun v hv =>
    h.isSingleWord_substitute hpool (isSingleWord_of_mem_words hv)] at hw
  obtain ⟨v, hv, rfl⟩ := List.mem_map.mp hw
  rcases h.substitute_eq_nameAt_or v with hname | ⟨hstays, heq⟩
  · exact Or.inl hname
  · rw [heq]
    exact Or.inr ⟨hv, hstays⟩

end RenameTable.Numbered

namespace Session

namespace Sound

variable {s : Session} (hs : Sound s)

include hs

lemma identifiers_readable : s.identifiers.pool.Readable :=
  hs.identifiers_pool ▸ identifierNames_readable

lemma functions_readable : s.functions.pool.Readable :=
  hs.functions_pool ▸ functionNames_readable

/-- The identifier table acts as one map on words. -/
theorem apply_identifiers [SearchEngine] (text : Text) :
    s.identifiers.apply text = mapWords s.identifiers.substitute text :=
  hs.identifiers_numbered.apply_eq_mapWords hs.identifiers_readable
    (fun t ht => isSingleWord_of_isGenerated (hs.identifiers_generated t ht))
    hs.identifiers_generated hs.identifiers_readable.isGenerated_nameAt text

lemma isSingleWord_of_mem_functions {t : Text} (ht : t ∈ s.functions.originals) :
    IsSingleWord t :=
  Shape.isSingleWord_of_isLetterAndRun (fun _ => isWord_of_isHexDigit) (hs.functions_generated t ht)

/-- The function table acts as one map on words. -/
theorem apply_functions [SearchEngine] (text : Text) :
    s.functions.apply text = mapWords s.functions.substitute text :=
  hs.functions_numbered.apply_eq_mapWords hs.functions_readable
    (fun _ => hs.isSingleWord_of_mem_functions) hs.functions_generated
    (hs.functions_readable.isLetterAndRun_nameAt 4) text

/-- A new name of either table is a name of a readable pool. -/
lemma exists_readable_pool {name : Text}
    (h : name ∈ s.identifiers.replacements ∨ name ∈ s.functions.replacements) :
    ∃ pool : NamePool, pool.Readable ∧ ∃ i, name = pool.nameAt i := by
  rcases h with h | h
  · exact ⟨_, hs.identifiers_readable, hs.identifiers_numbered.exists_nameAt h⟩
  · exact ⟨_, hs.functions_readable, hs.functions_numbered.exists_nameAt h⟩

/-- **No new name is a token of either table.** -/
theorem name_notMem_originals {name : Text}
    (h : name ∈ s.identifiers.replacements ∨ name ∈ s.functions.replacements) :
    name ∉ s.identifiers.originals ∧ name ∉ s.functions.originals := by
  obtain ⟨pool, hpool, i, rfl⟩ := hs.exists_readable_pool h
  refine ⟨fun hmem => ?_, fun hmem => ?_⟩
  · have htrue := hs.identifiers_generated _ hmem
    rw [hpool.isGenerated_nameAt] at htrue
    cases htrue
  · have htrue := hs.functions_generated _ hmem
    rw [hpool.isLetterAndRun_nameAt] at htrue
    cases htrue

end Sound

lemma sound_renameIdentifiers [SearchEngine] {s : Session} (hs : Sound s) (text : Text) :
    Sound (s.renameIdentifiers text).2 := hs.of_grows (grows_renameIdentifiers s text)

lemma sound_renameFunctions [SearchEngine] {s : Session} (hs : Sound s) (text : Text) :
    Sound (s.renameFunctions text).2 := hs.of_grows (grows_renameFunctions s text)

/-- **Naming identifiers is one simultaneous substitution of whole words.**  After any history, and
for any text: every word that looks generated and that the search engine takes is replaced by the
name that the table then holds for it, and everything else stays as it is and where it is.  If the
engine takes every word of the text that looks generated, these are all of them.  The table holds a
name for each word that looks generated; it is the old table followed by the words of the text that
look generated and were not yet in it, shape after shape and in the order of first occurrence within
a shape.  No name in the table is a token of the table, so no replacement is ever replaced. -/
theorem renameIdentifiers_simultaneous [SearchEngine] (options : Options) (history : List Step)
    (text : Text) :
    let s := after options history
    let table := (s.renameIdentifiers text).2.identifiers
    (s.renameIdentifiers text).1
        = mapWords (fun w =>
            if isGenerated w && SearchEngine.compiles w then table.rename w else w) text ∧
      ((∀ w ∈ words text, isGenerated w = true → SearchEngine.compiles w = true) →
        (s.renameIdentifiers text).1
          = mapWords (fun w => if isGenerated w then table.rename w else w) text) ∧
      (∀ w ∈ words text, isGenerated w = true → table.get? w = some (table.rename w)) ∧
      s.identifiers.entries <+: table.entries ∧
      table.originals = s.identifiers.originals ++
        ((Shape.all.flatMap fun shape => (words text).filter shape.fits).filter
          fun w => w ∉ s.identifiers.originals).eraseDups ∧
      ∀ name ∈ table.replacements, name ∉ table.originals := by
  intro s table
  have hs : Sound s := sound_after options history
  have hs' : Sound (s.renameIdentifiers text).2 := sound_renameIdentifiers hs text
  have horiginals : table.originals = s.identifiers.originals ++
      ((generatedNames text).filter fun w => w ∉ s.identifiers.originals).eraseDups :=
    RenameTable.originals_assignAll (generatedNames text) s.identifiers
  have hmem : ∀ w ∈ words text, isGenerated w = true → w ∈ table.originals := by
    intro w hw hgen
    exact RenameTable.mem_originals_assignAll.mpr (Or.inr (mem_generatedNames.mpr ⟨hw, hgen⟩))
  have hmap : (s.renameIdentifiers text).1
      = mapWords (fun w =>
          if isGenerated w && SearchEngine.compiles w then table.rename w else w) text := by
    refine (hs'.apply_identifiers text).trans (mapWords_congr fun w _ => ?_)
    rcases table.substitute_cases w with ⟨hw, hcompiles, heq⟩ | ⟨hw, heq⟩
    · rw [heq, hs'.identifiers_generated w hw, hcompiles]
      rfl
    · rw [heq]
      split_ifs with htaken
      · exact (RenameTable.rename_of_notMem (hw (Bool.and_eq_true_iff.mp htaken).2)).symm
      · rfl
  refine ⟨hmap, fun hcompiles => ?_, ?_, ?_, ?_, ?_⟩
  · refine hmap.trans (mapWords_congr fun w hw => ?_)
    by_cases hgen : isGenerated w = true
    · rw [hcompiles w hw hgen, Bool.and_true]
    · rw [if_neg hgen, if_neg fun htaken => hgen (Bool.and_eq_true_iff.mp htaken).1]
  · exact fun w hw hgen => RenameTable.get?_eq_some_rename (hmem w hw hgen)
  · exact RenameTable.prefix_assignAll (generatedNames text) s.identifiers
  · rw [horiginals, generatedNames_eq]
  · exact fun name hname => (hs'.name_notMem_originals (Or.inl hname)).1

/-! ## Both tables -/

/-- What a word becomes under both tables: first as an identifier, then as a function. -/
def rename [SearchEngine] (s : Session) (w : Text) : Text :=
  s.functions.substitute (s.identifiers.substitute w)

lemma rename_of_refused [SearchEngine] {s : Session} {w : Text}
    (h : SearchEngine.compiles w = false) : s.rename w = w := by
  simp [rename, RenameTable.substitute, h]

namespace Sound

variable [SearchEngine] {s : Session} (hs : Sound s)

include hs

/-- A word that the engine takes is named as an identifier, or as a function; every other word, and
every word that is no token, stays. -/
lemma rename_cases (w : Text) :
    (w ∈ s.identifiers.originals ∧ s.rename w = s.identifiers.rename w) ∨
    (w ∈ s.functions.originals ∧ s.rename w = s.functions.rename w) ∨
    ((SearchEngine.compiles w = true → w ∉ s.identifiers.originals ∧ w ∉ s.functions.originals) ∧
      s.rename w = w) := by
  rw [rename]
  rcases s.identifiers.substitute_cases w with ⟨hi, -, heq⟩ | ⟨hi, heq⟩
  · have hname := RenameTable.rename_mem_replacements hi
    rw [heq]
    exact Or.inl
      ⟨hi, RenameTable.substitute_of_notMem (hs.name_notMem_originals (Or.inl hname)).2⟩
  · rw [heq]
    rcases s.functions.substitute_cases w with ⟨hf, -, heq'⟩ | ⟨hf, heq'⟩
    · exact Or.inr (Or.inl ⟨hf, heq'⟩)
    · exact Or.inr (Or.inr ⟨fun h => ⟨hi h, hf h⟩, heq'⟩)

/-- A new name is never renamed again. -/
lemma rename_of_name {name : Text}
    (h : name ∈ s.identifiers.replacements ∨ name ∈ s.functions.replacements) :
    s.rename name = name := by
  obtain ⟨hi, hf⟩ := hs.name_notMem_originals h
  rw [rename, RenameTable.substitute_of_notMem hi, RenameTable.substitute_of_notMem hf]

lemma isSingleWord_rename {w : Text} (hw : IsSingleWord w) : IsSingleWord (s.rename w) :=
  hs.functions_numbered.isSingleWord_substitute hs.functions_readable
    (hs.identifiers_numbered.isSingleWord_substitute hs.identifiers_readable hw)

/-- Renaming twice is renaming once. -/
lemma rename_rename (w : Text) : s.rename (s.rename w) = s.rename w := by
  rcases hs.rename_cases w with ⟨h, heq⟩ | ⟨h, heq⟩ | ⟨-, heq⟩
  · rw [heq]; exact hs.rename_of_name (Or.inl (RenameTable.rename_mem_replacements h))
  · rw [heq]; exact hs.rename_of_name (Or.inr (RenameTable.rename_mem_replacements h))
  · rw [heq, heq]

/-- Two words that are both given a new name are given different ones. -/
lemma rename_injOn_renamed {u v : Text} (hu : s.rename u ≠ u) (hv : s.rename v ≠ v)
    (h : s.rename u = s.rename v) : u = v := by
  rcases hs.rename_cases u with ⟨hmemu, hequ⟩ | ⟨hmemu, hequ⟩ | ⟨-, hequ⟩
  · rcases hs.rename_cases v with ⟨hmemv, heqv⟩ | ⟨hmemv, heqv⟩ | ⟨-, heqv⟩
    · rw [hequ, heqv] at h
      exact RenameTable.rename_injOn hs.nodup_identifier_names hmemu hmemv h
    · rw [hequ, heqv] at h
      exact absurd h (hs.identifier_name_ne (RenameTable.rename_mem_replacements hmemu)
        (RenameTable.rename_mem_replacements hmemv))
    · exact absurd heqv hv
  · rcases hs.rename_cases v with ⟨hmemv, heqv⟩ | ⟨hmemv, heqv⟩ | ⟨-, heqv⟩
    · rw [hequ, heqv] at h
      exact absurd h.symm (hs.identifier_name_ne (RenameTable.rename_mem_replacements hmemv)
        (RenameTable.rename_mem_replacements hmemu))
    · rw [hequ, heqv] at h
      exact RenameTable.rename_injOn hs.nodup_function_names hmemu hmemv h
    · exact absurd heqv hv
  · exact absurd hequ hu

/-- **Two words become the same only if one of them becomes the other.** -/
theorem rename_eq_rename_iff {u v : Text} (hne : u ≠ v) :
    s.rename u = s.rename v ↔ s.rename u = v ∨ s.rename v = u := by
  constructor
  · intro h
    -- one of the two words stays as it is, and so it is what both become
    by_cases hv : s.rename v = v
    · exact Or.inl (h.trans hv)
    · by_cases hu : s.rename u = u
      · exact Or.inr (h.symm.trans hu)
      · exact absurd (hs.rename_injOn_renamed hu hv h) hne
  · rintro (h | h)
    · rw [← h, hs.rename_rename]
    · rw [← h, hs.rename_rename]

end Sound

/-- The two naming passes one after the other are one map on words. -/
theorem renameFunctions_renameIdentifiers [SearchEngine] {s : Session} (hs : Sound s)
    (text : Text) :
    let named := s.renameIdentifiers text
    let result := named.2.renameFunctions named.1
    result.1 = mapWords result.2.rename text := by
  intro named result
  have hs₁ : Sound named.2 := sound_renameIdentifiers hs text
  have hs₂ : Sound result.2 := sound_renameFunctions hs₁ named.1
  have hfirst : named.1 = mapWords result.2.identifiers.substitute text :=
    hs₁.apply_identifiers text
  have hsecond : result.1 = mapWords result.2.functions.substitute named.1 :=
    hs₂.apply_functions named.1
  rw [hsecond, hfirst]
  refine mapWords_mapWords (fun w hw => ?_) (RenameTable.substitute_of_notMem fun h => ?_)
  · exact (hs₂.identifiers_numbered.isSingleWord_substitute hs₂.identifiers_readable
      (isSingleWord_of_mem_words hw)).isWord
  · exact (hs₂.isSingleWord_of_mem_functions h).ne_nil rfl

/-- **Names are captured only by words that are pool names themselves.**  Let `entering` be what the
first two passes of the standard order make of a script, and `leaving` what the two naming passes
make of that.  The two naming passes map the words of the text one by one, words that the search
engine refuses to themselves, and two distinct words become the same exactly if the new name of one
of them is the other. -/
theorem naming_capture_iff [SearchEngine] (options : Options) (source : Text) :
    let entering := Pass.runAll (Pass.standard.take 2) (start options) source
    let leaving := Pass.runAll ((Pass.standard.drop 2).take 2) entering.2 entering.1
    leaving.1 = mapWords leaving.2.rename entering.1 ∧
      words leaving.1 = (words entering.1).map leaving.2.rename ∧
      (∀ w, SearchEngine.compiles w = false → leaving.2.rename w = w) ∧
      ∀ u ∈ words entering.1, ∀ v ∈ words entering.1, u ≠ v →
        (leaving.2.rename u = leaving.2.rename v
          ↔ leaving.2.rename u = v ∨ leaving.2.rename v = u) := by
  intro entering leaving
  have hs : Sound entering.2 :=
    (sound_start options).of_grows (grows_step _ (.pass .decodeStrings source))
  have hmap : leaving.1 = mapWords leaving.2.rename entering.1 :=
    renameFunctions_renameIdentifiers hs entering.1
  have hs' : Sound leaving.2 := sound_renameFunctions (sound_renameIdentifiers hs entering.1) _
  refine ⟨hmap, ?_, fun w => rename_of_refused, fun u _ v _ hne => hs'.rename_eq_rename_iff hne⟩
  rw [hmap]
  exact words_mapWords fun w hw => hs'.isSingleWord_rename (isSingleWord_of_mem_words hw)

/-- A script that uses the word `player` and has a generated word besides: both end up as
`player`. -/
theorem naming_captures_player :
    let entering := Pass.runAll (Pass.standard.take 2) (start {}) "player = a123".toList
    let leaving := Pass.runAll ((Pass.standard.drop 2).take 2) entering.2 entering.1
    "player".toList ∈ words entering.1 ∧ "a123".toList ∈ words entering.1 ∧
      "player".toList ≠ "a123".toList ∧
      leaving.2.rename "player".toList = leaving.2.rename "a123".toList ∧
      leaving.1 = "player = player".toList := by
  decide +kernel

end Session

end LuaUnveil
