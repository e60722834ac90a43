import LuaUnveil.Escape.Table
import LuaUnveil.Proofs.Pool

/-!
# Tables in the order of first use

Rename tables and the escape table grow in the same way: a key that is there stays as it is, and a
new key goes to the end (`insertNew`).

**Growth.**  Keys stay distinct, earlier entries stay in place, and the keys after many insertions
are the old ones followed by the new ones in the order in which they came (`foldl_addNew`,
`RenameTable.originals_assignAll`).

**Look-up.**  The index of a ledger leads to the first entry of a key, so looking a key up by way of
the index finds what stands in the entries (`Ledger.get?_eq_lookup`).

**Numbering.**  `RenameTable.Numbered`: the originals are distinct and the names are those of the
pool in their order.  Assigning keeps it.

**Substitution.**  Replacing token after token is one map on words, as long as no new name is a
token that is replaced later: `RenameTable.apply_eq_mapWords`.  The map leaves the words that the
search engine refuses (`RenameTable.substitute`).
-/

namespace LuaUnveil

/-! ## Insertion at the end -/

/-- Put an item at the end of a list, unless it is there already. -/
def addNew (items : List Text) (item : Text) : List Text :=
  if item ∈ items then items else items ++ [item]

/-- **What is added comes behind what was there**, each new item once, in the order in which the
items came. -/
theorem foldl_addNew (more : List Text) :
    ∀ items : List Text,
      more.foldl addNew items = items ++ (more.filter fun item => item ∉ items).eraseDups := by
  induction more with
  | nil => simp
  | cons item more ih =>
      intro items
      rw [List.foldl_cons, ih, addNew]
      by_cases h : item ∈ items
      · rw [if_pos h, List.filter_cons_of_neg (by simpa using h)]
      · rw [if_neg h, List.filter_cons_of_pos (by simpa using h), List.eraseDups_cons,
          List.filter_filter, List.append_assoc, List.singleton_append]
        congr 4
        funext x
        by_cases hx : x = item <;> simp [hx]

lemma mem_foldl_addNew {items more : List Text} {item : Text} :
    item ∈ more.foldl addNew items ↔ item ∈ items ∨ item ∈ more := by
  rw [foldl_addNew, List.mem_append, List.mem_eraseDups, List.mem_filter]
  by_cases h : item ∈ items <;> simp [h]

section InsertNew

variable {β : Type}

/-- Put a key at the end of a list of entries, unless it is there already. -/
def insertNew (entries : List (Text × β)) (key : Text) (value : β) : List (Text × β) :=
  match entries.lookup key with
  | some _ => entries
  | none => entries ++ [(key, value)]

lemma lookup_eq_none_iff_notMem {entries : List (Text × β)} {key : Text} :
    entries.lookup key = none ↔ key ∉ entries.map Prod.fst := by
  rw [List.lookup_eq_none_iff]
  constructor
  · intro h hmem
    obtain ⟨e, he, rfl⟩ := List.mem_map.mp hmem
    simpa using h e he
  · intro h e he
    rw [bne_iff_ne]
    rintro rfl
    exact h (List.mem_map_of_mem he)

lemma mem_of_lookup_eq_some {entries : List (Text × β)} {key : Text} {value : β}
    (h : entries.lookup key = some value) : (key, value) ∈ entries := by
  obtain ⟨before, behind, heq, -⟩ := List.lookup_eq_some_iff.mp h
  simp [heq]

/-- Looking a key up is finding its first position and reading the entry there. -/
lemma lookup_eq_of_findIdx? {entries : List (Text × β)} {key : Text} {i : Nat}
    (h : entries.findIdx? (fun e => e.1 == key) = some i) :
    ∃ hi : i < entries.length, entries.lookup key = some entries[i].2 := by
  induction entries generalizing i with
  | nil => simp at h
  | cons e entries ih =>
      obtain ⟨k, value⟩ := e
      rw [List.findIdx?_cons] at h
      by_cases hk : k = key
      · obtain rfl : 0 = i := by simpa [hk] using h
        exact ⟨by simp, by simp [List.lookup, hk]⟩
      · have hne : (key == k) = false := by simpa using Ne.symm hk
        obtain ⟨j, hj, rfl⟩ : ∃ j, entries.findIdx? (fun e => e.1 == key) = some j ∧ j + 1 = i := by
          simpa [hk] using h
        obtain ⟨hlt, hlookup⟩ := ih hj
        exact ⟨by simpa using hlt, by simpa [List.lookup_cons, hne] using hlookup⟩

lemma insertNew_of_mem {entries : List (Text × β)} {key : Text} (h : key ∈ entries.map Prod.fst)
    (value : β) : insertNew entries key value = entries := by
  cases hget : entries.lookup key with
  | none => exact absurd h (lookup_eq_none_iff_notMem.mp hget)
  | some v => simp [insertNew, hget]

lemma insertNew_of_notMem {entries : List (Text × β)} {key : Text}
    (h : key ∉ entries.map Prod.fst) (value : β) :
    insertNew entries key value = entries ++ [(key, value)] := by
  simp [insertNew, lookup_eq_none_iff_notMem.mpr h]

lemma prefix_insertNew (entries : List (Text × β)) (key : Text) (value : β) :
    entries <+: insertNew entries key value := by
  by_cases h : key ∈ entries.map Prod.fst
  · simp only [insertNew_of_mem h, List.prefix_refl]
  · simp only [insertNew_of_notMem h, List.prefix_append]

lemma nodup_insertNew {entries : List (Text × β)} (hnodup : (entries.map Prod.fst).Nodup)
    (key : Text) (value : β) : ((insertNew entries key value).map Prod.fst).Nodup := by
  by_cases h : key ∈ entries.map Prod.fst
  · rwa [insertNew_of_mem h]
  · rw [insertNew_of_notMem h, List.map_append, List.nodup_append]
    refine ⟨hnodup, by simp, ?_⟩
    rintro a ha b hb rfl
    obtain rfl : a = key := by simpa using hb
    exact h ha

lemma mem_insertNew {entries : List (Text × β)} {key : Text} {value : β} {e : Text × β}
    (he : e ∈ insertNew entries key value) : e ∈ entries ∨ e = (key, value) := by
  by_cases h : key ∈ entries.map Prod.fst
  · rw [insertNew_of_mem h] at he
    exact Or.inl he
  · rw [insertNew_of_notMem h] at he
    simpa using he

lemma keys_insertNew (entries : List (Text × β)) (key : Text) (value : β) :
    (insertNew entries key value).map Prod.fst = addNew (entries.map Prod.fst) key := by
  rw [addNew]
  split_ifs with h
  · rw [insertNew_of_mem h]
  · rw [insertNew_of_notMem h, List.map_append]
    rfl

end InsertNew

/-! ## Ledgers -/

namespace Ledger

variable {β : Type}

lemma position?_eq_idxOf? (ledger : Ledger β) (key : Text) :
    ledger.position? key = (ledger.entries.map Prod.fst).idxOf? key := by
  rw [position?, ledger.index_eq, List.idxOf?, List.findIdx?_map]
  rfl

lemma position?_eq_none_iff {ledger : Ledger β} {key : Text} :
    ledger.position? key = none ↔ key ∉ ledger.entries.map Prod.fst := by
  rw [position?_eq_idxOf?, List.idxOf?_eq_none_iff]

/-- **A look-up by way of the index finds what stands in the entries.** -/
theorem get?_eq_lookup (ledger : Ledger β) (key : Text) :
    ledger.get? key = ledger.entries.lookup key := by
  unfold get?
  split
  · next i h =>
      rw [position?, ledger.index_eq] at h
      obtain ⟨hi, hlookup⟩ := lookup_eq_of_findIdx? h
      rw [hlookup, List.get_eq_getElem]
  · next h => rw [lookup_eq_none_iff_notMem.mpr (position?_eq_none_iff.mp h)]

/-- A key that was written stays as it is. -/
lemma write_of_mem {ledger : Ledger β} {key : Text} (h : key ∈ ledger.entries.map Prod.fst)
    (value : β) : (ledger.write key value).2 = ledger := by
  unfold write
  split
  · rfl
  · next hnone => exact absurd h (position?_eq_none_iff.mp hnone)

lemma entries_write (ledger : Ledger β) (key : Text) (value : β) :
    (ledger.write key value).2.entries = insertNew ledger.entries key value := by
  by_cases h : key ∈ ledger.entries.map Prod.fst
  · rw [write_of_mem h, insertNew_of_mem h]
  · rw [insertNew_of_notMem h]
    unfold write
    split
    · next i hi =>
        rw [position?_eq_none_iff.mpr h] at hi
        cases hi
    · rfl

end Ledger

/-! ## The table of decoded escapes -/

namespace EscapeTable

lemma entries_record (table : EscapeTable) (escape : Text) (c : Char) :
    (table.record escape c).entries = insertNew table.entries escape c :=
  table.entries_write escape c

lemma prefix_recordAll (escapes : List (Text × Char)) :
    ∀ table : EscapeTable, table.entries <+: (table.recordAll escapes).entries := by
  induction escapes with
  | nil => exact fun table => List.prefix_refl _
  | cons e escapes ih =>
      intro table
      exact (entries_record table e.1 e.2 ▸ prefix_insertNew _ _ _).trans (ih _)

lemma nodup_recordAll (escapes : List (Text × Char)) :
    ∀ {table : EscapeTable}, (table.entries.map Prod.fst).Nodup →
      ((table.recordAll escapes).entries.map Prod.fst).Nodup := by
  induction escapes with
  | nil => exact fun h => h
  | cons e escapes ih =>
      intro table h
      refine ih ?_
      rw [entries_record]
      exact nodup_insertNew h _ _

lemma mem_recordAll (escapes : List (Text × Char)) :
    ∀ {table : EscapeTable} {e : Text × Char}, e ∈ (table.recordAll escapes).entries →
      e ∈ table.entries ∨ e ∈ escapes := by
  induction escapes with
  | nil => exact fun h => Or.inl h
  | cons x escapes ih =>
      intro table e he
      rcases ih he with he | he
      · rw [entries_record] at he
        rcases mem_insertNew he with he | rfl
        · exact Or.inl he
        · exact Or.inr List.mem_cons_self
      · exact Or.inr (List.mem_cons_of_mem _ he)

lemma keys_recordAll (escapes : List (Text × Char)) (table : EscapeTable) :
    (table.recordAll escapes).entries.map Prod.fst
      = (escapes.map Prod.fst).foldl addNew (table.entries.map Prod.fst) := by
  rw [List.foldl_map, recordAll]
  refine (List.foldl_hom (fun t : EscapeTable => t.entries.map Prod.fst) fun t e => ?_).symm
  rw [entries_record, keys_insertNew]

/-- The escapes of a table are those that were there and those that were recorded. -/
lemma mem_keys_recordAll (escapes : List (Text × Char)) {table : EscapeTable} {key : Text} :
    key ∈ (table.recordAll escapes).entries.map Prod.fst ↔
      key ∈ table.entries.map Prod.fst ∨ key ∈ escapes.map Prod.fst := by
  rw [keys_recordAll, mem_foldl_addNew]

/-- **What is recorded comes behind what was there**, each new escape once, in the order in which
the escapes came; as long as an escape always comes with the same character. -/
theorem entries_recordAll (escapes : List (Text × Char)) :
    ∀ {table : EscapeTable},
      (∀ e ∈ escapes, ∀ e' ∈ table.entries ++ escapes, e.1 = e'.1 → e = e') →
      (table.recordAll escapes).entries
        = table.entries ++ (escapes.filter fun e => e ∉ table.entries).eraseDups := by
  induction escapes with
  | nil => intro table _; simp [recordAll]
  | cons e escapes ih =>
      intro table hsame
      have hstep : table.recordAll (e :: escapes) = (table.record e.1 e.2).recordAll escapes := rfl
      have hkey : e.1 ∈ table.entries.map Prod.fst ↔ e ∈ table.entries := by
        constructor
        · intro h
          obtain ⟨e', he', heq⟩ := List.mem_map.mp h
          rwa [hsame e List.mem_cons_self e' (List.mem_append_left _ he') heq.symm]
        · exact fun h => List.mem_map_of_mem h
      rw [hstep]
      by_cases h : e ∈ table.entries
      · have hentries : (table.record e.1 e.2).entries = table.entries := by
          rw [entries_record, insertNew_of_mem (hkey.mpr h)]
        rw [ih, hentries, List.filter_cons_of_neg (by simpa using h)]
        intro x hx e' he'
        rw [hentries] at he'
        exact hsame x (List.mem_cons_of_mem e hx) e'
          ((List.mem_append.mp he').elim (List.mem_append_left _)
            fun h' => List.mem_append_right _ (List.mem_cons_of_mem e h'))
      · have hentries : (table.record e.1 e.2).entries = table.entries ++ [e] := by
          rw [entries_record, insertNew_of_notMem (fun h' => h (hkey.mp h'))]
        rw [ih, hentries, List.filter_cons_of_pos (by simpa using h), List.eraseDups_cons,
          List.filter_filter, List.append_assoc, List.singleton_append]
        · congr 4
          funext x
          by_cases hx : x = e <;> simp [hx]
        · intro x hx e' he'
          rw [hentries, List.append_assoc, List.singleton_append] at he'
          exact hsame x (List.mem_cons_of_mem e hx) e' he'

end EscapeTable

/-! ## Rename tables -/

namespace RenameTable

/-- The renamed tokens, in the order of first assignment. -/
def originals (table : RenameTable) : List Text := table.entries.map Prod.fst

/-- The new names, in the order of first assignment. -/
def replacements (table : RenameTable) : List Text := table.entries.map Prod.snd

/-- What a word becomes: its new name if it has one. -/
def rename (table : RenameTable) (w : Text) : Text := (table.get? w).getD w

/-- The originals are distinct, and the `i`-th new name is the `i`-th name of the pool. -/
structure Numbered (table : RenameTable) : Prop where
  nodup : table.originals.Nodup
  names : table.replacements = (List.range table.size).map table.pool.nameAt

lemma assign_of_mem {table : RenameTable} {token : Text} (h : token ∈ table.originals) :
    table.assign token = table := by
  show { table with toLedger := (table.write token (table.pool.nameAt table.size)).2 } = table
  rw [Ledger.write_of_mem h]

lemma entries_assign (table : RenameTable) (token : Text) :
    (table.assign token).entries
      = insertNew table.entries token (table.pool.nameAt table.size) :=
  table.entries_write token (table.pool.nameAt table.size)

@[simp] lemma pool_assign (table : RenameTable) (token : Text) :
    (table.assign token).pool = table.pool := rfl

@[simp] lemma pool_assignAll (tokens : List Text) :
    ∀ table : RenameTable, (table.assignAll tokens).pool = table.pool := by
  induction tokens with
  | nil => exact fun table => rfl
  | cons t tokens ih => exact fun table => (ih (table.assign t)).trans (table.pool_assign t)

lemma prefix_assignAll (tokens : List Text) :
    ∀ table : RenameTable, table.entries <+: (table.assignAll tokens).entries := by
  induction tokens with
  | nil => exact fun table => List.prefix_refl _
  | cons t tokens ih =>
      intro table
      exact (entries_assign table t ▸ prefix_insertNew _ _ _).trans (ih _)

lemma originals_assign (table : RenameTable) (token : Text) :
    (table.assign token).originals = addNew table.originals token := by
  rw [originals, entries_assign, keys_insertNew, originals]

/-- **What is assigned comes behind what was there**, each new token once, in the order in which the
tokens came. -/
theorem originals_assignAll (tokens : List Text) (table : RenameTable) :
    (table.assignAll tokens).originals
      = table.originals ++ (tokens.filter fun t => t ∉ table.originals).eraseDups := by
  rw [← foldl_addNew, assignAll]
  exact (List.foldl_hom originals fun table token => (originals_assign table token).symm).symm

lemma mem_originals_assignAll {table : RenameTable} {tokens : List Text} {t : Text} :
    t ∈ (table.assignAll tokens).originals ↔ t ∈ table.originals ∨ t ∈ tokens := by
  rw [originals_assignAll, ← foldl_addNew, mem_foldl_addNew]

/-- Tokens that have names already change nothing. -/
lemma assignAll_of_mem {table : RenameTable} {tokens : List Text}
    (h : ∀ t ∈ tokens, t ∈ table.originals) : table.assignAll tokens = table := by
  induction tokens with
  | nil => rfl
  | cons t tokens ih =>
      rw [assignAll, List.foldl_cons, assign_of_mem (h t List.mem_cons_self)]
      exact ih fun t' ht' => h t' (List.mem_cons_of_mem t ht')

lemma Numbered.assign {table : RenameTable} (h : table.Numbered) (token : Text) :
    (table.assign token).Numbered := by
  refine ⟨?_, ?_⟩
  · rw [originals, entries_assign]
    exact nodup_insertNew h.nodup _ _
  · by_cases hmem : token ∈ table.originals
    · rw [replacements, Ledger.size, entries_assign, insertNew_of_mem hmem, pool_assign]
      exact h.names
    · have hnames := h.names
      rw [replacements, Ledger.size] at hnames
      rw [replacements, Ledger.size, entries_assign, insertNew_of_notMem hmem, pool_assign,
        List.map_append, hnames, List.length_append, List.length_singleton, List.range_succ,
        List.map_append]
      rfl

lemma Numbered.assignAll (tokens : List Text) :
    ∀ {table : RenameTable}, table.Numbered → (table.assignAll tokens).Numbered := by
  induction tokens with
  | nil => exact fun h => h
  | cons t tokens ih => exact fun h => ih (h.assign t)

/-- Every new name of a numbered table is a name of its pool. -/
lemma Numbered.exists_nameAt {table : RenameTable} (h : table.Numbered) {name : Text}
    (hmem : name ∈ table.replacements) : ∃ i, name = table.pool.nameAt i := by
  rw [h.names] at hmem
  obtain ⟨i, -, rfl⟩ := List.mem_map.mp hmem
  exact ⟨i, rfl⟩

/-! ## Token after token -/

lemma rename_of_notMem {table : RenameTable} {w : Text} (h : w ∉ table.originals) :
    table.rename w = w := by
  rw [rename, Ledger.get?_eq_lookup, lookup_eq_none_iff_notMem.mpr h, Option.getD_none]

lemma get?_eq_some_rename {table : RenameTable} {w : Text} (h : w ∈ table.originals) :
    table.get? w = some (table.rename w) := by
  cases hget : table.get? w with
  | none =>
      rw [Ledger.get?_eq_lookup] at hget
      exact absurd h (lookup_eq_none_iff_notMem.mp hget)
  | some name => rw [rename, hget, Option.getD_some]

lemma mem_entries_rename {table : RenameTable} {w : Text} (h : w ∈ table.originals) :
    (w, table.rename w) ∈ table.entries := by
  have hget := get?_eq_some_rename h
  rw [Ledger.get?_eq_lookup] at hget
  exact mem_of_lookup_eq_some hget

lemma rename_mem_replacements {table : RenameTable} {w : Text} (h : w ∈ table.originals) :
    table.rename w ∈ table.replacements :=
  List.mem_map_of_mem (mem_entries_rename h)

/-- Distinct tokens have distinct new names, if no new name is used twice. -/
lemma rename_injOn {table : RenameTable} (hnodup : table.replacements.Nodup) {v w : Text}
    (hv : v ∈ table.originals) (hw : w ∈ table.originals) (h : table.rename v = table.rename w) :
    v = w := by
  have heq := List.inj_on_of_nodup_map hnodup (mem_entries_rename hv) (mem_entries_rename hw) h
  exact congrArg Prod.fst heq

/-- Replacing token after token, along any row of entries and for the tokens that are accepted: the
first entry of a word counts, as long as the tokens are words, the new names are made of word
characters, and no new name is a token that is replaced later. -/
lemma foldl_replaceToken_eq_mapWords (accepts : Text → Bool) {entries : List (Text × Text)}
    (horiginal : ∀ e ∈ entries, IsSingleWord e.1)
    (hname : ∀ e ∈ entries, ∀ c ∈ e.2, isWord c = true)
    (hlater : entries.Pairwise fun e later => e.2 ≠ later.1) (text : Text) :
    entries.foldl (fun t e => if accepts e.1 then replaceToken e.1 e.2 t else t) text
      = mapWords (fun w => if accepts w then (entries.lookup w).getD w else w) text := by
  have hkeep : ∀ {row : List (Text × Text)} {w : Text}, (∀ e ∈ row, w ≠ e.1) →
      (if accepts w then (row.lookup w).getD w else w) = w := by
    intro row w hw
    rw [List.lookup_eq_none_iff.mpr fun e he => by simpa using hw e he, Option.getD_none, ite_self]
  induction entries generalizing text with
  | nil => simp
  | cons e entries ih =>
      obtain ⟨token, name⟩ := e
      obtain ⟨hfirst, hrest⟩ := List.pairwise_cons.mp hlater
      have hword := horiginal (token, name) List.mem_cons_self
      have hother : ∀ {w : Text}, w ≠ token →
          ((token, name) :: entries).lookup w = entries.lookup w := by
        intro w hw
        rw [List.lookup_cons, beq_eq_false_iff_ne.mpr hw]
      rw [List.foldl_cons, ih (fun x hx => horiginal x (List.mem_cons_of_mem _ hx))
        (fun x hx => hname x (List.mem_cons_of_mem _ hx)) hrest]
      by_cases htoken : accepts token = true
      · rw [if_pos htoken, replaceToken_eq_mapWords hword, mapWords_mapWords]
        · -- what the first entry puts in is not touched by the others
          refine mapWords_congr fun w _ => ?_
          by_cases hw : w = token
          · rw [if_pos hw, hkeep hfirst, hw, if_pos htoken, List.lookup_cons_self, Option.getD_some]
          · rw [if_neg hw, hother hw]
        · intro w hw c hc
          split_ifs at hc
          · exact hname (token, name) List.mem_cons_self c hc
          · exact (isSingleWord_of_mem_words hw).isWord c hc
        · -- nothing stays nothing: no token is empty
          exact hkeep fun x hx heq => (horiginal x (List.mem_cons_of_mem _ hx)).ne_nil heq.symm
      · rw [if_neg htoken]
        refine mapWords_congr fun w _ => ?_
        by_cases hw : w = token
        · rw [hw, if_neg htoken, if_neg htoken]
        · rw [hother hw]

/-- What a table makes of a word of a text: its new name if it has one, and if the engine takes the
word. -/
def substitute [SearchEngine] (table : RenameTable) (w : Text) : Text :=
  if SearchEngine.compiles w then table.rename w else w

/-- A word gets a new name, or it stays because it is no token or is refused. -/
lemma substitute_cases [SearchEngine] (table : RenameTable) (w : Text) :
    (w ∈ table.originals ∧ SearchEngine.compiles w = true ∧
        table.substitute w = table.rename w) ∨
      ((SearchEngine.compiles w = true → w ∉ table.originals) ∧ table.substitute w = w) := by
  unfold substitute
  by_cases hw : w ∈ table.originals
  · by_cases hcompiles : SearchEngine.compiles w = true
    · exact Or.inl ⟨hw, hcompiles, if_pos hcompiles⟩
    · exact Or.inr ⟨fun h => absurd h hcompiles, if_neg hcompiles⟩
  · refine Or.inr ⟨fun _ => hw, ?_⟩
    rw [rename_of_notMem hw, ite_self]

lemma substitute_of_notMem [SearchEngine] {table : RenameTable} {w : Text}
    (h : w ∉ table.originals) : table.substitute w = w := by
  rw [substitute, rename_of_notMem h, ite_self]

/-- Only for tokens does it matter what the engine takes. -/
lemma substitute_of_compiles [SearchEngine] {table : RenameTable} {w : Text}
    (h : w ∈ table.originals → SearchEngine.compiles w = true) :
    table.substitute w = table.rename w := by
  by_cases hw : w ∈ table.originals
  · rw [substitute, if_pos (h hw)]
  · rw [substitute_of_notMem hw, rename_of_notMem hw]

/-- **Replacing token after token is one map on words**, as long as the tokens are words, the new
names are made of word characters, and no new name is a token that is replaced later. -/
theorem apply_eq_mapWords [SearchEngine] {table : RenameTable}
    (horiginal : ∀ e ∈ table.entries, IsSingleWord e.1)
    (hname : ∀ e ∈ table.entries, ∀ c ∈ e.2, isWord c = true)
    (hlater : table.entries.Pairwise fun e later => e.2 ≠ later.1) (text : Text) :
    table.apply text = mapWords table.substitute text := by
  rw [apply, foldl_replaceToken_eq_mapWords SearchEngine.compiles horiginal hname hlater]
  exact mapWords_congr fun w _ => by rw [substitute, rename, Ledger.get?_eq_lookup]

/-- A table of a readable pool renames all its tokens at once, if some property holds of the tokens
and of none of the pool's names. -/
theorem Numbered.apply_eq_mapWords [SearchEngine] {table : RenameTable} (h : table.Numbered)
    (hpool : table.pool.Readable) {p : Text → Bool}
    (hword : ∀ t ∈ table.originals, IsSingleWord t) (htoken : ∀ t ∈ table.originals, p t = true)
    (hname : ∀ i, p (table.pool.nameAt i) = false) (text : Text) :
    table.apply text = mapWords table.substitute text := by
  refine RenameTable.apply_eq_mapWords ?_ ?_ ?_ text
  · exact fun e he => hword e.1 (List.mem_map_of_mem he)
  · intro e he
    obtain ⟨i, hi⟩ := h.exists_nameAt (List.mem_map_of_mem he)
    rw [hi]
    exact (hpool.isSingleWord_nameAt i).isWord
  · refine List.pairwise_of_forall_mem_list fun e he later hlater heq => ?_
    obtain ⟨i, hi⟩ := h.exists_nameAt (List.mem_map_of_mem he)
    have htrue := htoken later.1 (List.mem_map_of_mem hlater)
    rw [← heq, hi, hname i] at htrue
    cases htrue

end RenameTable

end LuaUnveil
