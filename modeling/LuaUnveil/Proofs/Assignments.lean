import LuaUnveil.Proofs.Table

/-!
# Tables after any calls

What a rename table and the escape table hold, and what they answer, after any calls on a new table.

**First writes.**  A log of writes is a map by itself: the first write of a key counts, and
`List.lookup` reads it from the front.  The escape table answers as the log of its records does
(`EscapeTable.get?_recordAll`).

**Positions.**  The index and the entries of a ledger stay in step: the index leads to a position
exactly if the key stands there (`Ledger.position?_eq_some_iff`), and a position once given stays
(`Ledger.position?_write`).  In a rename table it determines the name
(`RenameTable.Numbered.get?_eq`, `RenameTable.Numbered.nameFor_fst`).
-/

namespace LuaUnveil

/-! ## First writes -/

section FirstWrites

variable {β : Type}

/-- With distinct keys, what is looked up is what stands in the entries. -/
lemma lookup_eq_some_iff_mem {entries : List (Text × β)} (hnodup : (entries.map Prod.fst).Nodup)
    {key : Text} {value : β} : entries.lookup key = some value ↔ (key, value) ∈ entries := by
  refine ⟨mem_of_lookup_eq_some, fun h => ?_⟩
  cases hget : entries.lookup key with
  | none => exact absurd (List.mem_map_of_mem h) (lookup_eq_none_iff_notMem.mp hget)
  | some v =>
      have heq : (key, v) = (key, value) :=
        List.inj_on_of_nodup_map hnodup (mem_of_lookup_eq_some hget) h rfl
      rw [(Prod.mk.inj heq).2]

/-- Writing a key that is there already changes nothing that can be looked up, as if the second
write stood behind the first one. -/
lemma lookup_insertNew (entries : List (Text × β)) (k : Text) (value : β) (key : Text) :
    (insertNew entries k value).lookup key = (entries ++ [(k, value)]).lookup key := by
  by_cases hk : k ∈ entries.map Prod.fst
  · rw [insertNew_of_mem hk, List.lookup_append]
    cases hget : entries.lookup key with
    | some v => rfl
    | none =>
        have hne : (key == k) = false := by
          rw [beq_eq_false_iff_ne]
          rintro rfl
          exact lookup_eq_none_iff_notMem.mp hget hk
        rw [List.lookup_cons, hne]
        rfl
  · rw [insertNew_of_notMem hk]

end FirstWrites

namespace EscapeTable

/-- **The escape table answers as the log of its records does.** -/
theorem get?_recordAll (escapes : List (Text × Char)) :
    ∀ (table : EscapeTable) (escape : Text),
      (table.recordAll escapes).get? escape = (table.entries ++ escapes).lookup escape := by
  induction escapes with
  | nil =>
      intro table escape
      rw [List.append_nil]
      exact table.get?_eq_lookup escape
  | cons e escapes ih =>
      intro table escape
      have hstep : table.recordAll (e :: escapes) = (table.record e.1 e.2).recordAll escapes := rfl
      rw [hstep, ih, entries_record, List.lookup_append, lookup_insertNew, ← List.lookup_append,
        List.append_assoc, List.singleton_append]

end EscapeTable

/-! ## Positions -/

namespace Ledger

variable {β : Type}

/-- A position once given stays. -/
lemma position?_write {ledger : Ledger β} {key : Text} {i : Nat}
    (h : ledger.position? key = some i) (other : Text) (value : β) :
    (ledger.write other value).2.position? key = some i := by
  unfold write
  split
  · exact h
  · next hother =>
      have hne : (key == other) = false := by
        rw [beq_eq_false_iff_ne]
        rintro rfl
        rw [hother] at h
        cases h
      rw [position?, List.lookup_cons, hne]
      exact h

/-- The key of a write has its old position afterwards, or else the one at the end. -/
lemma position?_write_self (ledger : Ledger β) (key : Text) (value : β) :
    (ledger.write key value).2.position? key = some ((ledger.position? key).getD ledger.size) := by
  cases h : ledger.position? key with
  | some i => rw [position?_write h key value, Option.getD_some]
  | none =>
      unfold write
      split
      · next i hi =>
          rw [h] at hi
          cases hi
      · exact List.lookup_cons_self

/-- A write answers what the key had, or else what was written. -/
lemma write_fst (ledger : Ledger β) (key : Text) (value : β) :
    (ledger.write key value).1 = (ledger.get? key).getD value := by
  unfold write get?
  split
  · rfl
  · rfl

/-- **The index and the entries are in step**: with distinct keys, the index leads to a position
exactly if the key stands there. -/
theorem position?_eq_some_iff {ledger : Ledger β} (hnodup : (ledger.entries.map Prod.fst).Nodup)
    {key : Text} {i : Nat} :
    ledger.position? key = some i ↔ ∃ value, ledger.entries[i]? = some (key, value) := by
  rw [position?_eq_idxOf?, List.idxOf?_eq_some_iff]
  constructor
  · rintro ⟨hi, hat, -⟩
    have hi' : i < ledger.entries.length := by simpa using hi
    refine ⟨ledger.entries[i].2, ?_⟩
    have hfst : ledger.entries[i].1 = key := by simpa using hat
    rw [List.getElem?_eq_getElem hi', ← hfst]
  · rintro ⟨value, hvalue⟩
    obtain ⟨hi, hat⟩ := List.getElem?_eq_some_iff.mp hvalue
    have hi' : i < (ledger.entries.map Prod.fst).length := by simpa using hi
    have hkey : (ledger.entries.map Prod.fst)[i] = key := by simp [hat]
    refine ⟨hi', hkey, fun j hj heq => ?_⟩
    have hsame : j = i := (hnodup.getElem_inj_iff).mp (heq.trans hkey.symm)
    omega

end Ledger

namespace RenameTable

lemma position?_assignAll {token : Text} {i : Nat} (tokens : List Text) :
    ∀ {table : RenameTable}, table.position? token = some i →
      (table.assignAll tokens).position? token = some i := by
  induction tokens with
  | nil => exact fun h => h
  | cons t tokens ih => exact fun h => ih (Ledger.position?_write h t _)

namespace Numbered

variable {table : RenameTable} (h : table.Numbered)

include h

lemma getElem_entries {i : Nat} (hi : i < table.entries.length) :
    table.entries[i].2 = table.pool.nameAt i := by
  have hlength : i < table.replacements.length := by simpa [replacements] using hi
  have hname : table.replacements[i] = table.pool.nameAt i := by
    simp only [h.names, List.getElem_map, List.getElem_range]
  rw [← hname]
  simp [replacements]

/-- The entries are the originals with the names of the pool, each at its position. -/
lemma entries_eq :
    table.entries = table.originals.mapIdx fun i token => (token, table.pool.nameAt i) := by
  refine List.ext_getElem (by simp [originals]) fun i hi _ => ?_
  rw [List.getElem_mapIdx, ← h.getElem_entries hi]
  simp [originals]

/-- The position of a token determines its name. -/
lemma get?_eq (token : Text) :
    table.get? token = (table.position? token).map table.pool.nameAt := by
  unfold Ledger.get?
  split
  · next i hi =>
      calc some (table.entries.get ⟨i, Ledger.position?_lt hi⟩).2
          = some (table.pool.nameAt i) :=
            congrArg some (h.getElem_entries (Ledger.position?_lt hi))
        _ = (table.position? token).map table.pool.nameAt := by rw [hi, Option.map_some]
  · next hnone => rw [hnone, Option.map_none]

/-- So does the position that an assignment finds or gives. -/
lemma nameFor_fst (token : Text) :
    (table.nameFor token).1 = table.pool.nameAt ((table.position? token).getD table.size) := by
  calc (table.nameFor token).1
      = (table.get? token).getD (table.pool.nameAt table.size) := table.write_fst token _
    _ = table.pool.nameAt ((table.position? token).getD table.size) := by
        rw [h.get?_eq]
        cases table.position? token <;> rfl

/-- **What an assignment answers stands**: every later look-up of the token finds it, and every
later assignment of the token answers the same. -/
theorem nameFor_stands (token : Text) (later : List Text) :
    (table.assignAll (token :: later)).get? token = some (table.nameFor token).1 ∧
      ((table.assignAll (token :: later)).nameFor token).1 = (table.nameFor token).1 := by
  have hposition : (table.assignAll (token :: later)).position? token
      = some ((table.position? token).getD table.size) :=
    position?_assignAll later (table.position?_write_self token _)
  have hlater : (table.assignAll (token :: later)).Numbered := h.assignAll (token :: later)
  refine ⟨?_, ?_⟩
  · rw [hlater.get?_eq, hposition, h.nameFor_fst, pool_assignAll, Option.map_some]
  · rw [hlater.nameFor_fst, hposition, h.nameFor_fst, pool_assignAll, Option.getD_some]

end Numbered

/-! ## New tables -/

lemma numbered_new (pool : NamePool) : Numbered { pool := pool } := ⟨List.nodup_nil, rfl⟩

lemma originals_new (pool : NamePool) (tokens : List Text) :
    (assignAll { pool := pool } tokens).originals = tokens.eraseDups := by
  rw [originals_assignAll]
  simp [originals]

end RenameTable

/-- **The first write of a key stands.**  After any assignments on a new rename table, with any
pool: the entries are the distinct tokens in the order of first assignment, each with the name of
the pool for its position; the index leads to a position exactly if the token stands there in the
entries; a look-up finds the name for the position of the token, and nothing exactly for the tokens
that were never assigned; and what an assignment answers is what every later look-up and every later
assignment of the same token answers.  After any records in a new escape table: the escapes are the
distinct ones in the order of first record, each with the character of its first record; the index
leads to a position exactly if the escape stands there in the entries; and a look-up finds the
character of the first record. -/
theorem first_write_stands (pool : NamePool) (tokens : List Text) (escapes : List (Text × Char)) :
    let table := RenameTable.assignAll { pool := pool } tokens
    let decoded := EscapeTable.recordAll {} escapes
    table.entries = tokens.eraseDups.mapIdx (fun i token => (token, pool.nameAt i)) ∧
      (∀ token i, table.position? token = some i ↔
        ∃ name, table.entries[i]? = some (token, name)) ∧
      (∀ token, table.get? token = (tokens.eraseDups.idxOf? token).map pool.nameAt) ∧
      (∀ token, table.get? token = none ↔ token ∉ tokens) ∧
      (∀ token later,
        (table.assignAll (token :: later)).get? token = some (table.nameFor token).1 ∧
          ((table.assignAll (token :: later)).nameFor token).1 = (table.nameFor token).1) ∧
      decoded.entries.map Prod.fst = (escapes.map Prod.fst).eraseDups ∧
      (∀ escape c, (escape, c) ∈ decoded.entries ↔ escapes.lookup escape = some c) ∧
      (∀ escape i, decoded.position? escape = some i ↔
        ∃ c, decoded.entries[i]? = some (escape, c)) ∧
      ∀ escape, decoded.get? escape = escapes.lookup escape := by
  intro table decoded
  have hpool : table.pool = pool := RenameTable.pool_assignAll tokens _
  have horiginals : table.originals = tokens.eraseDups := RenameTable.originals_new pool tokens
  have hnumbered : table.Numbered := (RenameTable.numbered_new pool).assignAll tokens
  have hget : ∀ token, table.get? token = (tokens.eraseDups.idxOf? token).map pool.nameAt := by
    intro token
    rw [hnumbered.get?_eq, Ledger.position?_eq_idxOf?, ← RenameTable.originals, horiginals, hpool]
  have hdecoded : ∀ escape, decoded.get? escape = escapes.lookup escape :=
    EscapeTable.get?_recordAll escapes {}
  have hnodup : (decoded.entries.map Prod.fst).Nodup :=
    EscapeTable.nodup_recordAll escapes List.nodup_nil
  refine ⟨?_, fun token i => Ledger.position?_eq_some_iff hnumbered.nodup, hget, fun token => ?_,
    hnumbered.nameFor_stands, ?_, fun escape c => ?_,
    fun escape i => Ledger.position?_eq_some_iff hnodup, hdecoded⟩
  · rw [hnumbered.entries_eq, horiginals, hpool]
  · rw [hget, Option.map_eq_none_iff, List.idxOf?_eq_none_iff, List.mem_eraseDups]
  · rw [EscapeTable.keys_recordAll, foldl_addNew]
    simp
  · rw [← lookup_eq_some_iff_mem hnodup, ← hdecoded, Ledger.get?_eq_lookup]

/-! ## Renaming with a new table -/

namespace RenameTable

/-- **A table whose entries do not feed each other renames all at once.**  After any assignments on
a new table, with any pool: if the tokens are words, the names are made of word characters, or
empty, and no name is a token that was assigned later, then every word of a text that is a token and
that the search engine takes is replaced by its name, and everything else stays as it is and where
it is.  If the engine takes all tokens, these are all words that are tokens. -/
theorem apply_substitutes [SearchEngine] (pool : NamePool) (tokens : List Text) (text : Text) :
    let table := assignAll { pool := pool } tokens
    (∀ token ∈ table.originals, IsSingleWord token) →
      (∀ name ∈ table.replacements, ∀ c ∈ name, isWord c = true) →
      (table.entries.Pairwise fun e later => e.2 ≠ later.1) →
      table.apply text
          = mapWords (fun w => if SearchEngine.compiles w then (table.get? w).getD w else w) text ∧
        ((∀ token ∈ table.originals, SearchEngine.compiles token = true) →
          table.apply text = mapWords (fun w => (table.get? w).getD w) text) := by
  intro table horiginal hname hlater
  have hmap : table.apply text = mapWords table.substitute text :=
    apply_eq_mapWords (fun e he => horiginal e.1 (List.mem_map_of_mem he))
      (fun e he => hname e.2 (List.mem_map_of_mem he)) hlater text
  refine ⟨hmap, fun hcompiles => hmap.trans (mapWords_congr fun w _ => ?_)⟩
  exact substitute_of_compiles (hcompiles w)

/-- Tokens that are names of earlier tokens, letters beyond ASCII, and a name that is empty. -/
theorem apply_substitutes_at_chain :
    let table := assignAll { pool := ⟨[], ["x".toList, "b".toList, []]⟩ }
      ["b".toList, "a".toList, "é1".toList, "a".toList, "c".toList]
    let text := "a b-é1,é12 ab c".toList
    (∀ token ∈ table.originals, IsSingleWord token) ∧
      (∀ name ∈ table.replacements, ∀ c ∈ name, isWord c = true) ∧
      (table.entries.Pairwise fun e later => e.2 ≠ later.1) ∧
      (∀ token ∈ table.originals, SearchEngine.compiles token = true) ∧
      table.apply text = mapWords (fun w => (table.get? w).getD w) text ∧
      table.apply text = "b x-,é12 ab x_1".toList := by
  intro table text
  have horiginals : table.originals.all (fun t => !t.isEmpty && t.all isWord) = true := by
    decide +kernel
  have hnames : table.replacements.all (fun name => name.all isWord) = true := by decide +kernel
  have htaken : table.originals.all SearchEngine.compiles = true := by decide +kernel
  have horiginal : ∀ token ∈ table.originals, IsSingleWord token := by
    intro token ht
    have hcheck := List.all_eq_true.mp horiginals token ht
    rw [Bool.and_eq_true, Bool.not_eq_true', List.isEmpty_eq_false_iff] at hcheck
    exact ⟨hcheck.1, List.all_eq_true.mp hcheck.2⟩
  have hname : ∀ name ∈ table.replacements, ∀ c ∈ name, isWord c = true :=
    fun name h => List.all_eq_true.mp (List.all_eq_true.mp hnames name h)
  have hlater : table.entries.Pairwise fun e later => e.2 ≠ later.1 := by decide +kernel
  have hcompiles : ∀ token ∈ table.originals, SearchEngine.compiles token = true :=
    List.all_eq_true.mp htaken
  exact ⟨horiginal, hname, hlater, hcompiles,
    (apply_substitutes _ _ text horiginal hname hlater).2 hcompiles, by decide +kernel⟩

end RenameTable

end LuaUnveil
