import LuaUnveil.Naming.Pool
import LuaUnveil.Proofs.Shape

/-!
# Names that a pool hands out

A name is a word of the pool with the number of a lap behind it, and the first lap has no number
(`NamePool.nameAt_eq`).  What follows from that form:

**Distinctness.**  The last underscore of a numbered name separates the word from the lap
(`NamePool.numbered_inj`), so a pool never hands out a name twice as long as its words are distinct
and none of them is another one with a number (`NamePool.nameAt_injective`).  Both are needed: a
repeated word is handed out twice in the first lap (`NamePool.nodup_of_injective`), and a word that
is another one with a number is handed out again in the lap of that number
(`NamePool.ne_numbered_of_injective`).

**Readability.**  For a pool of distinct readable words made of letters, `NamePool.Readable`, every
name is a single word that does not look generated, and two such pools without a common word have
no common name.  The two pools of the program are of this kind.
-/

namespace LuaUnveil

/-! ## Decimal numerals -/

lemma isDigit_of_mem_decimal {n : Nat} {c : Char} (h : c ∈ decimal n) : c.isDigit = true :=
  Nat.isDigit_of_mem_toDigits (by decide) (by decide) h

lemma underscore_notMem_decimal (n : Nat) : '_' ∉ decimal n := Nat.underscore_not_in_toDigits

lemma decimal_injective : Function.Injective decimal := by
  intro m n h
  have hvalue := congrArg (fun digits => Nat.ofDigitChars 10 digits 0) h
  simpa [decimal] using hvalue

namespace NamePool

/-! ## The form of a name -/

/-- What is put behind a word in a lap: nothing in the first one, then the number of the lap. -/
def lapSuffix (lap : Nat) : Text := if lap = 0 then [] else '_' :: decimal lap

lemma isWord_of_mem_lapSuffix {lap : Nat} {c : Char} (h : c ∈ lapSuffix lap) : isWord c = true := by
  unfold lapSuffix at h
  split_ifs at h
  · cases h
  · rcases List.mem_cons.mp h with rfl | h
    · exact isWord_underscore
    · exact isWord_of_isDigit (isDigit_of_mem_decimal h)

/-- A name is a word of the pool with what belongs to its lap. -/
lemma nameAt_eq {pool : NamePool} (hne : pool.words ≠ []) (i : Nat) :
    ∃ h : i % pool.size < pool.words.length,
      pool.nameAt i = pool.words[i % pool.size] ++ lapSuffix (i / pool.size) := by
  have hlt : i % pool.size < pool.words.length := Nat.mod_lt _ (List.length_pos_iff.mpr hne)
  refine ⟨hlt, ?_⟩
  rw [nameAt, List.getElem?_eq_getElem hlt]
  by_cases hlap : i / pool.size = 0
  · simp [lapSuffix, hlap]
  · simp [lapSuffix, hlap, numbered]

/-! ## Distinct names -/

lemma underscore_mem_numbered (w : Text) (n : Nat) : '_' ∈ numbered w n :=
  List.mem_append_right w List.mem_cons_self

/-- A number holds no underscore, so nothing stands in front of the one that introduces it. -/
lemma eq_nil_of_underscore_decimal {x : Text} {m n : Nat}
    (h : '_' :: decimal m = x ++ '_' :: decimal n) : x = [] ∧ m = n := by
  cases x with
  | nil => exact ⟨rfl, decimal_injective (List.cons.inj h).2⟩
  | cons c x =>
      have hmem : '_' ∈ decimal m := by
        rw [(List.cons.inj h).2]
        exact underscore_mem_numbered x n
      exact absurd hmem (underscore_notMem_decimal m)

/-- The last underscore of a numbered name is the one in front of the number. -/
lemma numbered_inj {v w : Text} {m n : Nat} (h : numbered v m = numbered w n) : v = w ∧ m = n := by
  rw [numbered, numbered, List.append_eq_append_iff] at h
  rcases h with ⟨x, rfl, h⟩ | ⟨x, rfl, h⟩
  · obtain ⟨rfl, hmn⟩ := eq_nil_of_underscore_decimal h
    exact ⟨(List.append_nil v).symm, hmn⟩
  · obtain ⟨rfl, hnm⟩ := eq_nil_of_underscore_decimal h
    exact ⟨List.append_nil w, hnm.symm⟩

/-- A word and its lap can be read off a name, if no word is another one with a number. -/
lemma append_lapSuffix_inj {v w : Text} {m n : Nat} (hv : ∀ lap, 0 < lap → w ≠ numbered v lap)
    (hw : ∀ lap, 0 < lap → v ≠ numbered w lap) (h : v ++ lapSuffix m = w ++ lapSuffix n) :
    v = w ∧ m = n := by
  unfold lapSuffix at h
  split_ifs at h with hm hn hn
  · exact ⟨by simpa using h, by omega⟩
  · exact absurd (by simpa [numbered] using h) (hw n (Nat.pos_of_ne_zero hn))
  · exact absurd (by simpa [numbered] using h.symm) (hv m (Nat.pos_of_ne_zero hm))
  · exact numbered_inj h

/-- **A pool never hands out a name twice**, over all laps, if its words are distinct and none of
them is another one with a number. -/
theorem nameAt_injective {pool : NamePool} (hnodup : pool.words.Nodup)
    (hfree : ∀ v ∈ pool.words, ∀ w ∈ pool.words, ∀ lap, 0 < lap → w ≠ numbered v lap) :
    Function.Injective pool.nameAt := by
  intro i j h
  by_cases hne : pool.words = []
  · simp only [nameAt, hne, List.getElem?_nil] at h
    exact (numbered_inj h).2
  · obtain ⟨hi, hnamei⟩ := nameAt_eq hne i
    obtain ⟨hj, hnamej⟩ := nameAt_eq hne j
    rw [hnamei, hnamej] at h
    have hmemi := List.getElem_mem hi
    have hmemj := List.getElem_mem hj
    obtain ⟨hword, hlap⟩ := append_lapSuffix_inj (hfree _ hmemi _ hmemj) (hfree _ hmemj _ hmemi) h
    have hplace : i % pool.size = j % pool.size := (hnodup.getElem_inj_iff).mp hword
    rw [← Nat.div_add_mod i pool.size, ← Nat.div_add_mod j pool.size, hlap, hplace]

/-- What is handed out at a place of the pool in a lap. -/
lemma nameAt_add_mul {pool : NamePool} {i : Nat} (hi : i < pool.words.length) (lap : Nat) :
    pool.nameAt (i + pool.size * lap) = pool.words[i] ++ lapSuffix lap := by
  have hsize : i < pool.size := hi
  have hplace : (i + pool.size * lap) % pool.size = i := by
    rw [Nat.add_mul_mod_self_left, Nat.mod_eq_of_lt hsize]
  have hlap : (i + pool.size * lap) / pool.size = lap := by
    rw [Nat.add_mul_div_left _ _ (Nat.zero_lt_of_lt hsize), Nat.div_eq_of_lt hsize, Nat.zero_add]
  rw [nameAt, hplace, hlap, List.getElem?_eq_getElem hi]
  by_cases h : lap = 0
  · simp [lapSuffix, h]
  · simp [lapSuffix, h, numbered]

/-- A pool that hands out no name twice repeats no word: the first lap hands out the words. -/
lemma nodup_of_injective {pool : NamePool} (h : Function.Injective pool.nameAt) :
    pool.words.Nodup := by
  rw [List.nodup_iff_injective_get]
  rintro ⟨i, hi⟩ ⟨j, hj⟩ hword
  rw [List.get_eq_getElem, List.get_eq_getElem] at hword
  have hname : pool.nameAt (i + pool.size * 0) = pool.nameAt (j + pool.size * 0) := by
    rw [nameAt_add_mul hi, nameAt_add_mul hj, hword]
  exact Fin.ext (h hname)

/-- In a pool that hands out no name twice no word is another one with a number: the first lap hands
out the one, and the lap of that number the other. -/
lemma ne_numbered_of_injective {pool : NamePool} (h : Function.Injective pool.nameAt) {v w : Text}
    (hv : v ∈ pool.words) (hw : w ∈ pool.words) {lap : Nat} (hlap : 0 < lap) :
    w ≠ numbered v lap := by
  obtain ⟨i, hi, rfl⟩ := List.getElem_of_mem hv
  obtain ⟨j, hj, rfl⟩ := List.getElem_of_mem hw
  intro hword
  have hsuffix : lapSuffix lap = '_' :: decimal lap := if_neg (Nat.ne_of_gt hlap)
  have hname : pool.nameAt (j + pool.size * 0) = pool.nameAt (i + pool.size * lap) := by
    rw [nameAt_add_mul hj, nameAt_add_mul hi, hword, hsuffix, numbered]
    exact List.append_nil _
  have hindex : j + pool.size * 0 = i + pool.size * lap := h hname
  have hsize : pool.size ≤ pool.size * lap := Nat.le_mul_of_pos_right _ hlap
  have hfirst : j < pool.size := hj
  omega

/-! ## Readable pools -/

/-- A pool of distinct words made of letters, none of which can start a generated name. -/
structure Readable (pool : NamePool) : Prop where
  ne_nil : pool.words ≠ []
  nodup : pool.words.Nodup
  isAlpha : ∀ w ∈ pool.words, ∀ c ∈ w, c.isAlpha = true
  isReadable : ∀ w ∈ pool.words, isReadable w = true

/-- Whether a pool is readable, as a test that can be run. -/
def checkReadable (pool : NamePool) : Bool :=
  !pool.words.isEmpty && decide pool.words.Nodup &&
    pool.words.all fun w => w.all Char.isAlpha && LuaUnveil.isReadable w

lemma Readable.of_check {pool : NamePool} (h : pool.checkReadable = true) : pool.Readable := by
  simp only [checkReadable, Bool.and_eq_true, Bool.not_eq_true', List.isEmpty_eq_false_iff,
    decide_eq_true_eq, List.all_eq_true] at h
  obtain ⟨⟨hne, hnodup⟩, hwords⟩ := h
  exact ⟨hne, hnodup, fun w hw => (hwords w hw).1, fun w hw => (hwords w hw).2⟩

namespace Readable

variable {pool : NamePool} (hp : pool.Readable)

include hp

/-- No word of the pool is a word with a number. -/
lemma ne_numbered {w : Text} (hw : w ∈ pool.words) (v : Text) (lap : Nat) : w ≠ numbered v lap := by
  rintro rfl
  exact absurd (hp.isAlpha _ hw '_' (underscore_mem_numbered v lap)) (by decide)

theorem nameAt_injective : Function.Injective pool.nameAt :=
  NamePool.nameAt_injective hp.nodup fun v _ _ hw lap _ => hp.ne_numbered hw v lap

/-- Every name continues a word of the pool. -/
lemma exists_nameAt_eq (i : Nat) :
    ∃ w ∈ pool.words, ∃ lap, pool.nameAt i = w ++ lapSuffix lap := by
  obtain ⟨hi, hname⟩ := nameAt_eq hp.ne_nil i
  exact ⟨_, List.getElem_mem hi, _, hname⟩

lemma isSingleWord_nameAt (i : Nat) : IsSingleWord (pool.nameAt i) := by
  obtain ⟨w, hw, lap, hname⟩ := hp.exists_nameAt_eq i
  rw [hname]
  refine ⟨?_, ?_⟩
  · intro h
    have hread := hp.isReadable w hw
    rw [(List.append_eq_nil_iff.mp h).1] at hread
    cases hread
  · intro c hc
    rcases List.mem_append.mp hc with hc | hc
    · exact isWord_of_isAlpha (hp.isAlpha w hw c hc)
    · exact isWord_of_mem_lapSuffix hc

/-- **No name looks generated**, in any lap. -/
theorem isGenerated_nameAt (i : Nat) : isGenerated (pool.nameAt i) = false := by
  obtain ⟨w, hw, lap, hname⟩ := hp.exists_nameAt_eq i
  rw [hname]
  exact isGenerated_of_isReadable (hp.isReadable w hw) _

/-- No name is a letter with hexadecimal digits behind it. -/
lemma isLetterAndRun_nameAt (n i : Nat) :
    Shape.isLetterAndRun isHexDigit n (pool.nameAt i) = false := by
  obtain ⟨w, hw, lap, hname⟩ := hp.exists_nameAt_eq i
  rw [hname]
  exact isLetterAndRun_of_isReadable (hp.isReadable w hw) n _

/-- **Two readable pools without a common word have no common name.** -/
theorem nameAt_ne_nameAt {other : NamePool} (ho : other.Readable)
    (hdisjoint : ∀ w ∈ pool.words, w ∉ other.words) (i j : Nat) :
    pool.nameAt i ≠ other.nameAt j := by
  intro h
  obtain ⟨v, hv, m, hvname⟩ := hp.exists_nameAt_eq i
  obtain ⟨w, hw, n, hwname⟩ := ho.exists_nameAt_eq j
  rw [hvname, hwname] at h
  obtain ⟨rfl, -⟩ := append_lapSuffix_inj (fun lap _ => ho.ne_numbered hw v lap)
    (fun lap _ => hp.ne_numbered hv w lap) h
  exact hdisjoint v hv hw

end Readable

end NamePool

/-! ## The two pools of the program -/

lemma identifierNames_readable : identifierNames.Readable := .of_check (by decide +kernel)

lemma functionNames_readable : functionNames.Readable := .of_check (by decide +kernel)

/-- The nouns and the verbs have no name in common. -/
theorem identifierNames_ne_functionNames (i j : Nat) :
    identifierNames.nameAt i ≠ functionNames.nameAt j :=
  identifierNames_readable.nameAt_ne_nameAt functionNames_readable (by decide +kernel) i j

/-- **When a pool never hands out a name twice.**  Over all laps the names of a pool are distinct
exactly if its words are distinct and none of them is another one with an underscore and the number
of a later lap behind it.  So the names of a pool without words are always distinct.  The two pools
of the program hand out no name twice, and no name of one of them is ever a name of the other. -/
theorem names_unique_iff :
    (∀ pool : NamePool, Function.Injective pool.nameAt ↔
      pool.words.Nodup ∧
        ∀ v ∈ pool.words, ∀ w ∈ pool.words, ∀ lap, 0 < lap → w ≠ v ++ '_' :: decimal lap) ∧
    (∀ label : Text, Function.Injective (NamePool.mk label []).nameAt) ∧
    Function.Injective identifierNames.nameAt ∧ Function.Injective functionNames.nameAt ∧
    ∀ i j, identifierNames.nameAt i ≠ functionNames.nameAt j := by
  refine ⟨fun pool => ⟨fun h => ⟨NamePool.nodup_of_injective h, ?_⟩, ?_⟩, fun label => ?_,
    identifierNames_readable.nameAt_injective, functionNames_readable.nameAt_injective,
    identifierNames_ne_functionNames⟩
  · exact fun v hv w hw lap hlap => NamePool.ne_numbered_of_injective h hv hw hlap
  · exact fun h => NamePool.nameAt_injective h.1 h.2
  · exact NamePool.nameAt_injective List.nodup_nil fun v hv => by cases hv

-- the second lap of `a` collides with the word behind it
example : (NamePool.mk [] ["a".toList, "a_1".toList]).nameAt 2
    = (NamePool.mk [] ["a".toList, "a_1".toList]).nameAt 1 := by decide

end LuaUnveil
