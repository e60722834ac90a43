import LuaUnveil.Proofs.Renaming
import LuaUnveil.Proofs.Warnings

/-!
# What the figures count

The figures of a script are sizes of the tables that its session has filled.  This file says what
they are in terms of the texts between the passes.

**Sets of texts.**  Each table has its keys once, and its keys are the texts of a set that is
described without any scan: the decimal escapes that can be decoded
(`DecimalEscape.mem_keys_decoded`), the words that look generated, the names that are declared
(`mem_declaredFunctions`).  The size of the table is then the number of elements of this set.

**Nothing is counted twice.**  A declared name is a word of the text (`DeclaresFunction.mem_words`),
and once identifiers are renamed no word looks generated any more but those that the search engine
refuses (`Session.Sound.refused_of_mem_words`).

**Scores.**  The limits of 64 bits do not show in the score, since it is capped far below them.
-/

namespace LuaUnveil

/-- A list without repetitions is as long as the set of its members is large. -/
lemma encard_eq_length {items : List Text} (hnodup : items.Nodup) {texts : Set Text}
    (hmem : ∀ t, t ∈ items ↔ t ∈ texts) : texts.encard = items.length := by
  have htexts : texts = ↑items.toFinset := by
    ext t
    simp [hmem]
  rw [htexts, Set.encard_coe_eq_coe_finsetCard, List.toFinset_card_of_nodup hnodup]

/-! ## Escapes -/

namespace DecimalEscape

/-- The digits of an escape, with the text behind them: up to three, and as many as there are. -/
structure AreDigits (ds rest : Text) : Prop where
  ne_nil : ds ≠ []
  length_le : ds.length ≤ 3
  isDigit : ∀ c ∈ ds, c.isDigit = true
  whole : ds.length = 3 ∨ ∀ c ∈ rest.head?, c.isDigit = false

/-- Whether an escape for a printable ASCII character stands in a text, at any place. -/
def DecodableIn (text escape : Text) : Prop :=
  ∃ front ds rest, AreDigits ds rest ∧ escape = '\\' :: ds ∧ text = front ++ escape ++ rest ∧
    32 ≤ valueOfDigits 10 ds ∧ valueOfDigits 10 ds ≤ 126

lemma AreDigits.digits_eq {ds rest : Text} (h : AreDigits ds rest) : digits (ds ++ rest) = ds := by
  rw [digits_append h.isDigit h.length_le]
  rcases h.whole with hthree | hend
  · simp [hthree]
  · cases rest with
    | nil => simp
    | cons c rest => simp [hend c rfl]

/-- What a backslash takes off the text behind it are the digits of an escape. -/
lemma areDigits_digits {rest : Text} (h : digits rest ≠ []) :
    AreDigits (digits rest) (rest.drop (digits rest).length) where
  ne_nil := h
  length_le := List.length_take_le 3 _
  isDigit := fun _ hc => isDigit_of_mem_digits hc
  whole := by
    by_cases hlen : (rest.takeWhile Char.isDigit).length ≤ 3
    · right
      -- all digits are taken, and so what is behind them does not begin with one
      have hall : digits rest = rest.takeWhile Char.isDigit := List.take_of_length_le hlen
      have hbehind : rest.drop (digits rest).length = rest.dropWhile Char.isDigit := by
        refine List.append_cancel_left ((digits_append_drop rest).trans ?_)
        rw [hall, List.takeWhile_append_dropWhile]
      intro c hc
      have hnot := List.head?_dropWhile_not Char.isDigit rest
      rw [hbehind, Option.mem_def] at hc
      rw [hc] at hnot
      simpa using hnot
    · left
      rw [digits, List.length_take]
      omega

/-- An escape is found exactly where a backslash has digits behind it. -/
lemma pattern_eq_some_iff_areDigits {text : Text} {f : Found Nat} :
    pattern none text = some f ↔
      ∃ ds rest, AreDigits ds rest ∧ text = '\\' :: (ds ++ rest) ∧
        f = ⟨valueOfDigits 10 ds, '\\' :: ds⟩ := by
  constructor
  · intro h
    cases text with
    | nil => cases h
    | cons c rest =>
        by_cases hc : c = '\\'
        · subst hc
          obtain ⟨hne, rfl⟩ := pattern_eq_some_iff.mp h
          exact ⟨digits rest, _, areDigits_digits hne, by simp [digits_append_drop], rfl⟩
        · rw [beginsWith.of_ne hc] at h
          cases h
  · rintro ⟨ds, rest, hds, rfl, rfl⟩
    have hdigits : ((ds ++ rest).takeWhile Char.isDigit).take 3 = ds := hds.digits_eq
    exact pattern_eq_some_iff.mpr ⟨by rw [hdigits]; exact hds.ne_nil, by rw [hdigits]⟩

/-- **The decoded escapes are those that can be decoded.** -/
theorem mem_keys_decoded {text escape : Text} :
    escape ∈ (decoded text).map Prod.fst ↔ DecodableIn text escape := by
  rw [decoded, standsApart.finds_eq_everywhere, List.map_map, List.mem_map]
  simp only [List.mem_filter, Pattern.mem_everywhere, pattern_eq_some_iff_areDigits, accepts,
    Bool.and_eq_true, decide_eq_true_eq, Function.comp_apply]
  constructor
  · rintro ⟨f, ⟨⟨front, behind, rfl, ds, rest, hds, rfl, rfl⟩, hvalue⟩, rfl⟩
    exact ⟨front, ds, rest, hds, rfl, by simp, hvalue⟩
  · rintro ⟨front, ds, rest, hds, rfl, rfl, hvalue⟩
    exact ⟨_, ⟨⟨front, _, by simp, ds, rest, hds, rfl, rfl⟩, hvalue⟩, rfl⟩

end DecimalEscape

/-! ## Names -/

/-- A declared name is a word: there are blanks before it, and blanks or the parenthesis behind. -/
lemma DeclaresFunction.mem_words {text name : Text} (h : DeclaresFunction text name) :
    name ∈ words text := by
  obtain ⟨front, gap, space, rest, hd, rfl⟩ := h
  have hgap : IsSeparator gap := .of_blanks hd.gap_ne_nil hd.gap_blank
  have hname : IsSingleWord name :=
    Shape.isSingleWord_of_isLetterAndRun (fun _ => isWord_of_isHexDigit) hd.name_shape
  have hbehind : IsSeparator (space ++ '(' :: []) :=
    .of_operator hd.space_blank (by decide) (by simp)
  have htext : front ++ declarationText gap name space ++ rest
      = (front ++ ['f', 'u', 'n', 'c', 't', 'i', 'o', 'n'])
          ++ (gap ++ (name ++ ((space ++ '(' :: []) ++ rest))) := by
    simp [declarationText_eq]
  rw [htext, hgap.words_append, hbehind.words_word_append hname]
  simp

namespace Session

/-- Passes keep a session sound. -/
lemma Sound.runAll [SearchEngine] {s : Session} (hs : Sound s) (passes : List Pass) (text : Text) :
    Sound (Pass.runAll passes s text).2 := by
  induction passes generalizing s text with
  | nil => exact hs
  | cons pass passes ih =>
      rw [Pass.runAll_cons]
      exact ih (hs.of_grows (grows_step s (.pass pass text))) _

/-- **Renaming leaves no generated word but those that the engine refuses**: what looked generated
has a name of the pool. -/
theorem Sound.refused_of_mem_words [SearchEngine] {s : Session} (hs : Sound s) {text w : Text}
    (hw : w ∈ words (s.renameIdentifiers text).1) (hgenerated : isGenerated w = true) :
    w ∈ words text ∧ SearchEngine.compiles w = false := by
  have hs' : Sound (s.renameIdentifiers text).2 := sound_renameIdentifiers hs text
  have hmap : (s.renameIdentifiers text).1
      = mapWords (s.renameIdentifiers text).2.identifiers.substitute text :=
    hs'.apply_identifiers text
  rw [hmap] at hw
  rcases hs'.identifiers_numbered.eq_nameAt_or_of_mem_words hs'.identifiers_readable hw with
    ⟨i, rfl⟩ | ⟨hmem, hstays⟩
  · rw [hs'.identifiers_readable.isGenerated_nameAt] at hgenerated
    cases hgenerated
  · refine ⟨hmem, Bool.eq_false_iff.mpr fun hcompiles => hstays hcompiles ?_⟩
    exact RenameTable.mem_originals_assignAll.mpr
      (Or.inr (mem_generatedNames.mpr ⟨hmem, hgenerated⟩))

end Session

/-! ## Scores -/

lemma complexity_eq_high_iff {lineCount identifiers : Nat} :
    complexity lineCount identifiers = .high ↔ 200 < lineCount ∨ 50 < identifiers := by
  unfold complexity
  split_ifs <;> simp_all

lemma complexity_eq_low_iff {lineCount identifiers : Nat} :
    complexity lineCount identifiers = .low ↔ lineCount ≤ 50 ∧ identifiers ≤ 20 := by
  unfold complexity
  split_ifs <;> simp <;> omega

/-- The score as a number: no sum or product that reaches the limit of 64 bits is below the cap. -/
lemma toNat_confidence (identifiers escapes functions : Nat) :
    (confidence identifiers escapes functions).toNat
      = min 95 (40 + 2 * identifiers + 3 * escapes + 5 * functions) := by
  have hscore : ∀ n : Nat, (min n 95).toUInt8.toNat = min n 95 := by
    intro n
    refine Nat.mod_eq_of_lt ?_
    omega
  rw [confidence, hscore]
  simp only [addCounts, mulCounts, maxCount]
  omega

/-! ## The figures of a script -/

namespace Session

/-- The tables at the end of the standard passes: each was filled by one pass, from the text that
came to it. -/
lemma tables_runAll_standard [SearchEngine] (options : Options) (source : Text) :
    let result := (Pass.runAll Pass.standard (start options) source).2
    let formatted := (Pass.runAll (Pass.standard.take 2) (start options) source).1
    let named := (Pass.runAll (Pass.standard.take 3) (start options) source).1
    result.escapes
        = ({} : EscapeTable).recordAll (DecimalEscape.decoded (HexEscape.decode source)) ∧
      result.identifiers
        = ({ pool := identifierNames } : RenameTable).assignAll (generatedNames formatted) ∧
      result.functions
        = ({ pool := functionNames } : RenameTable).assignAll (declaredFunctions named) := by
  simp only [Pass.standard, List.take_succ_cons, List.take_zero, Pass.runAll, List.foldl_cons,
    List.foldl_nil, Pass.run, decodeStrings, decodeHex, decodeDecimal, warnUndecoded_eq,
    renameIdentifiers, renameFunctions]
  exact ⟨rfl, rfl, rfl⟩

section Sizes

variable {session : Session} (hsound : session.Sound) {text : Text}

include hsound

lemma encard_decodable
    (h : session.escapes = ({} : EscapeTable).recordAll (DecimalEscape.decoded text)) :
    {e | DecimalEscape.DecodableIn text e}.encard = session.escapes.size := by
  refine (encard_eq_length hsound.escapes_nodup fun e => ?_).trans
    (congrArg _ (List.length_map Prod.fst))
  rw [h, EscapeTable.mem_keys_recordAll, DecimalEscape.mem_keys_decoded]
  simp

lemma encard_generated
    (h : session.identifiers
      = ({ pool := identifierNames } : RenameTable).assignAll (generatedNames text)) :
    {w | w ∈ words text ∧ isGenerated w = true}.encard = session.identifiers.size := by
  refine (encard_eq_length hsound.identifiers_numbered.nodup fun w => ?_).trans
    (congrArg _ (List.length_map Prod.fst))
  rw [h, RenameTable.mem_originals_assignAll, mem_generatedNames]
  simp [RenameTable.originals]

lemma encard_declared
    (h : ∀ name, name ∈ session.functions.originals ↔ DeclaresFunction text name) :
    {name | DeclaresFunction text name}.encard = session.functions.size :=
  (encard_eq_length hsound.functions_numbered.nodup h).trans
    (congrArg _ (List.length_map Prod.fst))

end Sizes

end Session

/-- **The figures are exact.**  Let `formatted` be the text that comes to the renaming of
identifiers, and `named` the one that comes to the renaming of functions.  The figures count the
distinct decimal escapes that can be decoded once the hexadecimal ones are, the distinct words that
look generated, and the distinct names that are declared as generated functions.  None of these
names looks like a generated identifier, and no token is in both tables, unless the search engine
refuses it; so there is none at all if the engine takes all words of `formatted` that look
generated.  Lines are counted by their breaks, and the class and the score are functions of the
counts. -/
theorem deobfuscate_statistics_exact [SearchEngine] (options : Options) (source : Text) :
    let formatted := (Pass.runAll (Pass.standard.take 2) (.start options) source).1
    let named := (Pass.runAll (Pass.standard.take 3) (.start options) source).1
    let session := (Pass.runAll Pass.standard (.start options) source).2
    let outcome := deobfuscate options source
    let figures := outcome.statistics
    {e | DecimalEscape.DecodableIn (HexEscape.decode source) e}.encard = figures.escapes ∧
      {w | w ∈ words formatted ∧ isGenerated w = true}.encard = figures.identifiers ∧
      {name | DeclaresFunction named name}.encard = figures.functions ∧
      (∀ name, DeclaresFunction named name → isGenerated name = true →
        SearchEngine.compiles name = false) ∧
      (∀ name ∈ session.identifiers.originals, name ∈ session.functions.originals →
        SearchEngine.compiles name = false) ∧
      ((∀ w ∈ words formatted, isGenerated w = true → SearchEngine.compiles w = true) →
        {name | DeclaresFunction named name ∧ isGenerated name = true} = ∅ ∧
          session.identifiers.originals.Disjoint session.functions.originals) ∧
      figures.sourceLines = source.count '\n' + 1 ∧
      figures.resultLines = outcome.code.count '\n' + 1 ∧
      (figures.complexity = .high ↔ 200 < figures.sourceLines ∨ 50 < figures.identifiers) ∧
      (figures.complexity = .low ↔ figures.sourceLines ≤ 50 ∧ figures.identifiers ≤ 20) ∧
      figures.confidence.toNat
        = min 95 (40 + 2 * figures.identifiers + 3 * figures.escapes + 5 * figures.functions) := by
  intro formatted named session outcome figures
  obtain ⟨hescapes, hidentifiers, hfunctions⟩ :
      session.escapes
          = ({} : EscapeTable).recordAll (DecimalEscape.decoded (HexEscape.decode source)) ∧
        session.identifiers
          = ({ pool := identifierNames } : RenameTable).assignAll (generatedNames formatted) ∧
        session.functions
          = ({ pool := functionNames } : RenameTable).assignAll (declaredFunctions named) :=
    Session.tables_runAll_standard options source
  have hsound : session.Sound := (Session.sound_start options).runAll Pass.standard source
  have hnamed : ∀ w ∈ words named, isGenerated w = true →
      w ∈ words formatted ∧ SearchEngine.compiles w = false := fun w hw =>
    ((Session.sound_start options).runAll (Pass.standard.take 2) source).refused_of_mem_words hw
  have hfigures : figures = session.statistics source outcome.code := rfl
  -- from here on only these facts about the texts, the session and the outcome are used
  clear_value figures outcome session named formatted
  subst hfigures
  have hdeclared : ∀ name, name ∈ session.functions.originals ↔ DeclaresFunction named name := by
    intro name
    rw [hfunctions, RenameTable.mem_originals_assignAll, mem_declaredFunctions]
    simp [RenameTable.originals]
  have hrefused : ∀ name, DeclaresFunction named name → isGenerated name = true →
      name ∈ words formatted ∧ SearchEngine.compiles name = false :=
    fun name h => hnamed name h.mem_words
  -- a token of both tables is such a name
  have hboth : ∀ name ∈ session.identifiers.originals, name ∈ session.functions.originals →
      DeclaresFunction named name ∧ isGenerated name = true :=
    fun name hidentifier hfunction =>
      ⟨(hdeclared name).mp hfunction, hsound.identifiers_generated name hidentifier⟩
  refine ⟨Session.encard_decodable hsound hescapes, Session.encard_generated hsound hidentifiers,
    Session.encard_declared hsound hdeclared, fun name h hg => (hrefused name h hg).2,
    fun name hidentifier hfunction => ?_, fun hcompiles => ?_, rfl, rfl,
    complexity_eq_high_iff, complexity_eq_low_iff, toNat_confidence _ _ _⟩
  · obtain ⟨hname, hgenerated⟩ := hboth name hidentifier hfunction
    exact (hrefused name hname hgenerated).2
  · have hnone : ∀ name, ¬ (DeclaresFunction named name ∧ isGenerated name = true) := by
      rintro name ⟨hname, hgenerated⟩
      obtain ⟨hword, hnot⟩ := hrefused name hname hgenerated
      rw [hcompiles name hword hgenerated] at hnot
      cases hnot
    exact ⟨Set.eq_empty_iff_forall_notMem.mpr hnone,
      fun name hidentifier hfunction => hnone name (hboth name hidentifier hfunction)⟩

end LuaUnveil
