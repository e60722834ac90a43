import LuaUnveil.Proofs.Blanks
import LuaUnveil.Proofs.Escape
import LuaUnveil.Proofs.Shape
import LuaUnveil.Session.Outcome

/-!
# The layout of a script does not matter

The second pass of the standard order lays the script out anew, from its collapsed form.  The first
pass, the decoder, comes before that and may itself put blanks in or bring blanks together.  So it
has to be shown that two scripts with the same content have the same content after decoding.

**The three walks.**  The escapes have no blanks in them, and so they are the same in a text and in
the collapsed text (`HexEscape.blankBlind`, `DecimalEscape.blankBlind`).  Joined literals are found
at the same places, with collapsed contents (`joinedLiterals_blankBlind`).

**The passes.**  `Session.decodeStrings_congr` and `formatCode_congr`.  From the second pass on
both runs have the same text and the same session.
-/

namespace LuaUnveil

/-! ## Escapes -/

lemma not_isBlank_of_isAlphanum {c : Char} (h : c.isAlphanum = true) : isBlank c = false := by
  have hval : c.toNat = c.val.toNat := rfl
  simp only [Char.isAlphanum, Char.isAlpha, Char.isUpper, Char.isLower, Char.isDigit,
    Bool.or_eq_true, Bool.and_eq_true, decide_eq_true_eq, ge_iff_le, UInt32.le_iff_toNat_le] at h
  simp only [isBlank, Bool.or_eq_false_iff, Bool.and_eq_false_iff, decide_eq_false_iff_not,
    beq_eq_false_iff_ne]
  simp at h
  omega

lemma not_isBlank_of_isDigit {c : Char} (h : c.isDigit = true) : isBlank c = false :=
  not_isBlank_of_isAlphanum (by simp [Char.isAlphanum, h])

lemma not_isBlank_of_isHexDigit {c : Char} (h : isHexDigit c = true) : isBlank c = false :=
  not_isBlank_of_isAlphanum (isAlphanum_of_isHexDigit h)

lemma ne_of_isBlank {c d : Char} (hc : isBlank c = true) (hd : isBlank d = false) : c ≠ d := by
  rintro rfl
  rw [hc] at hd
  cases hd

/-- A pattern with a first character of its own, whose finds have no blanks in them and which gives
the same answer for the collapsed text, does not care for the amount of blanks. -/
lemma Pattern.BlankBlind.of_eq {α : Type} {pattern : Pattern α} {first : Char}
    (hp : pattern.BeginsWith first) (hfirst : isBlank first = false)
    (heq : ∀ rest, pattern none (first :: collapseBlanks rest) = pattern none (first :: rest))
    (hcovered : ∀ {rest : Text} {f : Found α}, pattern none (first :: rest) = some f →
      ∃ v behind, rest = v ++ behind ∧ f.covered = first :: v ∧ ∀ d ∈ v, isBlank d = false) :
    pattern.BlankBlind Eq where
  looksAhead := hp.looksAhead
  blank := fun rest hc => hp.of_ne (ne_of_isBlank hc hfirst) rest
  none_iff := by
    intro c rest _
    by_cases hc : c = first
    · rw [hc, heq]
    · rw [hp.of_ne hc, hp.of_ne hc]
  found := by
    intro c rest f g _ hf hg
    by_cases hc : c = first
    · subst hc
      obtain ⟨v, behind, hv, hfv, hnonblank⟩ := hcovered hf
      have hfg : f = g := by
        rw [heq rest, hf] at hg
        exact Option.some.inj hg
      refine ⟨hfg, v, v, behind, hv, hfv, ?_, hfg ▸ hfv⟩
      rw [hv, collapseBlanks_append_of_nonblank hnonblank]
    · rw [hp.of_ne hc] at hf
      cases hf

lemma HexEscape.blankBlind : HexEscape.pattern.BlankBlind Eq := by
  refine .of_eq HexEscape.beginsWith (by decide) ?_ ?_
  · intro rest
    refine Option.ext fun f => ?_
    rw [HexEscape.pattern_eq_some_iff, HexEscape.pattern_eq_some_iff]
    constructor
    · rintro ⟨high, low, behind, heq, hhigh, hlow, rfl⟩
      obtain ⟨y, rfl, hy⟩ := exists_of_collapseBlanks_eq_cons (by decide) heq
      obtain ⟨z, rfl, hz⟩ := exists_of_collapseBlanks_eq_cons (not_isBlank_of_isHexDigit hhigh) hy
      obtain ⟨w, rfl, -⟩ := exists_of_collapseBlanks_eq_cons (not_isBlank_of_isHexDigit hlow) hz
      exact ⟨high, low, w, rfl, hhigh, hlow, rfl⟩
    · rintro ⟨high, low, behind, rfl, hhigh, hlow, rfl⟩
      refine ⟨high, low, collapseBlanks behind, ?_, hhigh, hlow, rfl⟩
      rw [collapseBlanks_cons_other (by decide),
        collapseBlanks_cons_other (not_isBlank_of_isHexDigit hhigh),
        collapseBlanks_cons_other (not_isBlank_of_isHexDigit hlow)]
  · intro rest f hf
    obtain ⟨high, low, behind, rfl, hhigh, hlow, rfl⟩ := HexEscape.pattern_eq_some_iff.mp hf
    refine ⟨['x', high, low], behind, rfl, rfl, ?_⟩
    simpa using ⟨by decide, not_isBlank_of_isHexDigit hhigh, not_isBlank_of_isHexDigit hlow⟩

lemma DecimalEscape.blankBlind : DecimalEscape.pattern.BlankBlind Eq := by
  refine .of_eq DecimalEscape.beginsWith (by decide) ?_ ?_
  · intro rest
    refine Option.ext fun f => ?_
    rw [DecimalEscape.pattern_eq_some_iff, DecimalEscape.pattern_eq_some_iff,
      takeWhile_collapseBlanks fun _ => not_isBlank_of_isDigit]
  · intro rest f hf
    obtain ⟨-, rfl⟩ := DecimalEscape.pattern_eq_some_iff.mp hf
    have hprefix : (rest.takeWhile Char.isDigit).take 3 <+: rest :=
      (List.take_prefix _ _).trans (List.takeWhile_prefix _)
    obtain ⟨behind, hbehind⟩ := hprefix
    refine ⟨_, behind, hbehind.symm, rfl, fun d hd => ?_⟩
    exact not_isBlank_of_isDigit (List.mem_takeWhile_imp (List.mem_of_mem_take hd))

/-! ## Joined literals -/

/-- Collapsing goes into the parts of two joined literals. -/
lemma collapseBlanks_joinedText (first before after second behind : Text) :
    collapseBlanks (joinedText first before after second ++ '"' :: behind)
      = joinedText (collapseBlanks first) (collapseBlanks before) (collapseBlanks after)
          (collapseBlanks second) ++ '"' :: collapseBlanks behind := by
  have hquote : isBlank '"' = false := by decide
  have hdot : isBlank '.' = false := by decide
  simp only [joinedText, List.append_assoc, List.cons_append,
    collapseBlanks_append_cons hquote, collapseBlanks_append_cons hdot,
    collapseBlanks_cons_other hdot]

lemma Joined.collapseBlanks_iff {first before after second : Text} :
    Joined (collapseBlanks first) (collapseBlanks before) (collapseBlanks after)
      (collapseBlanks second) ↔ Joined first before after second := by
  have hquote : isBlank '"' = false := by decide
  constructor
  · intro h
    exact ⟨fun hmem => h.first ((mem_collapseBlanks hquote).mpr hmem),
      all_isBlank_collapseBlanks.mp h.before, all_isBlank_collapseBlanks.mp h.after,
      fun hmem => h.second ((mem_collapseBlanks hquote).mpr hmem)⟩
  · intro h
    exact ⟨fun hmem => h.first ((mem_collapseBlanks hquote).mp hmem),
      all_isBlank_collapseBlanks.mpr h.before, all_isBlank_collapseBlanks.mpr h.after,
      fun hmem => h.second ((mem_collapseBlanks hquote).mp hmem)⟩

/-- Joined literals are found in the collapsed text, with collapsed parts. -/
lemma joinedLiterals_collapseBlanks {first before after second : Text}
    (hj : Joined first before after second) (behind : Text) :
    joinedLiterals none
        ('"' :: collapseBlanks (joinedText first before after second ++ '"' :: behind))
      = some ⟨collapseBlanks first ++ collapseBlanks second,
          '"' :: joinedText (collapseBlanks first) (collapseBlanks before) (collapseBlanks after)
            (collapseBlanks second) ++ ['"']⟩ :=
  joinedLiterals_eq_some_iff.mpr ⟨_, _, _, _, _, Joined.collapseBlanks_iff.mpr hj,
    collapseBlanks_joinedText first before after second behind, rfl⟩

/-- Every cut of the collapsed text into joined literals comes from one of the text. -/
lemma exists_of_collapseBlanks_eq_joinedText {text first before after second behind : Text}
    (h : collapseBlanks text = joinedText first before after second ++ '"' :: behind) :
    ∃ f b a s r, text = joinedText f b a s ++ '"' :: r ∧ collapseBlanks f = first ∧
      collapseBlanks b = before ∧ collapseBlanks a = after ∧ collapseBlanks s = second := by
  have hquote : isBlank '"' = false := by decide
  have hdot : isBlank '.' = false := by decide
  simp only [joinedText, List.append_assoc, List.cons_append] at h
  obtain ⟨f, x₁, rfl, hf, h₁⟩ := exists_of_collapseBlanks_eq_append hquote h
  obtain ⟨b, x₂, rfl, hb, h₂⟩ := exists_of_collapseBlanks_eq_append hdot h₁
  obtain ⟨x₃, rfl, h₃⟩ := exists_of_collapseBlanks_eq_cons hdot h₂
  obtain ⟨a, x₄, rfl, ha, h₄⟩ := exists_of_collapseBlanks_eq_append hquote h₃
  obtain ⟨s, r, rfl, hs, -⟩ := exists_of_collapseBlanks_eq_append hquote h₄
  exact ⟨f, b, a, s, r, by simp [joinedText], hf, hb, ha, hs⟩

lemma joinedLiterals_blankBlind :
    joinedLiterals.BlankBlind fun f g => collapseBlanks f.value = collapseBlanks g.value where
  looksAhead := joinedLiterals_beginsWith.looksAhead
  blank := fun rest hc => joinedLiterals_beginsWith.of_ne (ne_of_isBlank hc (by decide)) rest
  none_iff := by
    intro c rest _
    by_cases hquote : c = '"'
    · subst hquote
      constructor
      · intro hnone
        refine Option.eq_none_iff_forall_ne_some.mpr fun f hf => ?_
        obtain ⟨first, before, after, second, behind, hj, rfl, -⟩ :=
          joinedLiterals_eq_some_iff.mp hf
        rw [joinedLiterals_collapseBlanks hj behind] at hnone
        cases hnone
      · intro hnone
        refine Option.eq_none_iff_forall_ne_some.mpr fun g hg => ?_
        obtain ⟨first, before, after, second, behind, hj, heq, -⟩ :=
          joinedLiterals_eq_some_iff.mp hg
        obtain ⟨f, b, a, s, r, rfl, rfl, rfl, rfl, rfl⟩ :=
          exists_of_collapseBlanks_eq_joinedText heq
        have hfound := joinedLiterals_eq_some_iff.mpr ⟨f, b, a, s, r,
          Joined.collapseBlanks_iff.mp hj, rfl, rfl⟩
        rw [hnone] at hfound
        cases hfound
    · rw [joinedLiterals_beginsWith.of_ne hquote, joinedLiterals_beginsWith.of_ne hquote]
  found := by
    intro c rest f g _ hf hg
    by_cases hquote : c = '"'
    · subst hquote
      obtain ⟨first, before, after, second, behind, hj, rfl, rfl⟩ :=
        joinedLiterals_eq_some_iff.mp hf
      obtain rfl := Option.some.inj (hg.symm.trans (joinedLiterals_collapseBlanks hj behind))
      refine ⟨collapseBlanks_append_congr (collapseBlanks_idem first).symm
        (collapseBlanks_idem second).symm, _, _, behind, ?_, rfl, ?_, rfl⟩
      · simp
      · rw [collapseBlanks_joinedText]
        simp
    · rw [joinedLiterals_beginsWith.of_ne hquote] at hf
      cases hf

/-! ## The passes -/

/-- Merging literals keeps the content. -/
lemma foldLiterals_congr {x y : Text} (h : collapseBlanks x = collapseBlanks y) :
    collapseBlanks (foldLiterals x) = collapseBlanks (foldLiterals y) := by
  refine joinedLiterals_blankBlind.replaceAll_congr (fun f g hfg => ?_) h
  exact collapseBlanks_append_congr (a := '"' :: f.value)
    (collapseBlanks_append_congr_right ['"'] hfg) rfl

/-- Decoding depends on the content only, up to blanks in the result. -/
theorem Session.decodeStrings_congr (s : Session) {x y : Text}
    (h : collapseBlanks x = collapseBlanks y) :
    collapseBlanks (s.decodeStrings x).1 = collapseBlanks (s.decodeStrings y).1 ∧
      (s.decodeStrings x).2 = (s.decodeStrings y).2 := by
  have hhex : collapseBlanks (HexEscape.decode x) = collapseBlanks (HexEscape.decode y) :=
    HexEscape.blankBlind.replaceAll_congr (by rintro f _ rfl; rfl) h
  have hdecimal : collapseBlanks (DecimalEscape.decode (HexEscape.decode x))
      = collapseBlanks (DecimalEscape.decode (HexEscape.decode y)) :=
    DecimalEscape.blankBlind.replaceAll_congr (by rintro f _ rfl; rfl) hhex
  refine ⟨foldLiterals_congr hdecimal, ?_⟩
  simp only [decodeStrings, decodeHex, decodeDecimal, HexEscape.refused, DecimalEscape.refused,
    DecimalEscape.decoded, HexEscape.blankBlind.finds_congr h,
    DecimalEscape.blankBlind.finds_congr hhex]

/-- The layout is made from the content alone. -/
lemma formatCode_congr {x y : Text} (h : collapseBlanks x = collapseBlanks y) :
    formatCode x = formatCode y := by
  rw [formatCode, formatCode, h]

lemma Pass.runAll_cons [SearchEngine] (pass : Pass) (later : List Pass) (s : Session)
    (text : Text) :
    Pass.runAll (pass :: later) s text
      = Pass.runAll later (pass.run s text).2 (pass.run s text).1 := rfl

/-- The standard passes make the same text and the same session out of scripts with the same
content. -/
lemma runAll_standard_congr [SearchEngine] (s : Session) {x y : Text}
    (h : collapseBlanks x = collapseBlanks y) :
    Pass.runAll Pass.standard s x = Pass.runAll Pass.standard s y := by
  obtain ⟨htext, hsession⟩ := s.decodeStrings_congr h
  rw [Pass.standard]
  simp only [Pass.runAll_cons .decodeStrings, Pass.runAll_cons .formatCode, Pass.run, hsession,
    formatCode_congr htext]

/-- **The layout of a script does not matter.**  If two scripts become the same text when each run
of blanks is made one space, then the standard passes give the same code and the same session, that
is, the same tables and warnings, and the two outcomes differ at most in the number of lines of the
script and in the class that comes from it. -/
theorem deobfuscate_layout_insensitive [SearchEngine] (options : Options) (x y : Text)
    (h : collapseBlanks x = collapseBlanks y) :
    Pass.runAll Pass.standard (.start options) x = Pass.runAll Pass.standard (.start options) y ∧
      deobfuscate options y =
        { deobfuscate options x with
          statistics :=
            { (deobfuscate options x).statistics with
              sourceLines := countLines y
              complexity := complexity (countLines y)
                (deobfuscate options x).statistics.identifiers } } := by
  have hrun := runAll_standard_congr (.start options) h
  refine ⟨hrun, ?_⟩
  rw [deobfuscate, deobfuscate, Outcome.ofPasses, Outcome.ofPasses, ← hrun]
  -- what the passes compute does not matter from here on
  generalize Pass.runAll Pass.standard (.start options) x = result
  obtain ⟨code, session⟩ := result
  rfl

/-- A script with an escaped blank and two joined literals, on one line and on three. -/
theorem deobfuscate_layout_insensitive_at_joined_literals :
    let flat := "a123 = \"x\\32\" .. \"y\"".toList
    let broken := "a123\t=\n\"x\\32\"  ..\n \"y\"".toList
    collapseBlanks flat = collapseBlanks broken ∧ flat ≠ broken ∧
      Pass.runAll Pass.standard (.start {}) flat = Pass.runAll Pass.standard (.start {}) broken ∧
      (deobfuscate {} broken).code = "player = \"x y\"".toList := by
  intro flat broken
  have h : collapseBlanks flat = collapseBlanks broken := by decide +kernel
  have hresult := deobfuscate_layout_insensitive {} flat broken h
  refine ⟨h, by decide, hresult.1, ?_⟩
  rw [hresult.2]
  decide +kernel

end LuaUnveil
