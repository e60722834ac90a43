import LuaUnveil.Proofs.Pieces
import LuaUnveil.Proofs.Places
import LuaUnveil.Proofs.Simplification

/-!
# Rounds of simplification

A round goes through eight identities, each of them on what the one before has left.  This file says
that a round which changes anything makes the text shorter, so that rounds come to an end, and how
many of them are enough.

**Occurrences.**  `Identity.OccursIn` says that an identity stands somewhere in a text, without a
scan.  The scan of an identity finds something just then (`Identity.numeralFirst_complete` and its
siblings, with the `_sound` lemmas for the other direction).

**One round.**  `Shortens` is what each identity does: nothing where it does not occur, and
otherwise at least two characters go.  It holds of every identity (`Identity.shortens_apply`) and is
kept when identities are applied one after the other, so it holds of a round
(`shortens_simplifyOnce`).

**All rounds.**  Stopping at the first round that changes nothing gives what making all the rounds
gives (`simplifyUpTo_eq_iterate`).  With two characters less in each round,
`isFixedPt_iterate_simplifyOnce` bounds how many rounds a text needs by its length.
-/

namespace LuaUnveil

open Function (IsFixedPt)

/-! ## Occurrences -/

/-- Where an identity stands in a text, with what is before and behind it. -/
inductive Identity.OccursIn : Identity → Text → Prop
  | digitRight {operator neutral : Char} (front : Text) {digits sep back : Text}
      (hdigits : IsNumeral digits) (hsep : IsPadded operator sep) (hback : BeginsOutsideWord back) :
      OccursIn (.digitRight operator neutral) (front ++ (digits ++ (sep ++ neutral :: back)))
  | digitLeft {neutral operator : Char} {front sep digits : Text} (hfront : EndsOutsideWord front)
      (hsep : IsPadded operator sep) (hdigits : IsNumeral digits) (back : Text) :
      OccursIn (.digitLeft neutral operator) (front ++ (neutral :: (sep ++ (digits ++ back))))
  | keywordLeft {neutral operator front gap gap' line : Text} (hfront : EndsOutsideWord front)
      (hgap : IsGap gap) (hgap' : IsGap gap') (hline : IsLinePart line) (back : Text) :
      OccursIn (.keywordLeft neutral operator)
        (front ++ (neutral ++ (gap ++ (operator ++ (gap' ++ (line ++ back))))))
  | keywordRight {operator neutral : Text} (front : Text) {line gap gap' back : Text}
      (hline : IsLinePart line) (hgap : IsGap gap) (hgap' : IsGap gap')
      (hback : BeginsOutsideWord back) :
      OccursIn (.keywordRight operator neutral)
        (front ++ (line ++ (gap ++ (operator ++ (gap' ++ (neutral ++ back))))))

/-! ## What it takes to shorten a text -/

/-- A rewriting that changes nothing where something does not occur in a text, and otherwise takes
at least two characters out of the text. -/
structure Shortens (occurs : Text → Prop) (rewrite : Text → Text) : Prop where
  sublist : ∀ text, (rewrite text).Sublist text
  eq_self : ∀ {text}, ¬ occurs text → rewrite text = text
  length_add_two_le : ∀ {text}, occurs text → (rewrite text).length + 2 ≤ text.length

/-- A scan that puts the values of its finds in their places. -/
lemma shortens_replaceAll {pattern : Pattern Text} {occurs : Text → Prop} (hp : pattern.Covers)
    (hvalue : ∀ {before text f}, pattern before text = some f →
      f.value.Sublist f.covered ∧ f.value.length + 2 ≤ f.covered.length)
    (hsound : ∀ {front back f}, pattern front.getLast? back = some f → occurs (front ++ back))
    (hcomplete : ∀ {text}, occurs text →
      ∃ front back f, text = front ++ back ∧ pattern front.getLast? back = some f) :
    Shortens occurs (replaceAll pattern (·.value)) where
  sublist text := by
    have hsublist : (assemble (·.value) (pieces pattern text)).Sublist
        (coveredBy (pieces pattern text)) := assemble_sublist_coveredBy fun f hf => by
      obtain ⟨before, t, hf⟩ := exists_of_mem_finds hf
      exact (hvalue hf).1
    rwa [hp.coveredBy_pieces] at hsublist
  eq_self {text} h := by
    have hplains : pieces pattern text = text.map .plain := by
      refine pieces_eq_plains fun front back htext => ?_
      refine Option.eq_none_iff_forall_ne_some.mpr fun f hf => h ?_
      rw [htext]
      exact hsound hf
    rw [replaceAll, hplains]
    simpa using assemble_plains_append (fun f : Found Text => f.value) text []
  length_add_two_le {text} h := by
    obtain ⟨front, back, f, htext, hf⟩ := hcomplete h
    have hsome : finds (pieces pattern text) ≠ [] := hp.finds_ne_nil [] text htext hf
    have hpos := List.length_pos_iff.mpr hsome
    have hlen : (assemble (·.value) (pieces pattern text)).length
        + 2 * (finds (pieces pattern text)).length ≤ (coveredBy (pieces pattern text)).length :=
      length_assemble_add_le fun f hf => by
        obtain ⟨before, t, hf⟩ := exists_of_mem_finds hf
        exact (hvalue hf).2
    rw [hp.coveredBy_pieces] at hlen
    show (assemble _ _).length + 2 ≤ _
    omega

namespace Identity

/-! ## Beside a numeral -/

section Numeral

variable {operator neutral : Char} {sep digits back : Text}

/-- `n + 0` is found from the first digit of the numeral on. -/
lemma numeralFirst_complete (hoperator : isWord operator = false)
    (hvisible : isBlank operator = false) (hneutral : isWord neutral = true)
    {before : Option Char} (hbefore : before.any Char.isDigit = false) (hdigits : IsNumeral digits)
    (hsep : IsPadded operator sep) (hback : BeginsOutsideWord back) :
    numeralFirst operator neutral before (digits ++ (sep ++ neutral :: back))
      = some ⟨digits, digits ++ (sep ++ [neutral])⟩ := by
  have houtside := (hsep.isSeparator hoperator).beginsOutsideWord (neutral :: back)
  obtain @⟨left, right, hleft, hright⟩ := hsep
  have hnext : left ++ operator :: right ++ neutral :: back
      = left ++ operator :: (right ++ neutral :: back) := by simp
  rw [hnext] at houtside ⊢
  have hlead : leading Char.isDigit (digits ++ (left ++ operator :: (right ++ neutral :: back)))
      = (digits, left ++ operator :: (right ++ neutral :: back)) :=
    leading_append (fun _ => isWord_of_isDigit) hdigits.isDigit houtside
  have hsome : digits.isEmpty = false := List.isEmpty_eq_false_iff.mpr hdigits.ne_nil
  have hend : startsOutsideWord back = true := by
    simpa [startsOutsideWord] using beginsOutsideWord_iff.mp hback
  simp only [numeralFirst, hbefore, hlead, hsome, leading_append_cons hleft hvisible,
    leading_append_cons hright (not_isBlank_of_isWord hneutral), skip?_cons, hend, Bool.not_false,
    guard_true, Option.bind_eq_bind, Option.bind_some, Option.pure_def]
  simp

/-- `0 + n` is found through the last digit of the numeral. -/
lemma numeralLast_complete (hvisible : isBlank operator = false)
    {before : Option Char} (hbefore : before.any isWord = false) (hsep : IsPadded operator sep)
    (hdigits : IsNumeral digits) (hback : ∀ c ∈ back.head?, c.isDigit = false) :
    numeralLast neutral operator before (neutral :: (sep ++ (digits ++ back)))
      = some ⟨digits, neutral :: (sep ++ digits)⟩ := by
  obtain @⟨left, right, hleft, hright⟩ := hsep
  have hnext : left ++ operator :: right ++ (digits ++ back)
      = left ++ operator :: (right ++ (digits ++ back)) := by simp
  have hlead : leading isBlank (right ++ (digits ++ back)) = (right, digits ++ back) := by
    obtain ⟨c, v, rfl⟩ := List.exists_cons_of_ne_nil hdigits.ne_nil
    exact leading_append_cons hright
      (not_isBlank_of_isWord (isWord_of_isDigit (hdigits.isDigit c List.mem_cons_self))) _
  have hend : (digits ++ back).takeWhile Char.isDigit = digits := by
    rw [List.takeWhile_append_of_pos hdigits.isDigit]
    cases back with
    | nil => simp
    | cons c back => simp [hback c rfl]
  have hsome : digits.isEmpty = false := List.isEmpty_eq_false_iff.mpr hdigits.ne_nil
  simp only [numeralLast, hbefore, skip?_cons, hnext, leading_append_cons hleft hvisible, hlead,
    hend, hsome, Bool.not_false, guard_true, Option.bind_eq_bind, Option.bind_some, Option.pure_def]
  simp

/-- A text with a numeral behind it has a numeral that no digit stands before. -/
lemma exists_whole_numeral (front : Text) (hdigits : IsNumeral digits) :
    ∃ front' digits', front ++ digits = front' ++ digits' ∧ IsNumeral digits' ∧
      front'.getLast?.any Char.isDigit = false := by
  have hcut := List.rdropWhile_append_rtakeWhile (p := Char.isDigit) (l := front)
  refine ⟨front.rdropWhile Char.isDigit, front.rtakeWhile Char.isDigit ++ digits, ?_,
    ⟨by simp [hdigits.ne_nil], fun c hc => ?_⟩, ?_⟩
  · rw [← List.append_assoc, hcut]
  · rcases List.mem_append.mp hc with hc | hc
    · exact List.mem_rtakeWhile_imp hc
    · exact hdigits.isDigit c hc
  · by_cases hne : front.rdropWhile Char.isDigit = []
    · simp [hne]
    · simpa [List.getLast?_eq_getLast_of_ne_nil hne] using
        List.rdropWhile_last_not Char.isDigit front hne

variable (hoperator : isWord operator = false) (hvisible : isBlank operator = false)
  (hneutral : isWord neutral = true)

include hoperator hvisible hneutral

lemma shortens_numeralFirst : Shortens (OccursIn (.digitRight operator neutral))
    (replaceAll (numeralFirst operator neutral) (·.value)) := by
  refine shortens_replaceAll (wordEdit_numeralFirst hoperator hneutral).covers ?_ ?_ ?_
  · intro before text f hf
    obtain ⟨sep, rest, -, hsep, hcovered, -, -⟩ := numeralFirst_sound hf
    have hpos := List.length_pos_iff.mpr (hsep.isSeparator hoperator).ne_nil
    rw [hcovered]
    refine ⟨List.sublist_append_left _ _, ?_⟩
    simp only [List.length_append, List.length_cons, List.length_nil]
    omega
  · intro front back f hf
    obtain ⟨sep, rest, hvalue, hsep, hcovered, rfl, hrest⟩ := numeralFirst_sound hf
    have hoccurs : OccursIn (.digitRight operator neutral)
        (front ++ (f.value ++ (sep ++ neutral :: rest))) := .digitRight front hvalue hsep hrest
    simpa [hcovered] using hoccurs
  · rintro text h
    cases h with
    | @digitRight _ _ front digits sep back hdigits hsep hback =>
        obtain ⟨front', digits', hcut, hdigits', hbefore⟩ := exists_whole_numeral front hdigits
        refine ⟨front', digits' ++ (sep ++ neutral :: back), _, ?_,
          numeralFirst_complete hoperator hvisible hneutral hbefore hdigits' hsep hback⟩
        rw [← List.append_assoc, hcut, List.append_assoc]

lemma shortens_numeralLast : Shortens (OccursIn (.digitLeft neutral operator))
    (replaceAll (numeralLast neutral operator) (·.value)) := by
  refine shortens_replaceAll (wordEdit_numeralLast hoperator hneutral).covers ?_ ?_ ?_
  · intro before text f hf
    obtain ⟨sep, rest, -, hsep, -, hcovered, -⟩ := numeralLast_sound hf
    have hpos := List.length_pos_iff.mpr (hsep.isSeparator hoperator).ne_nil
    rw [hcovered, ← List.append_assoc]
    refine ⟨List.sublist_append_right _ _, ?_⟩
    simp only [List.length_append, List.length_cons, List.length_nil]
    omega
  · intro front back f hf
    obtain ⟨sep, rest, hbefore, hsep, hvalue, hcovered, rfl⟩ := numeralLast_sound hf
    have hoccurs : OccursIn (.digitLeft neutral operator)
        (front ++ (neutral :: (sep ++ (f.value ++ rest)))) :=
      .digitLeft (endsOutsideWord_iff.mpr hbefore) hsep hvalue rest
    simpa [hcovered] using hoccurs
  · rintro text h
    cases h with
    | @digitLeft _ _ front sep digits hfront hsep hdigits back =>
        -- the numeral is taken with the digits that go on behind it
        obtain ⟨run, rest, rfl, hrun, hend⟩ := exists_run Char.isDigit back
        have hdigits' : IsNumeral (digits ++ run) :=
          ⟨by simp [hdigits.ne_nil], List.forall_mem_append.mpr ⟨hdigits.isDigit, hrun⟩⟩
        rw [← List.append_assoc digits run rest]
        exact ⟨front, _, _, rfl,
          numeralLast_complete hvisible (endsOutsideWord_iff.mp hfront) hsep hdigits' hend⟩

end Numeral

/-! ## Beside the rest of a line -/

section Line

/-- Behind a gap there is a rest of a line if a character other than a line break follows. -/
lemma exists_lineBehindBlanks {gap line : Text} (hgap : IsGap gap) (hline : IsLinePart line)
    (back : Text) : ∃ taken, lineBehindBlanks (gap ++ (line ++ back)) = some taken := by
  obtain ⟨g, gap, rfl⟩ := List.exists_cons_of_ne_nil hgap.ne_nil
  obtain ⟨c, line, rfl⟩ := List.exists_cons_of_ne_nil hline.ne_nil
  have hcut := List.takeWhile_append_dropWhile (p := isBlank)
    (l := g :: gap ++ (c :: line ++ back))
  unfold lineBehindBlanks leading
  split
  · next hnone =>
      have hg := hgap.blank g List.mem_cons_self
      simp [hg] at hnone
  · exact ⟨_, rfl⟩
  · next first blanks hall =>
      -- blanks to the end of the text, with that character among them
      obtain ⟨htake, hdrop⟩ := Prod.mk.inj hall
      rw [htake, hdrop, List.append_nil, List.cons_append, List.cons.injEq] at hcut
      split
      · next hbreaks =>
          rw [List.dropWhile_eq_nil_iff] at hbreaks
          have hc := hbreaks c (by simp [hcut.2])
          exact absurd (by simpa using hc) (List.ne_of_not_mem_cons hline.no_break).symm
      · exact ⟨_, rfl⟩

variable {neutral operator : Text} (hneutral : IsSingleWord neutral)
  (hoperator : IsSingleWord operator)

/-- Blanks before a word are read off whole. -/
lemma leading_gap {gap word : Text} (hgap : IsGap gap) (hword : IsSingleWord word) (rest : Text) :
    leading isBlank (gap ++ (word ++ rest)) = (gap, word ++ rest) := by
  obtain ⟨c, v, rfl⟩ := List.exists_cons_of_ne_nil hword.ne_nil
  exact leading_append_cons hgap.blank
    (not_isBlank_of_isWord (hword.isWord c List.mem_cons_self)) _

include hoperator

/-- `true and x` is found where it begins. -/
lemma exists_lineLast {before : Option Char} (hbefore : before.any isWord = false)
    {gap gap' line : Text} (hgap : IsGap gap) (hgap' : IsGap gap') (hline : IsLinePart line)
    (back : Text) : ∃ f, lineLast neutral operator before
      (neutral ++ (gap ++ (operator ++ (gap' ++ (line ++ back))))) = some f := by
  obtain ⟨taken, htaken⟩ := exists_lineBehindBlanks hgap' hline back
  have hsome : gap.isEmpty = false := List.isEmpty_eq_false_iff.mpr hgap.ne_nil
  simp only [lineLast, hbefore, skip?_append, leading_gap hgap hoperator, hsome, htaken,
    Bool.not_false, guard_true, Option.bind_eq_bind, Option.bind_some, Option.pure_def]
  exact ⟨_, rfl⟩

include hneutral

lemma shortens_lineLast : Shortens (OccursIn (.keywordLeft neutral operator))
    (replaceAll (lineLast neutral operator) (·.value)) := by
  refine shortens_replaceAll (wordEdit_lineLast hneutral hoperator).covers ?_ ?_ ?_
  · intro before text f hf
    obtain ⟨gap, skipped, rest, -, hgap, hskipped, -, hcovered, -⟩ := lineLast_sound hf
    have hpos := List.length_pos_iff.mpr hgap.ne_nil
    have hpos' := List.length_pos_iff.mpr hskipped.ne_nil
    rw [hcovered]
    refine ⟨?_, ?_⟩
    · simp only [← List.append_assoc]
      exact List.sublist_append_right _ _
    · simp only [List.length_append]
      omega
  · intro front back f hf
    obtain ⟨gap, skipped, rest, hbefore, hgap, hskipped, hvalue, hcovered, rfl⟩ :=
      lineLast_sound hf
    have hoccurs : OccursIn (.keywordLeft neutral operator)
        (front ++ (neutral ++ (gap ++ (operator ++ (skipped ++ (f.value ++ rest)))))) :=
      .keywordLeft (endsOutsideWord_iff.mpr hbefore) hgap hskipped hvalue rest
    simpa [hcovered] using hoccurs
  · rintro text h
    cases h with
    | @keywordLeft _ _ front gap gap' line hfront hgap hgap' hline back =>
        obtain ⟨f, hf⟩ := exists_lineLast hoperator (endsOutsideWord_iff.mp hfront) hgap hgap' hline
          back
        exact ⟨front, _, f, rfl, hf⟩

/-- The operator and the neutral keyword are read off where they stand. -/
lemma neutralTail_complete {gap gap' behind : Text} (hgap : IsGap gap) (hgap' : IsGap gap')
    (hbehind : BeginsOutsideWord behind) :
    neutralTail operator neutral (gap ++ (operator ++ (gap' ++ (neutral ++ behind))))
      = some behind := by
  have hsome : gap.isEmpty = false := List.isEmpty_eq_false_iff.mpr hgap.ne_nil
  have hsome' : gap'.isEmpty = false := List.isEmpty_eq_false_iff.mpr hgap'.ne_nil
  have hend : startsOutsideWord behind = true := by
    simpa [startsOutsideWord] using beginsOutsideWord_iff.mp hbehind
  simp only [neutralTail, leading_gap hgap hoperator, leading_gap hgap' hneutral, skip?_append,
    hsome, hsome', hend, Bool.not_false, guard_true, Option.bind_eq_bind, Option.bind_some,
    Option.pure_def]

/-- `x and true` occurs where a part of a line has the neutral tail behind it. -/
lemma occursIn_keywordRight_iff {text : Text} :
    OccursIn (.keywordRight operator neutral) text ↔
      ∃ front line tail behind, text = front ++ (line ++ tail) ∧ IsLinePart line ∧
        neutralTail operator neutral tail = some behind := by
  constructor
  · intro h
    cases h with
    | keywordRight front hline hgap hgap' hback =>
        exact ⟨front, _, _, _, rfl, hline,
          neutralTail_complete hneutral hoperator hgap hgap' hback⟩
  · rintro ⟨front, line, tail, behind, rfl, hline, htail⟩
    obtain ⟨gap, gap', hgap, hgap', hbehind, rfl⟩ := neutralTail_sound htail
    exact .keywordRight front hline hgap hgap' hbehind

omit hneutral hoperator in
/-- Where a part of the line has a neutral tail behind it, a longest one has. -/
lemma longestHead_ne_none {tail behind : Text}
    (htail : neutralTail operator neutral tail = some behind) :
    ∀ {line : Text}, IsLinePart line → longestHead operator neutral (line ++ tail) ≠ none
  | [], hline => absurd rfl hline.ne_nil
  | c :: line, hline => by
      obtain ⟨hc, hbreak⟩ : c ≠ '\n' ∧ '\n' ∉ line := by
        simpa [eq_comm] using hline.no_break
      rw [List.cons_append, longestHead, if_neg hc]
      cases hlater : longestHead operator neutral (line ++ tail) with
      | some answer => simp
      | none =>
          cases line with
          | nil =>
              rw [List.nil_append] at hlater ⊢
              simp [htail]
          | cons d line => exact absurd hlater (longestHead_ne_none htail ⟨by simp, hbreak⟩)

/-- Where no occurrence begins on the first line of a text, all of them are behind it. -/
lemma occursIn_keywordRight_append_iff {line rest : Text} (hline : '\n' ∉ line)
    (hnone : longestHead operator neutral (line ++ '\n' :: rest) = none) :
    OccursIn (.keywordRight operator neutral) (line ++ '\n' :: rest) ↔
      OccursIn (.keywordRight operator neutral) rest := by
  rw [occursIn_keywordRight_iff hneutral hoperator, occursIn_keywordRight_iff hneutral hoperator]
  constructor
  · rintro ⟨front, part, tail, behind, htext, hpart, htail⟩
    by_cases hfront : '\n' ∈ front
    · obtain ⟨first, front', rfl, hfirst⟩ := List.eq_append_cons_of_mem hfront
      rw [List.append_assoc, List.cons_append] at htext
      obtain ⟨-, hrest⟩ := append_cons_inj_of_first hline hfirst htext
      exact ⟨front', part, tail, behind, hrest, hpart, htail⟩
    · have hwhole : IsLinePart (front ++ part) :=
        ⟨by simp [hpart.ne_nil], by simp [hfront, hpart.no_break]⟩
      refine absurd hnone ?_
      rw [htext, ← List.append_assoc]
      exact longestHead_ne_none htail hwhole
  · rintro ⟨front, part, tail, behind, rfl, hpart, htail⟩
    exact ⟨line ++ '\n' :: front, part, tail, behind, by simp, hpart, htail⟩

lemma shortens_dropNeutralTails : Shortens (OccursIn (.keywordRight operator neutral))
    (dropNeutralTails operator neutral) := by
  have hstep : ∀ text, (dropNeutralTails operator neutral text).Sublist text ∧
      (¬ OccursIn (.keywordRight operator neutral) text →
        dropNeutralTails operator neutral text = text) ∧
      (OccursIn (.keywordRight operator neutral) text →
        (dropNeutralTails operator neutral text).length + 2 ≤ text.length) := by
    intro text
    fun_induction dropNeutralTails operator neutral text with
    | case1 text head behind hhead ih =>
        obtain ⟨hline, tail, rfl, htail⟩ := longestHead_sound hhead
        obtain ⟨gap, gap', hgap, hgap', hbehind, rfl⟩ := neutralTail_sound htail
        have hoccurs : OccursIn (.keywordRight operator neutral)
            ([] ++ (head ++ (gap ++ (operator ++ (gap' ++ (neutral ++ behind)))))) :=
          .keywordRight [] hline hgap hgap' hbehind
        refine ⟨?_, fun hnone => absurd hoccurs hnone, fun _ => ?_⟩
        · refine (List.Sublist.refl head).append (ih.1.trans ?_)
          simp only [← List.append_assoc]
          exact List.sublist_append_right _ _
        · have hlen := ih.1.length_le
          have hpos := List.length_pos_iff.mpr hgap.ne_nil
          have hpos' := List.length_pos_iff.mpr hgap'.ne_nil
          simp only [List.length_append]
          omega
    | case2 text hhead line hline =>
        obtain rfl : line = text := by simpa using append_of_leading hline
        have hbreak : '\n' ∉ line := by
          rw [← (Prod.mk.inj hline).1]
          exact fun hmem => by simpa using List.mem_takeWhile_imp hmem
        refine ⟨List.Sublist.refl _, fun _ => rfl, fun hoccurs => ?_⟩
        -- on a text of one line an occurrence has the line up to its tail for a head
        obtain ⟨front, part, tail, behind, htext, hpart, htail⟩ :=
          (occursIn_keywordRight_iff hneutral hoperator).mp hoccurs
        rw [htext, ← List.append_assoc] at hhead hbreak
        refine absurd hhead (longestHead_ne_none htail ⟨by simp [hpart.ne_nil], ?_⟩)
        exact fun hmem => hbreak (List.mem_append_left _ hmem)
    | case3 text hhead line lineBreak rest hline ih =>
        have hbreak : '\n' ∉ line := by
          rw [← (Prod.mk.inj hline).1]
          exact fun hmem => by simpa using List.mem_takeWhile_imp hmem
        obtain rfl := eq_break_of_leading hline
        obtain rfl := append_of_leading hline
        rw [occursIn_keywordRight_append_iff hneutral hoperator hbreak hhead]
        obtain ⟨ihsublist, iheq, ihlength⟩ := ih
        refine ⟨(List.Sublist.refl line).append (ihsublist.cons_cons _), fun hnone => ?_,
          fun hoccurs => ?_⟩
        · rw [iheq hnone]
        · have hlen := ihlength hoccurs
          simp only [List.length_append, List.length_cons]
          omega
  exact ⟨fun text => (hstep text).1, fun {text} => (hstep text).2.1, fun {text} => (hstep text).2.2⟩

end Line

/-! ## All identities -/

/-- Whether the sign of an identity beside a numeral is no blank. -/
def hasVisibleSign : Identity → Bool
  | digitRight operator _ => !isBlank operator
  | digitLeft _ operator => !isBlank operator
  | keywordLeft _ _ => true
  | keywordRight _ _ => true

lemma hasVisibleSign_of_mem_all : ∀ identity ∈ all, identity.hasVisibleSign = true := by decide

/-- **An identity changes a text just where it occurs, and then it shortens it.** -/
theorem shortens_apply {identity : Identity} (hproper : identity.isProper = true)
    (hvisible : identity.hasVisibleSign = true) :
    Shortens identity.OccursIn identity.apply := by
  cases identity with
  | digitRight operator neutral =>
      obtain ⟨hoperator, hneutral⟩ : isWord operator = false ∧ isWord neutral = true := by
        simpa [isProper] using hproper
      exact shortens_numeralFirst hoperator (by simpa [hasVisibleSign] using hvisible) hneutral
  | digitLeft neutral operator =>
      obtain ⟨hoperator, hneutral⟩ : isWord operator = false ∧ isWord neutral = true := by
        simpa [isProper] using hproper
      exact shortens_numeralLast hoperator (by simpa [hasVisibleSign] using hvisible) hneutral
  | keywordLeft neutral operator =>
      obtain ⟨hneutral, hoperator⟩ := Bool.and_eq_true_iff.mp hproper
      exact shortens_lineLast (isSingleWord_of_isKeyword hneutral)
        (isSingleWord_of_isKeyword hoperator)
  | keywordRight operator neutral =>
      obtain ⟨hneutral, hoperator⟩ := Bool.and_eq_true_iff.mp hproper
      exact shortens_dropNeutralTails (isSingleWord_of_isKeyword hneutral)
        (isSingleWord_of_isKeyword hoperator)

/-- Every occurrence has an operand and two characters more. -/
lemma OccursIn.three_le_length {identity : Identity} {text : Text} (h : identity.OccursIn text) :
    3 ≤ text.length := by
  cases h with
  | digitRight front hdigits hsep hback =>
      have hpos := List.length_pos_iff.mpr hdigits.ne_nil
      obtain ⟨-, -⟩ := hsep
      simp only [List.length_append, List.length_cons]
      omega
  | digitLeft hfront hsep hdigits back =>
      have hpos := List.length_pos_iff.mpr hdigits.ne_nil
      obtain ⟨-, -⟩ := hsep
      simp only [List.length_append, List.length_cons]
      omega
  | keywordLeft hfront hgap hgap' hline back =>
      have hpos := List.length_pos_iff.mpr hgap.ne_nil
      have hpos' := List.length_pos_iff.mpr hgap'.ne_nil
      have hline' := List.length_pos_iff.mpr hline.ne_nil
      simp only [List.length_append]
      omega
  | keywordRight front hline hgap hgap' hback =>
      have hpos := List.length_pos_iff.mpr hgap.ne_nil
      have hpos' := List.length_pos_iff.mpr hgap'.ne_nil
      have hline' := List.length_pos_iff.mpr hline.ne_nil
      simp only [List.length_append]
      omega

end Identity

/-! ## One round -/

/-- Some identity occurs in a text. -/
def IsReducible (text : Text) : Prop := ∃ identity ∈ Identity.all, identity.OccursIn text

/-- Identities one after the other.  The first one that occurs in the text shortens it, and those
behind it make nothing longer. -/
lemma shortens_foldl {identities : List Identity}
    (h : ∀ identity ∈ identities, Shortens identity.OccursIn identity.apply) :
    Shortens (fun text => ∃ identity ∈ identities, identity.OccursIn text)
      fun text => identities.foldl (fun t identity => identity.apply t) text := by
  induction identities with
  | nil => exact ⟨fun text => List.Sublist.refl text, fun _ => rfl, by simp⟩
  | cons identity identities ih =>
      obtain ⟨hfirst, hlater⟩ := List.forall_mem_cons.mp h
      have ih := ih hlater
      refine ⟨fun text => (ih.sublist _).trans (hfirst.sublist text), fun {text} hnone => ?_,
        fun {text} hsome => ?_⟩
      · have hstill : identity.apply text = text :=
          hfirst.eq_self fun hoccurs => hnone ⟨identity, List.mem_cons_self, hoccurs⟩
        show identities.foldl _ (identity.apply text) = text
        rw [hstill]
        exact ih.eq_self fun ⟨i, hi, hoccurs⟩ => hnone ⟨i, List.mem_cons_of_mem _ hi, hoccurs⟩
      · show (identities.foldl _ (identity.apply text)).length + 2 ≤ text.length
        by_cases hoccurs : identity.OccursIn text
        · have hlen := (ih.sublist (identity.apply text)).length_le
          have hshort := hfirst.length_add_two_le hoccurs
          omega
        · rw [hfirst.eq_self hoccurs]
          obtain ⟨i, hi, hi'⟩ := hsome
          rcases List.mem_cons.mp hi with rfl | hi
          · exact absurd hi' hoccurs
          · exact ih.length_add_two_le ⟨i, hi, hi'⟩

/-- **A round shortens every text in which an identity occurs, and changes no other.** -/
theorem shortens_simplifyOnce : Shortens IsReducible simplifyOnce :=
  shortens_foldl fun identity hi => Identity.shortens_apply
    (Identity.isProper_of_mem_all identity hi) (Identity.hasVisibleSign_of_mem_all identity hi)

lemma isFixedPt_simplifyOnce_iff {text : Text} :
    IsFixedPt simplifyOnce text ↔ ¬ IsReducible text := by
  refine ⟨fun hfixed hreducible => ?_, fun h => shortens_simplifyOnce.eq_self h⟩
  have hlen := shortens_simplifyOnce.length_add_two_le hreducible
  rw [hfixed.eq] at hlen
  omega

/-! ## All rounds -/

/-- Rounds behind one that changes nothing change nothing. -/
lemma simplifyUpTo_eq_iterate (rounds : Nat) (text : Text) :
    simplifyUpTo rounds text = simplifyOnce^[rounds] text := by
  induction rounds generalizing text with
  | zero => rfl
  | succ rounds ih =>
      rw [simplifyUpTo, Function.iterate_succ_apply]
      split_ifs with hfixed
      · rw [hfixed, Function.iterate_fixed hfixed]
      · exact ih _

lemma simplifyFully_eq_iterate (text : Text) : simplifyFully text = simplifyOnce^[64] text :=
  simplifyUpTo_eq_iterate maxRounds text

/-- Each round but the last takes two characters away, and two characters are too few for an
identity. -/
lemma isFixedPt_iterate_simplifyOnce {rounds : Nat} : ∀ {text : Text},
    text.length ≤ 2 * rounds + 2 → IsFixedPt simplifyOnce (simplifyOnce^[rounds] text) := by
  induction rounds with
  | zero =>
      intro text hlen
      refine isFixedPt_simplifyOnce_iff.mpr ?_
      rintro ⟨identity, -, hoccurs⟩
      have hthree := hoccurs.three_le_length
      simp only [Function.iterate_zero, id_eq] at hthree
      omega
  | succ rounds ih =>
      intro text hlen
      rw [Function.iterate_succ_apply]
      by_cases hreducible : IsReducible text
      · have hshort := shortens_simplifyOnce.length_add_two_le hreducible
        exact ih (by omega)
      · have hfixed := isFixedPt_simplifyOnce_iff.mpr hreducible
        rw [hfixed.eq, Function.iterate_fixed hfixed]
        exact hfixed

/-- Once a round changes nothing, more rounds give the same. -/
lemma iterate_simplifyOnce_eq_min {text : Text} {k : Nat}
    (hk : IsFixedPt simplifyOnce (simplifyOnce^[k] text)) (rounds : Nat) :
    simplifyOnce^[rounds] text = simplifyOnce^[min rounds k] text := by
  rcases le_total rounds k with hle | hle
  · rw [min_eq_left hle]
  · obtain ⟨more, rfl⟩ := Nat.exists_eq_add_of_le' hle
    rw [min_eq_right hle, Function.iterate_add_apply, Function.iterate_fixed hk]

/-- **Simplifying makes progress and comes to an end.**  A round keeps a part of the text.  It is
all of the text just if no identity occurs in it, and otherwise at least two characters go.  So from
some round on nothing changes any more; fully simplifying makes the rounds up to the first such one,
but 64 at most, and for a text of at most 130 characters these are enough. -/
theorem simplify_makes_progress (text : Text) :
    (simplifyOnce text).Sublist text ∧
    (simplifyOnce text = text ↔ ∀ identity ∈ Identity.all, ¬ identity.OccursIn text) ∧
    (simplifyOnce text = text ∨ (simplifyOnce text).length + 2 ≤ text.length) ∧
    (∃ k, IsLeast {n | IsFixedPt simplifyOnce (simplifyOnce^[n] text)} k ∧
      simplifyFully text = simplifyOnce^[min 64 k] text) ∧
    (text.length ≤ 130 →
      (∀ identity ∈ Identity.all, ¬ identity.OccursIn (simplifyFully text)) ∧
      simplifyFully (simplifyFully text) = simplifyFully text) := by
  refine ⟨shortens_simplifyOnce.sublist text, ?_, ?_, ?_, fun hlen => ?_⟩
  · have hfixed : simplifyOnce text = text ↔ ¬ IsReducible text := isFixedPt_simplifyOnce_iff
    simpa [IsReducible] using hfixed
  · by_cases hreducible : IsReducible text
    · exact .inr (shortens_simplifyOnce.length_add_two_le hreducible)
    · exact .inl (shortens_simplifyOnce.eq_self hreducible)
  · have hends : ∃ n, IsFixedPt simplifyOnce (simplifyOnce^[n] text) :=
      ⟨text.length, isFixedPt_iterate_simplifyOnce (by omega)⟩
    refine ⟨Nat.find hends, ⟨Nat.find_spec hends, fun n hn => Nat.find_min' hends hn⟩, ?_⟩
    rw [simplifyFully_eq_iterate, iterate_simplifyOnce_eq_min (Nat.find_spec hends)]
  · have hfixed : IsFixedPt simplifyOnce (simplifyFully text) := by
      rw [simplifyFully_eq_iterate]
      exact isFixedPt_iterate_simplifyOnce (by omega)
    refine ⟨?_, ?_⟩
    · simpa [IsReducible] using isFixedPt_simplifyOnce_iff.mp hfixed
    · rw [simplifyFully_eq_iterate, Function.iterate_fixed hfixed]

/-- An expression with so many neutral operands that one round does not take all of them. -/
def paddedExpression : Text := "x = 0 + 0 + 7 * 1 * 1 + 0 and true or false".toList

/-- A second round takes what the first one leaves. -/
theorem simplify_makes_progress_padded :
    paddedExpression.length ≤ 130 ∧ simplifyOnce paddedExpression = "x = 7 * 1".toList ∧
    simplifyFully paddedExpression = "x = 7".toList ∧
    (∀ identity ∈ Identity.all, ¬ identity.OccursIn (simplifyFully paddedExpression)) ∧
    simplifyFully (simplifyFully paddedExpression) = simplifyFully paddedExpression := by
  have hlen : paddedExpression.length ≤ 130 := by decide
  exact ⟨hlen, by decide +kernel, by decide +kernel,
    (simplify_makes_progress paddedExpression).2.2.2.2 hlen⟩

end LuaUnveil
