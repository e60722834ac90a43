import LuaUnveil.Proofs.Edges
import LuaUnveil.Proofs.Shape
import LuaUnveil.Session.Pass

/-!
# Simplifying takes words away, and makes none

An identity keeps one operand and drops the other.  This file says what each of them finds, and that
the operand which is kept is cut off where words end, so that no word is shortened or joined to
another.

**One identity.**  The `_sound` lemmas say what is found, part by part: numerals, gaps, padded signs
and parts of a line.  Beside a numeral only the neutral digit goes
(`Identity.wordEdit_numeralFirst`, `Identity.wordEdit_numeralLast`), beside the rest of a line the
neutral keyword and the operator (`Identity.wordEdit_lineLast`, `Identity.words_dropNeutralTails`).

**All rounds.**  `words_simplifyExpressions_subset`: every word of the result is a word of the text.
-/

namespace LuaUnveil

/-! ## Parts of an identity -/

/-- A nonempty run of digits. -/
structure IsNumeral (w : Text) : Prop where
  ne_nil : w ≠ []
  isDigit : ∀ c ∈ w, c.isDigit = true

/-- A nonempty run of blanks. -/
structure IsGap (w : Text) : Prop where
  ne_nil : w ≠ []
  blank : ∀ c ∈ w, isBlank c = true

/-- A nonempty part of a line. -/
structure IsLinePart (w : Text) : Prop where
  ne_nil : w ≠ []
  no_break : '\n' ∉ w

/-- A sign, perhaps with blanks around it. -/
inductive IsPadded (sign : Char) : Text → Prop
  | intro {left right : Text} (hleft : ∀ c ∈ left, isBlank c = true)
      (hright : ∀ c ∈ right, isBlank c = true) : IsPadded sign (left ++ sign :: right)

lemma IsNumeral.isSingleWord {w : Text} (h : IsNumeral w) : IsSingleWord w :=
  ⟨h.ne_nil, fun c hc => isWord_of_isDigit (h.isDigit c hc)⟩

lemma IsGap.isSeparator {w : Text} (h : IsGap w) : IsSeparator w := .of_blanks h.ne_nil h.blank

lemma IsPadded.isSeparator {sign : Char} {w : Text} (h : IsPadded sign w)
    (hsign : isWord sign = false) : IsSeparator w := by
  obtain ⟨hleft, hright⟩ := h
  exact .of_operator hleft hsign hright

namespace Identity

/-! ## Beside a numeral -/

/-- `n + 0`: a numeral, the padded operator, and the neutral digit at the end of a word. -/
lemma numeralFirst_sound {operator neutral : Char} {before : Option Char} {text : Text}
    {f : Found Text} (h : numeralFirst operator neutral before text = some f) :
    ∃ sep rest, IsNumeral f.value ∧ IsPadded operator sep ∧
      f.covered = f.value ++ (sep ++ [neutral]) ∧ text = f.covered ++ rest ∧
      BeginsOutsideWord rest := by
  obtain ⟨_, -, h⟩ := Option.bind_eq_some_iff.mp h
  obtain ⟨_, hdigits, h⟩ := Option.bind_eq_some_iff.mp h
  obtain ⟨r, hskip, h⟩ := Option.bind_eq_some_iff.mp h
  obtain ⟨rest, hskip', h⟩ := Option.bind_eq_some_iff.mp h
  obtain ⟨_, hrest, h⟩ := Option.bind_eq_some_iff.mp h
  obtain rfl := Option.some.inj h
  refine ⟨(text.dropWhile Char.isDigit).takeWhile isBlank ++ operator :: r.takeWhile isBlank, rest,
    ⟨ne_nil_of_guard hdigits, fun c hc => List.mem_takeWhile_imp hc⟩,
    .intro (fun c hc => List.mem_takeWhile_imp hc) (fun c hc => List.mem_takeWhile_imp hc),
    ?_, ?_, ?_⟩
  · simp
  · have htext : text.takeWhile Char.isDigit ++ ((text.dropWhile Char.isDigit).takeWhile isBlank
        ++ ([operator] ++ (r.takeWhile isBlank ++ ([neutral] ++ rest)))) = text := by
      rw [takeWhile_append_of_skip? hskip', takeWhile_append_of_skip? hskip,
        List.takeWhile_append_dropWhile]
    exact htext.symm.trans (by simp)
  · exact beginsOutsideWord_iff.mpr (by simpa [startsOutsideWord] using holds_of_guard hrest)

/-- `0 + n`: the neutral digit at the start of a word, the padded operator, and a numeral. -/
lemma numeralLast_sound {neutral operator : Char} {before : Option Char} {text : Text}
    {f : Found Text} (h : numeralLast neutral operator before text = some f) :
    ∃ sep rest, before.any isWord = false ∧ IsPadded operator sep ∧ IsNumeral f.value ∧
      f.covered = [neutral] ++ (sep ++ f.value) ∧ text = f.covered ++ rest := by
  obtain ⟨_, hbefore, h⟩ := Option.bind_eq_some_iff.mp h
  obtain ⟨r, hskip, h⟩ := Option.bind_eq_some_iff.mp h
  obtain ⟨r', hskip', h⟩ := Option.bind_eq_some_iff.mp h
  obtain ⟨_, hdigits, h⟩ := Option.bind_eq_some_iff.mp h
  obtain rfl := Option.some.inj h
  refine ⟨r.takeWhile isBlank ++ operator :: r'.takeWhile isBlank,
    (r'.dropWhile isBlank).dropWhile Char.isDigit, by simpa using holds_of_guard hbefore,
    .intro (fun c hc => List.mem_takeWhile_imp hc) (fun c hc => List.mem_takeWhile_imp hc),
    ⟨ne_nil_of_guard hdigits, fun c hc => List.mem_takeWhile_imp hc⟩, ?_, ?_⟩
  · simp
  · have htext : [neutral] ++ (r.takeWhile isBlank ++ ([operator] ++ (r'.takeWhile isBlank
        ++ ((r'.dropWhile isBlank).takeWhile Char.isDigit
          ++ (r'.dropWhile isBlank).dropWhile Char.isDigit)))) = text := by
      rw [List.takeWhile_append_dropWhile, List.takeWhile_append_dropWhile,
        takeWhile_append_of_skip? hskip', skip?_eq_some_iff.mp hskip]
    exact htext.symm.trans (by simp)

/-- Only the neutral digit goes. -/
lemma wordEdit_numeralFirst {operator neutral : Char} (hoperator : isWord operator = false)
    (hneutral : isWord neutral = true) :
    WordEdit (numeralFirst operator neutral) (·.value) (fun _ _ => [[neutral]]) fun _ _ => [] where
  covers before text f h := by
    obtain ⟨sep, rest, hvalue, -, hcovered, htext, -⟩ := numeralFirst_sound h
    exact ⟨by simp [hcovered, hvalue.ne_nil], rest, htext⟩
  outside h hout := by
    obtain ⟨sep, rest, hvalue, -, hcovered, htext, -⟩ := numeralFirst_sound h
    rw [htext, hcovered, List.append_assoc] at hout
    exact absurd hout (hvalue.isSingleWord.not_beginsOutsideWord _)
  count {a f rest y} h hy w := by
    obtain ⟨sep, rest', -, hsep, hcovered, htext, hrest⟩ := numeralFirst_sound h
    obtain rfl := List.append_cancel_left htext
    have hkept : words (a ++ (f.value ++ y)) = words (a ++ f.value) ++ words y := by
      rw [← List.append_assoc, words_append_of_begins (hy hrest)]
    have hall : words (a ++ (f.covered ++ y))
        = words (a ++ f.value) ++ ([[neutral]] ++ words y) := by
      rw [hcovered, List.append_assoc, List.append_assoc, ← List.append_assoc a,
        (hsep.isSeparator hoperator).words_append,
        words_append (isSingleWord_singleton hneutral) (hy hrest)]
      rfl
    rw [hkept, hall]
    simp only [List.count_append, List.count_nil]
    omega

/-- Only the neutral digit goes; the numeral stays in its word. -/
lemma wordEdit_numeralLast {neutral operator : Char} (hoperator : isWord operator = false)
    (hneutral : isWord neutral = true) :
    WordEdit (numeralLast neutral operator) (·.value) (fun _ _ => [[neutral]]) fun _ _ => [] where
  covers before text f h := by
    obtain ⟨sep, rest, -, -, -, hcovered, htext⟩ := numeralLast_sound h
    exact ⟨by simp [hcovered], rest, htext⟩
  outside h hout := by
    obtain ⟨sep, rest, -, -, -, hcovered, htext⟩ := numeralLast_sound h
    rw [htext, hcovered, List.append_assoc] at hout
    exact absurd hout ((isSingleWord_singleton hneutral).not_beginsOutsideWord _)
  count {a f rest y} h hy w := by
    obtain ⟨sep, -, hbefore, hsep, -, hcovered, -⟩ := numeralLast_sound h
    have ha : EndsOutsideWord a := endsOutsideWord_iff.mpr hbefore
    have hall : words (f.covered ++ y) = [[neutral]] ++ words (f.value ++ y) := by
      rw [hcovered, List.append_assoc, List.append_assoc,
        (hsep.isSeparator hoperator).words_word_append (isSingleWord_singleton hneutral)]
      rfl
    rw [words_append_of_ends ha, words_append_of_ends ha, hall]
    simp only [List.count_append, List.count_nil]
    omega

/-! ## Beside the rest of a line -/

/-- The rest of a line is taken from behind blanks. -/
lemma lineBehindBlanks_sound {text skipped taken : Text}
    (h : lineBehindBlanks text = some (skipped, taken)) :
    IsGap skipped ∧ IsLinePart taken ∧ ∃ rest, text = skipped ++ (taken ++ rest) := by
  have hcut := List.takeWhile_append_dropWhile (p := isBlank) (l := text)
  have hblanks : ∀ c ∈ text.takeWhile isBlank, isBlank c = true :=
    fun c hc => List.mem_takeWhile_imp hc
  unfold lineBehindBlanks leading at h
  split at h
  · cases h
  · next blanks c rest hne heq =>
      obtain ⟨hblanks', hdrop⟩ := Prod.mk.inj heq
      rw [hblanks', hdrop] at hcut
      rw [hblanks'] at hblanks
      obtain ⟨rfl, rfl⟩ := Prod.mk.inj (Option.some.inj h)
      have hc : c ≠ '\n' := by
        rintro rfl
        have hfirst : isBlank '\n' = false := by
          simpa [hdrop] using List.head?_dropWhile_not isBlank text
        exact absurd hfirst (by decide)
      refine ⟨⟨hne, hblanks⟩, ⟨by simp [hc], fun hmem => ?_⟩, (c :: rest).dropWhile (· != '\n'), ?_⟩
      · simpa using List.mem_takeWhile_imp hmem
      · rw [List.takeWhile_append_dropWhile, hcut]
  · next first blanks heq =>
      obtain ⟨hblanks', hdrop⟩ := Prod.mk.inj heq
      rw [hblanks', hdrop, List.append_nil] at hcut
      rw [hblanks'] at hblanks
      split at h
      · cases h
      · next last front hlast =>
          -- the last blank that is no line break, with the line breaks behind it
          obtain ⟨rfl, rfl⟩ := Prod.mk.inj (Option.some.inj h)
          have hrun : front.reverse ++ ([last] ++ (blanks.reverse.takeWhile (· == '\n')).reverse)
              = blanks := by
            have hsplit := List.takeWhile_append_dropWhile (p := (· == '\n')) (l := blanks.reverse)
            rw [hlast] at hsplit
            exact List.reverse_injective (by simpa using hsplit)
          have hbreak : last ≠ '\n' := by
            have hfirst := List.head?_dropWhile_not (· == '\n') blanks.reverse
            rw [hlast] at hfirst
            simpa using hfirst
          refine ⟨⟨by simp, fun c hc => hblanks c ?_⟩, ⟨by simp, by simpa using hbreak.symm⟩,
            (blanks.reverse.takeWhile (· == '\n')).reverse, ?_⟩
          · rw [← hrun]
            simp only [List.mem_cons, List.mem_append] at hc ⊢
            tauto
          · rw [List.cons_append, hrun, hcut]

/-- `true and x`: the neutral keyword at the start of a word, the operator between gaps, and the
rest of a line. -/
lemma lineLast_sound {neutral operator : Text} {before : Option Char} {text : Text}
    {f : Found Text} (h : lineLast neutral operator before text = some f) :
    ∃ gap skipped rest, before.any isWord = false ∧ IsGap gap ∧ IsGap skipped ∧
      IsLinePart f.value ∧ f.covered = neutral ++ (gap ++ (operator ++ (skipped ++ f.value))) ∧
      text = f.covered ++ rest := by
  obtain ⟨_, hbefore, h⟩ := Option.bind_eq_some_iff.mp h
  obtain ⟨r, hskip, h⟩ := Option.bind_eq_some_iff.mp h
  obtain ⟨_, hgap, h⟩ := Option.bind_eq_some_iff.mp h
  obtain ⟨r', hskip', h⟩ := Option.bind_eq_some_iff.mp h
  obtain ⟨⟨skipped, taken⟩, hline, h⟩ := Option.bind_eq_some_iff.mp h
  obtain rfl := Option.some.inj h
  obtain ⟨hskipped, htaken, rest, hrest⟩ := lineBehindBlanks_sound hline
  refine ⟨r.takeWhile isBlank, skipped, rest, by simpa using holds_of_guard hbefore,
    ⟨ne_nil_of_guard hgap, fun c hc => List.mem_takeWhile_imp hc⟩, hskipped, htaken, by simp, ?_⟩
  have htext : neutral ++ (r.takeWhile isBlank ++ (operator ++ (skipped ++ (taken ++ rest))))
      = text := by
    rw [← hrest, takeWhile_append_of_skip? hskip', skip?_eq_some_iff.mp hskip]
  exact htext.symm.trans (by simp)

/-- The neutral keyword and the operator go. -/
lemma wordEdit_lineLast {neutral operator : Text} (hneutral : IsSingleWord neutral)
    (hoperator : IsSingleWord operator) :
    WordEdit (lineLast neutral operator) (·.value) (fun _ _ => [neutral, operator])
      fun _ _ => [] where
  covers before text f h := by
    obtain ⟨gap, skipped, rest, -, -, -, -, hcovered, htext⟩ := lineLast_sound h
    exact ⟨by simp [hcovered, hneutral.ne_nil], rest, htext⟩
  outside h hout := by
    obtain ⟨gap, skipped, rest, -, -, -, -, hcovered, htext⟩ := lineLast_sound h
    rw [htext, hcovered, List.append_assoc] at hout
    exact absurd hout (hneutral.not_beginsOutsideWord _)
  count {a f rest y} h hy w := by
    obtain ⟨gap, skipped, -, hbefore, hgap, hskipped, -, hcovered, -⟩ := lineLast_sound h
    have ha : EndsOutsideWord a := endsOutsideWord_iff.mpr hbefore
    have hall : words (f.covered ++ y) = [neutral, operator] ++ words (f.value ++ y) := by
      simp only [hcovered, List.append_assoc, hgap.isSeparator.words_word_append hneutral,
        hskipped.isSeparator.words_word_append hoperator, List.cons_append, List.nil_append]
    rw [words_append_of_ends ha, words_append_of_ends ha, hall]
    simp only [List.count_append, List.count_nil]
    omega

/-- `x and true`: the operator between gaps, and the neutral keyword at the end of a word. -/
lemma neutralTail_sound {operator neutral text behind : Text}
    (h : neutralTail operator neutral text = some behind) :
    ∃ gap gap', IsGap gap ∧ IsGap gap' ∧ BeginsOutsideWord behind ∧
      text = gap ++ (operator ++ (gap' ++ (neutral ++ behind))) := by
  obtain ⟨_, hgap, h⟩ := Option.bind_eq_some_iff.mp h
  obtain ⟨r, hskip, h⟩ := Option.bind_eq_some_iff.mp h
  obtain ⟨_, hgap', h⟩ := Option.bind_eq_some_iff.mp h
  obtain ⟨r', hskip', h⟩ := Option.bind_eq_some_iff.mp h
  obtain ⟨_, hbehind, h⟩ := Option.bind_eq_some_iff.mp h
  obtain rfl : r' = behind := Option.some.inj h
  refine ⟨text.takeWhile isBlank, r.takeWhile isBlank,
    ⟨ne_nil_of_guard hgap, fun c hc => List.mem_takeWhile_imp hc⟩,
    ⟨ne_nil_of_guard hgap', fun c hc => List.mem_takeWhile_imp hc⟩,
    beginsOutsideWord_iff.mpr (by simpa [startsOutsideWord] using holds_of_guard hbehind), ?_⟩
  rw [takeWhile_append_of_skip? hskip', takeWhile_append_of_skip? hskip]

/-- The head is a front of the text on one line, and the tail stands right behind it. -/
lemma longestHead_sound {operator neutral : Text} : ∀ {text head behind : Text},
    longestHead operator neutral text = some (head, behind) →
      IsLinePart head ∧ ∃ tail, text = head ++ tail ∧
        neutralTail operator neutral tail = some behind
  | [], _, _, h => by simp [longestHead] at h
  | c :: rest, head, behind, h => by
      rw [longestHead] at h
      split_ifs at h with hc
      split at h
      · next head' behind' heq =>
          obtain ⟨rfl, rfl⟩ : c :: head' = head ∧ behind' = behind := by simpa using h
          obtain ⟨hhead, tail, rfl, htail⟩ := longestHead_sound heq
          exact ⟨⟨by simp, by simp [Ne.symm hc, hhead.no_break]⟩, tail, rfl, htail⟩
      · obtain ⟨behind', htail, heq⟩ := Option.map_eq_some_iff.mp h
        obtain ⟨rfl, rfl⟩ : [c] = head ∧ behind' = behind := by simpa using heq
        exact ⟨⟨by simp, by simpa using Ne.symm hc⟩, rest, rfl, htail⟩

/-- The first part of a text up to a line break has that line break behind it. -/
lemma eq_break_of_leading {text line rest : Text} {c : Char}
    (h : leading (· != '\n') text = (line, c :: rest)) : c = '\n' := by
  have hfirst := List.head?_dropWhile_not (· != '\n') text
  rw [(Prod.mk.inj h).2] at hfirst
  simpa using hfirst

/-- The operators and the neutral keywords go; the text still begins with the same character. -/
lemma words_dropNeutralTails {operator neutral : Text} (hoperator : IsSingleWord operator)
    (hneutral : IsSingleWord neutral) (text : Text) :
    words (dropNeutralTails operator neutral text) ⊆ words text ∧
      (dropNeutralTails operator neutral text).head? = text.head? := by
  fun_induction dropNeutralTails operator neutral text with
  | case1 text head behind hhead ih =>
      obtain ⟨hline, tail, rfl, htail⟩ := longestHead_sound hhead
      obtain ⟨gap, gap', hgap, hgap', hbehind, rfl⟩ := neutralTail_sound htail
      obtain ⟨ihwords, ihhead⟩ := ih
      have hout : BeginsOutsideWord (dropNeutralTails operator neutral behind) := by
        intro c hc
        rw [ihhead] at hc
        exact hbehind c hc
      refine ⟨?_, ?_⟩
      · rw [words_append_of_begins hout, hgap.isSeparator.words_append,
          hgap'.isSeparator.words_word_append hoperator, words_append hneutral hbehind]
        intro w hw
        rcases List.mem_append.mp hw with hw | hw
        · exact List.mem_append_left _ hw
        · exact List.mem_append_right _ (by simp [ihwords hw])
      · obtain ⟨c, v, rfl⟩ := List.exists_cons_of_ne_nil hline.ne_nil
        rfl
  | case2 text hhead line hline =>
      obtain rfl : line = text := by simpa using append_of_leading hline
      exact ⟨fun w hw => hw, rfl⟩
  | case3 text hhead line lineBreak rest hline ih =>
      have hother : isWord lineBreak = false := by
        rw [eq_break_of_leading hline]
        decide
      obtain rfl := append_of_leading hline
      refine ⟨?_, ?_⟩
      · rw [words_append_cons_other hother, words_append_cons_other hother]
        intro w hw
        rcases List.mem_append.mp hw with hw | hw
        · exact List.mem_append_left _ hw
        · exact List.mem_append_right _ (ih.1 hw)
      · cases line <;> rfl

/-! ## All identities -/

/-- Whether an operator and a neutral operand are spelled so that the words of a text show them: a
digit and a sign, or two words. -/
def isProper : Identity → Bool
  | digitRight operator neutral => !isWord operator && isWord neutral
  | digitLeft neutral operator => !isWord operator && isWord neutral
  | keywordLeft neutral operator => isKeyword neutral && isKeyword operator
  | keywordRight operator neutral => isKeyword neutral && isKeyword operator

/-- **An identity only takes words away.** -/
theorem words_apply_subset {identity : Identity} (h : identity.isProper = true) (text : Text) :
    words (identity.apply text) ⊆ words text := by
  cases identity with
  | digitRight operator neutral =>
      obtain ⟨hoperator, hneutral⟩ : isWord operator = false ∧ isWord neutral = true := by
        simpa [isProper] using h
      exact (wordEdit_numeralFirst hoperator hneutral).words_subset text
  | digitLeft neutral operator =>
      obtain ⟨hoperator, hneutral⟩ : isWord operator = false ∧ isWord neutral = true := by
        simpa [isProper] using h
      exact (wordEdit_numeralLast hoperator hneutral).words_subset text
  | keywordLeft neutral operator =>
      obtain ⟨hneutral, hoperator⟩ := Bool.and_eq_true_iff.mp h
      exact (wordEdit_lineLast (isSingleWord_of_isKeyword hneutral)
        (isSingleWord_of_isKeyword hoperator)).words_subset text
  | keywordRight operator neutral =>
      obtain ⟨hneutral, hoperator⟩ := Bool.and_eq_true_iff.mp h
      exact (words_dropNeutralTails (isSingleWord_of_isKeyword hoperator)
        (isSingleWord_of_isKeyword hneutral) text).1

lemma isProper_of_mem_all : ∀ identity ∈ all, identity.isProper = true := by decide

end Identity

lemma words_simplifyOnce_subset (text : Text) : words (simplifyOnce text) ⊆ words text := by
  have hfold : ∀ (identities : List Identity), (∀ i ∈ identities, i.isProper = true) →
      ∀ t : Text, words (identities.foldl (fun t i => i.apply t) t) ⊆ words t := by
    intro identities
    induction identities with
    | nil => exact fun _ t w hw => hw
    | cons i identities ih =>
        intro h t
        obtain ⟨hi, hrest⟩ := List.forall_mem_cons.mp h
        exact List.Subset.trans (ih hrest (i.apply t)) (Identity.words_apply_subset hi t)
  exact hfold Identity.all Identity.isProper_of_mem_all text

lemma words_simplifyUpTo_subset (rounds : Nat) (text : Text) :
    words (simplifyUpTo rounds text) ⊆ words text := by
  induction rounds generalizing text with
  | zero => exact fun w hw => hw
  | succ rounds ih =>
      rw [simplifyUpTo]
      split_ifs
      · exact fun w hw => hw
      · exact List.Subset.trans (ih _) (words_simplifyOnce_subset text)

/-- **Simplifying only takes words away.** -/
theorem words_simplifyExpressions_subset (s : Session) (text : Text) :
    words (s.simplifyExpressions text) ⊆ words text := by
  unfold Session.simplifyExpressions
  split_ifs
  · exact words_simplifyUpTo_subset maxRounds text
  · exact words_simplifyOnce_subset text

end LuaUnveil
