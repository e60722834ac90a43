import Mathlib.Logic.Relation
import LuaUnveil.Proofs.Chains

/-!
# An identity drops pairs of lexemes

The words and the signs of a text, with the blanks left out, are its lexemes.  An identity is found
by its spelling, with whatever blanks stand in it, and what is kept of it may be the rest of a whole
line.  On the lexemes it does one thing only: it takes out an operator together with the neutral
operand beside it.

**Cutting.**  A text that is cut outside of words has the lexemes of its two parts
(`lexemes_append_of_begins`, `lexemes_append_of_ends`).

**Dropping.**  `Identity.drops_apply`: the lexemes of the result come from those of the text by
taking out such pairs, one after the other.
-/

namespace LuaUnveil

open Relation (ReflTransGen)

/-! ## Cutting a text into lexemes -/

/-- The words of a text and its other characters, one by one and without the blanks, in order. -/
def lexemes : Text → List Text
  | [] => []
  | c :: rest =>
    if isBlank c then lexemes rest
    -- a word goes on as long as word characters follow
    else if isWord c && rest.head?.any isWord then (lexemes rest).modifyHead (c :: ·)
    else [c] :: lexemes rest

lemma lexemes_cons_blank {c : Char} (hc : isBlank c = true) (rest : Text) :
    lexemes (c :: rest) = lexemes rest := by
  rw [lexemes, if_pos hc]

lemma lexemes_cons_sign {c : Char} (hblank : isBlank c = false) (hword : isWord c = false)
    (rest : Text) : lexemes (c :: rest) = [c] :: lexemes rest := by
  simp [lexemes, hblank, hword]

lemma lexemes_append_of_blanks {a : Text} (ha : ∀ c ∈ a, isBlank c = true) (b : Text) :
    lexemes (a ++ b) = lexemes b := by
  induction a with
  | nil => rfl
  | cons c a ih =>
      obtain ⟨hc, ha⟩ := List.forall_mem_cons.mp ha
      rw [List.cons_append, lexemes_cons_blank hc, ih ha]

/-- A whole word is one lexeme. -/
lemma lexemes_word_append {w rest : Text} (hw : IsSingleWord w) (hrest : BeginsOutsideWord rest) :
    lexemes (w ++ rest) = w :: lexemes rest := by
  obtain ⟨hne, hword⟩ := hw
  induction w with
  | nil => exact absurd rfl hne
  | cons c w ih =>
      obtain ⟨hc, hw⟩ := List.forall_mem_cons.mp hword
      have hblank : isBlank c = false := by
        by_contra h
        rw [isWord_of_isBlank (by simpa using h)] at hc
        cases hc
      cases w with
      | nil =>
          have hhead := beginsOutsideWord_iff.mp hrest
          simp [lexemes, hblank, hhead]
      | cons d w =>
          have hd : isWord d = true := hw d List.mem_cons_self
          have hgoes : (isWord c && ((d :: w) ++ rest).head?.any isWord) = true := by simp [hc, hd]
          rw [List.cons_append, lexemes, if_neg (by simp [hblank]), if_pos hgoes,
            ih (by simp) hw, List.modifyHead_cons]

/-- A text that goes on outside of words adds its lexemes behind the others. -/
lemma lexemes_append_of_begins {a b : Text} (hb : BeginsOutsideWord b) :
    lexemes (a ++ b) = lexemes a ++ lexemes b := by
  induction a using wordInduction with
  | nil => rfl
  | other c rest hc ih =>
      cases hblank : isBlank c with
      | true => rw [List.cons_append, lexemes_cons_blank hblank, lexemes_cons_blank hblank, ih]
      | false =>
          rw [List.cons_append, lexemes_cons_sign hblank hc, lexemes_cons_sign hblank hc, ih,
            List.cons_append]
  | word w rest hw hr ih =>
      rw [List.append_assoc, lexemes_word_append hw (hr.append hb), lexemes_word_append hw hr, ih,
        List.cons_append]

/-- Behind a text that ends outside of words, another text has its lexemes to itself. -/
lemma lexemes_append_of_ends {a b : Text} (ha : EndsOutsideWord a) :
    lexemes (a ++ b) = lexemes a ++ lexemes b := by
  rcases List.eq_nil_or_concat a with rfl | ⟨front, c, rfl⟩
  · rfl
  · have hc : isWord c = false := ha c (by simp)
    have hcut : lexemes (c :: b) = lexemes [c] ++ lexemes b := by
      cases hblank : isBlank c <;> simp [lexemes, hblank, hc]
    rw [List.concat_eq_append, List.append_assoc, List.singleton_append,
      lexemes_append_of_begins (beginsOutsideWord_cons hc b), hcut,
      lexemes_append_of_begins (beginsOutsideWord_cons hc []), List.append_assoc]

/-- A padded sign is one lexeme. -/
lemma IsPadded.lexemes_append {sign : Char} {sep : Text} (h : IsPadded sign sep)
    (hblank : isBlank sign = false) (hword : isWord sign = false) (b : Text) :
    lexemes (sep ++ b) = [sign] :: lexemes b := by
  obtain ⟨hleft, hright⟩ := h
  rw [List.append_assoc, lexemes_append_of_blanks hleft, List.cons_append,
    lexemes_cons_sign hblank hword, lexemes_append_of_blanks hright]

/-- A word in front of a gap. -/
lemma IsGap.lexemes_word_append {gap w : Text} (h : IsGap gap) (hw : IsSingleWord w) (b : Text) :
    lexemes (w ++ (gap ++ b)) = w :: lexemes b := by
  rw [LuaUnveil.lexemes_word_append hw (h.isSeparator.beginsOutsideWord b),
    lexemes_append_of_blanks h.blank]

/-! ## Dropping a pair -/

/-- Some neighbours in a list are taken out of it. -/
inductive Drops (pair : List Text) : List Text → List Text → Prop
  | intro (before behind : List Text) : Drops pair (before ++ (pair ++ behind)) (before ++ behind)

lemma Drops.append_left {pair ts us : List Text} (h : Drops pair ts us) (more : List Text) :
    Drops pair (more ++ ts) (more ++ us) := by
  obtain ⟨before, behind⟩ := h
  rw [← List.append_assoc more, ← List.append_assoc more]
  exact .intro (more ++ before) behind

lemma drops_append_left {pair ts us : List Text} (h : ReflTransGen (Drops pair) ts us)
    (more : List Text) : ReflTransGen (Drops pair) (more ++ ts) (more ++ us) :=
  h.lift (more ++ ·) fun _ _ hstep => hstep.append_left more

namespace Identity

/-- Whether the neutral operand stands on the right of the operator. -/
def isRight : Identity → Bool
  | digitRight _ _ => true
  | digitLeft _ _ => false
  | keywordLeft _ _ => false
  | keywordRight _ _ => true

/-- The neutral operand of an identity. -/
def neutralText : Identity → Text
  | digitRight _ neutral => [neutral]
  | digitLeft neutral _ => [neutral]
  | keywordLeft neutral _ => neutral
  | keywordRight _ neutral => neutral

/-- What an identity drops: the operator and the neutral operand, as they stand in a text. -/
def dropped (identity : Identity) : List Text :=
  if identity.isRight then [identity.operatorText, identity.neutralText]
  else [identity.neutralText, identity.operatorText]

/-! ### A scan -/

/-- A scan whose every find drops a pair, whatever the scan makes of the text behind the find. -/
lemma drops_replaceAll {pattern : Pattern Text} {lost gained : Text → Found Text → List Text}
    (edit : WordEdit pattern (·.value) lost gained) {pair : List Text}
    (hdrop : ∀ {a : Text} {f : Found Text} {rest y : Text},
      pattern a.getLast? (f.covered ++ rest) = some f →
      (BeginsOutsideWord rest → BeginsOutsideWord y) →
      Drops pair (lexemes (a ++ (f.covered ++ y))) (lexemes (a ++ (f.value ++ y))))
    (text : Text) :
    ReflTransGen (Drops pair) (lexemes text) (lexemes (replaceAll pattern (·.value) text)) := by
  have hscan : ∀ a text : Text, ReflTransGen (Drops pair) (lexemes (a ++ text))
      (lexemes (a ++ assemble (·.value) (piecesFrom pattern 0 a.getLast? text))) := by
    intro a text
    induction a, text using edit.covers.scanInduction with
    | nil a => exact .refl
    | plain a c rest hnone ih =>
        rw [piecesFrom_plain_of_none hnone, assemble_plain_cons]
        simpa using ih
    | found a f rest hne hf ih =>
        -- the text behind the find is done first, then the find itself
        rw [piecesFrom_found_of_some hne hf, assemble_found_cons]
        rw [List.append_assoc, List.append_assoc] at ih
        exact ih.tail (hdrop hf fun hrest => edit.beginsOutsideWord_assemble hrest _)
  exact hscan [] text

/-- `n + 0`: the sign and the digit behind it go. -/
lemma drops_numeralFirst {operator neutral : Char} (hoperator : isWord operator = false)
    (hvisible : isBlank operator = false) (hneutral : isWord neutral = true) {a : Text}
    {f : Found Text} {rest y : Text}
    (hf : numeralFirst operator neutral a.getLast? (f.covered ++ rest) = some f)
    (hy : BeginsOutsideWord rest → BeginsOutsideWord y) :
    Drops [[operator], [neutral]] (lexemes (a ++ (f.covered ++ y)))
      (lexemes (a ++ (f.value ++ y))) := by
  obtain ⟨sep, rest', -, hsep, hcovered, htext, hrest⟩ := numeralFirst_sound hf
  obtain rfl := List.append_cancel_left htext
  have hall : lexemes (a ++ (f.covered ++ y))
      = lexemes (a ++ f.value) ++ ([[operator], [neutral]] ++ lexemes y) := by
    rw [hcovered, List.append_assoc, List.append_assoc, ← List.append_assoc a,
      lexemes_append_of_begins ((hsep.isSeparator hoperator).beginsOutsideWord _),
      hsep.lexemes_append hvisible hoperator,
      lexemes_word_append (isSingleWord_singleton hneutral) (hy hrest)]
    rfl
  rw [hall, ← List.append_assoc a, lexemes_append_of_begins (hy hrest)]
  exact .intro _ _

/-- `0 + n`: the digit and the sign behind it go. -/
lemma drops_numeralLast {neutral operator : Char} (hoperator : isWord operator = false)
    (hvisible : isBlank operator = false) (hneutral : isWord neutral = true) {a : Text}
    {f : Found Text} {rest : Text}
    (hf : numeralLast neutral operator a.getLast? (f.covered ++ rest) = some f) (y : Text) :
    Drops [[neutral], [operator]] (lexemes (a ++ (f.covered ++ y)))
      (lexemes (a ++ (f.value ++ y))) := by
  obtain ⟨sep, -, hbefore, hsep, -, hcovered, -⟩ := numeralLast_sound hf
  have ha : EndsOutsideWord a := endsOutsideWord_iff.mpr hbefore
  have hall : lexemes (f.covered ++ y) = [[neutral], [operator]] ++ lexemes (f.value ++ y) := by
    rw [hcovered, List.append_assoc, List.append_assoc,
      lexemes_word_append (isSingleWord_singleton hneutral)
        ((hsep.isSeparator hoperator).beginsOutsideWord _),
      hsep.lexemes_append hvisible hoperator]
    rfl
  rw [lexemes_append_of_ends ha, lexemes_append_of_ends ha, hall]
  exact .intro _ _

/-- `true and x`: the keyword and the operator behind it go. -/
lemma drops_lineLast {neutral operator : Text} (hneutral : IsSingleWord neutral)
    (hoperator : IsSingleWord operator) {a : Text} {f : Found Text} {rest : Text}
    (hf : lineLast neutral operator a.getLast? (f.covered ++ rest) = some f) (y : Text) :
    Drops [neutral, operator] (lexemes (a ++ (f.covered ++ y)))
      (lexemes (a ++ (f.value ++ y))) := by
  obtain ⟨gap, skipped, -, hbefore, hgap, hskipped, -, hcovered, -⟩ := lineLast_sound hf
  have ha : EndsOutsideWord a := endsOutsideWord_iff.mpr hbefore
  have hall : lexemes (f.covered ++ y) = [neutral, operator] ++ lexemes (f.value ++ y) := by
    simp only [hcovered, List.append_assoc, hgap.lexemes_word_append hneutral,
      hskipped.lexemes_word_append hoperator, List.cons_append, List.nil_append]
  rw [lexemes_append_of_ends ha, lexemes_append_of_ends ha, hall]
  exact .intro _ _

/-! ### Line by line -/

/-- `x and true`: the operator and the keyword behind it go. -/
lemma drops_dropNeutralTails {operator neutral : Text} (hoperator : IsSingleWord operator)
    (hneutral : IsSingleWord neutral) (text : Text) :
    ReflTransGen (Drops [operator, neutral]) (lexemes text)
      (lexemes (dropNeutralTails operator neutral text)) := by
  fun_induction dropNeutralTails operator neutral text with
  | case1 text head behind hhead ih =>
      obtain ⟨-, tail, rfl, htail⟩ := longestHead_sound hhead
      obtain ⟨gap, gap', hgap, hgap', hbehind, rfl⟩ := neutralTail_sound htail
      have hout : BeginsOutsideWord (dropNeutralTails operator neutral behind) := by
        intro c hc
        rw [(words_dropNeutralTails hoperator hneutral behind).2] at hc
        exact hbehind c hc
      have hall : lexemes (head ++ (gap ++ (operator ++ (gap' ++ (neutral ++ behind)))))
          = lexemes head ++ ([operator, neutral] ++ lexemes behind) := by
        rw [lexemes_append_of_begins (hgap.isSeparator.beginsOutsideWord _),
          lexemes_append_of_blanks hgap.blank, hgap'.lexemes_word_append hoperator,
          lexemes_word_append hneutral hbehind]
        rfl
      rw [hall, lexemes_append_of_begins hout]
      exact (drops_append_left (drops_append_left ih _) _).tail (.intro _ _)
  | case2 text hhead line hline =>
      obtain rfl : line = text := by simpa using append_of_leading hline
      exact .refl
  | case3 text hhead line lineBreak rest hline ih =>
      have hblank : isBlank lineBreak = true := by
        rw [eq_break_of_leading hline]
        decide
      have hcut : ∀ b, lexemes (line ++ lineBreak :: b) = lexemes line ++ lexemes b := fun b => by
        rw [lexemes_append_of_begins (beginsOutsideWord_cons (isWord_of_isBlank hblank) b),
          lexemes_cons_blank hblank]
      obtain rfl := append_of_leading hline
      rw [hcut, hcut]
      exact drops_append_left ih _

/-! ### Every identity -/

/-- **An identity drops pairs.**  The lexemes of the result come from those of the text by taking
out its operator with its neutral operand, some number of times. -/
theorem drops_apply {identity : Identity} (hproper : identity.isProper = true)
    (hvisible : identity.hasVisibleSign = true) (text : Text) :
    ReflTransGen (Drops identity.dropped) (lexemes text) (lexemes (identity.apply text)) := by
  cases identity with
  | digitRight operator neutral =>
      obtain ⟨hoperator, hneutral⟩ : isWord operator = false ∧ isWord neutral = true := by
        simpa [isProper] using hproper
      have hsign : isBlank operator = false := by simpa [hasVisibleSign] using hvisible
      exact drops_replaceAll (wordEdit_numeralFirst hoperator hneutral)
        (drops_numeralFirst hoperator hsign hneutral) text
  | digitLeft neutral operator =>
      obtain ⟨hoperator, hneutral⟩ : isWord operator = false ∧ isWord neutral = true := by
        simpa [isProper] using hproper
      have hsign : isBlank operator = false := by simpa [hasVisibleSign] using hvisible
      exact drops_replaceAll (wordEdit_numeralLast hoperator hneutral)
        (fun hf _ => drops_numeralLast hoperator hsign hneutral hf _) text
  | keywordLeft neutral operator =>
      obtain ⟨hneutral, hoperator⟩ := Bool.and_eq_true_iff.mp hproper
      have hneutral := isSingleWord_of_isKeyword hneutral
      have hoperator := isSingleWord_of_isKeyword hoperator
      exact drops_replaceAll (wordEdit_lineLast hneutral hoperator)
        (fun hf _ => drops_lineLast hneutral hoperator hf _) text
  | keywordRight operator neutral =>
      obtain ⟨hneutral, hoperator⟩ := Bool.and_eq_true_iff.mp hproper
      exact drops_dropNeutralTails (isSingleWord_of_isKeyword hoperator)
        (isSingleWord_of_isKeyword hneutral) text

end Identity

end LuaUnveil
