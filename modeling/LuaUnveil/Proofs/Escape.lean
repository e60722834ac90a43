import LuaUnveil.Escape.Decimal
import LuaUnveil.Escape.Hex
import LuaUnveil.Escape.Literal
import LuaUnveil.Proofs.Scan

/-!
# What the decoders find

The three walks of the decoder look for a hexadecimal escape, a decimal escape, and two joined
literals.  Each of them is described here by the text that it covers, so that no other proof opens
the patterns.

* `HexEscape.pattern_eq_some_iff`, `DecimalEscape.pattern_eq_some_iff` and
  `joinedLiterals_eq_some_iff`: what is found behind the first character, and what is read off it.
* None of them looks back, and each has a first character of its own: `HexEscape.beginsWith`,
  `DecimalEscape.beginsWith` and `joinedLiterals_beginsWith`.
-/

namespace LuaUnveil

/-! ## Hexadecimal escapes -/

namespace HexEscape

lemma beginsWith : pattern.BeginsWith '\\' where
  looksAhead before text := by
    unfold pattern
    split <;> rfl
  of_ne hc rest := by simp [pattern, hc]

lemma pattern_eq_some_iff {rest : Text} {f : Found Char} :
    pattern none ('\\' :: rest) = some f ↔
      ∃ high low behind, rest = 'x' :: high :: low :: behind ∧ isHexDigit high = true ∧
        isHexDigit low = true ∧
        f = ⟨Char.ofNat (valueOfDigits 16 [high, low]), ['\\', 'x', high, low]⟩ := by
  constructor
  · intro h
    unfold pattern at h
    split at h
    · next high low behind heq =>
        simp only [Bool.and_eq_true, Option.ite_none_right_eq_some, Option.some.injEq] at h
        obtain ⟨⟨hhigh, hlow⟩, rfl⟩ := h
        exact ⟨high, low, behind, (List.cons.inj heq).2, hhigh, hlow, rfl⟩
    · cases h
  · rintro ⟨high, low, behind, rfl, hhigh, hlow, rfl⟩
    simp [pattern, hhigh, hlow]

end HexEscape

/-! ## Decimal escapes -/

namespace DecimalEscape

lemma beginsWith : pattern.BeginsWith '\\' where
  looksAhead before text := by
    unfold pattern
    split <;> rfl
  of_ne hc rest := by simp [pattern, hc]

/-- As many digits are read as there are, and at most three. -/
lemma pattern_eq_some_iff {rest : Text} {f : Found Nat} :
    pattern none ('\\' :: rest) = some f ↔
      (rest.takeWhile Char.isDigit).take 3 ≠ [] ∧
        f = ⟨valueOfDigits 10 ((rest.takeWhile Char.isDigit).take 3),
          '\\' :: (rest.takeWhile Char.isDigit).take 3⟩ := by
  rw [List.take_takeWhile]
  simp only [pattern, List.isEmpty_iff, Option.ite_none_left_eq_some, Option.some.injEq, ne_eq]
  rw [eq_comm (b := f)]

/-- How an escape is spelled, and what its value is. -/
lemma spelling_of_pattern {before : Option Char} {text : Text} {f : Found Nat}
    (h : pattern before text = some f) :
    ∃ digits : Text, f.covered = '\\' :: digits ∧ 1 ≤ digits.length ∧ digits.length ≤ 3 ∧
      (∀ c ∈ digits, c.isDigit = true) ∧ f.value = valueOfDigits 10 digits := by
  rw [beginsWith.looksAhead before] at h
  cases text with
  | nil => cases h
  | cons c rest =>
      by_cases hc : c = '\\'
      · rw [hc, pattern_eq_some_iff] at h
        obtain ⟨hne, rfl⟩ := h
        refine ⟨_, rfl, List.length_pos_iff.mpr hne, List.length_take_le 3 _, ?_, rfl⟩
        exact fun d hd => List.mem_takeWhile_imp (List.mem_of_mem_take hd)
      · rw [beginsWith.of_ne hc] at h
        cases h

end DecimalEscape

/-! ## Joined literals -/

lemma upToQuote_eq_some_iff {text content rest : Text} :
    upToQuote text = some (content, rest) ↔ text = content ++ '"' :: rest ∧ '"' ∉ content := by
  have hsplit := List.takeWhile_append_dropWhile (p := (· != '"')) (l := text)
  constructor
  · intro h
    unfold upToQuote leading at h
    split at h
    · next taken c behind heq =>
        obtain ⟨rfl, rfl⟩ : taken = content ∧ behind = rest := by simpa using h
        obtain ⟨htake, hdrop⟩ := Prod.mk.inj heq
        have hc : c = '"' := by
          have hhead := List.head?_dropWhile_not (· != '"') text
          rw [hdrop] at hhead
          simpa using hhead
        rw [htake, hdrop, hc] at hsplit
        refine ⟨hsplit.symm, fun hmem => ?_⟩
        rw [← htake] at hmem
        simpa using List.mem_takeWhile_imp hmem
    · cases h
  · rintro ⟨rfl, hmem⟩
    have hall : ∀ c ∈ content, (c != '"') = true := by
      intro c hc
      rw [bne_iff_ne]
      rintro rfl
      exact hmem hc
    simp [upToQuote, leading, List.takeWhile_append_of_pos hall, List.dropWhile_append_of_pos hall]

lemma joinedLiterals_beginsWith : joinedLiterals.BeginsWith '"' where
  looksAhead before text := by
    unfold joinedLiterals
    split <;> rfl
  of_ne hc rest := by simp [joinedLiterals, hc]

/-- Two contents without quotes, and between them the joining operator with blanks around it. -/
structure Joined (first before after second : Text) : Prop where
  first : '"' ∉ first
  before : ∀ c ∈ before, isBlank c = true
  after : ∀ c ∈ after, isBlank c = true
  second : '"' ∉ second

/-- The text from the first content to the second one, without the outermost quotes. -/
def joinedText (first before after second : Text) : Text :=
  first ++ '"' :: (before ++ '.' :: '.' :: (after ++ '"' :: second))

lemma joinedLiterals_eq_some_iff {text : Text} {f : Found Text} :
    joinedLiterals none ('"' :: text) = some f ↔
      ∃ first before after second behind, Joined first before after second ∧
        text = joinedText first before after second ++ '"' :: behind ∧
        f = ⟨first ++ second, '"' :: joinedText first before after second ++ ['"']⟩ := by
  constructor
  · intro h
    simp only [joinedLiterals, leading, Option.bind_eq_bind, Option.bind_eq_some_iff] at h
    obtain ⟨⟨first, rest⟩, hfirst, rest', hdots, h⟩ := h
    obtain ⟨rfl, hnofirst⟩ := upToQuote_eq_some_iff.mp hfirst
    split at h
    · next rest'' hquote =>
        obtain ⟨⟨second, behind⟩, hsecond, hfound⟩ := Option.bind_eq_some_iff.mp h
        obtain ⟨rfl, hnosecond⟩ := upToQuote_eq_some_iff.mp hsecond
        obtain rfl := Option.some.inj hfound
        have hbefore := List.takeWhile_append_dropWhile (p := isBlank) (l := rest)
        have hafter := List.takeWhile_append_dropWhile (p := isBlank) (l := rest')
        rw [skip?_eq_some_iff.mp hdots] at hbefore
        rw [hquote] at hafter
        refine ⟨first, rest.takeWhile isBlank, rest'.takeWhile isBlank, second, behind,
          ⟨hnofirst, fun c hc => List.mem_takeWhile_imp hc,
            fun c hc => List.mem_takeWhile_imp hc, hnosecond⟩, ?_, by simp [joinedText]⟩
        rw [← hafter] at hbefore
        calc first ++ '"' :: rest
            = first ++ '"' :: (rest.takeWhile isBlank ++ ("..".toList ++
                (rest'.takeWhile isBlank ++ '"' :: (second ++ '"' :: behind)))) := by rw [hbefore]
          _ = _ := by simp [joinedText]
    · cases h
  · rintro ⟨first, before, after, second, behind, hj, rfl, rfl⟩
    have hfirst : upToQuote (joinedText first before after second ++ '"' :: behind)
        = some (first, before ++ '.' :: '.' :: (after ++ '"' :: (second ++ '"' :: behind))) :=
      upToQuote_eq_some_iff.mpr ⟨by simp [joinedText], hj.first⟩
    have hsecond : upToQuote (second ++ '"' :: behind) = some (second, behind) :=
      upToQuote_eq_some_iff.mpr ⟨rfl, hj.second⟩
    have hblanks : ∀ {w : Text} (q : Char) (y : Text), isBlank q = false →
        (∀ c ∈ w, isBlank c = true) → leading isBlank (w ++ q :: y) = (w, q :: y) := by
      intro w q y hq hw
      simp [leading, List.takeWhile_append_of_pos hw, List.dropWhile_append_of_pos hw, hq]
    have hdots : skip? "..".toList ('.' :: '.' :: (after ++ '"' :: (second ++ '"' :: behind)))
        = some (after ++ '"' :: (second ++ '"' :: behind)) := skip?_eq_some_iff.mpr rfl
    simp only [joinedLiterals, hfirst, hblanks '.' _ (by decide) hj.before, hdots,
      hblanks '"' _ (by decide) hj.after, hsecond, Option.bind_eq_bind, Option.bind_some]
    simp [joinedText]

end LuaUnveil
