import LuaUnveil.Naming.Shape
import LuaUnveil.Proofs.Words

/-!
# What looks generated

`Shape.detector` reads a text from the left and asks for word edges.  Here each shape is said once
more, as a condition on a whole word, and the two are joined.

**The condition.**  `Shape.fits` says of a word as a whole whether it has a shape, and `isGenerated`
whether it has any.

**Reading.**  `Shape.read?_sound` and `Shape.read?_complete`: what is read off a text is made of
word characters and has the shape, and a word of the shape is read off whole.

**Searching.**  `Shape.detector_eq_wordPattern`: a detector finds the words that fit, and so
`generatedNames_eq` lists the generated names of a text by its words alone.

**Readable words.**  No word of a pool looks generated, whatever is put behind it
(`Shape.not_fits_of_isReadable`).
-/

namespace LuaUnveil

/-! ## The shapes as conditions on words -/

namespace Shape

/-- A letter and at least so many digits of a class, to the end of the word. -/
def isLetterAndRun (isDigit : Char → Bool) (atLeast : Nat) : Text → Bool
  | [] => false
  | c :: digits => c.isAlpha && atLeast ≤ digits.length && digits.all isDigit

/-- An underscore and at least one hexadecimal digit, to the end of the word. -/
def isHexTail : Text → Bool
  | '_' :: digits => !digits.isEmpty && digits.all isHexDigit
  | _ => false

/-- At least `n` pairs of a letter and a digit, and perhaps one more letter, to the end. -/
def isAlternating : Nat → Text → Bool
  | n, [] => n == 0
  | n, [c] => n == 0 && c.isAlpha
  | n, c :: d :: rest => c.isAlpha && d.isDigit && isAlternating (n - 1) rest

/-- Whether a word as a whole has the shape. -/
def fits : Shape → Text → Bool
  | hexRun, word => isLetterAndRun isHexDigit 6 word
  | numbered, word => isLetterAndRun Char.isDigit 3 word
  | shortPrefix, c :: rest =>
    c.isAlpha && (isHexTail rest || (rest.head?.any Char.isAlpha && isHexTail rest.tail))
  | varPrefix, 'v' :: 'a' :: 'r' :: rest => isHexTail rest
  | alternating, word => isAlternating 3 word
  | _, _ => false

end Shape

/-- Whether a word as a whole has one of the shapes. -/
def isGenerated (word : Text) : Bool := Shape.all.any fun shape => shape.fits word

lemma isGenerated_iff {word : Text} :
    isGenerated word = true ↔ ∃ shape : Shape, shape.fits word = true := by
  rw [isGenerated, List.any_eq_true]
  constructor
  · rintro ⟨shape, -, h⟩
    exact ⟨shape, h⟩
  · rintro ⟨shape, h⟩
    exact ⟨shape, by cases shape <;> simp [Shape.all], h⟩

/-! ## Letters and digits are word characters -/

lemma isWord_of_isAlphanum {c : Char} (h : c.isAlphanum = true) : isWord c = true := by
  have hascii : c.toNat < 0x80 := by
    simp only [Char.isAlphanum, Char.isAlpha, Char.isUpper, Char.isLower, Char.isDigit,
      Bool.or_eq_true, Bool.and_eq_true, decide_eq_true_eq, ge_iff_le, UInt32.le_iff_toNat_le] at h
    have hval : c.toNat = c.val.toNat := rfl
    rcases h with (h | h) | h <;> simp at h <;> omega
  simp [isWord, hascii, h]

lemma isWord_of_isAlpha {c : Char} (h : c.isAlpha = true) : isWord c = true :=
  isWord_of_isAlphanum (by simp [Char.isAlphanum, h])

lemma isWord_of_isDigit {c : Char} (h : c.isDigit = true) : isWord c = true :=
  isWord_of_isAlphanum (by simp [Char.isAlphanum, h])

lemma isAlphanum_of_isHexDigit {c : Char} (h : isHexDigit c = true) : c.isAlphanum = true := by
  simp only [isHexDigit, Bool.or_eq_true, Bool.and_eq_true, decide_eq_true_eq, Char.le_def,
    UInt32.le_iff_toNat_le] at h
  simp only [Char.isAlphanum, Char.isAlpha, Char.isUpper, Char.isLower, Bool.or_eq_true,
    Bool.and_eq_true, decide_eq_true_eq, ge_iff_le, UInt32.le_iff_toNat_le]
  rcases h with (h | h) | h
  · exact Or.inr h
  · simp at h ⊢; omega
  · simp at h ⊢; omega

lemma isWord_of_isHexDigit {c : Char} (h : isHexDigit c = true) : isWord c = true :=
  isWord_of_isAlphanum (isAlphanum_of_isHexDigit h)

lemma isWord_underscore : isWord '_' = true := by decide

/-- A character outside of words is in no class of word characters. -/
lemma BeginsOutsideWord.not_class {c : Char} {rest : Text} (hr : BeginsOutsideWord (c :: rest))
    {p : Char → Bool} (hp : ∀ c, p c = true → isWord c = true) : p c = false := by
  have hout : isWord c = false := hr c (by simp)
  cases h : p c with
  | false => rfl
  | true => rw [hp c h] at hout; cases hout

/-- A run of a class of word characters ends where the word ends. -/
lemma leading_append {p : Char → Bool} (hp : ∀ c, p c = true → isWord c = true) {w rest : Text}
    (hw : ∀ c ∈ w, p c = true) (hr : BeginsOutsideWord rest) :
    leading p (w ++ rest) = (w, rest) := by
  rw [leading, List.takeWhile_append_of_pos hw, List.dropWhile_append_of_pos hw]
  cases rest with
  | nil => simp
  | cons c rest => simp [hr.not_class hp]

/-! ## Reading a name off a text -/

namespace Shape

/-- What reading a name promises: the text is cut in two, and the first part is a word that
satisfies a condition. -/
structure Cuts (condition : Text → Bool) (text name rest : Text) : Prop where
  eq : text = name ++ rest
  isWord : ∀ c ∈ name, isWord c = true
  holds : condition name = true

lemma isLetterAndRun_takeWhile {p : Char → Bool} {n : Nat} {c : Char} {text : Text}
    (hc : c.isAlpha = true) (hlen : n ≤ (text.takeWhile p).length) :
    isLetterAndRun p n (c :: text.takeWhile p) = true := by
  have hall : (text.takeWhile p).all p = true :=
    List.all_eq_true.mpr fun d hd => List.mem_takeWhile_imp hd
  simp only [isLetterAndRun, hc, hlen, hall, decide_true, Bool.and_self]

lemma isSingleWord_of_isLetterAndRun {p : Char → Bool} (hp : ∀ c, p c = true → isWord c = true)
    {n : Nat} {w : Text} (h : isLetterAndRun p n w = true) : IsSingleWord w := by
  cases w with
  | nil => cases h
  | cons c digits =>
      simp only [isLetterAndRun, Bool.and_eq_true] at h
      refine ⟨by simp, ?_⟩
      intro d hd
      rcases List.mem_cons.mp hd with rfl | hd
      · exact isWord_of_isAlpha h.1.1
      · exact hp d (List.all_eq_true.mp h.2 d hd)

lemma readLetterAndRun_sound {p : Char → Bool} (hp : ∀ c, p c = true → isWord c = true)
    {n : Nat} {text name rest : Text} (h : readLetterAndRun p n text = some (name, rest)) :
    Cuts (isLetterAndRun p n) text name rest := by
  cases text with
  | nil => simp [readLetterAndRun] at h
  | cons c text =>
      simp only [readLetterAndRun, leading, Option.bind_eq_bind, Option.bind_eq_some_iff] at h
      obtain ⟨_, hc, _, hlen, h⟩ := h
      replace hc : c.isAlpha = true := (Option.guard_eq_some' _).mp hc
      replace hlen : n ≤ (text.takeWhile p).length := (Option.guard_eq_some' _).mp hlen
      obtain ⟨rfl, rfl⟩ : c :: text.takeWhile p = name ∧ text.dropWhile p = rest := by simpa using h
      have hrun := isLetterAndRun_takeWhile hc hlen
      exact ⟨by simp, (isSingleWord_of_isLetterAndRun hp hrun).isWord, hrun⟩

lemma readLetterAndRun_complete {p : Char → Bool} (hp : ∀ c, p c = true → isWord c = true)
    {n : Nat} {w rest : Text} (h : isLetterAndRun p n w = true) (hr : BeginsOutsideWord rest) :
    readLetterAndRun p n (w ++ rest) = some (w, rest) := by
  cases w with
  | nil => cases h
  | cons c digits =>
      simp only [isLetterAndRun, Bool.and_eq_true, decide_eq_true_eq] at h
      obtain ⟨⟨hc, hlen⟩, hd⟩ := h
      have hlead := leading_append hp (List.all_eq_true.mp hd) hr
      simp [readLetterAndRun, hlead, hc, hlen]

lemma readHexTail_sound {text name rest : Text} (h : readHexTail text = some (name, rest)) :
    Cuts isHexTail text name rest := by
  unfold readHexTail at h
  split at h
  · next text =>
      simp only [leading, Option.bind_eq_bind, Option.bind_eq_some_iff] at h
      obtain ⟨_, hne, h⟩ := h
      replace hne : (!(text.takeWhile isHexDigit).isEmpty) = true :=
        (Option.guard_eq_some' _).mp hne
      obtain ⟨rfl, rfl⟩ : '_' :: text.takeWhile isHexDigit = name
          ∧ text.dropWhile isHexDigit = rest := by simpa using h
      refine ⟨by simp, ?_, ?_⟩
      · intro d hd
        rcases List.mem_cons.mp hd with rfl | hd
        · exact isWord_underscore
        · exact isWord_of_isHexDigit (List.mem_takeWhile_imp hd)
      · rw [isHexTail, hne, Bool.true_and]
        exact List.all_eq_true.mpr fun d hd => List.mem_takeWhile_imp hd
  · cases h

lemma readHexTail_complete {tail rest : Text} (h : isHexTail tail = true)
    (hr : BeginsOutsideWord rest) : readHexTail (tail ++ rest) = some (tail, rest) := by
  unfold isHexTail at h
  split at h
  · next digits =>
      rw [Bool.and_eq_true] at h
      have hlead := leading_append (fun _ => isWord_of_isHexDigit) (List.all_eq_true.mp h.2) hr
      simp only [List.cons_append, readHexTail, hlead, h.1]
      rfl
  · cases h

/-- No pair and perhaps one letter. -/
lemma readOptionalLetter_sound (text : Text) :
    Cuts (isAlternating 0) text (readOptionalLetter text).1 (readOptionalLetter text).2 := by
  cases text with
  | nil => exact ⟨rfl, by simp [readOptionalLetter], rfl⟩
  | cons c rest =>
      by_cases hc : c.isAlpha = true
      · refine ⟨by simp [readOptionalLetter, hc], ?_, ?_⟩
        · simpa [readOptionalLetter, hc] using isWord_of_isAlpha hc
        · simp [readOptionalLetter, hc, isAlternating]
      · refine ⟨by simp [readOptionalLetter, hc], by simp [readOptionalLetter, hc], ?_⟩
        simp [readOptionalLetter, hc, isAlternating]

/-- The leading pairs and the optional letter behind them, as one condition on what was read. -/
lemma readPairs_sound (text : Text) :
    ∀ n, 2 * n ≤ (readPairs text).1.length →
      Cuts (isAlternating n) text
        ((readPairs text).1 ++ (readOptionalLetter (readPairs text).2).1)
        (readOptionalLetter (readPairs text).2).2 := by
  fun_induction readPairs text with
  | case1 c d rest hcd pairs behind heq ih =>
      intro n hn
      rw [Bool.and_eq_true] at hcd
      simp only [heq] at ih
      have hcut := ih (n - 1) (by simp only [List.length_cons] at hn; omega)
      refine ⟨?_, ?_, ?_⟩
      · simpa using hcut.eq
      · intro x hx
        simp only [List.cons_append, List.mem_cons] at hx
        rcases hx with rfl | rfl | hx
        · exact isWord_of_isAlpha hcd.1
        · exact isWord_of_isDigit hcd.2
        · exact hcut.isWord x hx
      · simpa [isAlternating, hcd.1, hcd.2] using hcut.holds
  | case2 c d rest hcd =>
      intro n hn
      obtain rfl : n = 0 := by simp only [List.length_nil] at hn; omega
      exact readOptionalLetter_sound (c :: d :: rest)
  | case3 text hshort =>
      intro n hn
      obtain rfl : n = 0 := by simp only [List.length_nil] at hn; omega
      exact readOptionalLetter_sound text

/-- An alternating word is read as its pairs and its last letter. -/
lemma readPairs_complete {rest : Text} (hr : BeginsOutsideWord rest) (n : Nat) (w : Text) :
    isAlternating n w = true →
      ∃ pairs letter, w = pairs ++ letter ∧ 2 * n ≤ pairs.length ∧
        readPairs (w ++ rest) = (pairs, letter ++ rest) ∧
        readOptionalLetter (letter ++ rest) = (letter, rest) := by
  fun_induction isAlternating n w with
  | case1 n =>
      intro h
      obtain rfl : n = 0 := by simpa using h
      refine ⟨[], [], rfl, by simp, ?_, ?_⟩
      · rcases rest with _ | ⟨c, _ | ⟨d, rest⟩⟩
        · rfl
        · rfl
        · simp [readPairs, hr.not_class fun _ => isWord_of_isAlpha]
      · cases rest with
        | nil => rfl
        | cons c rest =>
            simp [readOptionalLetter, hr.not_class fun _ => isWord_of_isAlpha]
  | case2 n c =>
      intro h
      obtain ⟨rfl, hc⟩ : n = 0 ∧ c.isAlpha = true := by simpa using h
      refine ⟨[], [c], rfl, by simp, ?_, by simp [readOptionalLetter, hc]⟩
      cases rest with
      | nil => rfl
      | cons d rest => simp [readPairs, hr.not_class fun _ => isWord_of_isDigit]
  | case3 n c d w ih =>
      intro h
      simp only [Bool.and_eq_true] at h
      obtain ⟨⟨hc, hd⟩, hw⟩ := h
      obtain ⟨pairs, letter, rfl, hlen, hpairs, hletter⟩ := ih hw
      refine ⟨c :: d :: pairs, letter, rfl, by simp only [List.length_cons]; omega, ?_, hletter⟩
      simp only [List.cons_append, readPairs, hc, hd, hpairs]
      rfl

/-- **What is read has the shape.** -/
theorem read?_sound {shape : Shape} {text name rest : Text}
    (h : shape.read? text = some (name, rest)) : Cuts shape.fits text name rest := by
  cases shape with
  | hexRun => exact readLetterAndRun_sound (fun _ => isWord_of_isHexDigit) h
  | numbered => exact readLetterAndRun_sound (fun _ => isWord_of_isDigit) h
  | shortPrefix =>
      simp only [read?, Option.bind_eq_bind, Option.bind_eq_some_iff] at h
      obtain ⟨_, hne, ⟨tail, behind⟩, htail, h⟩ := h
      replace hne := (Option.guard_eq_some' _).mp hne
      obtain ⟨rfl, rfl⟩ : (text.take 2).takeWhile Char.isAlpha ++ tail = name ∧ behind = rest := by
        simpa using h
      have hcut := readHexTail_sound htail
      have hletters : (text.take 2).takeWhile Char.isAlpha <+: text :=
        (List.takeWhile_prefix _).trans (List.take_prefix _ _)
      refine ⟨?_, ?_, ?_⟩
      · rw [List.append_assoc, ← hcut.eq]
        exact (List.prefix_iff_eq_append.mp hletters).symm
      · intro c hc
        rcases List.mem_append.mp hc with hc | hc
        · exact isWord_of_isAlpha (List.mem_takeWhile_imp hc)
        · exact hcut.isWord c hc
      · rcases text with _ | ⟨c, _ | ⟨d, text⟩⟩
        · simp at hne
        · cases hc : c.isAlpha <;> simp [hc] at hne ⊢
          simp [fits, hc, hcut.holds]
        · cases hc : c.isAlpha <;> simp [hc] at hne ⊢
          cases hd : d.isAlpha <;> simp [fits, hc, hd, hcut.holds]
  | varPrefix =>
      simp only [read?, Option.bind_eq_bind, Option.bind_eq_some_iff] at h
      obtain ⟨behind, hskip, ⟨tail, last⟩, htail, h⟩ := h
      obtain ⟨rfl, rfl⟩ : "var".toList ++ tail = name ∧ last = rest := by simpa using h
      have hcut := readHexTail_sound htail
      refine ⟨?_, ?_, ?_⟩
      · rw [skip?_eq_some_iff.mp hskip, hcut.eq, List.append_assoc]
      · intro c hc
        rcases List.mem_append.mp hc with hc | hc
        · have hletters : "var".toList.all isWord = true := by decide
          exact List.all_eq_true.mp hletters c hc
        · exact hcut.isWord c hc
      · simpa [fits] using hcut.holds
  | alternating =>
      simp only [read?, Option.bind_eq_bind, Option.bind_eq_some_iff] at h
      obtain ⟨_, hlen, h⟩ := h
      replace hlen := (Option.guard_eq_some' _).mp hlen
      have hcut := readPairs_sound text 3 hlen
      obtain ⟨rfl, rfl⟩ := Prod.mk.inj (Option.some.inj h)
      exact ⟨hcut.eq, hcut.isWord, by simpa [fits] using hcut.holds⟩

lemma exists_of_fits_varPrefix {w : Text} (h : varPrefix.fits w = true) :
    ∃ tail, w = 'v' :: 'a' :: 'r' :: tail ∧ isHexTail tail = true := by
  unfold fits at h
  split at h <;> simp_all

/-- **A word of the shape is read off whole.** -/
theorem read?_complete {shape : Shape} {w rest : Text} (h : shape.fits w = true)
    (hr : BeginsOutsideWord rest) : shape.read? (w ++ rest) = some (w, rest) := by
  cases shape with
  | hexRun => exact readLetterAndRun_complete (fun _ => isWord_of_isHexDigit) h hr
  | numbered => exact readLetterAndRun_complete (fun _ => isWord_of_isDigit) h hr
  | shortPrefix =>
      cases w with
      | nil => simp [fits] at h
      | cons c tail =>
          simp only [fits, Bool.and_eq_true, Bool.or_eq_true] at h
          obtain ⟨hc, htail | ⟨hd, htail⟩⟩ := h
          -- one letter: the underscore behind it ends the letters
          · have hread := readHexTail_complete htail hr
            cases tail with
            | nil => simp [isHexTail] at htail
            | cons d tail =>
                have hd : d.isAlpha = false := by
                  unfold isHexTail at htail
                  split at htail
                  · next heq => rw [(List.cons.inj heq).1]; rfl
                  · cases htail
                rw [List.cons_append] at hread
                simp [read?, hc, hd, hread]
          · have hread := readHexTail_complete htail hr
            cases tail with
            | nil => simp at hd
            | cons d tail =>
                have hd' : d.isAlpha = true := by simpa using hd
                rw [List.tail_cons] at hread
                simp [read?, hc, hd', hread]
  | varPrefix =>
      obtain ⟨tail, rfl, htail⟩ := exists_of_fits_varPrefix h
      have hread := readHexTail_complete htail hr
      have hskip : skip? "var".toList ('v' :: 'a' :: 'r' :: tail ++ rest) = some (tail ++ rest) :=
        skip?_eq_some_iff.mpr rfl
      simp only [read?, hskip, Option.bind_eq_bind, Option.bind_some, hread]
      rfl
  | alternating =>
      have hw : isAlternating 3 w = true := by simpa [fits] using h
      obtain ⟨pairs, letter, rfl, hlen, hpairs, hletter⟩ := readPairs_complete hr 3 w hw
      simp only [read?, hpairs, hletter]
      simp [hlen]

end Shape

/-! ## Searching a text for generated names -/

namespace Shape

@[simp] lemma fits_nil (shape : Shape) : shape.fits [] = false := by cases shape <;> rfl

lemma isSingleWord_of_fits {shape : Shape} {w : Text} (h : shape.fits w = true) :
    IsSingleWord w := by
  have hend : BeginsOutsideWord [] := by simp [BeginsOutsideWord]
  have hread : shape.read? w = some (w, []) := by simpa using read?_complete h hend
  refine ⟨?_, (read?_sound hread).isWord⟩
  rintro rfl
  simp at h

/-- **A detector finds the words of its shape.**  What it reads between two word edges is the whole
word that begins there: a shorter start of the word has no edge behind it. -/
theorem detector_eq_wordPattern (shape : Shape) : shape.detector = wordPattern shape.fits := by
  funext before text
  have hunfit : (∀ rest, shape.read? text ≠ some (text.takeWhile isWord, rest)) →
      shape.fits (text.takeWhile isWord) = false := by
    intro hread
    rw [Bool.eq_false_iff]
    intro hfits
    exact hread _ (by simpa using read?_complete hfits (beginsOutsideWord_dropWhile text))
  simp only [detector, wordPattern, Option.bind_eq_bind]
  cases hread : shape.read? text with
  | none =>
      have hfits := hunfit fun rest => by simp [hread]
      simp [hfits]
  | some found =>
      obtain ⟨name, rest⟩ := found
      have hcut := read?_sound hread
      have hedges := isWordEdge_both_eq (isSingleWord_of_fits hcut.holds) rest before
      rw [← hcut.eq] at hedges
      by_cases hname : text.takeWhile isWord = name
      · rw [hname, beq_self_eq_true, Bool.and_true] at hedges
        rw [hname, hcut.holds, Bool.and_true, ← hedges]
        cases isWordEdge before text.head? <;> cases h : isWordEdge name.getLast? rest.head? <;>
          simp [h]
      · have hfits := hunfit fun rest' => by
          rw [hread]
          intro heq
          exact hname (Prod.mk.inj (Option.some.inj heq)).1.symm
        rw [beq_eq_false_iff_ne.mpr hname, Bool.and_false] at hedges
        rw [hfits, Bool.and_false]
        cases hfirst : isWordEdge before text.head? <;>
          cases hlast : isWordEdge name.getLast? rest.head? <;>
          simp [hfirst, hlast] at hedges ⊢

end Shape

/-- **The generated names of a text are its words with a shape**, shape after shape, and in the
order of the text within a shape. -/
theorem generatedNames_eq (text : Text) :
    generatedNames text = Shape.all.flatMap fun shape => (words text).filter shape.fits := by
  rw [generatedNames]
  congr 1
  funext shape
  rw [Shape.namesIn, shape.detector_eq_wordPattern, finds_wordPattern shape.fits_nil]

lemma mem_generatedNames {text w : Text} :
    w ∈ generatedNames text ↔ w ∈ words text ∧ isGenerated w = true := by
  rw [generatedNames_eq, isGenerated, List.any_eq_true]
  simp only [List.mem_flatMap, List.mem_filter]
  constructor
  · rintro ⟨shape, hs, hw, hfit⟩
    exact ⟨hw, shape, hs, hfit⟩
  · rintro ⟨hw, shape, hs, hfit⟩
    exact ⟨shape, hs, hw, hfit⟩

lemma isSingleWord_of_isGenerated {w : Text} (h : isGenerated w = true) : IsSingleWord w := by
  obtain ⟨shape, hfit⟩ := isGenerated_iff.mp h
  exact Shape.isSingleWord_of_fits hfit

/-! ## Readable words -/

/-- A word that cannot be the start of a generated name: letters in the second and the third place,
not `var`, and behind its first letter something that is no hexadecimal digit. -/
def isReadable : Text → Bool
  | a :: b :: c :: rest =>
    b.isAlpha && c.isAlpha && [a, b, c] != "var".toList && !(b :: c :: rest).all isHexDigit
  | _ => false

/-- A letter and hexadecimal digits never continue a readable word. -/
lemma isLetterAndRun_of_isReadable {w : Text} (h : isReadable w = true) (n : Nat) (s : Text) :
    Shape.isLetterAndRun isHexDigit n (w ++ s) = false := by
  unfold isReadable at h
  split at h
  · next a b c rest =>
      simp only [Bool.and_eq_true, Bool.not_eq_true'] at h
      have hnot : ((b :: c :: rest) ++ s).all isHexDigit = false := by
        rw [List.all_append, h.2, Bool.false_and]
      simp only [List.cons_append] at hnot ⊢
      rw [Shape.isLetterAndRun, hnot, Bool.and_false]
  · cases h

/-- **A readable word never looks generated**, whatever is put behind it. -/
theorem Shape.not_fits_of_isReadable {w : Text} (h : isReadable w = true) (s : Text)
    (shape : Shape) : shape.fits (w ++ s) = false := by
  have hrun := isLetterAndRun_of_isReadable h
  unfold isReadable at h
  split at h
  · next a b c rest =>
      simp only [Bool.and_eq_true] at h
      obtain ⟨⟨⟨hb, hc⟩, hvar⟩, -⟩ := h
      -- a letter is no decimal digit and no underscore
      have hdigit : b.isDigit = false := by
        simp only [Char.isAlpha, Char.isUpper, Char.isLower, Char.isDigit, Bool.or_eq_true,
          Bool.and_eq_true, Bool.and_eq_false_iff, decide_eq_true_eq, decide_eq_false_iff_not,
          ge_iff_le, UInt32.le_iff_toNat_le] at hb ⊢
        simp at hb ⊢
        omega
      have htail : ∀ {x : Char} (v : Text), x.isAlpha = true → isHexTail (x :: v) = false := by
        intro x v hx
        unfold isHexTail
        split
        · next heq => rw [(List.cons.inj heq).1] at hx; exact absurd hx (by decide)
        · rfl
      cases shape with
      | hexRun => exact hrun 6 s
      | numbered => simp [fits, isLetterAndRun, hdigit]
      | shortPrefix => simp [fits, htail _ hb, htail _ hc]
      | varPrefix =>
          cases hfit : varPrefix.fits (a :: b :: c :: rest ++ s) with
          | false => rfl
          | true =>
              obtain ⟨tail, heq, -⟩ := exists_of_fits_varPrefix hfit
              simp only [List.cons_append, List.cons.injEq] at heq
              obtain ⟨rfl, rfl, rfl, -⟩ := heq
              exact absurd hvar (by decide)
      | alternating => simp [fits, isAlternating, hdigit]
  · cases h

lemma isGenerated_of_isReadable {w : Text} (h : isReadable w = true) (s : Text) :
    isGenerated (w ++ s) = false := by
  rw [Bool.eq_false_iff]
  intro hgen
  obtain ⟨shape, hfit⟩ := isGenerated_iff.mp hgen
  rw [Shape.not_fits_of_isReadable h s shape] at hfit
  cases hfit

end LuaUnveil
