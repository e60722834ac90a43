import LuaUnveil.Proofs.Words

/-!
# What an edit does to the words of a text

A pass that puts something in the place of its finds can only touch the words at the two edges of a
find.  This file turns what happens at one find into what happens to the whole text.

**Edges.**  Where a text is cut outside of words, its words are those of the two parts
(`words_append_of_begins`, `words_append_of_ends`).  Blanks are outside of words, and so is an
operator with blanks around it: `IsSeparator`.

**One scan.**  `scanInduction` goes through a text find by find, with the text before the position
at hand.  `located` lists the finds with the texts before them.

**Edits.**  `WordEdit` says of a pattern and its replacements which words one find loses and which
it brings up.  For a whole scan the losses and the gains add up (`WordEdit.count_words`).
-/

namespace LuaUnveil

/-! ## Edges -/

/-- Whether a text does not end inside of a word. -/
def EndsOutsideWord (text : Text) : Prop := ∀ c ∈ text.getLast?, isWord c = false

lemma BeginsOutsideWord.append {a b : Text} (ha : BeginsOutsideWord a) (hb : BeginsOutsideWord b) :
    BeginsOutsideWord (a ++ b) := by
  cases a with
  | nil => exact hb
  | cons c a => exact fun d hd => ha d hd

lemma BeginsOutsideWord.of_append {a b : Text} (h : BeginsOutsideWord (a ++ b)) :
    BeginsOutsideWord a := by
  cases a with
  | nil => simp [BeginsOutsideWord]
  | cons c a => exact fun d hd => h d hd

lemma EndsOutsideWord.of_append {a b : Text} (h : EndsOutsideWord (a ++ b)) :
    EndsOutsideWord b := by
  by_cases hb : b = []
  · simp [EndsOutsideWord, hb]
  · intro c hc
    exact h c (by rwa [List.getLast?_append_of_ne_nil a hb])

lemma beginsOutsideWord_cons {c : Char} (hc : isWord c = false) (rest : Text) :
    BeginsOutsideWord (c :: rest) := by
  simpa [BeginsOutsideWord] using hc

lemma beginsOutsideWord_iff {text : Text} :
    BeginsOutsideWord text ↔ text.head?.any isWord = false := by
  cases text <;> simp [BeginsOutsideWord]

lemma endsOutsideWord_iff {text : Text} :
    EndsOutsideWord text ↔ text.getLast?.any isWord = false := by
  cases h : text.getLast? <;> simp [EndsOutsideWord, h]

/-- A text that goes on outside of words adds its words behind the others. -/
lemma words_append_of_begins {a b : Text} (hb : BeginsOutsideWord b) :
    words (a ++ b) = words a ++ words b := by
  induction a using wordInduction with
  | nil => simp
  | other c rest hc ih => rw [List.cons_append, words_cons_other hc, words_cons_other hc, ih]
  | word w rest hw hr ih =>
      rw [List.append_assoc, words_append hw (hr.append hb), words_append hw hr, ih,
        List.cons_append]

/-- Characters outside of words add no words. -/
lemma words_append_of_other {a b : Text} (ha : ∀ c ∈ a, isWord c = false) :
    words (a ++ b) = words b := by
  induction a with
  | nil => rfl
  | cons c a ih =>
      obtain ⟨hc, ha⟩ := List.forall_mem_cons.mp ha
      rw [List.cons_append, words_cons_other hc, ih ha]

/-- A character outside of words cuts the words. -/
lemma words_append_cons_other {c : Char} (hc : isWord c = false) (a b : Text) :
    words (a ++ c :: b) = words a ++ words b := by
  rw [words_append_of_begins (beginsOutsideWord_cons hc b), words_cons_other hc]

/-- Behind a text that ends outside of words, another text has its words to itself. -/
lemma words_append_of_ends {a b : Text} (ha : EndsOutsideWord a) :
    words (a ++ b) = words a ++ words b := by
  rcases List.eq_nil_or_concat a with rfl | ⟨front, c, rfl⟩
  · simp
  · have hc : isWord c = false := ha c (by simp)
    rw [List.concat_eq_append, List.append_assoc, List.singleton_append,
      words_append_cons_other hc front b, words_append_cons_other hc front [], words_nil,
      List.append_nil]

/-- The part of a text that reaches back from its end to the edge of a word. -/
def lastWord (text : Text) : Text := (text.reverse.takeWhile isWord).reverse

/-- In front of its last word a text ends outside of words. -/
lemma exists_append_lastWord (a : Text) :
    ∃ front, EndsOutsideWord front ∧ front ++ lastWord a = a := by
  refine ⟨(a.reverse.dropWhile isWord).reverse, ?_, ?_⟩
  · intro c hc
    rw [List.getLast?_reverse] at hc
    exact beginsOutsideWord_dropWhile _ c hc
  · rw [lastWord, ← List.reverse_append, List.takeWhile_append_dropWhile, List.reverse_reverse]

lemma isWord_of_mem_lastWord {a : Text} {c : Char} (hc : c ∈ lastWord a) : isWord c = true :=
  List.mem_takeWhile_imp (List.mem_reverse.mp hc)

/-- Behind a text another one changes its last word only. -/
lemma exists_words_lastWord (a : Text) : ∃ front : List Text, ∀ w y : Text, BeginsOutsideWord y →
    words (a ++ (w ++ y)) = front ++ (words (lastWord a ++ w) ++ words y) := by
  obtain ⟨front, hfront, ha⟩ := exists_append_lastWord a
  refine ⟨words front, fun w y hy => ?_⟩
  rw [← words_append_of_begins hy, ← words_append_of_ends hfront, ← List.append_assoc,
    ← List.append_assoc, ← List.append_assoc, ha]

/-! ### Blanks -/

/-- The codes of the blanks. -/
def blankCodes : List Nat := [
  9, 10, 11, 12, 13, 0x20, 0x85, 0xA0, 0x1680, 0x2000, 0x2001, 0x2002, 0x2003, 0x2004, 0x2005,
  0x2006, 0x2007, 0x2008, 0x2009, 0x200A, 0x2028, 0x2029, 0x202F, 0x205F, 0x3000]

lemma toNat_mem_blankCodes {c : Char} (hc : isBlank c = true) : c.toNat ∈ blankCodes := by
  simp only [isBlank, Bool.or_eq_true, Bool.and_eq_true, decide_eq_true_eq, beq_iff_eq] at hc
  simp only [blankCodes, List.mem_cons, List.not_mem_nil, or_false]
  omega

/-- No blank is part of a word. -/
lemma isWord_of_isBlank {c : Char} (hc : isBlank c = true) : isWord c = false := by
  have hall : ∀ n ∈ blankCodes, isWord (Char.ofNat n) = false := by decide +kernel
  rw [← Char.ofNat_toNat c]
  exact hall _ (toNat_mem_blankCodes hc)

lemma words_append_of_blanks {a b : Text} (ha : ∀ c ∈ a, isBlank c = true) :
    words (a ++ b) = words b :=
  words_append_of_other fun c hc => isWord_of_isBlank (ha c hc)

lemma beginsOutsideWord_of_blanks {a : Text} (ha : ∀ c ∈ a, isBlank c = true) :
    BeginsOutsideWord a :=
  fun c hc => isWord_of_isBlank (ha c (List.mem_of_mem_head? hc))

/-! ### Separators and single words -/

/-- A nonempty text without word characters. -/
structure IsSeparator (sep : Text) : Prop where
  ne_nil : sep ≠ []
  other : ∀ c ∈ sep, isWord c = false

lemma IsSeparator.of_blanks {gap : Text} (hne : gap ≠ []) (h : ∀ c ∈ gap, isBlank c = true) :
    IsSeparator gap := ⟨hne, fun c hc => isWord_of_isBlank (h c hc)⟩

/-- An operator with blanks around it is a separator. -/
lemma IsSeparator.of_operator {left right : Text} {operator : Char}
    (hleft : ∀ c ∈ left, isBlank c = true) (hoperator : isWord operator = false)
    (hright : ∀ c ∈ right, isBlank c = true) : IsSeparator (left ++ operator :: right) := by
  refine ⟨by simp, fun c hc => ?_⟩
  rcases List.mem_append.mp hc with h | h
  · exact isWord_of_isBlank (hleft c h)
  · rcases List.mem_cons.mp h with rfl | h
    · exact hoperator
    · exact isWord_of_isBlank (hright c h)

namespace IsSeparator

variable {sep : Text} (hsep : IsSeparator sep)

include hsep

lemma beginsOutsideWord (b : Text) : BeginsOutsideWord (sep ++ b) := by
  obtain ⟨c, s, rfl⟩ := List.exists_cons_of_ne_nil hsep.ne_nil
  exact beginsOutsideWord_cons (hsep.other c List.mem_cons_self) _

/-- A separator cuts the words. -/
lemma words_append (a b : Text) : words (a ++ (sep ++ b)) = words a ++ words b := by
  rw [words_append_of_begins (hsep.beginsOutsideWord b), words_append_of_other hsep.other]

lemma endsOutsideWord (a : Text) : EndsOutsideWord (a ++ sep) := by
  intro c hc
  rw [List.getLast?_append_of_ne_nil a hsep.ne_nil] at hc
  exact hsep.other c (List.mem_of_getLast? hc)

lemma words_word_append {w : Text} (hw : IsSingleWord w) (b : Text) :
    words (w ++ (sep ++ b)) = w :: words b := by
  rw [LuaUnveil.words_append hw (hsep.beginsOutsideWord b), words_append_of_other hsep.other]

end IsSeparator

lemma IsSingleWord.not_beginsOutsideWord {w : Text} (hw : IsSingleWord w) (b : Text) :
    ¬ BeginsOutsideWord (w ++ b) := by
  obtain ⟨c, v, rfl⟩ := List.exists_cons_of_ne_nil hw.ne_nil
  intro h
  exact absurd (h c (by simp)) (by simp [hw.isWord c List.mem_cons_self])

/-- A text that begins with a word. -/
lemma IsSingleWord.not_beginsOutsideWord_of_isPrefix {w text : Text} (hw : IsSingleWord w)
    (h : w <+: text) (b : Text) : ¬ BeginsOutsideWord (text ++ b) := by
  obtain ⟨more, rfl⟩ := h
  rw [List.append_assoc]
  exact hw.not_beginsOutsideWord _

lemma IsSingleWord.ne_nil_of_isPrefix {w text : Text} (hw : IsSingleWord w) (h : w <+: text) :
    text ≠ [] := by
  rintro rfl
  exact hw.ne_nil (List.prefix_nil.mp h)

/-- A cut outside of words is before a word or behind it. -/
lemma IsSingleWord.eq_nil_or_exists_of_append {w m a b : Text} (hw : IsSingleWord w)
    (h : w ++ m = a ++ b) (hcut : EndsOutsideWord a ∨ BeginsOutsideWord b) :
    a = [] ∨ ∃ a₁, a = w ++ a₁ ∧ m = a₁ ++ b := by
  rcases List.append_eq_append_iff.mp h with ⟨a₁, ha, hm⟩ | ⟨b₁, rfl, rfl⟩
  · exact Or.inr ⟨a₁, ha, hm⟩
  · rcases hcut with hends | hbegins
    · rcases List.eq_nil_or_concat a with rfl | ⟨front, c, rfl⟩
      · exact Or.inl rfl
      · have hc := hw.isWord c (by simp)
        rw [hends c (by simp)] at hc
        cases hc
    · cases b₁ with
      | nil => exact Or.inr ⟨[], by simp, rfl⟩
      | cons c b₁ =>
          have hc := hw.isWord c (by simp)
          rw [hbegins c rfl] at hc
          cases hc

lemma isSingleWord_singleton {c : Char} (hc : isWord c = true) : IsSingleWord [c] :=
  ⟨by simp, by simpa using hc⟩

/-- Whether a text is a single word, as a computation. -/
def isKeyword (w : Text) : Bool := !w.isEmpty && w.all isWord

lemma isSingleWord_of_isKeyword {w : Text} (h : isKeyword w = true) : IsSingleWord w := by
  simp only [isKeyword, Bool.and_eq_true, List.all_eq_true] at h
  exact ⟨by simpa using h.1, h.2⟩

/-! ## One scan -/

variable {α : Type}

/-- What a pattern finds stands at the position, and is not empty. -/
def Pattern.Covers (pattern : Pattern α) : Prop :=
  ∀ before text f, pattern before text = some f →
    f.covered ≠ [] ∧ ∃ rest, text = f.covered ++ rest

/-- **Induction find by find.**  The text before the position is at hand in every case. -/
theorem Pattern.Covers.scanInduction {pattern : Pattern α} (hp : pattern.Covers)
    {motive : Text → Text → Prop} (nil : ∀ a, motive a [])
    (plain : ∀ a c rest, pattern a.getLast? (c :: rest) = none → motive (a ++ [c]) rest →
      motive a (c :: rest))
    (found : ∀ a f rest, f.covered ≠ [] → pattern a.getLast? (f.covered ++ rest) = some f →
      motive (a ++ f.covered) rest → motive a (f.covered ++ rest))
    (a text : Text) : motive a text := by
  induction hn : text.length using Nat.strong_induction_on generalizing a text with
  | _ n ih =>
      cases text with
      | nil => exact nil a
      | cons c rest =>
          cases hask : pattern a.getLast? (c :: rest) with
          | none => exact plain a c rest hask (ih rest.length (by simp at hn; omega) _ rest rfl)
          | some f =>
              obtain ⟨hne, behind, htext⟩ := hp _ _ f hask
              have hlen := congrArg List.length htext
              have hpos := List.length_pos_iff.mpr hne
              rw [List.length_append] at hlen
              rw [htext] at hask ⊢
              exact found a f behind hne hask (ih behind.length (by omega) _ behind rfl)

lemma piecesFrom_plain_of_none {pattern : Pattern α} {a : Text} {c : Char} {rest : Text}
    (h : pattern a.getLast? (c :: rest) = none) :
    piecesFrom pattern 0 a.getLast? (c :: rest)
      = .plain c :: piecesFrom pattern 0 (a ++ [c]).getLast? rest := by
  rw [piecesFrom_plain h, List.getLast?_concat]

lemma piecesFrom_found_of_some {pattern : Pattern α} {a : Text} {f : Found α} {rest : Text}
    (hne : f.covered ≠ []) (h : pattern a.getLast? (f.covered ++ rest) = some f) :
    piecesFrom pattern 0 a.getLast? (f.covered ++ rest)
      = .found f :: piecesFrom pattern 0 (a ++ f.covered).getLast? rest := by
  rw [List.getLast?_append_of_ne_nil a hne]
  obtain ⟨c, w, hcovered⟩ := List.exists_cons_of_ne_nil hne
  rw [hcovered] at h ⊢
  exact piecesFrom_found h hcovered

/-- The finds among pieces, each with the text before it. -/
def locatedFrom : Text → List (Piece α) → List (Text × Found α)
  | _, [] => []
  | a, .plain c :: ps => locatedFrom (a ++ [c]) ps
  | a, .found f :: ps => (a, f) :: locatedFrom (a ++ f.covered) ps

/-- The finds of a pattern in a text, each with the text before it. -/
def located (pattern : Pattern α) (text : Text) : List (Text × Found α) :=
  locatedFrom [] (pieces pattern text)

/-- A located find is an answer of the pattern at its place. -/
lemma exists_of_mem_located {pattern : Pattern α} (hp : pattern.Covers) {text : Text}
    {l : Text × Found α} (hl : l ∈ located pattern text) :
    ∃ rest, text = l.1 ++ (l.2.covered ++ rest) ∧
      pattern l.1.getLast? (l.2.covered ++ rest) = some l.2 := by
  have hfrom : ∀ a t : Text, l ∈ locatedFrom a (piecesFrom pattern 0 a.getLast? t) →
      ∃ rest, a ++ t = l.1 ++ (l.2.covered ++ rest) ∧
        pattern l.1.getLast? (l.2.covered ++ rest) = some l.2 := by
    intro a t
    induction a, t using hp.scanInduction with
    | nil a => simp [locatedFrom]
    | plain a c rest hnone ih =>
        rw [piecesFrom_plain_of_none hnone, locatedFrom]
        simpa using ih
    | found a f rest hne hsome ih =>
        rw [piecesFrom_found_of_some hne hsome, locatedFrom]
        intro h
        rcases List.mem_cons.mp h with rfl | h
        · exact ⟨rest, rfl, hsome⟩
        · simpa using ih h
  simpa using hfrom [] text hl

/-! ## Edits -/

/-- What the finds of a pattern and their replacements do to words.  A find loses some words and
brings up others, which may depend on the text before it. -/
structure WordEdit (pattern : Pattern α) (replacement : Found α → Text)
    (lost gained : Text → Found α → List Text) : Prop where
  covers : pattern.Covers
  /-- Where the text goes on outside of words, it does so after a replacement. -/
  outside : ∀ {before : Option Char} {text : Text} {f : Found α}, pattern before text = some f →
    BeginsOutsideWord text → ∀ y, BeginsOutsideWord (replacement f ++ y)
  /-- The words before, with a text behind that goes on like the text behind the find. -/
  count : ∀ {a : Text} {f : Found α} {rest y : Text},
    pattern a.getLast? (f.covered ++ rest) = some f →
    (BeginsOutsideWord rest → BeginsOutsideWord y) → ∀ w : Text,
      (words (a ++ (replacement f ++ y))).count w + (lost a f).count w
        = (words (a ++ (f.covered ++ y))).count w + (gained a f).count w

namespace WordEdit

variable {pattern : Pattern α} {replacement : Found α → Text}
  {lost gained : Text → Found α → List Text} (edit : WordEdit pattern replacement lost gained)

include edit

lemma beginsOutsideWord_assemble {text : Text} (h : BeginsOutsideWord text) (a : Text) :
    BeginsOutsideWord (assemble replacement (piecesFrom pattern 0 a.getLast? text)) := by
  cases text with
  | nil => simpa using h
  | cons c rest =>
      cases hask : pattern a.getLast? (c :: rest) with
      | none =>
          rw [piecesFrom_plain hask, assemble_plain_cons]
          exact beginsOutsideWord_cons (h c (by simp)) _
      | some f =>
          obtain ⟨hne, behind, htext⟩ := edit.covers _ _ f hask
          have houtside := edit.outside hask h
          rw [htext] at hask ⊢
          rw [piecesFrom_found_of_some hne hask, assemble_found_cons]
          exact houtside _

/-- **The losses and the gains of the finds add up.** -/
theorem count_words (text w : Text) :
    (words (replaceAll pattern replacement text)).count w
        + ((located pattern text).flatMap fun l => lost l.1 l.2).count w
      = (words text).count w
        + ((located pattern text).flatMap fun l => gained l.1 l.2).count w := by
  -- behind any text, so that what was passed over can be put before the position
  have hbehind : ∀ a t : Text,
      (words (a ++ assemble replacement (piecesFrom pattern 0 a.getLast? t))).count w
          + ((locatedFrom a (piecesFrom pattern 0 a.getLast? t)).flatMap
              fun l => lost l.1 l.2).count w
        = (words (a ++ t)).count w
          + ((locatedFrom a (piecesFrom pattern 0 a.getLast? t)).flatMap
              fun l => gained l.1 l.2).count w := by
    intro a t
    induction a, t using edit.covers.scanInduction with
    | nil a => simp [locatedFrom]
    | plain a c rest hnone ih =>
        rw [piecesFrom_plain_of_none hnone, locatedFrom, assemble_plain_cons]
        simpa using ih
    | found a f rest hne hsome ih =>
        have hfind :=
          edit.count hsome (fun h => edit.beginsOutsideWord_assemble h (a ++ f.covered)) w
        simp only [piecesFrom_found_of_some hne hsome, locatedFrom, assemble_found_cons,
          List.flatMap_cons, List.count_append]
        rw [List.append_assoc, List.append_assoc] at ih
        omega
  exact hbehind [] text

end WordEdit

namespace WordEdit

variable {pattern : Pattern α} {replacement : Found α → Text} {lost : Text → Found α → List Text}
  (edit : WordEdit pattern replacement lost fun _ _ => [])

include edit

/-- Edits that bring up no words take theirs from the words of the text. -/
theorem count_words_add_lost (text w : Text) :
    (words (replaceAll pattern replacement text)).count w
        + ((located pattern text).flatMap fun l => lost l.1 l.2).count w
      = (words text).count w := by
  have hgained : ((located pattern text).flatMap fun _ => ([] : List Text)) = [] := by simp
  rw [edit.count_words text w, hgained, List.count_nil, Nat.add_zero]

lemma words_subset (text : Text) :
    words (replaceAll pattern replacement text) ⊆ words text := by
  intro w hw
  have hcount := edit.count_words_add_lost text w
  have hpos := List.count_pos_iff.mpr hw
  exact List.count_pos_iff.mp (by omega)

end WordEdit

end LuaUnveil
