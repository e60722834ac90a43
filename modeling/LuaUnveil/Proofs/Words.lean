import LuaUnveil.Naming.Table
import LuaUnveil.Proofs.Scan

/-!
# Words of a text, and what is put in their place

A text is a sequence of words with other characters between them.  Renaming is a map on words, and
this file says what such a map does to a text.

**Cutting.**  `words` lists the words of a text, and `wordInduction` goes through a text word by
word.  All proofs about words are inductions of that form.

**Mapping.**  `mapWords f` puts `f w` in the place of every word `w`, all at once, and leaves
everything else where it is.  Two such maps compose (`mapWords_mapWords`), and the words of the
result are the images of the words (`words_mapWords`).

**Scanning.**  `wordPattern p` finds the words with a property.  A scan for it sees exactly those
words (`finds_wordPattern`), and replacing its finds is a map on words (`replaceAll_wordPattern`).
A token that is a single word is such a pattern: `wholeToken_eq_wordPattern`.
-/

namespace LuaUnveil

/-! ## Cutting a text into words -/

/-- The maximal runs of word characters of a text, in order. -/
def words : Text → List Text
  | [] => []
  | c :: rest =>
    if isWord c then (c :: rest.takeWhile isWord) :: words (rest.dropWhile isWord) else words rest
termination_by text => text.length
decreasing_by
  · exact Nat.lt_succ_of_le (List.dropWhile_suffix isWord).length_le
  · simp

/-- Put `f w` in the place of every word `w` of a text, all at once. -/
def mapWords (f : Text → Text) : Text → Text
  | [] => []
  | c :: rest =>
    if isWord c then f (c :: rest.takeWhile isWord) ++ mapWords f (rest.dropWhile isWord)
    else c :: mapWords f rest
termination_by text => text.length
decreasing_by
  · exact Nat.lt_succ_of_le (List.dropWhile_suffix isWord).length_le
  · simp

/-- A nonempty text of word characters only: it is a word wherever no other one touches it. -/
structure IsSingleWord (w : Text) : Prop where
  ne_nil : w ≠ []
  isWord : ∀ c ∈ w, isWord c = true

/-- Whether a text does not begin with a word. -/
def BeginsOutsideWord (text : Text) : Prop := ∀ c ∈ text.head?, isWord c = false

lemma beginsOutsideWord_dropWhile (text : Text) : BeginsOutsideWord (text.dropWhile isWord) := by
  intro c hc
  have h := List.head?_dropWhile_not isWord text
  rw [Option.mem_def.mp hc] at h
  simpa using h

lemma BeginsOutsideWord.takeWhile_eq {text : Text} (h : BeginsOutsideWord text) :
    text.takeWhile isWord = [] := by
  cases text with
  | nil => rfl
  | cons c rest => simp [h c (by simp)]

lemma BeginsOutsideWord.dropWhile_eq {text : Text} (h : BeginsOutsideWord text) :
    text.dropWhile isWord = text := by
  cases text with
  | nil => rfl
  | cons c rest => simp [h c (by simp)]

/-- The longest run of word characters of a text ends where a word ends. -/
lemma takeWhile_append_eq {w rest : Text} (hw : ∀ c ∈ w, isWord c = true)
    (hr : BeginsOutsideWord rest) : (w ++ rest).takeWhile isWord = w := by
  rw [List.takeWhile_append_of_pos hw, hr.takeWhile_eq, List.append_nil]

lemma dropWhile_append_eq {w rest : Text} (hw : ∀ c ∈ w, isWord c = true)
    (hr : BeginsOutsideWord rest) : (w ++ rest).dropWhile isWord = rest := by
  rw [List.dropWhile_append_of_pos hw, hr.dropWhile_eq]

/-- **Induction word by word.**  A text is empty, or begins with a character outside of words, or
begins with a whole word. -/
theorem wordInduction {motive : Text → Prop} (nil : motive [])
    (other : ∀ c rest, isWord c = false → motive rest → motive (c :: rest))
    (word : ∀ w rest, IsSingleWord w → BeginsOutsideWord rest → motive rest → motive (w ++ rest))
    (text : Text) : motive text := by
  induction text using words.induct with
  | case1 => exact nil
  | case2 c rest hc ih =>
      have hsplit : c :: rest = (c :: rest.takeWhile isWord) ++ rest.dropWhile isWord := by simp
      rw [hsplit]
      refine word _ _ ⟨by simp, ?_⟩ (beginsOutsideWord_dropWhile rest) ih
      intro d hd
      rcases List.mem_cons.mp hd with rfl | hd
      · exact hc
      · exact List.mem_takeWhile_imp hd
  | case3 c rest hc ih => exact other c rest (by simpa using hc) ih

/-- The cases of this induction alone. -/
theorem wordCases {motive : Text → Prop} (nil : motive [])
    (other : ∀ c rest, isWord c = false → motive (c :: rest))
    (word : ∀ w rest, IsSingleWord w → BeginsOutsideWord rest → motive (w ++ rest))
    (text : Text) : motive text :=
  wordInduction nil (fun c rest hc _ => other c rest hc) (fun w rest hw hr _ => word w rest hw hr)
    text

/-! ### The two functions on such a text -/

@[simp] lemma words_nil : words [] = [] := by simp [words]

lemma words_cons_other {c : Char} (hc : isWord c = false) (rest : Text) :
    words (c :: rest) = words rest := by simp [words, hc]

lemma words_cons_word {c : Char} (hc : isWord c = true) (rest : Text) :
    words (c :: rest) = (c :: rest.takeWhile isWord) :: words (rest.dropWhile isWord) := by
  rw [words, if_pos hc]

lemma words_append {w rest : Text} (hw : IsSingleWord w) (hr : BeginsOutsideWord rest) :
    words (w ++ rest) = w :: words rest := by
  obtain ⟨c, v, rfl⟩ := List.exists_cons_of_ne_nil hw.ne_nil
  have hv : ∀ d ∈ v, isWord d = true := fun d hd => hw.isWord d (List.mem_cons_of_mem c hd)
  rw [List.cons_append, words_cons_word (hw.isWord c List.mem_cons_self),
    takeWhile_append_eq hv hr, dropWhile_append_eq hv hr]

@[simp] lemma mapWords_nil (f : Text → Text) : mapWords f [] = [] := by simp [mapWords]

lemma mapWords_cons_other (f : Text → Text) {c : Char} (hc : isWord c = false) (rest : Text) :
    mapWords f (c :: rest) = c :: mapWords f rest := by simp [mapWords, hc]

lemma mapWords_append (f : Text → Text) {w rest : Text} (hw : IsSingleWord w)
    (hr : BeginsOutsideWord rest) : mapWords f (w ++ rest) = f w ++ mapWords f rest := by
  obtain ⟨c, v, rfl⟩ := List.exists_cons_of_ne_nil hw.ne_nil
  have hv : ∀ d ∈ v, isWord d = true := fun d hd => hw.isWord d (List.mem_cons_of_mem c hd)
  rw [List.cons_append, mapWords, if_pos (hw.isWord c List.mem_cons_self),
    takeWhile_append_eq hv hr, dropWhile_append_eq hv hr]

/-- What the words of a text are made of. -/
lemma isSingleWord_of_mem_words {text w : Text} : w ∈ words text → IsSingleWord w := by
  induction text using wordInduction with
  | nil => simp
  | other c rest hc ih => rw [words_cons_other hc]; exact ih
  | word v rest hv hr ih =>
      rw [words_append hv hr]
      intro h
      rcases List.mem_cons.mp h with rfl | h
      · exact hv
      · exact ih h

/-! ## Mapping the words of a text -/

lemma BeginsOutsideWord.mapWords {text : Text} (h : BeginsOutsideWord text) (f : Text → Text) :
    BeginsOutsideWord (mapWords f text) := by
  cases text with
  | nil => simpa using h
  | cons c rest =>
      have hc : isWord c = false := h c (by simp)
      rw [mapWords_cons_other f hc]
      intro d hd
      simp only [List.head?_cons, Option.mem_def, Option.some.injEq] at hd
      rw [← hd]
      exact hc

/-- Only the words that the text has matter. -/
lemma mapWords_congr {f g : Text → Text} {text : Text} (h : ∀ w ∈ words text, f w = g w) :
    mapWords f text = mapWords g text := by
  induction text using wordInduction with
  | nil => simp
  | other c rest hc ih =>
      rw [words_cons_other hc] at h
      rw [mapWords_cons_other f hc, mapWords_cons_other g hc, ih h]
  | word w rest hw hr ih =>
      rw [words_append hw hr] at h
      rw [mapWords_append f hw hr, mapWords_append g hw hr, h w List.mem_cons_self,
        ih fun v hv => h v (List.mem_cons_of_mem w hv)]

@[simp] lemma mapWords_id (text : Text) : mapWords (fun w => w) text = text := by
  induction text using wordInduction with
  | nil => simp
  | other c rest hc ih => rw [mapWords_cons_other _ hc, ih]
  | word w rest hw hr ih => rw [mapWords_append _ hw hr, ih]

/-- **Two maps of words one after the other are one map of words.**  The first map may take a word
away, but must not put in anything that is not made of word characters. -/
theorem mapWords_mapWords {f g : Text → Text} {text : Text}
    (hf : ∀ w ∈ words text, ∀ c ∈ f w, isWord c = true) (hg : g [] = []) :
    mapWords g (mapWords f text) = mapWords (fun w => g (f w)) text := by
  induction text using wordInduction with
  | nil => simp
  | other c rest hc ih =>
      rw [words_cons_other hc] at hf
      rw [mapWords_cons_other f hc, mapWords_cons_other g hc, mapWords_cons_other _ hc, ih hf]
  | word w rest hw hr ih =>
      rw [words_append hw hr] at hf
      have hrest := ih fun v hv => hf v (List.mem_cons_of_mem w hv)
      have himage := hf w List.mem_cons_self
      rw [mapWords_append f hw hr, mapWords_append _ hw hr]
      by_cases he : f w = []
      · rw [he, hg, List.nil_append, List.nil_append, hrest]
      · rw [mapWords_append g ⟨he, himage⟩ (hr.mapWords f), hrest]

/-- The words of the result are the images of the words. -/
theorem words_mapWords {f : Text → Text} {text : Text}
    (hf : ∀ w ∈ words text, IsSingleWord (f w)) :
    words (mapWords f text) = (words text).map f := by
  induction text using wordInduction with
  | nil => simp
  | other c rest hc ih =>
      rw [words_cons_other hc] at hf ⊢
      rw [mapWords_cons_other f hc, words_cons_other hc, ih hf]
  | word w rest hw hr ih =>
      rw [words_append hw hr] at hf ⊢
      rw [mapWords_append f hw hr, words_append (hf w List.mem_cons_self) (hr.mapWords f),
        List.map_cons, ih fun v hv => hf v (List.mem_cons_of_mem w hv)]

/-! ## Scanning for words -/

/-- A whole word with a property. -/
def wordPattern (p : Text → Bool) : Pattern Unit := fun before text =>
  if !before.any isWord && p (text.takeWhile isWord) then some ⟨(), text.takeWhile isWord⟩ else none

section WordPattern

variable {p : Text → Bool}

lemma wordPattern_inside {before : Option Char} (h : before.any isWord = true) (text : Text) :
    wordPattern p before text = none := by simp [wordPattern, h]

lemma wordPattern_outside (hp : p [] = false) {text : Text} (h : BeginsOutsideWord text)
    (before : Option Char) : wordPattern p before text = none := by
  simp [wordPattern, h.takeWhile_eq, hp]

lemma wordPattern_word {w rest : Text} (hw : IsSingleWord w) (hr : BeginsOutsideWord rest) :
    wordPattern p none (w ++ rest) = if p w then some ⟨(), w⟩ else none := by
  simp [wordPattern, takeWhile_append_eq hw.isWord hr]

/-- Outside of words the character before the position does not matter. -/
lemma piecesFrom_wordPattern_outside (hp : p [] = false) {text : Text}
    (h : BeginsOutsideWord text) (before : Option Char) :
    piecesFrom (wordPattern p) 0 before text = pieces (wordPattern p) text := by
  cases text with
  | nil => simp [pieces]
  | cons c rest =>
      rw [pieces, piecesFrom_plain (wordPattern_outside hp h before),
        piecesFrom_plain (wordPattern_outside hp h none)]

/-- Inside of a word nothing is found. -/
lemma piecesFrom_wordPattern_inside (hp : p [] = false) {rest : Text}
    (hr : BeginsOutsideWord rest) :
    ∀ (v : Text) (before : Option Char), (∀ c ∈ v, isWord c = true) → before.any isWord = true →
      piecesFrom (wordPattern p) 0 before (v ++ rest)
        = v.map .plain ++ pieces (wordPattern p) rest
  | [], before, _, _ => by simpa using piecesFrom_wordPattern_outside hp hr before
  | c :: v, before, hv, hb => by
      have hc : (some c).any isWord = true := by simpa using hv c List.mem_cons_self
      rw [List.cons_append, piecesFrom_plain (wordPattern_inside hb _),
        piecesFrom_wordPattern_inside hp hr v (some c)
          (fun d hd => hv d (List.mem_cons_of_mem c hd)) hc]
      rfl

lemma pieces_wordPattern_other (hp : p [] = false) {c : Char} (hc : isWord c = false)
    (rest : Text) :
    pieces (wordPattern p) (c :: rest) = .plain c :: pieces (wordPattern p) rest := by
  have hout : BeginsOutsideWord (c :: rest) := by simpa [BeginsOutsideWord] using hc
  rw [pieces, piecesFrom_plain (wordPattern_outside hp hout none), pieces]
  exact congrArg _ (piecesFrom_congr (fun text => by simp [wordPattern, hc]) rest)

lemma pieces_wordPattern_of_pos (hp : p [] = false) {w rest : Text} (hw : IsSingleWord w)
    (hr : BeginsOutsideWord rest) (h : p w = true) :
    pieces (wordPattern p) (w ++ rest) = .found ⟨(), w⟩ :: pieces (wordPattern p) rest := by
  have hfind := wordPattern_word (p := p) hw hr
  rw [if_pos h] at hfind
  obtain ⟨c, v, rfl⟩ := List.exists_cons_of_ne_nil hw.ne_nil
  rw [List.cons_append] at hfind ⊢
  rw [pieces, piecesFrom_found hfind rfl, piecesFrom_wordPattern_outside hp hr]

lemma pieces_wordPattern_of_neg (hp : p [] = false) {w rest : Text} (hw : IsSingleWord w)
    (hr : BeginsOutsideWord rest) (h : p w = false) :
    pieces (wordPattern p) (w ++ rest) = w.map .plain ++ pieces (wordPattern p) rest := by
  have hfind := wordPattern_word (p := p) hw hr
  rw [if_neg (by simp [h])] at hfind
  obtain ⟨c, v, rfl⟩ := List.exists_cons_of_ne_nil hw.ne_nil
  rw [List.cons_append] at hfind ⊢
  rw [pieces, piecesFrom_plain hfind,
    piecesFrom_wordPattern_inside hp hr v (some c)
      (fun d hd => hw.isWord d (List.mem_cons_of_mem c hd))
      (by simpa using hw.isWord c List.mem_cons_self)]
  rfl

/-- **A scan for words sees every word with the property, and nothing else.** -/
theorem finds_wordPattern (hp : p [] = false) (text : Text) :
    (finds (pieces (wordPattern p) text)).map (·.covered) = (words text).filter p := by
  induction text using wordInduction with
  | nil => simp [pieces]
  | other c rest hc ih =>
      rw [pieces_wordPattern_other hp hc, finds_plain_cons, words_cons_other hc, ih]
  | word w rest hw hr ih =>
      rw [words_append hw hr]
      cases h : p w with
      | true =>
          rw [pieces_wordPattern_of_pos hp hw hr h, finds_found_cons, List.map_cons, ih,
            List.filter_cons_of_pos h]
      | false =>
          rw [pieces_wordPattern_of_neg hp hw hr h, finds_plains_append, ih,
            List.filter_cons_of_neg (by simp [h])]

/-- **Replacing the finds of such a scan is a map on words.** -/
theorem replaceAll_wordPattern (hp : p [] = false) (r : Found Unit → Text) (text : Text) :
    replaceAll (wordPattern p) r text
      = mapWords (fun w => if p w then r ⟨(), w⟩ else w) text := by
  induction text using wordInduction with
  | nil => simp [replaceAll, pieces]
  | other c rest hc ih =>
      rw [replaceAll, pieces_wordPattern_other hp hc, assemble_plain_cons,
        mapWords_cons_other _ hc, ← ih, replaceAll]
  | word w rest hw hr ih =>
      rw [mapWords_append _ hw hr, ← ih, replaceAll, replaceAll]
      cases h : p w with
      | true => rw [pieces_wordPattern_of_pos hp hw hr h, assemble_found_cons, if_pos rfl]
      | false => rw [pieces_wordPattern_of_neg hp hw hr h, assemble_plains_append]; rfl

end WordPattern

/-! ## Between two word edges -/

/-- A name made of word characters stands between two word edges exactly when it is the whole word
that begins at its place. -/
lemma isWordEdge_both_eq {name : Text} (hn : IsSingleWord name) (rest : Text)
    (before : Option Char) :
    (isWordEdge before (name ++ rest).head? && isWordEdge name.getLast? rest.head?)
      = (!before.any isWord && (name ++ rest).takeWhile isWord == name) := by
  have hfirst : (name ++ rest).head?.any isWord = true := by
    obtain ⟨c, v, rfl⟩ := List.exists_cons_of_ne_nil hn.ne_nil
    simpa using hn.isWord c List.mem_cons_self
  have hlast : name.getLast?.any isWord = true := by
    rw [List.getLast?_eq_some_getLast hn.ne_nil]
    simpa using hn.isWord _ (List.getLast_mem hn.ne_nil)
  have hbehind : ((name ++ rest).takeWhile isWord == name) = !rest.head?.any isWord := by
    rw [List.takeWhile_append_of_pos hn.isWord]
    cases rest with
    | nil => simp
    | cons c rest => cases hc : isWord c <;> simp [hc]
  simp only [isWordEdge, hfirst, hlast, hbehind]
  simp

/-- A token that is a single word is found exactly where it is a whole word. -/
theorem wholeToken_eq_wordPattern {token : Text} (ht : IsSingleWord token) :
    wholeToken token = wordPattern (· == token) := by
  funext before text
  simp only [wholeToken, wordPattern]
  cases h : skip? token text with
  | some rest =>
      obtain rfl := skip?_eq_some_iff.mp h
      simp only [isWordEdge_both_eq ht rest before]
      by_cases he : (token ++ rest).takeWhile isWord = token
      · simp only [he]
      · simp [he]
  | none =>
      have hne : text.takeWhile isWord ≠ token := by
        intro he
        have : skip? token text = some (text.dropWhile isWord) := by
          rw [skip?_eq_some_iff, ← he, List.takeWhile_append_dropWhile]
        rw [h] at this
        cases this
      simp [hne]

/-- **Replacing a token that is a single word is a map on words.** -/
theorem replaceToken_eq_mapWords {token : Text} (ht : IsSingleWord token)
    (replacement text : Text) :
    replaceToken token replacement text
      = mapWords (fun w => if w = token then replacement else w) text := by
  have hreplace := replaceAll_wordPattern (p := (· == token)) (by simpa using ht.ne_nil.symm)
    (fun _ => replacement) text
  rw [← wholeToken_eq_wordPattern ht] at hreplace
  obtain ⟨c, v, rfl⟩ := List.exists_cons_of_ne_nil ht.ne_nil
  rw [replaceToken, hreplace]
  simp

end LuaUnveil
