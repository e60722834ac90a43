import LuaUnveil.Proofs.Places
import LuaUnveil.Proofs.Spacing

/-!
# What the removal of dead code does to the words of a text

**Forms.**  `IsEmptyFunction` and `IsNilDeclaration` say what text is dropped, and whatever is found
has one of these forms (`emptyFunction_sound`, `nilLocal_sound`).  A declaration is found wherever
one begins (`IsNilHead.found`, `nilLocal_cases`).

**Empty functions.**  The keyword is found also at the end of a longer word.  The front of that word
stays then, and is a word of its own: `cutWords`.  These come up, the words of the functions go, and
nothing else happens to the words (`count_words_dropEmptyFunctions`).

**Declarations.**  One that holds nothing is found as a whole, from the start of a word to a place
outside of words.  It is dropped with its words and with nothing else (`count_words_dropNilLocals`).
-/

namespace LuaUnveil

/-! ## The two forms -/

/-- The text of a named function without parameters and without a body. -/
inductive IsEmptyFunction : Text → Prop
  | intro {gap name beforeOpen inside beforeEnd : Text} (hgap : gap ≠ [])
      (hgap_blank : ∀ c ∈ gap, isBlank c = true) (hname : IsSingleWord name)
      (hopen : ∀ c ∈ beforeOpen, isBlank c = true) (hinside : ∀ c ∈ inside, isBlank c = true)
      (hend : ∀ c ∈ beforeEnd, isBlank c = true) :
      IsEmptyFunction ("function".toList ++ gap ++ name ++ beforeOpen ++ '(' :: inside ++
        ')' :: beforeEnd ++ "end".toList)

/-- The parts of a declaration through its `nil`: blanks, a name, and blanks around the sign. -/
structure IsNilHead (gap name left right : Text) : Prop where
  gap_ne_nil : gap ≠ []
  gap_blank : ∀ c ∈ gap, isBlank c = true
  name_word : IsSingleWord name
  left_blank : ∀ c ∈ left, isBlank c = true
  right_blank : ∀ c ∈ right, isBlank c = true

/-- The text of a declaration through its `nil`. -/
def nilHead (gap name left right : Text) : Text :=
  "local".toList ++ gap ++ name ++ left ++ '=' :: right ++ "nil".toList

/-- The text of a declaration that holds nothing, with blanks behind it, and perhaps with a
semicolon and more blanks. -/
inductive IsNilDeclaration : Text → Prop
  | bare {gap name left right behind : Text} (hhead : IsNilHead gap name left right)
      (hbehind : ∀ c ∈ behind, isBlank c = true) :
      IsNilDeclaration (nilHead gap name left right ++ behind)
  | closed {gap name left right behind more : Text} (hhead : IsNilHead gap name left right)
      (hbehind : ∀ c ∈ behind, isBlank c = true) (hmore : ∀ c ∈ more, isBlank c = true) :
      IsNilDeclaration (nilHead gap name left right ++ behind ++ ';' :: more)

lemma IsEmptyFunction.keyword_isPrefix {w : Text} (h : IsEmptyFunction w) :
    "function".toList <+: w := by
  cases h
  simp only [List.append_assoc]
  exact List.prefix_append _ _

lemma isSingleWord_function : IsSingleWord "function".toList :=
  isSingleWord_of_isKeyword (by decide)

lemma IsEmptyFunction.ne_nil {w : Text} (h : IsEmptyFunction w) : w ≠ [] :=
  isSingleWord_function.ne_nil_of_isPrefix h.keyword_isPrefix

lemma IsEmptyFunction.not_beginsOutsideWord {w : Text} (h : IsEmptyFunction w) (rest : Text) :
    ¬ BeginsOutsideWord (w ++ rest) :=
  isSingleWord_function.not_beginsOutsideWord_of_isPrefix h.keyword_isPrefix rest

/-- The parts of a head one after the other, with a text behind it. -/
lemma nilHead_append (gap name left right rest : Text) :
    nilHead gap name left right ++ rest = "local".toList ++
      (gap ++ (name ++ (left ++ (['='] ++ (right ++ ("nil".toList ++ rest)))))) := by
  show "local".toList ++ gap ++ name ++ left ++ '=' :: right ++ "nil".toList ++ rest = _
  simp only [List.append_assoc, List.cons_append, List.nil_append]

/-- The part of a declaration before its sign. -/
def nilTarget (gap name left : Text) : Text := "local".toList ++ (gap ++ (name ++ left))

/-- A head is cut at its sign. -/
lemma nilHead_append_eq (gap name left right rest : Text) :
    nilHead gap name left right ++ rest
      = nilTarget gap name left ++ '=' :: (right ++ ("nil".toList ++ rest)) := by
  rw [nilHead_append, nilTarget]
  simp only [List.append_assoc, List.singleton_append]

lemma local_isPrefix_nilHead (gap name left right rest : Text) :
    "local".toList <+: nilHead gap name left right ++ rest := by
  rw [nilHead_append]
  exact List.prefix_append _ _

lemma IsNilDeclaration.keyword_isPrefix {w : Text} (h : IsNilDeclaration w) :
    "local".toList <+: w := by
  cases h with
  | bare => exact local_isPrefix_nilHead _ _ _ _ _
  | closed =>
      rw [List.append_assoc]
      exact local_isPrefix_nilHead _ _ _ _ _

lemma isSingleWord_local : IsSingleWord "local".toList := isSingleWord_of_isKeyword (by decide)

lemma IsNilDeclaration.ne_nil {w : Text} (h : IsNilDeclaration w) : w ≠ [] :=
  isSingleWord_local.ne_nil_of_isPrefix h.keyword_isPrefix

lemma IsNilDeclaration.not_beginsOutsideWord {w : Text} (h : IsNilDeclaration w) (rest : Text) :
    ¬ BeginsOutsideWord (w ++ rest) :=
  isSingleWord_local.not_beginsOutsideWord_of_isPrefix h.keyword_isPrefix rest

/-- There are only words and blanks before the sign. -/
lemma IsNilHead.notMem_nilTarget {gap name left right : Text} (h : IsNilHead gap name left right)
    {c : Char} (hword : isWord c ≠ true) (hblank : isBlank c ≠ true) :
    c ∉ nilTarget gap name left := by
  intro hmem
  simp only [nilTarget, List.mem_append] at hmem
  rcases hmem with hmem | hmem | hmem | hmem
  · exact hword (isSingleWord_local.isWord c hmem)
  · exact hblank (h.gap_blank c hmem)
  · exact hword (h.name_word.isWord c hmem)
  · exact hblank (h.left_blank c hmem)

/-! ## Empty functions -/

/-- An empty function ends where a word ends.  Nothing is said of the character before it. -/
lemma emptyFunction_sound {before : Option Char} {text : Text} {f : Found Unit}
    (h : emptyFunction before text = some f) :
    IsEmptyFunction f.covered ∧ ∃ rest, text = f.covered ++ rest ∧ BeginsOutsideWord rest := by
  obtain ⟨r₁, hkeyword, h⟩ := Option.bind_eq_some_iff.mp h
  obtain ⟨_, hgap, h⟩ := Option.bind_eq_some_iff.mp h
  obtain ⟨_, hname, h⟩ := Option.bind_eq_some_iff.mp h
  obtain ⟨r₂, hopen, h⟩ := Option.bind_eq_some_iff.mp h
  obtain ⟨r₃, hclose, h⟩ := Option.bind_eq_some_iff.mp h
  obtain ⟨rest, hend, h⟩ := Option.bind_eq_some_iff.mp h
  obtain ⟨_, hrest, h⟩ := Option.bind_eq_some_iff.mp h
  obtain rfl := Option.some.inj h
  have htext : "function".toList ++ (r₁.takeWhile isBlank
      ++ ((r₁.dropWhile isBlank).takeWhile isWord
        ++ (((r₁.dropWhile isBlank).dropWhile isWord).takeWhile isBlank ++ (['('] ++
          (r₂.takeWhile isBlank ++ ([')'] ++ (r₃.takeWhile isBlank ++ ("end".toList ++ rest))))))))
      = text := by
    rw [takeWhile_append_of_skip? hend, takeWhile_append_of_skip? hclose,
      takeWhile_append_of_skip? hopen, List.takeWhile_append_dropWhile,
      List.takeWhile_append_dropWhile, skip?_eq_some_iff.mp hkeyword]
  refine ⟨?_, rest, htext.symm.trans (by simp), beginsOutsideWord_iff.mpr ?_⟩
  · exact .intro (ne_nil_of_guard hgap) (fun c hc => List.mem_takeWhile_imp hc)
      ⟨ne_nil_of_guard hname, fun c hc => List.mem_takeWhile_imp hc⟩
      (fun c hc => List.mem_takeWhile_imp hc) (fun c hc => List.mem_takeWhile_imp hc)
      fun c hc => List.mem_takeWhile_imp hc
  · simpa using holds_of_guard hrest

/-- The words of an empty function go, the first of them with what stands before the keyword; that
front of a longer word comes up as a word. -/
lemma wordEdit_emptyFunction :
    WordEdit emptyFunction (fun _ => []) (fun a f => words (lastWord a ++ f.covered))
      fun a _ => words (lastWord a) where
  covers before text f h := by
    obtain ⟨hform, rest, htext, -⟩ := emptyFunction_sound h
    exact ⟨hform.ne_nil, rest, htext⟩
  outside h hout := by
    obtain ⟨hform, rest, htext, -⟩ := emptyFunction_sound h
    rw [htext] at hout
    exact absurd hout (hform.not_beginsOutsideWord rest)
  count {a f rest y} h hy w := by
    obtain ⟨-, rest', htext, hrest⟩ := emptyFunction_sound h
    obtain rfl := List.append_cancel_left htext
    obtain ⟨front, hwords⟩ := exists_words_lastWord a
    have hkept := hwords [] y (hy hrest)
    rw [List.append_nil] at hkept
    rw [hkept, hwords f.covered y (hy hrest)]
    simp only [List.count_append]
    omega

/-- The words that come up when the empty functions of a text are dropped: the fronts of the words
that end in the keyword of one. -/
def cutWords (text : Text) : List Text :=
  (located emptyFunction text).flatMap fun l => words (lastWord l.1)

/-- The words that go when the empty functions of a text are dropped. -/
def emptyFunctionWords (text : Text) : List Text :=
  (located emptyFunction text).flatMap fun l => words (lastWord l.1 ++ l.2.covered)

/-- They are words of the text. -/
lemma emptyFunctionWords_subset (text : Text) : emptyFunctionWords text ⊆ words text := by
  intro w hmem
  obtain ⟨l, hl, hw⟩ := List.mem_flatMap.mp hmem
  obtain ⟨rest, htext, hfind⟩ := exists_of_mem_located wordEdit_emptyFunction.covers hl
  obtain ⟨-, rest', heq, hrest⟩ := emptyFunction_sound hfind
  obtain rfl := List.append_cancel_left heq
  obtain ⟨front, hwords⟩ := exists_words_lastWord l.1
  rw [htext, hwords l.2.covered rest hrest]
  simp [hw]

/-- **What dropping empty functions does to words.** -/
theorem count_words_dropEmptyFunctions (text w : Text) :
    (words (dropEmptyFunctions text)).count w + (emptyFunctionWords text).count w
      = (words text).count w + (cutWords text).count w :=
  wordEdit_emptyFunction.count_words text w

/-! ## Declarations that hold nothing -/

/-- The blanks that go with a declaration stand at the front of the text behind its semicolon. -/
lemma blanksBehind_sound (text : Text) :
    (∀ c ∈ blanksBehind text, isBlank c = true) ∧ blanksBehind text <+: text := by
  unfold blanksBehind
  split
  · refine ⟨fun c hc => ?_, List.takeWhile_prefix _⟩
    have hspace : isBlank ' ' = true := by decide
    have htab : isBlank '\t' = true := by decide
    have hclass := List.mem_takeWhile_imp hc
    simp only [Bool.or_eq_true, beq_iff_eq] at hclass
    rcases hclass with rfl | rfl
    · exact hspace
    · exact htab
  · next run hrun =>
      have hbreaks := throughLastBreak_isPrefix (text.takeWhile isBlank)
      exact ⟨fun c hc => List.mem_takeWhile_imp (hbreaks.subset hc),
        hbreaks.trans (List.takeWhile_prefix _)⟩

/-- What is found where the head of a declaration stands, with blanks and then `rest` behind it: a
semicolon closes the declaration, or the text goes on. -/
inductive NilFind (head behind : Text) : Text → Found (Option Text) → Prop
  | closed (more : Text) :
      NilFind head behind (';' :: more) ⟨none, head ++ behind ++ ';' :: blanksBehind more⟩
  | bare {rest : Text} (hrest : rest.head? ≠ some ';') :
      NilFind head behind rest ⟨some rest, head ++ behind⟩

/-- The head of a declaration is found where it begins. -/
lemma IsNilHead.found {gap name left right : Text} (h : IsNilHead gap name left right)
    {before : Option Char} (hbefore : before.any isWord = false) {behind rest : Text}
    (hbehind : ∀ c ∈ behind, isBlank c = true) (hrest : ∀ c ∈ rest.head?, isBlank c = false)
    (hends : BeginsOutsideWord (behind ++ rest)) :
    ∃ f, nilLocal before (nilHead gap name left right ++ (behind ++ rest)) = some f ∧
      NilFind (nilHead gap name left right) behind rest f := by
  -- each run of blanks, and the name, ends where the next part begins
  have hgap : leading isBlank
        (gap ++ (name ++ (left ++ (['='] ++ (right ++ ("nil".toList ++ (behind ++ rest)))))))
      = (gap, name ++ (left ++ (['='] ++ (right ++ ("nil".toList ++ (behind ++ rest)))))) := by
    obtain ⟨c, v, rfl⟩ := List.exists_cons_of_ne_nil h.name_word.ne_nil
    exact leading_append_cons h.gap_blank
      (not_isBlank_of_isWord (h.name_word.isWord c List.mem_cons_self)) _
  have hequals :
      BeginsOutsideWord (left ++ (['='] ++ (right ++ ("nil".toList ++ (behind ++ rest))))) :=
    (beginsOutsideWord_of_blanks h.left_blank).append (beginsOutsideWord_cons (by decide) _)
  have hname := leading_append (fun _ hc => hc) h.name_word.isWord hequals
  have hleft : leading isBlank (left ++ (['='] ++ (right ++ ("nil".toList ++ (behind ++ rest)))))
      = (left, ['='] ++ (right ++ ("nil".toList ++ (behind ++ rest)))) :=
    leading_append_cons h.left_blank (by decide) _
  have hright : leading isBlank (right ++ ("nil".toList ++ (behind ++ rest)))
      = (right, "nil".toList ++ (behind ++ rest)) := by
    have hletters : "nil".toList = ['n', 'i', 'l'] := by decide
    rw [hletters]
    exact leading_append_cons h.right_blank (by decide) _
  have hblanks : leading isBlank (behind ++ rest) = (behind, rest) := by
    cases rest with
    | nil => simpa [leading, List.takeWhile_eq_self_iff.mpr hbehind] using hbehind
    | cons c rest => exact leading_append_cons hbehind (hrest c rfl) rest
  have hgap_some : gap.isEmpty = false := List.isEmpty_eq_false_iff.mpr h.gap_ne_nil
  have hname_some : name.isEmpty = false := List.isEmpty_eq_false_iff.mpr h.name_word.ne_nil
  have hafter : (behind ++ rest).head?.any isWord = false := beginsOutsideWord_iff.mp hends
  rw [nilHead_append]
  simp only [nilLocal, hbefore, skip?_append, Option.bind_eq_bind, Option.bind_some, hgap, hname,
    hleft, hright, hblanks, hgap_some, hname_some, hafter, Bool.not_false, guard_true,
    Option.pure_def]
  split
  · next more => exact ⟨_, rfl, .closed more⟩
  · next hopen =>
      refine ⟨_, rfl, .bare fun hclose => ?_⟩
      obtain ⟨more, rfl⟩ := List.head?_eq_some_iff.mp hclose
      exact hopen more rfl

lemma IsNilHead.exists_found {gap name left right : Text} (h : IsNilHead gap name left right)
    {before : Option Char} (hbefore : before.any isWord = false) {rest : Text}
    (hrest : BeginsOutsideWord rest) :
    ∃ f, nilLocal before (nilHead gap name left right ++ rest) = some f := by
  obtain ⟨behind, rest, rfl, hbehind, hstop⟩ := exists_run isBlank rest
  obtain ⟨f, hf, -⟩ := h.found hbefore hbehind hstop hrest
  exact ⟨f, hf⟩

/-- All that can be found: the head of a declaration, from the start of a word to a place outside of
words, and what goes with it. -/
lemma nilLocal_cases {before : Option Char} {text : Text} {f : Found (Option Text)}
    (h : nilLocal before text = some f) :
    before.any isWord = false ∧ ∃ gap name left right behind rest,
      IsNilHead gap name left right ∧ text = nilHead gap name left right ++ (behind ++ rest) ∧
      (∀ c ∈ behind, isBlank c = true) ∧ (∀ c ∈ rest.head?, isBlank c = false) ∧
      BeginsOutsideWord (behind ++ rest) ∧ NilFind (nilHead gap name left right) behind rest f := by
  have hf := h
  obtain ⟨_, hbefore, h⟩ := Option.bind_eq_some_iff.mp h
  obtain ⟨r₁, hkeyword, h⟩ := Option.bind_eq_some_iff.mp h
  obtain ⟨_, hgap, h⟩ := Option.bind_eq_some_iff.mp h
  obtain ⟨_, hname, h⟩ := Option.bind_eq_some_iff.mp h
  obtain ⟨r₂, hequals, h⟩ := Option.bind_eq_some_iff.mp h
  obtain ⟨r₃, hnil, h⟩ := Option.bind_eq_some_iff.mp h
  obtain ⟨_, hends, -⟩ := Option.bind_eq_some_iff.mp h
  have hhead : IsNilHead (r₁.takeWhile isBlank) ((r₁.dropWhile isBlank).takeWhile isWord)
      (((r₁.dropWhile isBlank).dropWhile isWord).takeWhile isBlank) (r₂.takeWhile isBlank) :=
    ⟨ne_nil_of_guard hgap, fun c hc => List.mem_takeWhile_imp hc,
      ⟨ne_nil_of_guard hname, fun c hc => List.mem_takeWhile_imp hc⟩,
      fun c hc => List.mem_takeWhile_imp hc, fun c hc => List.mem_takeWhile_imp hc⟩
  have htext : nilHead (r₁.takeWhile isBlank) ((r₁.dropWhile isBlank).takeWhile isWord)
      (((r₁.dropWhile isBlank).dropWhile isWord).takeWhile isBlank) (r₂.takeWhile isBlank) ++ r₃
        = text := by
    rw [nilHead_append, takeWhile_append_of_skip? hnil, takeWhile_append_of_skip? hequals,
      List.takeWhile_append_dropWhile, List.takeWhile_append_dropWhile,
      skip?_eq_some_iff.mp hkeyword]
  have hbefore : before.any isWord = false := by simpa using holds_of_guard hbefore
  have hends : BeginsOutsideWord r₃ :=
    beginsOutsideWord_iff.mpr (by simpa using holds_of_guard hends)
  obtain ⟨behind, rest, rfl, hbehind, hrest⟩ := exists_run isBlank r₃
  obtain ⟨g, hg, hfind⟩ := hhead.found hbefore hbehind hrest hends
  rw [htext, hf] at hg
  obtain rfl := Option.some.inj hg
  exact ⟨hbefore, _, _, _, _, behind, rest, hhead, htext.symm, hbehind, hrest, hends, hfind⟩

/-- A declaration that holds nothing begins where a word begins, and one of its two ends, that of
the declaration or that of the text behind it, is outside of words. -/
lemma nilLocal_sound {before : Option Char} {text : Text} {f : Found (Option Text)}
    (h : nilLocal before text = some f) :
    before.any isWord = false ∧ IsNilDeclaration f.covered ∧
      ∃ rest, text = f.covered ++ rest ∧ (EndsOutsideWord f.covered ∨ BeginsOutsideWord rest) := by
  obtain ⟨hbefore, gap, name, left, right, behind, rest, hhead, rfl, hbehind, -, hends, hfind⟩ :=
    nilLocal_cases h
  refine ⟨hbefore, ?_⟩
  cases hfind with
  | closed more =>
      -- a semicolon closes the declaration, and the blanks behind it go too
      obtain ⟨hrun, rest, hrest⟩ := blanksBehind_sound more
      have hclose : IsSeparator ([] ++ ';' :: blanksBehind more) :=
        .of_operator (by simp) (by decide) hrun
      refine ⟨.closed hhead hbehind hrun, rest, ?_, .inl (hclose.endsOutsideWord _)⟩
      nth_rewrite 1 [← hrest]
      simp
  | bare _ =>
      refine ⟨.bare hhead hbehind, rest, by simp, ?_⟩
      by_cases hnone : behind = []
      · rw [hnone, List.nil_append] at hends
        exact .inr hends
      · exact .inl ((IsSeparator.of_blanks hnone hbehind).endsOutsideWord _)

/-- Whether a declaration that was found is dropped. -/
def isDropped (f : Found (Option Text)) : Bool := !f.value.any continuesExpression

/-- A declaration that is dropped takes its words with it. -/
lemma wordEdit_nilLocal :
    WordEdit nilLocal (fun f => if f.value.any continuesExpression then f.covered else [])
      (fun _ f => if isDropped f then words f.covered else []) fun _ _ => [] where
  covers before text f h := by
    obtain ⟨-, hform, rest, htext, -⟩ := nilLocal_sound h
    exact ⟨hform.ne_nil, rest, htext⟩
  outside h hout := by
    obtain ⟨-, hform, rest, htext, -⟩ := nilLocal_sound h
    rw [htext] at hout
    exact absurd hout (hform.not_beginsOutsideWord rest)
  count {a f rest y} h hy w := by
    obtain ⟨hbefore, -, rest', htext, hedge⟩ := nilLocal_sound h
    obtain rfl := List.append_cancel_left htext
    have ha : EndsOutsideWord a := endsOutsideWord_iff.mpr hbefore
    have hcut : words (f.covered ++ y) = words f.covered ++ words y := by
      rcases hedge with hcovered | hrest
      · exact words_append_of_ends hcovered
      · exact words_append_of_begins (hy hrest)
    cases hcontinues : f.value.any continuesExpression with
    | true => simp [isDropped, hcontinues]
    | false =>
        simp only [isDropped, hcontinues, Bool.not_false, if_true, Bool.false_eq_true, if_false,
          List.nil_append, words_append_of_ends ha, hcut, List.count_append, List.count_nil]
        omega

/-- The words of the declarations that are dropped from a text. -/
def nilLocalWords (text : Text) : List Text :=
  (located nilLocal text).flatMap fun l => if isDropped l.2 then words l.2.covered else []

/-- **What dropping declarations does to words.** -/
theorem count_words_dropNilLocals (text w : Text) :
    (words (dropNilLocals text)).count w + (nilLocalWords text).count w = (words text).count w :=
  wordEdit_nilLocal.count_words_add_lost text w

end LuaUnveil
