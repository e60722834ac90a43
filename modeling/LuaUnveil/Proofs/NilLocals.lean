import LuaUnveil.Proofs.Removal

/-!
# Locals that hold nothing, one by one

A declaration that goes on with an expression stays, and every other one is dropped.

**Apart.**  No declaration begins inside of another one, or inside of what goes with it
(`IsNilDeclaration.apart`).  So a scan comes to every declaration of a text, and it does not matter
that it goes from left to right.

**Expressions.**  `GoesOn` says what text goes on with an expression, and this is what is looked for
(`continuesExpression_iff`).

**Parts.**  A text is made of declarations that are kept, of declarations that are dropped, each
with what goes with it, and of other characters.  `Parted` says that each of these parts is what it
is called at its place.  Every text has such parts, and what is left of them is left of the text
(`exists_parted`).  Every declaration of the text is one of the parts (`Parted.exists_part`).
-/

namespace LuaUnveil

/-! ## Declarations do not overlap -/

/-- What can go with a declaration: blanks, and perhaps a semicolon and more blanks. -/
inductive IsNilTail : Text → Prop
  | bare {behind : Text} (hbehind : ∀ c ∈ behind, isBlank c = true) : IsNilTail behind
  | closed {behind more : Text} (hbehind : ∀ c ∈ behind, isBlank c = true)
      (hmore : ∀ c ∈ more, isBlank c = true) : IsNilTail (behind ++ ';' :: more)

lemma IsNilTail.other {tail : Text} (h : IsNilTail tail) : ∀ c ∈ tail, isWord c = false := by
  cases h with
  | bare hbehind => exact fun c hc => isWord_of_isBlank (hbehind c hc)
  | closed hbehind hmore => exact (IsSeparator.of_operator hbehind (by decide) hmore).other

lemma IsNilDeclaration.exists_head {w : Text} (h : IsNilDeclaration w) :
    ∃ gap name left right tail, IsNilHead gap name left right ∧ IsNilTail tail ∧
      w = nilHead gap name left right ++ tail := by
  cases h with
  | bare hhead hbehind => exact ⟨_, _, _, _, _, hhead, .bare hbehind, rfl⟩
  | closed hhead hbehind hmore =>
      exact ⟨_, _, _, _, _, hhead, .closed hbehind hmore, List.append_assoc _ _ _⟩

lemma IsNilHead.isNilDeclaration {gap name left right tail : Text}
    (h : IsNilHead gap name left right) (htail : IsNilTail tail) :
    IsNilDeclaration (nilHead gap name left right ++ tail) := by
  cases htail with
  | bare hbehind => exact .bare h hbehind
  | closed hbehind hmore =>
      rw [← List.append_assoc]
      exact .closed h hbehind hmore

lemma local_letters : "local".toList = 'l' :: "ocal".toList := by decide

namespace IsNilHead

variable {gap name left right : Text} (h : IsNilHead gap name left right)

include h

lemma words_nilTarget : words (nilTarget gap name left) = ["local".toList, name] := by
  have hleft : words left = [] := by
    simpa using words_append_of_blanks (b := []) h.left_blank
  rw [nilTarget,
    (IsSeparator.of_blanks h.gap_ne_nil h.gap_blank).words_word_append isSingleWord_local,
    words_append h.name_word (beginsOutsideWord_of_blanks h.left_blank), hleft]

lemma sign_notMem_nilTarget : '=' ∉ nilTarget gap name left :=
  h.notMem_nilTarget (by decide) (by decide)

/-- Behind the sign there is one word. -/
lemma words_behind_sign {tail : Text} (htail : ∀ c ∈ tail, isWord c = false) :
    words (right ++ ("nil".toList ++ tail)) = ["nil".toList] := by
  have hnil : IsSingleWord "nil".toList := isSingleWord_of_isKeyword (by decide)
  have hwords : words tail = [] := by simpa using words_append_of_other (b := []) htail
  rw [words_append_of_blanks h.right_blank,
    words_append hnil fun c hc => htail c (List.mem_of_mem_head? hc), hwords]

/-- The head of a declaration can be read in one way. -/
lemma nilHead_unique {gap' name' left' right' rest rest' : Text}
    (h' : IsNilHead gap' name' left' right')
    (heq : nilHead gap name left right ++ rest = nilHead gap' name' left' right' ++ rest') :
    nilHead gap name left right = nilHead gap' name' left' right' ∧ rest = rest' := by
  have hright : ∀ {right rest : Text}, (∀ c ∈ right, isBlank c = true) →
      leading isBlank (right ++ ("nil".toList ++ rest)) = (right, "nil".toList ++ rest) := by
    intro right rest hblank
    exact leading_append_cons hblank (by decide) _
  have hcut := heq
  rw [nilHead_append_eq, nilHead_append_eq] at hcut
  obtain ⟨-, hbehind⟩ :=
    append_cons_inj_of_first h.sign_notMem_nilTarget h'.sign_notMem_nilTarget hcut
  have hrest := congrArg (leading isBlank) hbehind
  rw [hright h.right_blank, hright h'.right_blank, Prod.mk.injEq] at hrest
  obtain rfl := List.append_cancel_left hrest.2
  exact ⟨List.append_cancel_right heq, rfl⟩

end IsNilHead

/-- **No declaration begins inside of another one**, or inside of what goes with it. -/
lemma IsNilDeclaration.apart {w w₁ w₂ : Text} (h : IsNilDeclaration w) (hw : w = w₁ ++ w₂)
    (h₁ : w₁ ≠ []) (h₂ : w₂ ≠ []) (hends : EndsOutsideWord w₁) {gap name left right : Text}
    (hhead : IsNilHead gap name left right) (rest back : Text) :
    w₂ ++ rest ≠ nilHead gap name left right ++ back := by
  obtain ⟨gap', name', left', right', tail, hhead', htail, rfl⟩ := h.exists_head
  intro heq
  rw [nilHead_append_eq] at hw heq
  obtain ⟨c, v, rfl⟩ := List.exists_cons_of_ne_nil h₂
  have hc : c = 'l' := by
    rw [nilTarget, local_letters] at heq
    exact (List.cons.inj heq).1
  subst hc
  rcases List.append_eq_append_iff.mp hw with ⟨x, rfl, hx⟩ | ⟨y, htarget, hy⟩
  · -- it begins behind the sign, but `nil` is the only word there
    cases x with
    | nil => exact absurd (List.cons.inj hx).1 (by decide)
    | cons d x =>
        rw [List.cons_append, List.cons.injEq] at hx
        obtain ⟨rfl, hx⟩ := hx
        have hx_ends : EndsOutsideWord x := by
          rw [← List.singleton_append, ← List.append_assoc] at hends
          exact hends.of_append
        have hwords := hhead'.words_behind_sign htail.other
        rw [hx, words_append_of_ends hx_ends, words_cons_word (by decide)] at hwords
        have hfirst := List.append_eq_singleton_iff.mp hwords
        simp at hfirst
  · -- it begins before the sign, and both have the sign in common
    rw [hy, List.append_assoc, List.cons_append] at heq
    have hsign : '=' ∉ y := by
      intro hmem
      refine hhead'.sign_notMem_nilTarget ?_
      rw [htarget]
      exact List.mem_append_right _ hmem
    obtain ⟨rfl, -⟩ := append_cons_inj_of_first hsign hhead.sign_notMem_nilTarget heq
    have hwords := congrArg words htarget
    rw [words_append_of_ends hends, hhead'.words_nilTarget, hhead.words_nilTarget] at hwords
    obtain ⟨d, u, rfl⟩ := List.exists_cons_of_ne_nil h₁
    have hd : d = 'l' := by
      rw [nilTarget, local_letters] at htarget
      exact (List.cons.inj htarget).1.symm
    rw [hd, words_cons_word (by decide)] at hwords
    have hlength := congrArg List.length hwords
    simp at hlength

/-! ## Expressions that go on -/

/-- A text that goes on with an expression, across blanks: with `or` or `and` as a word, with a
comma, an operator, an index or a call, and with a minus that does not open a comment. -/
inductive GoesOn : Text → Prop
  | blank {c : Char} {rest : Text} (hc : isBlank c = true) (h : GoesOn rest) : GoesOn (c :: rest)
  | word {word rest : Text} (hword : word = "or".toList ∨ word = "and".toList)
      (hrest : ∀ c ∈ rest.head?, isAlphanumeric c = false ∧ c ≠ '_') : GoesOn (word ++ rest)
  | sign {c : Char} {rest : Text} (hc : c ∈ ",.:[(=~<>+*/%^".toList) : GoesOn (c :: rest)
  | minus {rest : Text} (hrest : rest.head? ≠ some '-') : GoesOn ('-' :: rest)

lemma startsWithWord_iff {word text : Text} : startsWithWord word text = true ↔
    ∃ rest, text = word ++ rest ∧ ∀ c ∈ rest.head?, isAlphanumeric c = false ∧ c ≠ '_' := by
  unfold startsWithWord
  cases hskip : skip? word text with
  | none =>
      simp only [Bool.false_eq_true, false_iff]
      rintro ⟨rest, rfl, -⟩
      rw [skip?_append] at hskip
      cases hskip
  | some rest =>
      obtain rfl := skip?_eq_some_iff.mp hskip
      cases rest <;> simp

/-- The minus is one of the signs that are looked for, but it may also open a comment. -/
lemma mem_signs_iff {c : Char} : c ∈ ",.:[(=~<>+-*/%^".toList ↔
    c = '-' ∨ c ∈ ",.:[(=~<>+*/%^".toList := by
  have hsigns : ",.:[(=~<>+-*/%^".toList =
      [',', '.', ':', '[', '(', '=', '~', '<', '>', '+', '-', '*', '/', '%', '^'] := by decide
  have hothers : ",.:[(=~<>+*/%^".toList =
      [',', '.', ':', '[', '(', '=', '~', '<', '>', '+', '*', '/', '%', '^'] := by decide
  simp only [hsigns, hothers, List.mem_cons]
  tauto

lemma continuesExpression_append {behind : Text} (hbehind : ∀ c ∈ behind, isBlank c = true)
    (rest : Text) : continuesExpression (behind ++ rest) = continuesExpression rest := by
  simp only [continuesExpression, dropBlanks_append hbehind]

/-- What is looked for at the first character that is no blank. -/
lemma continuesExpression_cons_iff {c : Char} (hc : isBlank c = false) (rest : Text) :
    continuesExpression (c :: rest) = true ↔ ¬ "--".toList <+: c :: rest ∧
      (startsWithWord "or".toList (c :: rest) = true ∨
        startsWithWord "and".toList (c :: rest) = true ∨ c ∈ ",.:[(=~<>+-*/%^".toList) := by
  have hcomment : (skip? "--".toList (c :: rest)).isSome = true ↔ "--".toList <+: c :: rest := by
    rw [Option.isSome_iff_exists]
    exact exists_congr fun r => skip?_eq_some_iff.trans eq_comm
  rw [continuesExpression, dropBlanks_cons_other hc]
  simp only [hcomment]
  split_ifs with hopen
  · exact iff_of_false id fun h => h.1 hopen
  · simp only [Bool.or_eq_true, or_assoc, List.head?_cons, Option.any_some, List.contains_iff_mem,
      hopen, not_false_eq_true, true_and]

/-- **What is looked for behind `nil`** is a text that goes on with the expression. -/
lemma continuesExpression_iff {text : Text} : continuesExpression text = true ↔ GoesOn text := by
  constructor
  · intro h
    induction text with
    | nil => exact absurd h (by decide)
    | cons c rest ih =>
        by_cases hc : isBlank c = true
        · rw [← List.singleton_append, continuesExpression_append (by simpa using hc)] at h
          exact .blank hc (ih h)
        · obtain ⟨hcomment, hor | hand | hsign⟩ :=
            (continuesExpression_cons_iff (by simpa using hc) rest).mp h
          · obtain ⟨r, htext, hr⟩ := startsWithWord_iff.mp hor
            exact htext ▸ .word (.inl rfl) hr
          · obtain ⟨r, htext, hr⟩ := startsWithWord_iff.mp hand
            exact htext ▸ .word (.inr rfl) hr
          · rcases mem_signs_iff.mp hsign with rfl | hsign
            · refine .minus fun hnext => hcomment ?_
              obtain ⟨r, rfl⟩ := List.head?_eq_some_iff.mp hnext
              exact List.prefix_append "--".toList r
            · exact .sign hsign
  · intro h
    induction h with
    | blank hc h ih =>
        rw [← List.singleton_append, continuesExpression_append (by simpa using hc)]
        exact ih
    | @word word rest hword hrest =>
        have hstarts : startsWithWord word (word ++ rest) = true :=
          startsWithWord_iff.mpr ⟨rest, rfl, hrest⟩
        rcases hword with rfl | rfl
        · refine (continuesExpression_cons_iff (by decide) _).mpr ⟨fun hcomment => ?_, .inl hstarts⟩
          exact absurd (List.cons_prefix_cons.mp hcomment).1 (by decide)
        · refine (continuesExpression_cons_iff (by decide) _).mpr
            ⟨fun hcomment => ?_, .inr (.inl hstarts)⟩
          exact absurd (List.cons_prefix_cons.mp hcomment).1 (by decide)
    | @sign c rest hc =>
        have hblank : (",.:[(=~<>+*/%^".toList.all fun c => !isBlank c && c != '-') = true := by
          decide
        have hplain := List.all_eq_true.mp hblank c hc
        simp only [Bool.and_eq_true, Bool.not_eq_true', bne_iff_ne] at hplain
        refine (continuesExpression_cons_iff hplain.1 rest).mpr
          ⟨fun hcomment => hplain.2 ?_, .inr (.inr (mem_signs_iff.mpr (.inr hc)))⟩
        exact (List.cons_prefix_cons.mp hcomment).1.symm
    | @minus rest hrest =>
        refine (continuesExpression_cons_iff (by decide) rest).mpr
          ⟨fun hcomment => hrest ?_, .inr (.inr (mem_signs_iff.mpr (.inl rfl)))⟩
        obtain ⟨r, rfl⟩ := (List.cons_prefix_cons.mp hcomment).2
        rfl

lemma goesOn_append_iff {behind : Text} (hbehind : ∀ c ∈ behind, isBlank c = true) (rest : Text) :
    GoesOn (behind ++ rest) ↔ GoesOn rest := by
  rw [← continuesExpression_iff, ← continuesExpression_iff, continuesExpression_append hbehind]

/-- A semicolon ends an expression. -/
lemma not_goesOn_semicolon (more : Text) : ¬ GoesOn (';' :: more) := by
  generalize htext : ';' :: more = text
  intro h
  cases h with
  | blank hc _ =>
      obtain ⟨rfl, -⟩ := List.cons.inj htext
      exact absurd hc (by decide)
  | word hword _ => rcases hword with rfl | rfl <;> exact absurd (List.cons.inj htext).1 (by decide)
  | sign hc =>
      obtain ⟨rfl, -⟩ := List.cons.inj htext
      exact absurd hc (by decide)
  | minus _ => exact absurd (List.cons.inj htext).1 (by decide)

/-! ## The parts of a text -/

/-- Whether a text is the head of a declaration. -/
def IsNilHeadText (head : Text) : Prop :=
  ∃ gap name left right, IsNilHead gap name left right ∧ head = nilHead gap name left right

/-- The head of a declaration, from the start of a word to a place where `nil` has ended. -/
structure NilHeadAt (front head back : Text) : Prop where
  form : IsNilHeadText head
  begins : EndsOutsideWord front
  ends : BeginsOutsideWord back

/-- A part of a text: a declaration with what goes with it, which is kept or dropped, or a character
of no declaration. -/
inductive TextPart where
  | other (c : Char)
  | kept (head behind : Text)
  | dropped (head behind : Text)

namespace TextPart

/-- The text of a part. -/
def whole : TextPart → Text
  | other c => [c]
  | kept head behind => head ++ behind
  | dropped head behind => head ++ behind

/-- What is left of a part. -/
def left : TextPart → Text
  | other c => [c]
  | kept head behind => head ++ behind
  | dropped _ _ => []

/-- The head of the declaration that a part is. -/
def head? : TextPart → Option Text
  | other _ => none
  | kept head _ => some head
  | dropped head _ => some head

/-- A part is what it is called between two texts.  A declaration is kept with all blanks behind it
if the text goes on with the expression there.  It is dropped if not, with blanks and at most one
semicolon. -/
inductive StandsAt (front : Text) : TextPart → Text → Prop
  | other {c : Char} {back : Text}
      (hnone : ∀ head rest, c :: back = head ++ rest → ¬ NilHeadAt front head rest) :
      StandsAt front (.other c) back
  | kept {head behind back : Text} (hhead : NilHeadAt front head (behind ++ back))
      (hbehind : ∀ c ∈ behind, isBlank c = true) (hback : ∀ c ∈ back.head?, isBlank c = false)
      (hgoes : GoesOn (behind ++ back)) : StandsAt front (.kept head behind) back
  | dropped {head behind back : Text} (hhead : NilHeadAt front head (behind ++ back))
      (hbehind : IsNilTail behind) (hstops : ¬ GoesOn (behind ++ back)) :
      StandsAt front (.dropped head behind) back

end TextPart

/-- The text that parts make up. -/
def wholeText (parts : List TextPart) : Text := parts.flatMap TextPart.whole

/-- What is left of the text that parts make up. -/
def leftText (parts : List TextPart) : Text := parts.flatMap TextPart.left

@[simp] lemma wholeText_nil : wholeText [] = [] := rfl

@[simp] lemma wholeText_cons (part : TextPart) (parts : List TextPart) :
    wholeText (part :: parts) = part.whole ++ wholeText parts := rfl

@[simp] lemma wholeText_append (parts parts' : List TextPart) :
    wholeText (parts ++ parts') = wholeText parts ++ wholeText parts' := by simp [wholeText]

@[simp] lemma leftText_nil : leftText [] = [] := rfl

@[simp] lemma leftText_cons (part : TextPart) (parts : List TextPart) :
    leftText (part :: parts) = part.left ++ leftText parts := rfl

/-- Every part behind `front` is what it is called at its place. -/
inductive Parted : Text → List TextPart → Prop
  | nil {front : Text} : Parted front []
  | cons {front : Text} {part : TextPart} {parts : List TextPart}
      (hpart : part.StandsAt front (wholeText parts)) (h : Parted (front ++ part.whole) parts) :
      Parted front (part :: parts)

/-- What is put in the place of a declaration that was found. -/
def nilLeft (f : Found (Option Text)) : Text :=
  if f.value.any continuesExpression then f.covered else []

/-- A find is a part of the text, kept or dropped. -/
lemma exists_part_of_nilLocal {a rest : Text} {f : Found (Option Text)}
    (h : nilLocal a.getLast? (f.covered ++ rest) = some f) :
    ∃ part : TextPart, part.whole = f.covered ∧ part.left = nilLeft f ∧ part.StandsAt a rest := by
  obtain ⟨hbefore, gap, name, left, right, behind, back, hhead, htext, hbehind, hback, hends,
    hfind⟩ := nilLocal_cases h
  have hat : NilHeadAt a (nilHead gap name left right) (behind ++ back) :=
    ⟨⟨gap, name, left, right, hhead, rfl⟩, endsOutsideWord_iff.mpr hbefore, hends⟩
  cases hfind with
  | closed more =>
      obtain ⟨hrun, -⟩ := blanksBehind_sound more
      have hmore : behind ++ ';' :: more = behind ++ ';' :: blanksBehind more ++ rest := by
        simpa using htext.symm
      refine ⟨.dropped (nilHead gap name left right) (behind ++ ';' :: blanksBehind more),
        by simp [TextPart.whole], rfl, ?_⟩
      refine .dropped (hmore ▸ hat) (.closed hbehind hrun) ?_
      rw [← hmore, goesOn_append_iff hbehind]
      exact not_goesOn_semicolon more
  | bare hsemicolon =>
      obtain rfl : rest = back := by simpa using htext
      by_cases hgoes : continuesExpression rest = true
      · refine ⟨.kept _ behind, rfl, by simp [TextPart.left, nilLeft, hgoes], ?_⟩
        exact .kept hat hbehind hback ((goesOn_append_iff hbehind _).mpr
          (continuesExpression_iff.mp hgoes))
      · refine ⟨.dropped _ behind, rfl, by simp [TextPart.left, nilLeft, hgoes], ?_⟩
        exact .dropped hat (.bare hbehind) fun hgoes' => hgoes
          (continuesExpression_iff.mpr ((goesOn_append_iff hbehind _).mp hgoes'))

lemma NilHeadAt.exists_found {front head back : Text} (h : NilHeadAt front head back) :
    ∃ f, nilLocal front.getLast? (head ++ back) = some f := by
  obtain ⟨⟨gap, name, left, right, hhead, rfl⟩, hbegins, hends⟩ := h
  exact hhead.exists_found (endsOutsideWord_iff.mp hbegins) hends

/-- **The parts that a scan finds.**  Going through the text find by find, each find is a part. -/
lemma exists_parted (a t : Text) : ∃ parts, wholeText parts = t ∧
    leftText parts = assemble nilLeft (piecesFrom nilLocal 0 a.getLast? t) ∧ Parted a parts := by
  induction a, t using wordEdit_nilLocal.covers.scanInduction with
  | nil a => exact ⟨[], rfl, rfl, .nil⟩
  | plain a c rest hnone ih =>
      obtain ⟨parts, hwhole, hleft, hparts⟩ := ih
      refine ⟨.other c :: parts, by simp [TextPart.whole, hwhole], ?_, .cons (.other ?_) hparts⟩
      · rw [piecesFrom_plain_of_none hnone, assemble_plain_cons, leftText_cons, hleft]
        rfl
      · intro head back htext hat
        obtain ⟨f, hf⟩ := hat.exists_found
        rw [← htext, hwhole, hnone] at hf
        cases hf
  | found a f rest hne hsome ih =>
      obtain ⟨parts, rfl, hleft, hparts⟩ := ih
      obtain ⟨part, hpart, hpart_left, hat⟩ := exists_part_of_nilLocal hsome
      refine ⟨part :: parts, by simp [hpart], ?_, .cons hat (hpart ▸ hparts)⟩
      rw [piecesFrom_found_of_some hne hsome, assemble_found_cons, leftText_cons, hleft, hpart_left]

/-- A declaration is the one that is found, or it begins behind that one and what goes with it. -/
lemma NilHeadAt.eq_or_behind {a head tail rest front head' back : Text}
    (h : NilHeadAt a head (tail ++ rest)) (htail : IsNilTail tail)
    (heq : head ++ tail ++ rest = front ++ (head' ++ back))
    (h' : NilHeadAt (a ++ front) head' back) :
    front = [] ∧ head = head' ∨
      ∃ front', front = head ++ tail ++ front' ∧ rest = front' ++ (head' ++ back) := by
  obtain ⟨⟨gap, name, left, right, hhead, rfl⟩, -, -⟩ := h
  obtain ⟨⟨gap', name', left', right', hhead', rfl⟩, hbegins, -⟩ := h'
  rcases List.append_eq_append_iff.mp heq with ⟨x, hx, hrest⟩ | ⟨x, hx, hback⟩
  · exact .inr ⟨x, hx, hrest⟩
  · by_cases hfront : front = []
    · subst hfront
      rw [List.append_assoc, List.nil_append] at heq
      exact .inl ⟨rfl, (hhead.nilHead_unique hhead' heq).1⟩
    · by_cases hnone : x = []
      · subst hnone
        exact .inr ⟨[], by simpa using hx.symm, by simpa using hback.symm⟩
      · have hform := hhead.isNilDeclaration htail
        exact absurd hback.symm (hform.apart hx hfront hnone hbegins.of_append hhead' _ _)

/-- A declaration is the first part, or it begins behind it. -/
lemma TextPart.StandsAt.eq_or_behind {part : TextPart} {a rest front head back : Text}
    (h : part.StandsAt a rest) (heq : part.whole ++ rest = front ++ (head ++ back))
    (hat : NilHeadAt (a ++ front) head back) :
    front = [] ∧ part.head? = some head ∨
      ∃ front', front = part.whole ++ front' ∧ rest = front' ++ (head ++ back) := by
  cases h with
  | @other c _ hnone =>
      cases front with
      | nil =>
          rw [List.append_nil] at hat
          exact absurd hat (hnone head back heq)
      | cons d front =>
          obtain ⟨rfl, hrest⟩ := List.cons.inj heq
          exact .inr ⟨front, rfl, hrest⟩
  | kept hhead hbehind hback hgoes =>
      rcases hhead.eq_or_behind (.bare hbehind) heq hat with ⟨hfront, rfl⟩ | hlater
      · exact .inl ⟨hfront, rfl⟩
      · exact .inr hlater
  | dropped hhead hbehind hstops =>
      rcases hhead.eq_or_behind hbehind heq hat with ⟨hfront, rfl⟩ | hlater
      · exact .inl ⟨hfront, rfl⟩
      · exact .inr hlater

/-- **Every declaration of a text is one of its parts.** -/
lemma Parted.exists_part {a : Text} {parts : List TextPart} (h : Parted a parts) :
    ∀ {front head back : Text}, wholeText parts = front ++ (head ++ back) →
      NilHeadAt (a ++ front) head back → ∃ before part after, parts = before ++ part :: after ∧
        wholeText before = front ∧ part.head? = some head ∧
        part.StandsAt (a ++ front) (wholeText after) := by
  induction h with
  | nil =>
      intro front head back heq hat
      obtain ⟨⟨gap, name, left, right, hhead, rfl⟩, -, -⟩ := hat
      have hne := isSingleWord_local.ne_nil_of_isPrefix
        (local_isPrefix_nilHead gap name left right back)
      exact absurd (List.append_eq_nil_iff.mp heq.symm).2 hne
  | @cons a part parts hpart _ ih =>
      intro front head back heq hat
      rcases hpart.eq_or_behind heq hat with ⟨rfl, hhead⟩ | ⟨front, rfl, hrest⟩
      · exact ⟨[], part, parts, rfl, rfl, hhead, by rwa [List.append_nil]⟩
      · rw [← List.append_assoc] at hat
        obtain ⟨before, later, after, rfl, hbefore, hlater, hat⟩ := ih hrest hat
        refine ⟨part :: before, later, after, rfl, by simp [hbefore], hlater, ?_⟩
        rwa [← List.append_assoc]

/-! ## Both passes -/

/-- Whether an empty function stands anywhere in a text. -/
def HasEmptyFunction (text : Text) : Prop :=
  ∃ front w back, text = front ++ (w ++ back) ∧ IsEmptyFunction w ∧ BeginsOutsideWord back

lemma dropEmptyFunctions_of_not {text : Text} (h : ¬ HasEmptyFunction text) :
    dropEmptyFunctions text = text := by
  have hplains : pieces emptyFunction text = text.map .plain := by
    refine pieces_eq_plains fun front back htext => ?_
    cases hask : emptyFunction front.getLast? back with
    | none => rfl
    | some f =>
        obtain ⟨hform, rest, hback, hrest⟩ := emptyFunction_sound hask
        exact absurd ⟨front, f.covered, rest, by rw [htext, hback], hform, hrest⟩ h
  rw [dropEmptyFunctions, replaceAll, hplains]
  exact leftBy_plains text

lemma HasEmptyFunction.paren_mem {text : Text} (h : HasEmptyFunction text) : '(' ∈ text := by
  obtain ⟨front, w, back, rfl, hform, -⟩ := h
  simp [hform.paren_mem]

/-- **Declarations that go on are kept, and the others are dropped.**  A text without empty
functions is made of parts, and what is left of these is left of the text: all characters stay
outside of the declarations that are dropped.  A declaration is one of the parts that are kept if
the text goes on with the expression behind its `nil`, and one of those that are dropped if not. -/
theorem removeDeadCode_parted {text : Text} (hnone : ¬ HasEmptyFunction text) :
    ∃ parts, wholeText parts = text ∧ leftText parts = removeDeadCode text ∧ Parted [] parts ∧
      ∀ front head back, text = front ++ (head ++ back) → NilHeadAt front head back →
        (GoesOn back → ∃ before behind after,
          parts = before ++ .kept head behind :: after ∧ wholeText before = front) ∧
        (¬ GoesOn back → ∃ before behind after,
          parts = before ++ .dropped head behind :: after ∧ wholeText before = front) := by
  obtain ⟨parts, rfl, hleft, hparts⟩ := exists_parted [] text
  refine ⟨parts, rfl, ?_, hparts, fun front head back htext hat => ?_⟩
  · rw [removeDeadCode, dropEmptyFunctions_of_not hnone]
    exact hleft
  · obtain ⟨before, part, after, rfl, rfl, hhead, hpart⟩ := hparts.exists_part htext hat
    rw [wholeText_append, wholeText_cons] at htext
    have hback := List.append_cancel_left htext
    cases hpart with
    | other hnone => cases hhead
    | kept hhead' hbehind hnext hgoes =>
        obtain rfl := Option.some.inj hhead
        rw [TextPart.whole, List.append_assoc] at hback
        obtain rfl := List.append_cancel_left hback
        exact ⟨fun _ => ⟨before, _, after, rfl, rfl⟩, fun hstops => absurd hgoes hstops⟩
    | dropped hhead' hbehind hstops =>
        obtain rfl := Option.some.inj hhead
        rw [TextPart.whole, List.append_assoc] at hback
        obtain rfl := List.append_cancel_left hback
        exact ⟨fun hgoes => absurd hgoes hstops, fun _ => ⟨before, _, after, rfl, rfl⟩⟩

/-- Declarations that go on, on the next line too, between others that do not. -/
def mixedLocals : Text :=
  "local a = nil or 5\nlocal b = nil;\n\tlocal c = nil\n  .. s\nlocal d = nil -- note".toList

/-- The head of a declaration with single spaces between its parts. -/
lemma isNilHead_spaces {name : Text} (hname : isKeyword name = true) :
    IsNilHead [' '] name [' '] [' '] :=
  ⟨by simp, by simp [isBlank_space], isSingleWord_of_isKeyword hname, by simp [isBlank_space],
    by simp [isBlank_space]⟩

/-- Two declarations stay here, and two are dropped. -/
theorem removeDeadCode_parted_mixed :
    ¬ HasEmptyFunction mixedLocals ∧
    removeDeadCode mixedLocals
      = "local a = nil or 5\n\tlocal c = nil\n  .. s\n-- note".toList ∧
    ∃ parts, wholeText parts = mixedLocals ∧ leftText parts = removeDeadCode mixedLocals ∧
      (∃ before behind after, parts = before ++ .kept "local c = nil".toList behind :: after) ∧
      ∃ before behind after, parts = before ++ .dropped "local d = nil".toList behind :: after := by
  have hnone : ¬ HasEmptyFunction mixedLocals := fun h => absurd h.paren_mem (by decide)
  obtain ⟨parts, hwhole, hleft, -, hall⟩ := removeDeadCode_parted hnone
  refine ⟨hnone, by decide +kernel, parts, hwhole, hleft, ?_, ?_⟩
  · obtain ⟨before, behind, after, hparts, -⟩ :=
      (hall "local a = nil or 5\nlocal b = nil;\n\t".toList "local c = nil".toList
        "\n  .. s\nlocal d = nil -- note".toList (by decide)
        ⟨⟨_, ['c'], _, _, isNilHead_spaces (by decide), by decide⟩,
          endsOutsideWord_iff.mpr (by decide), beginsOutsideWord_iff.mpr (by decide)⟩).1
        (continuesExpression_iff.mp (by decide +kernel))
    exact ⟨before, behind, after, hparts⟩
  · obtain ⟨before, behind, after, hparts, -⟩ :=
      (hall "local a = nil or 5\nlocal b = nil;\n\tlocal c = nil\n  .. s\n".toList
        "local d = nil".toList " -- note".toList (by decide)
        ⟨⟨_, ['d'], _, _, isNilHead_spaces (by decide), by decide⟩,
          endsOutsideWord_iff.mpr (by decide), beginsOutsideWord_iff.mpr (by decide)⟩).2
        (continuesExpression_iff.not.mp (by decide +kernel))
    exact ⟨before, behind, after, hparts⟩

end LuaUnveil
