import LuaUnveil.Proofs.NilLocals

/-!
# The line behind a declaration that is dropped

A declaration that holds nothing goes with the end of its line.  Whether the indentation of the next
line goes too depends on the semicolon: behind one, the blanks go only through the last line break,
but without one all blanks behind `nil` are taken before a semicolon is looked for, on the next line
too.

**Alone.**  Where the text before a declaration and the line behind it have no dead code, the
declaration is all that is found: nothing begins in the text before it and reaches into it
(`nilLocal_eq_none_before`), and no empty function reaches over its sign
(`HasEmptyFunction.before_or_behind`).

**Lines.**  `BeforeLine` is such a declaration, and what is left of its text is computed for each of
the three ways in which it can end.
-/

namespace LuaUnveil

/-! ## Text without dead code -/

/-- Whether dead code of one of the two forms stands anywhere in a text. -/
def HasDeadCode (text : Text) : Prop :=
  ∃ front w back, text = front ++ (w ++ back) ∧ DeadAt front w back

lemma HasEmptyFunction.hasDeadCode {text : Text} (h : HasEmptyFunction text) :
    HasDeadCode text := by
  obtain ⟨front, w, back, htext, hform, hback⟩ := h
  exact ⟨front, w, back, htext, .emptyFunction hform hback⟩

/-- No declaration is found in a text without dead code, whatever stands before it. -/
lemma nilLocal_eq_none_inside {text front back : Text} (h : ¬ HasDeadCode text)
    (htext : text = front ++ back) (a : Text) : nilLocal (a ++ front).getLast? back = none := by
  cases hask : nilLocal (a ++ front).getLast? back with
  | none => rfl
  | some f =>
      obtain ⟨hbefore, hform, rest, rfl, hends⟩ := nilLocal_sound hask
      have hat : NilDeclarationAt front f.covered rest :=
        ⟨hform, (endsOutsideWord_iff.mpr hbefore).of_append, hends⟩
      exact absurd ⟨front, f.covered, rest, htext, .nilDeclaration hat⟩ h

/-- No declaration begins before another one and reaches into it. -/
lemma nilLocal_eq_none_before {text front back : Text} (h : ¬ HasDeadCode text)
    (htext : text = front ++ back) (hback : back ≠ []) (hends : EndsOutsideWord text)
    {gap name left right : Text} (hhead : IsNilHead gap name left right) (rest : Text) :
    nilLocal front.getLast? (back ++ (nilHead gap name left right ++ rest)) = none := by
  cases hask : nilLocal front.getLast? (back ++ (nilHead gap name left right ++ rest)) with
  | none => rfl
  | some f =>
      obtain ⟨hbefore, hform, behind, hcut, hedge⟩ := nilLocal_sound hask
      have hbegins : EndsOutsideWord front := endsOutsideWord_iff.mpr hbefore
      rcases List.append_eq_append_iff.mp hcut with ⟨w, hcovered, hinto⟩ | ⟨more, rfl, rfl⟩
      · by_cases hw : w = []
        · subst hw
          rw [List.append_nil] at hcovered
          have hat : NilDeclarationAt front back [] :=
            ⟨hcovered ▸ hform, hbegins, .inr (by simp [BeginsOutsideWord])⟩
          exact absurd ⟨front, back, [], by simp [htext], .nilDeclaration hat⟩ h
        · have hback_ends : EndsOutsideWord back := (htext ▸ hends).of_append
          exact absurd hinto.symm (hform.apart hcovered hback hw hback_ends hhead _ _)
      · have hat : NilDeclarationAt front f.covered more :=
          ⟨hform, hbegins, hedge.imp_right BeginsOutsideWord.of_append⟩
        exact absurd ⟨front, f.covered, more, htext, .nilDeclaration hat⟩ h

/-- No declaration begins with a blank. -/
lemma nilLocal_eq_none_of_blank {c : Char} (hc : isBlank c = true) (before : Option Char)
    (rest : Text) : nilLocal before (c :: rest) = none := by
  cases hask : nilLocal before (c :: rest) with
  | none => rfl
  | some f =>
      obtain ⟨-, hform, behind, hcut, -⟩ := nilLocal_sound hask
      refine absurd (beginsOutsideWord_cons (isWord_of_isBlank hc) rest) ?_
      rw [hcut]
      exact hform.not_beginsOutsideWord behind

/-! ## Empty functions around a declaration -/

namespace IsEmptyFunction

variable {w : Text} (h : IsEmptyFunction w)

include h

lemma sign_notMem : '=' ∉ w := by
  have hblank : isBlank '=' ≠ true := by decide
  have hword : isWord '=' ≠ true := by decide
  have hfunction : '=' ∉ "function".toList := by decide
  have hend : '=' ∉ "end".toList := by decide
  cases h with
  | intro _ hgap hname hopen hinside hbefore =>
      simp only [List.mem_append, List.mem_cons, not_or]
      exact ⟨⟨⟨⟨⟨⟨hfunction, fun hmem => hblank (hgap _ hmem)⟩,
        fun hmem => hword (hname.isWord _ hmem)⟩, fun hmem => hblank (hopen _ hmem)⟩, by decide,
        fun hmem => hblank (hinside _ hmem)⟩, by decide, fun hmem => hblank (hbefore _ hmem)⟩, hend⟩

/-- Behind the parenthesis there are blanks and the keyword `end`. -/
lemma exists_paren : ∃ front back, w = front ++ '(' :: back ∧ 'l' ∉ back := by
  have hblank : isBlank 'l' ≠ true := by decide
  have hend : 'l' ∉ "end".toList := by decide
  cases h with
  | @intro gap name beforeOpen inside beforeEnd _ _ _ _ hinside hbefore =>
      refine ⟨"function".toList ++ gap ++ name ++ beforeOpen,
        inside ++ ')' :: beforeEnd ++ "end".toList, by simp, ?_⟩
      simp only [List.mem_append, List.mem_cons, not_or]
      exact ⟨⟨fun hmem => hblank (hinside _ hmem), by decide,
        fun hmem => hblank (hbefore _ hmem)⟩, hend⟩

/-- If the last part of an empty function begins with `l`, it begins before the parenthesis. -/
lemma paren_mem_of_append {front back : Text} (hw : w = front ++ back)
    (hback : back.head? = some 'l') : '(' ∈ back := by
  obtain ⟨k, v, hparen, hletter⟩ := h.exists_paren
  by_contra hnone
  rcases List.append_eq_append_iff.mp (hw.symm.trans hparen) with ⟨x, -, rfl⟩ | ⟨x, -, hx⟩
  · exact hnone (by simp)
  · cases x with
    | nil =>
        rw [List.nil_append] at hx
        exact hnone (hx ▸ List.mem_cons_self)
    | cons d x =>
        obtain ⟨-, rfl⟩ := List.cons.inj hx
        exact hletter (List.mem_append_right _ (List.mem_of_mem_head? hback))

end IsEmptyFunction

/-- An empty function stands before a sign or behind it, if there is no parenthesis around the sign
and no place behind it at which the keyword could begin. -/
lemma HasEmptyFunction.before_or_behind {front target value line : Text}
    (htarget : '(' ∉ target) (hfirst : target.head? = some 'l') (hvalue : 'f' ∉ value)
    (h : HasEmptyFunction (front ++ (target ++ '=' :: (value ++ line)))) :
    HasEmptyFunction front ∨ HasEmptyFunction line := by
  obtain ⟨u, w, back, htext, hform, hback⟩ := h
  have hkeyword : ∀ {c : Char} {x y : Text}, w ++ x = c :: y → c = 'f' := by
    intro c x y heq
    obtain ⟨v, rfl⟩ := hform.keyword_isPrefix
    exact (List.cons.inj heq).1.symm
  rcases List.append_eq_append_iff.mp htext with ⟨u, rfl, hbehind⟩ | ⟨z, rfl, hbehind⟩
  · -- it begins at the declaration or behind it
    rcases List.append_eq_append_iff.mp hbehind with ⟨y, rfl, hy⟩ | ⟨y, rfl, hy⟩
    · cases y with
      | nil => exact absurd (hkeyword hy.symm) (by decide)
      | cons d y =>
          rw [List.cons_append, List.cons.injEq] at hy
          rcases List.append_eq_append_iff.mp hy.2 with ⟨x, -, hx⟩ | ⟨x, rfl, hx⟩
          · exact .inr ⟨x, w, back, hx, hform, hback⟩
          · cases x with
            | nil => exact .inr ⟨[], w, back, hx.symm, hform, hback⟩
            | cons c x =>
                obtain rfl := hkeyword hx
                exact absurd (by simp) hvalue
    · have hinside := isPrefix_of_first hform.sign_notMem hy
      exact absurd (List.mem_append_right _ (hinside.subset hform.paren_mem)) htarget
  · -- it begins before the declaration
    rcases List.append_eq_append_iff.mp hbehind with ⟨x, rfl, hx⟩ | ⟨x, rfl, hx⟩
    · refine .inl ⟨u, w, x, rfl, hform, ?_⟩
      rw [hx] at hback
      exact hback.of_append
    · by_cases hnone : x = []
      · subst hnone
        exact .inl ⟨u, z ++ [], [], by simp, hform, by simp [BeginsOutsideWord]⟩
      · have hsign : '=' ∉ x := fun hmem => hform.sign_notMem (List.mem_append_right _ hmem)
        obtain ⟨more, rfl⟩ := isPrefix_of_first hsign hx.symm
        have hletter : x.head? = some 'l' := by
          rwa [List.head?_append_of_ne_nil _ hnone] at hfirst
        exact absurd (List.mem_append_left _ (hform.paren_mem_of_append rfl hletter)) htarget

/-! ## One declaration -/

/-- What is left if one declaration is found and dropped, and nothing before it and behind it. -/
lemma dropNilLocals_of_one {front covered back : Text} {value : Option Text}
    (hbefore : ∀ u v, front = u ++ v → v ≠ [] →
      nilLocal u.getLast? (v ++ (covered ++ back)) = none)
    (hfind : nilLocal front.getLast? (covered ++ back) = some ⟨value, covered⟩)
    (hstops : value.any continuesExpression = false)
    (hbehind : ∀ u v, back = u ++ v → nilLocal (front ++ covered ++ u).getLast? v = none) :
    dropNilLocals (front ++ (covered ++ back)) = front ++ back := by
  have hne : covered ≠ [] := (wordEdit_nilLocal.covers _ _ _ hfind).1
  have hpieces : pieces nilLocal (front ++ (covered ++ back))
      = front.map .plain ++ .found ⟨value, covered⟩ :: back.map .plain := by
    have hfront : piecesFrom nilLocal 0 [].getLast? (front ++ (covered ++ back))
        = front.map .plain ++ piecesFrom nilLocal 0 ([] ++ front).getLast? (covered ++ back) :=
      piecesFrom_append_of_silent hbefore
    have hfound := piecesFrom_found_of_some (f := ⟨value, covered⟩) hne hfind
    rw [piecesFrom_eq_plains hbehind] at hfound
    rw [List.nil_append, hfound] at hfront
    exact hfront
  rw [dropNilLocals, replaceAll, hpieces, assemble_plains_append, assemble_found_cons, hstops,
    ← List.append_nil (back.map Piece.plain), assemble_plains_append]
  simp

lemma throughLastBreak_append {indent : Text} (hindent : '\n' ∉ indent) (blanks : Text) :
    throughLastBreak (blanks ++ '\n' :: indent) = blanks ++ ['\n'] := by
  have hpass : ∀ c ∈ indent.reverse, (c != '\n') = true := by
    intro c hc
    simpa using ne_of_mem_of_not_mem (List.mem_reverse.mp hc) hindent
  rw [throughLastBreak, List.reverse_append, List.reverse_cons, List.append_assoc,
    List.dropWhile_append_of_pos hpass]
  simp

/-- A line break among blanks. -/
lemma isBlank_of_mem_break {blanks indent : Text} (hblanks : ∀ c ∈ blanks, isBlank c = true)
    (hindent : ∀ c ∈ indent, isBlank c = true ∧ c ≠ '\n') :
    ∀ c ∈ blanks ++ '\n' :: indent, isBlank c = true :=
  List.forall_mem_append.mpr
    ⟨hblanks, List.forall_mem_cons.mpr ⟨by decide, fun c hc => (hindent c hc).1⟩⟩

/-- Behind a semicolon the blanks go through the last line break. -/
lemma blanksBehind_append {blanks indent line : Text} (hblanks : ∀ c ∈ blanks, isBlank c = true)
    (hindent : ∀ c ∈ indent, isBlank c = true ∧ c ≠ '\n')
    (hline : ∀ c ∈ line.head?, isBlank c = false) :
    blanksBehind (blanks ++ '\n' :: (indent ++ line)) = blanks ++ ['\n'] := by
  have hrun : (blanks ++ '\n' :: (indent ++ line)).takeWhile isBlank
      = blanks ++ '\n' :: indent := by
    have hall := isBlank_of_mem_break hblanks hindent
    have hstop : line.takeWhile isBlank = [] := by
      cases line with
      | nil => rfl
      | cons c line => simp [hline c rfl]
    rw [← List.cons_append, ← List.append_assoc, List.takeWhile_append_of_pos hall, hstop,
      List.append_nil]
  have hbreak := throughLastBreak_append (fun hmem => (hindent _ hmem).2 rfl) blanks
  rw [blanksBehind, hrun, hbreak]
  split
  · next hnil => simp at hnil
  · rfl

/-! ## The next line -/

/-- A declaration at the end of its line, perhaps with a semicolon, and a line behind it.  The text
before the declaration and the line have no dead code, and the line does not go on with the
expression. -/
structure BeforeLine (front head close blanks indent line : Text) : Prop where
  head_form : IsNilHeadText head
  front_ends : EndsOutsideWord front
  front_clean : ¬ HasDeadCode front
  close_form : close = [] ∨ close = [';']
  blanks_blank : ∀ c ∈ blanks, isBlank c = true
  indent_form : ∀ c ∈ indent, c = ' ' ∨ c = '\t'
  line_visible : ∃ c rest, line = c :: rest ∧ isBlank c = false
  line_apart : ¬ GoesOn line
  line_clean : ¬ HasDeadCode line

/-- The text with the declaration in it. -/
def lineText (front head close blanks indent line : Text) : Text :=
  front ++ (head ++ (close ++ (blanks ++ '\n' :: (indent ++ line))))

namespace BeforeLine

variable {front head close blanks indent line : Text}
  (h : BeforeLine front head close blanks indent line)

include h

lemma indent_blank : ∀ c ∈ indent, isBlank c = true ∧ c ≠ '\n' := by
  intro c hc
  rcases h.indent_form c hc with rfl | rfl
  · exact ⟨by decide, by decide⟩
  · exact ⟨by decide, by decide⟩

lemma visible : ∀ c ∈ line.head?, isBlank c = false := by
  obtain ⟨c, rest, rfl, hc⟩ := h.line_visible
  simpa using hc

/-- The first pass finds nothing. -/
lemma not_hasEmptyFunction :
    ¬ HasEmptyFunction (lineText front head close blanks indent line) := by
  obtain ⟨gap, name, left, right, hhead, rfl⟩ := h.head_form
  have hblank : isBlank 'f' ≠ true := by decide
  have htarget : '(' ∉ nilTarget gap name left := hhead.notMem_nilTarget (by decide) (by decide)
  have hvalue : 'f' ∉ right ++ ("nil".toList ++ (close ++ (blanks ++ '\n' :: indent))) := by
    have hnil : 'f' ∉ "nil".toList := by decide
    have hclose : 'f' ∉ close := by rcases h.close_form with rfl | rfl <;> decide
    simp only [List.mem_append, List.mem_cons, not_or]
    exact ⟨fun hmem => hblank (hhead.right_blank _ hmem), hnil, hclose,
      fun hmem => hblank (h.blanks_blank _ hmem), by decide,
      fun hmem => hblank (h.indent_blank _ hmem).1⟩
  intro hfunction
  have hcut : lineText front (nilHead gap name left right) close blanks indent line
      = front ++ (nilTarget gap name left ++ '=' ::
        (right ++ ("nil".toList ++ (close ++ (blanks ++ '\n' :: indent))) ++ line)) := by
    rw [lineText, nilHead_append_eq]
    simp
  rw [hcut] at hfunction
  rcases hfunction.before_or_behind htarget rfl hvalue with hin | hin
  · exact h.front_clean hin.hasDeadCode
  · exact h.line_clean hin.hasDeadCode

/-- The second pass drops what it finds at the declaration, and that alone. -/
lemma removeDeadCode_eq {value : Option Text} {covered back : Text}
    (hcut : head ++ (close ++ (blanks ++ '\n' :: (indent ++ line))) = covered ++ back)
    (hfind : nilLocal front.getLast? (covered ++ back) = some ⟨value, covered⟩)
    (hstops : value.any continuesExpression = false)
    (hbehind : ∀ u v, back = u ++ v → nilLocal (front ++ covered ++ u).getLast? v = none) :
    removeDeadCode (lineText front head close blanks indent line) = front ++ back := by
  rw [removeDeadCode, dropEmptyFunctions_of_not h.not_hasEmptyFunction, lineText, hcut]
  refine dropNilLocals_of_one (fun u v hfront hv => ?_) hfind hstops hbehind
  obtain ⟨gap, name, left, right, hhead, rfl⟩ := h.head_form
  rw [← hcut]
  exact nilLocal_eq_none_before h.front_clean hfront hv h.front_ends hhead _

/-- Nothing is found in the line and its indentation. -/
lemma nilLocal_indent_line {u v : Text} (heq : indent ++ line = u ++ v) (a : Text) :
    nilLocal (a ++ u).getLast? v = none := by
  rcases List.append_eq_append_iff.mp heq with ⟨x, rfl, hx⟩ | ⟨x, rfl, rfl⟩
  · rw [← List.append_assoc]
    exact nilLocal_eq_none_inside h.line_clean hx _
  · cases x with
    | nil =>
        have hnone := nilLocal_eq_none_inside h.line_clean (List.nil_append line).symm (a ++ u)
        simpa using hnone
    | cons c x => exact nilLocal_eq_none_of_blank (h.indent_blank c (by simp)).1 _ _

/-- Behind a semicolon the indentation stays. -/
lemma removeDeadCode_of_closed (hclose : close = [';']) :
    removeDeadCode (lineText front head close blanks indent line) = front ++ (indent ++ line) := by
  obtain ⟨gap, name, left, right, hhead, rfl⟩ := h.head_form
  have hnone : ∀ c ∈ ([] : Text), isBlank c = true := by simp
  have hsemicolon :
      ∀ c ∈ (';' :: (blanks ++ '\n' :: (indent ++ line))).head?, isBlank c = false := by
    simp only [List.head?_cons, Option.mem_some_iff, forall_eq']
    decide
  have hends : BeginsOutsideWord ([] ++ ';' :: (blanks ++ '\n' :: (indent ++ line))) :=
    beginsOutsideWord_cons (by decide) _
  obtain ⟨f, hf, hfind⟩ :=
    hhead.found (endsOutsideWord_iff.mp h.front_ends) hnone hsemicolon hends
  cases hfind with
  | closed _ =>
      rw [blanksBehind_append h.blanks_blank h.indent_blank h.visible] at hf
      have hcut : nilHead gap name left right ++ (close ++ (blanks ++ '\n' :: (indent ++ line)))
          = nilHead gap name left right ++ [] ++ ';' :: (blanks ++ ['\n']) ++ (indent ++ line) := by
        simp [hclose]
      have hfind : nilLocal front.getLast?
            (nilHead gap name left right ++ [] ++ ';' :: (blanks ++ ['\n']) ++ (indent ++ line))
          = some ⟨none, nilHead gap name left right ++ [] ++ ';' :: (blanks ++ ['\n'])⟩ := by
        rw [← hcut, hclose]
        exact hf
      exact h.removeDeadCode_eq hcut hfind rfl fun u v heq => h.nilLocal_indent_line heq _
  | bare hopen => exact absurd rfl hopen

/-- Without a semicolon, all blanks up to the line are taken. -/
lemma exists_found_of_open (hclose : close = []) :
    ∃ f, NilFind head (blanks ++ '\n' :: indent) line f ∧
      nilLocal front.getLast? (head ++ (close ++ (blanks ++ '\n' :: (indent ++ line))))
        = some f := by
  obtain ⟨gap, name, left, right, hhead, rfl⟩ := h.head_form
  have hbehind := isBlank_of_mem_break h.blanks_blank h.indent_blank
  have hends := (IsSeparator.of_blanks (by simp) hbehind).beginsOutsideWord line
  obtain ⟨f, hf, hfind⟩ :=
    hhead.found (endsOutsideWord_iff.mp h.front_ends) hbehind h.visible hends
  refine ⟨f, hfind, ?_⟩
  rw [hclose]
  simpa using hf

/-- Without a semicolon the indentation goes. -/
lemma removeDeadCode_of_open (hclose : close = []) (hopen : line.head? ≠ some ';') :
    removeDeadCode (lineText front head close blanks indent line) = front ++ line := by
  obtain ⟨f, hfind, hf⟩ := h.exists_found_of_open hclose
  have hcut : head ++ (close ++ (blanks ++ '\n' :: (indent ++ line)))
      = head ++ (blanks ++ '\n' :: indent) ++ line := by simp [hclose]
  rw [hcut] at hf
  cases hfind with
  | closed _ => exact absurd rfl hopen
  | bare _ =>
      have hstops : continuesExpression line = false :=
        Bool.eq_false_iff.mpr (continuesExpression_iff.not.mpr h.line_apart)
      refine h.removeDeadCode_eq hcut hf hstops fun u v heq => ?_
      exact nilLocal_eq_none_inside h.line_clean heq _

/-- Without a semicolon at the declaration, one at the start of the line goes with it. -/
lemma removeDeadCode_of_next (hclose : close = []) {more back : Text} (hline : line = ';' :: more)
    (hmore : more = blanksBehind more ++ back) :
    removeDeadCode (lineText front head close blanks indent line) = front ++ back := by
  obtain ⟨f, hfind, hf⟩ := h.exists_found_of_open hclose
  have hcut : head ++ (close ++ (blanks ++ '\n' :: (indent ++ line)))
      = head ++ (blanks ++ '\n' :: indent) ++ ';' :: blanksBehind more ++ back := by
    simp [hclose, hline, ← hmore]
  rw [hcut] at hf
  subst hline
  cases hfind with
  | closed _ =>
      refine h.removeDeadCode_eq hcut hf rfl fun u v heq => ?_
      have hin : ';' :: more = ';' :: blanksBehind more ++ u ++ v := by
        rw [List.cons_append, List.cons_append, List.append_assoc, ← heq, ← hmore]
      have hnone := nilLocal_eq_none_inside h.line_clean hin
        (front ++ head ++ (blanks ++ '\n' :: indent))
      simpa only [List.append_assoc] using hnone
  | bare hopen => exact absurd rfl hopen

end BeforeLine

/-- **When the next line keeps its indentation.**  A declaration with a semicolon goes with the rest
of its line.  Without one it takes the indentation of the next line too, and if that line begins
with a semicolon, this and the blanks behind it.  So the next line stays as it is just if there is a
semicolon, or if there is no indentation to take and no semicolon on the next line. -/
theorem next_line_kept_iff {front head close blanks indent line : Text}
    (h : BeforeLine front head close blanks indent line) :
    (close = [';'] → removeDeadCode (lineText front head close blanks indent line)
      = front ++ (indent ++ line)) ∧
    (close = [] → line.head? ≠ some ';' →
      removeDeadCode (lineText front head close blanks indent line) = front ++ line) ∧
    (close = [] → ∀ more back, line = ';' :: more → more = blanksBehind more ++ back →
      removeDeadCode (lineText front head close blanks indent line) = front ++ back) ∧
    (removeDeadCode (lineText front head close blanks indent line) = front ++ (indent ++ line) ↔
      close = [';'] ∨ indent = [] ∧ line.head? ≠ some ';') := by
  refine ⟨h.removeDeadCode_of_closed, h.removeDeadCode_of_open,
    fun hclose _ _ => h.removeDeadCode_of_next hclose, fun hkept => ?_, ?_⟩
  · rcases h.close_form with hclose | hclose
    · refine .inr ?_
      by_cases hopen : line.head? = some ';'
      · -- what is left is shorter than the line
        obtain ⟨more, hline⟩ := List.head?_eq_some_iff.mp hopen
        obtain ⟨-, back, hmore⟩ := blanksBehind_sound more
        rw [h.removeDeadCode_of_next hclose hline hmore.symm] at hkept
        have hlength := congrArg List.length (List.append_cancel_left hkept)
        have hmore_length := congrArg List.length hmore
        simp only [hline, List.length_append, List.length_cons] at hlength hmore_length
        omega
      · rw [h.removeDeadCode_of_open hclose hopen] at hkept
        exact ⟨List.self_eq_append_left.mp (List.append_cancel_left hkept), hopen⟩
    · exact .inl hclose
  · rintro (hclose | ⟨hindent, hopen⟩)
    · exact h.removeDeadCode_of_closed hclose
    · rcases h.close_form with hclose | hclose
      · rw [h.removeDeadCode_of_open hclose hopen, hindent, List.nil_append]
      · exact h.removeDeadCode_of_closed hclose

/-- Text without a sign and without a parenthesis has no dead code. -/
lemma not_hasDeadCode {text : Text} (hsign : '=' ∉ text) (hparen : '(' ∉ text) :
    ¬ HasDeadCode text := by
  rintro ⟨front, w, back, rfl, hdead⟩
  cases hdead with
  | emptyFunction hform _ => exact hparen (by simp [hform.paren_mem])
  | nilDeclaration hat =>
      obtain ⟨gap, name, left, right, tail, -, -, rfl⟩ := hat.form.exists_head
      refine hsign ?_
      rw [nilHead_append_eq]
      simp

/-- A declaration in a block, with a semicolon or without one, and an indented line behind it. -/
lemma beforeLine_block {close : Text} (hclose : close = [] ∨ close = [';']) :
    BeforeLine "do\n".toList "local x = nil".toList close [' '] "  ".toList "return x".toList where
  head_form := ⟨[' '], ['x'], [' '], [' '], isNilHead_spaces (by decide), by decide⟩
  front_ends := endsOutsideWord_iff.mpr (by decide)
  front_clean := not_hasDeadCode (by decide) (by decide)
  close_form := hclose
  blanks_blank := by simp [isBlank_space]
  indent_form := by simp
  line_visible := ⟨'r', "eturn x".toList, by decide, by decide⟩
  line_apart := continuesExpression_iff.not.mp (by decide +kernel)
  line_clean := not_hasDeadCode (by decide) (by decide)

/-- With a semicolon the next line stays as it is. -/
theorem next_line_kept_iff_block :
    BeforeLine "do\n".toList "local x = nil".toList [';'] [' '] "  ".toList "return x".toList ∧
    removeDeadCode "do\nlocal x = nil; \n  return x".toList = "do\n  return x".toList := by
  have hline := beforeLine_block (.inr rfl)
  exact ⟨hline, (next_line_kept_iff hline).1 rfl⟩

/-- **The indentation of the next line is lost** behind a declaration without a semicolon. -/
theorem next_line_loses_indentation :
    BeforeLine "do\n".toList "local x = nil".toList [] [' '] "  ".toList "return x".toList ∧
    removeDeadCode "do\nlocal x = nil \n  return x".toList ≠ "do\n  return x".toList :=
  ⟨beforeLine_block (.inl rfl), by decide +kernel⟩

end LuaUnveil
