import LuaUnveil.Proofs.Glyphs

/-!
# Laying a script out moves blanks only

The layout puts a script on one line, cuts it into lines, trims and indents each of them, and
squeezes the blank lines.  This file says what comes out at the end, character by character.

**Line breaks.**  `breakLines_cons`: what both kinds of line breaks do at one character.

**Indentation.**  A line is written down when it ends (`indented_line`).  While it has been begun it
is an `OpenLine`, which has no brace in it but perhaps the last character, so that this character
alone tells the depth of the line and of those behind it.

**The layout.**  `formatCode_eq_layOut`: the layout of a text writes its glyphs down.  The induction
is on the glyphs, and carries the line that has been begun (`indented_breakLines`).  What is left to
squeeze is nothing, since no gap has more than two line breaks.
-/

namespace LuaUnveil

/-! ## Line breaks -/

/-- Line breaks do not hide the end of a list. -/
lemma closesList_breakAtMarks (text : Text) : closesList (breakAtMarks text) = closesList text := by
  induction text with
  | nil => rfl
  | cons c rest ih =>
      cases hc : isBlank c with
      | true =>
          have hmark : breakAtMarks (c :: rest) = c :: breakAtMarks rest := by
            have hne : ¬ (c = ';' ∨ c = '{') ∧ c ≠ '}' := by
              refine ⟨?_, ?_⟩ <;> rintro (rfl | rfl) <;> revert hc <;> decide
            simp [breakAtMarks, hne]
          rw [hmark, closesList, closesList, dropBlanks_cons_blank hc, dropBlanks_cons_blank hc]
          exact ih
      | false =>
          have hfirst : (dropBlanks (breakAtMarks (c :: rest))).head? = some c := by
            rw [breakAtMarks, List.flatMap_cons]
            split_ifs
            · simp [dropBlanks_cons_other hc]
            · simp [dropBlanks_cons_blank isBlank_break, dropBlanks_cons_other hc]
            · simp [dropBlanks_cons_other hc]
          rw [closesList, closesList, hfirst, dropBlanks_cons_other hc, List.head?_cons]

/-- What the line breaks do at one character. -/
lemma breakLines_cons (c : Char) (rest : Text) : breakLines (c :: rest) = breakIf (c == '}')
    ++ c :: (breakIf (endsLine c (dropBlanks rest).head?) ++ breakLines rest) := by
  have hcloses : closesList (breakAtMarks rest)
      = (dropBlanks rest).head?.any fun e => e == '}' || e == ']' := closesList_breakAtMarks rest
  rw [breakLines, breakAtMarks, List.flatMap_cons]
  split_ifs with hmark hbrace
  · rcases hmark with rfl | rfl <;>
      simp [breakAtCommas, breakLines, breakAtMarks, breakIf, endsLine]
  · subst hbrace
    simp [breakAtCommas, breakLines, breakAtMarks, breakIf, endsLine]
  · by_cases hcomma : c = ','
    · subst hcomma
      change breakAtCommas (',' :: breakAtMarks rest) = _
      rw [breakAtCommas, hcloses]
      cases hnext : (dropBlanks rest).head?.any fun e => e == '}' || e == ']' <;>
        simp [breakLines, breakIf, endsLine, hnext]
    · simp only [not_or] at hmark
      simp [breakAtCommas, breakLines, breakAtMarks, breakIf, endsLine, hmark, hbrace, hcomma]

/-! ## Indentation -/

/-- Indent the lines of a text. -/
def indented (depth : Nat) (text : Text) : Text := joinLines (indentLines depth (lines text))

lemma lines_append_break {l : Text} (hl : '\n' ∉ l) (rest : Text) :
    lines (l ++ '\n' :: rest) = l :: lines rest :=
  List.splitOn_append_cons_self_of_not_mem hl rest

lemma lines_cons_of_ne {c : Char} (hc : c ≠ '\n') (rest : Text) :
    lines (c :: rest) = (lines rest).modifyHead (c :: ·) := by
  simp [lines, List.splitOn_cons_eq_if_modifyHead, hc]

lemma lines_break_cons (rest : Text) : lines ('\n' :: rest) = [] :: lines rest :=
  lines_append_break List.not_mem_nil rest

lemma exists_lines (text : Text) : ∃ l ls, lines text = l :: ls :=
  List.exists_cons_of_ne_nil (List.splitOn_ne_nil '\n' text)

lemma joinLines_cons {ls : List Text} (h : ls ≠ []) (l : Text) :
    joinLines (l :: ls) = l ++ '\n' :: joinLines ls := by
  obtain ⟨l', ls, rfl⟩ := List.exists_cons_of_ne_nil h
  rw [joinLines, List.intercalate_cons_cons, joinLines]
  simp

lemma indentLines_blank {l : Text} (hl : trim l = []) (depth : Nat) (ls : List Text) :
    indentLines depth (l :: ls) = [] :: indentLines depth ls := by simp [indentLines, hl]

lemma indentLines_visible {l w : Text} (hl : trim l = w) (hw : w ≠ []) (depth : Nat)
    (ls : List Text) : indentLines depth (l :: ls)
      = (List.replicate (2 * ownDepth depth w) ' ' ++ w)
        :: indentLines (depthBehind depth w) ls := by
  simp [indentLines, hl, hw]

lemma indentLines_ne_nil {ls : List Text} (h : ls ≠ []) (depth : Nat) :
    indentLines depth ls ≠ [] := by
  obtain ⟨l, ls, rfl⟩ := List.exists_cons_of_ne_nil h
  by_cases hl : trim l = []
  · simp [indentLines_blank hl]
  · simp [indentLines_visible rfl hl]

lemma indentLines_lines_ne_nil (depth : Nat) (text : Text) :
    indentLines depth (lines text) ≠ [] :=
  indentLines_ne_nil (List.splitOn_ne_nil '\n' text) depth

lemma indented_nil (depth : Nat) : indented depth [] = [] := by
  simp [indented, lines, indentLines, trim, joinLines]

/-- An empty line stays one. -/
lemma indented_break (depth : Nat) (rest : Text) :
    indented depth ('\n' :: rest) = '\n' :: indented depth rest := by
  rw [indented, lines_break_cons, indentLines_blank rfl,
    joinLines_cons (indentLines_lines_ne_nil depth rest)]
  rfl

/-- A space before a line is trimmed off. -/
lemma indented_space (depth : Nat) (rest : Text) :
    indented depth (' ' :: rest) = indented depth rest := by
  obtain ⟨l, ls, hls⟩ := exists_lines rest
  have htrim : trim (' ' :: l) = trim l := by
    rw [trim, trim, dropBlanks_cons_blank isBlank_space]
  rw [indented, indented, lines_cons_of_ne (by decide), hls, List.modifyHead_cons]
  simp only [indentLines, htrim]

lemma indented_glyph_space (g : Glyph) (depth : Nat) (rest : Text) :
    indented depth (g.space ++ rest) = indented depth rest := by
  rcases g.space_cases with hs | hs <;> simp [hs, indented_space]

/-- A line that ends is written down, and the indentation goes on behind it. -/
lemma indented_line {l w : Text} (hbreak : '\n' ∉ l) (hl : trim l = w) (hw : w ≠ [])
    (depth : Nat) (rest : Text) : indented depth (l ++ '\n' :: rest)
      = List.replicate (2 * ownDepth depth w) ' '
        ++ (w ++ '\n' :: indented (depthBehind depth w) rest) := by
  rw [indented, lines_append_break hbreak, indentLines_visible hl hw,
    joinLines_cons (indentLines_lines_ne_nil _ rest), List.append_assoc]
  rfl

/-- The last line is written down. -/
lemma indented_last {l w : Text} (hbreak : '\n' ∉ l) (hl : trim l = w) (hw : w ≠ [])
    (depth : Nat) : indented depth l = List.replicate (2 * ownDepth depth w) ' ' ++ w := by
  rw [indented, lines, List.splitOn_eq_singleton hbreak, indentLines_visible hl hw]
  simp [indentLines, joinLines]

/-! ### Lines that have been begun -/

/-- A line up to its last visible character so far: it has been trimmed in front, and no brace
stands in it before that character. -/
structure OpenLine (v : Text) (c : Char) : Prop where
  visible : isBlank c = false
  begins : ∀ b ∈ v.head?, isBlank b = false
  no_break : '\n' ∉ v
  no_brace : ∀ b ∈ v, b ≠ '{' ∧ b ≠ '}'

lemma ne_break_of_visible {c : Char} (hc : isBlank c = false) : c ≠ '\n' := by
  rintro rfl
  cases hc

namespace OpenLine

/-- A line begins with any glyph. -/
lemma begin (g : Glyph) : OpenLine [] g.char := ⟨g.visible, by simp, by simp, by simp⟩

variable {v : Text} {c : Char} (h : OpenLine v c)

include h

/-- A line goes on with a glyph if it does not end before it. -/
lemma extend {g : Glyph} (hbreaks : breaksBetween c g.char = 0) :
    OpenLine (v ++ c :: g.space) g.char := by
  have hc := breaksBetween_eq_zero_iff.mp hbreaks
  refine ⟨g.visible, ?_, ?_, ?_⟩
  · cases v with
    | nil => simpa using h.visible
    | cons b v => exact fun d hd => h.begins d hd
  · simp only [List.mem_append, List.mem_cons, not_or]
    refine ⟨h.no_break, (ne_break_of_visible h.visible).symm, fun hb => ?_⟩
    cases g.eq_of_mem_space hb
  · intro b hb
    rcases List.mem_append.mp hb with hb | hb
    · exact h.no_brace b hb
    · rcases List.mem_cons.mp hb with rfl | hb
      · tauto
      · rw [g.eq_of_mem_space hb]
        decide

lemma trim_append {after : Text} (hafter : ∀ b ∈ after, b = ' ') :
    trim (v ++ c :: after) = v ++ [c] := by
  have hblank : ∀ b ∈ after.reverse, isBlank b = true := fun b hb => by
    rw [hafter b (List.mem_reverse.mp hb), isBlank_space]
  have hfront : dropBlanks (v ++ c :: after) = v ++ c :: after := by
    cases v with
    | nil => exact dropBlanks_cons_other h.visible after
    | cons b v => exact dropBlanks_cons_other (h.begins b rfl) _
  have hback : (v ++ c :: after).reverse = after.reverse ++ c :: v.reverse := by simp
  rw [trim, hfront, hback, dropBlanks_append hblank, dropBlanks_cons_other h.visible]
  simp

lemma not_mem_append {after : Text} (hafter : ∀ b ∈ after, b = ' ') : '\n' ∉ v ++ c :: after := by
  have hspaces : '\n' ∉ after := fun hb => by cases hafter _ hb
  simp [h.no_break, hspaces, (ne_break_of_visible h.visible).symm]

lemma ownDepth_eq (depth : Nat) : ownDepth depth (v ++ [c]) = depthAt depth c := by
  have hmem : '}' ∈ v ++ [c] ↔ c = '}' := by
    simp only [List.mem_append, List.mem_singleton, eq_comm (a := '}')]
    exact ⟨fun hb => hb.resolve_left fun hb => (h.no_brace _ hb).2 rfl, .inr⟩
  simp [ownDepth, depthAt, hmem]

lemma depthBehind_eq (depth : Nat) : depthBehind depth (v ++ [c]) = depthAfter depth c := by
  have hmem : '{' ∈ v ++ [c] ↔ c = '{' := by
    simp only [List.mem_append, List.mem_singleton, eq_comm (a := '{')]
    exact ⟨fun hb => hb.resolve_left fun hb => (h.no_brace _ hb).1 rfl, .inr⟩
  simp only [depthBehind, h.ownDepth_eq, List.contains_iff_mem, hmem, depthAfter, depthAt]
  split_ifs <;> simp_all

/-- The line ends, and the indentation goes on behind it. -/
lemma indented_close (after : Text) (hafter : ∀ b ∈ after, b = ' ') (depth : Nat) (rest : Text) :
    indented depth (v ++ c :: (after ++ '\n' :: rest))
      = List.replicate (2 * depthAt depth c) ' '
        ++ (v ++ c :: '\n' :: indented (depthAfter depth c) rest) := by
  have hline := indented_line (h.not_mem_append hafter) (h.trim_append hafter) (by simp) depth rest
  rw [h.ownDepth_eq, h.depthBehind_eq] at hline
  simpa using hline

/-- The line is the last one. -/
lemma indented_end (after : Text) (hafter : ∀ b ∈ after, b = ' ') (depth : Nat) :
    indented depth (v ++ c :: after)
      = List.replicate (2 * depthAt depth c) ' ' ++ (v ++ [c]) := by
  rw [indented_last (h.not_mem_append hafter) (h.trim_append hafter) (by simp), h.ownDepth_eq]

end OpenLine

/-! ## The layout -/

lemma dropBlanks_flatMap_flat {tail : Text} (htail : tail = [] ∨ tail = [' ']) (gs : List Glyph) :
    (dropBlanks (gs.flatMap Glyph.flat ++ tail)).head? = gs.head?.map Glyph.char := by
  cases gs with
  | nil => rcases htail with rfl | rfl <;> rfl
  | cons g gs =>
      rw [List.flatMap_cons, Glyph.flat]
      rcases g.space_cases with hs | hs <;>
        simp [hs, dropBlanks_cons_blank isBlank_space, dropBlanks_cons_other g.visible]

lemma breakLines_space (rest : Text) : breakLines (' ' :: rest) = ' ' :: breakLines rest := by
  simp [breakLines_cons, breakIf, endsLine]

/-- The line breaks at one glyph. -/
lemma breakLines_glyph {tail : Text} (htail : tail = [] ∨ tail = [' ']) (g : Glyph)
    (gs : List Glyph) : breakLines ((g :: gs).flatMap Glyph.flat ++ tail)
      = g.space ++ (breakIf (g.char == '}') ++ g.char ::
        (breakIf (endsLine g.char (gs.head?.map Glyph.char))
          ++ breakLines (gs.flatMap Glyph.flat ++ tail))) := by
  have hchar := breakLines_cons g.char (gs.flatMap Glyph.flat ++ tail)
  rw [dropBlanks_flatMap_flat htail] at hchar
  rw [List.flatMap_cons, Glyph.flat, ← hchar]
  rcases g.space_cases with hs | hs <;> simp [hs, breakLines_space]

/-- **A line that has been begun is written down with all that follows.**  The induction is on the
glyphs behind it: each of them goes on with the line, or the line ends and the glyph begins the
next one. -/
theorem indented_breakLines {tail : Text} (htail : tail = [] ∨ tail = [' ']) (gs : List Glyph) :
    ∀ {v : Text} {c : Char}, OpenLine v c → ∀ depth : Nat,
      indented depth (v ++ c :: (breakIf (endsLine c (gs.head?.map Glyph.char))
          ++ breakLines (gs.flatMap Glyph.flat ++ tail)))
        = List.replicate (2 * depthAt depth c) ' '
          ++ (v ++ c :: layBehind (depthAfter depth c) c gs) := by
  induction gs with
  | nil =>
      intro v c h depth
      have hspaces : ∀ b ∈ tail, b = ' ' := by rcases htail with rfl | rfl <;> simp
      have hempty : indented (depthAfter depth c) tail = [] := by
        rcases htail with rfl | rfl <;> simp [indented_space, indented_nil]
      have hflat : breakLines tail = tail := by
        rcases htail with rfl | rfl
        · rfl
        · exact breakLines_space []
      rw [List.flatMap_nil, List.nil_append, hflat, List.head?_nil, Option.map_none]
      cases hend : endsLine c none with
      | true =>
          have hclose := h.indented_close [] (by simp) depth tail
          simpa [layBehind, hend, hempty] using hclose
      | false => simpa [layBehind, hend] using h.indented_end tail hspaces depth
  | cons g gs ih =>
      intro v c h depth
      have hnext := ih (.begin g) (depthAfter depth c)
      have hgoon := fun hbreaks => ih (h.extend (g := g) hbreaks) depth
      rw [breakLines_glyph htail, List.head?_cons, Option.map_some, layBehind]
      generalize breakIf (endsLine g.char (gs.head?.map Glyph.char))
        ++ breakLines (gs.flatMap Glyph.flat ++ tail) = later at hnext hgoon ⊢
      rw [List.nil_append, List.nil_append] at hnext
      cases hend : endsLine c (some g.char) with
      | true =>
          have hclose := h.indented_close [] (by simp) depth
            (g.space ++ (breakIf (g.char == '}') ++ g.char :: later))
          rw [indented_glyph_space] at hclose
          cases hbrace : g.char == '}' <;>
            simpa [gapBefore, breaksBetween, hend, hbrace, indented_break, hnext] using hclose
      | false =>
          cases hbrace : g.char == '}' with
          | true =>
              have hclose := h.indented_close g.space (fun b => g.eq_of_mem_space) depth
                (g.char :: later)
              simpa [gapBefore, breaksBetween, hend, hbrace, hnext] using hclose
          | false =>
              -- the line goes on, and no brace has changed the depth yet
              have hbreaks : breaksBetween c g.char = 0 := by simp [breaksBetween, hend, hbrace]
              have hc := breaksBetween_eq_zero_iff.mp hbreaks
              have hdepth : depthAt depth c = depth ∧ depthAfter depth c = depth ∧
                  depthAt depth g.char = depth := by
                simp only [depthAt, depthAfter]
                refine ⟨if_neg ?_, ?_, if_neg ?_⟩
                · tauto
                · rw [if_neg (by tauto), if_neg (by tauto)]
                · tauto
              simpa [gapBefore, hbreaks, hdepth] using hgoon hbreaks

/-- Indenting the lines of a script writes its glyphs down. -/
theorem indented_collapseBlanks (text : Text) :
    indented 0 (breakLines (collapseBlanks text)) = layOut (glyphs text) := by
  obtain ⟨tail, htail, hflat⟩ := exists_collapseBlanks_eq text
  rw [hflat]
  cases glyphs text with
  | nil => rcases htail with rfl | rfl <;> simp [breakLines_space, indented_space, layOut] <;> rfl
  | cons g gs =>
      have hfirst := indented_breakLines htail gs (.begin g) 0
      have hdepth : depthAt 0 g.char = 0 := by simp [depthAt]
      rw [hdepth] at hfirst
      rw [breakLines_glyph htail, indented_glyph_space, layOut]
      cases hbrace : g.char == '}' <;> simpa [indented_break] using hfirst

/-- Nothing is squeezed: the layout is what comes out of the indentation. -/
lemma formatCode_eq_indented (text : Text) :
    formatCode text = indented 0 (breakLines (collapseBlanks text)) := by
  rw [formatCode, ← indented, indented_collapseBlanks,
    (hasShortRuns_layOut _).squeezeBlankLines_eq]

/-- **The layout of a text writes its glyphs down.** -/
theorem formatCode_eq_layOut (text : Text) : formatCode text = layOut (glyphs text) := by
  rw [formatCode_eq_indented, indented_collapseBlanks]

/-! ## What stays -/

/-- Two visible characters at a place in a text, with nothing but blanks between them. -/
structure Neighbours (text front : Text) (a : Char) (gap : Text) (c : Char) (back : Text) :
    Prop where
  text_eq : text = front ++ a :: (gap ++ c :: back)
  left_visible : isBlank a = false
  right_visible : isBlank c = false
  blank : ∀ b ∈ gap, isBlank b = true

/-- Neighbours are glyphs one after the other, and the second one is set apart if there is a gap. -/
lemma Neighbours.exists_glyphs {text front gap back : Text} {a c : Char}
    (h : Neighbours text front a gap c back) : ∃ (before after : List Glyph) (g : Glyph),
      before.map Glyph.char = content front ∧ after.map Glyph.char = content back ∧ g.char = a ∧
      glyphs text = before ++ g :: ⟨c, !gap.isEmpty, h.right_visible⟩ :: after := by
  obtain ⟨mark, hmark⟩ :=
    exists_glyphsFrom_append false h.left_visible front (gap ++ c :: back)
  refine ⟨glyphsFrom false front, glyphsFrom false back, ⟨a, mark, h.left_visible⟩,
    map_char_glyphsFrom _ _, map_char_glyphsFrom _ _, rfl, ?_⟩
  rw [glyphsFrom_append_of_blanks false h.blank, Bool.false_or,
    glyphsFrom_cons_visible _ h.right_visible] at hmark
  exact (congrArg (glyphsFrom false) h.text_eq).trans hmark

/-- **The layout moves blanks only, and joins nothing.**  The visible characters stay what they are,
in their order.  Two of them that are neighbours in the text are neighbours in the layout.  There is
a gap between them just if there was one, or a line ends behind the first or before the second.  No
run of blanks has more than two line breaks. -/
theorem formatCode_moves_blanks (text : Text) :
    content (formatCode text) = content text ∧
    (∀ front a gap c back, Neighbours text front a gap c back →
      ∃ front' gap' back', Neighbours (formatCode text) front' a gap' c back' ∧
        content front' = content front ∧ content back' = content back ∧
        (gap' ≠ [] ↔ gap ≠ [] ∨
          (a = ';' ∨ a = '{' ∨ a = '}' ∨ c = '}' ∨ a = ',' ∧ c ≠ '}' ∧ c ≠ ']'))) ∧
    (∀ run, run <:+: formatCode text → (∀ b ∈ run, isBlank b = true) → run.count '\n' ≤ 2) := by
  rw [formatCode_eq_layOut]
  refine ⟨?_, ?_, hasShortRuns_layOut _⟩
  · rw [content_layOut, glyphs, map_char_glyphsFrom]
  · intro front a gap c back h
    obtain ⟨before, after, g, hbefore, hafter, rfl, hglyphs⟩ := h.exists_glyphs
    obtain ⟨front', depth, hfront', hlay⟩ := exists_layOut_append before g
      (⟨c, !gap.isEmpty, h.right_visible⟩ :: after)
    refine ⟨front', gapBefore depth g.char ⟨c, !gap.isEmpty, h.right_visible⟩,
      layBehind (depthAfter depth c) c after, ?_, hfront'.trans hbefore, ?_, ?_⟩
    · exact ⟨by rw [hglyphs, hlay, layBehind], h.left_visible, h.right_visible,
        fun b => isBlank_of_mem_gapBefore⟩
    · rw [content_layBehind, hafter]
    · rw [ne_eq, gapBefore_eq_nil_iff, breaksBetween_eq_zero_iff]
      simp only [Bool.not_eq_false', List.isEmpty_iff]
      tauto

/-- A list on one line, with a gap before its end. -/
def shortList : Text := "\x7b1,2 \x7d".toList

/-- The comma ends its line, though nothing stood behind it. -/
theorem formatCode_moves_blanks_shortList :
    Neighbours shortList "\x7b1".toList ',' [] '2' " \x7d".toList ∧
    formatCode shortList = "\x7b\n  1,\n  2\n\x7d\n".toList ∧
    ∃ front' gap' back', Neighbours (formatCode shortList) front' ',' gap' '2' back' ∧
      content front' = "\x7b1".toList ∧ content back' = "\x7d".toList ∧ gap' ≠ [] := by
  have hpair : Neighbours shortList "\x7b1".toList ',' [] '2' " \x7d".toList :=
    ⟨by decide, by decide, by decide, by simp⟩
  obtain ⟨front', gap', back', hpair', hfront', hback', hgap'⟩ :=
    (formatCode_moves_blanks shortList).2.1 _ _ _ _ _ hpair
  refine ⟨hpair, by decide +kernel, front', gap', back', hpair', hfront'.trans (by decide),
    hback'.trans (by decide), hgap'.mpr (.inr (by decide))⟩

/-- **Laying out what has been laid out changes nothing.** -/
theorem formatCode_idempotent (text : Text) :
    formatCode (formatCode text) = formatCode text := by
  rw [formatCode_eq_layOut, formatCode_eq_layOut, layOut_glyphs_layOut]

end LuaUnveil
