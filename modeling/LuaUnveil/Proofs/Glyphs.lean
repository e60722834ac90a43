import LuaUnveil.Layout.Lines
import LuaUnveil.Proofs.Pieces
import LuaUnveil.Proofs.Spacing

/-!
# Visible characters and the gaps between them

The layout of a script depends on its visible characters, and on which of them have blanks between
them.  This file writes such characters down in one recursion, and says what can be read off the
result.  `LuaUnveil.Proofs.Layout` shows that the passes over lines come to the same text.

**Glyphs.**  A `Glyph` is a visible character that knows whether a blank stands before it.

**Gaps.**  `layOut` writes glyphs down with the blanks that belong between them: line breaks and an
indentation where a line ends, and otherwise one space or nothing, as in the text (`gapBefore`).
No gap has more than two line breaks (`hasShortRuns_layOut`).

**Reading.**  All glyphs are written down, in their order (`content_layOut`), and the result can be
cut at each of them (`exists_layOut_append`).  Reading its glyphs and writing them down again gives
the same text (`layOut_glyphs_layOut`).
-/

namespace LuaUnveil

/-! ## Glyphs -/

/-- A visible character, and whether a blank stands before it. -/
structure Glyph where
  char : Char
  apart : Bool
  visible : isBlank char = false

/-- What is left of a text without its blanks. -/
def content (text : Text) : Text := text.filter fun c => !isBlank c

/-- The visible characters of a text, with the blanks between them reduced to a mark.  It is given
whether a blank stands before the text. -/
def glyphsFrom (apart : Bool) : Text → List Glyph
  | [] => []
  | c :: rest =>
    if h : isBlank c = true then glyphsFrom true rest
    else ⟨c, apart, by simpa using h⟩ :: glyphsFrom false rest

/-- The visible characters of a text. -/
def glyphs (text : Text) : List Glyph := glyphsFrom false text

section Reading

@[simp] lemma content_nil : content [] = [] := rfl

@[simp] lemma content_append (a b : Text) : content (a ++ b) = content a ++ content b :=
  List.filter_append ..

lemma content_cons_visible {c : Char} (hc : isBlank c = false) (rest : Text) :
    content (c :: rest) = c :: content rest := by simp [content, hc]

lemma content_of_blanks {gap : Text} (h : ∀ b ∈ gap, isBlank b = true) : content gap = [] := by
  simpa [content] using h

variable (apart : Bool)

@[simp] lemma glyphsFrom_nil : glyphsFrom apart [] = [] := rfl

lemma glyphsFrom_cons_blank {b : Char} (hb : isBlank b = true) (rest : Text) :
    glyphsFrom apart (b :: rest) = glyphsFrom true rest := by simp [glyphsFrom, hb]

lemma glyphsFrom_cons_visible {c : Char} (hc : isBlank c = false) (rest : Text) :
    glyphsFrom apart (c :: rest) = ⟨c, apart, hc⟩ :: glyphsFrom false rest := by
  simp [glyphsFrom, hc]

/-- Blanks before a text leave a mark at its first glyph. -/
lemma glyphsFrom_append_of_blanks {gap : Text} (h : ∀ b ∈ gap, isBlank b = true) (rest : Text) :
    glyphsFrom apart (gap ++ rest) = glyphsFrom (apart || !gap.isEmpty) rest := by
  induction gap generalizing apart with
  | nil => simp
  | cons b gap ih =>
      obtain ⟨hb, hgap⟩ := List.forall_mem_cons.mp h
      rw [List.cons_append, glyphsFrom_cons_blank apart hb, ih true hgap]
      simp

/-- A visible character cuts the glyphs. -/
lemma exists_glyphsFrom_append {c : Char} (hc : isBlank c = false) (front rest : Text) :
    ∃ mark, glyphsFrom apart (front ++ c :: rest)
      = glyphsFrom apart front ++ ⟨c, mark, hc⟩ :: glyphsFrom false rest := by
  induction front generalizing apart with
  | nil => exact ⟨apart, glyphsFrom_cons_visible apart hc rest⟩
  | cons d front ih =>
      cases hd : isBlank d with
      | true =>
          obtain ⟨mark, hmark⟩ := ih true
          refine ⟨mark, ?_⟩
          rw [List.cons_append, glyphsFrom_cons_blank apart hd, glyphsFrom_cons_blank apart hd,
            hmark]
      | false =>
          obtain ⟨mark, hmark⟩ := ih false
          refine ⟨mark, ?_⟩
          rw [List.cons_append, glyphsFrom_cons_visible apart hd, glyphsFrom_cons_visible apart hd,
            hmark, List.cons_append]

lemma map_char_glyphsFrom (text : Text) :
    (glyphsFrom apart text).map Glyph.char = content text := by
  induction text generalizing apart with
  | nil => rfl
  | cons c rest ih =>
      cases hc : isBlank c with
      | true =>
          rw [glyphsFrom_cons_blank apart hc, ih true]
          simp [content, hc]
      | false =>
          rw [glyphsFrom_cons_visible apart hc, List.map_cons, ih false,
            content_cons_visible hc]

end Reading

/-! ### A text on one line -/

/-- One space, if the glyph is set apart. -/
def Glyph.space (g : Glyph) : Text := if g.apart then [' '] else []

/-- A glyph on one line. -/
def Glyph.flat (g : Glyph) : Text := g.space ++ [g.char]

lemma Glyph.space_cases (g : Glyph) : g.space = [] ∨ g.space = [' '] := by
  cases h : g.apart <;> simp [space, h]

lemma Glyph.eq_of_mem_space (g : Glyph) {b : Char} (hb : b ∈ g.space) : b = ' ' := by
  rcases g.space_cases with hs | hs
  · simp [hs] at hb
  · simpa [hs] using hb

/-- Collapsing the blanks of a text puts its glyphs on one line, with perhaps a space at the
end. -/
lemma exists_collapseBlanks_eq (text : Text) : ∃ tail, (tail = [] ∨ tail = [' ']) ∧
    collapseBlanks text = (glyphs text).flatMap Glyph.flat ++ tail := by
  unfold glyphs
  induction text using collapseBlanks.induct with
  | case1 => exact ⟨[], .inl rfl, by simp⟩
  | case2 b rest hb ih =>
      obtain ⟨tail, htail, hrest⟩ := ih
      have hdrop : glyphsFrom true rest = glyphsFrom true (dropBlanks rest) := by
        have hblank : ∀ b ∈ rest.takeWhile isBlank, isBlank b = true :=
          fun b hb => List.mem_takeWhile_imp hb
        have hrun := glyphsFrom_append_of_blanks true hblank (dropBlanks rest)
        rwa [dropBlanks, List.takeWhile_append_dropWhile, Bool.true_or] at hrun
      rw [collapseBlanks_cons_blank hb, glyphsFrom_cons_blank false hb, hdrop]
      cases hrest' : dropBlanks rest with
      | nil => exact ⟨[' '], .inr rfl, by simp⟩
      | cons c rest' =>
          have hc : isBlank c = false := by
            have hfirst := List.head?_dropWhile_not isBlank rest
            rw [← dropBlanks, hrest'] at hfirst
            simpa using hfirst
          refine ⟨tail, htail, ?_⟩
          rw [hrest', glyphsFrom_cons_visible false hc] at hrest
          rw [hrest, glyphsFrom_cons_visible true hc]
          simp [Glyph.flat, Glyph.space]
  | case3 c rest hc ih =>
      obtain ⟨tail, htail, hrest⟩ := ih
      have hc : isBlank c = false := by simpa using hc
      refine ⟨tail, htail, ?_⟩
      rw [collapseBlanks_cons_other hc, glyphsFrom_cons_visible false hc, hrest]
      simp [Glyph.flat, Glyph.space]

/-! ## Gaps -/

/-- A line break, if there is to be one. -/
def breakIf (b : Bool) : Text := if b then ['\n'] else []

@[simp] lemma breakIf_true : breakIf true = ['\n'] := rfl

@[simp] lemma breakIf_false : breakIf false = [] := rfl

/-- Whether a line ends behind a character, before the next visible one. -/
def endsLine (c : Char) (next : Option Char) : Bool :=
  c == ';' || c == '{' || c == '}' || (c == ',' && !next.any fun e => e == '}' || e == ']')

/-- How many lines end between two visible characters. -/
def breaksBetween (c e : Char) : Nat := (endsLine c (some e)).toNat + (e == '}').toNat

/-- The depth of a line that begins with a character. -/
def depthAt (depth : Nat) (c : Char) : Nat := if c = '}' then depth - 1 else depth

/-- The number of open braces behind a character. -/
def depthAfter (depth : Nat) (c : Char) : Nat :=
  if c = '{' then depth + 1 else if c = '}' then depth - 1 else depth

/-- The blanks between a character and the glyph behind it. -/
def gapBefore (depth : Nat) (c : Char) (g : Glyph) : Text :=
  if breaksBetween c g.char = 0 then g.space
  else List.replicate (breaksBetween c g.char) '\n'
    ++ List.replicate (2 * depthAt depth g.char) ' '

/-- Write glyphs down behind a character, with so many braces open. -/
def layBehind (depth : Nat) (c : Char) : List Glyph → Text
  | [] => breakIf (endsLine c none)
  | g :: gs => gapBefore depth c g ++ g.char :: layBehind (depthAfter depth g.char) g.char gs

/-- Write glyphs down. -/
def layOut : List Glyph → Text
  | [] => []
  | g :: gs =>
    breakIf (g.char == '}') ++ g.char :: layBehind (depthAfter 0 g.char) g.char gs

lemma isBlank_break : isBlank '\n' = true := by decide

/-- A gap is made of blanks. -/
lemma isBlank_of_mem_gapBefore {depth : Nat} {c : Char} {g : Glyph} {b : Char}
    (hb : b ∈ gapBefore depth c g) : isBlank b = true := by
  unfold gapBefore at hb
  split_ifs at hb with hbreaks
  · rcases g.space_cases with hspace | hspace
    · simp [hspace] at hb
    · rw [hspace, List.mem_singleton] at hb
      rw [hb, isBlank_space]
  · rcases List.mem_append.mp hb with hb | hb
    · rw [List.eq_of_mem_replicate hb, isBlank_break]
    · rw [List.eq_of_mem_replicate hb, isBlank_space]

/-- A gap is empty if no line ends there and the glyph is not set apart. -/
lemma gapBefore_eq_nil_iff {depth : Nat} {c : Char} {g : Glyph} :
    gapBefore depth c g = [] ↔ breaksBetween c g.char = 0 ∧ g.apart = false := by
  unfold gapBefore
  split_ifs with hbreaks
  · simp [hbreaks, Glyph.space]
  · simp [hbreaks]

lemma breaksBetween_eq_zero_iff {c e : Char} : breaksBetween c e = 0 ↔
    ¬ (c = ';' ∨ c = '{' ∨ c = '}' ∨ e = '}' ∨ c = ',' ∧ e ≠ '}' ∧ e ≠ ']') := by
  simp only [breaksBetween, endsLine, Nat.add_eq_zero_iff, Bool.toNat_eq_zero, Option.any_some,
    Bool.or_eq_false_iff, Bool.and_eq_false_iff, Bool.not_eq_false', Bool.or_eq_true,
    beq_eq_false_iff_ne, beq_iff_eq]
  tauto

/-! ### Runs of blanks -/

lemma count_break_breakIf_le (b : Bool) : (breakIf b).count '\n' ≤ 2 := by cases b <;> simp

lemma count_break_gapBefore_le (depth : Nat) (c : Char) (g : Glyph) :
    (gapBefore depth c g).count '\n' ≤ 2 := by
  have hle : ∀ b : Bool, b.toNat ≤ 1 := Bool.toNat_le
  unfold gapBefore
  split_ifs with hbreaks
  · rcases g.space_cases with hspace | hspace <;> simp [hspace]
  · have hcount : (List.replicate (2 * depthAt depth g.char) ' ').count '\n' = 0 :=
      List.count_eq_zero.mpr (by simp)
    rw [List.count_append, List.count_replicate_self, hcount, breaksBetween]
    have := hle (endsLine c (some g.char))
    have := hle (g.char == '}')
    omega

/-- No run of blanks in a text has more than two line breaks. -/
def HasShortRuns (text : Text) : Prop :=
  ∀ run, run <:+: text → (∀ b ∈ run, isBlank b = true) → run.count '\n' ≤ 2

/-- A visible character keeps the runs before it and behind it apart. -/
lemma HasShortRuns.append_cons {gap rest : Text} {c : Char} (hgap : gap.count '\n' ≤ 2)
    (hc : isBlank c = false) (hrest : HasShortRuns rest) : HasShortRuns (gap ++ c :: rest) := by
  intro run hrun hblank
  have hnot : c ∉ run := fun hmem => by
    rw [hblank c hmem] at hc
    cases hc
  rcases List.infix_append_iff.mp hrun with hrun | hrun | ⟨front, back, rfl, hfront, hback⟩
  · exact (hrun.sublist.count_le '\n').trans hgap
  · rcases List.infix_cons_iff.mp hrun with ⟨more, hmore⟩ | hrun
    · -- a run that begins at the visible character is empty
      cases run with
      | nil => simp
      | cons d run => exact absurd (List.cons.inj hmore).1 (List.ne_of_not_mem_cons hnot).symm
    · exact hrest run hrun hblank
  · obtain rfl : back = [] := by
      obtain ⟨more, hmore⟩ := hback
      cases back with
      | nil => rfl
      | cons d back =>
          obtain rfl : d = c := (List.cons.inj hmore).1
          exact absurd (by simp) hnot
    rw [List.append_nil]
    exact (hfront.sublist.count_le '\n').trans hgap

lemma hasShortRuns_layBehind (depth : Nat) (c : Char) (gs : List Glyph) :
    HasShortRuns (layBehind depth c gs) := by
  induction gs generalizing depth c with
  | nil =>
      intro run hrun _
      exact (hrun.sublist.count_le '\n').trans (count_break_breakIf_le _)
  | cons g gs ih =>
      exact .append_cons (count_break_gapBefore_le depth c g) g.visible (ih _ _)

/-- **No gap of a layout has more than two line breaks.** -/
lemma hasShortRuns_layOut (gs : List Glyph) : HasShortRuns (layOut gs) := by
  cases gs with
  | nil =>
      intro run hrun _
      simp [List.infix_nil.mp hrun]
  | cons g gs =>
      exact .append_cons (count_break_breakIf_le _) g.visible (hasShortRuns_layBehind _ _ gs)

/-- Where all runs are short there is nothing to squeeze. -/
lemma HasShortRuns.squeezeBlankLines_eq {text : Text} (h : HasShortRuns text) :
    squeezeBlankLines text = text := by
  have hplains : pieces blankLineRun text = text.map .plain := by
    refine pieces_eq_plains fun front back htext => ?_
    cases back with
    | nil => rfl
    | cons c rest =>
        by_cases hc : c = '\n'
        · subst hc
          -- the run goes through the blanks behind the line break
          have hrun := h ('\n' :: rest.takeWhile isBlank) (by
            rw [htext]
            exact ((List.cons_prefix_cons.mpr ⟨rfl, List.takeWhile_prefix _⟩).isInfix).trans
              (List.suffix_append _ _).isInfix)
            (List.forall_mem_cons.mpr ⟨isBlank_break, fun b hb => List.mem_takeWhile_imp hb⟩)
          have hle := (throughLastBreak_isPrefix ('\n' :: rest.takeWhile isBlank)).sublist.count_le
            '\n'
          simp only [blankLineRun]
          rw [if_neg (by omega)]
        · simp [blankLineRun, hc]
  rw [squeezeBlankLines, replaceAll, hplains]
  simpa using assemble_plains_append (fun _ : Found Unit => ['\n', '\n']) text []

/-! ## What is written down -/

lemma content_gapBefore (depth : Nat) (c : Char) (g : Glyph) :
    content (gapBefore depth c g) = [] :=
  content_of_blanks fun _ => isBlank_of_mem_gapBefore

lemma content_breakIf (b : Bool) : content (breakIf b) = [] := by cases b <;> rfl

lemma content_layBehind (depth : Nat) (c : Char) (gs : List Glyph) :
    content (layBehind depth c gs) = gs.map Glyph.char := by
  induction gs generalizing depth c with
  | nil => exact content_breakIf _
  | cons g gs ih =>
      rw [layBehind, content_append, content_gapBefore, content_cons_visible g.visible, ih]
      rfl

/-- Glyphs are all written down, in their order. -/
lemma content_layOut (gs : List Glyph) : content (layOut gs) = gs.map Glyph.char := by
  cases gs with
  | nil => rfl
  | cons g gs =>
      rw [layOut, content_append, content_breakIf, content_cons_visible g.visible,
        content_layBehind]
      rfl

/-- What is written down behind a character, cut at a glyph. -/
lemma exists_layBehind_append (g : Glyph) (gs : List Glyph) :
    ∀ (before : List Glyph) (depth : Nat) (c : Char), ∃ front depth',
      content front = before.map Glyph.char ∧
      layBehind depth c (before ++ g :: gs) = front ++ g.char :: layBehind depth' g.char gs
  | [], depth, c => ⟨gapBefore depth c g, _, content_gapBefore depth c g, rfl⟩
  | h :: before, depth, c => by
      obtain ⟨front, depth', hfront, hlay⟩ :=
        exists_layBehind_append g gs before (depthAfter depth h.char) h.char
      refine ⟨gapBefore depth c h ++ h.char :: front, depth', ?_, ?_⟩
      · rw [content_append, content_gapBefore, content_cons_visible h.visible, hfront]
        rfl
      · rw [List.cons_append, layBehind, hlay]
        simp

/-- What is written down, cut at a glyph. -/
lemma exists_layOut_append (before : List Glyph) (g : Glyph) (gs : List Glyph) :
    ∃ front depth, content front = before.map Glyph.char ∧
      layOut (before ++ g :: gs) = front ++ g.char :: layBehind depth g.char gs := by
  cases before with
  | nil => exact ⟨breakIf (g.char == '}'), _, content_breakIf _, rfl⟩
  | cons h before =>
      obtain ⟨front, depth, hfront, hlay⟩ :=
        exists_layBehind_append g gs before (depthAfter 0 h.char) h.char
      refine ⟨breakIf (h.char == '}') ++ h.char :: front, depth, ?_, ?_⟩
      · rw [content_append, content_breakIf, content_cons_visible h.visible, hfront]
        rfl
      · rw [List.cons_append, layOut, hlay]
        simp

/-! ## Reading it back -/

/-- Set glyphs apart where a line ends before them. -/
def setApart (c : Char) : List Glyph → List Glyph
  | [] => []
  | g :: gs => { g with apart := g.apart || breaksBetween c g.char != 0 } :: setApart g.char gs

/-- Reading what was written down gives the glyphs back, set apart where there is a gap now. -/
lemma glyphsFrom_layBehind (depth : Nat) (c : Char) (gs : List Glyph) :
    glyphsFrom false (layBehind depth c gs) = setApart c gs := by
  induction gs generalizing depth c with
  | nil =>
      rw [layBehind]
      cases endsLine c none <;> rfl
  | cons g gs ih =>
      have hmark : (!(gapBefore depth c g).isEmpty) = (g.apart || breaksBetween c g.char != 0) := by
        rw [Bool.eq_iff_iff]
        simp only [Bool.not_eq_true', List.isEmpty_eq_false_iff, ne_eq, gapBefore_eq_nil_iff,
          Bool.or_eq_true, bne_iff_ne]
        cases g.apart <;> simp
      rw [layBehind, glyphsFrom_append_of_blanks false fun b => isBlank_of_mem_gapBefore,
        glyphsFrom_cons_visible _ g.visible, ih, Bool.false_or, hmark]
      rfl

/-- Where a line ends, it makes no difference whether there was a gap. -/
lemma layBehind_setApart (depth : Nat) (c : Char) (gs : List Glyph) :
    layBehind depth c (setApart c gs) = layBehind depth c gs := by
  induction gs generalizing depth c with
  | nil => rfl
  | cons g gs ih =>
      rw [setApart, layBehind, layBehind, ih]
      congr 1
      by_cases hbreaks : breaksBetween c g.char = 0 <;> simp [gapBefore, hbreaks, Glyph.space]

/-- Reading what was written down and writing it down again changes nothing: the same characters are
set apart where there are blanks now, and the same blanks are put there. -/
lemma layOut_glyphs_layOut (gs : List Glyph) : layOut (glyphs (layOut gs)) = layOut gs := by
  cases gs with
  | nil => rfl
  | cons g gs =>
      have hread : glyphs (layOut (g :: gs))
          = { g with apart := g.char == '}' } :: setApart g.char gs := by
        rw [glyphs, layOut, glyphsFrom_append_of_blanks, glyphsFrom_cons_visible _ g.visible,
          glyphsFrom_layBehind]
        · cases g.char == '}' <;> rfl
        · cases g.char == '}' <;> simp [isBlank_break]
      rw [hread, layOut, layOut, layBehind_setApart]

end LuaUnveil
