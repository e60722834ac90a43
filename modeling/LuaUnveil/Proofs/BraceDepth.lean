import LuaUnveil.Proofs.Layout

/-!
# The indentation of a line is its brace depth

A line is indented by what its neighbours above have in them: a line that has a closing brace stands
one level out, a line that has an opening one sends those below one level in.  Each line is asked
once, however many braces it has.  This file says that this counts every brace, since the line
breaks leave at most one on each line.

**One brace.**  `HasOuterBrace` says that a closing brace is all there is on its line, and that an
opening one is the last thing on it.  Every line that the line breaks make is of this kind
(`hasOuterBrace_breakLines`).

**Counting.**  On such a line the depth behind it is the count of its braces
(`HasOuterBrace.foldl_depthAfter`), so the indentation of a line can be read off the text of the
lines above it (`standsAt_indentLines`).
-/

namespace LuaUnveil

/-! ## One brace on a line -/

/-- A closing brace is alone on its line, and nothing stands behind an opening one. -/
structure HasOuterBrace (l : Text) : Prop where
  close_alone : '}' ∈ l → l = ['}']
  open_last : ∀ {front back}, l = front ++ '{' :: back → back = []

namespace HasOuterBrace

lemma empty : HasOuterBrace [] := ⟨by simp, by simp⟩

lemma singleton (c : Char) : HasOuterBrace [c] := by
  refine ⟨fun h => ?_, fun {front back} h => ?_⟩
  · rw [List.mem_singleton.mp h]
  · cases front with
    | nil => exact (List.cons.inj h).2.symm
    | cons d front => simp at h

/-- A character before a line without a closing brace. -/
lemma cons {c : Char} {l : Text} (hopen : c ≠ '{') (hclose : c ≠ '}') (hl : '}' ∉ l)
    (h : HasOuterBrace l) : HasOuterBrace (c :: l) := by
  refine ⟨fun hmem => ?_, fun {front back} heq => ?_⟩
  · rcases List.mem_cons.mp hmem with rfl | hmem
    · exact absurd rfl hclose
    · exact absurd hmem hl
  · cases front with
    | nil => exact absurd (List.cons.inj heq).1 hopen
    | cons d front => exact h.open_last (List.cons.inj heq).2

/-- What is left of a line without the blanks around it. -/
lemma trim {l : Text} (h : HasOuterBrace l) : HasOuterBrace (trim l) := by
  obtain ⟨before, after, -, -, hl⟩ := exists_trim l
  refine ⟨fun hmem => ?_, fun {front back} heq => ?_⟩
  · have hwhole : l = ['}'] := h.close_alone (by
      rw [hl]
      simp [hmem])
    rw [hwhole]
    rfl
  · have hback : l = (before ++ front) ++ '{' :: (back ++ after) := by
      rw [hl, heq]
      simp
    exact (List.append_eq_nil_iff.mp (h.open_last hback)).1

end HasOuterBrace

/-- **The line breaks leave one brace on a line at most.**  The first line has no closing brace, so
that whatever comes before it can be put on it. -/
lemma hasOuterBrace_breakLines (text : Text) : ∃ l ls, lines (breakLines text) = l :: ls ∧
    '}' ∉ l ∧ ∀ x ∈ l :: ls, HasOuterBrace x := by
  induction text with
  | nil => exact ⟨[], [], rfl, by simp, by simpa using .empty⟩
  | cons c rest ih =>
      obtain ⟨l, ls, hlines, hclose, hall⟩ := ih
      rw [breakLines_cons]
      by_cases hbrace : c = '}'
      · subst hbrace
        refine ⟨[], ['}'] :: l :: ls, ?_, by simp,
          List.forall_mem_cons.mpr ⟨.empty, List.forall_mem_cons.mpr ⟨.singleton _, hall⟩⟩⟩
        have hline := lines_append_break (l := ['}']) (by simp) (breakLines rest)
        have hends : ∀ next, endsLine '}' next = true := by simp [endsLine]
        rw [hends, beq_self_eq_true, breakIf_true, List.singleton_append, lines_break_cons,
          ← hlines, ← hline]
        rfl
      · rw [beq_eq_false_iff_ne.mpr hbrace, breakIf_false, List.nil_append]
        by_cases hbreak : c = '\n'
        · subst hbreak
          refine ⟨[], l :: ls, ?_, by simp, List.forall_mem_cons.mpr ⟨.empty, hall⟩⟩
          have hends : ∀ next, endsLine '\n' next = false := by simp [endsLine]
          rw [hends, breakIf_false, List.nil_append, lines_break_cons, hlines]
        · cases hends : endsLine c (dropBlanks rest).head? with
          | true =>
              refine ⟨[c], l :: ls, ?_, by simpa using Ne.symm hbrace,
                List.forall_mem_cons.mpr ⟨.singleton c, hall⟩⟩
              have hline := lines_append_break (l := [c]) (by simpa using Ne.symm hbreak)
                (breakLines rest)
              rw [← hlines, ← hline]
              rfl
          | false =>
              -- the line goes on, so its first character is no brace
              have hopen : c ≠ '{' := by
                rintro rfl
                simp [endsLine] at hends
              obtain ⟨hl, hls⟩ := List.forall_mem_cons.mp hall
              refine ⟨c :: l, ls, ?_, by simp [hclose, Ne.symm hbrace],
                List.forall_mem_cons.mpr ⟨hl.cons hopen hbrace hclose, hls⟩⟩
              rw [breakIf_false, List.nil_append, lines_cons_of_ne hbreak, hlines]
              rfl

/-! ## Counting braces -/

/-- The number of open braces behind a text: one more with each opening brace, and one less, but
never less than none, with each closing one. -/
def openBraces (text : Text) : Nat := text.foldl depthAfter 0

lemma foldl_depthAfter_of_no_brace {w : Text} (h : ∀ c ∈ w, c ≠ '{' ∧ c ≠ '}') (depth : Nat) :
    w.foldl depthAfter depth = depth := by
  induction w with
  | nil => rfl
  | cons c w ih =>
      obtain ⟨⟨hopen, hclose⟩, hw⟩ := List.forall_mem_cons.mp h
      rw [List.foldl_cons, depthAfter, if_neg hopen, if_neg hclose, ih hw]

lemma foldl_depthAfter_spaces (n depth : Nat) :
    (List.replicate n ' ').foldl depthAfter depth = depth :=
  foldl_depthAfter_of_no_brace (fun c hc => by simp [List.eq_of_mem_replicate hc]) depth

namespace HasOuterBrace

/-- The three kinds of lines. -/
lemma cases {w : Text} (h : HasOuterBrace w) : w = ['}'] ∨
    (∃ front, w = front ++ ['{'] ∧ ∀ c ∈ front, c ≠ '{' ∧ c ≠ '}') ∨
    ∀ c ∈ w, c ≠ '{' ∧ c ≠ '}' := by
  by_cases hclose : '}' ∈ w
  · exact .inl (h.close_alone hclose)
  · right
    by_cases hopen : '{' ∈ w
    · obtain ⟨front, back, rfl, hfront⟩ := List.eq_append_cons_of_mem hopen
      obtain rfl := h.open_last rfl
      refine .inl ⟨front, rfl, fun c hc => ⟨ne_of_mem_of_not_mem hc hfront, ?_⟩⟩
      exact ne_of_mem_of_not_mem hc fun hmem => hclose (List.mem_append_left _ hmem)
    · exact .inr fun c hc => ⟨ne_of_mem_of_not_mem hc hopen, ne_of_mem_of_not_mem hc hclose⟩

lemma count_le_one {w : Text} (h : HasOuterBrace w) : w.count '{' + w.count '}' ≤ 1 := by
  have hnone : ∀ {v : Text}, (∀ c ∈ v, c ≠ '{' ∧ c ≠ '}') → v.count '{' = 0 ∧ v.count '}' = 0 :=
    fun hv => ⟨List.count_eq_zero.mpr fun hmem => (hv _ hmem).1 rfl,
      List.count_eq_zero.mpr fun hmem => (hv _ hmem).2 rfl⟩
  rcases h.cases with rfl | ⟨front, rfl, hfront⟩ | hw
  · decide
  · simp [hnone hfront]
  · simp [hnone hw]

/-- **Asking a line once counts all of its braces.** -/
lemma foldl_depthAfter {w : Text} (h : HasOuterBrace w) (depth : Nat) :
    w.foldl depthAfter depth = depthBehind depth w := by
  rcases h.cases with rfl | ⟨front, rfl, hfront⟩ | hw
  · simp [depthAfter, depthBehind, ownDepth]
  · have hclose : '}' ∉ front := fun hmem => (hfront _ hmem).2 rfl
    rw [List.foldl_append, foldl_depthAfter_of_no_brace hfront]
    simp [depthAfter, depthBehind, ownDepth, hclose]
  · have hopen : '{' ∉ w := fun hmem => (hw _ hmem).1 rfl
    have hclose : '}' ∉ w := fun hmem => (hw _ hmem).2 rfl
    rw [foldl_depthAfter_of_no_brace hw]
    simp [depthBehind, ownDepth, hopen, hclose]

/-- A line that has a closing brace begins with it. -/
lemma ownDepth_cons {c : Char} {rest : Text} (h : HasOuterBrace (c :: rest)) (depth : Nat) :
    ownDepth depth (c :: rest) = depthAt depth c := by
  have hmem : '}' ∈ c :: rest ↔ c = '}' :=
    ⟨fun hmem => (List.cons.inj (h.close_alone hmem)).1, fun hc => hc ▸ List.mem_cons_self⟩
  simp only [ownDepth, depthAt, List.contains_iff_mem, hmem]

end HasOuterBrace

/-! ## Lines of the layout -/

/-- A line that is not blank begins with a visible character when it is trimmed. -/
lemma exists_trim_eq_cons {l : Text} (h : trim l ≠ []) :
    ∃ c rest, trim l = c :: rest ∧ isBlank c = false := by
  have hfront : trim l <+: dropBlanks l := by
    rw [← List.reverse_suffix, trim, List.reverse_reverse]
    exact List.dropWhile_suffix _
  obtain ⟨c, rest, hc⟩ := List.exists_cons_of_ne_nil h
  obtain ⟨more, hmore⟩ := hfront
  refine ⟨c, rest, hc, ?_⟩
  have hfirst := List.head?_dropWhile_not isBlank l
  rw [← dropBlanks, ← hmore, hc] at hfirst
  simpa using hfirst

/-- How a line stands in a layout with so many braces open before it: it is empty, or indented by
the depth of its first visible character, with one brace at most. -/
inductive StandsAt (depth : Nat) : Text → Prop
  | blank : StandsAt depth []
  | visible {c : Char} {rest : Text} (hc : isBlank c = false) (hbrace : HasOuterBrace (c :: rest)) :
      StandsAt depth (List.replicate (2 * depthAt depth c) ' ' ++ c :: rest)

/-- **Each line stands at the depth of the braces before it.** -/
theorem standsAt_indentLines {ls : List Text} (h : ∀ l ∈ ls, HasOuterBrace l) :
    ∀ {depth : Nat} {before after : List Text} {line : Text},
      indentLines depth ls = before ++ line :: after →
        StandsAt (before.flatten.foldl depthAfter depth) line := by
  induction ls with
  | nil =>
      intro depth before after line heq
      simp [indentLines] at heq
  | cons l ls ih =>
      intro depth before after line heq
      obtain ⟨hl, hls⟩ := List.forall_mem_cons.mp h
      by_cases hblank : trim l = []
      · rw [indentLines_blank hblank] at heq
        cases before with
        | nil =>
            obtain ⟨rfl, -⟩ := List.cons.inj heq
            exact .blank
        | cons x before =>
            obtain ⟨rfl, hlater⟩ := List.cons.inj heq
            rw [List.flatten_cons, List.nil_append]
            exact ih hls hlater
      · obtain ⟨c, rest, hw, hc⟩ := exists_trim_eq_cons hblank
        have hbrace := hl.trim
        rw [hw] at hbrace
        rw [indentLines_visible hw (List.cons_ne_nil c rest), hbrace.ownDepth_cons] at heq
        cases before with
        | nil =>
            obtain ⟨rfl, -⟩ := List.cons.inj heq
            exact .visible hc hbrace
        | cons x before =>
            obtain ⟨rfl, hlater⟩ := List.cons.inj heq
            rw [List.flatten_cons, List.foldl_append, List.foldl_append, foldl_depthAfter_spaces,
              hbrace.foldl_depthAfter]
            exact ih hls hlater

lemma break_notMem_of_mem_lines {text l : Text} (h : l ∈ lines text) : '\n' ∉ l := by
  induction text generalizing l with
  | nil =>
      obtain rfl : l = [] := by simpa [lines] using h
      exact List.not_mem_nil
  | cons c rest ih =>
      by_cases hc : c = '\n'
      · subst hc
        rw [lines_break_cons] at h
        rcases List.mem_cons.mp h with rfl | h
        · exact List.not_mem_nil
        · exact ih h
      · obtain ⟨l', ls, hls⟩ := exists_lines rest
        rw [lines_cons_of_ne hc, hls, List.modifyHead_cons] at h
        rw [hls] at ih
        rcases List.mem_cons.mp h with rfl | h
        · simpa [Ne.symm hc] using ih List.mem_cons_self
        · exact ih (List.mem_cons_of_mem _ h)

lemma break_notMem_of_mem_indentLines {ls : List Text} (h : ∀ l ∈ ls, '\n' ∉ l) {depth : Nat}
    {x : Text} (hx : x ∈ indentLines depth ls) : '\n' ∉ x := by
  induction ls generalizing depth with
  | nil => simp [indentLines] at hx
  | cons l ls ih =>
      obtain ⟨hl, hls⟩ := List.forall_mem_cons.mp h
      by_cases hblank : trim l = []
      · rw [indentLines_blank hblank] at hx
        rcases List.mem_cons.mp hx with rfl | hx
        · exact List.not_mem_nil
        · exact ih hls hx
      · obtain ⟨front, back, -, -, htrim⟩ := exists_trim l
        have hbreak : '\n' ∉ trim l := fun hmem => hl (by
          rw [htrim]
          simp [hmem])
        rw [indentLines_visible rfl hblank] at hx
        rcases List.mem_cons.mp hx with rfl | hx
        · simp [hbreak]
        · exact ih hls hx

/-- The lines of a layout are the lines of the script, indented. -/
lemma lines_formatCode (text : Text) :
    lines (formatCode text) = indentLines 0 (lines (breakLines (collapseBlanks text))) := by
  rw [formatCode_eq_indented, indented]
  exact List.splitOn_intercalate '\n'
    (fun x hx => break_notMem_of_mem_indentLines (fun l => break_notMem_of_mem_lines) hx)
    (indentLines_lines_ne_nil 0 _)

/-- **Indentation is brace depth.**  A blank line of a layout is empty.  Any other line has one
brace at most; a closing one is alone on the line, and an opening one ends it.  The line begins with
two spaces for each brace that is open behind the lines before it, one brace less if the line is a
closing one. -/
theorem formatCode_indents_by_depth (text : Text) (before after : List Text) (line : Text)
    (h : lines (formatCode text) = before ++ line :: after) :
    ((∀ b ∈ line, isBlank b = true) → line = []) ∧
    ((∃ b ∈ line, isBlank b = false) →
      line.count '{' + line.count '}' ≤ 1 ∧ ('{' ∈ line → line.getLast? = some '{') ∧
      ∃ c rest, isBlank c = false ∧ ('}' ∈ line → c :: rest = ['}']) ∧
        line = List.replicate (2 * if c :: rest = ['}'] then openBraces before.flatten - 1
          else openBraces before.flatten) ' ' ++ c :: rest) := by
  obtain ⟨l, ls, hlines, -, hbraces⟩ := hasOuterBrace_breakLines (collapseBlanks text)
  rw [lines_formatCode, hlines] at h
  have hstands := standsAt_indentLines hbraces h
  rw [← openBraces] at hstands
  generalize openBraces before.flatten = depth at hstands ⊢
  cases hstands with
  | blank => exact ⟨fun _ => rfl, by simp⟩
  | @visible c rest hc hbrace =>
      have hmem : ∀ b, b ≠ ' ' →
          (b ∈ List.replicate (2 * depthAt depth c) ' ' ++ c :: rest ↔ b ∈ c :: rest) := by
        intro b hb
        simp [hb]
      refine ⟨fun hblank => ?_, fun _ => ⟨?_, fun hopen => ?_, c, rest, hc, fun hclose => ?_, ?_⟩⟩
      · rw [hblank c (by simp)] at hc
        cases hc
      · have hspaces : ∀ b, b ≠ ' ' → (List.replicate (2 * depthAt depth c) ' ').count b = 0 :=
          fun b hb => List.count_eq_zero.mpr fun hmem => hb (List.eq_of_mem_replicate hmem)
        rw [List.count_append, List.count_append, hspaces '{' (by decide), hspaces '}' (by decide),
          Nat.zero_add, Nat.zero_add]
        exact hbrace.count_le_one
      · obtain ⟨front, back, hcut⟩ := List.append_of_mem ((hmem '{' (by decide)).mp hopen)
        obtain rfl := hbrace.open_last hcut
        rw [hcut]
        simp
      · exact hbrace.close_alone ((hmem '}' (by decide)).mp hclose)
      · have hiff : c = '}' ↔ c :: rest = ['}'] := by
          refine ⟨fun heq => hbrace.close_alone ?_, fun heq => (List.cons.inj heq).1⟩
          rw [heq]
          exact List.mem_cons_self
        simp only [depthAt, hiff]

/-- A closing brace too many, and then one too few. -/
def unevenBraces : Text := "\x7d a\x7b\x7bb\x7d".toList

/-- The depth is none behind the first closing brace, and two before the second one. -/
theorem formatCode_indents_by_depth_uneven :
    lines (formatCode unevenBraces)
      = ["", "\x7d", "a\x7b", "  \x7b", "    b"].map String.toList
        ++ "  \x7d".toList :: [[]] ∧
    openBraces (["", "\x7d", "a\x7b", "  \x7b", "    b"].map String.toList).flatten = 2 ∧
    ∃ c rest, isBlank c = false ∧ ('}' ∈ "  \x7d".toList → c :: rest = ['}']) ∧
      "  \x7d".toList = List.replicate (2 * if c :: rest = ['}'] then 2 - 1 else 2) ' '
        ++ c :: rest := by
  have hlines : lines (formatCode unevenBraces)
      = ["", "\x7d", "a\x7b", "  \x7b", "    b"].map String.toList
        ++ "  \x7d".toList :: [[]] := by decide +kernel
  have hdepth : openBraces (["", "\x7d", "a\x7b", "  \x7b", "    b"].map
      String.toList).flatten = 2 := by decide
  have hvisible : ∃ b ∈ "  \x7d".toList, isBlank b = false := ⟨'}', by decide, by decide⟩
  have hline := (formatCode_indents_by_depth unevenBraces _ _ _ hlines).2 hvisible
  rw [hdepth] at hline
  exact ⟨hlines, hdepth, hline.2.2⟩

end LuaUnveil
