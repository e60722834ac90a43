import LuaUnveil.Proofs.OperatorSpacing

/-!
# Blanks at the edges of the code

The last pass trims the text before it spaces the operators, and an operator at an edge of the text
gets its space there.  This file says exactly when the deobfuscated code begins or ends with a
blank.

**Outer gaps.**  The first gap of a text is its leading blanks, and the last one its trailing blanks
(`exists_first_gap`, `exists_last_gap`).  What they are settled to depends on whether the text
begins or ends with an operator.

**Operators at the end.**  An operator ends with one of five signs, and each of these signs belongs
to an operator (`Reads.exists_getLast?`), so it is enough to look at the last visible character.
-/

namespace LuaUnveil

/-! ## Operators at the edges -/

/-- Whether the first item of a text is an operator. -/
def beginsWithOperator (text : Text) : Bool := (anyOperator none (dropBlanks text)).isSome

/-- The signs that end an operator. -/
def isOperatorEnd (c : Char) : Bool := ['=', '+', '-', '*', '/'].contains c

/-- Whether the last item of a text is an operator. -/
def endsWithOperator (text : Text) : Bool := (content text).getLast?.any isOperatorEnd

lemma Reads.isSome_anyOperator {item : Item} {rest : Text} (h : Reads item rest) :
    (anyOperator none (item.covered ++ rest)).isSome = item.kind?.isSome := by
  cases h with
  | plain hc h => simp [Piece.covered, Piece.kind?, Piece.found?, h]
  | found h => simp [Piece.covered, Piece.kind?, Piece.found?, h]

/-- The last character of an item tells whether it is an operator. -/
lemma Reads.exists_getLast? {item : Item} {rest : Text} (h : Reads item rest) :
    ∃ c, item.covered.getLast? = some c ∧ isOperatorEnd c = item.kind?.isSome := by
  cases h with
  | @plain c _ hc h =>
      -- each of the signs is an operator on its own, and would have been found
      have hsigns : (['=', '+', '-', '*', '/'].all fun c =>
          OperatorKind.table.any fun f => f.covered == [c]) = true := by decide
      refine ⟨c, rfl, Bool.eq_false_iff.mpr fun hsign => ?_⟩
      have hfound := List.all_eq_true.mp hsigns c (List.contains_iff_mem.mp hsign)
      obtain ⟨f, hf, hcovered⟩ := List.any_eq_true.mp hfound
      refine anyOperator_eq_none_iff.mp h f (OperatorKind.mem_table.mp hf) ?_
      rw [beq_iff_eq.mp hcovered]
      exact List.cons_prefix_cons.mpr ⟨rfl, List.nil_prefix⟩
  | @found f _ h =>
      have hends : (OperatorKind.table.all fun f =>
          f.covered.getLast?.any isOperatorEnd) = true := by decide
      have hend := List.all_eq_true.mp hends f (OperatorKind.mem_table.mpr (anyOperator_sound h).1)
      change ∃ c, f.covered.getLast? = some c ∧ isOperatorEnd c = true
      cases hlast : f.covered.getLast? with
      | none =>
          rw [hlast] at hend
          cases hend
      | some c =>
          rw [hlast] at hend
          exact ⟨c, rfl, hend⟩

/-! ## Outer gaps -/

/-- The first gap of a text are its leading blanks. -/
lemma exists_first_gap (left : Option Item) (text : Text) : ∃ right gs,
    gapsBehind left text = ⟨left, text.takeWhile isBlank, right⟩ :: gs ∧
      (right.bind Piece.kind?).isSome = beginsWithOperator text := by
  cases text using itemCases with
  | blanks _ hgap =>
      have hdrop : dropBlanks text = [] := List.dropWhile_eq_nil_iff.mpr hgap
      refine ⟨none, [], ?_, ?_⟩
      · rw [gapsBehind_blanks left hgap, List.takeWhile_eq_self_iff.mpr hgap]
      · rw [beginsWithOperator, hdrop]
        rfl
  | item gap item rest hgap hreads =>
      refine ⟨some item, gapsBehind (some item) rest, ?_, ?_⟩
      · rw [gapsBehind_item left hgap hreads,
          takeWhile_isBlank_append hgap hreads.isBlank_of_mem_head?]
      · rw [beginsWithOperator, hreads.dropBlanks_append hgap, hreads.isSome_anyOperator]
        rfl

lemma rtakeWhile_append_visible {w : Text} (hw : w ≠ []) (hvisible : ∀ c ∈ w, isBlank c = false)
    (front rest : Text) :
    (front ++ (w ++ rest)).rtakeWhile isBlank = rest.rtakeWhile isBlank := by
  have hwhole : ∀ text : Text, text.rdropWhile isBlank ++ text.rtakeWhile isBlank = text :=
    fun _ => List.rdropWhile_append_rtakeWhile
  have hcut := hwhole (front ++ (w ++ rest))
  rw [rdropWhile_append_visible hw hvisible] at hcut
  simp only [List.append_assoc, List.append_cancel_left_eq] at hcut
  exact List.append_cancel_left (hcut.trans (hwhole rest).symm)

/-- The last gap of a text are its trailing blanks. -/
lemma exists_last_gap (left : Option Item) (text : Text) : ∃ gs item,
    gapsBehind left text = gs ++ [⟨item, text.rtakeWhile isBlank, none⟩] ∧
      (item.bind Piece.kind?).isSome
        = ((content text).getLast?.map isOperatorEnd).getD (left.bind Piece.kind?).isSome := by
  induction text using itemInduction generalizing left with
  | blanks gap hgap =>
      refine ⟨[], left, ?_, ?_⟩
      · rw [gapsBehind_blanks left hgap, List.rtakeWhile_eq_self_iff.mpr hgap]
        rfl
      · rw [content_of_blanks hgap]
        rfl
  | item gap item rest hgap hreads ih =>
      obtain ⟨gs, last, hgaps, hlast⟩ := ih (some item)
      refine ⟨⟨left, gap, some item⟩ :: gs, last, ?_, ?_⟩
      · rw [gapsBehind_item left hgap hreads, hgaps,
          rtakeWhile_append_visible hreads.covered_ne_nil hreads.visible]
        rfl
      · obtain ⟨c, hc, hsign⟩ := hreads.exists_getLast?
        have hcontent : content (gap ++ (item.covered ++ rest)) = item.covered ++ content rest := by
          rw [content_append, content_append, content_of_blanks hgap, List.nil_append]
          congr 1
          simpa [content] using hreads.visible
        rw [hlast, hcontent, List.getLast?_append, hc]
        cases (content rest).getLast? with
        | none => exact hsign.symm
        | some d => rfl

/-! ## Outer blanks -/

lemma settled_first (blanks : Text) (right : Option Item) :
    (⟨none, blanks, right⟩ : Gap).settled
      = if (right.bind Piece.kind?).isSome then [' '] else [] := by
  unfold Gap.settled
  cases right.bind Piece.kind? <;> simp

lemma settled_last (blanks : Text) (left : Option Item) :
    (⟨left, blanks, none⟩ : Gap).settled
      = if (left.bind Piece.kind?).isSome then [' '] else [] := by
  unfold Gap.settled
  cases left.bind Piece.kind? <;> simp

/-- The result of the last pass begins with one space if the text begins with an operator, and
otherwise with no blank. -/
lemma takeWhile_isBlank_finalFormat (text : Text) :
    (finalFormat text).takeWhile isBlank = if beginsWithOperator text then [' '] else [] := by
  obtain ⟨right, gs, hgaps, hkind⟩ := exists_first_gap none text
  obtain ⟨right', gs', hgaps', -⟩ := exists_first_gap none (finalFormat text)
  have hall := gaps_finalFormat text
  rw [gaps, gaps, hgaps, hgaps', List.map_cons] at hall
  have hfirst := congrArg Gap.blanks (List.cons.inj hall).1
  rw [← hkind, ← settled_first (text.takeWhile isBlank) right]
  exact hfirst

/-- The result of the last pass ends with one space if the text ends with an operator, and
otherwise with no blank. -/
lemma rtakeWhile_isBlank_finalFormat (text : Text) :
    (finalFormat text).rtakeWhile isBlank = if endsWithOperator text then [' '] else [] := by
  obtain ⟨gs, item, hgaps, hkind⟩ := exists_last_gap none text
  obtain ⟨gs', item', hgaps', -⟩ := exists_last_gap none (finalFormat text)
  have hall := gaps_finalFormat text
  rw [gaps, gaps, hgaps, hgaps', List.map_append, List.map_singleton] at hall
  have hlast := congrArg Gap.blanks (List.singleton_inj.mp (List.append_inj_right' hall rfl))
  have hends : (item.bind Piece.kind?).isSome = endsWithOperator text := by
    rw [hkind, endsWithOperator]
    cases (content text).getLast? <;> rfl
  rw [← hends, ← settled_last (text.rtakeWhile isBlank) item]
  exact hlast

lemma takeWhile_isBlank_eq_nil_iff {text : Text} :
    text.takeWhile isBlank = [] ↔ ∀ b ∈ text.head?, isBlank b = false := by
  cases text with
  | nil => simp
  | cons c rest => cases hc : isBlank c <;> simp [hc]

lemma rtakeWhile_isBlank_eq_nil_iff {text : Text} :
    text.rtakeWhile isBlank = [] ↔ ∀ b ∈ text.getLast?, isBlank b = false := by
  rw [List.rtakeWhile, List.reverse_eq_nil_iff, takeWhile_isBlank_eq_nil_iff, List.head?_reverse]

/-- **When the code is trimmed.**  Let `entering` be the text that the last pass is given.  The code
begins with one space if `entering` begins with an operator, and ends with one space if `entering`
ends with an operator; there are no other blanks at its edges.  So the code is trimmed exactly if
`entering` neither begins nor ends with an operator. -/
theorem code_trimmed_iff [SearchEngine] (options : Options) (source : Text) :
    let entering := (Pass.runAll (Pass.standard.take 6) (.start options) source).1
    let code := (deobfuscate options source).code
    code.takeWhile isBlank = (if beginsWithOperator entering then [' '] else []) ∧
    code.rtakeWhile isBlank = (if endsWithOperator entering then [' '] else []) ∧
    ((∀ b ∈ code.head?, isBlank b = false) ∧ (∀ b ∈ code.getLast?, isBlank b = false) ↔
      beginsWithOperator entering = false ∧ endsWithOperator entering = false) := by
  intro entering code
  have hcode : code = finalFormat entering := rfl
  have hfront := takeWhile_isBlank_finalFormat entering
  have hback := rtakeWhile_isBlank_finalFormat entering
  rw [← hcode] at hfront hback
  refine ⟨hfront, hback, ?_⟩
  rw [← takeWhile_isBlank_eq_nil_iff, ← rtakeWhile_isBlank_eq_nil_iff, hfront, hback]
  simp

/-- A comment begins with an operator sign, and gets a space before it. -/
theorem comment_begins_with_blank :
    (deobfuscate {} "-- note".toList).code = " -  - note".toList ∧
      ¬ ∀ b ∈ (deobfuscate {} "-- note".toList).code.head?, isBlank b = false := by
  have hcode : (deobfuscate {} "-- note".toList).code = " -  - note".toList := by decide +kernel
  refine ⟨hcode, fun h => ?_⟩
  rw [hcode] at h
  have hspace := h ' ' rfl
  rw [isBlank_space] at hspace
  cases hspace

end LuaUnveil
