import LuaUnveil.Proofs.Glyphs

/-!
# Operators and the gaps around them

A text is read as operators and other visible characters, its items, with gaps of blanks between
them and at its edges.  The last pass changes the gaps and nothing else, and what it puts into a
gap depends on the gap and its two neighbours only.

**Operators.**  `anyOperator` reads an operator of any kind off the front of a text, by the table of
all operators.  At most one character behind the first one matters (`anyOperator_congr`).

**Items.**  `Reads` says that an item is read at the front of a text.  It stays so when the text
behind it does not come to begin with an equals sign (`Reads.congr`).  Every text is read item by
item (`itemInduction`).

**Gaps.**  `gaps` lists all gaps of a text with their neighbours.  Nothing is lost
(`flatMap_spelled_gaps`), so texts with the same gaps are equal.

**Refitting.**  `Refits` says of a pass that it puts into each gap what a rule says.  If the rule
closes no gap between two items, the items are read as before, and the gaps of the result are those
of the text, filled by the rule (`Refits.gapsBehind_eq`).
-/

namespace LuaUnveil

/-! ## Operators -/

/-- All operators, each with its kind: kind after kind, and the longer ones first. -/
def OperatorKind.table : List (Found OperatorKind) :=
  OperatorKind.all.flatMap fun kind => kind.operators.map fun op => ⟨kind, op⟩

/-- An operator at the front of a text, the first one of the table. -/
def anyOperator : Pattern OperatorKind := fun _ text =>
  OperatorKind.table.find? fun f => f.covered.isPrefixOf text

lemma OperatorKind.mem_all (kind : OperatorKind) : kind ∈ all := by cases kind <;> decide

lemma OperatorKind.mem_table {f : Found OperatorKind} :
    f ∈ table ↔ f.covered ∈ f.value.operators := by
  obtain ⟨kind, op⟩ := f
  simp only [table, List.mem_flatMap, List.mem_map, Found.mk.injEq]
  constructor
  · rintro ⟨k, -, o, ho, rfl, rfl⟩
    exact ho
  · intro hop
    exact ⟨kind, mem_all kind, op, hop, rfl, rfl⟩

lemma looksAhead_anyOperator : anyOperator.LooksAhead := fun _ _ => rfl

lemma anyOperator_eq_none_iff {before : Option Char} {text : Text} :
    anyOperator before text = none ↔
      ∀ f : Found OperatorKind, f.covered ∈ f.value.operators → ¬ f.covered <+: text := by
  simp [anyOperator, OperatorKind.mem_table]

/-- What is found is an operator of its kind, and stands at the front of the text. -/
lemma anyOperator_sound {before : Option Char} {text : Text} {f : Found OperatorKind}
    (h : anyOperator before text = some f) :
    f.covered ∈ f.value.operators ∧ ∃ rest, text = f.covered ++ rest := by
  have hstart := List.find?_some h
  rw [List.isPrefixOf_iff_prefix] at hstart
  obtain ⟨rest, hrest⟩ := hstart
  exact ⟨OperatorKind.mem_table.mp (List.mem_of_find?_eq_some h), rest, hrest.symm⟩

/-- An operator on its own is found. -/
lemma anyOperator_operator {f : Found OperatorKind} (hf : f.covered ∈ f.value.operators) :
    anyOperator none f.covered = some f := by
  have htable : (OperatorKind.table.all fun f => anyOperator none f.covered == some f) = true := by
    decide
  simpa using List.all_eq_true.mp htable f (OperatorKind.mem_table.mpr hf)

/-- An operator has one character, or a second one, which is an equals sign. -/
lemma OperatorKind.exists_of_mem_operators {kind : OperatorKind} {op : Text}
    (h : op ∈ kind.operators) : ∃ c, op = [c] ∨ op = [c, '='] := by
  have hshapes : (kind.operators.all fun op =>
      !op.isEmpty && (op.tail == [] || op.tail == ['='])) = true := by
    cases kind <;> decide
  have hshape := List.all_eq_true.mp hshapes op h
  cases op with
  | nil => simp at hshape
  | cons c tail => exact ⟨c, by simpa using hshape⟩

lemma OperatorKind.ne_nil_of_mem_operators {kind : OperatorKind} {op : Text}
    (h : op ∈ kind.operators) : op ≠ [] := by
  obtain ⟨c, rfl | rfl⟩ := exists_of_mem_operators h
  · exact List.cons_ne_nil c []
  · exact List.cons_ne_nil c ['=']

/-- Operators are visible. -/
lemma OperatorKind.isBlank_of_mem_operators {kind : OperatorKind} {op : Text}
    (h : op ∈ kind.operators) {c : Char} (hc : c ∈ op) : isBlank c = false := by
  have hvisible : (kind.operators.all fun op => op.all fun c => !isBlank c) = true := by
    cases kind <;> decide
  simpa using List.all_eq_true.mp (List.all_eq_true.mp hvisible op h) c hc

/-- Behind the first character it matters only whether an equals sign follows. -/
lemma anyOperator_congr {before before' : Option Char} {c : Char} {rest rest' : Text}
    (h : rest.head? = some '=' ↔ rest'.head? = some '=') :
    anyOperator before (c :: rest) = anyOperator before' (c :: rest') := by
  refine List.find?_congr fun f hf => ?_
  obtain ⟨a, hop | hop⟩ := OperatorKind.exists_of_mem_operators (OperatorKind.mem_table.mp hf)
  · rw [hop]
    rfl
  · have hstart : ∀ rest : Text, [a, '='] <+: c :: rest ↔ a = c ∧ rest.head? = some '=' := by
      intro rest
      cases rest with
      | nil => simp
      | cons d rest => simp [eq_comm]
    rw [Bool.eq_iff_iff, List.isPrefixOf_iff_prefix, List.isPrefixOf_iff_prefix, hop, hstart,
      hstart, h]

/-- No operator begins with a blank. -/
lemma anyOperator_blank {b : Char} (hb : isBlank b = true) (rest : Text) :
    anyOperator none (b :: rest) = none := by
  refine anyOperator_eq_none_iff.mpr fun f hf hstart => ?_
  obtain ⟨c, w, hop⟩ := List.exists_cons_of_ne_nil (OperatorKind.ne_nil_of_mem_operators hf)
  have hc : isBlank c = false := OperatorKind.isBlank_of_mem_operators hf (by simp [hop])
  rw [hop] at hstart
  obtain rfl := (List.cons_prefix_cons.mp hstart).1
  rw [hb] at hc
  cases hc

/-! ## Items -/

/-- An item of a text: an operator, or a character that belongs to none. -/
abbrev Item := Piece OperatorKind

/-- The text of a piece. -/
def Piece.covered {α : Type} : Piece α → Text
  | plain c => [c]
  | found f => f.covered

/-- The find that a piece is, if it is one. -/
def Piece.found? {α : Type} : Piece α → Option (Found α)
  | plain _ => none
  | found f => some f

/-- Whether an item is read off the front of a text, with the rest of the text behind it. -/
inductive Reads : Item → Text → Prop
  | plain {c : Char} {rest : Text} (hc : isBlank c = false)
      (h : anyOperator none (c :: rest) = none) : Reads (.plain c) rest
  | found {f : Found OperatorKind} {rest : Text}
      (h : anyOperator none (f.covered ++ rest) = some f) : Reads (.found f) rest

namespace Reads

variable {item : Item} {rest : Text}

/-- Items are visible. -/
lemma visible (h : Reads item rest) : ∀ c ∈ item.covered, isBlank c = false := by
  intro d hd
  cases h with
  | plain hc _ =>
      obtain rfl := List.mem_singleton.mp hd
      exact hc
  | found h => exact OperatorKind.isBlank_of_mem_operators (anyOperator_sound h).1 hd

lemma covered_ne_nil (h : Reads item rest) : item.covered ≠ [] := by
  cases h with
  | plain _ _ => exact List.cons_ne_nil _ []
  | found h => exact OperatorKind.ne_nil_of_mem_operators (anyOperator_sound h).1

lemma exists_cons (h : Reads item rest) : ∃ c w, item.covered = c :: w :=
  List.exists_cons_of_ne_nil h.covered_ne_nil

/-- A text with an item at its front does not begin with a blank. -/
lemma isBlank_of_mem_head? (h : Reads item rest) :
    ∀ c ∈ (item.covered ++ rest).head?, isBlank c = false := by
  have hvisible := h.visible
  obtain ⟨c, w, hcut⟩ := h.exists_cons
  simp_all

/-- The blanks before an item go up to the item. -/
lemma dropBlanks_append (h : Reads item rest) {gap : Text} (hgap : ∀ b ∈ gap, isBlank b = true) :
    dropBlanks (gap ++ (item.covered ++ rest)) = item.covered ++ rest := by
  have hhead := h.isBlank_of_mem_head?
  rw [LuaUnveil.dropBlanks_append hgap]
  cases htext : item.covered ++ rest with
  | nil => rfl
  | cons c w =>
      rw [htext] at hhead
      exact dropBlanks_cons_other (hhead c rfl) w

/-- **An item is read as before**, when the text behind it begins as before or at least with no
equals sign. -/
lemma congr (h : Reads item rest) {rest' : Text}
    (hnext : rest'.head? = rest.head? ∨ rest'.head? ≠ some '=') : Reads item rest' := by
  cases h with
  | @plain c _ hc h =>
      refine .plain hc ?_
      rcases hnext with hnext | hnext
      · rw [← h]
        exact anyOperator_congr (by rw [hnext])
      · -- what is no operator with more text behind it is none on its own
        have hown : anyOperator none [c] = none := by
          refine anyOperator_eq_none_iff.mpr fun f hf hstart => ?_
          exact anyOperator_eq_none_iff.mp h f hf (hstart.trans (by simp))
        rw [← hown]
        exact anyOperator_congr (by simp [hnext])
  | @found f _ h =>
      refine .found ?_
      have hf := (anyOperator_sound h).1
      obtain ⟨c, hop | hop⟩ := OperatorKind.exists_of_mem_operators hf
      · rcases hnext with hnext | hnext
        · rw [← h, hop]
          exact anyOperator_congr (by simp [hnext])
        · rw [← anyOperator_operator hf, hop]
          exact anyOperator_congr (by simp [hnext])
      · rw [← h, hop]
        exact anyOperator_congr (by simp)

end Reads

/-- Every text that is not blank has a first item. -/
lemma exists_reads (c : Char) (hc : isBlank c = false) (rest : Text) :
    ∃ item behind, Reads item behind ∧ c :: rest = item.covered ++ behind := by
  cases hask : anyOperator none (c :: rest) with
  | none => exact ⟨.plain c, rest, .plain hc hask, rfl⟩
  | some f =>
      obtain ⟨-, behind, htext⟩ := anyOperator_sound hask
      rw [htext] at hask
      exact ⟨.found f, behind, .found hask, htext⟩

/-- Go through a text item by item, each one with the blanks before it. -/
theorem itemInduction {motive : Text → Prop}
    (blanks : ∀ gap, (∀ b ∈ gap, isBlank b = true) → motive gap)
    (item : ∀ gap item rest, (∀ b ∈ gap, isBlank b = true) → Reads item rest → motive rest →
      motive (gap ++ (item.covered ++ rest)))
    (text : Text) : motive text := by
  induction hn : text.length using Nat.strong_induction_on generalizing text with
  | _ n ih =>
      obtain ⟨gap, rest, rfl, hgap, hrest⟩ := exists_run isBlank text
      cases rest with
      | nil => simpa using blanks gap hgap
      | cons c rest =>
          obtain ⟨first, behind, hreads, htext⟩ := exists_reads c (hrest c rfl) rest
          obtain ⟨d, w, hfirst⟩ := hreads.exists_cons
          rw [htext] at hn ⊢
          refine item gap first behind hgap hreads (ih behind.length ?_ behind rfl)
          simp only [hfirst, List.length_append, List.length_cons] at hn
          omega

/-- The two cases of this alone: only blanks, or an item behind them. -/
theorem itemCases {motive : Text → Prop}
    (blanks : ∀ gap, (∀ b ∈ gap, isBlank b = true) → motive gap)
    (item : ∀ gap item rest, (∀ b ∈ gap, isBlank b = true) → Reads item rest →
      motive (gap ++ (item.covered ++ rest)))
    (text : Text) : motive text :=
  itemInduction blanks (fun gap first rest hgap hreads _ => item gap first rest hgap hreads) text

/-! ## Gaps -/

/-- A gap of a text: its blanks, and the items next to it.  There is no item at the edge of the
text. -/
structure Gap where
  left : Option Item
  blanks : Text
  right : Option Item
  deriving DecidableEq

/-- The gaps among the pieces of a text.  The item before them is given, and the blanks that were
passed over since. -/
def gapsFrom (left : Option Item) (blanks : Text) : List Item → List Gap
  | [] => [⟨left, blanks, none⟩]
  | .plain c :: pieces =>
    if isBlank c then gapsFrom left (blanks ++ [c]) pieces
    else ⟨left, blanks, some (.plain c)⟩ :: gapsFrom (some (.plain c)) [] pieces
  | .found f :: pieces => ⟨left, blanks, some (.found f)⟩ :: gapsFrom (some (.found f)) [] pieces

/-- The gaps of a text behind an item. -/
def gapsBehind (left : Option Item) (text : Text) : List Gap :=
  gapsFrom left [] (pieces anyOperator text)

/-- The gaps of a text. -/
def gaps (text : Text) : List Gap := gapsBehind none text

namespace Gap

/-- The text of the item behind a gap. -/
def item (g : Gap) : Text := g.right.elim [] Piece.covered

/-- A gap and the item behind it, as they stand in the text. -/
def spelled (g : Gap) : Text := g.blanks ++ g.item

end Gap

/-- No gap and no item is lost. -/
lemma flatMap_spelled_gapsFrom (left : Option Item) (blanks : Text) (items : List Item) :
    (gapsFrom left blanks items).flatMap Gap.spelled = blanks ++ coveredBy items := by
  induction items generalizing left blanks with
  | nil => simp [gapsFrom, Gap.spelled, Gap.item]
  | cons p items ih =>
      cases p with
      | plain c =>
          by_cases hc : isBlank c = true
          · simp [gapsFrom, hc, ih]
          · simp [gapsFrom, hc, ih, Gap.spelled, Gap.item, Piece.covered]
      | found f => simp [gapsFrom, ih, Gap.spelled, Gap.item, Piece.covered]

lemma covers_anyOperator : anyOperator.Covers := by
  intro before text f h
  obtain ⟨hop, hrest⟩ := anyOperator_sound h
  exact ⟨OperatorKind.ne_nil_of_mem_operators hop, hrest⟩

/-- **A text is made of its gaps**, each with the item behind it. -/
theorem flatMap_spelled_gaps (text : Text) : (gaps text).flatMap Gap.spelled = text := by
  rw [gaps, gapsBehind, flatMap_spelled_gapsFrom, covers_anyOperator.coveredBy_pieces,
    List.nil_append]

/-- Texts with the same gaps are equal. -/
lemma gaps_injective : Function.Injective gaps := by
  intro x y h
  rw [← flatMap_spelled_gaps x, h, flatMap_spelled_gaps y]

/-- The operators of a text are those behind its gaps. -/
lemma filterMap_found?_gaps (text : Text) :
    (gaps text).filterMap (fun g => g.right.bind Piece.found?)
      = finds (pieces anyOperator text) := by
  have hfrom : ∀ (items : List Item) (left : Option Item) (blanks : Text),
      (gapsFrom left blanks items).filterMap (fun g => g.right.bind Piece.found?)
        = finds items := by
    intro items
    induction items with
    | nil => simp [gapsFrom]
    | cons p items ih =>
        intro left blanks
        cases p with
        | plain c =>
            by_cases hc : isBlank c = true
            · simp [gapsFrom, hc, ih]
            · rw [gapsFrom, if_neg hc, List.filterMap_cons_none rfl, ih, finds_plain_cons]
        | found f => simp [gapsFrom, ih, Piece.found?]
  exact hfrom _ none []

section Reading

variable (left : Option Item) {gap : Text} (hgap : ∀ b ∈ gap, isBlank b = true)

include hgap

/-- Blanks are gathered. -/
lemma gapsFrom_blanks (blanks : Text) (items : List Item) :
    gapsFrom left blanks (gap.map .plain ++ items) = gapsFrom left (blanks ++ gap) items := by
  induction gap generalizing blanks with
  | nil => simp
  | cons b gap ih =>
      obtain ⟨hb, hgap⟩ := List.forall_mem_cons.mp hgap
      simp [gapsFrom, hb, ih hgap]

lemma gapsBehind_append (rest : Text) :
    gapsBehind left (gap ++ rest) = gapsFrom left gap (pieces anyOperator rest) := by
  rw [gapsBehind, looksAhead_anyOperator.pieces_append fun b hb => anyOperator_blank (hgap b hb),
    gapsFrom_blanks left hgap, List.nil_append]

/-- A text of blanks is one gap. -/
lemma gapsBehind_blanks : gapsBehind left gap = [⟨left, gap, none⟩] := by
  simpa [pieces, gapsFrom] using gapsBehind_append left hgap []

/-- The first gap of a text ends at its first item. -/
lemma gapsBehind_item {item : Item} {rest : Text} (h : Reads item rest) :
    gapsBehind left (gap ++ (item.covered ++ rest))
      = ⟨left, gap, some item⟩ :: gapsBehind (some item) rest := by
  rw [gapsBehind_append left hgap]
  cases h with
  | @plain c _ hc h =>
      rw [Piece.covered, List.singleton_append, looksAhead_anyOperator.pieces_plain h, gapsFrom,
        if_neg (by simp [hc]), gapsBehind]
  | @found f _ h =>
      obtain ⟨c, w, hcut⟩ := Reads.exists_cons (.found h)
      change f.covered = c :: w at hcut
      rw [hcut, List.cons_append] at h
      rw [Piece.covered, hcut, List.cons_append, looksAhead_anyOperator.pieces_found h hcut,
        gapsFrom, gapsBehind]

end Reading

/-- The visible characters of a text are those of its items. -/
lemma content_eq_flatMap_item (text : Text) : content text = (gaps text).flatMap Gap.item := by
  have hbehind : ∀ left, content text = (gapsBehind left text).flatMap Gap.item := by
    induction text using itemInduction with
    | blanks gap hgap =>
        intro left
        simp [gapsBehind_blanks left hgap, content_of_blanks hgap, Gap.item]
    | item gap item rest hgap hreads ih =>
        intro left
        have hitem : content item.covered = item.covered := by
          simpa [content] using hreads.visible
        rw [gapsBehind_item left hgap hreads, content_append, content_append, hitem,
          content_of_blanks hgap, List.flatMap_cons, ← ih (some item)]
        rfl
  exact hbehind none

/-- Where all gaps are short, all runs of blanks are. -/
lemma hasShortRuns_of_gaps {text : Text} (h : ∀ g ∈ gaps text, g.blanks.count '\n' ≤ 2) :
    HasShortRuns text := by
  have hbehind : ∀ left, (∀ g ∈ gapsBehind left text, g.blanks.count '\n' ≤ 2) →
      HasShortRuns text := by
    clear h
    induction text using itemInduction with
    | blanks gap hgap =>
        intro left h run hrun _
        rw [gapsBehind_blanks left hgap] at h
        exact (hrun.sublist.count_le '\n').trans (h _ List.mem_cons_self)
    | item gap item rest hgap hreads ih =>
        intro left h
        rw [gapsBehind_item left hgap hreads] at h
        obtain ⟨hfirst, hlater⟩ := List.forall_mem_cons.mp h
        have hitem : ∀ w : Text, (∀ c ∈ w, isBlank c = false) → HasShortRuns (w ++ rest) := by
          intro w
          induction w with
          | nil => exact fun _ => ih (some item) hlater
          | cons c w ihw =>
              intro hw
              obtain ⟨hc, hw⟩ := List.forall_mem_cons.mp hw
              have hcons : HasShortRuns ([] ++ c :: (w ++ rest)) :=
                .append_cons (by simp) hc (ihw hw)
              exact hcons
        have hvisible := hreads.visible
        obtain ⟨c, w, hcut⟩ := hreads.exists_cons
        rw [hcut] at hvisible ⊢
        obtain ⟨hc, hw⟩ := List.forall_mem_cons.mp hvisible
        exact .append_cons hfirst hc (hitem w hw)
  exact hbehind none h

/-! ## Refitting -/

/-- A gap with other blanks, by a rule. -/
def Gap.refit (rule : Gap → Text) (g : Gap) : Gap := { g with blanks := rule g }

/-- A pass that puts into each gap what a rule says, and leaves the items as they are.  The pass is
told the item that stands before the text, and the rule closes no gap between two items. -/
structure Refits (pass : Option Item → Text → Text) (rule : Gap → Text) : Prop where
  blanks : ∀ left gap, (∀ b ∈ gap, isBlank b = true) → pass left gap = rule ⟨left, gap, none⟩
  item : ∀ left gap item rest, (∀ b ∈ gap, isBlank b = true) → Reads item rest →
    pass left (gap ++ (item.covered ++ rest))
      = rule ⟨left, gap, some item⟩ ++ (item.covered ++ pass (some item) rest)
  isBlank : ∀ g : Gap, (∀ b ∈ g.blanks, isBlank b = true) → ∀ b ∈ rule g, isBlank b = true
  apart : ∀ left gap right, rule ⟨some left, gap, some right⟩ = [] → gap = []

namespace Refits

variable {pass : Option Item → Text → Text} {rule : Gap → Text} (h : Refits pass rule)

include h

/-- The text behind an item begins as before, or it does not begin with an equals sign. -/
lemma head?_pass (left : Item) (text : Text) :
    (pass (some left) text).head? = text.head? ∨ (pass (some left) text).head? ≠ some '=' := by
  have hblank : ∀ {gap : Text}, (∀ b ∈ gap, LuaUnveil.isBlank b = true) → gap.head? ≠ some '=' := by
    intro gap hgap hhead
    have := hgap '=' (List.mem_of_mem_head? hhead)
    revert this
    decide
  cases text using itemCases with
  | blanks _ hgap =>
      rw [h.blanks _ text hgap]
      exact .inr (hblank (h.isBlank ⟨some left, text, none⟩ hgap))
  | item gap item rest hgap hreads =>
      rw [h.item _ gap item rest hgap hreads]
      cases hrule : rule ⟨some left, gap, some item⟩ with
      | nil =>
          obtain rfl := h.apart _ _ _ hrule
          obtain ⟨c, w, hcut⟩ := hreads.exists_cons
          simp [hcut]
      | cons b blanks =>
          have hb := h.isBlank ⟨some left, gap, some item⟩ hgap
          rw [hrule] at hb
          have hhead : (b :: blanks).head? ≠ some '=' := hblank hb
          exact .inr hhead

/-- **The gaps of the result are those of the text, filled by the rule.** -/
theorem gapsBehind_eq (left : Option Item) (text : Text) :
    gapsBehind left (pass left text) = (gapsBehind left text).map (Gap.refit rule) := by
  induction text using itemInduction generalizing left with
  | blanks gap hgap =>
      rw [h.blanks left gap hgap, gapsBehind_blanks left hgap,
        gapsBehind_blanks left (h.isBlank ⟨left, gap, none⟩ hgap)]
      rfl
  | item gap item rest hgap hreads ih =>
      have hreads' : Reads item (pass (some item) rest) := hreads.congr (h.head?_pass item rest)
      rw [h.item left gap item rest hgap hreads, gapsBehind_item left hgap hreads,
        gapsBehind_item left (h.isBlank ⟨left, gap, some item⟩ hgap) hreads', ih]
      rfl

lemma gaps_eq (text : Text) : gaps (pass none text) = (gaps text).map (Gap.refit rule) :=
  h.gapsBehind_eq none text

end Refits

end LuaUnveil
