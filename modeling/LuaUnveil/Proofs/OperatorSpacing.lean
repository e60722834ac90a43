import LuaUnveil.Proofs.Gaps
import LuaUnveil.Proofs.Layout
import LuaUnveil.Session.Outcome

/-!
# The normal form of the last pass

The last pass squeezes blank lines, trims the text, and spaces the operators kind after kind.  Each
of these seven steps fills the gaps of the text by a rule of its own, and so does the whole pass.

**Blank lines.**  Squeezing goes gap by gap, and `shortened` says what is left of a gap
(`squeezeBlankLines_append`).

**Steps.**  The three rules: `refits_squeezeBlankLines`, `refits_trim` and `refits_spaceBehind`.
The walk for one kind sets the gaps next to operators of that kind, and no other gap.

**The whole pass.**  `Gap.settled` is what the rules come to, one after the other, and
`gaps_finalFormat` that the pass fills every gap with it.  What else is known of the pass is read
off this rule: the items stay, the runs are short, and a second round finds every gap settled.
-/

namespace LuaUnveil

/-! ## Blank lines -/

/-- What is left of a run of blanks: no more than two line breaks, with the blanks before the first
and behind the last one of them all. -/
def shortened (blanks : Text) : Text :=
  if blanks.count '\n' ≤ 2 then blanks
  else blanks.takeWhile (· != '\n') ++ '\n' :: '\n' :: blanks.rtakeWhile (· != '\n')

lemma count_takeWhile_break (text : Text) : (text.takeWhile (· != '\n')).count '\n' = 0 :=
  List.count_eq_zero.mpr fun hmem => by simpa using List.mem_takeWhile_imp hmem

lemma count_rtakeWhile_break (text : Text) : (text.rtakeWhile (· != '\n')).count '\n' = 0 :=
  List.count_eq_zero.mpr fun hmem => by simpa using List.mem_rtakeWhile_imp hmem

lemma shortened_of_le {blanks : Text} (h : blanks.count '\n' ≤ 2) : shortened blanks = blanks :=
  if_pos h

lemma count_shortened_le (blanks : Text) : (shortened blanks).count '\n' ≤ 2 := by
  unfold shortened
  split_ifs with h
  · exact h
  · simp [count_takeWhile_break, count_rtakeWhile_break]

lemma shortened_eq_nil {blanks : Text} (h : shortened blanks = []) : blanks = [] := by
  unfold shortened at h
  split_ifs at h with hcount
  · exact h
  · simp at h

lemma isBlank_of_mem_shortened {blanks : Text} (h : ∀ b ∈ blanks, isBlank b = true) :
    ∀ b ∈ shortened blanks, isBlank b = true := by
  intro b hb
  unfold shortened at hb
  split_ifs at hb with hcount
  · exact h b hb
  · simp only [List.mem_append, List.mem_cons] at hb
    rcases hb with hb | rfl | rfl | hb
    · exact h b ((List.takeWhile_prefix _).subset hb)
    · exact isBlank_break
    · exact isBlank_break
    · exact h b ((List.rtakeWhile_suffix _ _).subset hb)

lemma count_throughLastBreak (text : Text) :
    (throughLastBreak text).count '\n' = text.count '\n' := by
  have hcut : throughLastBreak text ++ text.rtakeWhile (· != '\n') = text :=
    List.rdropWhile_append_rtakeWhile
  conv_rhs => rw [← hcut, List.count_append, count_rtakeWhile_break, Nat.add_zero]

/-- A text with a line break, cut at its first and its last one. -/
lemma exists_outer_breaks {text : Text} (h : '\n' ∈ text) : ∃ w,
    text = text.takeWhile (· != '\n') ++ '\n' :: (w ++ text.rtakeWhile (· != '\n')) ∧
      throughLastBreak ('\n' :: (w ++ text.rtakeWhile (· != '\n'))) = '\n' :: w := by
  obtain ⟨front, back, hcut, hfront, hback⟩ := exists_run (· != '\n') text
  obtain ⟨back, rfl⟩ : ∃ behind, back = '\n' :: behind := by
    cases back with
    | nil =>
        rw [hcut, List.append_nil] at h
        simpa using hfront _ h
    | cons c back => exact ⟨back, by simpa using hback c rfl⟩
  have htake : text.takeWhile (· != '\n') = front := by
    rw [hcut, List.takeWhile_append_of_pos hfront]
    simp
  have hstop : ∀ x y : Text,
      (x ++ '\n' :: y).takeWhile (· != '\n') = (x ++ ['\n']).takeWhile (· != '\n') := by
    intro x y
    induction x with
    | nil => simp
    | cons d x ih => simp [List.takeWhile_cons, ih]
  have hrtake : text.rtakeWhile (· != '\n') = ('\n' :: back).rtakeWhile (· != '\n') := by
    rw [hcut, List.rtakeWhile, List.rtakeWhile, List.reverse_append, List.reverse_cons,
      List.append_assoc, List.singleton_append, hstop]
  have hwhole : throughLastBreak ('\n' :: back) ++ text.rtakeWhile (· != '\n') = '\n' :: back := by
    rw [hrtake]
    exact List.rdropWhile_append_rtakeWhile
  cases hrun : throughLastBreak ('\n' :: back) with
  | nil =>
      have hcount := count_throughLastBreak ('\n' :: back)
      simp [hrun] at hcount
  | cons c w =>
      rw [hrun, List.cons_append] at hwhole
      obtain ⟨rfl, hbehind⟩ := List.cons.inj hwhole
      exact ⟨w, by rw [htake, hbehind, hcut], by rw [hbehind, hrun]⟩

lemma blankLineRun_beginsWith : blankLineRun.BeginsWith '\n' where
  looksAhead before text := by
    unfold blankLineRun
    split <;> rfl
  of_ne hc rest := by simp [blankLineRun, hc]

section Squeezing

variable {gap rest : Text} (hgap : ∀ b ∈ gap, isBlank b = true)
  (hrest : ∀ c ∈ rest.head?, isBlank c = false)

include hgap hrest

lemma takeWhile_isBlank_append : (gap ++ rest).takeWhile isBlank = gap := by
  rw [List.takeWhile_append_of_pos hgap]
  cases rest with
  | nil => simp
  | cons c rest => simp [hrest c rfl]

/-- A run ends where the blanks end. -/
lemma blankLineRun_break : blankLineRun none ('\n' :: (gap ++ rest))
    = if 3 ≤ ('\n' :: gap).count '\n' then some ⟨(), throughLastBreak ('\n' :: gap)⟩ else none := by
  rw [← count_throughLastBreak]
  simp only [blankLineRun, takeWhile_isBlank_append hgap hrest]

/-- A gap with no more than two line breaks is passed over. -/
lemma pieces_blankLineRun_of_short (hshort : gap.count '\n' ≤ 2) :
    pieces blankLineRun (gap ++ rest) = gap.map .plain ++ pieces blankLineRun rest := by
  induction gap with
  | nil => rfl
  | cons b gap ih =>
      obtain ⟨-, hgap'⟩ := List.forall_mem_cons.mp hgap
      have hnone : blankLineRun none (b :: (gap ++ rest)) = none := by
        by_cases hbreak : b = '\n'
        · subst hbreak
          rw [blankLineRun_break hgap' hrest, if_neg (by omega)]
        · exact blankLineRun_beginsWith.of_ne hbreak _
      have hshort' : gap.count '\n' ≤ 2 :=
        ((List.sublist_cons_self b gap).count_le '\n').trans hshort
      rw [List.cons_append, blankLineRun_beginsWith.looksAhead.pieces_plain hnone, ih hgap' hshort']
      rfl

/-- A gap with more of them is cut at its first and its last one. -/
lemma pieces_blankLineRun_of_long (hlong : 2 < gap.count '\n') :
    ∃ run, pieces blankLineRun (gap ++ rest)
      = (gap.takeWhile (· != '\n')).map .plain ++ .found ⟨(), run⟩ ::
        ((gap.rtakeWhile (· != '\n')).map .plain ++ pieces blankLineRun rest) := by
  have hfront : ∀ c ∈ gap.takeWhile (· != '\n'), c ≠ '\n' := fun c hc => by
    simpa using List.mem_takeWhile_imp hc
  have hback := count_rtakeWhile_break gap
  obtain ⟨w, hcut, hrun⟩ := exists_outer_breaks (List.count_pos_iff.mp (Nat.zero_lt_of_lt hlong))
  generalize gap.takeWhile (· != '\n') = front at *
  generalize gap.rtakeWhile (· != '\n') = back at *
  subst hcut
  have hwback : ∀ b ∈ w ++ back, isBlank b = true := fun b hb =>
    hgap b (List.mem_append_right _ (List.mem_cons_of_mem _ hb))
  have hcount : 3 ≤ ('\n' :: (w ++ back)).count '\n' := by
    rw [List.count_append, List.count_eq_zero.mpr fun hmem => hfront _ hmem rfl] at hlong
    omega
  have hask : blankLineRun none ('\n' :: (w ++ (back ++ rest))) = some ⟨(), '\n' :: w⟩ := by
    rw [← List.append_assoc, blankLineRun_break hwback hrest, if_pos hcount, hrun]
  refine ⟨'\n' :: w, ?_⟩
  rw [List.append_assoc, blankLineRun_beginsWith.pieces_append fun h => hfront _ h rfl,
    List.cons_append, List.append_assoc, blankLineRun_beginsWith.looksAhead.pieces_found hask rfl,
    pieces_blankLineRun_of_short (fun b hb => hwback b (List.mem_append_right w hb)) hrest
      (by omega)]

/-- **Blank lines are squeezed gap by gap.** -/
theorem squeezeBlankLines_append :
    squeezeBlankLines (gap ++ rest) = shortened gap ++ squeezeBlankLines rest := by
  unfold shortened
  split_ifs with hshort
  · rw [squeezeBlankLines, replaceAll, pieces_blankLineRun_of_short hgap hrest hshort,
      assemble_plains_append]
    rfl
  · obtain ⟨run, hpieces⟩ := pieces_blankLineRun_of_long hgap hrest (Nat.lt_of_not_le hshort)
    rw [squeezeBlankLines, replaceAll, hpieces, assemble_plains_append, assemble_found_cons,
      assemble_plains_append]
    simp [squeezeBlankLines, replaceAll]

end Squeezing

lemma squeezeBlankLines_visible_append {w : Text} (hw : ∀ c ∈ w, isBlank c = false) (rest : Text) :
    squeezeBlankLines (w ++ rest) = w ++ squeezeBlankLines rest :=
  blankLineRun_beginsWith.replaceAll_append _
    (fun h => ne_break_of_visible (hw _ h) rfl) rest

/-- Squeezing shortens every gap. -/
lemma refits_squeezeBlankLines :
    Refits (fun _ => squeezeBlankLines) fun g => shortened g.blanks where
  blanks _ gap hgap := by
    have hend : ∀ c ∈ ([] : Text).head?, isBlank c = false := by simp
    simpa [squeezeBlankLines, replaceAll, pieces] using squeezeBlankLines_append hgap hend
  item _ gap item rest hgap hreads := by
    rw [squeezeBlankLines_append hgap hreads.isBlank_of_mem_head?,
      squeezeBlankLines_visible_append hreads.visible]
  isBlank _ := isBlank_of_mem_shortened
  apart _ _ _ := shortened_eq_nil

/-! ## Edges of the text -/

/-- Trimming clears the gaps at the edges of the text. -/
def Gap.trimmed (g : Gap) : Text := if g.left.isNone || g.right.isNone then [] else g.blanks

/-- Trim a text behind an item: only at its end, if there is an item. -/
def trimBehind (left : Option Item) (text : Text) : Text :=
  if left.isNone then trim text else text.rdropWhile isBlank

lemma rdropWhile_append_visible {w : Text} (hw : w ≠ []) (hvisible : ∀ c ∈ w, isBlank c = false)
    (front rest : Text) :
    (front ++ (w ++ rest)).rdropWhile isBlank = front ++ (w ++ rest.rdropWhile isBlank) := by
  induction rest using List.reverseRecOn with
  | nil =>
      refine List.rdropWhile_eq_self_iff.mpr fun hlast => ?_
      simp [List.getLast_append_of_ne_nil, hw, hvisible]
  | append_singleton rest c ih =>
      rw [← List.append_assoc w, ← List.append_assoc front, List.rdropWhile_concat,
        List.rdropWhile_concat, ih]
      split_ifs <;> simp

lemma refits_trim : Refits trimBehind Gap.trimmed where
  blanks left gap hgap := by
    cases left with
    | none => exact trim_eq_nil_iff.mpr hgap
    | some left => exact List.rdropWhile_eq_nil_iff.mpr hgap
  item left gap item rest hgap hreads := by
    have hend := rdropWhile_append_visible hreads.covered_ne_nil hreads.visible
    cases left with
    | none =>
        change (dropBlanks (gap ++ (item.covered ++ rest))).rdropWhile isBlank = _
        rw [hreads.dropBlanks_append hgap]
        exact hend [] rest
    | some left => exact hend gap rest
  isBlank g hg := by
    unfold Gap.trimmed
    split_ifs
    · simp
    · exact hg
  apart _ _ _ h := h

/-! ## Operators of one kind -/

/-- The kind of an item, if it is an operator. -/
def Piece.kind? (item : Item) : Option OperatorKind := item.found?.map Found.value

namespace OperatorKind

lemma read?_eq (kind : OperatorKind) (text : Text) :
    kind.read? text = (kind.operators.find? fun op => op.isPrefixOf text).map fun op =>
      (op, text.drop op.length) := by
  unfold read?
  induction kind.operators with
  | nil => rfl
  | cons op ops ih =>
      by_cases hstart : op <+: text
      · obtain ⟨rest, rfl⟩ := hstart
        simp [skip?_append]
      · have hskip : skip? op text = none := by
          cases hskip : skip? op text with
          | none => rfl
          | some rest => exact absurd ⟨rest, (skip?_eq_some_iff.mp hskip).symm⟩ hstart
        simp [hskip, ih, hstart]

/-- Where an operator is found, its kind reads it. -/
lemma read?_of_anyOperator {f : Found OperatorKind} {rest : Text}
    (h : anyOperator none (f.covered ++ rest) = some f) :
    f.value.read? (f.covered ++ rest) = some (f.covered, rest) := by
  rw [anyOperator, table, List.find?_flatMap] at h
  obtain ⟨kind, -, hkind⟩ := List.exists_of_findSome?_eq_some h
  rw [List.find?_map] at hkind
  obtain ⟨op, hop, rfl⟩ := Option.map_eq_some_iff.mp hkind
  have hfirst : kind.operators.find? (fun o => o.isPrefixOf (op ++ rest)) = some op := hop
  change kind.read? (op ++ rest) = some (op, rest)
  rw [read?_eq, hfirst]
  simp

/-- A character of an operator begins no operator of another kind. -/
lemma eq_of_mem_of_head? {kind kind' : OperatorKind} {op op' : Text} (hop : op ∈ kind.operators)
    (hop' : op' ∈ kind'.operators) {c : Char} (hc : c ∈ op) (hhead : op'.head? = some c) :
    kind' = kind := by
  have hapart : (all.all fun kind => all.all fun kind' => kind' == kind ||
      kind.operators.all fun op => kind'.operators.all fun op' =>
        op.all fun c => op'.head? != some c) = true := by decide
  have hkinds := List.all_eq_true.mp (List.all_eq_true.mp hapart kind (mem_all kind)) kind'
    (mem_all kind')
  rcases (Bool.or_eq_true ..).mp hkinds with heq | hapart
  · exact beq_iff_eq.mp heq
  · have hops := List.all_eq_true.mp (List.all_eq_true.mp hapart op hop) op' hop'
    have hne := List.all_eq_true.mp hops c hc
    simp [hhead] at hne

/-- What another kind than that of an operator reads off its characters: nothing. -/
lemma read?_of_mem_other {kind kind' : OperatorKind} {op : Text} (hop : op ∈ kind.operators)
    (hne : kind' ≠ kind) {c : Char} (hc : c ∈ op) (rest : Text) :
    kind'.read? (c :: rest) = none := by
  rw [read?_eq, Option.map_eq_none_iff, List.find?_eq_none]
  intro op' hop' hstart
  rw [List.isPrefixOf_iff_prefix] at hstart
  cases op' with
  | nil => exact ne_nil_of_mem_operators hop' rfl
  | cons d op' =>
      obtain rfl := (List.cons_prefix_cons.mp hstart).1
      exact hne (eq_of_mem_of_head? hop hop' hc rfl)

/-- Where no operator is found, no kind reads one. -/
lemma read?_of_anyOperator_none (kind : OperatorKind) {text : Text}
    (h : anyOperator none text = none) : kind.read? text = none := by
  rw [read?_eq, Option.map_eq_none_iff, List.find?_eq_none]
  intro op hop hstart
  exact anyOperator_eq_none_iff.mp h ⟨kind, op⟩ hop (List.isPrefixOf_iff_prefix.mp hstart)

end OperatorKind

section Spacing

variable (kind : OperatorKind) {gap : Text} (hgap : ∀ b ∈ gap, isBlank b = true)

include hgap

/-- A text of blanks is left as it is. -/
lemma spaceOperators_blanks : spaceOperators kind gap = gap := by
  have hdrop : dropBlanks gap = [] := List.dropWhile_eq_nil_iff.mpr hgap
  rw [spaceOperators]
  split
  · next op rest h =>
      have hlt := OperatorKind.length_read?_lt h
      simp [hdrop] at hlt
  · split
    · rfl
    · next _ c rest h =>
        rw [hdrop] at h
        cases h

/-- An operator of the kind gets its spaces. -/
lemma spaceOperators_operator {f : Found OperatorKind} {rest : Text}
    (h : anyOperator none (f.covered ++ rest) = some f) :
    spaceOperators f.value (gap ++ (f.covered ++ rest))
      = ' ' :: (f.covered ++ ' ' :: spaceOperators f.value (dropBlanks rest)) := by
  have hdrop : dropBlanks (gap ++ (f.covered ++ rest)) = f.covered ++ rest :=
    (Reads.found h).dropBlanks_append hgap
  have hread := OperatorKind.read?_of_anyOperator h
  rw [spaceOperators]
  split
  · next op' behind h =>
      rw [hdrop, hread] at h
      obtain ⟨rfl, rfl⟩ := Prod.mk.inj (Option.some.inj h)
      rfl
  · next h =>
      rw [hdrop, hread] at h
      cases h

/-- A visible character at which no operator of the kind begins is passed over. -/
lemma spaceOperators_pass {c : Char} {rest : Text} (hc : isBlank c = false)
    (hnone : kind.read? (c :: rest) = none) :
    spaceOperators kind (gap ++ c :: rest) = gap ++ c :: spaceOperators kind rest := by
  have hdrop : dropBlanks (gap ++ c :: rest) = c :: rest := by
    rw [dropBlanks_append hgap, dropBlanks_cons_other hc]
  have htake : (gap ++ c :: rest).takeWhile isBlank = gap :=
    takeWhile_isBlank_append hgap fun d hd => by
      obtain rfl := Option.some.inj hd
      exact hc
  rw [spaceOperators]
  split
  · next op behind h =>
      rw [hdrop, hnone] at h
      cases h
  · split
    · next _ h =>
        rw [hdrop] at h
        cases h
    · next _ d behind h =>
        rw [hdrop] at h
        obtain ⟨rfl, rfl⟩ := List.cons.inj h
        rw [htake]

/-- An operator of another kind is passed over, character by character. -/
lemma spaceOperators_other {kind' : OperatorKind} {op : Text} (hop : op ∈ kind'.operators)
    (hne : kind ≠ kind') (rest : Text) :
    spaceOperators kind (gap ++ (op ++ rest)) = gap ++ (op ++ spaceOperators kind rest) := by
  have hpass : ∀ c ∈ op, ∀ gap rest : Text, (∀ b ∈ gap, isBlank b = true) →
      spaceOperators kind (gap ++ c :: rest) = gap ++ c :: spaceOperators kind rest := by
    intro c hc gap rest hgap
    exact spaceOperators_pass kind hgap (OperatorKind.isBlank_of_mem_operators hop hc)
      (OperatorKind.read?_of_mem_other hop hne hc rest)
  obtain ⟨c, rfl | rfl⟩ := OperatorKind.exists_of_mem_operators hop
  · exact hpass c (by simp) gap rest hgap
  · have hsecond := hpass '=' (by simp) [] rest (by simp)
    rw [List.nil_append, List.nil_append] at hsecond
    have hfirst := hpass c (by simp) gap ('=' :: rest) hgap
    rw [hsecond] at hfirst
    exact hfirst

end Spacing

/-- Space the operators of a kind behind an item: if that is one of them, there is its space, and
the blanks behind it are gone. -/
def spaceBehind (kind : OperatorKind) (left : Option Item) (text : Text) : Text :=
  if left.bind Piece.kind? = some kind then ' ' :: spaceOperators kind (dropBlanks text)
  else spaceOperators kind text

/-- What the walk for a kind puts into a gap: one space for each side at which there is an operator
of the kind. -/
def Gap.spacedFor (kind : OperatorKind) (g : Gap) : Text :=
  if g.left.bind Piece.kind? = some kind then
    if g.right.bind Piece.kind? = some kind then [' ', ' '] else [' ']
  else if g.right.bind Piece.kind? = some kind then [' '] else g.blanks

/-- The walk up to an item and past it. -/
lemma spaceOperators_item (kind : OperatorKind) {gap : Text} (hgap : ∀ b ∈ gap, isBlank b = true)
    {item : Item} {rest : Text} (hreads : Reads item rest) :
    spaceOperators kind (gap ++ (item.covered ++ rest))
      = (if item.kind? = some kind then [' '] else gap)
        ++ (item.covered ++ spaceBehind kind (some item) rest) := by
  cases hreads with
  | @plain c _ hc h =>
      have hpass := spaceOperators_pass kind hgap hc (kind.read?_of_anyOperator_none h)
      simpa [Piece.kind?, Piece.found?, Piece.covered, spaceBehind] using hpass
  | @found f _ h =>
      have hop := (anyOperator_sound h).1
      by_cases hkind : f.value = kind
      · subst hkind
        have hspaced := spaceOperators_operator hgap h
        simpa [Piece.kind?, Piece.found?, Piece.covered, spaceBehind] using hspaced
      · have hpass := spaceOperators_other kind hgap hop (Ne.symm hkind) rest
        simpa [Piece.kind?, Piece.found?, Piece.covered, spaceBehind, hkind] using hpass

lemma refits_spaceBehind (kind : OperatorKind) :
    Refits (spaceBehind kind) (Gap.spacedFor kind) where
  blanks left gap hgap := by
    have hdrop : dropBlanks gap = [] := List.dropWhile_eq_nil_iff.mpr hgap
    have hnil : spaceOperators kind [] = [] := spaceOperators_blanks kind (by simp)
    simp [spaceBehind, Gap.spacedFor, hdrop, hnil, spaceOperators_blanks kind hgap]
  item left gap item rest hgap hreads := by
    have hnil : ∀ b ∈ ([] : Text), isBlank b = true := by simp
    have hnone := spaceOperators_item kind hnil hreads
    rw [List.nil_append] at hnone
    rw [spaceBehind, hreads.dropBlanks_append hgap, spaceOperators_item kind hgap hreads, hnone]
    simp only [Gap.spacedFor, Option.bind_some]
    split_ifs <;> simp
  isBlank g hg := by
    have hspace : ∀ b ∈ [' ', ' '], isBlank b = true := by simp [isBlank_space]
    unfold Gap.spacedFor
    split_ifs
    · exact hspace
    · simp [isBlank_space]
    · simp [isBlank_space]
    · exact hg
  apart left gap right h := by
    unfold Gap.spacedFor at h
    split_ifs at h
    exact h

/-! ## The whole pass -/

/-- The blanks that belong into a gap.  Next to an operator that is one space, and there are two
between operators of one kind.  Everywhere else there is nothing at the edges of the text, and the
shortened blanks inside. -/
def Gap.settled (g : Gap) : Text :=
  match g.left.bind Piece.kind?, g.right.bind Piece.kind? with
  | some kind, some kind' => if kind = kind' then [' ', ' '] else [' ']
  | some _, none => [' ']
  | none, some _ => [' ']
  | none, none => if g.left.isNone || g.right.isNone then [] else shortened g.blanks

/-- The walks for some kinds, one after the other, fill each gap by their rules. -/
lemma gaps_foldl_spaceOperators (kinds : List OperatorKind) (text : Text) :
    gaps (kinds.foldl (fun t kind => spaceOperators kind t) text)
      = (gaps text).map fun g => kinds.foldl (fun g kind => g.refit (Gap.spacedFor kind)) g := by
  induction kinds generalizing text with
  | nil => simp
  | cons kind kinds ih =>
      have hstep : gaps (spaceOperators kind text)
          = (gaps text).map (Gap.refit (Gap.spacedFor kind)) :=
        (refits_spaceBehind kind).gaps_eq text
      simp only [List.foldl_cons, ih, hstep, List.map_map]
      rfl

/-- All rules together.  A gap keeps what the last rule puts there that knows one of its sides. -/
lemma foldl_spacedFor (g : Gap) :
    OperatorKind.all.foldl (fun g kind => g.refit (Gap.spacedFor kind))
      ((g.refit fun g => shortened g.blanks).refit Gap.trimmed) = g.refit Gap.settled := by
  obtain ⟨left, blanks, right⟩ := g
  simp only [Gap.refit, Gap.settled, Gap.spacedFor, Gap.trimmed, OperatorKind.all, List.foldl_cons,
    List.foldl_nil]
  generalize left.bind Piece.kind? = before
  generalize right.bind Piece.kind? = behind
  rcases before with _ | kind <;> rcases behind with _ | kind'
  · rfl
  · cases kind' <;> rfl
  · cases kind <;> rfl
  · cases kind <;> cases kind' <;> rfl

/-- Squeezing and trimming, before any operator is spaced. -/
lemma gaps_trim_squeezeBlankLines (text : Text) :
    gaps (trim (squeezeBlankLines text))
      = (gaps text).map fun g => (g.refit fun g => shortened g.blanks).refit Gap.trimmed := by
  have hsqueezed : gaps (squeezeBlankLines text)
      = (gaps text).map (Gap.refit fun g => shortened g.blanks) :=
    refits_squeezeBlankLines.gaps_eq text
  have htrimmed : gaps (trim (squeezeBlankLines text))
      = (gaps (squeezeBlankLines text)).map (Gap.refit Gap.trimmed) :=
    refits_trim.gaps_eq (squeezeBlankLines text)
  rw [htrimmed, hsqueezed, List.map_map]
  rfl

/-- **The last pass settles every gap.** -/
theorem gaps_finalFormat (text : Text) :
    gaps (finalFormat text) = (gaps text).map (Gap.refit Gap.settled) := by
  rw [finalFormat, gaps_foldl_spaceOperators, gaps_trim_squeezeBlankLines, List.map_map]
  exact List.map_congr_left fun g _ => foldl_spacedFor g

/-- A gap that is not next to an operator is settled by squeezing and trimming alone. -/
lemma refit_settled_of_no_operator {g : Gap} (hleft : g.left.bind Piece.kind? = none)
    (hright : g.right.bind Piece.kind? = none) :
    g.refit Gap.settled = (g.refit fun g => shortened g.blanks).refit Gap.trimmed := by
  simp [Gap.refit, Gap.settled, Gap.trimmed, hleft, hright]

/-- Gap by gap, the result of the last pass has the blanks of the squeezed and trimmed text,
wherever there is no operator next to the gap. -/
lemma forall₂_gaps_finalFormat (text : Text) :
    List.Forall₂ (fun g g' : Gap => g'.left = g.left ∧ g'.right = g.right ∧
      (g.left.bind Piece.kind? = none → g.right.bind Piece.kind? = none → g' = g))
      (gaps (trim (squeezeBlankLines text))) (gaps (finalFormat text)) := by
  rw [gaps_trim_squeezeBlankLines, gaps_finalFormat, List.forall₂_map_left_iff,
    List.forall₂_map_right_iff, List.forall₂_same]
  intro g _
  refine ⟨rfl, rfl, fun hleft hright => ?_⟩
  exact refit_settled_of_no_operator (g := g) hleft hright

lemma count_settled_le (g : Gap) : g.settled.count '\n' ≤ 2 := by
  unfold Gap.settled
  split
  · split_ifs <;> simp
  · simp
  · simp
  · split_ifs
    · simp
    · exact count_shortened_le _

/-- A settled gap is settled for good. -/
lemma settled_refit_settled (g : Gap) :
    (g.refit Gap.settled).refit Gap.settled = g.refit Gap.settled := by
  obtain ⟨left, blanks, right⟩ := g
  simp only [Gap.refit, Gap.settled]
  generalize left.bind Piece.kind? = before
  generalize right.bind Piece.kind? = behind
  rcases before with _ | kind <;> rcases behind with _ | kind'
  · cases hedge : left.isNone || right.isNone with
    | true => rfl
    | false => simp [shortened_of_le (count_shortened_le blanks)]
  · rfl
  · rfl
  · rfl

/-- **The last pass changes the blanks only, and brings them into normal form.**  The visible
characters stay what they are, and scanning for operators finds the same ones as before, so none
comes apart and none is formed.  Every gap of the text is a gap of the result, between the same
neighbours, and has the blanks that belong there: one space between an operator and another item or
an edge of the text, one between operators of two kinds, two between operators of one kind, nothing
at the other edges, and its shortened blanks everywhere else.  So the gaps that are not next to an
operator are those of the squeezed and trimmed text.  No run of blanks has more than two line
breaks. -/
theorem finalFormat_settles_gaps (text : Text) :
    content (finalFormat text) = content text ∧
    finds (pieces anyOperator (finalFormat text)) = finds (pieces anyOperator text) ∧
    gaps (finalFormat text) = (gaps text).map (Gap.refit Gap.settled) ∧
    List.Forall₂ (fun g g' : Gap => g'.left = g.left ∧ g'.right = g.right ∧
      (g.left.bind Piece.kind? = none → g.right.bind Piece.kind? = none → g' = g))
      (gaps (trim (squeezeBlankLines text))) (gaps (finalFormat text)) ∧
    HasShortRuns (finalFormat text) := by
  have hgaps := gaps_finalFormat text
  refine ⟨?_, ?_, hgaps, forall₂_gaps_finalFormat text, hasShortRuns_of_gaps ?_⟩
  · rw [content_eq_flatMap_item, content_eq_flatMap_item, hgaps, List.flatMap_map]
    rfl
  · rw [← filterMap_found?_gaps, ← filterMap_found?_gaps, hgaps, List.filterMap_map]
    rfl
  · rw [hgaps]
    intro g hg
    obtain ⟨g, -, rfl⟩ := List.mem_map.mp hg
    exact count_settled_le g

example : finalFormat " a<==b\n \n\n\n c+ -d =".toList = "a <=  = b\n\n c + - d = ".toList := by
  decide +kernel

/-- **The last pass has nothing left to do after itself**, at the edges of the text neither. -/
theorem finalFormat_idempotent (text : Text) :
    finalFormat (finalFormat text) = finalFormat text := by
  apply gaps_injective
  rw [gaps_finalFormat, gaps_finalFormat, List.map_map]
  exact List.map_congr_left fun g _ => settled_refit_settled g

end LuaUnveil
