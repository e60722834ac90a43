import LuaUnveil.DeadCode.Remove
import LuaUnveil.Proofs.DeadCode
import LuaUnveil.Proofs.Pieces

/-!
# What the removal of dead code cuts out of a text

**Cuts.**  `Leaves front text left` says that `left` is `text` without some parts that do not
overlap, and that each part is dead code of one of the two forms at its place in the text.
`front` stands before the text.

**Two passes.**  Each pass cuts dead code out of the text that comes to it.  The second pass reads
what the first one left, and there the text on both sides of an empty function has come together: a
declaration that it finds stands in the text itself unless a seam tears it
(`CutsFunctions.standsIn_iff`).  A torn declaration need not be in the text at all.  Where none is
torn, both passes together cut dead code out of the text (`CutsFunctions.leaves_dropNilLocals`).
-/

namespace LuaUnveil

/-! ## Dead code at its place -/

/-- A declaration that holds nothing, from the start of a word to a place where `nil` has ended. -/
structure NilDeclarationAt (front w back : Text) : Prop where
  form : IsNilDeclaration w
  begins : EndsOutsideWord front
  ends : EndsOutsideWord w ∨ BeginsOutsideWord back

/-- Dead code between two parts of a text.  An empty function may begin inside of a word. -/
inductive DeadAt (front w back : Text) : Prop
  | emptyFunction (hform : IsEmptyFunction w) (hback : BeginsOutsideWord back)
  | nilDeclaration (h : NilDeclarationAt front w back)

/-- What can be left of a text behind `front` when dead code is cut out of it. -/
inductive Leaves : Text → Text → Text → Prop
  | nil {front : Text} : Leaves front [] []
  | keep {front text left : Text} {c : Char} (h : Leaves (front ++ [c]) text left) :
      Leaves front (c :: text) (c :: left)
  | cut {front w text left : Text} (hdead : DeadAt front w text)
      (h : Leaves (front ++ w) text left) : Leaves front (w ++ text) left

/-- Every declaration that holds nothing is found at its place. -/
lemma NilDeclarationAt.exists_found {front w back : Text} (h : NilDeclarationAt front w back) :
    ∃ f, nilLocal front.getLast? (w ++ back) = some f := by
  have hbefore := endsOutsideWord_iff.mp h.begins
  obtain ⟨form, -, hends⟩ := h
  cases form with
  | @bare gap name left right behind hhead hbehind =>
      rw [List.append_assoc]
      refine hhead.exists_found hbefore ?_
      by_cases hnone : behind = []
      · subst hnone
        rw [List.append_nil] at hends
        have hnil : ¬ EndsOutsideWord (nilHead gap name left right) := fun hout =>
          absurd (endsOutsideWord_iff.mp (EndsOutsideWord.of_append hout)) (by decide)
        exact hends.resolve_left hnil
      · exact (IsSeparator.of_blanks hnone hbehind).beginsOutsideWord back
  | @closed gap name left right behind more hhead hbehind hmore =>
      rw [List.append_assoc, List.append_assoc]
      exact hhead.exists_found hbefore <|
        (beginsOutsideWord_of_blanks hbehind).append (beginsOutsideWord_cons (by decide) _)

lemma IsEmptyFunction.paren_mem {w : Text} (h : IsEmptyFunction w) : '(' ∈ w := by
  cases h
  simp

lemma IsNilHead.paren_notMem {gap name left right : Text} (h : IsNilHead gap name left right) :
    '(' ∉ nilHead gap name left right := by
  have hword : isWord '(' ≠ true := by decide
  have hblank : isBlank '(' ≠ true := by decide
  have hnil : '(' ∉ "nil".toList := by decide
  intro hmem
  rw [← List.append_nil (nilHead gap name left right), nilHead_append_eq, List.append_nil] at hmem
  simp only [List.mem_append, List.mem_cons] at hmem
  rcases hmem with hmem | heq | hmem | hmem
  · exact h.notMem_nilTarget hword hblank hmem
  · exact absurd heq (by decide)
  · exact hblank (h.right_blank _ hmem)
  · exact hnil hmem

/-- No declaration that holds nothing has an empty function inside. -/
lemma IsNilDeclaration.paren_notMem {w : Text} (h : IsNilDeclaration w) : '(' ∉ w := by
  have hblank : isBlank '(' ≠ true := by decide
  cases h with
  | bare hhead hbehind =>
      intro hmem
      rcases List.mem_append.mp hmem with hmem | hmem
      · exact hhead.paren_notMem hmem
      · exact hblank (hbehind _ hmem)
  | closed hhead hbehind hmore =>
      intro hmem
      rw [List.mem_append, List.mem_append, List.mem_cons] at hmem
      rcases hmem with (hmem | hmem) | heq | hmem
      · exact hhead.paren_notMem hmem
      · exact hblank (hbehind _ hmem)
      · exact absurd heq (by decide)
      · exact hblank (hmore _ hmem)

/-! ## Pieces between empty functions -/

/-- The finds among pieces are empty functions, each of them at the end of a word. -/
def CutsFunctions (ps : List (Piece Unit)) : Prop :=
  ∀ front f back, ps = front ++ .found f :: back →
    IsEmptyFunction f.covered ∧ BeginsOutsideWord (coveredBy back)

lemma cutsFunctions_pieces (text : Text) : CutsFunctions (pieces emptyFunction text) := by
  intro front f back h
  obtain ⟨hform, rest, htext, hrest⟩ :=
    emptyFunction_sound (wordEdit_emptyFunction.covers.found_of_pieces h)
  obtain rfl := List.append_cancel_left htext
  exact ⟨hform, hrest⟩

lemma cutsFunctions_plains (text : Text) : CutsFunctions (text.map .plain) := by
  intro front f back h
  have hmem : Piece.found f ∈ text.map .plain := by rw [h]; simp
  obtain ⟨c, -, heq⟩ := List.mem_map.mp hmem
  cases heq

/-- A declaration found in what is left of pieces, with the text before it, is torn at a seam inside
of it, and at a seam behind it if its `nil` is the last there. -/
def Tears (seam : Nat) (l : Text × Found (Option Text)) : Prop :=
  l.1.length < seam ∧ (seam < l.1.length + l.2.covered.length ∨
    seam = l.1.length + l.2.covered.length ∧ ¬ EndsOutsideWord l.2.covered)

instance (seam : Nat) (l : Text × Found (Option Text)) : Decidable (Tears seam l) :=
  have : Decidable (EndsOutsideWord l.2.covered) := decidable_of_iff _ endsOutsideWord_iff.symm
  inferInstanceAs (Decidable (_ ∧ _))

/-- No seam of some pieces tears a declaration. -/
def Untorn (ps : List (Piece Unit)) (l : Text × Found (Option Text)) : Prop :=
  ∀ seam ∈ seamsFrom 0 ps, ¬ Tears seam l

instance (ps : List (Piece Unit)) (l : Text × Found (Option Text)) : Decidable (Untorn ps l) :=
  inferInstanceAs (Decidable (∀ seam ∈ seamsFrom 0 ps, ¬ Tears seam l))

/-- A declaration found in what is left of pieces is one also in the text they were cut from. -/
def StandsIn (ps : List (Piece Unit)) (l : Text × Found (Option Text)) : Prop :=
  ∃ front ws back, ps = front ++ (ws ++ back) ∧ leftBy front = l.1 ∧ leftBy ws = l.2.covered ∧
    NilDeclarationAt (coveredBy front) (coveredBy ws) (coveredBy back)

namespace CutsFunctions

variable {ps : List (Piece Unit)} (hps : CutsFunctions ps)

include hps

/-- An empty function does not end where a word begins, so both texts end at the same character
there. -/
lemma endsOutsideWord {front back : List (Piece Unit)} (h : ps = front ++ back)
    (hback : ¬ BeginsOutsideWord (coveredBy back)) (hleft : EndsOutsideWord (leftBy front)) :
    EndsOutsideWord (coveredBy front) := by
  rcases List.eq_nil_or_concat front with rfl | ⟨front, p, rfl⟩
  · simp [EndsOutsideWord]
  · cases p with
    | plain d => simpa [EndsOutsideWord] using hleft
    | found f => exact absurd (hps front f back (by simp [h])).2 hback

/-- Cutting out the empty functions among some of the pieces. -/
lemma leaves {ws back : List (Piece Unit)} {left : Text} : ∀ {front : List (Piece Unit)},
    ps = front ++ (ws ++ back) → Leaves (coveredBy (front ++ ws)) (coveredBy back) left →
      Leaves (coveredBy front) (coveredBy (ws ++ back)) (leftBy ws ++ left) := by
  induction ws with
  | nil => intro front _ h; simpa using h
  | cons p ws ih =>
      intro front heq h
      have hnext : ps = front ++ [p] ++ (ws ++ back) := by simpa using heq
      have hrest := ih hnext (by simpa using h)
      cases p with
      | plain c =>
          rw [coveredBy_append] at hrest
          rw [List.cons_append, coveredBy_plain_cons, leftBy_plain_cons]
          exact .keep (by simpa using hrest)
      | found f =>
          obtain ⟨hform, hback⟩ := hps front f (ws ++ back) heq
          rw [coveredBy_append] at hrest
          rw [List.cons_append, coveredBy_found_cons, leftBy_found_cons]
          exact .cut (.emptyFunction hform hback) (by simpa using hrest)

/-- A declaration that is not torn has the same text on both sides. -/
lemma exists_back_of_untorn {front qs : List (Piece Unit)} {f : Found (Option Text)} {rest : Text}
    (heq : ps = front ++ qs) (hplain : BeginsPlain qs) (hleft : leftBy qs = f.covered ++ rest)
    (hfind : nilLocal (leftBy front).getLast? (f.covered ++ rest) = some f)
    (huntorn : Untorn ps (leftBy front, f)) :
    ∃ back, qs = f.covered.map .plain ++ back ∧ leftBy back = rest ∧
      NilDeclarationAt (coveredBy front) f.covered (coveredBy back) := by
  obtain ⟨hbefore, hform, rest', htext, hedge⟩ := nilLocal_sound hfind
  obtain rfl := List.append_cancel_left htext
  have hmem : ∀ seam ∈ seamsFrom (leftBy front).length qs, ¬ Tears seam (leftBy front, f) := by
    intro seam hseam
    refine huntorn seam ?_
    rw [heq, seamsFrom_append, Nat.zero_add]
    exact List.mem_append_right _ hseam
  obtain ⟨back, rfl, hback⟩ := exists_plains_of_no_seam hform.ne_nil hleft hplain
    fun seam hseam hinside => hmem seam hseam ⟨hinside.1, .inl hinside.2⟩
  refine ⟨back, rfl, hback, hform, ?_, ?_⟩
  · refine hps.endsOutsideWord heq ?_ (endsOutsideWord_iff.mpr hbefore)
    rw [coveredBy_append, coveredBy_plains]
    exact hform.not_beginsOutsideWord _
  · by_cases hends : EndsOutsideWord f.covered
    · exact .inl hends
    · -- a function right behind `nil` would leave a seam there
      have hbehind : BeginsPlain back := by
        rintro g back' rfl
        have hseam : (leftBy front).length + f.covered.length ∈
            seamsFrom (leftBy front).length (f.covered.map .plain ++ .found g :: back') := by
          simp [seamsFrom_append, seamsFrom]
        have hpos := List.length_pos_iff.mpr hform.ne_nil
        exact hmem _ hseam ⟨by simpa using hpos, .inr ⟨rfl, hends⟩⟩
      refine .inr (hbehind.beginsOutsideWord_coveredBy ?_)
      rw [hback]
      exact hedge.resolve_left hends

/-- **Which declarations stand in the text.**  Those that no seam tears. -/
theorem standsIn_iff {l : Text × Found (Option Text)} (hl : l ∈ located nilLocal (leftBy ps)) :
    StandsIn ps l ↔ Untorn ps l := by
  constructor
  · rintro ⟨front, ws, back, heq, hfront, hws, hat⟩ seam hseam ⟨hlow, hhigh⟩
    -- a declaration has no empty function inside
    have hwhole : ws = l.2.covered.map .plain := by
      rw [← hws]
      refine eq_plains_of_no_find fun f hf => ?_
      obtain ⟨ws₁, ws₂, rfl⟩ := List.append_of_mem hf
      have hform := (hps (front ++ ws₁) f (ws₂ ++ back) (by simp [heq])).1
      exact hat.form.paren_notMem (by simp [hform.paren_mem])
    subst hwhole
    rw [heq, seamsFrom_append, seamsFrom_append, seamsFrom_plains, List.nil_append, hfront,
      leftBy_plains, Nat.zero_add] at hseam
    rcases List.mem_append.mp hseam with hseam | hseam
    · have hbound := (bounds_of_mem_seamsFrom hseam).2
      rw [hfront] at hbound
      omega
    · have hbound := (bounds_of_mem_seamsFrom hseam).1
      rcases hhigh with hhigh | ⟨rfl, hends⟩
      · omega
      · -- a seam right behind `nil` is left by a keyword there
        obtain ⟨g, back, rfl⟩ := exists_found_of_mem_seamsFrom hseam
        have hform := (hps (front ++ l.2.covered.map .plain) g back (by simp [heq])).1
        have hback := hat.ends.resolve_left (by rwa [coveredBy_plains])
        rw [coveredBy_found_cons] at hback
        exact hform.not_beginsOutsideWord _ hback
  · intro huntorn
    obtain ⟨rest, hleft, hfind⟩ := exists_of_mem_located wordEdit_nilLocal.covers hl
    obtain ⟨front, qs, heq, hfront, hqs, hplain⟩ := exists_of_leftBy_eq_append hleft
    rw [← hfront] at hfind
    obtain ⟨back, rfl, -, hat⟩ := hps.exists_back_of_untorn heq hplain hqs hfind
      (by rwa [hfront])
    exact ⟨front, _, back, heq, hfront, leftBy_plains _, by rwa [coveredBy_plains]⟩

/-- A part of what is left that stays, with what is left behind it. -/
lemma leaves_append {front back : List (Piece Unit)} {kept t left : Text} (heq : ps = front ++ back)
    (hback : leftBy back = kept ++ t)
    (h : ∀ {front' back' : List (Piece Unit)}, ps = front' ++ back' →
      leftBy front' = leftBy front ++ kept → leftBy back' = t →
        BeginsPlain back' → Leaves (coveredBy front') (coveredBy back') left) :
    Leaves (coveredBy front) (coveredBy back) (kept ++ left) := by
  obtain ⟨ws, back, rfl, rfl, hrest, hplain⟩ := exists_of_leftBy_eq_append hback
  exact hps.leaves heq (h (by simpa using heq) (leftBy_append front ws) hrest hplain)

/-- Cutting the declarations out of what is left of pieces, when none of them is torn. -/
lemma leaves_of_untorn (a t : Text) : ∀ {front back : List (Piece Unit)},
    ps = front ++ back → leftBy front = a → leftBy back = t →
      (∀ l ∈ locatedFrom a (piecesFrom nilLocal 0 a.getLast? t), isDropped l.2 = true →
        Untorn ps l) →
      Leaves (coveredBy front) (coveredBy back)
        (assemble (fun f => if f.value.any continuesExpression then f.covered else [])
          (piecesFrom nilLocal 0 a.getLast? t)) := by
  induction a, t using wordEdit_nilLocal.covers.scanInduction with
  | nil a =>
      intro front back heq ha hback _
      have hcut : Leaves (coveredBy front) (coveredBy (back ++ [])) (leftBy back ++ []) :=
        hps.leaves (by simpa using heq) .nil
      simpa [hback] using hcut
  | plain a c rest hnone ih =>
      intro front back heq ha hback huntorn
      rw [piecesFrom_plain_of_none hnone] at huntorn ⊢
      rw [assemble_plain_cons, ← List.singleton_append]
      exact hps.leaves_append heq hback fun heq' ha' hrest _ =>
        ih heq' (by rw [ha', ha]) hrest huntorn
  | found a f rest hne hsome ih =>
      intro front back heq ha hback huntorn
      rw [piecesFrom_found_of_some hne hsome, locatedFrom] at huntorn
      rw [piecesFrom_found_of_some hne hsome, assemble_found_cons]
      have hlater := fun l hl => huntorn l (List.mem_cons_of_mem _ hl)
      split
      · exact hps.leaves_append heq hback fun heq' ha' hrest _ =>
          ih heq' (by rw [ha', ha]) hrest hlater
      · next hcontinues =>
          have hdropped : isDropped f = true := by simpa [isDropped] using hcontinues
          have hf := huntorn (a, f) List.mem_cons_self hdropped
          refine hps.leaves_append heq hback fun {front' back'} heq' ha' hback' hplain => ?_
          rw [List.append_nil, ha] at ha'
          subst ha'
          obtain ⟨behind, rfl, hrest, hat⟩ :=
            hps.exists_back_of_untorn heq' hplain hback' hsome hf
          have hcut := ih (by rw [← List.append_assoc] at heq'; exact heq') (by simp) hrest hlater
          rw [coveredBy_append, coveredBy_plains] at hcut ⊢
          exact .cut (.nilDeclaration hat) hcut

/-- Cutting out the empty functions. -/
lemma leaves_leftBy : Leaves [] (coveredBy ps) (leftBy ps) := by
  have hcut : Leaves (coveredBy []) (coveredBy (ps ++ [])) (leftBy ps ++ []) :=
    hps.leaves (by simp) .nil
  simpa using hcut

/-- Cutting out the empty functions, and then the declarations, when none of these is torn. -/
lemma leaves_dropNilLocals
    (h : ∀ l ∈ located nilLocal (leftBy ps), isDropped l.2 = true → Untorn ps l) :
    Leaves [] (coveredBy ps) (dropNilLocals (leftBy ps)) :=
  hps.leaves_of_untorn [] (leftBy ps) (List.nil_append ps).symm rfl rfl h

end CutsFunctions

/-! ## Both passes -/

/-- The declarations that are dropped from a text, found in what is left of it without the empty
functions, and each with what is left before it. -/
def droppedLocals (text : Text) : List (Text × Found (Option Text)) :=
  (located nilLocal (dropEmptyFunctions text)).filter (isDropped ·.2)

/-- **What the removal of dead code cuts out.**  Each pass cuts dead code out of the text that comes
to it.  A declaration that is dropped is dead code in the text itself, at the place it comes from,
just if the empty functions that were cut out do not tear it.  If none is torn, all that is cut out
is dead code in the text itself. -/
theorem removeDeadCode_leaves (text : Text) :
    Leaves [] text (dropEmptyFunctions text) ∧
    Leaves [] (dropEmptyFunctions text) (removeDeadCode text) ∧
    (∀ l ∈ droppedLocals text,
      (StandsIn (pieces emptyFunction text) l ↔ Untorn (pieces emptyFunction text) l)) ∧
    ((∀ l ∈ droppedLocals text, Untorn (pieces emptyFunction text) l) →
      Leaves [] text (removeDeadCode text)) := by
  have hps := cutsFunctions_pieces text
  have htext : coveredBy (pieces emptyFunction text) = text :=
    wordEdit_emptyFunction.covers.coveredBy_piecesFrom [] text
  have hleft : leftBy (pieces emptyFunction text) = dropEmptyFunctions text := rfl
  refine ⟨?_, ?_, fun l hl => hps.standsIn_iff (List.mem_of_mem_filter hl), fun huntorn => ?_⟩
  · have hcut := hps.leaves_leftBy
    rwa [htext, hleft] at hcut
  · -- what is left has no seams of its own
    have hcut := (cutsFunctions_plains (dropEmptyFunctions text)).leaves_dropNilLocals
      (by simp [Untorn])
    rwa [coveredBy_plains, leftBy_plains] at hcut
  · have hcut := hps.leaves_dropNilLocals fun l hl hdropped =>
      huntorn l (List.mem_filter.mpr ⟨hl, hdropped⟩)
    rwa [htext, hleft] at hcut

/-- An empty function and a declaration that holds nothing, one after the other. -/
def deadCodeApart : Text := "function foo() end\nlocal x = nil;\n  return x".toList

/-- Both are dropped here, and the function does not tear the declaration. -/
theorem removeDeadCode_leaves_apart :
    (droppedLocals deadCodeApart).length = 1 ∧
    removeDeadCode deadCodeApart = "\n  return x".toList ∧
    (∀ l ∈ droppedLocals deadCodeApart, Untorn (pieces emptyFunction deadCodeApart) l) ∧
    Leaves [] deadCodeApart (removeDeadCode deadCodeApart) := by
  have huntorn : ∀ l ∈ droppedLocals deadCodeApart,
      Untorn (pieces emptyFunction deadCodeApart) l := by decide +kernel
  exact ⟨by decide +kernel, by decide +kernel, huntorn,
    (removeDeadCode_leaves deadCodeApart).2.2.2 huntorn⟩

/-- An assignment behind an empty function, and the keyword `local` before it. -/
def joinedByRemoval : Text := "local function foo() end\nx = nil".toList

/-- If nothing is left of a text, dead code stands at its start. -/
lemma Leaves.exists_deadAt {front text : Text} (h : Leaves front text []) (hne : text ≠ []) :
    ∃ w back, text = w ++ back ∧ DeadAt front w back := by
  cases h with
  | nil => exact absurd rfl hne
  | cut hdead h => exact ⟨_, _, rfl, hdead⟩

/-- **Text is removed that is not dead code.**  Without the function, the keyword before it and the
assignment behind it read as a declaration, and nothing is left. -/
theorem joined_assignment_dropped :
    ¬ Leaves [] joinedByRemoval (removeDeadCode joinedByRemoval) := by
  have hremoved : removeDeadCode joinedByRemoval = [] := by decide +kernel
  have hsilent : nilLocal none joinedByRemoval = none := by decide +kernel
  have hkeyword : ¬ "function".toList <+: joinedByRemoval := by decide +kernel
  rw [hremoved]
  intro h
  obtain ⟨w, back, htext, hdead⟩ := h.exists_deadAt (by decide)
  rw [htext] at hsilent hkeyword
  cases hdead with
  | emptyFunction hform hback =>
      exact hkeyword (hform.keyword_isPrefix.trans (List.prefix_append w back))
  | nilDeclaration hat =>
      obtain ⟨f, hf⟩ := hat.exists_found
      rw [List.getLast?_nil, hsilent] at hf
      cases hf

end LuaUnveil
