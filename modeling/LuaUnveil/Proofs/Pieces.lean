import LuaUnveil.Proofs.Edges

/-!
# Cutting finds out of a text

A pass that drops its finds leaves the plain characters between them, and the next pass reads what
is left.  This file keeps the two texts side by side.

**Pieces.**  `coveredBy` is the text that pieces were cut from, and `leftBy` what is left of it when
the finds are dropped.  A scan can be taken up between any two pieces (`Pattern.Covers.resume`), so
a find among the pieces is an answer of the pattern at its place (`Pattern.Covers.found_of_pieces`).
A scan finds nothing just where the pattern answers nowhere (`pieces_eq_plains`,
`Pattern.Covers.finds_ne_nil`).

**Seams.**  A seam is a place in what is left at which a find was dropped.  What is left can be cut
anywhere, and the pieces with it (`exists_of_leftBy_eq_append`).  A part of it without a seam inside
stands in the text as it is (`exists_plains_of_no_seam`).
-/

namespace LuaUnveil

variable {α : Type}

/-! ## Pieces -/

lemma assemble_append (r : Found α → Text) (ps qs : List (Piece α)) :
    assemble r (ps ++ qs) = assemble r ps ++ assemble r qs := by simp [assemble]

/-- The text that pieces were cut from. -/
def coveredBy (ps : List (Piece α)) : Text := assemble Found.covered ps

/-- What is left of pieces when the finds are dropped. -/
def leftBy (ps : List (Piece α)) : Text := assemble (fun _ => []) ps

@[simp] lemma coveredBy_nil : coveredBy ([] : List (Piece α)) = [] := rfl

@[simp] lemma coveredBy_plain_cons (c : Char) (ps : List (Piece α)) :
    coveredBy (.plain c :: ps) = c :: coveredBy ps := assemble_plain_cons _ c ps

@[simp] lemma coveredBy_found_cons (f : Found α) (ps : List (Piece α)) :
    coveredBy (.found f :: ps) = f.covered ++ coveredBy ps := assemble_found_cons _ f ps

@[simp] lemma coveredBy_append (ps qs : List (Piece α)) :
    coveredBy (ps ++ qs) = coveredBy ps ++ coveredBy qs := assemble_append _ ps qs

@[simp] lemma coveredBy_plains (w : Text) :
    coveredBy (w.map .plain : List (Piece α)) = w := by
  simpa [coveredBy] using assemble_plains_append (fun f : Found α => f.covered) w []

@[simp] lemma leftBy_nil : leftBy ([] : List (Piece α)) = [] := rfl

@[simp] lemma leftBy_plain_cons (c : Char) (ps : List (Piece α)) :
    leftBy (.plain c :: ps) = c :: leftBy ps := assemble_plain_cons _ c ps

@[simp] lemma leftBy_found_cons (f : Found α) (ps : List (Piece α)) :
    leftBy (.found f :: ps) = leftBy ps := assemble_found_cons _ f ps

@[simp] lemma leftBy_append (ps qs : List (Piece α)) :
    leftBy (ps ++ qs) = leftBy ps ++ leftBy qs := assemble_append _ ps qs

@[simp] lemma leftBy_plains (w : Text) : leftBy (w.map .plain : List (Piece α)) = w := by
  simpa [leftBy] using assemble_plains_append (fun _ : Found α => []) w []

namespace Pattern.Covers

variable {pattern : Pattern α} (hp : pattern.Covers)

include hp

/-- The pieces of a scan cover the text. -/
lemma coveredBy_piecesFrom (a t : Text) : coveredBy (piecesFrom pattern 0 a.getLast? t) = t := by
  induction a, t using hp.scanInduction with
  | nil a => simp
  | plain a c rest hnone ih => rw [piecesFrom_plain_of_none hnone, coveredBy_plain_cons, ih]
  | found a f rest hne hsome ih =>
      rw [piecesFrom_found_of_some hne hsome, coveredBy_found_cons, ih]

lemma coveredBy_pieces (text : Text) : coveredBy (pieces pattern text) = text :=
  hp.coveredBy_piecesFrom [] text

/-- A scan can be taken up between any two pieces. -/
lemma resume (a t : Text) : ∀ {ps qs : List (Piece α)},
    piecesFrom pattern 0 a.getLast? t = ps ++ qs →
      t = coveredBy ps ++ coveredBy qs ∧
        piecesFrom pattern 0 (a ++ coveredBy ps).getLast? (coveredBy qs) = qs := by
  induction a, t using hp.scanInduction with
  | nil a =>
      intro ps qs h
      rw [piecesFrom_nil] at h
      obtain ⟨rfl, rfl⟩ := List.nil_eq_append_iff.mp h
      simp
  | plain a c rest hnone ih =>
      intro ps qs h
      cases ps with
      | nil =>
          obtain rfl := h
          simp [hp.coveredBy_piecesFrom]
      | cons p ps =>
          rw [piecesFrom_plain_of_none hnone, List.cons_append, List.cons.injEq] at h
          obtain ⟨rfl, h⟩ := h
          obtain ⟨hrest, hresume⟩ := ih h
          exact ⟨by rw [coveredBy_plain_cons, List.cons_append, ← hrest], by simpa using hresume⟩
  | found a f rest hne hsome ih =>
      intro ps qs h
      cases ps with
      | nil =>
          obtain rfl := h
          simp [hp.coveredBy_piecesFrom]
      | cons p ps =>
          rw [piecesFrom_found_of_some hne hsome, List.cons_append, List.cons.injEq] at h
          obtain ⟨rfl, h⟩ := h
          obtain ⟨hrest, hresume⟩ := ih h
          refine ⟨?_, by simpa using hresume⟩
          rw [coveredBy_found_cons, List.append_assoc, ← hrest]

/-- A find among the pieces is an answer of the pattern at its place. -/
lemma found_of_pieces {text : Text} {ps qs : List (Piece α)} {f : Found α}
    (h : pieces pattern text = ps ++ .found f :: qs) :
    pattern (coveredBy ps).getLast? (f.covered ++ coveredBy qs) = some f := by
  obtain ⟨-, hresume⟩ := hp.resume [] text h
  rw [List.nil_append, coveredBy_found_cons] at hresume
  cases htext : f.covered ++ coveredBy qs with
  | nil => rw [htext, piecesFrom_nil] at hresume; cases hresume
  | cons c rest =>
      rw [htext] at hresume
      cases hask : pattern (coveredBy ps).getLast? (c :: rest) with
      | none => rw [piecesFrom_plain hask] at hresume; cases hresume
      | some g =>
          simp only [piecesFrom, hask, List.cons.injEq, Piece.found.injEq] at hresume
          rw [hresume.1]

end Pattern.Covers

/-! ## Scans that find nothing, and what finds take out -/

/-- A part of a text at none of whose places the pattern answers is passed over. -/
lemma piecesFrom_append_of_silent {pattern : Pattern α} {rest : Text} : ∀ {t a : Text},
    (∀ front back, t = front ++ back → back ≠ [] →
      pattern (a ++ front).getLast? (back ++ rest) = none) →
    piecesFrom pattern 0 a.getLast? (t ++ rest)
      = t.map .plain ++ piecesFrom pattern 0 (a ++ t).getLast? rest
  | [], a, _ => by simp
  | c :: t, a, h => by
      have hnone : pattern a.getLast? (c :: (t ++ rest)) = none := by
        simpa using h [] (c :: t) rfl (by simp)
      rw [List.cons_append, piecesFrom_plain_of_none hnone, piecesFrom_append_of_silent]
      · simp
      · intro front back ht hback
        simpa using h (c :: front) back (by rw [ht, List.cons_append]) hback

/-- If the pattern answers nowhere, the pieces are the characters of the text. -/
lemma piecesFrom_eq_plains {pattern : Pattern α} {a text : Text}
    (h : ∀ front back, text = front ++ back → pattern (a ++ front).getLast? back = none) :
    piecesFrom pattern 0 a.getLast? text = text.map .plain := by
  have hsilent : piecesFrom pattern 0 a.getLast? (text ++ [])
      = text.map .plain ++ piecesFrom pattern 0 (a ++ text).getLast? [] :=
    piecesFrom_append_of_silent fun front back ht _ => by simpa using h front back ht
  simpa using hsilent

lemma pieces_eq_plains {pattern : Pattern α} {text : Text}
    (h : ∀ front back, text = front ++ back → pattern front.getLast? back = none) :
    pieces pattern text = text.map .plain := piecesFrom_eq_plains (a := []) h

/-- If the pattern answers anywhere, the scan finds something. -/
lemma Pattern.Covers.finds_ne_nil {pattern : Pattern α} (hp : pattern.Covers) (a t : Text) :
    ∀ {front back : Text} {f : Found α}, t = front ++ back →
      pattern (a ++ front).getLast? back = some f →
        finds (piecesFrom pattern 0 a.getLast? t) ≠ [] := by
  induction a, t using hp.scanInduction with
  | nil a =>
      intro front back f ht hf
      obtain ⟨-, rfl⟩ := List.nil_eq_append_iff.mp ht
      obtain ⟨hne, rest, heq⟩ := hp _ _ f hf
      exact absurd (List.append_eq_nil_iff.mp heq.symm).1 hne
  | plain a c rest hnone ih =>
      intro front back f ht hf
      rw [piecesFrom_plain_of_none hnone, finds_plain_cons]
      cases front with
      | nil =>
          rw [List.nil_append] at ht
          rw [List.append_nil, ← ht, hnone] at hf
          cases hf
      | cons d front =>
          obtain ⟨rfl, hrest⟩ := List.cons.inj ht
          exact ih hrest (by simpa using hf)
  | found a f rest hne hsome ih =>
      intro front back g _ _
      rw [piecesFrom_found_of_some hne hsome, finds_found_cons]
      exact List.cons_ne_nil _ _

/-- If every find keeps a part of what it covers, a part of the text is kept. -/
lemma assemble_sublist_coveredBy {r : Found α → Text} {ps : List (Piece α)}
    (h : ∀ f ∈ finds ps, (r f).Sublist f.covered) : (assemble r ps).Sublist (coveredBy ps) := by
  induction ps with
  | nil => exact List.Sublist.refl _
  | cons p ps ih =>
      cases p with
      | plain c =>
          rw [assemble_plain_cons, coveredBy_plain_cons]
          exact (ih (by simpa using h)).cons_cons c
      | found f =>
          rw [finds_found_cons, List.forall_mem_cons] at h
          rw [assemble_found_cons, coveredBy_found_cons]
          exact h.1.append (ih h.2)

/-- If every find loses `n` characters, the text loses `n` for each of them. -/
lemma length_assemble_add_le {r : Found α → Text} {n : Nat} {ps : List (Piece α)}
    (h : ∀ f ∈ finds ps, (r f).length + n ≤ f.covered.length) :
    (assemble r ps).length + n * (finds ps).length ≤ (coveredBy ps).length := by
  induction ps with
  | nil => simp
  | cons p ps ih =>
      cases p with
      | plain c =>
          have hrest := ih (by simpa using h)
          simp only [assemble_plain_cons, coveredBy_plain_cons, finds_plain_cons, List.length_cons]
          omega
      | found f =>
          rw [finds_found_cons, List.forall_mem_cons] at h
          have hrest := ih h.2
          have hf := h.1
          simp only [assemble_found_cons, coveredBy_found_cons, finds_found_cons, List.length_cons,
            List.length_append, Nat.mul_add, Nat.mul_one]
          omega

/-! ## Seams -/

/-- The places at which a find was dropped, in what is left of pieces behind `n` characters. -/
def seamsFrom : Nat → List (Piece α) → List Nat
  | _, [] => []
  | n, .plain _ :: ps => seamsFrom (n + 1) ps
  | n, .found _ :: ps => n :: seamsFrom n ps

lemma seamsFrom_append (ps qs : List (Piece α)) :
    ∀ n, seamsFrom n (ps ++ qs) = seamsFrom n ps ++ seamsFrom (n + (leftBy ps).length) qs := by
  induction ps with
  | nil => simp [seamsFrom]
  | cons p ps ih =>
      intro n
      cases p with
      | plain c =>
          rw [List.cons_append, seamsFrom, seamsFrom, ih, leftBy_plain_cons, List.length_cons,
            Nat.add_right_comm, Nat.add_assoc]
      | found f =>
          rw [List.cons_append, seamsFrom, seamsFrom, ih, leftBy_found_cons, List.cons_append]

/-- Seams are not outside of what is left. -/
lemma bounds_of_mem_seamsFrom {ps : List (Piece α)} :
    ∀ {n seam : Nat}, seam ∈ seamsFrom n ps → n ≤ seam ∧ seam ≤ n + (leftBy ps).length := by
  induction ps with
  | nil => intro n seam h; cases h
  | cons p ps ih =>
      intro n seam h
      cases p with
      | plain c =>
          obtain ⟨hlow, hhigh⟩ := ih h
          rw [leftBy_plain_cons, List.length_cons]
          omega
      | found f =>
          rw [leftBy_found_cons]
          rcases List.mem_cons.mp h with rfl | h
          · omega
          · exact ih h

/-- A seam right at the front comes from a find right at the front. -/
lemma exists_found_of_mem_seamsFrom {ps : List (Piece α)} {n : Nat} (h : n ∈ seamsFrom n ps) :
    ∃ f qs, ps = .found f :: qs := by
  cases ps with
  | nil => cases h
  | cons p ps =>
      cases p with
      | plain c =>
          have hlow := (bounds_of_mem_seamsFrom h : n + 1 ≤ n ∧ _).1
          omega
      | found f => exact ⟨f, ps, rfl⟩

@[simp] lemma seamsFrom_plains (w : Text) (n : Nat) :
    seamsFrom n (w.map .plain : List (Piece α)) = [] := by
  induction w generalizing n with
  | nil => rfl
  | cons c w ih => exact ih (n + 1)

/-- Pieces without a find are the characters of what is left. -/
lemma eq_plains_of_no_find {ps : List (Piece α)} (h : ∀ f, .found f ∉ ps) :
    ps = (leftBy ps).map .plain := by
  induction ps with
  | nil => rfl
  | cons p ps ih =>
      cases p with
      | plain c =>
          have hrest := ih fun f hf => h f (List.mem_cons_of_mem _ hf)
          rw [leftBy_plain_cons, List.map_cons, ← hrest]
      | found f => exact absurd List.mem_cons_self (h f)

/-- Whether pieces do not begin with a find. -/
def BeginsPlain (ps : List (Piece α)) : Prop := ∀ f qs, ps ≠ .found f :: qs

/-- Both texts begin at the same character then. -/
lemma BeginsPlain.beginsOutsideWord_coveredBy {ps : List (Piece α)} (hps : BeginsPlain ps)
    (h : BeginsOutsideWord (leftBy ps)) : BeginsOutsideWord (coveredBy ps) := by
  cases ps with
  | nil => exact h
  | cons p ps =>
      cases p with
      | plain c =>
          rw [leftBy_plain_cons] at h
          rwa [coveredBy_plain_cons]
      | found f => exact absurd rfl (hps f ps)

/-- What is left can be cut anywhere, and the pieces with it.  Finds at the cut go to the front. -/
lemma exists_of_leftBy_eq_append {ps : List (Piece α)} :
    ∀ {a b : Text}, leftBy ps = a ++ b →
      ∃ ps₁ ps₂, ps = ps₁ ++ ps₂ ∧ leftBy ps₁ = a ∧ leftBy ps₂ = b ∧ BeginsPlain ps₂ := by
  induction ps with
  | nil =>
      intro a b h
      obtain ⟨rfl, rfl⟩ := List.nil_eq_append_iff.mp h
      exact ⟨[], [], rfl, rfl, rfl, by simp [BeginsPlain]⟩
  | cons p ps ih =>
      intro a b h
      cases p with
      | plain c =>
          cases a with
          | nil => exact ⟨[], .plain c :: ps, rfl, rfl, h, by simp [BeginsPlain]⟩
          | cons d a =>
              rw [leftBy_plain_cons, List.cons_append, List.cons.injEq] at h
              obtain ⟨rfl, h⟩ := h
              obtain ⟨ps₁, ps₂, rfl, ha, hb, hplain⟩ := ih h
              exact ⟨.plain c :: ps₁, ps₂, rfl, by rw [leftBy_plain_cons, ha], hb, hplain⟩
      | found f =>
          rw [leftBy_found_cons] at h
          obtain ⟨ps₁, ps₂, rfl, ha, hb, hplain⟩ := ih h
          exact ⟨.found f :: ps₁, ps₂, rfl, by rw [leftBy_found_cons, ha], hb, hplain⟩

/-- A part of what is left without a seam inside stands in the text as it is. -/
lemma exists_plains_of_no_seam {w rest : Text} (hw : w ≠ []) :
    ∀ {ps : List (Piece α)} {n : Nat}, leftBy ps = w ++ rest → BeginsPlain ps →
      (∀ seam ∈ seamsFrom n ps, ¬ (n < seam ∧ seam < n + w.length)) →
      ∃ qs, ps = w.map .plain ++ qs ∧ leftBy qs = rest := by
  induction w with
  | nil => exact absurd rfl hw
  | cons c w ih =>
      intro ps n h hplain hseam
      cases ps with
      | nil => cases h
      | cons p ps =>
          cases p with
          | found f => exact absurd rfl (hplain f ps)
          | plain d =>
              rw [leftBy_plain_cons, List.cons_append, List.cons.injEq] at h
              obtain ⟨rfl, h⟩ := h
              by_cases hlast : w = []
              · subst hlast
                exact ⟨ps, rfl, h⟩
              · have hlen := List.length_pos_iff.mpr hlast
                rw [List.length_cons] at hseam
                -- a find behind the first character would leave a seam there
                have hplain' : BeginsPlain ps := by
                  rintro f qs rfl
                  exact hseam (n + 1) List.mem_cons_self (by omega)
                obtain ⟨qs, rfl, hqs⟩ := ih hlast h hplain' fun seam hmem hinside =>
                  hseam seam hmem (by omega)
                exact ⟨qs, rfl, hqs⟩

end LuaUnveil
