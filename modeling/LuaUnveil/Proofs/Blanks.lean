import LuaUnveil.Proofs.Scan

/-!
# Texts that differ in their blanks only

Two texts have the same layout-free content when collapsing their blanks makes them equal.  This
file says what respects that relation.

**Trimming.**  `trim` takes nothing but blanks off the two ends (`exists_trim`).

**Collapsing.**  `collapseBlanks` keeps every character that is no blank, and cuts a text at such a
character into two texts that are collapsed on their own (`collapseBlanks_append_cons`).  Whatever
cut the collapsed text has, the text has too (`exists_of_collapseBlanks_eq_append`).

**Putting together.**  `collapseBlanks_append_congr`: texts with the same content can be put in
place of each other inside a longer text.

**Scanning.**  A pattern is `BlankBlind` when it never begins at a blank and finds in a text what
it finds in the collapsed text.  A scan for such a pattern sees the same finds, and replacing them
gives the same content (`Pattern.BlankBlind.scansAlike_collapseBlanks`).
-/

namespace LuaUnveil

/-! ## Trimming -/

@[simp] lemma dropBlanks_nil : dropBlanks [] = [] := rfl

lemma dropBlanks_cons_blank {c : Char} (hc : isBlank c = true) (x : Text) :
    dropBlanks (c :: x) = dropBlanks x := by simp [dropBlanks, hc]

lemma dropBlanks_cons_other {c : Char} (hc : isBlank c = false) (x : Text) :
    dropBlanks (c :: x) = c :: x := by simp [dropBlanks, hc]

lemma dropBlanks_append {w : Text} (hw : ∀ c ∈ w, isBlank c = true) (x : Text) :
    dropBlanks (w ++ x) = dropBlanks x := List.dropWhile_append_of_pos hw

/-- What is trimmed off a text are blanks. -/
lemma exists_trim (x : Text) : ∃ before after, (∀ c ∈ before, isBlank c = true) ∧
    (∀ c ∈ after, isBlank c = true) ∧ x = before ++ trim x ++ after := by
  refine ⟨x.takeWhile isBlank, ((dropBlanks x).reverse.takeWhile isBlank).reverse,
    fun c hc => List.mem_takeWhile_imp hc,
    fun c hc => List.mem_takeWhile_imp (List.mem_reverse.mp hc), ?_⟩
  rw [trim, List.append_assoc, ← List.reverse_append]
  simp only [dropBlanks, List.takeWhile_append_dropWhile, List.reverse_reverse]

lemma trim_eq_nil_iff {x : Text} : trim x = [] ↔ ∀ c ∈ x, isBlank c = true := by
  constructor
  · intro h
    obtain ⟨before, after, hbefore, hafter, hx⟩ := exists_trim x
    rw [h, List.append_nil] at hx
    rw [hx]
    exact List.forall_mem_append.mpr ⟨hbefore, hafter⟩
  · intro h
    have hdrop : dropBlanks x = [] := List.dropWhile_eq_nil_iff.mpr h
    rw [trim, hdrop]
    rfl

/-! ## Collapsing -/

@[simp] lemma collapseBlanks_nil : collapseBlanks [] = [] := by simp [collapseBlanks]

lemma collapseBlanks_cons_blank {c : Char} (hc : isBlank c = true) (x : Text) :
    collapseBlanks (c :: x) = ' ' :: collapseBlanks (dropBlanks x) := by simp [collapseBlanks, hc]

lemma collapseBlanks_cons_other {c : Char} (hc : isBlank c = false) (x : Text) :
    collapseBlanks (c :: x) = c :: collapseBlanks x := by simp [collapseBlanks, hc]

lemma isBlank_space : isBlank ' ' = true := by decide

/-- Dropping the leading blanks and collapsing can change places. -/
lemma dropBlanks_collapseBlanks (x : Text) :
    dropBlanks (collapseBlanks x) = collapseBlanks (dropBlanks x) := by
  induction x using collapseBlanks.induct with
  | case1 => simp
  | case2 c x hc ih =>
      have hdrop : dropBlanks (dropBlanks x) = dropBlanks x := List.dropWhile_idempotent isBlank x
      rw [collapseBlanks_cons_blank hc, dropBlanks_cons_blank hc,
        dropBlanks_cons_blank isBlank_space, ih, hdrop]
  | case3 c x hc ih =>
      have hc' : isBlank c = false := by simpa using hc
      rw [collapseBlanks_cons_other hc', dropBlanks_cons_other hc', dropBlanks_cons_other hc',
        collapseBlanks_cons_other hc']

/-- A character that is no blank cuts the text, collapsed or not, at the same place. -/
lemma collapseBlanks_append_cons {q : Char} (hq : isBlank q = false) (x y : Text) :
    collapseBlanks (x ++ q :: y) = collapseBlanks x ++ q :: collapseBlanks y := by
  induction x using collapseBlanks.induct with
  | case1 => rw [List.nil_append, collapseBlanks_cons_other hq, collapseBlanks_nil, List.nil_append]
  | case2 c x hc ih =>
      have hdrop : dropBlanks (x ++ q :: y) = dropBlanks x ++ q :: y := by
        rw [dropBlanks, dropBlanks, List.dropWhile_append]
        cases h : x.dropWhile isBlank with
        | nil => simp [hq]
        | cons d z => simp
      rw [List.cons_append, collapseBlanks_cons_blank hc, collapseBlanks_cons_blank hc, hdrop, ih,
        List.cons_append]
  | case3 c x hc ih =>
      have hc' : isBlank c = false := by simpa using hc
      rw [List.cons_append, collapseBlanks_cons_other hc', collapseBlanks_cons_other hc', ih,
        List.cons_append]

/-- A text without blanks in front is kept. -/
lemma collapseBlanks_append_of_nonblank {w : Text} (hw : ∀ c ∈ w, isBlank c = false) (y : Text) :
    collapseBlanks (w ++ y) = w ++ collapseBlanks y := by
  induction w with
  | nil => rfl
  | cons c w ih =>
      rw [List.cons_append, collapseBlanks_cons_other (hw c List.mem_cons_self),
        ih fun d hd => hw d (List.mem_cons_of_mem c hd), List.cons_append]

/-- Collapsing keeps the characters that are no blanks. -/
lemma mem_collapseBlanks {q : Char} (hq : isBlank q = false) {x : Text} :
    q ∈ collapseBlanks x ↔ q ∈ x := by
  constructor
  · intro h
    induction x using collapseBlanks.induct with
    | case1 => simp at h
    | case2 c x hc ih =>
        rw [collapseBlanks_cons_blank hc] at h
        rcases List.mem_cons.mp h with rfl | h
        · cases hq
        · exact List.mem_cons_of_mem c ((List.dropWhile_sublist _).mem (ih h))
    | case3 c x hc ih =>
        rw [collapseBlanks_cons_other (by simpa using hc)] at h
        rcases List.mem_cons.mp h with rfl | h
        · exact List.mem_cons_self
        · exact List.mem_cons_of_mem c (ih h)
  · intro h
    obtain ⟨a, b, rfl⟩ := List.append_of_mem h
    rw [collapseBlanks_append_cons hq]
    exact List.mem_append_right _ List.mem_cons_self

/-- A run of blanks stays one, and only a run of blanks becomes one. -/
lemma all_isBlank_collapseBlanks {x : Text} :
    (∀ c ∈ collapseBlanks x, isBlank c = true) ↔ ∀ c ∈ x, isBlank c = true := by
  constructor
  · intro h c hc
    cases hblank : isBlank c with
    | true => rfl
    | false =>
        have := h c ((mem_collapseBlanks hblank).mpr hc)
        rw [hblank] at this
        cases this
  · intro h c hc
    cases hblank : isBlank c with
    | true => rfl
    | false =>
        have := h c ((mem_collapseBlanks hblank).mp hc)
        rw [hblank] at this
        cases this

/-- Where the collapsed text can be cut at a character that is no blank, the text can. -/
lemma exists_of_collapseBlanks_eq_append {q : Char} (hq : isBlank q = false) {x : Text} :
    ∀ {a b : Text}, collapseBlanks x = a ++ q :: b →
      ∃ y z, x = y ++ q :: z ∧ collapseBlanks y = a ∧ collapseBlanks z = b := by
  intro a b h
  induction x using collapseBlanks.induct generalizing a with
  | case1 => simp at h
  | case2 c x hc ih =>
      rw [collapseBlanks_cons_blank hc] at h
      cases a with
      | nil =>
          obtain ⟨rfl, -⟩ := List.cons.inj h
          cases hq
      | cons d a =>
          rw [List.cons_append] at h
          obtain ⟨rfl, htail⟩ := List.cons.inj h
          obtain ⟨y, z, hx, rfl, rfl⟩ := ih htail
          refine ⟨c :: (x.takeWhile isBlank ++ y), z, ?_, ?_, rfl⟩
          · rw [List.cons_append, List.append_assoc, ← hx, dropBlanks,
              List.takeWhile_append_dropWhile]
          · -- the blanks that were dropped belong to the run that begins with `c`
            have hdrop : dropBlanks (x.takeWhile isBlank ++ y) = dropBlanks y := by
              rw [dropBlanks, dropBlanks,
                List.dropWhile_append_of_pos fun d hd => List.mem_takeWhile_imp hd]
            have hy : dropBlanks y = y := by
              cases y with
              | nil => rfl
              | cons d y =>
                  have hhead := List.head?_dropWhile_not isBlank x
                  rw [dropBlanks] at hx
                  rw [hx] at hhead
                  exact dropBlanks_cons_other (by simpa using hhead) y
            rw [collapseBlanks_cons_blank hc, hdrop, hy]
  | case3 c x hc ih =>
      have hc' : isBlank c = false := by simpa using hc
      rw [collapseBlanks_cons_other hc'] at h
      cases a with
      | nil =>
          obtain ⟨rfl, rfl⟩ := List.cons.inj h
          exact ⟨[], x, rfl, collapseBlanks_nil, rfl⟩
      | cons d a =>
          rw [List.cons_append] at h
          obtain ⟨rfl, htail⟩ := List.cons.inj h
          obtain ⟨y, z, rfl, rfl, rfl⟩ := ih htail
          exact ⟨c :: y, z, rfl, collapseBlanks_cons_other hc' y, rfl⟩

lemma exists_of_collapseBlanks_eq_cons {q : Char} (hq : isBlank q = false) {x b : Text}
    (h : collapseBlanks x = q :: b) : ∃ z, x = q :: z ∧ collapseBlanks z = b := by
  cases x with
  | nil => simp at h
  | cons c x =>
      cases hc : isBlank c with
      | true =>
          rw [collapseBlanks_cons_blank hc] at h
          obtain ⟨rfl, -⟩ := List.cons.inj h
          cases hq
      | false =>
          rw [collapseBlanks_cons_other hc] at h
          obtain ⟨rfl, hb⟩ := List.cons.inj h
          exact ⟨x, rfl, hb⟩

/-- A run of characters that are no blanks is the same in the collapsed text. -/
lemma takeWhile_collapseBlanks {p : Char → Bool} (hp : ∀ c, p c = true → isBlank c = false)
    (x : Text) : (collapseBlanks x).takeWhile p = x.takeWhile p := by
  induction x with
  | nil => simp
  | cons c x ih =>
      cases hc : isBlank c with
      | true =>
          have hnot : ∀ {d : Char}, isBlank d = true → ¬ p d = true := by
            intro d hd h
            rw [hp d h] at hd
            cases hd
          rw [collapseBlanks_cons_blank hc, List.takeWhile_cons_of_neg (hnot isBlank_space),
            List.takeWhile_cons_of_neg (hnot hc)]
      | false =>
          rw [collapseBlanks_cons_other hc, List.takeWhile_cons, List.takeWhile_cons, ih]

/-! ## Putting texts together -/

lemma dropBlanks_congr {x y : Text} (h : collapseBlanks x = collapseBlanks y) :
    collapseBlanks (dropBlanks x) = collapseBlanks (dropBlanks y) := by
  rw [← dropBlanks_collapseBlanks, ← dropBlanks_collapseBlanks, h]

/-- What stands behind can be replaced. -/
lemma collapseBlanks_append_congr_right (w : Text) {x y : Text}
    (h : collapseBlanks x = collapseBlanks y) :
    collapseBlanks (w ++ x) = collapseBlanks (w ++ y) := by
  induction w with
  | nil => exact h
  | cons c w ih =>
      cases hc : isBlank c with
      | true =>
          rw [List.cons_append, List.cons_append, collapseBlanks_cons_blank hc,
            collapseBlanks_cons_blank hc, dropBlanks_congr ih]
      | false =>
          rw [List.cons_append, List.cons_append, collapseBlanks_cons_other hc,
            collapseBlanks_cons_other hc, ih]

/-- What stands in front can be collapsed first. -/
lemma collapseBlanks_collapseBlanks_append (a w : Text) :
    collapseBlanks (collapseBlanks a ++ w) = collapseBlanks (a ++ w) := by
  induction a using collapseBlanks.induct with
  | case1 => simp
  | case2 c a hc ih =>
      rw [collapseBlanks_cons_blank hc, List.cons_append, List.cons_append,
        collapseBlanks_cons_blank isBlank_space, collapseBlanks_cons_blank hc,
        dropBlanks_congr ih]
      congr 2
      rw [dropBlanks, dropBlanks, dropBlanks, List.dropWhile_append, List.dropWhile_append,
        List.dropWhile_idempotent]
  | case3 c a hc ih =>
      have hc' : isBlank c = false := by simpa using hc
      rw [collapseBlanks_cons_other hc', List.cons_append, List.cons_append,
        collapseBlanks_cons_other hc', collapseBlanks_cons_other hc', ih]

lemma collapseBlanks_idem (x : Text) : collapseBlanks (collapseBlanks x) = collapseBlanks x := by
  simpa using collapseBlanks_collapseBlanks_append x []

/-- **Texts with the same content can be put in place of each other.** -/
theorem collapseBlanks_append_congr {a b x y : Text} (hab : collapseBlanks a = collapseBlanks b)
    (hxy : collapseBlanks x = collapseBlanks y) :
    collapseBlanks (a ++ x) = collapseBlanks (b ++ y) := by
  calc collapseBlanks (a ++ x)
      = collapseBlanks (collapseBlanks a ++ x) := (collapseBlanks_collapseBlanks_append a x).symm
    _ = collapseBlanks (collapseBlanks b ++ x) := by rw [hab]
    _ = collapseBlanks (b ++ x) := collapseBlanks_collapseBlanks_append b x
    _ = collapseBlanks (b ++ y) := collapseBlanks_append_congr_right b hxy

/-! ## Scanning -/

/-- A pattern that does not care for the amount of blanks: it finds something in a text where it
finds something in the collapsed text, the two finds are related, and what is left behind the one is
what is left behind the other, collapsed. -/
structure Pattern.BlankBlind {α : Type} (pattern : Pattern α)
    (related : Found α → Found α → Prop) : Prop where
  looksAhead : pattern.LooksAhead
  blank : ∀ {c : Char} (rest : Text), isBlank c = true → pattern none (c :: rest) = none
  none_iff : ∀ {c : Char} (rest : Text), isBlank c = false →
    (pattern none (c :: collapseBlanks rest) = none ↔ pattern none (c :: rest) = none)
  found : ∀ {c : Char} {rest : Text} {f g : Found α}, isBlank c = false →
    pattern none (c :: rest) = some f → pattern none (c :: collapseBlanks rest) = some g →
      related f g ∧ ∃ v w behind, rest = v ++ behind ∧ f.covered = c :: v ∧
        collapseBlanks rest = w ++ collapseBlanks behind ∧ g.covered = c :: w

/-- Two texts look alike to a scan: it sees related finds in them, and replacing these by texts with
the same content gives texts with the same content. -/
structure ScansAlike {α : Type} (pattern : Pattern α) (related : Found α → Found α → Prop)
    (x y : Text) : Prop where
  finds : List.Forall₂ related (finds (pieces pattern x)) (finds (pieces pattern y))
  content : ∀ r : Found α → Text,
    (∀ f g, related f g → collapseBlanks (r f) = collapseBlanks (r g)) →
      collapseBlanks (replaceAll pattern r x) = collapseBlanks (replaceAll pattern r y)

namespace Pattern.BlankBlind

variable {α : Type} {pattern : Pattern α} {related : Found α → Found α → Prop}
  (hp : pattern.BlankBlind related)

include hp

/-- In front of a text, blanks are only passed over. -/
lemma pieces_blank {c : Char} (hc : isBlank c = true) (rest : Text) :
    pieces pattern (c :: rest) = .plain c :: pieces pattern rest :=
  hp.looksAhead.pieces_plain (hp.blank rest hc)

lemma finds_dropBlanks (text : Text) :
    finds (pieces pattern (dropBlanks text)) = finds (pieces pattern text) := by
  induction text with
  | nil => rfl
  | cons c text ih =>
      cases hc : isBlank c with
      | true => rw [dropBlanks_cons_blank hc, ih, hp.pieces_blank hc, finds_plain_cons]
      | false => rw [dropBlanks_cons_other hc]

lemma dropBlanks_replaceAll (r : Found α → Text) (text : Text) :
    dropBlanks (replaceAll pattern r (dropBlanks text))
      = dropBlanks (replaceAll pattern r text) := by
  induction text with
  | nil => rfl
  | cons c text ih =>
      cases hc : isBlank c with
      | true =>
          rw [dropBlanks_cons_blank hc, ih, replaceAll, replaceAll, hp.pieces_blank hc,
            assemble_plain_cons, dropBlanks_cons_blank hc]
      | false => rw [dropBlanks_cons_other hc]

/-- A blank is passed over, and so are the blanks behind it. -/
lemma scansAlike_blank {c d : Char} (hc : isBlank c = true) (hd : isBlank d = true) {x y : Text}
    (h : ScansAlike pattern related x y) :
    ScansAlike pattern related (c :: x) (d :: dropBlanks y) := by
  refine ⟨?_, fun r hr => ?_⟩
  · rw [hp.pieces_blank hc, hp.pieces_blank hd, finds_plain_cons, finds_plain_cons,
      hp.finds_dropBlanks]
    exact h.finds
  · rw [replaceAll, replaceAll, hp.pieces_blank hc, hp.pieces_blank hd, assemble_plain_cons,
      assemble_plain_cons, collapseBlanks_cons_blank hc, collapseBlanks_cons_blank hd]
    have hcontent := dropBlanks_congr (h.content r hr)
    rw [← hp.dropBlanks_replaceAll r y] at hcontent
    exact congrArg _ hcontent

lemma scansAlike_plain {c : Char} {x y : Text} (hx : pattern none (c :: x) = none)
    (hy : pattern none (c :: y) = none) (h : ScansAlike pattern related x y) :
    ScansAlike pattern related (c :: x) (c :: y) := by
  refine ⟨?_, fun r hr => ?_⟩
  · rw [hp.looksAhead.pieces_plain hx, hp.looksAhead.pieces_plain hy, finds_plain_cons,
      finds_plain_cons]
    exact h.finds
  · rw [replaceAll, replaceAll, hp.looksAhead.pieces_plain hx, hp.looksAhead.pieces_plain hy,
      assemble_plain_cons, assemble_plain_cons]
    exact collapseBlanks_append_congr_right [c] (h.content r hr)

lemma scansAlike_found {c : Char} {v w x y : Text} {f g : Found α}
    (hx : pattern none (c :: (v ++ x)) = some f) (hf : f.covered = c :: v)
    (hy : pattern none (c :: (w ++ y)) = some g) (hg : g.covered = c :: w)
    (hrelated : related f g) (h : ScansAlike pattern related x y) :
    ScansAlike pattern related (c :: (v ++ x)) (c :: (w ++ y)) := by
  have hxpieces := hp.looksAhead.pieces_found hx hf
  have hypieces := hp.looksAhead.pieces_found hy hg
  refine ⟨?_, fun r hr => ?_⟩
  · rw [hxpieces, hypieces, finds_found_cons, finds_found_cons]
    exact List.Forall₂.cons hrelated h.finds
  · rw [replaceAll, replaceAll, hxpieces, hypieces, assemble_found_cons, assemble_found_cons]
    exact collapseBlanks_append_congr (hr f g hrelated) (h.content r hr)

/-- **A scan does not care for the amount of blanks.** -/
theorem scansAlike_collapseBlanks (text : Text) :
    ScansAlike pattern related text (collapseBlanks text) := by
  -- a find may cover many characters, so the induction is on the length of what is left
  induction hn : text.length using Nat.strong_induction_on generalizing text with
  | _ n ih =>
      cases text with
      | nil =>
          rw [collapseBlanks_nil]
          exact ⟨by simp [pieces], fun r _ => rfl⟩
      | cons c rest =>
          have hrest := ih rest.length (by rw [← hn]; simp) rest rfl
          cases hc : isBlank c with
          | true =>
              rw [collapseBlanks_cons_blank hc, ← dropBlanks_collapseBlanks]
              exact hp.scansAlike_blank hc isBlank_space hrest
          | false =>
              rw [collapseBlanks_cons_other hc]
              cases hf : pattern none (c :: rest) with
              | none => exact hp.scansAlike_plain hf ((hp.none_iff rest hc).mpr hf) hrest
              | some f =>
                  cases hg : pattern none (c :: collapseBlanks rest) with
                  | none =>
                      rw [(hp.none_iff rest hc).mp hg] at hf
                      cases hf
                  | some g =>
                      obtain ⟨hrelated, v, w, behind, rfl, hfv, hw, hgw⟩ := hp.found hc hf hg
                      have hbehind := ih behind.length
                        (by rw [← hn]; simp only [List.length_cons, List.length_append]; omega)
                        behind rfl
                      rw [hw] at hg ⊢
                      exact hp.scansAlike_found hf hfv hg hgw hrelated hbehind

/-- Replacing the finds in two texts with the same content gives texts with the same content. -/
theorem replaceAll_congr {r : Found α → Text}
    (hr : ∀ f g, related f g → collapseBlanks (r f) = collapseBlanks (r g)) {x y : Text}
    (h : collapseBlanks x = collapseBlanks y) :
    collapseBlanks (replaceAll pattern r x) = collapseBlanks (replaceAll pattern r y) := by
  rw [(hp.scansAlike_collapseBlanks x).content r hr, h,
    ← (hp.scansAlike_collapseBlanks y).content r hr]

omit hp in
/-- If related finds are equal, the finds in two texts with the same content are. -/
theorem finds_congr (hp : pattern.BlankBlind Eq) {x y : Text}
    (h : collapseBlanks x = collapseBlanks y) :
    LuaUnveil.finds (pieces pattern x) = LuaUnveil.finds (pieces pattern y) := by
  have hx := (hp.scansAlike_collapseBlanks x).finds
  have hy := (hp.scansAlike_collapseBlanks y).finds
  rw [List.forall₂_eq_eq_eq] at hx hy
  rw [hx, hy, h]

end Pattern.BlankBlind

end LuaUnveil
