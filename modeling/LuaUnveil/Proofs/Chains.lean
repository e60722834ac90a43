import LuaUnveil.Proofs.Rounds

/-!
# Chains of numerals

A sum padded with zeros, or a product padded with ones, may have far more neutral terms than there
are rounds.  This file says that fully simplifying takes all of them out nevertheless.

**Terms.**  On a chain, the two identities of its sign act on the list of its terms.  Both go over
neighbouring terms from the left and make one term of a pair with a neutral term in it, `keepFirst`
if that is the second one, `keepSecond` if it is the first (`mergePairs`).

**Halving.**  Pairs do not overlap, so a run of neutral terms is not taken out at once, but at most
half of it is left (`two_mul_count_roundTerms_le`).  The terms that are not neutral all stay, in
their order (`filter_roundTerms`).  So `r` rounds are enough for fewer than `2 ^ r` neutral terms
(`iterate_roundTerms_eq`).

**Text.**  A scan of a chain finds its pairs of terms (`ReadsTerms.scanBehind_chain`).  The other
identities do not occur in the chain, since a character of theirs is missing, and so a round on the
text is a round on the terms (`IsNeutral.simplifyOnce_chain`).
-/

namespace LuaUnveil

/-! ## Chains -/

/-- Terms one after the other, with a sign and spaces between them. -/
def chain (sign : Char) (terms : List Text) : Text := [' ', sign, ' '].intercalate terms

/-- The terms of a chain behind its first one, each with the sign before it. -/
def furtherTerms (sign : Char) (terms : List Text) : Text :=
  terms.flatMap ([' ', sign, ' '] ++ ·)

/-- The terms of a chain that are not neutral, or one neutral term if there are no others. -/
def withoutNeutral (neutral : Text) (terms : List Text) : List Text :=
  if ∀ t ∈ terms, t = neutral then [neutral] else terms.filter (· ≠ neutral)

section Chain

variable {sign : Char}

@[simp] lemma chain_nil : chain sign [] = [] := rfl

@[simp] lemma furtherTerms_nil : furtherTerms sign [] = [] := rfl

lemma chain_cons (t : Text) (terms : List Text) :
    chain sign (t :: terms) = t ++ furtherTerms sign terms := by
  induction terms generalizing t with
  | nil => simp [chain]
  | cons u terms ih =>
      have hstep : chain sign (t :: u :: terms)
          = t ++ [' ', sign, ' '] ++ chain sign (u :: terms) := List.intercalate_cons_cons
      rw [hstep, ih u]
      simp [furtherTerms]

lemma furtherTerms_of_ne_nil {terms : List Text} (h : terms ≠ []) :
    furtherTerms sign terms = [' ', sign, ' '] ++ chain sign terms := by
  obtain ⟨t, terms, rfl⟩ := List.exists_cons_of_ne_nil h
  rw [chain_cons]
  simp [furtherTerms]

lemma chain_cons_cons (t u : Text) (terms : List Text) : chain sign (t :: u :: terms)
    = t ++ ([' ', sign, ' '] ++ (u ++ furtherTerms sign terms)) := by
  rw [chain_cons, furtherTerms_of_ne_nil (List.cons_ne_nil u terms), chain_cons]

lemma isPadded_sign (sign : Char) : IsPadded sign [' ', sign, ' '] := by
  have hspace : isBlank ' ' = true := by decide
  have hspaces : ∀ c ∈ [' '], isBlank c = true := by simpa using hspace
  exact .intro hspaces hspaces

/-- A chain has digits, spaces and its sign. -/
lemma of_mem_chain {terms : List Text} (hterms : ∀ t ∈ terms, IsNumeral t) {c : Char}
    (hc : c ∈ chain sign terms) : c.isDigit = true ∨ c = ' ' ∨ c = sign := by
  induction terms with
  | nil => cases hc
  | cons t terms ih =>
      obtain ⟨ht, hterms⟩ := List.forall_mem_cons.mp hterms
      rw [chain_cons] at hc
      rcases List.mem_append.mp hc with hc | hc
      · exact .inl (ht.isDigit c hc)
      · cases terms with
        | nil => cases hc
        | cons u terms =>
            rw [furtherTerms_of_ne_nil (List.cons_ne_nil u terms)] at hc
            rcases List.mem_append.mp hc with hc | hc
            · right
              simpa [or_comm, or_left_comm] using hc
            · exact ih hterms hc

variable (hsign : isWord sign = false)

include hsign

lemma beginsOutsideWord_furtherTerms (terms : List Text) :
    BeginsOutsideWord (furtherTerms sign terms) := by
  cases terms with
  | nil => simp [BeginsOutsideWord]
  | cons t terms =>
      rw [furtherTerms_of_ne_nil (List.cons_ne_nil t terms)]
      exact ((isPadded_sign sign).isSeparator hsign).beginsOutsideWord _

/-- The words of a chain are its terms. -/
lemma words_chain {terms : List Text} (hterms : ∀ t ∈ terms, IsNumeral t) :
    words (chain sign terms) = terms := by
  induction terms with
  | nil => simp
  | cons t terms ih =>
      obtain ⟨ht, hterms⟩ := List.forall_mem_cons.mp hterms
      rw [chain_cons, words_append ht.isSingleWord (beginsOutsideWord_furtherTerms hsign terms)]
      cases terms with
      | nil => simp
      | cons u terms =>
          rw [furtherTerms_of_ne_nil (List.cons_ne_nil u terms),
            words_append_of_other ((isPadded_sign sign).isSeparator hsign).other, ih hterms]

end Chain

/-! ## Rounds on the terms -/

/-- Go over neighbouring terms from the left.  A pair that can be merged becomes one term, and the
search goes on behind the pair. -/
def mergePairs (merge : Text → Text → Option Text) : List Text → List Text
  | [] => []
  | [t] => [t]
  | t :: u :: terms =>
    match merge t u with
    | some v => v :: mergePairs merge terms
    | none => t :: mergePairs merge (u :: terms)

/-- A term with a neutral one behind it. -/
def keepFirst (neutral t u : Text) : Option Text := if u = neutral then some t else none

/-- A term with a neutral one in front of it. -/
def keepSecond (neutral t u : Text) : Option Text := if t = neutral then some u else none

/-- What one round does to the terms of a chain. -/
def roundTerms (neutral : Text) (terms : List Text) : List Text :=
  mergePairs (keepSecond neutral) (mergePairs (keepFirst neutral) terms)

/-- Of two terms one is kept, and the other one is neutral. -/
def DropsNeutral (neutral : Text) (merge : Text → Text → Option Text) : Prop :=
  ∀ t u v, merge t u = some v → v = t ∧ u = neutral ∨ v = u ∧ t = neutral

section Merge

variable {merge : Text → Text → Option Text}

lemma mergePairs_ne_nil {terms : List Text} (h : terms ≠ []) : mergePairs merge terms ≠ [] := by
  fun_cases mergePairs merge terms with
  | case1 => exact absurd rfl h
  | case2 t => exact List.cons_ne_nil _ _
  | case3 t u terms v hv => exact List.cons_ne_nil _ _
  | case4 t u terms hnone => exact List.cons_ne_nil _ _

variable {neutral : Text} (hm : DropsNeutral neutral merge)

include hm

lemma mergePairs_sublist (terms : List Text) : (mergePairs merge terms).Sublist terms := by
  fun_induction mergePairs merge terms with
  | case1 => exact List.Sublist.refl _
  | case2 t => exact List.Sublist.refl _
  | case3 t u terms v hv ih =>
      rcases hm t u v hv with ⟨rfl, -⟩ | ⟨rfl, -⟩
      · exact (ih.cons u).cons_cons v
      · exact (ih.cons_cons v).cons t
  | case4 t u terms hnone ih => exact ih.cons_cons t

lemma filter_mergePairs (terms : List Text) :
    (mergePairs merge terms).filter (· ≠ neutral) = terms.filter (· ≠ neutral) := by
  fun_induction mergePairs merge terms with
  | case1 => rfl
  | case2 t => rfl
  | case3 t u terms v hv ih =>
      rcases hm t u v hv with ⟨rfl, rfl⟩ | ⟨rfl, rfl⟩
      · simp only [List.filter_cons, ih]
        simp
      · simp only [List.filter_cons, ih]
        simp
  | case4 t u terms hnone ih => rw [List.filter_cons, List.filter_cons, ih]

end Merge

section Terms

variable (neutral : Text)

lemma dropsNeutral_keepFirst : DropsNeutral neutral (keepFirst neutral) := by
  intro t u v h
  unfold keepFirst at h
  split_ifs at h with hu
  exact .inl ⟨(Option.some.inj h).symm, hu⟩

lemma dropsNeutral_keepSecond : DropsNeutral neutral (keepSecond neutral) := by
  intro t u v h
  unfold keepSecond at h
  split_ifs at h with ht
  exact .inr ⟨(Option.some.inj h).symm, ht⟩

lemma roundTerms_sublist (terms : List Text) : (roundTerms neutral terms).Sublist terms :=
  (mergePairs_sublist (dropsNeutral_keepSecond neutral) _).trans
    (mergePairs_sublist (dropsNeutral_keepFirst neutral) terms)

lemma roundTerms_ne_nil {terms : List Text} (h : terms ≠ []) : roundTerms neutral terms ≠ [] :=
  mergePairs_ne_nil (mergePairs_ne_nil h)

/-- **The terms that are not neutral stay, in their order.** -/
lemma filter_roundTerms (terms : List Text) :
    (roundTerms neutral terms).filter (· ≠ neutral) = terms.filter (· ≠ neutral) := by
  rw [roundTerms, filter_mergePairs (dropsNeutral_keepSecond neutral),
    filter_mergePairs (dropsNeutral_keepFirst neutral)]

/-- The first term stays where it is. -/
lemma exists_mergePairs_keepFirst (t : Text) (terms : List Text) :
    ∃ more, mergePairs (keepFirst neutral) (t :: terms) = t :: more := by
  cases terms with
  | nil => exact ⟨[], rfl⟩
  | cons u terms =>
      by_cases hu : u = neutral
      · exact ⟨mergePairs (keepFirst neutral) terms, by simp [mergePairs, keepFirst, hu]⟩
      · exact ⟨mergePairs (keepFirst neutral) (u :: terms), by simp [mergePairs, keepFirst, hu]⟩

/-- Behind the first term, at least every second neutral term goes. -/
lemma two_mul_count_tail_le (terms : List Text) :
    2 * (mergePairs (keepFirst neutral) terms).tail.count neutral ≤ terms.tail.count neutral := by
  fun_induction mergePairs (keepFirst neutral) terms with
  | case1 => simp
  | case2 t => simp
  | case3 t u terms v hv ih =>
      obtain rfl : u = neutral := by
        unfold keepFirst at hv
        split_ifs at hv with hu
        exact hu
      rw [List.tail_cons, List.tail_cons, List.count_cons_self]
      -- the next term stays, neutral or not
      cases terms with
      | nil => simp [mergePairs]
      | cons w terms =>
          obtain ⟨more, hmore⟩ := exists_mergePairs_keepFirst u w terms
          rw [hmore, List.tail_cons, List.tail_cons] at ih
          rw [hmore, List.count_cons, List.count_cons]
          split_ifs <;> omega
  | case4 t u terms hnone ih =>
      have hu : u ≠ neutral := by
        rintro rfl
        simp [keepFirst] at hnone
      obtain ⟨more, hmore⟩ := exists_mergePairs_keepFirst neutral u terms
      rw [hmore, List.tail_cons, List.tail_cons] at ih
      rw [hmore, List.tail_cons, List.tail_cons, List.count_cons_of_ne hu,
        List.count_cons_of_ne hu]
      exact ih

/-- **A round takes out at least half of the neutral terms, unless one of them is all that is
left.** -/
lemma two_mul_count_roundTerms_le (terms : List Text) :
    roundTerms neutral terms = [neutral] ∨
      2 * (roundTerms neutral terms).count neutral ≤ terms.count neutral := by
  have hsublist := fun terms => mergePairs_sublist (dropsNeutral_keepSecond neutral) terms
  cases terms with
  | nil => exact .inr (by simp [roundTerms, mergePairs])
  | cons t terms =>
      have htail := two_mul_count_tail_le neutral (t :: terms)
      obtain ⟨more, hmore⟩ := exists_mergePairs_keepFirst neutral t terms
      rw [hmore, List.tail_cons, List.tail_cons] at htail
      rw [roundTerms, hmore]
      by_cases ht : t = neutral
      · -- the first term goes now, unless it is the only one left
        subst ht
        cases more with
        | nil => exact .inl rfl
        | cons u more =>
            right
            have hpair : mergePairs (keepSecond t) (t :: u :: more)
                = u :: mergePairs (keepSecond t) more := by simp [mergePairs, keepSecond]
            have hlater := (hsublist more).count_le t
            rw [hpair, List.count_cons_self, List.count_cons]
            rw [List.count_cons] at htail
            omega
      · right
        have hle := (hsublist (t :: more)).count_le neutral
        rw [List.count_cons_of_ne ht] at hle ⊢
        omega

lemma withoutNeutral_eq (terms : List Text) : withoutNeutral neutral terms =
    if terms.filter (· ≠ neutral) = [] then [neutral] else terms.filter (· ≠ neutral) := by
  have hiff : terms.filter (· ≠ neutral) = [] ↔ ∀ t ∈ terms, t = neutral := by
    simp [List.filter_eq_nil_iff]
  rw [withoutNeutral]
  simp only [hiff]

lemma withoutNeutral_roundTerms (terms : List Text) :
    withoutNeutral neutral (roundTerms neutral terms) = withoutNeutral neutral terms := by
  rw [withoutNeutral_eq, withoutNeutral_eq, filter_roundTerms]

/-- **Rounds come to the terms that are not neutral**, in as many rounds as halving takes. -/
theorem iterate_roundTerms_eq {rounds : Nat} : ∀ {terms : List Text}, terms ≠ [] →
    terms.count neutral < 2 ^ rounds →
      (roundTerms neutral)^[rounds] terms = withoutNeutral neutral terms := by
  induction rounds with
  | zero =>
      intro terms hne hcount
      have hnone : neutral ∉ terms := List.count_eq_zero.mp (by omega)
      obtain ⟨t, ht⟩ := List.exists_mem_of_ne_nil terms hne
      have hother : ¬ ∀ t ∈ terms, t = neutral := fun hall => hnone (hall t ht ▸ ht)
      rw [withoutNeutral, if_neg hother, List.filter_eq_self.mpr]
      · rfl
      · intro u hu
        simpa using ne_of_mem_of_not_mem hu hnone
  | succ rounds ih =>
      intro terms hne hcount
      rw [Function.iterate_succ_apply, ← withoutNeutral_roundTerms]
      rcases two_mul_count_roundTerms_le neutral terms with hlast | hhalf
      · rw [hlast, Function.iterate_fixed rfl]
        simp [withoutNeutral]
      · rw [pow_succ] at hcount
        exact ih (roundTerms_ne_nil neutral hne) (by omega)

end Terms

/-! ## Scanning a chain -/

lemma not_isDigit_of_not_isWord {c : Char} (h : isWord c = false) : c.isDigit = false :=
  Bool.eq_false_iff.mpr fun hdigit => by
    rw [isWord_of_isDigit hdigit] at h
    cases h

/-- What a scan makes of a text with another one before it, when the values of its finds are put in
their places. -/
def scanBehind (pattern : Pattern Text) (front text : Text) : Text :=
  assemble (·.value) (piecesFrom pattern 0 front.getLast? text)

lemma scanBehind_found {pattern : Pattern Text} {front value covered rest : Text}
    (hne : covered ≠ []) (h : pattern front.getLast? (covered ++ rest) = some ⟨value, covered⟩) :
    scanBehind pattern front (covered ++ rest)
      = value ++ scanBehind pattern (front ++ covered) rest := by
  rw [scanBehind, piecesFrom_found_of_some (f := ⟨value, covered⟩) hne h, assemble_found_cons]
  rfl

/-- A pattern that is found from the first digit of a numeral on or not at all. -/
structure ReadsTerms (pattern : Pattern Text) : Prop where
  inside : ∀ {before text}, before.any Char.isDigit = true → pattern before text = none
  outside : ∀ {before c rest}, c.isDigit = false → pattern before (c :: rest) = none

namespace ReadsTerms

variable {pattern : Pattern Text} (hp : ReadsTerms pattern) {sign : Char}
  (hsign : isWord sign = false)

include hp

/-- A term at whose first digit nothing is found is passed over. -/
lemma scanBehind_term {front t rest : Text} (ht : IsNumeral t)
    (hnone : pattern front.getLast? (t ++ rest) = none) :
    scanBehind pattern front (t ++ rest) = t ++ scanBehind pattern (front ++ t) rest := by
  rw [scanBehind, piecesFrom_append_of_silent, assemble_plains_append]
  · rfl
  · intro a b hab hb
    rcases List.eq_nil_or_concat a with rfl | ⟨a, c, rfl⟩
    · rw [List.nil_append] at hab
      rw [List.append_nil, ← hab, hnone]
    · refine hp.inside ?_
      simpa using ht.isDigit c (by simp [hab])

include hsign

/-- A sign is passed over, and the terms behind it are a chain again. -/
lemma scanBehind_furtherTerms {merge : Text → Text → Option Text} {terms : List Text}
    (h : ∀ front : Text, EndsOutsideWord front →
      scanBehind pattern front (chain sign terms) = chain sign (mergePairs merge terms))
    (front : Text) : scanBehind pattern front (furtherTerms sign terms)
      = furtherTerms sign (mergePairs merge terms) := by
  have hsep := (isPadded_sign sign).isSeparator hsign
  by_cases hterms : terms = []
  · rw [hterms]
    rfl
  · rw [furtherTerms_of_ne_nil hterms, furtherTerms_of_ne_nil (mergePairs_ne_nil hterms),
      scanBehind, piecesFrom_append_of_silent, assemble_plains_append]
    · exact congrArg _ (h _ (hsep.endsOutsideWord front))
    · intro a b hab hb
      obtain ⟨c, b, rfl⟩ := List.exists_cons_of_ne_nil hb
      exact hp.outside (not_isDigit_of_not_isWord (hsep.other c (by simp [hab])))

/-- **A scan of a chain merges pairs of terms**, if the pattern finds the pairs that merge and no
others. -/
theorem scanBehind_chain {merge : Text → Text → Option Text}
    (hlast : ∀ {before t}, IsNumeral t → pattern before (chain sign [t]) = none)
    (hsome : ∀ {before t u v terms}, before.any isWord = false →
      (∀ x ∈ t :: u :: terms, IsNumeral x) → merge t u = some v →
        pattern before (chain sign (t :: u :: terms)) = some ⟨v, t ++ ([' ', sign, ' '] ++ u)⟩)
    (hnone : ∀ {before t u terms}, (∀ x ∈ t :: u :: terms, IsNumeral x) → merge t u = none →
      pattern before (chain sign (t :: u :: terms)) = none)
    (terms : List Text) : (∀ t ∈ terms, IsNumeral t) → ∀ front : Text, EndsOutsideWord front →
      scanBehind pattern front (chain sign terms) = chain sign (mergePairs merge terms) := by
  fun_induction mergePairs merge terms with
  | case1 => exact fun _ front _ => by simp [scanBehind]
  | case2 t =>
      intro hterms front hfront
      have ht := hterms t List.mem_cons_self
      have hask : pattern front.getLast? (t ++ furtherTerms sign []) = none := by
        rw [← chain_cons]
        exact hlast ht
      rw [chain_cons, hp.scanBehind_term ht hask]
      simp [scanBehind]
  | case3 t u terms v hv ih =>
      intro hterms front hfront
      have hask := hsome (endsOutsideWord_iff.mp hfront) hterms hv
      have hlater := fun x hx => hterms x (List.mem_cons_of_mem t (List.mem_cons_of_mem u hx))
      have hchain : chain sign (t :: u :: terms)
          = t ++ ([' ', sign, ' '] ++ u) ++ furtherTerms sign terms := by
        rw [chain_cons_cons, List.append_assoc, List.append_assoc]
      rw [hchain] at hask ⊢
      rw [scanBehind_found (by simp) hask, hp.scanBehind_furtherTerms hsign (ih hlater), chain_cons]
  | case4 t u terms hv ih =>
      intro hterms front hfront
      have hask : pattern front.getLast? (t ++ furtherTerms sign (u :: terms)) = none := by
        rw [← chain_cons]
        exact hnone hterms hv
      obtain ⟨ht, hlater⟩ := List.forall_mem_cons.mp hterms
      rw [chain_cons, hp.scanBehind_term ht hask,
        hp.scanBehind_furtherTerms hsign (ih hlater), chain_cons]

end ReadsTerms

/-! ## The two identities of a sign -/

/-- The characters of the operator of an identity. -/
def Identity.operatorText : Identity → Text
  | digitRight operator _ => [operator]
  | digitLeft _ operator => [operator]
  | keywordLeft _ operator => operator
  | keywordRight operator _ => operator

/-- An identity occurs only in a text with the characters of its operator. -/
lemma Identity.OccursIn.operatorText_subset {identity : Identity} {text : Text}
    (h : identity.OccursIn text) : identity.operatorText ⊆ text := by
  intro c hc
  cases h with
  | digitRight front hdigits hsep hback =>
      obtain rfl := List.mem_singleton.mp hc
      obtain ⟨-, -⟩ := hsep
      simp
  | digitLeft hfront hsep hdigits back =>
      obtain rfl := List.mem_singleton.mp hc
      obtain ⟨-, -⟩ := hsep
      simp
  | keywordLeft hfront hgap hgap' hline back =>
      rw [operatorText] at hc
      simp [hc]
  | keywordRight front hline hgap hgap' hback =>
      rw [operatorText] at hc
      simp [hc]

/-- A sign and its neutral digit.  Their two identities are applied one after the other, and each of
the others has a character that chains of this sign do not have. -/
structure IsNeutral (sign neutral : Char) : Prop where
  sign_other : isWord sign = false
  sign_visible : isBlank sign = false
  neutral_digit : neutral.isDigit = true
  identities : ∃ earlier later,
    Identity.all = earlier ++ .digitRight sign neutral :: .digitLeft neutral sign :: later ∧
      ∀ identity ∈ earlier ++ later,
        identity.operatorText.any (fun c => !c.isDigit && c != ' ' && c != sign) = true

lemma isNeutral_plus : IsNeutral '+' '0' :=
  ⟨by decide, by decide, by decide, [], Identity.all.drop 2, rfl, by decide⟩

lemma isNeutral_times : IsNeutral '*' '1' :=
  ⟨by decide, by decide, by decide, Identity.all.take 2, Identity.all.drop 4, rfl, by decide⟩

lemma readsTerms_numeralFirst (sign neutral : Char) :
    ReadsTerms (Identity.numeralFirst sign neutral) where
  inside {before text} hbefore := by simp [Identity.numeralFirst, hbefore]
  outside {before c rest} hc := by
    refine Option.eq_none_iff_forall_ne_some.mpr fun f hf => ?_
    obtain ⟨sep, more, hvalue, -, hcovered, htext, -⟩ := Identity.numeralFirst_sound hf
    obtain ⟨d, v, hd⟩ := List.exists_cons_of_ne_nil hvalue.ne_nil
    have hdigit := hvalue.isDigit d (by simp [hd])
    rw [hcovered, hd] at htext
    rw [← (List.cons.inj htext).1, hc] at hdigit
    cases hdigit

namespace IsNeutral

variable {sign neutral : Char} (h : IsNeutral sign neutral)

include h

lemma isSingleWord_neutral : IsSingleWord [neutral] :=
  isSingleWord_singleton (isWord_of_isDigit h.neutral_digit)

lemma readsTerms_numeralLast : ReadsTerms (Identity.numeralLast neutral sign) where
  inside {before text} hbefore := by
    have hword : before.any isWord = true := by
      cases before with
      | none => cases hbefore
      | some c => exact isWord_of_isDigit hbefore
    simp [Identity.numeralLast, hword]
  outside {before c rest} hc := by
    refine Option.eq_none_iff_forall_ne_some.mpr fun f hf => ?_
    obtain ⟨sep, more, -, -, -, hcovered, htext⟩ := Identity.numeralLast_sound hf
    have hdigit := h.neutral_digit
    rw [hcovered] at htext
    rw [← (List.cons.inj htext).1, hc] at hdigit
    cases hdigit

/-- Where `n + 0` is found, the second term of the chain is neutral. -/
lemma exists_of_numeralFirst {terms : List Text} (hterms : ∀ t ∈ terms, IsNumeral t)
    {before : Option Char} {f : Found Text}
    (hf : Identity.numeralFirst sign neutral before (chain sign terms) = some f) :
    ∃ later, terms = f.value :: [neutral] :: later := by
  obtain ⟨sep, rest, hvalue, hsep, hcovered, htext, hrest⟩ := Identity.numeralFirst_sound hf
  refine ⟨words rest, ?_⟩
  rw [← words_chain h.sign_other hterms, htext, hcovered, List.append_assoc, List.append_assoc,
    (hsep.isSeparator h.sign_other).words_word_append hvalue.isSingleWord,
    words_append h.isSingleWord_neutral hrest]

/-- Where `0 + n` is found, the first term of the chain is neutral, and it is not the last. -/
lemma exists_of_numeralLast {terms : List Text} (hterms : ∀ t ∈ terms, IsNumeral t)
    {before : Option Char} {f : Found Text}
    (hf : Identity.numeralLast neutral sign before (chain sign terms) = some f) :
    ∃ t later, terms = [neutral] :: t :: later := by
  obtain ⟨sep, rest, -, hsep, hvalue, hcovered, htext⟩ := Identity.numeralLast_sound hf
  obtain ⟨c, v, hc⟩ := List.exists_cons_of_ne_nil hvalue.ne_nil
  have hword := isWord_of_isDigit (hvalue.isDigit c (by simp [hc]))
  rw [← words_chain h.sign_other hterms, htext, hcovered, List.append_assoc, List.append_assoc,
    (hsep.isSeparator h.sign_other).words_word_append h.isSingleWord_neutral, hc,
    List.cons_append, words, if_pos hword]
  exact ⟨_, _, rfl⟩

/-- On the terms of a chain, `n + 0` merges a term with a neutral one behind it. -/
lemma apply_digitRight_chain {terms : List Text} (hterms : ∀ t ∈ terms, IsNumeral t) :
    (Identity.digitRight sign neutral).apply (chain sign terms)
      = chain sign (mergePairs (keepFirst [neutral]) terms) := by
  refine (readsTerms_numeralFirst sign neutral).scanBehind_chain h.sign_other ?_ ?_ ?_ terms hterms
    [] (by simp [EndsOutsideWord])
  · intro before t ht
    refine Option.eq_none_iff_forall_ne_some.mpr fun f hf => ?_
    obtain ⟨later, heq⟩ := h.exists_of_numeralFirst (by simpa using ht) hf
    cases heq
  · intro before t u v terms hbefore hterms hv
    unfold keepFirst at hv
    split_ifs at hv with hu
    obtain rfl := Option.some.inj hv
    have hdigit : before.any Char.isDigit = false := by
      cases before with
      | none => rfl
      | some c => exact not_isDigit_of_not_isWord hbefore
    rw [chain_cons_cons, hu]
    exact Identity.numeralFirst_complete h.sign_other h.sign_visible
      (isWord_of_isDigit h.neutral_digit) hdigit (hterms t List.mem_cons_self) (isPadded_sign sign)
      (beginsOutsideWord_furtherTerms h.sign_other terms)
  · intro before t u terms hterms hv
    refine Option.eq_none_iff_forall_ne_some.mpr fun f hf => ?_
    obtain ⟨later, heq⟩ := h.exists_of_numeralFirst hterms hf
    obtain rfl : u = [neutral] := (List.cons.inj (List.cons.inj heq).2).1
    simp [keepFirst] at hv

/-- On the terms of a chain, `0 + n` merges a term with a neutral one in front of it. -/
lemma apply_digitLeft_chain {terms : List Text} (hterms : ∀ t ∈ terms, IsNumeral t) :
    (Identity.digitLeft neutral sign).apply (chain sign terms)
      = chain sign (mergePairs (keepSecond [neutral]) terms) := by
  refine h.readsTerms_numeralLast.scanBehind_chain h.sign_other ?_ ?_ ?_ terms hterms
    [] (by simp [EndsOutsideWord])
  · intro before t ht
    refine Option.eq_none_iff_forall_ne_some.mpr fun f hf => ?_
    obtain ⟨u, later, heq⟩ := h.exists_of_numeralLast (by simpa using ht) hf
    cases heq
  · intro before t u v terms hbefore hterms hv
    unfold keepSecond at hv
    split_ifs at hv with ht
    obtain rfl := Option.some.inj hv
    have hend : ∀ c ∈ (furtherTerms sign terms).head?, c.isDigit = false := fun c hc =>
      not_isDigit_of_not_isWord (beginsOutsideWord_furtherTerms h.sign_other terms c hc)
    rw [chain_cons_cons, ht]
    exact Identity.numeralLast_complete h.sign_visible hbefore (isPadded_sign sign)
      (hterms u (by simp)) hend
  · intro before t u terms hterms hv
    refine Option.eq_none_iff_forall_ne_some.mpr fun f hf => ?_
    obtain ⟨w, later, heq⟩ := h.exists_of_numeralLast hterms hf
    obtain rfl : t = [neutral] := (List.cons.inj heq).1
    simp [keepSecond] at hv

/-- **A round on a chain is a round on its terms.** -/
theorem simplifyOnce_chain {terms : List Text} (hterms : ∀ t ∈ terms, IsNumeral t) :
    simplifyOnce (chain sign terms) = chain sign (roundTerms [neutral] terms) := by
  obtain ⟨earlier, later, hall, hforeign⟩ := h.identities
  have hmem : ∀ identity ∈ earlier ++ later, identity ∈ Identity.all := by
    intro identity hi
    rw [hall]
    simp only [List.mem_append, List.mem_cons] at hi ⊢
    tauto
  -- the identities of other operators leave every chain as it is
  have hstill : ∀ {identities : List Identity}, identities ⊆ earlier ++ later →
      ∀ {terms : List Text}, (∀ t ∈ terms, IsNumeral t) →
        identities.foldl (fun t identity => identity.apply t) (chain sign terms)
          = chain sign terms := by
    intro identities hsubset terms hterms
    refine (shortens_foldl fun identity hi => ?_).eq_self ?_
    · have hi := hmem identity (hsubset hi)
      exact Identity.shortens_apply (Identity.isProper_of_mem_all identity hi)
        (Identity.hasVisibleSign_of_mem_all identity hi)
    · rintro ⟨identity, hi, hoccurs⟩
      obtain ⟨c, hc, hother⟩ := List.any_eq_true.mp (hforeign identity (hsubset hi))
      have hchain := of_mem_chain hterms (hoccurs.operatorText_subset hc)
      simp only [Bool.and_eq_true, Bool.not_eq_true', bne_iff_ne] at hother
      rcases hchain with hdigit | hspace | hsign
      · rw [hother.1.1] at hdigit
        cases hdigit
      · exact hother.1.2 hspace
      · exact hother.2 hsign
  have hfirst : ∀ t ∈ mergePairs (keepFirst [neutral]) terms, IsNumeral t := fun t ht =>
    hterms t ((mergePairs_sublist (dropsNeutral_keepFirst [neutral]) terms).subset ht)
  have hround : ∀ t ∈ roundTerms [neutral] terms, IsNumeral t := fun t ht =>
    hterms t ((roundTerms_sublist [neutral] terms).subset ht)
  rw [simplifyOnce, hall, List.foldl_append, List.foldl_cons, List.foldl_cons,
    hstill (List.subset_append_left _ _) hterms, h.apply_digitRight_chain hterms,
    h.apply_digitLeft_chain hfirst]
  exact hstill (List.subset_append_right _ _) hround

/-- Rounds on a chain are rounds on its terms. -/
lemma iterate_simplifyOnce_chain (rounds : Nat) {terms : List Text}
    (hterms : ∀ t ∈ terms, IsNumeral t) :
    simplifyOnce^[rounds] (chain sign terms)
      = chain sign ((roundTerms [neutral])^[rounds] terms) := by
  induction rounds generalizing terms with
  | zero => rfl
  | succ rounds ih =>
      rw [Function.iterate_succ_apply, Function.iterate_succ_apply, h.simplifyOnce_chain hterms]
      exact ih fun t ht => hterms t ((roundTerms_sublist [neutral] terms).subset ht)

/-- **Fully simplifying takes all neutral terms out of a chain**, if there are not more of them than
the rounds can halve away. -/
theorem simplifyFully_chain {terms : List Text} (hne : terms ≠ [])
    (hlen : terms.length < 2 ^ 64) (hterms : ∀ t ∈ terms, IsNumeral t) :
    simplifyFully (chain sign terms) = chain sign (withoutNeutral [neutral] terms) := by
  have hcount : terms.count [neutral] < 2 ^ 64 := lt_of_le_of_lt List.count_le_length hlen
  rw [simplifyFully_eq_iterate, h.iterate_simplifyOnce_chain 64 hterms,
    iterate_roundTerms_eq [neutral] hne hcount]

end IsNeutral

/-- **Sums lose their zeros, and products their ones.**  Fully simplifying leaves the terms of a
chain that are not neutral, in their order, or one neutral term if there is no other. -/
theorem simplifyFully_chains (terms : List Text) (hne : terms ≠ []) (hlen : terms.length < 2 ^ 60)
    (hterms : ∀ t ∈ terms, IsNumeral t) :
    simplifyFully (chain '+' terms) = chain '+' (withoutNeutral ['0'] terms) ∧
    simplifyFully (chain '*' terms) = chain '*' (withoutNeutral ['1'] terms) := by
  have hlen' : terms.length < 2 ^ 64 := hlen.trans (by norm_num)
  exact ⟨isNeutral_plus.simplifyFully_chain hne hlen' hterms,
    isNeutral_times.simplifyFully_chain hne hlen' hterms⟩

/-- Runs of neutral terms at the front, inside and at the end, among others that look like them. -/
def mixedTerms : List Text :=
  ["0", "0", "0", "10", "1", "1", "0", "0", "00", "01", "0", "1"].map String.toList

/-- Every zero goes from the sum and every one from the product, and nothing else. -/
theorem simplifyFully_chains_mixed :
    mixedTerms ≠ [] ∧ mixedTerms.length < 2 ^ 60 ∧ (∀ t ∈ mixedTerms, IsNumeral t) ∧
    simplifyFully (chain '+' mixedTerms) = "10 + 1 + 1 + 00 + 01 + 1".toList ∧
    simplifyFully (chain '*' mixedTerms) = "0 * 0 * 0 * 10 * 0 * 0 * 00 * 01 * 0".toList := by
  have hne : mixedTerms ≠ [] := by decide
  have hlen : mixedTerms.length < 2 ^ 60 := by decide
  have hterms : ∀ t ∈ mixedTerms, IsNumeral t := by
    have hall : ∀ t ∈ mixedTerms, t ≠ [] ∧ t.all Char.isDigit = true := by decide
    exact fun t ht => ⟨(hall t ht).1, List.all_eq_true.mp (hall t ht).2⟩
  obtain ⟨hsum, hproduct⟩ := simplifyFully_chains mixedTerms hne hlen hterms
  exact ⟨hne, hlen, hterms, hsum.trans (by decide), hproduct.trans (by decide)⟩

end LuaUnveil
