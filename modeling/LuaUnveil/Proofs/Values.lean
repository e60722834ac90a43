import LuaUnveil.Proofs.Lexemes
import LuaUnveil.Text.Numeral

/-!
# What the identities do to the value of an expression

An expression is read lexeme by lexeme, with two operators of which one binds tighter: `+` and `*`
over numerals, `or` and `and` over truth values.  Both are an `Evaluator`, and everything but the
last section is said of any evaluator.

**Reading.**  `Evaluator.value?` is the value of a list of lexemes, if it is an expression.
Operands and operators take turns in it (`Evaluator.awaits_of_step?`), so without a pair of
neighbours it is an expression still (`Evaluator.exists_value?_of_drops`).

**One pair.**  A factor one may go wherever it stands (`Evaluator.value?_of_drops_product`).  A
summand zero may go unless it is contested, that is, unless a product on its other side takes it
for a factor (`Evaluator.value?_of_drops_sum`): the identities know nothing of precedence.  Taking a
summand out does not make another one contested (`Evaluator.not_contested_of_drops`).

**One round.**  `Evaluator.exists_value?_foldl`: identities that are applied one after the other
leave an expression, and one of the same value if none of the sum comes upon a contested neutral
operand.
-/

namespace LuaUnveil

open Relation (ReflTransGen)

/-! ## Reading an expression -/

/-- How the lexemes of an expression are read: the operators of sums and of products, which bind
tighter, with the literals that are neutral for them, and the values of the operands. -/
structure Evaluator (R : Type) where
  sum : Text
  product : Text
  zero : Text
  one : Text
  operand? : Text → Option R
  add : R → R → R
  mul : R → R → R
  zeroValue : R
  oneValue : R
  sum_ne_product : sum ≠ product
  operand?_sum : operand? sum = none
  operand?_product : operand? product = none
  operand?_zero : operand? zero = some zeroValue
  operand?_one : operand? one = some oneValue
  add_zero : ∀ a, add a zeroValue = a
  mul_one : ∀ a, mul a oneValue = a
  one_mul : ∀ a, mul oneValue a = a

/-- How far an expression is read: the sum of the terms before the last one, and the product of the
factors of the last one. -/
inductive Progress (R : Type) where
  /-- An operand has to come next. -/
  | awaiting (total product : R)
  /-- An operator may come next, or the end. -/
  | complete (total product : R)

/-- Whether an operand has to come next. -/
def Progress.awaits {R : Type} : Progress R → Bool
  | awaiting _ _ => true
  | complete _ _ => false

namespace Evaluator

variable {R : Type} (e : Evaluator R)

/-- Read one lexeme. -/
def step? : Progress R → Text → Option (Progress R)
  | .awaiting total product, t => (e.operand? t).map fun n => .complete total (e.mul product n)
  | .complete total product, t =>
    if t = e.sum then some (.awaiting (e.add total product) e.oneValue)
    else if t = e.product then some (.awaiting total product)
    else none

/-- The value at the end of an expression. -/
def finish? : Progress R → Option R
  | .awaiting _ _ => none
  | .complete total product => some (e.add total product)

/-- Nothing is read. -/
def start : Progress R := .awaiting e.zeroValue e.oneValue

/-- The value of an expression of which the last lexemes are still to be read. -/
def valueFrom? (s : Progress R) (ts : List Text) : Option R := (ts.foldlM e.step? s).bind e.finish?

/-- The value of an expression; other lists of lexemes have none. -/
def value? (ts : List Text) : Option R := e.valueFrom? e.start ts

variable {e}

lemma valueFrom?_cons (s : Progress R) (t : Text) (ts : List Text) :
    e.valueFrom? s (t :: ts) = (e.step? s t).bind (e.valueFrom? · ts) := by
  simp [valueFrom?, Option.bind_assoc]

lemma valueFrom?_append (s : Progress R) (ts us : List Text) :
    e.valueFrom? s (ts ++ us) = (ts.foldlM e.step? s).bind (e.valueFrom? · us) := by
  simp [valueFrom?, List.foldlM_append, Option.bind_assoc]

@[simp] lemma step?_sum (total product : R) :
    e.step? (.complete total product) e.sum
      = some (.awaiting (e.add total product) e.oneValue) := by
  simp [step?]

@[simp] lemma step?_product (total product : R) :
    e.step? (.complete total product) e.product = some (.awaiting total product) := by
  simp [step?, e.sum_ne_product.symm]

@[simp] lemma step?_zero (total product : R) : e.step? (.awaiting total product) e.zero
    = some (.complete total (e.mul product e.zeroValue)) := by
  simp [step?, e.operand?_zero]

@[simp] lemma step?_one (total product : R) :
    e.step? (.awaiting total product) e.one = some (.complete total product) := by
  simp [step?, e.operand?_one, e.mul_one]

/-- All that one step can do. -/
lemma step?_cases {s s' : Progress R} {t : Text} (h : e.step? s t = some s') :
    (∃ total product n, s = .awaiting total product ∧ e.operand? t = some n ∧
      s' = .complete total (e.mul product n)) ∨
    ∃ total product, s = .complete total product ∧
      (t = e.sum ∧ s' = .awaiting (e.add total product) e.oneValue ∨
        t = e.product ∧ s' = .awaiting total product) := by
  cases s with
  | awaiting total product =>
      obtain ⟨n, hn, rfl⟩ := Option.map_eq_some_iff.mp h
      exact Or.inl ⟨total, product, n, rfl, hn, rfl⟩
  | complete total product =>
      refine Or.inr ⟨total, product, rfl, ?_⟩
      simp only [step?] at h
      split_ifs at h with hsum hproduct
      · exact Or.inl ⟨hsum, (Option.some.inj h).symm⟩
      · exact Or.inr ⟨hproduct, (Option.some.inj h).symm⟩

/-! ### Operands and operators take turns -/

/-- A lexeme is an operand just where one has to come. -/
lemma awaits_of_step? {s s' : Progress R} {t : Text} (h : e.step? s t = some s') :
    s.awaits = (e.operand? t).isSome ∧ s'.awaits = !s.awaits := by
  rcases step?_cases h with ⟨_, _, n, rfl, hn, rfl⟩ | ⟨_, _, rfl, ⟨rfl, rfl⟩ | ⟨rfl, rfl⟩⟩
  · simp [Progress.awaits, hn]
  · simp [Progress.awaits, e.operand?_sum]
  · simp [Progress.awaits, e.operand?_product]

/-- Every lexeme of an expression is read where it stands. -/
lemma exists_step?_of_value? {before behind : List Text} {t : Text} {v : R}
    (h : e.value? (before ++ t :: behind) = some v) :
    ∃ s s', before.foldlM e.step? e.start = some s ∧ e.step? s t = some s' ∧
      e.valueFrom? s' behind = some v := by
  rw [value?, valueFrom?_append] at h
  obtain ⟨s, hs, h⟩ := Option.bind_eq_some_iff.mp h
  rw [valueFrom?_cons] at h
  obtain ⟨s', hs', h⟩ := Option.bind_eq_some_iff.mp h
  exact ⟨s, s', hs, hs', h⟩

/-- Of two neighbours in an expression one is an operand. -/
lemma isSome_operand?_of_value? {before behind : List Text} {t u : Text} {v : R}
    (h : e.value? (before ++ t :: u :: behind) = some v) :
    (e.operand? u).isSome = !(e.operand? t).isSome := by
  obtain ⟨s, s', -, hstep, h⟩ := exists_step?_of_value? h
  rw [valueFrom?_cons] at h
  obtain ⟨s'', hstep', -⟩ := Option.bind_eq_some_iff.mp h
  rw [← (awaits_of_step? hstep').1, ← (awaits_of_step? hstep).1, (awaits_of_step? hstep).2]

/-- An expression has no other lexemes than operators and operands. -/
lemma operator_or_operand_of_mem {ts : List Text} {t : Text} {v : R} (h : e.value? ts = some v)
    (ht : t ∈ ts) : t = e.sum ∨ t = e.product ∨ e.operand? t ≠ none := by
  obtain ⟨before, behind, rfl⟩ := List.append_of_mem ht
  obtain ⟨s, s', -, hstep, -⟩ := exists_step?_of_value? h
  rcases step?_cases hstep with ⟨_, _, n, -, hn, -⟩ | ⟨_, _, -, ⟨hsum, -⟩ | ⟨hproduct, -⟩⟩
  · exact Or.inr (Or.inr (by simp [hn]))
  · exact Or.inl hsum
  · exact Or.inr (Or.inl hproduct)

/-- Whether a lexeme can come next does not depend on the values before it. -/
lemma exists_step?_of_awaits {s s' s₁ : Progress R} {t : Text} (hawaits : s'.awaits = s.awaits)
    (h : e.step? s t = some s₁) : ∃ s₂, e.step? s' t = some s₂ ∧ s₂.awaits = s₁.awaits := by
  have hsome : ∃ s₂, e.step? s' t = some s₂ := by
    rcases step?_cases h with ⟨_, _, n, rfl, hn, -⟩ | ⟨_, _, rfl, hoperator⟩
    · cases s' with
      | awaiting total product => exact ⟨_, by rw [step?, hn]; rfl⟩
      | complete total product => cases hawaits
    · cases s' with
      | awaiting total product => cases hawaits
      | complete total product =>
          rcases hoperator with ⟨rfl, -⟩ | ⟨rfl, -⟩
          · exact ⟨_, step?_sum total product⟩
          · exact ⟨_, step?_product total product⟩
  obtain ⟨s₂, hs₂⟩ := hsome
  exact ⟨s₂, hs₂, by rw [(awaits_of_step? hs₂).2, (awaits_of_step? h).2, hawaits]⟩

/-- Nor does it matter for all the lexemes up to the end. -/
lemma exists_valueFrom?_of_awaits {s s' : Progress R} {ts : List Text} {v : R}
    (hawaits : s'.awaits = s.awaits) (h : e.valueFrom? s ts = some v) :
    ∃ w, e.valueFrom? s' ts = some w := by
  induction ts generalizing s s' with
  | nil => cases s <;> cases s' <;> simp_all [valueFrom?, finish?, Progress.awaits]
  | cons t ts ih =>
      rw [valueFrom?_cons] at h
      obtain ⟨s₁, hs₁, h⟩ := Option.bind_eq_some_iff.mp h
      obtain ⟨s₂, hs₂, hawaits'⟩ := exists_step?_of_awaits hawaits hs₁
      rw [valueFrom?_cons, hs₂]
      exact ih hawaits' h

/-! ## One pair -/

/-- Without a pair of neighbours an expression is an expression still. -/
lemma exists_value?_of_drops {t u : Text} {ts us : List Text} {v : R} (hdrop : Drops [t, u] ts us)
    (h : e.value? ts = some v) : ∃ w, e.value? us = some w := by
  obtain ⟨before, behind⟩ := hdrop
  rw [List.cons_append, List.cons_append, List.nil_append] at h
  obtain ⟨s, s', hs, hstep, h⟩ := exists_step?_of_value? h
  rw [valueFrom?_cons] at h
  obtain ⟨s'', hstep', h⟩ := Option.bind_eq_some_iff.mp h
  have hawaits : s.awaits = s''.awaits := by
    rw [(awaits_of_step? hstep').2, (awaits_of_step? hstep).2, Bool.not_not]
  rw [value?, valueFrom?_append, hs]
  exact exists_valueFrom?_of_awaits hawaits h

/-- An operator is read behind an operand. -/
lemma exists_complete {s : Progress R} {t : Text} {ts : List Text} {v : R}
    (ht : e.operand? t = none) (h : e.valueFrom? s (t :: ts) = some v) :
    ∃ total product, s = .complete total product := by
  cases s with
  | awaiting total product => simp [valueFrom?_cons, step?, ht] at h
  | complete total product => exact ⟨total, product, rfl⟩

/-- An operand is read behind an operator. -/
lemma exists_awaiting {s : Progress R} {t : Text} {ts : List Text} {v n : R}
    (ht : e.operand? t = some n) (h : e.valueFrom? s (t :: ts) = some v) :
    ∃ total product, s = .awaiting total product := by
  cases s with
  | awaiting total product => exact ⟨total, product, rfl⟩
  | complete total product =>
      have hsum : t ≠ e.sum := by
        rintro rfl
        simp [e.operand?_sum] at ht
      have hproduct : t ≠ e.product := by
        rintro rfl
        simp [e.operand?_product] at ht
      simp [valueFrom?_cons, step?, hsum, hproduct] at h

/-- A factor one behind a product. -/
lemma valueFrom?_product_one {s : Progress R} {ts : List Text} {v : R}
    (h : e.valueFrom? s (e.product :: e.one :: ts) = some v) : e.valueFrom? s ts = some v := by
  obtain ⟨total, product, rfl⟩ := exists_complete e.operand?_product h
  simpa [valueFrom?_cons] using h

/-- A factor one in front of a product. -/
lemma valueFrom?_one_product {s : Progress R} {ts : List Text} {v : R}
    (h : e.valueFrom? s (e.one :: e.product :: ts) = some v) : e.valueFrom? s ts = some v := by
  obtain ⟨total, product, rfl⟩ := exists_awaiting e.operand?_one h
  simpa [valueFrom?_cons] using h

/-- A summand zero behind a sum: whatever comes next but a product, it makes no difference that the
sum is complete already. -/
lemma valueFrom?_sum_zero {s : Progress R} {ts : List Text} {v : R}
    (hnext : ts.head? ≠ some e.product) (h : e.valueFrom? s (e.sum :: e.zero :: ts) = some v) :
    e.valueFrom? s ts = some v := by
  obtain ⟨total, product, rfl⟩ := exists_complete e.operand?_sum h
  have hread : e.valueFrom? (.complete (e.add total product) e.zeroValue) ts = some v := by
    simpa [valueFrom?_cons, e.one_mul] using h
  cases ts with
  | nil => simpa [valueFrom?, finish?, e.add_zero] using hread
  | cons t ts =>
      have ht : t ≠ e.product := by simpa using hnext
      simpa [valueFrom?_cons, step?, ht, e.add_zero] using hread

/-- A summand zero in front of a sum, where no factors stand before it. -/
lemma valueFrom?_zero_sum {total : R} {ts : List Text} {v : R}
    (h : e.valueFrom? (.awaiting total e.oneValue) (e.zero :: e.sum :: ts) = some v) :
    e.valueFrom? (.awaiting total e.oneValue) ts = some v := by
  simpa [valueFrom?_cons, e.one_mul, e.add_zero] using h

/-- No factors stand before an operand that is not behind a product. -/
lemma eq_oneValue_of_getLast? {before : List Text} {total product : R}
    (h : before.foldlM e.step? e.start = some (.awaiting total product))
    (hlast : before.getLast? ≠ some e.product) : product = e.oneValue := by
  rcases List.eq_nil_or_concat before with rfl | ⟨front, t, rfl⟩
  · exact ((Progress.awaiting.inj (Option.some.inj h)).2).symm
  · have ht : t ≠ e.product := by simpa using hlast
    rw [List.concat_eq_append, List.foldlM_append] at h
    obtain ⟨s, -, h⟩ := Option.bind_eq_some_iff.mp h
    have hstep : e.step? s t = some (.awaiting total product) := by simpa using h
    rcases step?_cases hstep with ⟨_, _, _, -, -, heq⟩ | ⟨_, _, -, ⟨-, heq⟩ | ⟨hproduct, -⟩⟩
    · cases heq
    · exact (Progress.awaiting.inj heq).2
    · exact absurd hproduct ht

end Evaluator

/-! ## One identity -/

namespace Identity

/-- A neutral operand between the operator of an identity and that of a product, which takes it for
a factor. -/
def contested (identity : Identity) (product : Text) : List Text :=
  if identity.isRight then [identity.operatorText, identity.neutralText, product]
  else [product, identity.neutralText, identity.operatorText]

lemma operatorText_mem_of_drops {identity : Identity} {ts us : List Text}
    (h : Drops identity.dropped ts us) : identity.operatorText ∈ ts := by
  obtain ⟨before, behind⟩ := h
  unfold dropped
  split_ifs <;> simp

end Identity

/-- Three neighbours in two lists stand in one of them, or the cut is between them. -/
lemma infix_append_cases {a b c : Text} {ts us : List Text} (h : [a, b, c] <:+: ts ++ us) :
    [a, b, c] <:+: ts ∨ [a, b, c] <:+: us ∨ ([a] <:+ ts ∧ [b, c] <+: us) ∨
      ([a, b] <:+ ts ∧ [c] <+: us) := by
  rcases List.infix_append_iff_ne_nil.mp h with h | h | ⟨l₁, l₂, h₁, h₂, hcut, hts, hus⟩
  · exact Or.inl h
  · exact Or.inr (Or.inl h)
  · have hcases : (l₁ = [a] ∧ l₂ = [b, c]) ∨ (l₁ = [a, b] ∧ l₂ = [c]) := by
      rcases l₁ with _ | ⟨x, _ | ⟨y, l₁⟩⟩ <;> simp_all [List.cons_eq_append_iff]
    rcases hcases with ⟨rfl, rfl⟩ | ⟨rfl, rfl⟩
    · exact Or.inr (Or.inr (Or.inl ⟨hts, hus⟩))
    · exact Or.inr (Or.inr (Or.inr ⟨hts, hus⟩))

namespace Evaluator

variable {R : Type} {e : Evaluator R} {identity : Identity} {ts us : List Text} {v : R}

/-- **A factor one may always go.** -/
lemma value?_of_drops_product (hoperator : identity.operatorText = e.product)
    (hneutral : identity.neutralText = e.one) (hdrop : Drops identity.dropped ts us)
    (h : e.value? ts = some v) : e.value? us = some v := by
  obtain ⟨before, behind⟩ := hdrop
  rw [value?, valueFrom?_append] at h ⊢
  obtain ⟨s, hs, h⟩ := Option.bind_eq_some_iff.mp h
  rw [hs]
  rw [Identity.dropped, hoperator, hneutral] at h
  split_ifs at h with hside
  · exact valueFrom?_product_one h
  · exact valueFrom?_one_product h

/-- **A summand zero may go unless it is contested.** -/
lemma value?_of_drops_sum (hoperator : identity.operatorText = e.sum)
    (hneutral : identity.neutralText = e.zero) (hdrop : Drops identity.dropped ts us)
    (hapart : ¬ identity.contested e.product <:+: ts) (h : e.value? ts = some v) :
    e.value? us = some v := by
  obtain ⟨before, behind⟩ := hdrop
  rw [value?, valueFrom?_append] at h ⊢
  obtain ⟨s, hs, h⟩ := Option.bind_eq_some_iff.mp h
  rw [hs]
  rw [Identity.contested, Identity.dropped, hoperator, hneutral] at hapart
  rw [Identity.dropped, hoperator, hneutral] at h
  split_ifs at h hapart with hside
  · refine valueFrom?_sum_zero (fun hnext => hapart ?_) h
    obtain ⟨more, rfl⟩ := List.head?_eq_some_iff.mp hnext
    exact ⟨before, more, by simp⟩
  · obtain ⟨total, product, rfl⟩ := exists_awaiting e.operand?_zero h
    obtain rfl : product = e.oneValue := by
      refine eq_oneValue_of_getLast? hs fun hlast => hapart ?_
      obtain ⟨front, rfl⟩ := List.getLast?_eq_some_iff.mp hlast
      exact ⟨front, behind, by simp⟩
    exact valueFrom?_zero_sum h

/-- Where a summand goes, its neighbours come together; none of them becomes contested by that. -/
lemma not_contested_of_drops (hoperator : identity.operatorText = e.sum)
    (hneutral : identity.neutralText = e.zero) (hdrop : Drops identity.dropped ts us)
    (hapart : ¬ identity.contested e.product <:+: ts) (h : e.value? ts = some v) :
    ¬ identity.contested e.product <:+: us := by
  obtain ⟨before, behind⟩ := hdrop
  rw [Identity.contested, hoperator, hneutral] at hapart ⊢
  rw [Identity.dropped, hoperator, hneutral] at hapart h
  intro hinfix
  split_ifs at h hapart hinfix with hside
  · rcases infix_append_cases hinfix with hin | hin | ⟨⟨front, rfl⟩, -⟩ | ⟨-, ⟨more, rfl⟩⟩
    · exact hapart (hin.trans (List.prefix_append _ _).isInfix)
    · exact hapart (hin.trans ((List.suffix_append _ _).trans (List.suffix_append _ _)).isInfix)
    · -- two operators would stand beside each other
      have hread : e.value? (front ++ e.sum :: e.sum :: e.zero :: behind) = some v := by
        simpa using h
      simpa [e.operand?_sum] using isSome_operand?_of_value? hread
    · exact hapart ⟨before, more, by simp⟩
  · rcases infix_append_cases hinfix with hin | hin | ⟨⟨front, rfl⟩, -⟩ | ⟨⟨front, rfl⟩, -⟩
    · exact hapart (hin.trans (List.prefix_append _ _).isInfix)
    · exact hapart (hin.trans ((List.suffix_append _ _).trans (List.suffix_append _ _)).isInfix)
    · exact hapart ⟨front, behind, by simp⟩
    · -- two operands would stand beside each other
      have hread : e.value? ((front ++ [e.product]) ++ e.zero :: e.zero :: e.sum :: behind)
          = some v := by simpa using h
      simpa [e.operand?_zero] using isSome_operand?_of_value? hread

/-- An identity is one of the sum, one of the product, or one that is not found in an expression. -/
inductive Fits (e : Evaluator R) (identity : Identity) : Prop
  | sum (hoperator : identity.operatorText = e.sum) (hneutral : identity.neutralText = e.zero)
  | product (hoperator : identity.operatorText = e.product)
      (hneutral : identity.neutralText = e.one)
  | foreign (hsum : identity.operatorText ≠ e.sum) (hproduct : identity.operatorText ≠ e.product)
      (hoperand : e.operand? identity.operatorText = none)

/-- What one pair that an identity drops does to an expression. -/
lemma exists_value?_step (hfits : e.Fits identity) (hdrop : Drops identity.dropped ts us)
    (h : e.value? ts = some v) : ∃ w, e.value? us = some w ∧
      ((identity.operatorText = e.sum → ¬ identity.contested e.product <:+: ts) →
        w = v ∧ (identity.operatorText = e.sum → ¬ identity.contested e.product <:+: us)) := by
  cases hfits with
  | sum hoperator hneutral =>
      obtain ⟨w, hw⟩ : ∃ w, e.value? us = some w := by
        rw [Identity.dropped] at hdrop
        split_ifs at hdrop <;> exact exists_value?_of_drops hdrop h
      refine ⟨w, hw, fun hapart => ?_⟩
      have hkept := value?_of_drops_sum hoperator hneutral hdrop (hapart hoperator) h
      exact ⟨Option.some.inj (hw.symm.trans hkept),
        fun _ => not_contested_of_drops hoperator hneutral hdrop (hapart hoperator) h⟩
  | product hoperator hneutral =>
      refine ⟨v, value?_of_drops_product hoperator hneutral hdrop h, fun _ => ⟨rfl, fun hsum => ?_⟩⟩
      exact absurd (hsum.symm.trans hoperator) e.sum_ne_product
  | foreign hsum hproduct hoperand =>
      rcases operator_or_operand_of_mem h (Identity.operatorText_mem_of_drops hdrop) with h | h | h
      · exact absurd h hsum
      · exact absurd h hproduct
      · exact absurd hoperand h

/-- What all the pairs that an identity drops do to an expression. -/
lemma exists_value?_run (hfits : e.Fits identity)
    (hdrops : ReflTransGen (Drops identity.dropped) ts us) (h : e.value? ts = some v) :
    ∃ w, e.value? us = some w ∧
      ((identity.operatorText = e.sum → ¬ identity.contested e.product <:+: ts) → w = v) := by
  induction hdrops using ReflTransGen.head_induction_on generalizing v with
  | refl => exact ⟨v, h, fun _ => rfl⟩
  | head hdrop _ ih =>
      obtain ⟨v₁, hv₁, hstep⟩ := exists_value?_step hfits hdrop h
      obtain ⟨w, hw, hrun⟩ := ih hv₁
      refine ⟨w, hw, fun hapart => ?_⟩
      obtain ⟨rfl, hapart'⟩ := hstep hapart
      exact hrun hapart'

end Evaluator

/-! ## One round -/

/-- Where an identity of the sum is applied, no neutral operand of it is contested. -/
def NoneContested (sum product : Text) : List Identity → Text → Prop
  | [], _ => True
  | identity :: identities, text =>
    (identity.operatorText = sum → ¬ identity.contested product <:+: lexemes text) ∧
      NoneContested sum product identities (identity.apply text)

instance NoneContested.decidable (sum product : Text) :
    ∀ (identities : List Identity) (text : Text),
      Decidable (NoneContested sum product identities text)
  | [], _ => inferInstanceAs (Decidable True)
  | identity :: identities, text =>
    have := decidable sum product identities (identity.apply text)
    inferInstanceAs (Decidable ((identity.operatorText = sum →
      ¬ identity.contested product <:+: lexemes text) ∧
        NoneContested sum product identities (identity.apply text)))

/-- **Identities one after the other.**  An expression stays an expression, and keeps its value if
no neutral operand is contested. -/
theorem Evaluator.exists_value?_foldl {R : Type} {e : Evaluator R} {identities : List Identity}
    (hproper : ∀ i ∈ identities, i.isProper = true)
    (hvisible : ∀ i ∈ identities, i.hasVisibleSign = true) (hfits : ∀ i ∈ identities, e.Fits i)
    {text : Text} {v : R} (h : e.value? (lexemes text) = some v) :
    ∃ w, e.value? (lexemes (identities.foldl (fun t i => i.apply t) text)) = some w ∧
      (NoneContested e.sum e.product identities text → w = v) := by
  induction identities generalizing text v with
  | nil => exact ⟨v, h, fun _ => rfl⟩
  | cons i identities ih =>
      obtain ⟨hproper, hproper'⟩ := List.forall_mem_cons.mp hproper
      obtain ⟨hvisible, hvisible'⟩ := List.forall_mem_cons.mp hvisible
      obtain ⟨hfits, hfits'⟩ := List.forall_mem_cons.mp hfits
      obtain ⟨v₁, hv₁, hkeeps⟩ :=
        Evaluator.exists_value?_run hfits (i.drops_apply hproper hvisible text) h
      obtain ⟨w, hw, hkeeps'⟩ := ih hproper' hvisible' hfits' hv₁
      exact ⟨w, hw, fun hapart => (hkeeps' hapart.2).trans (hkeeps hapart.1)⟩

/-! ### Numerals and truth values -/

/-- Sums and products of numerals. -/
def arithmetic : Evaluator ℕ where
  sum := "+".toList
  product := "*".toList
  zero := "0".toList
  one := "1".toList
  operand? t := if t ≠ [] ∧ t.all Char.isDigit then some (valueOfDigits 10 t) else none
  add := (· + ·)
  mul := (· * ·)
  zeroValue := 0
  oneValue := 1
  sum_ne_product := by decide
  operand?_sum := by decide
  operand?_product := by decide
  operand?_zero := by decide
  operand?_one := by decide
  add_zero := Nat.add_zero
  mul_one := Nat.mul_one
  one_mul := Nat.one_mul

example : arithmetic.value? (lexemes "2+3 * 04 +1".toList) = some 15 := by decide

/-- Disjunctions and conjunctions of `true`, `false` and other words, which have the truth values
that are assigned to them. -/
def truth (assignment : Text → Bool) : Evaluator Bool where
  sum := "or".toList
  product := "and".toList
  zero := "false".toList
  one := "true".toList
  operand? t :=
    if t = "true".toList then some true
    else if t = "false".toList then some false
    else if isKeyword t ∧ t ≠ "or".toList ∧ t ≠ "and".toList then some (assignment t)
    else none
  add := (· || ·)
  mul := (· && ·)
  zeroValue := false
  oneValue := true
  sum_ne_product := by decide
  operand?_sum := rfl
  operand?_product := rfl
  operand?_zero := rfl
  operand?_one := rfl
  add_zero := Bool.or_false
  mul_one := Bool.and_true
  one_mul := Bool.true_and

lemma fits_arithmetic : ∀ i ∈ Identity.all, arithmetic.Fits i := by
  intro i hi
  fin_cases hi
  any_goals exact .sum rfl rfl
  any_goals exact .product rfl rfl
  all_goals exact .foreign (by decide) (by decide) rfl

lemma fits_truth (assignment : Text → Bool) : ∀ i ∈ Identity.all, (truth assignment).Fits i := by
  intro i hi
  fin_cases hi
  any_goals exact .sum rfl rfl
  any_goals exact .product rfl rfl
  -- a sign is neither of the two words, whatever is assigned
  all_goals exact .foreign (show _ ≠ "or".toList by decide) (show _ ≠ "and".toList by decide) rfl

/-- **One round keeps the value of an expression in which no neutral operand is contested.** -/
theorem simplifyOnce_keeps_value (text : Text) :
    (∀ v, arithmetic.value? (lexemes text) = some v →
      ∃ w, arithmetic.value? (lexemes (simplifyOnce text)) = some w ∧
        (NoneContested "+".toList "*".toList Identity.all text → w = v)) ∧
    ∀ assignment v, (truth assignment).value? (lexemes text) = some v →
      ∃ w, (truth assignment).value? (lexemes (simplifyOnce text)) = some w ∧
        (NoneContested "or".toList "and".toList Identity.all text → w = v) :=
  ⟨fun _ h => Evaluator.exists_value?_foldl Identity.isProper_of_mem_all
      Identity.hasVisibleSign_of_mem_all fits_arithmetic h,
    fun assignment _ h => Evaluator.exists_value?_foldl Identity.isProper_of_mem_all
      Identity.hasVisibleSign_of_mem_all (fits_truth assignment) h⟩

/-- A sum that every identity of numerals shortens. -/
def paddedSum : Text := "0 + 1 * 7 + 0 + 2 * 1".toList

/-- A disjunction that comes down to one word. -/
def paddedDisjunction : Text := "true and x or false".toList

/-- Both keep their values, the second one whatever `x` is. -/
theorem simplifyOnce_keeps_value_padded :
    simplifyOnce paddedSum = "7 + 2".toList ∧
    arithmetic.value? (lexemes paddedSum) = some 9 ∧
    arithmetic.value? (lexemes (simplifyOnce paddedSum)) = some 9 ∧
    simplifyOnce paddedDisjunction = "x".toList ∧
    ∀ assignment : Text → Bool,
      (truth assignment).value? (lexemes paddedDisjunction) = some (assignment "x".toList) ∧
      (truth assignment).value? (lexemes (simplifyOnce paddedDisjunction))
        = some (assignment "x".toList) := by
  have hsum : arithmetic.value? (lexemes paddedSum) = some 9 := by decide
  obtain ⟨w, hw, hkept⟩ := (simplifyOnce_keeps_value paddedSum).1 9 hsum
  obtain rfl := hkept (by decide +kernel)
  refine ⟨by decide +kernel, hsum, hw, by decide +kernel, fun assignment => ?_⟩
  have hlexemes : lexemes paddedDisjunction
      = ["true".toList, "and".toList, "x".toList, "or".toList, "false".toList] := by decide
  have hvalue : (truth assignment).value? (lexemes paddedDisjunction)
      = some (assignment "x".toList) := by
    rw [hlexemes]
    exact congrArg some (Bool.or_false (assignment "x".toList))
  obtain ⟨w, hw, hkept⟩ := (simplifyOnce_keeps_value paddedDisjunction).2 assignment _ hvalue
  obtain rfl := hkept (by decide +kernel)
  exact ⟨hvalue, hw⟩

/-- A contested `0` or `false` goes, and a product is left with a factor it did not have. -/
theorem simplifyOnce_changes_value :
    arithmetic.value? (lexemes "5 + 0 * 3".toList) = some 5 ∧
    arithmetic.value? (lexemes (simplifyOnce "5 + 0 * 3".toList)) = some 15 ∧
    arithmetic.value? (lexemes "3 * 0 + 5".toList) = some 5 ∧
    arithmetic.value? (lexemes (simplifyOnce "3 * 0 + 5".toList)) = some 15 ∧
    (truth (· == "x".toList)).value? (lexemes "x or false and y".toList) = some true ∧
    (truth (· == "x".toList)).value? (lexemes (simplifyOnce "x or false and y".toList))
      = some false ∧
    (truth (· == "y".toList)).value? (lexemes "x and false or y".toList) = some true ∧
    (truth (· == "y".toList)).value? (lexemes (simplifyOnce "x and false or y".toList))
      = some false := by
  decide +kernel

end LuaUnveil
