import ScriptLang.Proofs.Grammar.Phrase
import ScriptLang.Proofs.Grammar.Reading

/-!
# The steps of reading expressions

What the rules for expressions do with the next token, in the words of the grammar.

* `onLevel?_eq_some_iff`, `atom?_eq_some_iff`, … — the tables of the reader are the tables of the grammar;
* `chain_stop`, `chain_step`, `calls_stop`, … — one round of the loops of the reader.
-/

namespace ScriptLang.Grammar

open Outcome

/-! ### The tables of the reader -/

lemma onLevel?_eq_some_iff {l : Level} {k : Kind} {op : Operator} :
    Operator.onLevel? l k = some op ↔ Joins l k op := by
  unfold Operator.onLevel?
  rw [Option.filter_eq_some_iff]
  constructor
  · rintro ⟨h, hl⟩
    obtain rfl : op.level = l := by simpa using hl
    unfold Operator.ofKind? at h
    split at h <;> first | (obtain rfl := Option.some.inj h; constructor) | cases h
  · intro h
    cases h <;> exact ⟨rfl, rfl⟩

lemma onLevel?_eq_none {l : Level} {k : Kind} (h : ¬ GoesOn (.level l) k) :
    Operator.onLevel? l k = none := by
  cases hop : Operator.onLevel? l k with
  | none => rfl
  | some op => exact absurd (.joins (onLevel?_eq_some_iff.1 hop)) h

lemma unaryOp_ofKind?_eq_some_iff {k : Kind} {op : UnaryOp} :
    UnaryOp.ofKind? k = some op ↔ Leads k op := by
  constructor
  · intro h
    unfold UnaryOp.ofKind? at h
    split at h <;> first | (obtain rfl := Option.some.inj h; constructor) | cases h
  · intro h
    cases h <;> rfl

lemma atom?_eq_some_iff {t : Token} {e : Expr Unit} : atom? t = some e ↔ Atom t e := by
  constructor
  · intro h
    unfold atom? at h
    split at h
    · next hk => obtain rfl := Option.some.inj h; exact .number hk
    · next hk => obtain rfl := Option.some.inj h; exact .string hk
    · next hk => obtain rfl := Option.some.inj h; exact .trueLit hk
    · next hk => obtain rfl := Option.some.inj h; exact .falseLit hk
    · next hk => obtain rfl := Option.some.inj h; exact .null hk
    · next hk => obtain rfl := Option.some.inj h; exact .identifier hk
    · next hk => obtain rfl := Option.some.inj h; exact .this hk
    · next hk => obtain rfl := Option.some.inj h; exact .super hk
    · cases h
  · intro h
    unfold atom?
    cases h with
    | _ hk => simp only [hk, Token.use, Token.ident]

lemma assign?_eq_some_iff {target value e : Expr Unit} :
    assign? target value = some e ↔ Assigns target value e := by
  constructor
  · intro h
    unfold assign? at h
    split at h <;> first | (obtain rfl := Option.some.inj h; constructor) | cases h
  · intro h
    cases h <;> rfl

lemma property_eq_iff {object e : Expr Unit} {name : Ident} :
    property object name = e ↔ Selects name object e := by
  constructor
  · rintro rfl
    unfold property
    split
    · exact .super
    · next h => exact .get h
  · intro h
    cases h with
    | super => rfl
    | get hne =>
      unfold property
      split
      · next use => exact absurd rfl (hne use)
      · rfl

/-! ### The loops of the reader, one round -/

section Loops

variable {path : Path} {ts us : List Token} {t : Token} {left p : Parsed (Expr Unit) ts}

/-- What holds of a result holds of each with this value and this rest. -/
lemma forall_same_iff {P : Parsed (Expr Unit) ts → Prop} (p : Parsed (Expr Unit) ts) :
    P p ↔ ∀ next : Parsed (Expr Unit) ts, next.value = p.value → next.rest = p.rest → P next := by
  constructor
  · rintro h ⟨value, rest, proper⟩ hv hr
    dsimp only at hv hr
    subst hv hr
    exact h
  · exact fun h => h p rfl rfl

lemma chain_stop {l : Level} {tighter : List Level}
    (h : ∀ t ∈ left.rest.head?, Operator.onLevel? l t.kind = none) :
    chain path l tighter left = pure left := by
  rw [chain]
  split
  · rfl
  · next t us hr =>
    split
    · rfl
    · next op hop =>
      rw [h t (by rw [hr]; rfl)] at hop
      cases hop

lemma chain_step {l : Level} {tighter : List Level} {op : Operator} (hr : left.rest = t :: us)
    (hop : Operator.onLevel? l t.kind = some op) :
    (chain path l tighter left).Yields p ↔
      ∃ right, (operators path tighter us).Yields right ∧
        ∀ next : Parsed (Expr Unit) ts, next.value = op.apply t.line left.value right.value →
          next.rest = right.rest → (chain path l tighter next).Yields p := by
  rw [chain]
  split
  · next hr' => rw [hr'] at hr; cases hr
  · next t' us' hr' =>
    rw [hr'] at hr
    obtain ⟨rfl, rfl⟩ := List.cons.inj hr
    rw [hop]
    rw [yields_bind]
    exact exists_congr fun right => and_congr_right fun _ =>
      forall_same_iff (P := fun next => (chain path l tighter next).Yields p) _

lemma calls_stop (h : ∀ t ∈ left.rest.head?, ¬ GoesOn .call t.kind) :
    calls path left = pure left := by
  rw [calls]
  split
  · rfl
  · next t us hr =>
    have ht := h t (by rw [hr]; rfl)
    split
    · next hk => exact absurd (hk ▸ .call) ht
    · next hk => exact absurd (hk ▸ .property) ht
    · rfl

lemma calls_arguments (hr : left.rest = t :: us) (hk : t.kind = .symbol .leftParen) :
    (calls path left).Yields p ↔
      ∃ args, (arguments path 0 us).Yields args ∧
        ∀ next : Parsed (Expr Unit) ts,
          next.value = .call args.value.2 left.value args.value.1 → next.rest = args.rest →
          (calls path next).Yields p := by
  rw [calls]
  split
  · next hr' => rw [hr'] at hr; cases hr
  · next t' us' hr' =>
    rw [hr'] at hr
    obtain ⟨rfl, rfl⟩ := List.cons.inj hr
    rw [hk]
    dsimp only
    rw [yields_bind]
    exact exists_congr fun args => and_congr_right fun _ =>
      forall_same_iff (P := fun next => (calls path next).Yields p) _

lemma calls_property (hr : left.rest = t :: us) (hk : t.kind = .symbol .dot) :
    (calls path left).Yields p ↔
      ∃ name, (identifier path us).Yields name ∧
        ∀ next : Parsed (Expr Unit) ts, next.value = property left.value name.value →
          next.rest = name.rest → (calls path next).Yields p := by
  rw [calls]
  split
  · next hr' => rw [hr'] at hr; cases hr
  · next t' us' hr' =>
    rw [hr'] at hr
    obtain ⟨rfl, rfl⟩ := List.cons.inj hr
    rw [hk]
    dsimp only
    rw [yields_bind]
    exact exists_congr fun name => and_congr_right fun _ =>
      forall_same_iff (P := fun next => (calls path next).Yields p) _

end Loops

end ScriptLang.Grammar
