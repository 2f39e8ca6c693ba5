import ScriptLang.Proofs.Grammar.ExpressionSteps

/-!
# What is read is an expression

Every rule for expressions reads a phrase of its stratum, as far as it goes.

* `Sound`, `SoundRule` — what has been read is a phrase, and the token behind it does not go on;
* `primary_sound`, `calls_sound`, `chain_sound`, … — one rule each, given shorter assignments;
* `assignment_sound` — the induction on the number of tokens.
-/

namespace ScriptLang.Grammar

open Outcome

/-- What has been read from `ts` is a phrase that goes as far as it can. -/
def Sound (s : Stratum) {ts : List Token} (p : Parsed (Expr Unit) ts) : Prop :=
  ∃ us, ts = us ++ p.rest ∧ Phrase s us p.value ∧ Stops s p.rest

/-- What has been read from `ts` are arguments and the parenthesis that closes them. -/
def SoundArguments (count : Nat) {ts : List Token} (p : Parsed (List (Expr Unit) × Nat) ts) : Prop :=
  ∃ parts us close, ts = us ++ close :: p.rest ∧ Listed parts us ∧
    (∀ part ∈ parts, Phrase .assignment part.1 part.2) ∧ close.kind = .symbol .rightParen ∧
    p.value = (parts.map (·.2), close.line) ∧ (count ≤ 254 → count + parts.length ≤ 254)

/-- The stratum of the operands joined by operators of the given levels. -/
def operandStratum : List Level → Stratum
  | [] => .unary
  | l :: _ => .level l

lemma operand_eq {l : Level} {tighter : List Level} (h : l :: tighter <:+ Level.all) :
    l.operand = operandStratum tighter := by
  simp only [Level.all, List.suffix_cons_iff, List.cons.injEq, List.suffix_nil, List.cons_ne_nil,
    or_false] at h
  rcases h with ⟨rfl, rfl⟩ | ⟨rfl, rfl⟩ | ⟨rfl, rfl⟩ | ⟨rfl, rfl⟩ | ⟨rfl, rfl⟩ | ⟨rfl, rfl⟩ | ⟨rfl, rfl⟩ |
    ⟨rfl, rfl⟩ <;> rfl

section Soundness

variable {path : Path} {ts : List Token}

/-- Tokens that were taken in two steps, with one token in between. -/
lemma taken_step {us mid vs ws rest : List Token} {t : Token} (h : ts = us ++ mid) (hm : mid = t :: vs)
    (hv : vs = ws ++ rest) : ts = (us ++ t :: ws) ++ rest := by
  rw [h, hm, hv, List.append_assoc]
  rfl

/-- Whatever a rule yields is sound. -/
abbrev SoundRule (s : Stratum) (x : Outcome (Parsed (Expr Unit) ts)) : Prop :=
  ∀ p, x.Yields p → Sound s p

lemma Sound.of_or {p : Parsed (Expr Unit) ts} (h : Sound (.level .or) p)
    (hk : ∀ t ∈ p.rest.head?, t.kind ≠ .symbol .equal) : Sound .assignment p := by
  obtain ⟨us, hts, hp, hs⟩ := h
  refine ⟨us, hts, .ofOr hp, fun t ht hg => ?_⟩
  generalize hk' : t.kind = k at hg
  cases hg with
  | assign => exact hk t ht hk'
  | ofOr hg => exact hs t ht (hk' ▸ hg)

/-- Assignments in fewer than `n` tokens are read soundly. -/
abbrev SoundBelow (n : Nat) : Prop :=
  ∀ path us, us.length < n → SoundRule .assignment (assignment path us)

/-- Nothing goes on a primary. -/
lemma stops_primary : Stops .primary ts := by
  intro t _ hg
  cases hg

lemma primary_sound (ih : SoundBelow ts.length) : SoundRule .primary (primary path ts) := by
  intro p h
  rcases ts with _ | ⟨t, ts⟩
  · rw [primary] at h
    exact absurd h not_yields_fail
  rw [primary] at h
  split at h
  · next hk =>
    rw [yields_bind] at h
    obtain ⟨inner, hi, h⟩ := h
    rw [expression] at hi
    obtain ⟨us, hts, hus, -⟩ := ih _ ts (by simp) inner hi
    rw [yields_bind] at h
    obtain ⟨close, hc, h⟩ := h
    obtain ⟨c, hr, hck, -⟩ := symbol_reads.1 (reads_of_yields hc)
    obtain rfl := yields_pure.1 h
    refine ⟨t :: (us ++ [c]), ?_, .group hk hus hck, stops_primary⟩
    simp [Parsed.behind, Parsed.andThen, Parsed.within, Parsed.map, ← hr, ← hts]
  · split at h
    · next e he =>
      obtain rfl := yields_pure.1 h
      exact ⟨[t], rfl, .atom (atom?_eq_some_iff.1 he), stops_primary⟩
    · exact absurd h not_yields_fail

lemma arguments_sound {n : Nat} (ih : SoundBelow n) : ∀ (ts : List Token) (count : Nat),
    ts.length < n → ∀ p, (arguments path count ts).Yields p → SoundArguments count p := by
  intro ts
  induction hn : ts.length using Nat.strongRecOn generalizing ts with
  | _ m rec =>
  intro count hm p h
  subst hn
  rw [arguments] at h
  split at h
  · rw [yields_bind] at h
    obtain ⟨close, hc, h⟩ := h
    obtain ⟨c, hts, hck, hline⟩ := symbol_reads.1 (reads_of_yields hc)
    obtain rfl := yields_pure.1 h
    exact ⟨[], [], c, hts, .nil, by simp, hck, by simp [Parsed.map, hline], by simp⟩
  · rw [yields_bind] at h
    obtain ⟨u, hu, h⟩ := h
    have hcount : count ≠ maxArguments := by simpa using yields_reportIf.1 hu
    rw [yields_bind] at h
    obtain ⟨arg, ha, h⟩ := h
    rw [expression] at ha
    obtain ⟨vs, hts, hvs, -⟩ := ih _ ts hm arg ha
    split at h
    · exact absurd h not_yields_fail
    · next t us hr =>
      have hlt : us.length < ts.length := (hr ▸ arg.proper : ProperSuffix (t :: us) ts).of_cons.length_lt
      split at h
      · next hk =>
        rw [yields_bind] at h
        obtain ⟨more, hm', h⟩ := h
        obtain ⟨parts, ws, c, hws, hl, hparts, hck, hv, hn⟩ :=
          rec _ hlt us rfl _ (by omega) more hm'
        obtain rfl := yields_pure.1 h
        refine ⟨(vs, arg.value) :: parts, vs ++ t :: ws, c, taken_step hts hr hws, .cons hk hl, ?_, hck,
          ?_, ?_⟩
        · simpa using ⟨hvs, fun a b hab => hparts (a, b) hab⟩
        · simp [Parsed.within, Parsed.map, hv]
        · unfold maxArguments at hcount
          intro hle
          have := hn (by omega)
          simp only [List.length_cons]
          omega
      · next hk =>
        obtain rfl := yields_pure.1 h
        refine ⟨[(vs, arg.value)], vs, t, hts.trans (congrArg (vs ++ ·) hr), .last, by simpa using hvs, hk, rfl, ?_⟩
        unfold maxArguments at hcount
        intro hle
        simp only [List.length_cons, List.length_nil]
        omega
      · exact absurd h not_yields_fail

lemma calls_sound (ih : SoundBelow ts.length) : ∀ left : Parsed (Expr Unit) ts,
    (∃ us, ts = us ++ left.rest ∧ Phrase .call us left.value) →
    SoundRule .call (calls path left) := by
  intro left
  induction hn : left.rest.length using Nat.strongRecOn generalizing left with
  | _ n rec =>
  rintro ⟨us, hts, hus⟩ p h
  subst hn
  rcases hr : left.rest with _ | ⟨t, vs⟩
  · rw [calls_stop (by simp [hr])] at h
    obtain rfl := yields_pure.1 h
    exact ⟨us, hts, hus, by simp [Stops, hr]⟩
  have hlt : vs.length < ts.length := (hr ▸ left.proper : ProperSuffix (t :: vs) ts).of_cons.length_lt
  by_cases hg : GoesOn .call t.kind
  · generalize hk : t.kind = k at hg
    cases hg with
    | call =>
      obtain ⟨args, ha, h⟩ := (calls_arguments hr hk).1 h
      obtain ⟨parts, ws, c, hws, hl, hparts, hck, hv, hc⟩ := arguments_sound ih vs 0 hlt args ha
      have proper : ProperSuffix args.rest ts :=
        args.proper.trans (hr ▸ left.proper : ProperSuffix (t :: vs) ts).of_cons
      refine rec _ ?_ ⟨_, args.rest, proper⟩ rfl
        ⟨us ++ t :: (ws ++ [c]), taken_step hts hr (hws.trans (by simp)), ?_⟩ p (h _ rfl rfl)
      · have := args.proper.length_lt
        simp only [hr, List.length_cons]
        omega
      · rw [hv]
        exact .call hus hk hparts hl (by simpa using hc) hck
    | property =>
      obtain ⟨name, hn, h⟩ := (calls_property hr hk).1 h
      obtain ⟨i, hi, hik, hv⟩ := identifier_reads.1 (reads_of_yields hn)
      have proper : ProperSuffix name.rest ts :=
        name.proper.trans (hr ▸ left.proper : ProperSuffix (t :: vs) ts).of_cons
      have htaken : ts = us ++ t :: [i] ++ name.rest := taken_step hts hr hi
      refine rec _ ?_ ⟨_, name.rest, proper⟩ rfl ⟨us ++ [t, i], htaken, ?_⟩ p (h _ rfl rfl)
      · have := name.proper.length_lt
        simp only [hr, List.length_cons]
        omega
      · exact .property hus hk hik (property_eq_iff.1 (by rw [hv]; rfl))
  · rw [calls_stop (by simpa [hr] using hg)] at h
    obtain rfl := yields_pure.1 h
    exact ⟨us, hts, hus, by simpa [Stops, hr] using hg⟩

lemma call_sound (ih : SoundBelow ts.length) : SoundRule .call (call path ts) := by
  intro p h
  rw [call, yields_bind] at h
  obtain ⟨callee, hc, h⟩ := h
  obtain ⟨us, hts, hus, -⟩ := primary_sound ih callee hc
  exact calls_sound ih callee ⟨us, hts, .ofPrimary hus⟩ p h

lemma Sound.of_call {p : Parsed (Expr Unit) ts} (h : Sound .call p) : Sound .unary p := by
  obtain ⟨us, hts, hp, hs⟩ := h
  exact ⟨us, hts, .ofCall hp, hs.mono fun k hg => by cases hg; assumption⟩

lemma unary_sound : ∀ (ts : List Token) (path : Path), SoundBelow ts.length →
    SoundRule .unary (unary path ts) := by
  intro ts
  induction ts with
  | nil =>
    intro path ih p h
    rw [unary] at h
    exact (call_sound ih p h).of_call
  | cons t ts rec =>
    intro path ih p h
    rw [unary] at h
    split at h
    · exact (call_sound ih p h).of_call
    · next op hop =>
      obtain ⟨operand, ho, h⟩ := yields_bind.1 h
      obtain ⟨us, hts, hus, hs⟩ := rec _ (fun path us hlt => ih path us (Nat.lt_succ_of_lt hlt)) operand ho
      obtain rfl := yields_pure.1 h
      refine ⟨t :: us, ?_, .led (unaryOp_ofKind?_eq_some_iff.1 hop) hus, hs⟩
      simp [Parsed.behind, Parsed.map, ← hts]

/-- The loop over the operators of a level keeps a phrase of that level in front of its position. -/
lemma chain_sound {l : Level} {tighter : List Level}
    (ih : ∀ path us, us.length < ts.length → SoundRule l.operand (operators path tighter us)) :
    ∀ left : Parsed (Expr Unit) ts,
      (∃ us, ts = us ++ left.rest ∧ Phrase (.level l) us left.value ∧ Stops l.operand left.rest) →
      SoundRule (.level l) (chain path l tighter left) := by
  intro left
  induction hn : left.rest.length using Nat.strongRecOn generalizing left with
  | _ n rec =>
  rintro ⟨us, hts, hus, hs⟩ p h
  subst hn
  by_cases hop : ∀ t ∈ left.rest.head?, Operator.onLevel? l t.kind = none
  · rw [chain_stop hop] at h
    obtain rfl := yields_pure.1 h
    refine ⟨us, hts, hus, fun t ht hg => ?_⟩
    cases hg with
    | joins hj => simpa [onLevel?_eq_some_iff.2 hj] using hop t ht
    | ofOperand hg => exact hs t ht hg
  rcases hr : left.rest with _ | ⟨t, vs⟩
  · simp [hr] at hop
  have hlt : vs.length < ts.length := (hr ▸ left.proper : ProperSuffix (t :: vs) ts).of_cons.length_lt
  obtain ⟨op, hop⟩ : ∃ op, Operator.onLevel? l t.kind = some op := by
    simpa [hr, Option.ne_none_iff_exists'] using hop
  obtain ⟨right, ho, h⟩ := (chain_step hr hop).1 h
  obtain ⟨ws, hws, hw, hws'⟩ := ih path vs hlt right ho
  have proper : ProperSuffix right.rest ts :=
    right.proper.trans (hr ▸ left.proper : ProperSuffix (t :: vs) ts).of_cons
  refine rec _ ?_ ⟨_, right.rest, proper⟩ rfl ⟨us ++ t :: ws, taken_step hts hr hws, ?_, hws'⟩ p
    (h _ rfl rfl)
  · have := right.proper.length_lt
    simp only [hr, List.length_cons]
    omega
  · exact .joined hus (onLevel?_eq_some_iff.1 hop) hw

lemma operators_sound : ∀ levels, levels <:+ Level.all → ∀ (ts : List Token) (path : Path),
    SoundBelow ts.length → SoundRule (operandStratum levels) (operators path levels ts) := by
  intro levels
  induction levels with
  | nil =>
    intro _ ts path ih p h
    rw [operators] at h
    exact unary_sound ts path ih p h
  | cons l tighter htighter =>
    intro hl ts path ih p h
    replace htighter := htighter ((List.suffix_cons l tighter).trans hl)
    rw [← operand_eq hl] at htighter
    rw [operators, yields_bind] at h
    obtain ⟨left, ho, h⟩ := h
    obtain ⟨us, hts, hus, hs⟩ := htighter ts _ ih left ho
    refine chain_sound (fun path us hlt => htighter us path fun path vs hvs => ih path vs ?_) left
      ⟨us, hts, .ofOperand hus, hs⟩ p h
    omega

/-- **What is read is a phrase**, and the token behind it does not go on. -/
theorem assignment_sound : ∀ (ts : List Token) (path : Path),
    SoundRule .assignment (assignment path ts) := by
  intro ts
  induction hn : ts.length using Nat.strongRecOn generalizing ts with
  | _ n rec =>
  intro path p h
  subst hn
  rw [assignment, yields_bind] at h
  obtain ⟨target, ht, h⟩ := h
  have hs : Sound (.level .or) target := operators_sound Level.all List.suffix_rfl ts _
    (fun path us hlt => rec _ hlt us rfl path) target ht
  split at h
  · next hr =>
    obtain rfl := yields_pure.1 h
    exact hs.of_or (by rw [hr]; simp)
  · next t us hr =>
    split at h
    · next hk =>
      obtain ⟨value, hv, h⟩ := yields_bind.1 h
      have proper : ProperSuffix us ts := (hr ▸ target.proper : ProperSuffix (t :: us) ts).of_cons
      obtain ⟨vs, hus, hvs, hstop⟩ := rec _ proper.length_lt us rfl _ value hv
      split at h
      · next e he =>
        obtain rfl := yields_pure.1 h
        obtain ⟨ws, hts, hws, -⟩ := hs
        exact ⟨ws ++ t :: vs, taken_step hts hr hus,
          .assign hws hk hvs (assign?_eq_some_iff.1 he), hstop⟩
      · obtain ⟨u, hu, -⟩ := yields_bind.1 h
        exact absurd hu not_yields_tell
    · next hk =>
      obtain rfl := yields_pure.1 h
      exact hs.of_or (by rw [hr]; simpa using hk)

end Soundness

end ScriptLang.Grammar
