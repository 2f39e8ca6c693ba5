import ScriptLang.Proofs.Grammar.Sentence

/-!
# Reading the parts of statements

The rules for what stands in statements and declarations and holds no statement itself, each with the
tokens that it reads: a terminated expression, a condition, a variable declaration, the clauses of a `for`,
the parameters of a function, the heading of a class.
-/

namespace ScriptLang.Grammar

open Outcome

variable {path : Path} {ts us rest : List Token} {t : Token} {e : Expr Unit}

lemma isExpression_iff : IsExpression ts e ↔ Phrase .assignment ts e := by
  constructor
  · intro h
    obtain ⟨us, hts, hp, -⟩ := expression_sound h
    rw [List.append_nil] at hts
    exact hts ▸ hp
  · intro h
    have hr : (expression [] (ts ++ [])).Reads e [] := expression_reads h fun _ ht => nomatch ht
    rwa [List.append_nil] at hr

/-- An expression in front of a closing symbol. -/
lemma IsExpression.reads {s : Symbol} (h : IsExpression us e) (hk : t.kind = .symbol s)
    (hs : s = .comma ∨ s = .rightParen ∨ s = .semicolon) :
    (expression path (us ++ t :: rest)).Reads e (t :: rest) :=
  expression_reads (isExpression_iff.1 h) (stops_closing hk hs)

lemma IsExpression.begins (h : IsExpression us e) : ∃ t vs, us = t :: vs ∧ Begins t.kind :=
  (isExpression_iff.1 h).begins

lemma IsExpression.not_startsWith {s : Symbol} (h : IsExpression us e)
    (hs : s ∉ [Symbol.minus, .bang, .bangBang, .leftParen]) : ¬ startsWith s (us ++ rest) = true := by
  intro hstart
  obtain ⟨t, vs, rfl, hb⟩ := h.begins
  obtain ⟨t', ws, h', hk⟩ := startsWith_iff.1 hstart
  obtain ⟨rfl, -⟩ := List.cons.inj h'
  exact hs (hk ▸ hb).symbol

lemma startsWith_false {s : Symbol} (h : ¬ t.kind = .symbol s) : ¬ startsWith s (t :: us) = true := by
  intro hs
  obtain ⟨t', vs, h', hk⟩ := startsWith_iff.1 hs
  obtain ⟨rfl, -⟩ := List.cons.inj h'
  exact h hk

/-! ### Expressions between fixed tokens -/

lemma terminated_reads :
    (terminated path ts).Reads e rest ↔
      ∃ us t, ts = us ++ t :: rest ∧ IsExpression us e ∧ t.kind = .symbol .semicolon := by
  have steps : (terminated path ts).Reads e rest ↔
      ∃ e' mid, (expression path ts).Reads e' mid ∧
        ∃ line mid', (symbol path .semicolon mid).Reads line mid' ∧ e' = e ∧ mid' = rest :=
    reads_step fun p => reads_step fun q => reads_pure
  rw [steps]
  constructor
  · rintro ⟨_, mid, he, line, _, hs, rfl, rfl⟩
    obtain ⟨us, rfl, hus, -⟩ := expression_sound he
    obtain ⟨t, rfl, hk, -⟩ := symbol_reads.1 hs
    exact ⟨us, t, rfl, isExpression_iff.2 hus, hk⟩
  · rintro ⟨us, t, rfl, hus, hk⟩
    exact ⟨e, _, hus.reads hk (.inr (.inr rfl)), _, _, symbol_reads.2 ⟨t, rfl, hk, rfl⟩, rfl, rfl⟩

lemma condition_reads :
    (condition path ts).Reads e rest ↔ ∃ us, ts = us ++ rest ∧ IsCondition us e := by
  have steps : (condition path ts).Reads e rest ↔
      ∃ line mid, (symbol path .leftParen ts).Reads line mid ∧
        ∃ e' mid', (expression path mid).Reads e' mid' ∧
          ∃ line' mid'', (symbol path .rightParen mid').Reads line' mid'' ∧ e' = e ∧ mid'' = rest :=
    reads_step fun p => reads_step fun q => reads_step fun r => reads_pure
  rw [steps]
  constructor
  · rintro ⟨line, _, hl, _, _, he, line', _, hr, rfl, rfl⟩
    obtain ⟨o, rfl, ho, -⟩ := symbol_reads.1 hl
    obtain ⟨us, rfl, hus, -⟩ := expression_sound he
    obtain ⟨c, rfl, hc, -⟩ := symbol_reads.1 hr
    exact ⟨o :: (us ++ [c]), by simp, .mk ho (isExpression_iff.2 hus) hc⟩
  · rintro ⟨_, rfl, @⟨us, _, o, c, ho, hus, hc⟩⟩
    rw [List.cons_append, List.append_assoc, List.singleton_append]
    exact ⟨_, _, symbol_reads.2 ⟨o, rfl, ho, rfl⟩, e, _, hus.reads hc (.inr (.inl rfl)), _, _,
      symbol_reads.2 ⟨c, rfl, hc, rfl⟩, rfl, rfl⟩

lemma optionalUntil_reads {s : Symbol} (hs : s = .rightParen ∨ s = .semicolon)
    {o : Option (Expr Unit)} :
    (optionalUntil path s ts).Reads o rest ↔
      ∃ us t, ts = us ++ t :: rest ∧ IsOptional us o ∧ t.kind = .symbol s := by
  unfold optionalUntil
  by_cases hstart : startsWith s ts = true
  · rw [if_pos hstart]
    have steps : ((do return (← symbol path s ts).map fun _ => none) : Outcome (Parsed _ ts)).Reads o rest ↔
        ∃ line mid, (symbol path s ts).Reads line mid ∧ none = o ∧ mid = rest :=
      reads_step fun p => reads_pure
    rw [steps]
    constructor
    · rintro ⟨line, _, hl, rfl, rfl⟩
      obtain ⟨t, rfl, hk, -⟩ := symbol_reads.1 hl
      exact ⟨[], t, rfl, .none, hk⟩
    · rintro ⟨us, t, rfl, ho, hk⟩
      cases ho with
      | none => exact ⟨_, _, symbol_reads.2 ⟨t, rfl, hk, rfl⟩, rfl, rfl⟩
      | some he => exact absurd hstart (he.not_startsWith (by rcases hs with rfl | rfl <;> decide))
  · rw [if_neg hstart]
    have steps : ((do
          let e ← expression path ts
          let close ← symbol path s e.rest
          return e.andThen (close.map fun _ => some e.value)) : Outcome (Parsed _ ts)).Reads o rest ↔
        ∃ e mid, (expression path ts).Reads e mid ∧
          ∃ line mid', (symbol path s mid).Reads line mid' ∧ some e = o ∧ mid' = rest :=
      reads_step fun p => reads_step fun q => reads_pure
    rw [steps]
    constructor
    · rintro ⟨e, _, he, line, _, hl, rfl, rfl⟩
      obtain ⟨us, rfl, hus, -⟩ := expression_sound he
      obtain ⟨t, rfl, hk, -⟩ := symbol_reads.1 hl
      exact ⟨us, t, rfl, .some (isExpression_iff.2 hus), hk⟩
    · rintro ⟨us, t, rfl, ho, hk⟩
      cases ho with
      | none => exact absurd (startsWith_cons hk) hstart
      | some he =>
        exact ⟨_, _, he.reads hk (by rcases hs with rfl | rfl <;> simp), _, _,
          symbol_reads.2 ⟨t, rfl, hk, rfl⟩, rfl, rfl⟩

/-! ### Statements and declarations of one line -/

section Lines

variable {s : Stmt Unit}

lemma letDeclaration_reads (hk : t.kind = .keyword .letKw) :
    (letDeclaration path ts).Reads s rest ↔ ∃ us, ts = us ++ rest ∧ IsLet (t :: us) s := by
  have steps : (letDeclaration path ts).Reads s rest ↔
      ∃ name mid, (identifier (path.enter .letDeclaration) ts).Reads name mid ∧
        (startsWith .equal mid = true ∧
          (∃ line mid', (symbol (path.enter .letDeclaration) .equal mid).Reads line mid' ∧
            ∃ e mid'', (terminated (path.enter .letDeclaration) mid').Reads e mid'' ∧
              .letVar name (some e) = s ∧ mid'' = rest) ∨
        ¬ startsWith .equal mid = true ∧
          ∃ line mid', (symbol (path.enter .letDeclaration) .semicolon mid).Reads line mid' ∧
            .letVar name none = s ∧ mid' = rest) :=
    reads_step fun p => reads_ite.trans (or_congr
      (and_congr_right fun _ => reads_step fun q => reads_step fun r => reads_pure)
      (and_congr_right fun _ => reads_step fun q => reads_pure))
  rw [steps]
  constructor
  · rintro ⟨_, _, hi, ⟨-, line, _, hl, e, _, he, rfl, rfl⟩ | ⟨-, line, _, hl, rfl, rfl⟩⟩
    · obtain ⟨n, rfl, hn, rfl⟩ := identifier_reads.1 hi
      obtain ⟨q, rfl, hq, -⟩ := symbol_reads.1 hl
      obtain ⟨us, c, rfl, hus, hc⟩ := terminated_reads.1 he
      exact ⟨n :: q :: (us ++ [c]), by simp, .initialized hk hn hq hus hc⟩
    · obtain ⟨n, rfl, hn, rfl⟩ := identifier_reads.1 hi
      obtain ⟨c, rfl, hc, -⟩ := symbol_reads.1 hl
      exact ⟨[n, c], rfl, .plain hk hn hc⟩
  · rintro ⟨us, rfl, h⟩
    cases h with
    | @plain _ n c _ hn hc =>
      refine ⟨_, _, identifier_reads.2 ⟨n, rfl, hn, rfl⟩, .inr ⟨startsWith_false (by simp [hc]), _, _,
        symbol_reads.2 ⟨c, rfl, hc, rfl⟩, rfl, rfl⟩⟩
    | @initialized us e _ n q c _ hn hq he hc =>
      refine ⟨_, _, identifier_reads.2 ⟨n, rfl, hn, rfl⟩, .inl ⟨startsWith_cons hq, _, _,
        symbol_reads.2 ⟨q, rfl, hq, rfl⟩, e, _, terminated_reads.2 ⟨us, c, ?_, he, hc⟩, rfl, rfl⟩⟩
      simp

lemma constDeclaration_reads :
    (constDeclaration path ts).Reads s rest ↔
      ∃ n q us c e, ts = n :: q :: (us ++ c :: rest) ∧ n.kind = .identifier ∧
        q.kind = .symbol .equal ∧ IsExpression us e ∧ c.kind = .symbol .semicolon ∧
        s = .constVar n.ident e := by
  have steps : (constDeclaration path ts).Reads s rest ↔
      ∃ name mid, (identifier (path.enter .constDeclaration) ts).Reads name mid ∧
        ∃ line mid', (symbol (path.enter .constDeclaration) .equal mid).Reads line mid' ∧
          ∃ e mid'', (terminated (path.enter .constDeclaration) mid').Reads e mid'' ∧
            .constVar name e = s ∧ mid'' = rest :=
    reads_step fun p => reads_step fun q => reads_step fun r => reads_pure
  rw [steps]
  constructor
  · rintro ⟨_, _, hi, line, _, hl, e, _, he, rfl, rfl⟩
    obtain ⟨n, rfl, hn, rfl⟩ := identifier_reads.1 hi
    obtain ⟨q, rfl, hq, -⟩ := symbol_reads.1 hl
    obtain ⟨us, c, rfl, hus, hc⟩ := terminated_reads.1 he
    exact ⟨n, q, us, c, e, rfl, hn, hq, hus, hc, rfl⟩
  · rintro ⟨n, q, us, c, e, rfl, hn, hq, hus, hc, rfl⟩
    exact ⟨_, _, identifier_reads.2 ⟨n, rfl, hn, rfl⟩, _, _, symbol_reads.2 ⟨q, rfl, hq, rfl⟩, e, _,
      terminated_reads.2 ⟨us, c, rfl, hus, hc⟩, rfl, rfl⟩

lemma printStatement_reads :
    (printStatement path ts).Reads s rest ↔
      ∃ us c e, ts = us ++ c :: rest ∧ IsExpression us e ∧ c.kind = .symbol .semicolon ∧
        s = .print e := by
  have steps : (printStatement path ts).Reads s rest ↔
      ∃ e mid, (terminated (path.enter .printStatement) ts).Reads e mid ∧ .print e = s ∧ mid = rest :=
    reads_step fun p => reads_pure
  simp only [steps, terminated_reads]
  constructor
  · rintro ⟨e, _, ⟨us, c, rfl, hus, hc⟩, rfl, rfl⟩
    exact ⟨us, c, e, rfl, hus, hc, rfl⟩
  · rintro ⟨us, c, e, rfl, hus, hc, rfl⟩
    exact ⟨e, _, ⟨us, c, rfl, hus, hc⟩, rfl, rfl⟩

lemma expressionStatement_reads :
    (expressionStatement path ts).Reads s rest ↔
      ∃ us c e, ts = us ++ c :: rest ∧ IsExpression us e ∧ c.kind = .symbol .semicolon ∧
        s = .expr e := by
  have steps : (expressionStatement path ts).Reads s rest ↔
      ∃ e mid, (terminated (path.enter .expressionStatement) ts).Reads e mid ∧
        .expr e = s ∧ mid = rest :=
    reads_step fun p => reads_pure
  simp only [steps, terminated_reads]
  constructor
  · rintro ⟨e, _, ⟨us, c, rfl, hus, hc⟩, rfl, rfl⟩
    exact ⟨us, c, e, rfl, hus, hc, rfl⟩
  · rintro ⟨us, c, e, rfl, hus, hc, rfl⟩
    exact ⟨e, _, ⟨us, c, rfl, hus, hc⟩, rfl, rfl⟩

lemma returnStatement_reads {line : Nat} :
    (returnStatement path line ts).Reads s rest ↔
      ∃ us c o, ts = us ++ c :: rest ∧ IsOptional us o ∧ c.kind = .symbol .semicolon ∧
        s = .return line o := by
  have steps : (returnStatement path line ts).Reads s rest ↔
      startsWith .semicolon ts = true ∧
        (∃ l mid, (symbol (path.enter .returnStatement) .semicolon ts).Reads l mid ∧
          .return line none = s ∧ mid = rest) ∨
      ¬ startsWith .semicolon ts = true ∧
        ∃ e mid, (terminated (path.enter .returnStatement) ts).Reads e mid ∧
          .return line (some e) = s ∧ mid = rest :=
    reads_ite.trans (or_congr (and_congr_right fun _ => reads_step fun p => reads_pure)
      (and_congr_right fun _ => reads_step fun p => reads_pure))
  rw [steps]
  constructor
  · rintro (⟨-, _, _, hl, rfl, rfl⟩ | ⟨-, e, _, he, rfl, rfl⟩)
    · obtain ⟨c, rfl, hc, -⟩ := symbol_reads.1 hl
      exact ⟨[], c, none, rfl, .none, hc, rfl⟩
    · obtain ⟨us, c, rfl, hus, hc⟩ := terminated_reads.1 he
      exact ⟨us, c, some e, rfl, .some hus, hc, rfl⟩
  · rintro ⟨us, c, o, rfl, ho, hc, rfl⟩
    cases ho with
    | none => exact .inl ⟨startsWith_cons hc, _, _, symbol_reads.2 ⟨c, rfl, hc, rfl⟩, rfl, rfl⟩
    | some he =>
      exact .inr ⟨he.not_startsWith (by decide), _, _,
        terminated_reads.2 ⟨us, c, rfl, he, hc⟩, rfl, rfl⟩

end Lines

/-! ### The clauses of a loop -/

lemma forInitializer_reads {o : Option (Stmt Unit)} :
    (forInitializer path ts).Reads o rest ↔ ∃ us, ts = us ++ rest ∧ IsInitializer us o := by
  have steps : ∀ ts, (do
        return (← expressionStatement path ts).map some : Outcome (Parsed _ ts)).Reads o rest ↔
      ∃ s mid, (expressionStatement path ts).Reads s mid ∧ some s = o ∧ mid = rest :=
    fun ts => reads_step fun p => reads_pure
  have letSteps : ∀ t us, (do
        return ((← letDeclaration path us).map some).behind : Outcome (Parsed _ (t :: us))).Reads o rest ↔
      ∃ s mid, (letDeclaration path us).Reads s mid ∧ some s = o ∧ mid = rest :=
    fun t us => reads_step fun p => reads_pure
  have expr_sound : ∀ ts, (do
        return (← expressionStatement path ts).map some : Outcome (Parsed _ ts)).Reads o rest →
      ∃ us, ts = us ++ rest ∧ IsInitializer us o := by
    intro ts h
    obtain ⟨_, _, hs, rfl, rfl⟩ := (steps ts).1 h
    obtain ⟨us, c, e, rfl, he, hc, rfl⟩ := expressionStatement_reads.1 hs
    exact ⟨us ++ [c], by simp, .expr he hc⟩
  constructor
  · intro h
    rcases ts with _ | ⟨t, ts⟩
    · rw [forInitializer] at h
      exact expr_sound [] h
    · rw [forInitializer] at h
      split at h
      · next hk =>
        obtain ⟨rfl, rfl⟩ := reads_pure.1 h
        exact ⟨[t], rfl, .none hk⟩
      · next hk =>
        obtain ⟨_, _, hs, rfl, rfl⟩ := (letSteps t ts).1 h
        obtain ⟨us, rfl, hus⟩ := (letDeclaration_reads hk).1 hs
        exact ⟨t :: us, rfl, .letVar hus⟩
      · exact expr_sound _ h
  · rintro ⟨us, rfl, h⟩
    cases h with
    | none hc =>
      rw [List.singleton_append, forInitializer, hc]
      exact reads_pure.2 ⟨rfl, rfl⟩
    | @letVar us s hl =>
      obtain ⟨t, vs, rfl, hk⟩ : ∃ t vs, us = t :: vs ∧ t.kind = .keyword .letKw := by
        cases hl with
        | plain hk => exact ⟨_, _, rfl, hk⟩
        | initialized hk => exact ⟨_, _, rfl, hk⟩
      rw [List.cons_append, forInitializer, hk]
      exact (letSteps t _).2 ⟨s, rest, (letDeclaration_reads hk).2 ⟨vs, rfl, hl⟩, rfl, rfl⟩
    | @expr us e c he hc =>
      have hr : (expressionStatement path (us ++ [c] ++ rest)).Reads (.expr e) rest :=
        expressionStatement_reads.2 ⟨us, c, e, by simp, he, hc, rfl⟩
      obtain ⟨t, vs, rfl, hb⟩ := he.begins
      rw [List.cons_append, List.cons_append, forInitializer]
      split
      · next hk => exact absurd (hk ▸ hb).symbol (by decide)
      · next hk => exact absurd (hk ▸ hb).keyword (by decide)
      · exact (steps _).2 ⟨_, rest, hr, rfl, rfl⟩

lemma forClauses_reads {clauses : ForClauses} :
    (forClauses path ts).Reads clauses rest ↔
      ∃ o is cs m ns c, ts = o :: (is ++ (cs ++ m :: (ns ++ c :: rest))) ∧
        o.kind = .symbol .leftParen ∧ IsInitializer is clauses.initializer ∧
        IsOptional cs clauses.condition ∧ m.kind = .symbol .semicolon ∧
        IsOptional ns clauses.increment ∧ c.kind = .symbol .rightParen := by
  have steps : (forClauses path ts).Reads clauses rest ↔
      ∃ line mid, (symbol path .leftParen ts).Reads line mid ∧
        ∃ init mid', (forInitializer path mid).Reads init mid' ∧
          ∃ test mid'', (optionalUntil path .semicolon mid').Reads test mid'' ∧
            ∃ step after, (optionalUntil path .rightParen mid'').Reads step after ∧
              (⟨init, test, step⟩ : ForClauses) = clauses ∧ after = rest :=
    reads_step fun p => reads_step fun q => reads_step fun r => reads_step fun u => reads_pure
  rw [steps]
  constructor
  · rintro ⟨line, _, hl, init, _, hi, test, _, ht, step, _, hs, rfl, rfl⟩
    obtain ⟨o, rfl, ho, -⟩ := symbol_reads.1 hl
    obtain ⟨is, rfl, his⟩ := forInitializer_reads.1 hi
    obtain ⟨cs, m, rfl, hcs, hm⟩ := (optionalUntil_reads (.inr rfl)).1 ht
    obtain ⟨ns, c, rfl, hns, hc⟩ := (optionalUntil_reads (.inl rfl)).1 hs
    exact ⟨o, is, cs, m, ns, c, rfl, ho, his, hcs, hm, hns, hc⟩
  · rintro ⟨o, is, cs, m, ns, c, rfl, ho, hi, hcs, hm, hns, hc⟩
    exact ⟨_, _, symbol_reads.2 ⟨o, rfl, ho, rfl⟩, _, _, forInitializer_reads.2 ⟨is, rfl, hi⟩, _, _,
      (optionalUntil_reads (.inr rfl)).2 ⟨cs, m, rfl, hcs, hm⟩, _, _,
      (optionalUntil_reads (.inl rfl)).2 ⟨ns, c, rfl, hns, hc⟩, rfl, rfl⟩

/-! ### The heads of functions and classes -/

lemma parameters_step {count : Nat} {names : List Ident} :
    (parameters path count ts).Reads names rest ↔
      startsWith .rightParen ts = true ∧
        (∃ line mid, (symbol path .rightParen ts).Reads line mid ∧ [] = names ∧ mid = rest) ∨
      ¬ startsWith .rightParen ts = true ∧ decide (count = maxArguments) = false ∧
        ∃ name mid, (identifier path ts).Reads name mid ∧ ∃ t us, mid = t :: us ∧
          (t.kind = .symbol .comma ∧
            (∃ more mid', (parameters path (count + 1) us).Reads more mid' ∧
              name :: more = names ∧ mid' = rest) ∨
          t.kind = .symbol .rightParen ∧ [name] = names ∧ us = rest) := by
  rw [parameters]
  refine reads_ite.trans (or_congr (and_congr_right fun _ => reads_step fun p => reads_pure)
    (and_congr_right fun _ => reads_reportIf.trans (and_congr_right fun _ => reads_step fun p => ?_)))
  split
  · next hr => simp [hr, not_reads_fail]
  · next t us hr =>
    have head : ∀ {t' us'}, p.rest = t' :: us' → t = t' ∧ us = us' :=
      fun hr' => List.cons.inj (hr.symm.trans hr')
    split
    · next hk =>
      have hmore : ∀ {proper : ProperSuffix us ts}, (do
          let more ← parameters path (count + 1) us
          return (more.map fun names => p.value :: names).within proper :
            Outcome (Parsed (List Ident) ts)).Reads names rest ↔
          ∃ more mid', (parameters path (count + 1) us).Reads more mid' ∧
            p.value :: more = names ∧ mid' = rest :=
        reads_step fun q => reads_pure
      refine hmore.trans ?_
      constructor
      · exact fun h => ⟨t, us, hr, .inl ⟨hk, h⟩⟩
      · rintro ⟨t', us', hr', ⟨-, h⟩ | ⟨hk', -⟩⟩
        · obtain ⟨rfl, rfl⟩ := head hr'
          exact h
        · obtain ⟨rfl, rfl⟩ := head hr'
          rw [hk] at hk'
          cases hk'
    · next hk =>
      refine Iff.trans reads_pure ?_
      constructor
      · exact fun h => ⟨t, us, hr, .inr ⟨hk, h⟩⟩
      · rintro ⟨t', us', hr', ⟨hk', -⟩ | ⟨-, h⟩⟩
        · obtain ⟨rfl, rfl⟩ := head hr'
          rw [hk] at hk'
          cases hk'
        · obtain ⟨rfl, rfl⟩ := head hr'
          exact h
    · next hc hp =>
      refine iff_of_false not_reads_fail ?_
      rintro ⟨t', us', hr', ⟨hk, -⟩ | ⟨hk, -⟩⟩
      · exact hc ((head hr').1 ▸ hk)
      · exact hp ((head hr').1 ▸ hk)

lemma parameters_sound : ∀ (ts : List Token) (count : Nat) (names : List Ident) (rest : List Token),
    (parameters path count ts).Reads names rest →
    ∃ (ps us : List Token) (c : Token), ts = us ++ c :: rest ∧ (∀ t ∈ ps, t.kind = .identifier) ∧
      Listed (ps.map fun t => ([t], t)) us ∧ c.kind = .symbol .rightParen ∧
      names = ps.map Token.ident ∧ (count ≤ 254 → count + ps.length ≤ 254) := by
  intro ts
  induction hn : ts.length using Nat.strongRecOn generalizing ts with
  | _ n ih =>
  intro count names rest h
  subst hn
  rcases parameters_step.1 h with ⟨-, line, _, hl, rfl, rfl⟩ | ⟨-, hcount, name, _, hi, t, us, rfl, h⟩
  · obtain ⟨c, rfl, hc, -⟩ := symbol_reads.1 hl
    exact ⟨[], [], c, rfl, by simp, .nil, hc, rfl, by simp⟩
  · obtain ⟨i, rfl, hik, rfl⟩ := identifier_reads.1 hi
    have hcount : count ≠ 254 := of_decide_eq_false hcount
    rcases h with ⟨hk, more, _, hm, rfl, rfl⟩ | ⟨hk, rfl, rfl⟩
    · obtain ⟨ps, vs, c, rfl, hps, hl, hc, rfl, hle⟩ := ih _ (by simp only [List.length_cons]; omega) us rfl _ _ _ hm
      refine ⟨i :: ps, i :: t :: vs, c, rfl, ?_, .cons hk hl, hc, rfl, fun hle' => ?_⟩
      · simpa [hik] using hps
      · have := hle (by omega)
        rw [List.length_cons]
        omega
    · refine ⟨[i], [i], t, rfl, by simp [hik], .last, hk, rfl, fun hle => ?_⟩
      rw [List.length_singleton]
      omega

lemma parameters_complete (hk : t.kind = .symbol .rightParen) : ∀ (ps us : List Token) (count : Nat),
    (∀ t ∈ ps, t.kind = .identifier) → Listed (ps.map fun t => ([t], t)) us →
    count + ps.length ≤ 254 →
    (parameters path count (us ++ t :: rest)).Reads (ps.map Token.ident) rest := by
  intro ps
  induction ps with
  | nil =>
    intro us count _ hl _
    cases hl
    exact parameters_step.2 (.inl ⟨startsWith_cons hk, _, _, symbol_reads.2 ⟨t, rfl, hk, rfl⟩, rfl, rfl⟩)
  | cons i ps ih =>
    intro us count hps hl hn
    rw [List.length_cons] at hn
    have hi := hps i List.mem_cons_self
    refine parameters_step.2 (.inr ?_)
    rw [List.map_cons] at hl
    generalize hparts : ps.map (fun t => ([t], t)) = parts at hl
    cases hl with
    | last =>
      obtain rfl := List.map_eq_nil_iff.1 hparts
      exact ⟨startsWith_false (by simp [hi]), decide_eq_false (by unfold maxArguments; omega), _, _,
        identifier_reads.2 ⟨i, rfl, hi, rfl⟩, t, rest, rfl, .inr ⟨hk, rfl, rfl⟩⟩
    | @cons _ _ comma vs hc hl =>
      subst hparts
      have hmore := ih vs (count + 1) (fun t ht => hps t (List.mem_cons_of_mem i ht)) hl (by omega)
      exact ⟨startsWith_false (by simp [hi]), decide_eq_false (by unfold maxArguments; omega), _, _,
        identifier_reads.2 ⟨i, rfl, hi, rfl⟩, comma, _, rfl, .inl ⟨hc, _, _, hmore, rfl, rfl⟩⟩

lemma signature_reads {name : Ident} {names : List Ident} :
    (signature path ts).Reads (name, names) rest ↔ ∃ us, ts = us ++ rest ∧ IsSignature us name names := by
  have steps : (signature path ts).Reads (name, names) rest ↔
      ∃ n mid, (identifier path ts).Reads n mid ∧
        ∃ line mid', (symbol path .leftParen mid).Reads line mid' ∧
          ∃ ps after, (parameters path 0 mid').Reads ps after ∧ (n, ps) = (name, names) ∧ after = rest :=
    reads_step fun p => reads_step fun q => reads_step fun r => reads_pure
  rw [steps]
  constructor
  · rintro ⟨_, _, hi, line, _, hl, _, _, hp, hv, rfl⟩
    obtain ⟨rfl, rfl⟩ := Prod.mk.inj hv
    obtain ⟨n, rfl, hn, rfl⟩ := identifier_reads.1 hi
    obtain ⟨o, rfl, ho, -⟩ := symbol_reads.1 hl
    obtain ⟨ps, us, c, rfl, hps, hlist, hc, rfl, hle⟩ := parameters_sound _ _ _ _ hp
    exact ⟨n :: o :: (us ++ [c]), by simp, .mk hn ho hps hlist (by simpa using hle) hc⟩
  · rintro ⟨_, rfl, @⟨ps, us, n, o, c, hn, ho, hps, hlist, hle, hc⟩⟩
    refine ⟨_, _, identifier_reads.2 ⟨n, rfl, hn, rfl⟩, _, _, symbol_reads.2 ⟨o, rfl, ho, rfl⟩, _, rest,
      ?_, rfl, rfl⟩
    show (parameters path 0 ((us ++ [c]) ++ rest)).Reads _ _
    rw [List.append_assoc, List.singleton_append]
    exact parameters_complete hc ps us 0 hps hlist (by omega)

lemma classHead_step {name : Ident} {parent : Option (Occurrence Unit)} :
    (classHead path ts).Reads (name, parent) rest ↔
      ∃ n mid, (identifier path ts).Reads n mid ∧
        ((∃ t us, mid = t :: us ∧ t.kind = .keyword .extendsKw ∧
          ∃ p mid', (identifier path us).Reads p mid' ∧
            ∃ line after, (symbol path .leftBrace mid').Reads line after ∧
              (n, some ⟨p, ()⟩) = (name, parent) ∧ after = rest) ∨
        (∃ t us, mid = t :: us ∧ t.kind ≠ .keyword .extendsKw ∧
          ∃ line after, (symbol path .leftBrace mid).Reads line after ∧
            (n, none) = (name, parent) ∧ after = rest)) := by
  refine reads_step fun p => ?_
  split
  · next hr => simp [hr, not_reads_fail]
  · next t us hr =>
    have head : ∀ {t' us'}, p.rest = t' :: us' → t = t' ∧ us = us' :=
      fun hr' => List.cons.inj (hr.symm.trans hr')
    split
    · next hk =>
      have hparent : ∀ {proper : ProperSuffix us ts}, (do
          let parent ← identifier path us
          let opening ← symbol path .leftBrace parent.rest
          return (parent.andThen (opening.map fun _ => (p.value, some ⟨parent.value, ()⟩))).within proper :
            Outcome (Parsed (Ident × Option (Occurrence Unit)) ts)).Reads (name, parent) rest ↔
          ∃ q mid, (identifier path us).Reads q mid ∧
            ∃ line after, (symbol path .leftBrace mid).Reads line after ∧
              (p.value, some ⟨q, ()⟩) = (name, parent) ∧ after = rest :=
        reads_step fun q => reads_step fun r => reads_pure
      refine hparent.trans ?_
      constructor
      · exact fun h => .inl ⟨t, us, hr, hk, h⟩
      · rintro (⟨t', us', hr', -, h⟩ | ⟨t', us', hr', hk', -⟩)
        · obtain ⟨rfl, rfl⟩ := head hr'
          exact h
        · obtain ⟨rfl, rfl⟩ := head hr'
          exact absurd hk hk'
    · next hk =>
      have hopening : ∀ {proper : ProperSuffix (t :: us) ts}, (do
          let opening ← symbol path .leftBrace (t :: us)
          return (opening.map fun _ => (p.value, none)).within proper :
            Outcome (Parsed (Ident × Option (Occurrence Unit)) ts)).Reads (name, parent) rest ↔
          ∃ line after, (symbol path .leftBrace (t :: us)).Reads line after ∧
            (p.value, none) = (name, parent) ∧ after = rest :=
        reads_step fun q => reads_pure
      refine hopening.trans ?_
      constructor
      · exact fun h => .inr ⟨t, us, hr, hk, hr ▸ h⟩
      · rintro (⟨t', us', hr', hk', -⟩ | ⟨t', us', hr', -, h⟩)
        · obtain ⟨rfl, rfl⟩ := head hr'
          exact absurd hk' hk
        · obtain ⟨rfl, rfl⟩ := head hr'
          exact hr ▸ h

lemma classHead_reads {name : Ident} {parent : Option (Occurrence Unit)} :
    (classHead path ts).Reads (name, parent) rest ↔
      ∃ us o, ts = us ++ o :: rest ∧ IsHeading us name parent ∧ o.kind = .symbol .leftBrace := by
  rw [classHead_step]
  constructor
  · rintro ⟨_, _, hi, ⟨t, us, rfl, hk, _, _, hp, line, _, hl, hv, rfl⟩ |
      ⟨t, us, rfl, hk, line, _, hl, hv, rfl⟩⟩
    · obtain ⟨rfl, rfl⟩ := Prod.mk.inj hv
      obtain ⟨n, rfl, hn, rfl⟩ := identifier_reads.1 hi
      obtain ⟨p, rfl, hpk, rfl⟩ := identifier_reads.1 hp
      obtain ⟨o, rfl, ho, -⟩ := symbol_reads.1 hl
      exact ⟨[n, t, p], o, rfl, .extending hn hk hpk, ho⟩
    · obtain ⟨rfl, rfl⟩ := Prod.mk.inj hv
      obtain ⟨n, rfl, hn, rfl⟩ := identifier_reads.1 hi
      obtain ⟨o, ho', ho, -⟩ := symbol_reads.1 hl
      exact ⟨[n], o, congrArg (n :: ·) ho', .plain hn, ho⟩
  · rintro ⟨us, o, rfl, h, ho⟩
    cases h with
    | @plain n hn =>
      exact ⟨_, _, identifier_reads.2 ⟨n, rfl, hn, rfl⟩, .inr ⟨o, rest, rfl, by simp [ho], _, _,
        symbol_reads.2 ⟨o, rfl, ho, rfl⟩, rfl, rfl⟩⟩
    | @extending n k p hn hk hp =>
      exact ⟨_, _, identifier_reads.2 ⟨n, rfl, hn, rfl⟩, .inl ⟨k, _, rfl, hk, _, _,
        identifier_reads.2 ⟨p, rfl, hp, rfl⟩, _, _, symbol_reads.2 ⟨o, rfl, ho, rfl⟩, rfl, rfl⟩⟩

end ScriptLang.Grammar
