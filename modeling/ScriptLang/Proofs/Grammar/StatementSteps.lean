import ScriptLang.Proofs.Grammar.StatementParts

/-!
# The steps of the rules for statements

What each rule for statements and declarations does with the tokens that it is given, one step at a time:
which rule reads on, with which tokens, and what tree comes of it.  Whatever is proved of these rules is
proved from here.
-/

namespace ScriptLang.Grammar

open Outcome

variable {path : Path} {ts us rest : List Token} {t : Token} {s : Stmt Unit}

lemma reads_map_behind {α β : Type} {f : α → β} {x : Outcome (Parsed α ts)} {b : β} :
    ((do return ((← x).map f).behind) : Outcome (Parsed β (t :: ts))).Reads b rest ↔
      ∃ a, x.Reads a rest ∧ f a = b := by
  have steps : ((do return ((← x).map f).behind) : Outcome (Parsed β (t :: ts))).Reads b rest ↔
      ∃ a mid, x.Reads a mid ∧ f a = b ∧ mid = rest :=
    reads_step fun p => reads_pure
  rw [steps]
  constructor
  · rintro ⟨a, _, h, hf, rfl⟩
    exact ⟨a, h, hf⟩
  · rintro ⟨a, h, hf⟩
    exact ⟨a, rest, h, hf, rfl⟩

lemma reads_behind {α : Type} {x : Outcome (Parsed α ts)} {a : α} :
    ((do return (← x).behind) : Outcome (Parsed α (t :: ts))).Reads a rest ↔ x.Reads a rest := by
  refine reads_map_behind (f := id) |>.trans ?_
  simp

/-! ### Statements -/

/-- The words with which a statement begins that is no expression statement. -/
def statementWords : List Keyword := [.printKw, .returnKw, .ifKw, .whileKw, .forKw]

lemma statement_print (hk : t.kind = .keyword .printKw) :
    (statement path (t :: us)).Reads s rest ↔
      (printStatement (path.enter .statement) us).Reads s rest := by
  unfold statement
  simp only [hk]
  exact reads_behind

lemma statement_return (hk : t.kind = .keyword .returnKw) :
    (statement path (t :: us)).Reads s rest ↔
      (returnStatement (path.enter .statement) t.line us).Reads s rest := by
  unfold statement
  simp only [hk]
  exact reads_behind

lemma statement_block (hk : t.kind = .symbol .leftBrace) :
    (statement path (t :: us)).Reads s rest ↔
      ∃ ss, (block (path.enter .statement) us).Reads ss rest ∧ .block ss = s := by
  unfold statement
  simp only [hk]
  exact reads_map_behind

lemma statement_if (hk : t.kind = .keyword .ifKw) :
    (statement path (t :: us)).Reads s rest ↔
      (ifStatement (path.enter .statement) us).Reads s rest := by
  unfold statement
  simp only [hk]
  exact reads_behind

lemma statement_while (hk : t.kind = .keyword .whileKw) :
    (statement path (t :: us)).Reads s rest ↔
      (whileStatement (path.enter .statement) us).Reads s rest := by
  unfold statement
  simp only [hk]
  exact reads_behind

lemma statement_for (hk : t.kind = .keyword .forKw) :
    (statement path (t :: us)).Reads s rest ↔
      (forStatement (path.enter .statement) us).Reads s rest := by
  unfold statement
  simp only [hk]
  exact reads_behind

lemma statement_other (hb : t.kind ≠ .symbol .leftBrace)
    (hw : ∀ w ∈ statementWords, t.kind ≠ .keyword w) :
    statement path (t :: us) = expressionStatement (path.enter .statement) (t :: us) := by
  simp only [statementWords, List.forall_mem_cons] at hw
  unfold statement
  simp only
  split <;> simp_all

lemma ifStatement_step :
    (ifStatement path ts).Reads s rest ↔
      ∃ c mid, (condition (path.enter .ifStatement) ts).Reads c mid ∧
        ∃ yes after, (statement (path.enter .ifStatement) mid).Reads yes after ∧
          ((∀ t ∈ after.head?, t.kind ≠ .keyword .elseKw) ∧ .ifThen c yes = s ∧ after = rest ∨
            ∃ t us, after = t :: us ∧ t.kind = .keyword .elseKw ∧
              ∃ no, (statement (path.enter .ifStatement) us).Reads no rest ∧ .ifElse c yes no = s) := by
  rw [ifStatement]
  refine reads_step fun p => reads_step fun q => ?_
  split
  · next hr =>
    refine reads_pure.trans ?_
    constructor
    · rintro ⟨rfl, rfl⟩
      exact .inl ⟨by simp [hr], rfl, rfl⟩
    · rintro (⟨-, rfl, rfl⟩ | ⟨t, us, hr', -⟩)
      · exact ⟨rfl, rfl⟩
      · rw [hr] at hr'
        cases hr'
  · next t us hr =>
    have head : ∀ {t' us'}, q.rest = t' :: us' → t = t' ∧ us = us' :=
      fun hr' => List.cons.inj (hr.symm.trans hr')
    split
    · next hk =>
      have helse : ∀ {proper : ProperSuffix us ts}, (do
          let no ← statement (path.enter .ifStatement) us
          return (no.map (.ifElse p.value q.value)).within proper :
            Outcome (Parsed (Stmt Unit) ts)).Reads s rest ↔
          ∃ no mid, (statement (path.enter .ifStatement) us).Reads no mid ∧
            .ifElse p.value q.value no = s ∧ mid = rest :=
        reads_step fun r => reads_pure
      refine helse.trans ?_
      constructor
      · rintro ⟨no, _, h, rfl, rfl⟩
        exact .inr ⟨t, us, hr, hk, no, h, rfl⟩
      · rintro (⟨h, -⟩ | ⟨t', us', hr', -, no, h, rfl⟩)
        · exact absurd hk (h t (by simp [hr]))
        · obtain ⟨rfl, rfl⟩ := head hr'
          exact ⟨no, rest, h, rfl, rfl⟩
    · next hk =>
      refine reads_pure.trans ?_
      constructor
      · rintro ⟨rfl, rfl⟩
        exact .inl ⟨by simpa [hr] using hk, rfl, rfl⟩
      · rintro (⟨-, rfl, rfl⟩ | ⟨t', us', hr', hk', -⟩)
        · exact ⟨rfl, rfl⟩
        · obtain ⟨rfl, rfl⟩ := head hr'
          exact absurd hk' hk

lemma whileStatement_step :
    (whileStatement path ts).Reads s rest ↔
      ∃ c mid, (condition (path.enter .whileStatement) ts).Reads c mid ∧
        ∃ body after, (statement (path.enter .whileStatement) mid).Reads body after ∧
          .while c body = s ∧ after = rest := by
  rw [whileStatement]
  exact reads_step fun p => reads_step fun q => reads_pure

lemma forStatement_step :
    (forStatement path ts).Reads s rest ↔
      ∃ clauses mid, (forClauses (path.enter .forStatement) ts).Reads clauses mid ∧
        ∃ body after, (statement (path.enter .forStatement) mid).Reads body after ∧
          .forLoop clauses.initializer clauses.condition clauses.increment body = s ∧ after = rest := by
  rw [forStatement]
  exact reads_step fun p => reads_step fun q => reads_pure

/-! ### Blocks, functions and classes -/

lemma blockItems_step {ss : List (Stmt Unit)} :
    (blockItems path ts).Reads ss rest ↔
      ∃ t us, ts = t :: us ∧ (t.kind = .symbol .rightBrace ∧ ss = [] ∧ us = rest ∨
        t.kind ≠ .eof ∧ t.kind ≠ .symbol .rightBrace ∧
          ∃ s mid, (declaration path ts).Reads s mid ∧
            ∃ more, (blockItems path mid).Reads more rest ∧ s :: more = ss) := by
  rcases ts with _ | ⟨t, us⟩
  · rw [blockItems]
    simp [not_reads_fail]
  · rw [blockItems.eq_def]
    simp only
    split
    · next hk =>
      refine iff_of_false not_reads_fail ?_
      rintro ⟨t', us', ht, ⟨hk', -⟩ | ⟨hk', -⟩⟩
      all_goals
        obtain ⟨rfl, rfl⟩ := List.cons.inj ht
        simp [hk] at hk'
    · next hk =>
      refine reads_pure.trans ?_
      constructor
      · rintro ⟨rfl, rfl⟩
        exact ⟨t, us, rfl, .inl ⟨hk, rfl, rfl⟩⟩
      · rintro ⟨t', us', ht, ⟨-, rfl, rfl⟩ | ⟨-, hk', -⟩⟩
        · exact ⟨rfl, (List.cons.inj ht).2⟩
        · obtain ⟨rfl, rfl⟩ := List.cons.inj ht
          exact absurd hk hk'
    · next he hb =>
      rw [reads_bind]
      constructor
      · rintro ⟨result, hr, h⟩
        rcases result with d | p
        · -- a declaration that fails leaves its diagnostic behind
          obtain ⟨u, hu, -⟩ := reads_bind.1 h
          exact absurd hu not_yields_tell
        · have hd : (declaration path (t :: us)).Yields p := yields_attempt.1 hr
          obtain ⟨q, hq, h⟩ := reads_bind.1 h
          obtain ⟨rfl, rfl⟩ := reads_pure.1 h
          exact ⟨t, us, rfl, .inr ⟨he, hb, p.value, p.rest, reads_of_yields hd, q.value,
            reads_of_yields hq, rfl⟩⟩
      · rintro ⟨t', us', ht, ⟨hk', -⟩ | ⟨-, -, s, mid, ⟨p, hp, rfl, rfl⟩, more, ⟨q, hq, rfl, rfl⟩, rfl⟩⟩
        · obtain ⟨rfl, rfl⟩ := List.cons.inj ht
          exact absurd hk' hb
        · exact ⟨.ok p, yields_attempt.2 hp, reads_bind.2 ⟨q, hq, reads_pure.2 ⟨rfl, rfl⟩⟩⟩

lemma block_eq : block path ts = blockItems (path.enter .block) ts := by rw [block]

lemma function_step {rule : Rule} {f : Method} :
    (function path rule ts).Reads f rest ↔
      ∃ head mid, (signature (path.enter rule) ts).Reads head mid ∧
        ∃ line mid', (symbol (path.enter rule) .leftBrace mid).Reads line mid' ∧
          ∃ ss after, (block (path.enter rule) mid').Reads ss after ∧
            ⟨head.1, head.2, ss⟩ = f ∧ after = rest := by
  rw [function]
  exact reads_step fun p => reads_step fun q => reads_step fun r => reads_pure

lemma members_close (hk : t.kind = .symbol .rightBrace) {ms : List Method × List Method} :
    (members path (t :: us)).Reads ms rest ↔ ms = ([], []) ∧ us = rest := by
  rw [members.eq_def]
  simp only [hk]
  refine reads_pure.trans ?_
  rw [eq_comm (a := ms)]

lemma members_static (hk : t.kind = .keyword .staticKw) {ms : List Method × List Method} :
    (members path (t :: us)).Reads ms rest ↔
      ∃ f mid, (function path .staticMethod us).Reads f mid ∧
        ∃ more after, (members path mid).Reads more after ∧
          (more.1, f :: more.2) = ms ∧ after = rest := by
  rw [members.eq_def]
  simp only [hk]
  exact reads_step fun p => reads_step fun q => reads_pure

lemma members_method (hb : t.kind ≠ .symbol .rightBrace) (hs : t.kind ≠ .keyword .staticKw)
    (he : t.kind ≠ .eof) {ms : List Method × List Method} :
    (members path (t :: us)).Reads ms rest ↔
      ∃ f mid, (function path .method (t :: us)).Reads f mid ∧
        ∃ more after, (members path mid).Reads more after ∧
          (f :: more.1, more.2) = ms ∧ after = rest := by
  rw [members.eq_def]
  simp only
  exact reads_step fun p => reads_step fun q => reads_pure

lemma classDeclaration_step :
    (classDeclaration path ts).Reads s rest ↔
      ∃ head mid, (classHead (path.enter .classDeclaration) ts).Reads head mid ∧
        ∃ ms after, (members (path.enter .classDeclaration) mid).Reads ms after ∧
          .classDecl head.1 head.2 ms.1 ms.2 = s ∧ after = rest := by
  rw [classDeclaration]
  exact reads_step fun p => reads_step fun q => reads_pure

/-! ### Declarations -/

/-- The words with which a declaration begins that is no statement. -/
def declarationWords : List Keyword := [.classKw, .functionKw, .letKw, .constKw]

lemma declaration_class (hk : t.kind = .keyword .classKw) :
    (declaration path (t :: us)).Reads s rest ↔
      (classDeclaration (path.enter .declaration) us).Reads s rest := by
  unfold declaration
  simp only [hk]
  exact reads_behind

lemma declaration_function (hk : t.kind = .keyword .functionKw) :
    (declaration path (t :: us)).Reads s rest ↔
      ∃ f, (function (path.enter .declaration) .function us).Reads f rest ∧ .function f = s := by
  unfold declaration
  simp only [hk]
  exact reads_map_behind

lemma declaration_let (hk : t.kind = .keyword .letKw) :
    (declaration path (t :: us)).Reads s rest ↔
      (letDeclaration (path.enter .declaration) us).Reads s rest := by
  unfold declaration
  simp only [hk]
  exact reads_behind

lemma declaration_const (hk : t.kind = .keyword .constKw) :
    (declaration path (t :: us)).Reads s rest ↔
      (constDeclaration (path.enter .declaration) us).Reads s rest := by
  unfold declaration
  simp only [hk]
  exact reads_behind

lemma declaration_other (hw : ∀ w ∈ declarationWords, t.kind ≠ .keyword w) :
    declaration path (t :: us) = statement (path.enter .declaration) (t :: us) := by
  simp only [declarationWords, List.forall_mem_cons] at hw
  unfold declaration
  simp only
  split <;> simp_all

end ScriptLang.Grammar
