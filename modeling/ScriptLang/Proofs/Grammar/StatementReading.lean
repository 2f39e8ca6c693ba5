import ScriptLang.Proofs.Grammar.StatementSteps

/-!
# Reading statements

The rules for statements and declarations read exactly the sentences of the grammar, and build their trees.

* `statements_sound`, `declaration_sound` — what is read cleanly is a sentence, and where the sentence ends
  in an `if` that could take an `else`, no `else` is left behind it;
* `IsStatement.reads`, `IsDeclaration.reads` — in front of tokens that do not take it on, every sentence is
  read.
-/

namespace ScriptLang.Grammar

open Outcome

variable {path : Path} {ts us rest : List Token} {t : Token} {s : Stmt Unit} {d : Bool}

/-- The tokens do not start with an `else`. -/
def NoElse (ts : List Token) : Prop := ∀ t ∈ ts.head?, t.kind ≠ .keyword .elseKw

lemma LoopFrame.forLoop {initializer : Option (Stmt Unit)} {condition increment : Option (Expr Unit)}
    {body inner tree : Stmt Unit} {test : Expr Unit}
    (hf : LoopFrame (.while test inner) initializer tree) (ht : LoopTest condition test)
    (hb : LoopBody body increment inner) :
    .forLoop initializer condition increment body = tree := by
  cases ht <;> cases hb <;> cases hf <;> rfl

lemma exists_loopFrame (initializer : Option (Stmt Unit)) (condition increment : Option (Expr Unit))
    (body : Stmt Unit) : ∃ test inner, LoopTest condition test ∧ LoopBody body increment inner ∧
      LoopFrame (.while test inner) initializer (.forLoop initializer condition increment body) := by
  obtain ⟨test, ht⟩ : ∃ test, LoopTest condition test := by
    rcases condition with _ | e
    · exact ⟨_, .always⟩
    · exact ⟨_, .test⟩
  obtain ⟨inner, hb⟩ : ∃ inner, LoopBody body increment inner := by
    rcases increment with _ | e
    · exact ⟨_, .plain⟩
    · exact ⟨_, .increment⟩
  obtain ⟨tree, hf⟩ : ∃ tree, LoopFrame (.while test inner) initializer tree := by
    rcases initializer with _ | s
    · exact ⟨_, .plain⟩
    · exact ⟨_, .initialized⟩
  refine ⟨test, inner, ht, hb, ?_⟩
  rw [hf.forLoop ht hb]
  exact hf

/-! ### What is read is a sentence -/

section Soundness

variable {n : Nat}

/-- Statements of fewer than `n` tokens are read soundly. -/
def StatementsSound (n : Nat) : Prop :=
  ∀ (path : Path) (ts : List Token) (s : Stmt Unit) (rest : List Token), ts.length < n →
    (statement path ts).Reads s rest →
      ∃ us d, ts = us ++ rest ∧ IsStatement d us s ∧ (d = true → NoElse rest)

/-- Declarations of fewer than `n` tokens are read soundly. -/
def DeclarationsSound (n : Nat) : Prop :=
  ∀ (path : Path) (ts : List Token) (s : Stmt Unit) (rest : List Token), ts.length < n →
    (declaration path ts).Reads s rest →
      ∃ us d, ts = us ++ rest ∧ IsDeclaration d us s ∧ (d = true → NoElse rest)

lemma blockItems_sound (h : DeclarationsSound n) {ss : List (Stmt Unit)} (hn : ts.length < n)
    (hr : (blockItems path ts).Reads ss rest) :
    ∃ us c, ts = us ++ c :: rest ∧ AreDeclarations us ss ∧ c.kind = .symbol .rightBrace := by
  induction hm : ts.length using Nat.strongRecOn generalizing ts ss with
  | _ m ih =>
  subst hm
  obtain ⟨t, us, rfl, ⟨hk, rfl, rfl⟩ | ⟨-, -, s, mid, hd, more, hmore, rfl⟩⟩ := blockItems_step.1 hr
  · exact ⟨[], t, rfl, .nil, hk⟩
  · obtain ⟨vs, d, hts, hvs, -⟩ := h _ _ _ _ hn hd
    have hlt := hd.length_lt
    obtain ⟨ws, c, rfl, hws, hc⟩ := ih _ hlt (by omega) hmore rfl
    exact ⟨vs ++ ws, c, by rw [hts, List.append_assoc], .cons hvs hws, hc⟩

lemma function_sound (h : DeclarationsSound n) {rule : Rule} {f : Method} (hn : ts.length ≤ n)
    (hr : (function path rule ts).Reads f rest) : ∃ us, ts = us ++ rest ∧ IsFunction us f := by
  obtain ⟨⟨name, params⟩, mid, hs, line, mid', hl, ss, _, hb, rfl, rfl⟩ := function_step.1 hr
  have hlt := hs.length_lt
  have hlt' := hl.length_lt
  obtain ⟨hs', rfl, hsig⟩ := signature_reads.1 hs
  obtain ⟨o, rfl, ho, -⟩ := symbol_reads.1 hl
  rw [block_eq] at hb
  obtain ⟨us, c, rfl, hus, hc⟩ := blockItems_sound h (by omega) hb
  exact ⟨hs' ++ o :: (us ++ [c]), by simp, .mk hsig ho hus hc⟩

lemma members_sound (h : DeclarationsSound n) {ms : List Method × List Method} (hn : ts.length ≤ n)
    (hr : (members path ts).Reads ms rest) :
    ∃ us c, ts = us ++ c :: rest ∧ AreMembers us ms.1 ms.2 ∧ c.kind = .symbol .rightBrace := by
  induction hm : ts.length using Nat.strongRecOn generalizing ts ms with
  | _ m ih =>
  subst hm
  rcases ts with _ | ⟨t, us⟩
  · rw [members.eq_def] at hr
    exact absurd hr not_reads_fail
  rw [List.length_cons] at hn
  by_cases hb : t.kind = .symbol .rightBrace
  · obtain ⟨rfl, rfl⟩ := (members_close hb).1 hr
    exact ⟨[], t, rfl, .nil, hb⟩
  by_cases hs : t.kind = .keyword .staticKw
  · obtain ⟨f, mid, hf, more, _, hmore, rfl, rfl⟩ := (members_static hs).1 hr
    have hlt := hf.length_lt
    obtain ⟨fs, rfl, hfs⟩ := function_sound h (by omega) hf
    obtain ⟨ws, c, rfl, hws, hc⟩ := ih _ (by simp only [List.length_cons]; omega) (by omega) hmore rfl
    exact ⟨t :: (fs ++ ws), c, by simp, .static hs hfs hws, hc⟩
  by_cases he : t.kind = .eof
  · rw [members.eq_def] at hr
    simp only [he] at hr
    exact absurd hr not_reads_fail
  · obtain ⟨f, mid, hf, more, _, hmore, rfl, rfl⟩ := (members_method hb hs he).1 hr
    have hlt := hf.length_lt
    obtain ⟨fs, hts, hfs⟩ := function_sound h (by simpa using hn) hf
    obtain ⟨ws, c, rfl, hws, hc⟩ := ih _ hlt (by simp at hlt ⊢; omega) hmore rfl
    exact ⟨fs ++ ws, c, by rw [hts, List.append_assoc], .method hfs hws, hc⟩

lemma classDeclaration_sound (h : DeclarationsSound n) (hn : ts.length ≤ n)
    (hk : t.kind = .keyword .classKw) (hr : (classDeclaration path ts).Reads s rest) :
    ∃ us, ts = us ++ rest ∧ IsDeclaration false (t :: us) s := by
  obtain ⟨⟨name, parent⟩, mid, hh, ms, _, hm, rfl, rfl⟩ := classDeclaration_step.1 hr
  have hlt := hh.length_lt
  obtain ⟨hs, o, rfl, hhs, ho⟩ := classHead_reads.1 hh
  obtain ⟨us, c, rfl, hus, hc⟩ := members_sound h (by omega) hm
  exact ⟨hs ++ o :: (us ++ [c]), by simp, .classDecl hk hhs ho hus hc⟩

lemma ifStatement_sound (h : StatementsSound n) (hn : ts.length < n) (hk : t.kind = .keyword .ifKw)
    (hr : (ifStatement path ts).Reads s rest) :
    ∃ us d, ts = us ++ rest ∧ IsStatement d (t :: us) s ∧ (d = true → NoElse rest) := by
  obtain ⟨c, mid, hc, yes, after, hy, hafter⟩ := ifStatement_step.1 hr
  have hlt := hc.length_lt
  have hlt' := hy.length_lt
  obtain ⟨cs, rfl, hcs⟩ := condition_reads.1 hc
  obtain ⟨ys, d, rfl, hys, hdy⟩ := h _ _ _ _ (by omega) hy
  rcases hafter with ⟨hne, rfl, rfl⟩ | ⟨o, us, rfl, ho, no, hno, rfl⟩
  · exact ⟨cs ++ ys, true, by simp, .ifThen hk hcs hys, fun _ => hne⟩
  · -- the first branch is followed by an `else`, so it does not end in an open `if`
    have hd : d = false := by
      rcases d with _ | _
      · rfl
      · exact absurd ho (hdy rfl o rfl)
    subst hd
    rw [List.length_cons] at hlt'
    obtain ⟨ns, d, rfl, hns, hd⟩ := h _ _ _ _ (by omega) hno
    exact ⟨cs ++ (ys ++ o :: ns), d, by simp, .ifElse hk hcs hys ho hns, hd⟩

lemma whileStatement_sound (h : StatementsSound n) (hn : ts.length < n)
    (hk : t.kind = .keyword .whileKw) (hr : (whileStatement path ts).Reads s rest) :
    ∃ us d, ts = us ++ rest ∧ IsStatement d (t :: us) s ∧ (d = true → NoElse rest) := by
  obtain ⟨c, mid, hc, body, _, hb, rfl, rfl⟩ := whileStatement_step.1 hr
  have hlt := hc.length_lt
  obtain ⟨cs, rfl, hcs⟩ := condition_reads.1 hc
  obtain ⟨bs, d, rfl, hbs, hd⟩ := h _ _ _ _ (by omega) hb
  exact ⟨cs ++ bs, d, by simp, .while hk hcs hbs, hd⟩

lemma forStatement_sound (h : StatementsSound n) (hn : ts.length < n)
    (hk : t.kind = .keyword .forKw) (hr : (forStatement path ts).Reads s rest) :
    ∃ us d, ts = us ++ rest ∧ IsStatement d (t :: us) s ∧ (d = true → NoElse rest) := by
  obtain ⟨clauses, mid, hc, body, _, hb, rfl, rfl⟩ := forStatement_step.1 hr
  have hlt := hc.length_lt
  obtain ⟨o, is, cs, m, ns, c, rfl, ho, his, hcs, hm, hns, hcl⟩ := forClauses_reads.1 hc
  obtain ⟨bs, d, rfl, hbs, hd⟩ := h _ _ _ _ (by omega) hb
  obtain ⟨test, inner, ht, hi, hf⟩ :=
    exists_loopFrame clauses.initializer clauses.condition clauses.increment body
  exact ⟨o :: (is ++ (cs ++ m :: (ns ++ c :: bs))), d, by simp,
    .for hk ho his hcs hm hns hcl hbs ht hi hf, hd⟩

lemma statement_sound_step (hs : StatementsSound n) (hd : DeclarationsSound n) :
    StatementsSound (n + 1) := by
  intro path ts s rest hn hr
  have plain : (expressionStatement (path.enter .statement) ts).Reads s rest →
      ∃ us d, ts = us ++ rest ∧ IsStatement d us s ∧ (d = true → NoElse rest) := by
    intro hr
    obtain ⟨us, c, e, rfl, hus, hc, rfl⟩ := expressionStatement_reads.1 hr
    exact ⟨us ++ [c], false, by simp, .expr hus hc, fun h => by cases h⟩
  rcases ts with _ | ⟨t, us⟩
  · rw [statement] at hr
    exact plain hr
  rw [List.length_cons, Nat.add_lt_add_iff_right] at hn
  -- the rules behind a keyword give what stands behind it
  have behind : (∃ vs d, us = vs ++ rest ∧ IsStatement d (t :: vs) s ∧ (d = true → NoElse rest)) →
      ∃ vs d, t :: us = vs ++ rest ∧ IsStatement d vs s ∧ (d = true → NoElse rest) := by
    rintro ⟨vs, d, rfl, h⟩
    exact ⟨t :: vs, d, rfl, h⟩
  by_cases hb : t.kind = .symbol .leftBrace
  · obtain ⟨ss, hss, rfl⟩ := (statement_block hb).1 hr
    rw [block_eq] at hss
    obtain ⟨vs, c, rfl, hvs, hc⟩ := blockItems_sound hd hn hss
    exact ⟨t :: (vs ++ [c]), false, by simp, .block hb hvs hc, fun h => by cases h⟩
  by_cases hw : ∃ w ∈ statementWords, t.kind = .keyword w
  · obtain ⟨w, hw, hk⟩ := hw
    simp only [statementWords, List.mem_cons, List.not_mem_nil, or_false] at hw
    rcases hw with rfl | rfl | rfl | rfl | rfl
    · obtain ⟨vs, c, e, rfl, hvs, hc, rfl⟩ := printStatement_reads.1 ((statement_print hk).1 hr)
      exact ⟨t :: (vs ++ [c]), false, by simp, .print hk hvs hc, fun h => by cases h⟩
    · obtain ⟨vs, c, o, rfl, hvs, hc, rfl⟩ := returnStatement_reads.1 ((statement_return hk).1 hr)
      exact ⟨t :: (vs ++ [c]), false, by simp, .return hk hvs hc, fun h => by cases h⟩
    · exact behind (ifStatement_sound hs hn hk ((statement_if hk).1 hr))
    · exact behind (whileStatement_sound hs hn hk ((statement_while hk).1 hr))
    · exact behind (forStatement_sound hs hn hk ((statement_for hk).1 hr))
  · rw [statement_other hb fun w hw' hk => hw ⟨w, hw', hk⟩] at hr
    exact plain hr

lemma declaration_sound_step (hs : StatementsSound (n + 1)) (hd : DeclarationsSound n) :
    DeclarationsSound (n + 1) := by
  intro path ts s rest hn hr
  have plain : ∀ {path : Path}, (statement path ts).Reads s rest →
      ∃ us d, ts = us ++ rest ∧ IsDeclaration d us s ∧ (d = true → NoElse rest) := by
    intro path hr
    obtain ⟨us, d, hts, hus, hd⟩ := hs _ _ _ _ hn hr
    exact ⟨us, d, hts, .statement hus, hd⟩
  rcases ts with _ | ⟨t, us⟩
  · rw [declaration] at hr
    exact plain hr
  by_cases hw : ∃ w ∈ declarationWords, t.kind = .keyword w
  · rw [List.length_cons, Nat.add_lt_add_iff_right] at hn
    obtain ⟨w, hw, hk⟩ := hw
    simp only [declarationWords, List.mem_cons, List.not_mem_nil, or_false] at hw
    rcases hw with rfl | rfl | rfl | rfl
    · obtain ⟨vs, rfl, hvs⟩ := classDeclaration_sound hd (Nat.le_of_lt hn) hk ((declaration_class hk).1 hr)
      exact ⟨t :: vs, false, rfl, hvs, fun h => by cases h⟩
    · obtain ⟨f, hf, rfl⟩ := (declaration_function hk).1 hr
      obtain ⟨vs, rfl, hvs⟩ := function_sound hd (Nat.le_of_lt hn) hf
      exact ⟨t :: vs, false, rfl, .function hk hvs, fun h => by cases h⟩
    · obtain ⟨vs, rfl, hvs⟩ := (letDeclaration_reads hk).1 ((declaration_let hk).1 hr)
      exact ⟨t :: vs, false, rfl, .letVar hvs, fun h => by cases h⟩
    · obtain ⟨i, q, vs, c, e, rfl, hi, hq, hvs, hc, rfl⟩ :=
        constDeclaration_reads.1 ((declaration_const hk).1 hr)
      exact ⟨t :: i :: q :: (vs ++ [c]), false, by simp, .constVar hk hi hq hvs hc,
        fun h => by cases h⟩
  · rw [declaration_other fun w hw' hk => hw ⟨w, hw', hk⟩] at hr
    exact plain hr

lemma statements_sound (n : Nat) : StatementsSound n ∧ DeclarationsSound n := by
  induction n with
  | zero => exact ⟨fun _ _ _ _ hn => absurd hn (Nat.not_lt_zero _), fun _ _ _ _ hn => absurd hn (Nat.not_lt_zero _)⟩
  | succ n ih =>
    have hs := statement_sound_step ih.1 ih.2
    exact ⟨hs, declaration_sound_step hs ih.2⟩

/-- **What is read as a declaration is one**, and no `else` is left that it could take. -/
theorem declaration_sound (h : (declaration path ts).Reads s rest) :
    ∃ us d, ts = us ++ rest ∧ IsDeclaration d us s ∧ (d = true → NoElse rest) :=
  (statements_sound (ts.length + 1)).2 path ts s rest (Nat.lt_succ_self _) h

end Soundness

/-! ### How sentences begin -/

/-- The kinds of token with which a statement can begin. -/
inductive BeginsStatement : Kind → Prop
  | expression {k} : Begins k → BeginsStatement k
  | word {w} : w ∈ statementWords → BeginsStatement (.keyword w)
  | block : BeginsStatement (.symbol .leftBrace)

/-- The kinds of token with which a declaration can begin. -/
inductive BeginsDeclaration : Kind → Prop
  | statement {k} : BeginsStatement k → BeginsDeclaration k
  | word {w} : w ∈ declarationWords → BeginsDeclaration (.keyword w)

lemma IsFunction.begins {f : Method} (h : IsFunction us f) :
    ∃ t vs, us = t :: vs ∧ t.kind = .identifier := by
  cases h with
  | mk hs =>
    cases hs with
    | mk hn => exact ⟨_, _, rfl, hn⟩

lemma IsStatement.begins (h : IsStatement d us s) :
    ∃ t vs, us = t :: vs ∧ BeginsStatement t.kind := by
  cases h with
  | expr he _ =>
    obtain ⟨t, vs, rfl, hb⟩ := he.begins
    exact ⟨t, _, rfl, .expression hb⟩
  | block ho => exact ⟨_, _, rfl, ho ▸ .block⟩
  | print hk | «return» hk | ifThen hk | ifElse hk | «while» hk | «for» hk =>
    exact ⟨_, _, rfl, hk ▸ .word (by decide)⟩

lemma IsLet.begins (h : IsLet us s) : ∃ t vs, us = t :: vs ∧ t.kind = .keyword .letKw := by
  cases h with
  | plain hk | initialized hk => exact ⟨_, _, rfl, hk⟩

lemma IsDeclaration.begins (h : IsDeclaration d us s) :
    ∃ t vs, us = t :: vs ∧ BeginsDeclaration t.kind := by
  cases h with
  | statement h =>
    obtain ⟨t, vs, rfl, hb⟩ := h.begins
    exact ⟨t, vs, rfl, .statement hb⟩
  | letVar h =>
    obtain ⟨t, vs, rfl, hk⟩ := h.begins
    exact ⟨t, vs, rfl, hk ▸ .word (by decide)⟩
  | constVar hk | function hk | classDecl hk => exact ⟨_, _, rfl, hk ▸ .word (by decide)⟩

lemma not_begins_word {w : Keyword} (hw : w ∈ statementWords ++ declarationWords ++ [.elseKw]) :
    ¬ Begins (.keyword w) := by
  intro h
  have hdisjoint : ∀ w ∈ statementWords ++ declarationWords ++ [.elseKw],
      w ∉ [Keyword.trueKw, .falseKw, .nullKw, .thisKw, .superKw] := by decide
  exact hdisjoint w hw h.keyword

lemma BeginsStatement.ne_word {k : Kind} {w : Keyword} (h : BeginsStatement k)
    (hw : w ∈ declarationWords ++ [.elseKw]) : k ≠ .keyword w := by
  cases h with
  | expression hb =>
    rintro rfl
    exact not_begins_word (by rw [List.append_assoc]; exact List.mem_append_right _ hw) hb
  | word hs =>
    rintro ⟨⟩
    have hdisjoint : ∀ w ∈ declarationWords ++ [.elseKw], w ∉ statementWords := by decide
    exact hdisjoint _ hw hs
  | block => exact nofun

/-- A token that begins a declaration closes no block, ends no program and is no `else`. -/
lemma BeginsDeclaration.ne {k : Kind} (h : BeginsDeclaration k) :
    k ≠ .eof ∧ k ≠ .symbol .rightBrace ∧ k ≠ .keyword .elseKw := by
  cases h with
  | word hw => exact ⟨nofun, nofun, fun hk => by cases hk; revert hw; decide⟩
  | statement h =>
    refine ⟨?_, ?_, h.ne_word (by simp)⟩
    · rintro rfl
      cases h with
      | expression hb => exact hb.ne_eof
    · rintro rfl
      cases h with
      | expression hb => exact absurd hb.symbol (by decide)

lemma NoElse.of_kind (h : t.kind ≠ .keyword .elseKw) : NoElse (t :: us) := by
  intro t' ht
  obtain rfl := Option.some.inj ht
  exact h

/-- What stands behind a declaration in a row of them is no `else`. -/
lemma AreDeclarations.noElse {ss : List (Stmt Unit)} (h : AreDeclarations us ss) (hr : NoElse rest) :
    NoElse (us ++ rest) := by
  cases h with
  | nil => exact hr
  | cons hd _ =>
    obtain ⟨t, vs, rfl, hb⟩ := hd.begins
    exact .of_kind hb.ne.2.2

/-! ### Every sentence is read -/

section Completeness

lemma statement_expression (hb : Begins t.kind) :
    statement path (t :: us) = expressionStatement (path.enter .statement) (t :: us) :=
  statement_other (fun hk => absurd (hk ▸ hb).symbol (by decide)) fun _ hw hk =>
    not_begins_word (List.mem_append_left _ (List.mem_append_left _ hw)) (hk ▸ hb)

mutual

/-- **Every statement is read**, in front of tokens that do not take it on. -/
theorem IsStatement.reads {path : Path} {rest : List Token} :
    ∀ {d : Bool} {us : List Token} {s : Stmt Unit}, IsStatement d us s → (d = true → NoElse rest) →
      (statement path (us ++ rest)).Reads s rest
  | _, _, _, @IsStatement.expr ts e c he hc, hd => by
    have hr : ∀ {path : Path}, (expressionStatement path ((ts ++ [c]) ++ rest)).Reads (.expr e) rest :=
      expressionStatement_reads.2 ⟨ts, c, e, by simp, he, hc, rfl⟩
    obtain ⟨t, vs, rfl, hb⟩ := he.begins
    rw [List.cons_append, List.cons_append, statement_expression hb]
    exact hr
  | _, _, _, @IsStatement.print ts e t c hk he hc, hd => by
    refine (statement_print hk).2 (printStatement_reads.2 ⟨ts, c, e, ?_, he, hc, rfl⟩)
    exact List.append_assoc ts [c] rest
  | _, _, _, @IsStatement.return ts o t c hk ho hc, hd => by
    refine (statement_return hk).2 (returnStatement_reads.2 ⟨ts, c, o, ?_, ho, hc, rfl⟩)
    exact List.append_assoc ts [c] rest
  | _, _, _, @IsStatement.block ts ss o c ho hs hc, hd => by
    refine (statement_block ho).2 ⟨ss, ?_, rfl⟩
    rw [block_eq]
    show (blockItems _ ((ts ++ [c]) ++ rest)).Reads ss rest
    rw [List.append_assoc, List.singleton_append]
    exact hs.reads hc
  | _, _, _, @IsStatement.ifThen d cs c ts yes t hk hc hs, hd => by
    refine (statement_if hk).2 (ifStatement_step.2 ⟨c, ts ++ rest, condition_reads.2 ⟨cs, ?_, hc⟩,
      yes, rest, hs.reads fun _ => hd rfl, .inl ⟨hd rfl, rfl, rfl⟩⟩)
    exact List.append_assoc cs ts rest
  | _, _, _, @IsStatement.ifElse d cs c ts yes us no t o hk hc hy ho hn, hd => by
    refine (statement_if hk).2 (ifStatement_step.2 ⟨c, ts ++ o :: (us ++ rest),
      condition_reads.2 ⟨cs, ?_, hc⟩, yes, o :: (us ++ rest), hy.reads nofun,
      .inr ⟨o, us ++ rest, rfl, ho, no, hn.reads hd, rfl⟩⟩)
    simp
  | _, _, _, @IsStatement.while d cs c ts body t hk hc hs, hd => by
    refine (statement_while hk).2 (whileStatement_step.2 ⟨c, ts ++ rest, condition_reads.2 ⟨cs, ?_, hc⟩,
      body, rest, hs.reads hd, rfl, rfl⟩)
    exact List.append_assoc cs ts rest
  | _, _, _, @IsStatement.for d is initializer cs condition test ns increment ts body inner tree t o m c
      hk ho hi hcs hm hns hc hs ht hb hf, hd => by
    refine (statement_for hk).2 (forStatement_step.2 ⟨⟨initializer, condition, increment⟩, ts ++ rest,
      forClauses_reads.2 ⟨o, is, cs, m, ns, c, ?_, ho, hi, hcs, hm, hns, hc⟩, body, rest, hs.reads hd,
      hf.forLoop ht hb, rfl⟩)
    simp

/-- **Every declaration is read**, in front of tokens that do not take it on. -/
theorem IsDeclaration.reads {path : Path} {rest : List Token} :
    ∀ {d : Bool} {us : List Token} {s : Stmt Unit}, IsDeclaration d us s → (d = true → NoElse rest) →
      (declaration path (us ++ rest)).Reads s rest
  | _, us, s, .statement hs, hd => by
    have hr : ∀ {path : Path}, (statement path (us ++ rest)).Reads s rest := hs.reads hd
    obtain ⟨t, vs, rfl, hb⟩ := hs.begins
    rw [List.cons_append, declaration_other fun w hw => hb.ne_word (List.mem_append_left _ hw)]
    exact hr
  | _, _, _, .letVar hl, hd => by
    obtain ⟨t, vs, rfl, hk⟩ := hl.begins
    exact (declaration_let hk).2 ((letDeclaration_reads hk).2 ⟨vs, rfl, hl⟩)
  | _, _, _, @IsDeclaration.constVar ts e t n q c hk hn hq he hc, hd => by
    refine (declaration_const hk).2 (constDeclaration_reads.2 ⟨n, q, ts, c, e, ?_, hn, hq, he, hc, rfl⟩)
    simp
  | _, _, _, @IsDeclaration.function ts f t hk hf, hd => (declaration_function hk).2 ⟨f, hf.reads, rfl⟩
  | _, _, _, @IsDeclaration.classDecl hs name parent ts methods statics t o c hk hh ho hm hc, hd => by
    refine (declaration_class hk).2 (classDeclaration_step.2 ⟨(name, parent), ts ++ c :: rest,
      classHead_reads.2 ⟨hs, o, ?_, hh, ho⟩, (methods, statics), rest, hm.reads hc, rfl, rfl⟩)
    simp

/-- A row of declarations is read up to the brace behind it. -/
theorem AreDeclarations.reads {path : Path} {rest : List Token} {t : Token} :
    ∀ {us : List Token} {ss : List (Stmt Unit)}, AreDeclarations us ss → t.kind = .symbol .rightBrace →
      (blockItems path (us ++ t :: rest)).Reads ss rest
  | _, _, .nil, hk => blockItems_step.2 ⟨t, rest, rfl, .inl ⟨hk, rfl, rfl⟩⟩
  | _, _, @AreDeclarations.cons d ts s us ss hs hss, hk => by
    have hne : NoElse (us ++ t :: rest) := hss.noElse (.of_kind (by simp [hk]))
    have hr : (declaration path _).Reads s _ := hs.reads fun _ => hne
    obtain ⟨t', vs, rfl, hb⟩ := hs.begins
    rw [List.append_assoc]
    exact blockItems_step.2 ⟨t', _, rfl, .inr ⟨hb.ne.1, hb.ne.2.1, s, _, hr, ss, hss.reads hk, rfl⟩⟩

/-- Every function is read. -/
theorem IsFunction.reads {path : Path} {rule : Rule} {rest : List Token} :
    ∀ {us : List Token} {f : Method}, IsFunction us f → (function path rule (us ++ rest)).Reads f rest
  | _, _, @IsFunction.mk hs name params ts body o c hsig ho hb hc => by
    refine function_step.2 ⟨(name, params), o :: (ts ++ c :: rest), signature_reads.2 ⟨hs, ?_, hsig⟩, _, _,
      symbol_reads.2 ⟨o, rfl, ho, rfl⟩, body, rest, ?_, rfl, rfl⟩
    · simp
    · rw [block_eq]
      exact hb.reads hc

/-- The members of a class are read up to the brace behind them. -/
theorem AreMembers.reads {path : Path} {rest : List Token} {t : Token} :
    ∀ {us : List Token} {methods statics : List Method}, AreMembers us methods statics →
      t.kind = .symbol .rightBrace → (members path (us ++ t :: rest)).Reads (methods, statics) rest
  | _, _, _, .nil, hk => (members_close hk).2 ⟨rfl, rfl⟩
  | _, _, _, @AreMembers.method ts f us methods statics hf hm, hk => by
    have hr : (function path .method (ts ++ (us ++ t :: rest))).Reads f (us ++ t :: rest) := hf.reads
    obtain ⟨t', vs, rfl, hi⟩ := hf.begins
    rw [List.append_assoc]
    exact (members_method (by simp [hi]) (by simp [hi]) (by simp [hi])).2
      ⟨f, _, hr, (methods, statics), rest, hm.reads hk, rfl, rfl⟩
  | _, _, _, @AreMembers.static ts f us methods statics t' hk' hf hm, hk => by
    rw [List.cons_append, List.append_assoc]
    exact (members_static hk').2 ⟨f, _, hf.reads, (methods, statics), rest, hm.reads hk, rfl, rfl⟩

end

end Completeness

end ScriptLang.Grammar
