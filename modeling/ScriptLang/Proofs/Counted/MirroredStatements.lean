import ScriptLang.Counted.Statement
import ScriptLang.Proofs.Counted.MirroredExpressions

/-!
# Statements with a counter and without

* `terminated_mirrors`, `condition_mirrors`, `forClauses_mirrors`, `classHead_mirrors` — what statements are made of;
* `forLoop_mirrors` — the loop that a `for` stands for;
* `declaration_mirrors` — the rules for declarations and statements, in the recursion of the rules.
-/

namespace ScriptLang

open Grammar

instance : HasUses (Option (Expr OccurrenceId)) (Option (Expr Unit)) :=
  ⟨Option.map (Expr.relabel id fun _ => ()), Expr.occurrencesOption⟩

instance : HasUses (Stmt OccurrenceId) (Stmt Unit) := ⟨Stmt.relabel id fun _ => (), Stmt.occurrences⟩

instance : HasUses (List (Stmt OccurrenceId)) (List (Stmt Unit)) :=
  ⟨Stmt.relabelList id fun _ => (), Stmt.occurrencesList⟩

instance : HasUses (Option (Stmt OccurrenceId)) (Option (Stmt Unit)) :=
  ⟨Option.map (Stmt.relabel id fun _ => ()), fun s => Stmt.occurrencesList s.toList⟩

instance : HasUses Counted.ForClauses ForClauses where
  forget c := ⟨forget c.initializer, forget c.condition, forget c.increment⟩
  uses c := uses c.initializer ++ (uses c.condition ++ uses c.increment)

instance : HasUses (Ident × Option (Occurrence OccurrenceId)) (Ident × Option (Occurrence Unit)) :=
  ⟨fun p => (p.1, p.2.map (Occurrence.relabel id fun _ => ())), fun p => p.2.toList⟩

instance : HasUses Counted.Method Method := ⟨FunctionDecl.relabel id fun _ => (), FunctionDecl.occurrences⟩

instance : HasUses (List Counted.Method × List Counted.Method) (List Method × List Method) where
  forget p := (FunctionDecl.relabelList id (fun _ => ()) p.1, FunctionDecl.relabelList id (fun _ => ()) p.2)
  uses p := FunctionDecl.occurrencesList p.1 ++ FunctionDecl.occurrencesList p.2

namespace Grammar

variable {n : OccurrenceId} {path : Path} {ts : List Token}

/-! ### Parts of statements -/

lemma terminated_mirrors (n : OccurrenceId) (path : Path) (ts : List Token) :
    Mirrors (Bears n) n (Counted.terminated path ts) (terminated path ts) := by
  refine (expression_mirrors n path ts).next fun e m hm he => ?_
  exact .lift_bind fun close => .pure ⟨rfl, he⟩

lemma letDeclaration_mirrors (n : OccurrenceId) (path : Path) (ts : List Token) :
    Mirrors (Bears n) n (Counted.letDeclaration path ts) (letDeclaration path ts) := by
  refine .lift_bind fun name => ?_
  split
  · exact .lift_bind fun equal => (terminated_mirrors n _ equal.rest).wrap (fun _ => rfl) fun _ => rfl
  · exact .lift_bind fun close => .pure ⟨rfl, .nil⟩

lemma constDeclaration_mirrors (n : OccurrenceId) (path : Path) (ts : List Token) :
    Mirrors (Bears n) n (Counted.constDeclaration path ts) (constDeclaration path ts) := by
  refine .lift_bind fun name => .lift_bind fun equal => ?_
  exact (terminated_mirrors n _ equal.rest).wrap (fun _ => rfl) fun _ => rfl

lemma printStatement_mirrors (n : OccurrenceId) (path : Path) (ts : List Token) :
    Mirrors (Bears n) n (Counted.printStatement path ts) (printStatement path ts) :=
  (terminated_mirrors n _ ts).wrap (fun _ => rfl) fun _ => rfl

lemma returnStatement_mirrors (n : OccurrenceId) (path : Path) (line : Nat) (ts : List Token) :
    Mirrors (Bears n) n (Counted.returnStatement path line ts) (returnStatement path line ts) := by
  unfold Counted.returnStatement returnStatement
  split
  · exact .lift_bind fun close => .pure ⟨rfl, .nil⟩
  · exact (terminated_mirrors n _ ts).wrap (fun _ => rfl) fun _ => rfl

lemma expressionStatement_mirrors (n : OccurrenceId) (path : Path) (ts : List Token) :
    Mirrors (Bears n) n (Counted.expressionStatement path ts) (expressionStatement path ts) :=
  (terminated_mirrors n _ ts).wrap (fun _ => rfl) fun _ => rfl

lemma condition_mirrors (n : OccurrenceId) (path : Path) (ts : List Token) :
    Mirrors (Bears n) n (Counted.condition path ts) (condition path ts) := by
  refine .lift_bind fun opening => (expression_mirrors n path opening.rest).next fun e m hm he => ?_
  exact .lift_bind fun closing => .pure ⟨rfl, he⟩

lemma forInitializer_mirrors (n : OccurrenceId) (path : Path) (ts : List Token) :
    Mirrors (Bears n) n (Counted.forInitializer path ts) (forInitializer path ts) := by
  have huses : ∀ s : Stmt OccurrenceId, uses (some s) = uses s := fun s => List.append_nil s.occurrences
  rcases ts with _ | ⟨t, rest⟩
  · exact (expressionStatement_mirrors n path []).wrap (fun _ => rfl) fun p => huses p.value
  · rw [Counted.forInitializer]
    split
    · next hkind =>
      rw [forInitializer]
      simp only [hkind]
      exact .pure ⟨rfl, .nil⟩
    · next hkind =>
      rw [forInitializer]
      simp only [hkind]
      exact (letDeclaration_mirrors n path rest).wrap (fun _ => rfl) fun p => huses p.value
    · rw [forInitializer]
      split
      iterate 2 contradiction
      exact (expressionStatement_mirrors n path (t :: rest)).wrap (fun _ => rfl) fun p => huses p.value

lemma optionalUntil_mirrors (n : OccurrenceId) (path : Path) (s : Symbol) (ts : List Token) :
    Mirrors (Bears n) n (Counted.optionalUntil path s ts) (optionalUntil path s ts) := by
  unfold Counted.optionalUntil optionalUntil
  split
  · exact .lift_bind fun close => .pure ⟨rfl, .nil⟩
  · refine (expression_mirrors n path ts).next fun e m hm he => ?_
    exact .lift_bind fun close => .pure ⟨rfl, he⟩

lemma forClauses_mirrors (n : OccurrenceId) (path : Path) (ts : List Token) :
    Mirrors (Bears n) n (Counted.forClauses path ts) (forClauses path ts) := by
  refine .lift_bind fun opening => (forInitializer_mirrors n path opening.rest).next fun init m hm hi => ?_
  refine (optionalUntil_mirrors m path .semicolon init.rest).next fun test k hk ht => ?_
  refine (optionalUntil_mirrors k path .rightParen test.rest).next fun incr l hl hincr => ?_
  exact .pure ⟨rfl, hi.append hm (Nat.le_trans hk hl) (ht.append hk hl hincr)⟩

lemma classHead_mirrors (n : OccurrenceId) (path : Path) (ts : List Token) :
    Mirrors (Bears n) n (Counted.classHead path ts) (classHead path ts) := by
  refine .lift_bind fun name => ?_
  obtain ⟨name, _ | ⟨t, rest⟩, proper⟩ := name
  · exact .fail _ _ _
  · by_cases hkind : t.kind = .keyword .extendsKw
    · simp only [hkind]
      exact .lift_bind fun parent => .numbered_bind (Nat.le_succ n) (.lift_bind fun opening => .pure ⟨rfl, .single⟩)
    · simp only
      exact .lift_bind fun opening => .pure ⟨rfl, .nil⟩

/-! ### Statements inside statements -/

/-- The loop that a `for` stands for has the uses of its parts, in another order. -/
lemma forLoop_mirrors (c : Counted.ForClauses) (body : Stmt OccurrenceId) :
    forget (Stmt.forLoop c.initializer c.condition c.increment body) =
        Stmt.forLoop (forget c).initializer (forget c).condition (forget c).increment (forget body) ∧
      (uses (Stmt.forLoop c.initializer c.condition c.increment body)).Perm (uses c ++ uses body) := by
  obtain ⟨init, test, incr⟩ := c
  have horder : uses (Stmt.forLoop init test incr body) = uses init ++ (uses test ++ (uses body ++ uses incr)) := by
    rcases init with _ | s <;> rcases test with _ | e <;> rcases incr with _ | i <;>
      simp [Stmt.forLoop, uses, Stmt.occurrences, Stmt.occurrencesList, Expr.occurrencesOption, Expr.occurrences]
  refine ⟨?_, ?_⟩
  · rcases init with _ | s <;> rcases test with _ | e <;> rcases incr with _ | i <;> rfl
  · rw [horder]
    show (uses init ++ (uses test ++ (uses body ++ uses incr))).Perm
      ((uses init ++ (uses test ++ uses incr)) ++ uses body)
    rw [List.append_assoc, List.append_assoc]
    exact (List.perm_append_comm.append_left _).append_left _

mutual

theorem declaration_mirrors (n : OccurrenceId) (path : Path) (ts : List Token) :
    Mirrors (Bears n) n (Counted.declaration path ts) (declaration path ts) := by
  rcases ts with _ | ⟨t, rest⟩
  · rw [Counted.declaration, declaration]
    exact statement_mirrors n _ []
  · rw [Counted.declaration]
    split
    · next hkind =>
      rw [declaration]
      simp only [hkind]
      exact (classDeclaration_mirrors n _ rest).wrap (fun _ => rfl) fun _ => rfl
    · next hkind =>
      rw [declaration]
      simp only [hkind]
      exact (function_mirrors n _ .function rest).wrap (fun _ => rfl) fun _ => rfl
    · next hkind =>
      rw [declaration]
      simp only [hkind]
      exact (letDeclaration_mirrors n _ rest).wrap (fun _ => rfl) fun _ => rfl
    · next hkind =>
      rw [declaration]
      simp only [hkind]
      exact (constDeclaration_mirrors n _ rest).wrap (fun _ => rfl) fun _ => rfl
    · rw [declaration]
      split
      iterate 4 contradiction
      exact statement_mirrors n _ (t :: rest)
termination_by (ts.length, 1)

theorem classDeclaration_mirrors (n : OccurrenceId) (path : Path) (ts : List Token) :
    Mirrors (Bears n) n (Counted.classDeclaration path ts) (classDeclaration path ts) := by
  rw [Counted.classDeclaration, classDeclaration]
  refine (classHead_mirrors n _ ts).next fun head m hm hh => ?_
  refine (members_mirrors m _ head.rest).next fun body k hk hb => ?_
  refine .pure ⟨rfl, ?_⟩
  show Fresh n k (uses head.value ++ FunctionDecl.occurrencesList body.value.1
    ++ FunctionDecl.occurrencesList body.value.2)
  rw [List.append_assoc]
  exact hh.append hm hk hb
termination_by (ts.length, 0)
decreasing_by exact Prod.Lex.left _ _ head.proper.length_lt

theorem members_mirrors (n : OccurrenceId) (path : Path) (ts : List Token) :
    Mirrors (Bears n) n (Counted.members path ts) (members path ts) := by
  rcases ts with _ | ⟨t, rest⟩
  · rw [Counted.members, members]
    exact .fail _ _ _
  · rw [Counted.members]
    split
    · next hkind =>
      rw [members]
      simp only [hkind]
      exact .pure ⟨rfl, .nil⟩
    · next hkind =>
      rw [members]
      simp only [hkind]
      refine (function_mirrors n _ .staticMethod rest).next fun method m hm hmethod => ?_
      refine (members_mirrors m path method.rest).next fun more k hk hmore => ?_
      -- A static method stands behind all other methods in the tree, wherever it was read.
      exact .pure ⟨rfl, (hmethod.append hm hk hmore).perm (List.perm_append_comm_assoc _ _ _)⟩
    · next hkind =>
      rw [members]
      simp only [hkind]
      exact .fail _ _ _
    · rw [members]
      split
      iterate 3 contradiction
      refine (function_mirrors n _ .method (t :: rest)).next fun method m hm hmethod => ?_
      refine (members_mirrors m path method.rest).next fun more k hk hmore => ?_
      refine .pure ⟨rfl, ?_⟩
      show Fresh n k ((uses method.value ++ FunctionDecl.occurrencesList more.value.1)
        ++ FunctionDecl.occurrencesList more.value.2)
      rw [List.append_assoc]
      exact hmethod.append hm hk hmore
termination_by (ts.length, 1)
decreasing_by
  · exact Prod.Lex.left _ _ (by simp)
  · exact Prod.Lex.left _ _ method.proper.cons.length_lt
  · exact Prod.Lex.right _ (by simp)
  · exact Prod.Lex.left _ _ method.proper.length_lt

theorem function_mirrors (n : OccurrenceId) (path : Path) (rule : Rule) (ts : List Token) :
    Mirrors (Bears n) n (Counted.function path rule ts) (function path rule ts) := by
  rw [Counted.function, function]
  refine .lift_bind fun head => .lift_bind fun opening => ?_
  refine (block_mirrors n _ opening.rest).wrap (fun body => ?_) fun _ => rfl
  exact congrArg (fun ps => Parsed.mk (FunctionDecl.mk head.value.1 ps (forget body.value)) body.rest _)
    (List.map_id head.value.2)
termination_by (ts.length, 0)
decreasing_by exact Prod.Lex.left _ _ (opening.proper.trans head.proper).length_lt

theorem statement_mirrors (n : OccurrenceId) (path : Path) (ts : List Token) :
    Mirrors (Bears n) n (Counted.statement path ts) (statement path ts) := by
  rcases ts with _ | ⟨t, rest⟩
  · rw [Counted.statement, statement]
    exact expressionStatement_mirrors n _ []
  · rw [Counted.statement]
    split
    · next hkind =>
      rw [statement]
      simp only [hkind]
      exact (printStatement_mirrors n _ rest).wrap (fun _ => rfl) fun _ => rfl
    · next hkind =>
      rw [statement]
      simp only [hkind]
      exact (returnStatement_mirrors n _ t.line rest).wrap (fun _ => rfl) fun _ => rfl
    · next hkind =>
      rw [statement]
      simp only [hkind]
      exact (block_mirrors n _ rest).wrap (fun _ => rfl) fun _ => rfl
    · next hkind =>
      rw [statement]
      simp only [hkind]
      exact (ifStatement_mirrors n _ rest).wrap (fun _ => rfl) fun _ => rfl
    · next hkind =>
      rw [statement]
      simp only [hkind]
      exact (whileStatement_mirrors n _ rest).wrap (fun _ => rfl) fun _ => rfl
    · next hkind =>
      rw [statement]
      simp only [hkind]
      exact (forStatement_mirrors n _ rest).wrap (fun _ => rfl) fun _ => rfl
    · rw [statement]
      split
      iterate 6 contradiction
      exact expressionStatement_mirrors n _ (t :: rest)
termination_by (ts.length, 0)

theorem ifStatement_mirrors (n : OccurrenceId) (path : Path) (ts : List Token) :
    Mirrors (Bears n) n (Counted.ifStatement path ts) (ifStatement path ts) := by
  rw [Counted.ifStatement, ifStatement]
  refine (condition_mirrors n _ ts).next fun test m hm ht => ?_
  refine (statement_mirrors m _ test.rest).next fun yes k hk hy => ?_
  obtain ⟨yes, _ | ⟨t, rest⟩, proper⟩ := yes
  · exact .pure ⟨rfl, ht.append hm hk hy⟩
  · have proper' : ProperSuffix rest test.rest := proper.of_cons
    simp only [Parsed.map]
    by_cases hkind : t.kind = .keyword .elseKw
    · simp only [hkind]
      refine (statement_mirrors k _ rest).next fun no l hl hn => ?_
      exact .pure ⟨rfl, (ht.append hm hk hy).append (Nat.le_trans hm hk) hl hn⟩
    · simp only
      exact .pure ⟨rfl, ht.append hm hk hy⟩
termination_by (ts.length, 0)
decreasing_by
  · exact Prod.Lex.left _ _ test.proper.length_lt
  · exact Prod.Lex.left _ _ (proper'.trans test.proper).length_lt

theorem whileStatement_mirrors (n : OccurrenceId) (path : Path) (ts : List Token) :
    Mirrors (Bears n) n (Counted.whileStatement path ts) (whileStatement path ts) := by
  rw [Counted.whileStatement, whileStatement]
  refine (condition_mirrors n _ ts).next fun test m hm ht => ?_
  refine (statement_mirrors m _ test.rest).next fun body k hk hb => ?_
  exact .pure ⟨rfl, ht.append hm hk hb⟩
termination_by (ts.length, 0)
decreasing_by exact Prod.Lex.left _ _ test.proper.length_lt

theorem forStatement_mirrors (n : OccurrenceId) (path : Path) (ts : List Token) :
    Mirrors (Bears n) n (Counted.forStatement path ts) (forStatement path ts) := by
  rw [Counted.forStatement, forStatement]
  refine (forClauses_mirrors n _ ts).next fun head m hm hh => ?_
  refine (statement_mirrors m _ head.rest).next fun body k hk hb => ?_
  obtain ⟨hforget, hperm⟩ := forLoop_mirrors head.value body.value
  exact .pure ⟨congrArg (fun s => Parsed.mk s body.rest _) hforget, (hh.append hm hk hb).perm hperm⟩
termination_by (ts.length, 0)
decreasing_by exact Prod.Lex.left _ _ head.proper.length_lt

theorem block_mirrors (n : OccurrenceId) (path : Path) (ts : List Token) :
    Mirrors (Bears n) n (Counted.block path ts) (block path ts) := by
  rw [Counted.block, block]
  exact blockItems_mirrors n _ ts
termination_by (ts.length, 3)

theorem blockItems_mirrors (n : OccurrenceId) (path : Path) (ts : List Token) :
    Mirrors (Bears n) n (Counted.blockItems path ts) (blockItems path ts) := by
  rcases ts with _ | ⟨t, rest⟩
  · rw [Counted.blockItems, blockItems]
    exact .fail _ _ _
  · rw [Counted.blockItems]
    split
    · next hkind =>
      rw [blockItems]
      simp only [hkind]
      exact .fail _ _ _
    · next hkind =>
      rw [blockItems]
      simp only [hkind]
      exact .pure ⟨rfl, .nil⟩
    · rw [blockItems]
      split
      iterate 2 contradiction
      refine (declaration_mirrors n path (t :: rest)).attempt.bind fun r r' m hm h => ?_
      cases h with
      | @ok s _ h =>
        obtain ⟨rfl, hs⟩ := h
        refine (blockItems_mirrors m path s.rest).next fun more k hk hmore => ?_
        exact .pure ⟨rfl, hs.append hm hk hmore⟩
      | error d =>
        refine .lift_bind fun _ => ?_
        refine (blockItems_mirrors m path (resume d rest)).next fun more k hk hmore => ?_
        exact .pure ⟨rfl, hmore.mono hm (Nat.le_refl k)⟩
termination_by (ts.length, 2)
decreasing_by
  · exact Prod.Lex.right _ (by simp)
  · exact Prod.Lex.left _ _ s.proper.length_lt
  · exact Prod.Lex.left _ _ (resume_proper d t rest).length_lt

end

end Grammar

end ScriptLang
