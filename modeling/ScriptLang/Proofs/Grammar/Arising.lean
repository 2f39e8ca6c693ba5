import Mathlib.Tactic.Lemma
import ScriptLang.Grammar.Program

/-!
# Where diagnostics arise

A diagnostic is about the first of the tokens that some rule was given.  The rule was applied by another one, to
what was left of that one's tokens, and so on outwards.

* `Rule.callees` — which rules a rule applies;
* `Arises` — how a diagnostic comes up in an application of a rule;
* `Outcome.Raises` — a property of all diagnostics of an outcome, failures and reports alike;
* `Arises.located` — the place of a diagnostic, read off its arising;
* `expression_raises`, `declaration_raises`, … — the diagnostics of each rule arise in it;
* `Program.parse_arises` — and so do those of a program.
-/

namespace ScriptLang

/-- The rules that a rule applies. -/
def Rule.callees : Rule → List Rule
  | program | block => [declaration]
  | declaration => [classDeclaration, function, letDeclaration, constDeclaration, statement]
  | classDeclaration => [method, staticMethod]
  | function | method | staticMethod => [block]
  | statement =>
    [printStatement, returnStatement, block, ifStatement, whileStatement, forStatement, expressionStatement]
  | letDeclaration | constDeclaration | printStatement | returnStatement | expressionStatement => [expression]
  | ifStatement | whileStatement => [expression, statement]
  | forStatement => [letDeclaration, expressionStatement, expression, statement]
  | expression => [assignment]
  | assignment => [assignment, logicalOr]
  | logicalOr => [logicalAnd]
  | logicalAnd => [equality]
  | equality => [comparison]
  | comparison => [addition]
  | addition => [mod]
  | mod => [multiplication]
  | multiplication => [nullCoalescing]
  | nullCoalescing => [unary]
  | unary => [unary, call]
  | call => [primary, expression]
  | primary => [expression]

/-- The diagnostic comes up when the rule is applied to the tokens inside the rules of the path: at the first of
them, at a later one, or in a rule that this one applies. -/
inductive Arises : Rule → Path → List Token → Diagnostic → Prop
  | here {rule : Rule} {path : Path} (error : GrammarError) (ts : List Token) :
    Arises rule path ts ((path.enter rule).diagnostic error ts)
  | later {rule : Rule} {path : Path} {ts us : List Token} {d : Diagnostic} (h : us <:+ ts) :
    Arises rule path us d → Arises rule path ts d
  | inside {rule inner : Rule} {path : Path} {ts : List Token} {d : Diagnostic} (h : inner ∈ rule.callees) :
    Arises inner (path.enter rule) ts d → Arises rule path ts d

/-- The diagnostic is about a place in the tokens: it tells the token there, none if it is the end of them, and how
many there are from it on. -/
def Diagnostic.Locates (d : Diagnostic) (ts : List Token) : Prop :=
  d.remaining ≤ ts.length ∧ d.token = (ts.drop (ts.length - d.remaining)).head?

/-- What is left of a list is what remains when the rest is dropped. -/
lemma drop_of_suffix {α : Type} {us ts : List α} (h : us <:+ ts) : ts.drop (ts.length - us.length) = us := by
  obtain ⟨vs, rfl⟩ := h
  rw [List.length_append, Nat.add_sub_cancel, List.drop_left]

/-- **A diagnostic is about a place in the tokens of the rule in which it arises.** -/
theorem Arises.located {rule : Rule} {path : Path} {ts : List Token} {d : Diagnostic} (h : Arises rule path ts d) :
    d.Locates ts := by
  have hplace : ∃ us, us <:+ ts ∧ d.token = us.head? ∧ d.remaining = us.length := by
    induction h with
    | here error ts => exact ⟨ts, List.suffix_rfl, rfl, rfl⟩
    | later hs _ ih =>
      obtain ⟨us, hus, hd⟩ := ih
      exact ⟨us, hus.trans hs, hd⟩
    | inside _ _ ih => exact ih
  obtain ⟨us, hus, htoken, hremaining⟩ := hplace
  unfold Diagnostic.Locates
  rw [htoken, hremaining, drop_of_suffix hus]
  exact ⟨hus.length_le, rfl⟩

/-! ### Diagnostics of outcomes -/

namespace Outcome

variable {α β : Type} {P Q : Diagnostic → Prop} {x : Outcome α}

/-- All diagnostics of an outcome: what was reported, and what it failed with. -/
def diagnostics (x : Outcome α) : List Diagnostic :=
  x.reported ++ match x.result with
    | .ok _ => []
    | .error d => [d]

/-- All diagnostics of the outcome have the property. -/
def Raises (P : Diagnostic → Prop) (x : Outcome α) : Prop := ∀ d ∈ x.diagnostics, P d

lemma Raises.mono (h : x.Raises P) (hPQ : ∀ d, P d → Q d) : x.Raises Q := fun d hd => hPQ d (h d hd)

lemma Raises.failure {d : Diagnostic} (h : x.Raises P) (hd : x.result = .error d) : P d := by
  refine h d (List.mem_append_right _ ?_)
  rw [hd]
  exact List.mem_singleton_self d

lemma raises_pure {a : α} : (pure a : Outcome α).Raises P := fun _ hd => absurd hd List.not_mem_nil

lemma raises_fail {path : Path} {error : GrammarError} {ts : List Token} (h : P (path.diagnostic error ts)) :
    (path.fail error ts : Outcome α).Raises P := by
  intro d hd
  obtain rfl := List.mem_singleton.1 hd
  exact h

lemma raises_tell {d : Diagnostic} (h : P d) : (tell d).Raises P := by
  intro d' hd
  obtain rfl := List.mem_singleton.1 hd
  exact h

lemma raises_reportIf {path : Path} {condition : Bool} {error : GrammarError} {ts : List Token}
    (h : P (path.diagnostic error ts)) : (path.reportIf condition error ts).Raises P := by
  unfold Path.reportIf
  split
  · exact raises_tell h
  · exact raises_pure

/-- A failure that becomes a value is no diagnostic any more. -/
lemma Raises.attempt (h : x.Raises P) : x.attempt.Raises P := by
  intro d hd
  rw [diagnostics, Outcome.attempt, List.append_nil] at hd
  exact h d (List.mem_append_left _ hd)

lemma Raises.bind {f : α → Outcome β} (h : x.Raises P) (hf : ∀ a, x.result = .ok a → (f a).Raises P) :
    (x >>= f).Raises P := by
  obtain ⟨result, reported⟩ := x
  rcases result with d | a
  · exact h
  · have hreported := fun d hd => h d (List.mem_append_left _ hd)
    intro d hd
    have hd : d ∈ (reported ++ (f a).reported) ++ match (f a).result with
      | .ok _ => []
      | .error d => [d] := hd
    rw [List.append_assoc] at hd
    rcases List.mem_append.1 hd with hd | hd
    · exact hreported d hd
    · exact hf a rfl d hd

/-- Another value of the same outcome. -/
lemma Raises.map {f : α → β} (h : x.Raises P) : (do return f (← x)).Raises P := h.bind fun _ _ => raises_pure

end Outcome

/-! ### Expressions -/

namespace Grammar

open Outcome

variable {rule inner : Rule} {path : Path} {ts us : List Token} {α : Type}

/-- The diagnostics of what a rule reads from later tokens on arise in the rule. -/
lemma raises_later {x : Outcome α} (h : us <:+ ts) (hx : x.Raises (Arises rule path us)) :
    x.Raises (Arises rule path ts) := hx.mono fun _ => .later h

/-- The diagnostics of a rule that is applied arise in the rule that applies it. -/
lemma raises_inside {x : Outcome α} (hx : x.Raises (Arises inner (path.enter rule) ts))
    (h : inner ∈ rule.callees := by decide) : x.Raises (Arises rule path ts) := hx.mono fun _ => .inside h

lemma symbol_raises (s : Symbol) (ts : List Token) :
    (symbol (path.enter rule) s ts).Raises (Arises rule path ts) := by
  rcases ts with _ | ⟨t, rest⟩
  · exact raises_fail (.here _ _)
  · rw [symbol]
    split
    · split
      · exact raises_pure
      · exact raises_fail (.here _ _)
    · exact raises_fail (.here _ _)

lemma identifier_raises (ts : List Token) : (identifier (path.enter rule) ts).Raises (Arises rule path ts) := by
  rcases ts with _ | ⟨t, rest⟩
  · exact raises_fail (.here _ _)
  · rw [identifier]
    split
    · exact raises_pure
    · exact raises_fail (.here _ _)

/-- The rule that reads the operands of the level in front of the given ones. -/
def operandRule : List Level → Rule
  | [] => .unary
  | level :: _ => level.rule

lemma operandRule_mem {level : Level} {tighter : List Level} (h : level :: tighter <:+ Level.all) :
    operandRule tighter ∈ level.rule.callees := by
  simp only [Level.all, List.suffix_cons_iff, List.cons.injEq, List.suffix_nil, List.cons_ne_nil,
    or_false] at h
  rcases h with ⟨rfl, rfl⟩ | ⟨rfl, rfl⟩ | ⟨rfl, rfl⟩ | ⟨rfl, rfl⟩ | ⟨rfl, rfl⟩ | ⟨rfl, rfl⟩ | ⟨rfl, rfl⟩ |
    ⟨rfl, rfl⟩ <;> decide

mutual

theorem expression_raises (path : Path) (ts : List Token) :
    (expression path ts).Raises (Arises .expression path ts) := by
  rw [expression]
  exact raises_inside (assignment_raises _ ts)
termination_by (ts.length, 13)

theorem assignment_raises (path : Path) (ts : List Token) :
    (assignment path ts).Raises (Arises .assignment path ts) := by
  rw [assignment]
  refine (raises_inside (operators_raises _ Level.all List.suffix_rfl ts)).bind fun target _ => ?_
  split
  · exact raises_pure
  · next t rest hr =>
    split
    · have proper : ProperSuffix rest ts := (hr ▸ target.proper).of_cons
      refine (raises_later proper.suffix (raises_inside (assignment_raises _ rest))).bind fun value _ => ?_
      split
      · exact raises_pure
      · refine Raises.bind ?_ fun _ _ => raises_pure
        exact raises_tell (.later (hr ▸ target.proper.suffix) (.here _ _))
    · exact raises_pure
termination_by (ts.length, 12)
decreasing_by
  · simp [Level.all, Prod.lex_def]
  · exact Prod.Lex.left _ _ proper.length_lt

theorem operators_raises : ∀ (path : Path) (levels : List Level), levels <:+ Level.all → ∀ ts : List Token,
    (operators path levels ts).Raises (Arises (operandRule levels) path ts)
  | path, [], _, ts => by
    rw [operators]
    exact unary_raises path ts
  | path, level :: tighter, h, ts => by
    rw [operators]
    have htighter : tighter <:+ Level.all := (List.suffix_cons level tighter).trans h
    have hleft := operators_raises (path.enter level.rule) tighter htighter ts
    refine (raises_inside hleft (operandRule_mem h)).bind fun left _ => ?_
    exact raises_later left.proper.suffix (chain_raises path level tighter h left)
termination_by _ levels _ ts => (ts.length, levels.length + 3)
decreasing_by
  · exact Prod.Lex.right _ (by simp)
  · exact Prod.Lex.right _ (by simp)
  · exact Prod.Lex.left _ _ left.proper.length_lt

theorem chain_raises (path : Path) (level : Level) (tighter : List Level) (h : level :: tighter <:+ Level.all)
    {ts : List Token} (left : Parsed (Expr Unit) ts) :
    (chain (path.enter level.rule) level tighter left).Raises (Arises level.rule path left.rest) := by
  rw [chain]
  split
  · exact raises_pure
  · next t rest hr =>
    split
    · exact raises_pure
    · have htighter : tighter <:+ Level.all := (List.suffix_cons level tighter).trans h
      have proper : ProperSuffix rest left.rest := hr ▸ .tail
      have hright := operators_raises (path.enter level.rule) tighter htighter rest
      refine raises_later proper.suffix ?_
      refine (raises_inside hright (operandRule_mem h)).bind fun right _ => ?_
      exact raises_later right.proper.suffix (chain_raises path level tighter h _)
termination_by (left.rest.length, 0)
decreasing_by
  · exact Prod.Lex.left _ _ proper.length_lt
  · exact Prod.Lex.left _ _ (right.proper.trans proper).length_lt

theorem unary_raises (path : Path) (ts : List Token) : (unary path ts).Raises (Arises .unary path ts) := by
  rcases ts with _ | ⟨t, rest⟩
  · rw [unary]
    exact raises_inside (call_raises _ [])
  · rw [unary]
    split
    · exact raises_inside (call_raises _ _)
    · exact (raises_later (List.suffix_cons t rest) (raises_inside (unary_raises _ rest))).map
termination_by (ts.length, 2)

theorem call_raises (path : Path) (ts : List Token) : (call path ts).Raises (Arises .call path ts) := by
  rw [call]
  refine (raises_inside (primary_raises _ ts)).bind fun callee _ => ?_
  exact raises_later callee.proper.suffix (calls_raises path callee)
termination_by (ts.length, 1)
decreasing_by
  · exact Prod.Lex.right _ (by simp)
  · exact Prod.Lex.left _ _ callee.proper.length_lt

theorem calls_raises (path : Path) {ts : List Token} (callee : Parsed (Expr Unit) ts) :
    (calls (path.enter .call) callee).Raises (Arises .call path callee.rest) := by
  rw [calls]
  split
  · exact raises_pure
  · next t rest hr =>
    have proper : ProperSuffix rest callee.rest := hr ▸ .tail
    simp only
    split
    · refine raises_later proper.suffix ?_
      refine (arguments_raises path 0 rest).bind fun args _ => ?_
      exact raises_later args.proper.suffix (calls_raises path _)
    · refine raises_later proper.suffix ?_
      refine (identifier_raises rest).bind fun name _ => ?_
      exact raises_later name.proper.suffix (calls_raises path _)
    · exact raises_pure
termination_by (callee.rest.length, 0)
decreasing_by
  · exact Prod.Lex.left _ _ proper.length_lt
  · exact Prod.Lex.left _ _ (args.proper.trans proper).length_lt
  · exact Prod.Lex.left _ _ (name.proper.trans proper).length_lt

theorem arguments_raises (path : Path) (count : Nat) (ts : List Token) :
    (arguments (path.enter .call) count ts).Raises (Arises .call path ts) := by
  rw [arguments]
  split
  · exact (symbol_raises .rightParen ts).map
  · refine (raises_reportIf (.here _ _)).bind fun _ _ => ?_
    refine (raises_inside (expression_raises _ ts)).bind fun arg _ => ?_
    split
    · next hr => exact raises_fail (.later (hr ▸ arg.proper.suffix) (.here _ _))
    · next t rest hr =>
      have proper : ProperSuffix rest ts := (hr ▸ arg.proper).of_cons
      split
      · exact (raises_later proper.suffix (arguments_raises path (count + 1) rest)).map
      · exact raises_pure
      · exact raises_fail (.later (hr ▸ arg.proper.suffix) (.here _ _))
termination_by (ts.length, 14)
decreasing_by
  · exact Prod.Lex.right _ (by simp)
  · exact Prod.Lex.left _ _ proper.length_lt

theorem primary_raises (path : Path) (ts : List Token) : (primary path ts).Raises (Arises .primary path ts) := by
  rcases ts with _ | ⟨t, rest⟩
  · rw [primary]
    exact raises_fail (.here _ _)
  · rw [primary]
    split
    · refine raises_later (List.suffix_cons t rest) ?_
      refine (raises_inside (expression_raises _ rest)).bind fun inner _ => ?_
      exact (raises_later inner.proper.suffix (symbol_raises .rightParen inner.rest)).map
    · split
      · exact raises_pure
      · exact raises_fail (.here _ _)
termination_by (ts.length, 0)

end

/-! ### Parts of statements -/

lemma terminated_raises (h : Rule.expression ∈ rule.callees) (ts : List Token) :
    (terminated (path.enter rule) ts).Raises (Arises rule path ts) := by
  refine (raises_inside (expression_raises _ ts) h).bind fun e _ => ?_
  exact (raises_later e.proper.suffix (symbol_raises .semicolon e.rest)).map

lemma letDeclaration_raises (path : Path) (ts : List Token) :
    (letDeclaration path ts).Raises (Arises .letDeclaration path ts) := by
  refine (identifier_raises ts).bind fun name _ => raises_later name.proper.suffix ?_
  split
  · refine (symbol_raises .equal name.rest).bind fun equal _ => ?_
    exact (raises_later equal.proper.suffix (terminated_raises (by decide) equal.rest)).map
  · exact (symbol_raises .semicolon name.rest).map

lemma constDeclaration_raises (path : Path) (ts : List Token) :
    (constDeclaration path ts).Raises (Arises .constDeclaration path ts) := by
  refine (identifier_raises ts).bind fun name _ => raises_later name.proper.suffix ?_
  refine (symbol_raises .equal name.rest).bind fun equal _ => raises_later equal.proper.suffix ?_
  exact (terminated_raises (by decide) equal.rest).map

lemma printStatement_raises (path : Path) (ts : List Token) :
    (printStatement path ts).Raises (Arises .printStatement path ts) := (terminated_raises (by decide) ts).map

lemma returnStatement_raises (path : Path) (line : Nat) (ts : List Token) :
    (returnStatement path line ts).Raises (Arises .returnStatement path ts) := by
  unfold returnStatement
  simp only
  split
  · exact (symbol_raises .semicolon ts).map
  · exact (terminated_raises (by decide) ts).map

lemma expressionStatement_raises (path : Path) (ts : List Token) :
    (expressionStatement path ts).Raises (Arises .expressionStatement path ts) :=
  (terminated_raises (by decide) ts).map

lemma parameters_raises (path : Path) (count : Nat) (ts : List Token) :
    (parameters (path.enter rule) count ts).Raises (Arises rule path ts) := by
  rw [parameters]
  split
  · exact (symbol_raises .rightParen ts).map
  · refine (raises_reportIf (.here _ _)).bind fun _ _ => ?_
    refine (identifier_raises ts).bind fun name _ => ?_
    split
    · next hr => exact raises_fail (.later (hr ▸ name.proper.suffix) (.here _ _))
    · next t rest hr =>
      have proper : ProperSuffix rest ts := (hr ▸ name.proper).of_cons
      split
      · exact (raises_later proper.suffix (parameters_raises path (count + 1) rest)).map
      · exact raises_pure
      · exact raises_fail (.later (hr ▸ name.proper.suffix) (.here _ _))
termination_by ts.length
decreasing_by exact proper.length_lt

lemma condition_raises (h : Rule.expression ∈ rule.callees) (ts : List Token) :
    (condition (path.enter rule) ts).Raises (Arises rule path ts) := by
  refine (symbol_raises .leftParen ts).bind fun opening _ => raises_later opening.proper.suffix ?_
  refine (raises_inside (expression_raises _ opening.rest) h).bind fun e _ => ?_
  exact (raises_later e.proper.suffix (symbol_raises .rightParen e.rest)).map

lemma forInitializer_raises (path : Path) (ts : List Token) :
    (forInitializer (path.enter .forStatement) ts).Raises (Arises .forStatement path ts) := by
  rcases ts with _ | ⟨t, rest⟩
  · exact (raises_inside (expressionStatement_raises _ [])).map
  · rw [forInitializer]
    split
    · exact raises_pure
    · exact (raises_later (List.suffix_cons t rest) (raises_inside (letDeclaration_raises _ rest))).map
    · exact (raises_inside (expressionStatement_raises _ _)).map

lemma optionalUntil_raises (s : Symbol) (h : Rule.expression ∈ rule.callees) (ts : List Token) :
    (optionalUntil (path.enter rule) s ts).Raises (Arises rule path ts) := by
  unfold optionalUntil
  split
  · exact (symbol_raises s ts).map
  · refine (raises_inside (expression_raises _ ts) h).bind fun e _ => ?_
    exact (raises_later e.proper.suffix (symbol_raises s e.rest)).map

lemma forClauses_raises (path : Path) (ts : List Token) :
    (forClauses (path.enter .forStatement) ts).Raises (Arises .forStatement path ts) := by
  refine (symbol_raises .leftParen ts).bind fun opening _ => raises_later opening.proper.suffix ?_
  refine (forInitializer_raises path opening.rest).bind fun init _ => raises_later init.proper.suffix ?_
  refine (optionalUntil_raises .semicolon (by decide) init.rest).bind fun test _ => ?_
  exact (raises_later test.proper.suffix (optionalUntil_raises .rightParen (by decide) test.rest)).map

lemma signature_raises (ts : List Token) : (signature (path.enter rule) ts).Raises (Arises rule path ts) := by
  refine (identifier_raises ts).bind fun name _ => raises_later name.proper.suffix ?_
  refine (symbol_raises .leftParen name.rest).bind fun opening _ => ?_
  exact (raises_later opening.proper.suffix (parameters_raises path 0 opening.rest)).map

lemma classHead_raises (ts : List Token) : (classHead (path.enter rule) ts).Raises (Arises rule path ts) := by
  refine (identifier_raises ts).bind fun name _ => ?_
  split
  · next hr => exact raises_fail (.later (hr ▸ name.proper.suffix) (.here _ _))
  · next t rest hr =>
    split
    · have proper : ProperSuffix rest ts := (hr ▸ name.proper).of_cons
      refine raises_later proper.suffix ((identifier_raises rest).bind fun parent _ => ?_)
      exact (raises_later parent.proper.suffix (symbol_raises .leftBrace parent.rest)).map
    · exact (raises_later (hr ▸ name.proper.suffix) (symbol_raises .leftBrace (t :: rest))).map

/-! ### Statements inside statements -/

-- The recursion is that of the rules themselves: by the tokens left, and by the rank of a rule among those that call
-- each other on the same tokens.
mutual

theorem declaration_raises (path : Path) (ts : List Token) :
    (declaration path ts).Raises (Arises .declaration path ts) := by
  rcases ts with _ | ⟨t, rest⟩
  · rw [declaration]
    exact raises_inside (statement_raises _ [])
  · rw [declaration]
    have hrest : rest <:+ t :: rest := List.suffix_cons t rest
    split
    · exact (raises_later hrest (raises_inside (classDeclaration_raises _ rest))).map
    · exact (raises_later hrest (raises_inside (function_raises _ .function rest (by decide)))).map
    · exact (raises_later hrest (raises_inside (letDeclaration_raises _ rest))).map
    · exact (raises_later hrest (raises_inside (constDeclaration_raises _ rest))).map
    · exact raises_inside (statement_raises _ _)
termination_by (ts.length, 1)

theorem classDeclaration_raises (path : Path) (ts : List Token) :
    (classDeclaration path ts).Raises (Arises .classDeclaration path ts) := by
  rw [classDeclaration]
  refine (classHead_raises ts).bind fun head _ => ?_
  exact (raises_later head.proper.suffix (members_raises path head.rest)).map
termination_by (ts.length, 0)
decreasing_by exact Prod.Lex.left _ _ head.proper.length_lt

theorem members_raises (path : Path) (ts : List Token) :
    (members (path.enter .classDeclaration) ts).Raises (Arises .classDeclaration path ts) := by
  rcases ts with _ | ⟨t, rest⟩
  · rw [members]
    exact raises_fail (.here _ _)
  · rw [members]
    split
    · exact raises_pure
    · refine raises_later (List.suffix_cons t rest) ?_
      refine (raises_inside (function_raises _ .staticMethod rest (by decide))).bind fun method _ => ?_
      exact (raises_later method.proper.suffix (members_raises path method.rest)).map
    · exact raises_fail (.here _ _)
    · refine (raises_inside (function_raises _ .method _ (by decide))).bind fun method _ => ?_
      exact (raises_later method.proper.suffix (members_raises path method.rest)).map
termination_by (ts.length, 1)
decreasing_by
  · exact Prod.Lex.left _ _ (by simp)
  · exact Prod.Lex.left _ _ method.proper.cons.length_lt
  · exact Prod.Lex.right _ (by simp)
  · exact Prod.Lex.left _ _ method.proper.length_lt

theorem function_raises (path : Path) (rule : Rule) (ts : List Token) (h : Rule.block ∈ rule.callees) :
    (function path rule ts).Raises (Arises rule path ts) := by
  rw [function]
  refine (signature_raises ts).bind fun head _ => raises_later head.proper.suffix ?_
  refine (symbol_raises .leftBrace head.rest).bind fun opening _ => raises_later opening.proper.suffix ?_
  exact (raises_inside (block_raises _ opening.rest) h).map
termination_by (ts.length, 0)
decreasing_by exact Prod.Lex.left _ _ (opening.proper.trans head.proper).length_lt

theorem statement_raises (path : Path) (ts : List Token) :
    (statement path ts).Raises (Arises .statement path ts) := by
  rcases ts with _ | ⟨t, rest⟩
  · rw [statement]
    exact raises_inside (expressionStatement_raises _ [])
  · rw [statement]
    have hrest : rest <:+ t :: rest := List.suffix_cons t rest
    split
    · exact (raises_later hrest (raises_inside (printStatement_raises _ rest))).map
    · exact (raises_later hrest (raises_inside (returnStatement_raises _ t.line rest))).map
    · exact (raises_later hrest (raises_inside (block_raises _ rest))).map
    · exact (raises_later hrest (raises_inside (ifStatement_raises _ rest))).map
    · exact (raises_later hrest (raises_inside (whileStatement_raises _ rest))).map
    · exact (raises_later hrest (raises_inside (forStatement_raises _ rest))).map
    · exact raises_inside (expressionStatement_raises _ _)
termination_by (ts.length, 0)

theorem ifStatement_raises (path : Path) (ts : List Token) :
    (ifStatement path ts).Raises (Arises .ifStatement path ts) := by
  rw [ifStatement]
  refine (condition_raises (by decide) ts).bind fun test _ => raises_later test.proper.suffix ?_
  refine (raises_inside (statement_raises _ test.rest)).bind fun yes _ => ?_
  split
  · exact raises_pure
  · next t rest hr =>
    split
    · have proper : ProperSuffix rest test.rest := (hr ▸ yes.proper).of_cons
      exact (raises_later proper.suffix (raises_inside (statement_raises _ rest))).map
    · exact raises_pure
termination_by (ts.length, 0)
decreasing_by
  · exact Prod.Lex.left _ _ test.proper.length_lt
  · exact Prod.Lex.left _ _ (proper.trans test.proper).length_lt

theorem whileStatement_raises (path : Path) (ts : List Token) :
    (whileStatement path ts).Raises (Arises .whileStatement path ts) := by
  rw [whileStatement]
  refine (condition_raises (by decide) ts).bind fun test _ => raises_later test.proper.suffix ?_
  exact (raises_inside (statement_raises _ test.rest)).map
termination_by (ts.length, 0)
decreasing_by exact Prod.Lex.left _ _ test.proper.length_lt

theorem forStatement_raises (path : Path) (ts : List Token) :
    (forStatement path ts).Raises (Arises .forStatement path ts) := by
  rw [forStatement]
  refine (forClauses_raises path ts).bind fun head _ => raises_later head.proper.suffix ?_
  exact (raises_inside (statement_raises _ head.rest)).map
termination_by (ts.length, 0)
decreasing_by exact Prod.Lex.left _ _ head.proper.length_lt

theorem block_raises (path : Path) (ts : List Token) : (block path ts).Raises (Arises .block path ts) := by
  rw [block]
  exact blockItems_raises path ts
termination_by (ts.length, 3)

theorem blockItems_raises (path : Path) (ts : List Token) :
    (blockItems (path.enter .block) ts).Raises (Arises .block path ts) := by
  rcases ts with _ | ⟨t, rest⟩
  · rw [blockItems]
    exact raises_fail (.here _ _)
  · rw [blockItems]
    split
    · exact raises_fail (.here _ _)
    · exact raises_pure
    · have hfirst : (declaration (path.enter .block) (t :: rest)).Raises (Arises .block path (t :: rest)) :=
        raises_inside (declaration_raises _ _)
      refine hfirst.attempt.bind fun r hr => ?_
      split
      · next s =>
        have proper : ProperSuffix s.rest (t :: rest) := s.proper
        exact (raises_later proper.suffix (blockItems_raises path s.rest)).map
      · next d =>
        -- The failure of the declaration is told here, and the diagnostics behind it are those of the other items.
        refine (raises_tell (hfirst.failure (Except.ok.inj hr))).bind fun _ _ => ?_
        have proper : ProperSuffix (resume d rest) (t :: rest) := resume_proper d t rest
        exact (raises_later proper.suffix (blockItems_raises path (resume d rest))).map
termination_by (ts.length, 2)
decreasing_by
  · exact Prod.Lex.right _ (by simp)
  · exact Prod.Lex.left _ _ proper.length_lt
  · exact Prod.Lex.left _ _ proper.length_lt

end

/-! ### Programs -/

/-- The diagnostics of a reading are those of the declaration in front and those behind it. -/
lemma mem_after {o : Outcome (Parsed (Stmt Unit) ts)} {r : Reading} {d : Diagnostic} :
    d ∈ (r.after o).failures ++ (r.after o).reported ↔ d ∈ o.diagnostics ∨ d ∈ r.failures ++ r.reported := by
  unfold Reading.after diagnostics
  cases o.result <;> grind

/-- A program has the diagnostics of its declarations and no others. -/
lemma mem_programItems (path : Path) : ∀ (ts : List Token) {d : Diagnostic},
    d ∈ (programItems path ts).failures ++ (programItems path ts).reported →
      ∃ us, us <:+ ts ∧ d ∈ (declaration path us).diagnostics
  | [], d, h => by
    rw [programItems] at h
    cases h
  | t :: rest, d, h => by
    rw [programItems] at h
    split at h
    · cases h
    · simp only at h
      split at h
      · next s _ =>
        have proper : ProperSuffix s.rest (t :: rest) := s.proper
        rcases mem_after.1 h with h | h
        · exact ⟨t :: rest, List.suffix_rfl, h⟩
        · obtain ⟨us, hus, hd⟩ := mem_programItems path s.rest h
          exact ⟨us, hus.trans proper.suffix, hd⟩
      · next failure _ =>
        have proper : ProperSuffix (resume failure rest) (t :: rest) := resume_proper failure t rest
        rcases mem_after.1 h with h | h
        · exact ⟨t :: rest, List.suffix_rfl, h⟩
        · obtain ⟨us, hus, hd⟩ := mem_programItems path (resume failure rest) h
          exact ⟨us, hus.trans proper.suffix, hd⟩
termination_by ts => ts.length
decreasing_by
  · exact proper.length_lt
  · exact proper.length_lt

theorem programItems_raises (path : Path) (ts : List Token) {d : Diagnostic}
    (h : d ∈ (programItems (path.enter .program) ts).failures ++ (programItems (path.enter .program) ts).reported) :
    Arises .program path ts d := by
  obtain ⟨us, hus, hd⟩ := mem_programItems _ ts h
  exact .later hus (raises_inside (declaration_raises _ us) (by decide) d hd)

end Grammar

/-- **The diagnostics of a program arise in it.** -/
theorem Program.parse_arises {ts : List Token} {ds : List Diagnostic} (h : Program.parse ts = .error ds) :
    ∀ d ∈ ds, Arises .program [] ts d := by
  unfold Program.parse at h
  simp only at h
  split at h
  · cases h
  · cases h
    exact fun d hd => Grammar.programItems_raises [] ts (List.mem_mergeSort.1 hd)

end ScriptLang
