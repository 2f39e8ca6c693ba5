import ScriptLang.Counted.Expression
import ScriptLang.Proofs.Counted.Mirror

/-!
# Expressions with a counter and without

For each rule there is a lemma: with a counter it reads the same expression, or fails in the same way.  The rules that
join what was read before to what follows get the numbers of both parts.

* `assign?_mirrors` — assignments, where the number of the variable is lost and another one is taken;
* `expression_mirrors` — the rules for expressions, in the recursion of the rules.
-/

namespace ScriptLang

open Grammar

instance : HasUses (Expr OccurrenceId) (Expr Unit) := ⟨Expr.relabel id fun _ => (), Expr.occurrences⟩

instance : HasUses (List (Expr OccurrenceId) × Nat) (List (Expr Unit) × Nat) :=
  ⟨fun p => (Expr.relabelList id (fun _ => ()) p.1, p.2), fun p => Expr.occurrencesList p.1⟩

namespace Grammar

variable {n m k : OccurrenceId} {path : Path} {ts : List Token}

/-- What is assigned to takes its number behind the value; its first number is lost. -/
lemma assign?_mirrors {target value : Expr OccurrenceId} (hm : n ≤ m) (hk : m ≤ k) (ht : Fresh n m (uses target))
    (hv : Fresh m k (uses value)) :
    Option.Rel (fun c e => k ≤ (c k).2 ∧ forget (c k).1 = e ∧ Fresh n (c k).2 (uses (c k).1))
      (Counted.assign? target value) (assign? (forget target) (forget value)) := by
  match target with
  | .name .identifier use =>
    exact .some ⟨Nat.le_succ k, rfl, (hv.mono hm (Nat.le_refl k)).append (Nat.le_trans hm hk) (Nat.le_succ k) .single⟩
  | .get object property => exact .some ⟨Nat.le_refl k, rfl, ht.append hm hk hv⟩
  | .superGet keyword property => exact .some ⟨Nat.le_refl k, rfl, ht.append hm hk hv⟩
  | .name .this use => exact .none
  | .name .super use => exact .none
  | .literal _ => exact .none
  | .assign _ _ => exact .none
  | .unary _ _ _ => exact .none
  | .binary _ _ _ _ => exact .none
  | .logical _ _ _ _ => exact .none
  | .group _ => exact .none
  | .call _ _ _ => exact .none
  | .set _ _ _ => exact .none

lemma property_mirrors (object : Expr OccurrenceId) (name : Ident) :
    forget (property object name) = property (forget object) name ∧ uses (property object name) = uses object := by
  cases object with
  | name kind use => cases kind <;> exact ⟨rfl, rfl⟩
  | _ => exact ⟨rfl, rfl⟩

lemma apply_mirrors (op : Operator) (line : Nat) (left right : Expr OccurrenceId) :
    forget (op.apply line left right) = op.apply line (forget left) (forget right) ∧
      uses (op.apply line left right) = uses left ++ uses right := by
  cases op <;> exact ⟨rfl, rfl⟩

mutual

theorem expression_mirrors (n : OccurrenceId) (path : Path) (ts : List Token) :
    Mirrors (Bears n) n (Counted.expression path ts) (expression path ts) := by
  rw [Counted.expression, expression]
  exact assignment_mirrors n _ ts
termination_by (ts.length, 13)

theorem assignment_mirrors (n : OccurrenceId) (path : Path) (ts : List Token) :
    Mirrors (Bears n) n (Counted.assignment path ts) (assignment path ts) := by
  rw [Counted.assignment, assignment]
  refine (operators_mirrors n _ Level.all ts).next fun target m hm ht => ?_
  obtain ⟨target, _ | ⟨t, rest⟩, proper⟩ := target
  · exact .pure ⟨rfl, ht⟩
  · have proper' : ProperSuffix rest ts := proper.of_cons
    simp only [Parsed.map]
    by_cases hkind : t.kind = .symbol .equal
    · simp only [hkind]
      refine (assignment_mirrors m _ rest).next fun value k hk hv => ?_
      have hassign := assign?_mirrors hm hk ht hv
      simp only [Parsed.map] at hassign ⊢
      generalize Counted.assign? target value.value = c at hassign
      generalize assign? (forget target) (forget value.value) = e at hassign
      cases hassign with
      | some h =>
        obtain ⟨hle, rfl, hf⟩ := h
        exact .numbered_bind hle (.pure ⟨rfl, hf⟩)
      | none => exact .lift_bind fun _ => .pure ⟨rfl, ht.mono (Nat.le_refl n) hk⟩
    · simp only
      exact .pure ⟨rfl, ht⟩
termination_by (ts.length, 12)
decreasing_by
  · simp [Level.all, Prod.lex_def]
  · exact Prod.Lex.left _ _ proper'.length_lt

theorem operators_mirrors (n : OccurrenceId) (path : Path) : ∀ (levels : List Level) (ts : List Token),
    Mirrors (Bears n) n (Counted.operators path levels ts) (operators path levels ts)
  | [], ts => by
    rw [Counted.operators, operators]
    exact unary_mirrors n path ts
  | level :: tighter, ts => by
    rw [Counted.operators, operators]
    refine (operators_mirrors n (path.enter level.rule) tighter ts).next fun left m hm hl => ?_
    exact chain_mirrors hm _ level tighter left hl
termination_by levels ts => (ts.length, levels.length + 3)
decreasing_by
  · exact Prod.Lex.right _ (by simp)
  · exact Prod.Lex.right _ (by simp)
  · exact Prod.Lex.left _ _ left.proper.length_lt

theorem chain_mirrors {n m : OccurrenceId} (hm : n ≤ m) (path : Path) (level : Level) (tighter : List Level)
    {ts : List Token} : ∀ left : Parsed (Expr OccurrenceId) ts, Fresh n m (uses left.value) →
      Mirrors (Bears n) m (Counted.chain path level tighter left) (chain path level tighter (left.map forget))
  | ⟨left, [], _⟩, hl => by
    rw [Counted.chain, chain]
    exact .pure ⟨rfl, hl⟩
  | ⟨left, t :: rest, proper⟩, hl => by
    rw [Counted.chain, chain]
    simp only [Parsed.map]
    cases Operator.onLevel? level t.kind with
    | none => exact .pure ⟨rfl, hl⟩
    | some op =>
      refine (operators_mirrors m path tighter rest).next fun right k hk hr => ?_
      obtain ⟨hforget, huses⟩ := apply_mirrors op t.line left right.value
      have hboth : Fresh n k (uses (op.apply t.line left right.value)) := huses ▸ hl.append hm hk hr
      have hchain := chain_mirrors (Nat.le_trans hm hk) path level tighter
        ((right.map fun e => op.apply t.line left e).within proper.of_cons) hboth
      simp only [Parsed.map, Parsed.within, hforget] at hchain ⊢
      exact hchain
termination_by left => (left.rest.length, 0)
decreasing_by
  · exact Prod.Lex.left _ _ (Nat.lt_succ_self _)
  · exact Prod.Lex.left _ _ (Nat.lt_succ_of_lt right.proper.length_lt)

theorem unary_mirrors (n : OccurrenceId) (path : Path) (ts : List Token) :
    Mirrors (Bears n) n (Counted.unary path ts) (unary path ts) := by
  rcases ts with _ | ⟨t, rest⟩
  · rw [Counted.unary, unary]
    exact call_mirrors n _ []
  · rw [Counted.unary, unary]
    cases UnaryOp.ofKind? t.kind with
    | none => exact call_mirrors n _ (t :: rest)
    | some op =>
      refine (unary_mirrors n _ rest).next fun operand m hm ho => ?_
      exact .pure ⟨rfl, ho⟩
termination_by (ts.length, 2)

theorem call_mirrors (n : OccurrenceId) (path : Path) (ts : List Token) :
    Mirrors (Bears n) n (Counted.call path ts) (call path ts) := by
  rw [Counted.call, call]
  refine (primary_mirrors n _ ts).next fun callee m hm hc => ?_
  exact calls_mirrors hm _ callee hc
termination_by (ts.length, 1)
decreasing_by
  · exact Prod.Lex.right _ (by simp)
  · exact Prod.Lex.left _ _ callee.proper.length_lt

theorem calls_mirrors {n m : OccurrenceId} (hm : n ≤ m) (path : Path) {ts : List Token} :
    ∀ callee : Parsed (Expr OccurrenceId) ts, Fresh n m (uses callee.value) →
      Mirrors (Bears n) m (Counted.calls path callee) (calls path (callee.map forget))
  | ⟨callee, [], _⟩, hc => by
    rw [Counted.calls, calls]
    exact .pure ⟨rfl, hc⟩
  | ⟨callee, t :: rest, proper⟩, hc => by
    rw [Counted.calls, calls]
    simp only [Parsed.map]
    by_cases hopen : t.kind = .symbol .leftParen
    · simp only [hopen]
      refine (arguments_mirrors m path 0 rest).next fun args k hk ha => ?_
      exact calls_mirrors (Nat.le_trans hm hk) path
        ((args.map fun p => Expr.call p.2 callee p.1).within proper.of_cons) (hc.append hm hk ha)
    by_cases hdot : t.kind = .symbol .dot
    · simp only [hdot]
      refine .lift_bind fun name => ?_
      obtain ⟨hforget, huses⟩ := property_mirrors callee name.value
      have hcalls := calls_mirrors hm path ((name.map (property callee)).within proper.of_cons) (huses ▸ hc)
      simp only [Parsed.map, Parsed.within, hforget] at hcalls ⊢
      exact hcalls
    · simp only
      exact .pure ⟨rfl, hc⟩
termination_by callee => (callee.rest.length, 0)
decreasing_by
  · exact Prod.Lex.left _ _ (Nat.lt_succ_self _)
  · exact Prod.Lex.left _ _ (Nat.lt_succ_of_lt args.proper.length_lt)
  · exact Prod.Lex.left _ _ (Nat.lt_succ_of_lt name.proper.length_lt)

theorem arguments_mirrors (n : OccurrenceId) (path : Path) (count : Nat) (ts : List Token) :
    Mirrors (Bears n) n (Counted.arguments path count ts) (arguments path count ts) := by
  rw [Counted.arguments, arguments]
  split
  · exact .lift_bind fun _ => .pure ⟨rfl, .nil⟩
  · refine .lift_bind fun _ => ?_
    refine (expression_mirrors n _ ts).next fun arg m hm ha => ?_
    obtain ⟨arg, _ | ⟨t, rest⟩, proper⟩ := arg
    · exact .fail _ _ _
    · have proper' : ProperSuffix rest ts := proper.of_cons
      simp only [Parsed.map]
      by_cases hcomma : t.kind = .symbol .comma
      · simp only [hcomma]
        refine (arguments_mirrors m path (count + 1) rest).next fun more k hk hmore => ?_
        exact .pure ⟨rfl, ha.append hm hk hmore⟩
      by_cases hclose : t.kind = .symbol .rightParen
      · simp only [hclose]
        refine .pure ⟨rfl, ?_⟩
        show Fresh n m (uses arg ++ [])
        rwa [List.append_nil]
      · simp only
        exact .fail _ _ _
termination_by (ts.length, 14)
decreasing_by
  · exact Prod.Lex.right _ (by simp)
  · exact Prod.Lex.left _ _ proper'.length_lt

theorem primary_mirrors (n : OccurrenceId) (path : Path) (ts : List Token) :
    Mirrors (Bears n) n (Counted.primary path ts) (primary path ts) := by
  rcases ts with _ | ⟨t, rest⟩
  · rw [Counted.primary, primary]
    exact .fail _ _ _
  · rw [Counted.primary]
    split
    · next hkind =>
      rw [primary]
      simp only [hkind]
      refine (expression_mirrors n _ rest).next fun inner m hm hi => ?_
      exact .lift_bind fun close => .pure ⟨rfl, hi⟩
    · rw [primary]
      cases atom? t with
      | none =>
        dsimp only
        split
        · contradiction
        · exact .fail _ _ _
      | some e =>
        dsimp only
        split
        · contradiction
        · have hspec := Expr.number_spec n e
          refine .numbered_bind (Nat.le.intro hspec.next.symm) (.pure ⟨?_, .of_number hspec⟩)
          exact congrArg (fun e => Parsed.mk e rest .tail) hspec.forget
termination_by (ts.length, 0)

end

end Grammar

end ScriptLang
