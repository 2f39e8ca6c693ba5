import Mathlib.Tactic.Lemma
import ScriptLang.Grammar.Expression

/-!
# Tokens with an end mark

A rule that reads tokens with an end mark at their end does not see whether more tokens stand behind the mark: no rule
takes an end mark, so none gets behind it.

* `EndMarked ts` — the tokens end with an end mark;
* `Diagnostic.before behind` — a diagnostic, counted with more tokens behind;
* `Outcome.Likewise` — how a rule ends on the tokens alone and with others behind them, closed under its steps;
* `expression_likewise`, … — what holds of each rule for expressions.
-/

namespace ScriptLang

variable {α β γ δ : Type} {behind ts us rest : List Token} {t : Token} {path : Path}

/-- The tokens end with an end mark. -/
inductive EndMarked : List Token → Prop
  | mark {t : Token} : t.kind = .eof → EndMarked [t]
  | cons (t : Token) {ts : List Token} : EndMarked ts → EndMarked (t :: ts)

lemma EndMarked.ne_nil (h : EndMarked ts) : ts ≠ [] := by cases h <;> exact List.cons_ne_nil _ _

lemma endMarked_concat (ts : List Token) (ht : t.kind = .eof) : EndMarked (ts ++ [t]) := by
  induction ts with
  | nil => exact .mark ht
  | cons u ts ih => exact .cons u ih

/-- Behind any other token the end mark still comes. -/
lemma EndMarked.tail (h : EndMarked (t :: ts)) (ht : t.kind ≠ .eof) : EndMarked ts := by
  cases h with
  | mark hend => exact absurd hend ht
  | cons _ h => exact h

lemma EndMarked.drop (h : EndMarked ts) : ∀ {n : Nat}, n < ts.length → EndMarked (ts.drop n) := by
  induction h with
  | mark heof =>
    intro n hn
    obtain rfl : n = 0 := Nat.lt_one_iff.1 hn
    exact .mark heof
  | cons t h ih =>
    intro n hn
    cases n with
    | zero => exact .cons t h
    | succ n => exact ih (Nat.lt_of_succ_lt_succ hn)

/-- The same diagnostic, with the given tokens behind the others. -/
def Diagnostic.before (behind : List Token) (d : Diagnostic) : Diagnostic :=
  { d with remaining := d.remaining + behind.length }

lemma EndMarked.diagnostic (h : EndMarked ts) (path : Path) (e : GrammarError) (behind : List Token) :
    path.diagnostic e (ts ++ behind) = (path.diagnostic e ts).before behind := by
  obtain ⟨t, rest, rfl⟩ := List.exists_cons_of_ne_nil h.ne_nil
  rw [Path.diagnostic, List.length_append]
  rfl

/-! ### Outcomes -/

/-- What is read from tokens and with more of them behind: the same value, and the same tokens are left, with the others
behind them.  The end mark is among those that are left. -/
structure Parsed.Likewise (behind : List Token) (p : Parsed α ts) (q : Parsed α us) : Prop where
  value : q.value = p.value
  rest : q.rest = p.rest ++ behind
  marked : EndMarked p.rest

/-- Two results that are related values or the same failure, which is not about the end of the tokens. -/
inductive ResultsLikewise (behind : List Token) (R : α → β → Prop) : Except Diagnostic α → Except Diagnostic β → Prop
  | ok {a : α} {b : β} : R a b → ResultsLikewise behind R (.ok a) (.ok b)
  | error {d : Diagnostic} : 0 < d.remaining → ResultsLikewise behind R (.error d) (.error (d.before behind))

/-- **Both outcomes are the same**, but for the tokens behind. -/
structure Outcome.Likewise (behind : List Token) (R : α → β → Prop) (x : Outcome α) (y : Outcome β) : Prop where
  reported : y.reported = x.reported.map (·.before behind)
  result : ResultsLikewise behind R x.result y.result

/-- A rule reads the same from tokens alone and with others behind them. -/
abbrev Outcome.ReadsLikewise (behind : List Token) (x : Outcome (Parsed α ts)) (y : Outcome (Parsed α us)) : Prop :=
  Likewise behind (Parsed.Likewise behind) x y

namespace Outcome.Likewise

variable {R : α → β → Prop} {S : γ → δ → Prop} {x : Outcome α} {y : Outcome β}

lemma pure {a : α} {b : β} (h : R a b) : Likewise behind R (Pure.pure a) (Pure.pure b) := ⟨rfl, .ok h⟩

lemma fail (h : EndMarked ts) (path : Path) (e : GrammarError) :
    Likewise behind R (path.fail e ts) (path.fail e (ts ++ behind)) := by
  unfold Path.fail
  rw [h.diagnostic]
  exact ⟨rfl, .error (List.length_pos_iff.2 h.ne_nil)⟩

lemma tell (d : Diagnostic) : Likewise behind (fun _ _ => True) (.tell d) (.tell (d.before behind)) :=
  ⟨rfl, .ok trivial⟩

lemma report (h : EndMarked ts) (path : Path) (e : GrammarError) :
    Likewise behind (fun _ _ => True) (path.report e ts) (path.report e (ts ++ behind)) := by
  unfold Path.report
  rw [h.diagnostic]
  exact tell _

lemma reportIf (h : EndMarked ts) (path : Path) (condition : Bool) (e : GrammarError) :
    Likewise behind (fun _ _ => True) (path.reportIf condition e ts) (path.reportIf condition e (ts ++ behind)) := by
  unfold Path.reportIf
  split
  · exact report h path e
  · exact pure trivial

lemma bind {f : α → Outcome γ} {g : β → Outcome δ} (h : Likewise behind R x y)
    (hf : ∀ a b, R a b → Likewise behind S (f a) (g b)) : Likewise behind S (x >>= f) (y >>= g) := by
  obtain ⟨xresult, xreported⟩ := x
  obtain ⟨yresult, yreported⟩ := y
  obtain ⟨hreported, hresult⟩ := h
  cases hresult with
  | error hd => exact ⟨hreported, .error hd⟩
  | ok hab =>
    obtain ⟨hreported', hresult'⟩ := hf _ _ hab
    refine ⟨?_, hresult'⟩
    show yreported ++ _ = (xreported ++ _).map _
    rw [List.map_append, ← hreported', ← hreported]

/-- A failure is a value like others when it is kept. -/
lemma attempt (h : Likewise behind R x y) : Likewise behind (ResultsLikewise behind R) x.attempt y.attempt :=
  ⟨h.reported, .ok h.result⟩

end Outcome.Likewise

namespace Outcome.ReadsLikewise

variable {S : γ → δ → Prop} {x : Outcome (Parsed α ts)} {y : Outcome (Parsed α us)}

/-- A part is read, and then what follows it. -/
lemma next {f : Parsed α ts → Outcome γ} {g : Parsed α us → Outcome δ} (h : ReadsLikewise behind x y)
    (hf : ∀ p, EndMarked p.rest → ∀ proper, Likewise behind S (f p) (g ⟨p.value, p.rest ++ behind, proper⟩)) :
    Likewise behind S (x >>= f) (y >>= g) := by
  refine h.bind fun p q hpq => ?_
  obtain ⟨value, rest, proper⟩ := q
  obtain ⟨rfl, rfl, hmarked⟩ := hpq
  exact hf p hmarked proper

end Outcome.ReadsLikewise

open Outcome

/-! ### Single tokens -/

namespace Grammar

lemma symbol_likewise (path : Path) (s : Symbol) (h : EndMarked ts) :
    ReadsLikewise behind (symbol path s ts) (symbol path s (ts ++ behind)) := by
  obtain ⟨t, rest, rfl⟩ := List.exists_cons_of_ne_nil h.ne_nil
  rw [List.cons_append, symbol, symbol]
  cases hkind : t.kind with
  | symbol s' =>
    by_cases hs : s' = s
    · simp only [hs, if_true]
      exact .pure ⟨rfl, rfl, h.tail (by simp [hkind])⟩
    · simp only [hs, if_false]
      exact .fail h path _
  | _ => exact .fail h path _

lemma identifier_likewise (path : Path) (h : EndMarked ts) :
    ReadsLikewise behind (identifier path ts) (identifier path (ts ++ behind)) := by
  obtain ⟨t, rest, rfl⟩ := List.exists_cons_of_ne_nil h.ne_nil
  rw [List.cons_append, identifier, identifier]
  cases hkind : t.kind with
  | identifier => exact .pure ⟨rfl, rfl, h.tail (by simp [hkind])⟩
  | _ => exact .fail h path _

lemma startsWith_append (s : Symbol) (h : EndMarked ts) (behind : List Token) :
    startsWith s (ts ++ behind) = startsWith s ts := by
  obtain ⟨t, rest, rfl⟩ := List.exists_cons_of_ne_nil h.ne_nil
  rfl

/-! ### Expressions -/

mutual

theorem expression_likewise (path : Path) {ts : List Token} (h : EndMarked ts) :
    ReadsLikewise behind (expression path ts) (expression path (ts ++ behind)) := by
  rw [expression, expression]
  exact assignment_likewise _ h
termination_by (ts.length, 13)

theorem assignment_likewise (path : Path) {ts : List Token} (h : EndMarked ts) :
    ReadsLikewise behind (assignment path ts) (assignment path (ts ++ behind)) := by
  rw [assignment, assignment]
  refine (operators_likewise _ Level.all h).next fun target htarget proper => ?_
  obtain ⟨target, _ | ⟨t, rest⟩, hproper⟩ := target
  · exact absurd rfl htarget.ne_nil
  · have hrest : ProperSuffix rest ts := hproper.of_cons
    dsimp only [List.cons_append]
    by_cases hkind : t.kind = .symbol .equal
    · simp only [hkind]
      refine (assignment_likewise _ (htarget.tail (by simp [hkind]))).next fun value hvalue proper' => ?_
      cases assign? target value.value with
      | some e => exact .pure ⟨rfl, rfl, hvalue⟩
      | none =>
        exact (Likewise.report htarget _ _).bind fun _ _ _ => .pure ⟨rfl, rfl, hvalue⟩
    · simp only
      exact .pure ⟨rfl, rfl, htarget⟩
termination_by (ts.length, 12)
decreasing_by
  · simp [Level.all, Prod.lex_def]
  · exact Prod.Lex.left _ _ hrest.length_lt

theorem operators_likewise (path : Path) : ∀ (levels : List Level) {ts : List Token}, EndMarked ts →
    ReadsLikewise behind (operators path levels ts) (operators path levels (ts ++ behind))
  | [], ts, h => by
    rw [operators, operators]
    exact unary_likewise path h
  | level :: tighter, ts, h => by
    rw [operators, operators]
    refine (operators_likewise (path.enter level.rule) tighter h).next fun left hleft proper => ?_
    exact chain_likewise _ level tighter left proper hleft
termination_by levels ts => (ts.length, levels.length + 3)
decreasing_by
  · exact Prod.Lex.right _ (by simp)
  · exact Prod.Lex.right _ (by simp)
  · exact Prod.Lex.left _ _ left.proper.length_lt

theorem chain_likewise (path : Path) (level : Level) (tighter : List Level) {ts us : List Token} :
    ∀ (left : Parsed (Expr Unit) ts) (proper : ProperSuffix (left.rest ++ behind) us), EndMarked left.rest →
      ReadsLikewise behind (chain path level tighter left)
        (chain path level tighter ⟨left.value, left.rest ++ behind, proper⟩)
  | ⟨left, [], _⟩, _, h => absurd rfl h.ne_nil
  | ⟨left, t :: rest, _⟩, proper, h => by
    rw [chain, chain]
    dsimp only [List.cons_append]
    cases hop : Operator.onLevel? level t.kind with
    | none => exact .pure ⟨rfl, rfl, h⟩
    | some op =>
      refine (operators_likewise path tighter (h.tail ?_)).next fun right hright _ => ?_
      · rintro heof
        simp [heof, Operator.onLevel?, Operator.ofKind?] at hop
      · exact chain_likewise path level tighter ((right.map fun e => op.apply t.line left e).within _) _ hright
termination_by left => (left.rest.length, 0)
decreasing_by
  · exact Prod.Lex.left _ _ (Nat.lt_succ_self _)
  · exact Prod.Lex.left _ _ (Nat.lt_succ_of_lt right.proper.length_lt)

theorem unary_likewise (path : Path) : ∀ {ts : List Token}, EndMarked ts →
    ReadsLikewise behind (unary path ts) (unary path (ts ++ behind))
  | [], h => absurd rfl h.ne_nil
  | t :: rest, h => by
    rw [List.cons_append, unary, unary]
    cases hop : UnaryOp.ofKind? t.kind with
    | none => exact call_likewise _ h
    | some op =>
      refine (unary_likewise _ (h.tail ?_)).next fun operand hoperand _ => .pure ⟨rfl, rfl, hoperand⟩
      rintro heof
      simp [heof, UnaryOp.ofKind?] at hop
termination_by ts => (ts.length, 2)

theorem call_likewise (path : Path) {ts : List Token} (h : EndMarked ts) :
    ReadsLikewise behind (call path ts) (call path (ts ++ behind)) := by
  rw [call, call]
  refine (primary_likewise _ h).next fun callee hcallee proper => ?_
  exact calls_likewise _ callee proper hcallee
termination_by (ts.length, 1)
decreasing_by
  · exact Prod.Lex.right _ (by simp)
  · exact Prod.Lex.left _ _ callee.proper.length_lt

theorem calls_likewise (path : Path) {ts us : List Token} :
    ∀ (callee : Parsed (Expr Unit) ts) (proper : ProperSuffix (callee.rest ++ behind) us), EndMarked callee.rest →
      ReadsLikewise behind (calls path callee) (calls path ⟨callee.value, callee.rest ++ behind, proper⟩)
  | ⟨callee, [], _⟩, _, h => absurd rfl h.ne_nil
  | ⟨callee, t :: rest, hproper⟩, proper, h => by
    rw [calls, calls]
    dsimp only [List.cons_append]
    by_cases hopen : t.kind = .symbol .leftParen
    · simp only [hopen]
      refine (arguments_likewise path 0 (h.tail (by simp [hopen]))).next fun args hargs _ => ?_
      exact calls_likewise path ((args.map fun p => Expr.call p.2 callee p.1).within _) _ hargs
    by_cases hdot : t.kind = .symbol .dot
    · simp only [hdot]
      refine (identifier_likewise path (h.tail (by simp [hdot]))).next fun name hname _ => ?_
      exact calls_likewise path ((name.map (property callee)).within _) _ hname
    · simp only
      exact .pure ⟨rfl, rfl, h⟩
termination_by callee => (callee.rest.length, 0)
decreasing_by
  · exact Prod.Lex.left _ _ (Nat.lt_succ_self _)
  · exact Prod.Lex.left _ _ (Nat.lt_succ_of_lt args.proper.length_lt)
  · exact Prod.Lex.left _ _ (Nat.lt_succ_of_lt name.proper.length_lt)

theorem arguments_likewise (path : Path) (count : Nat) {ts : List Token} (h : EndMarked ts) :
    ReadsLikewise behind (arguments path count ts) (arguments path count (ts ++ behind)) := by
  rw [arguments, arguments, startsWith_append _ h]
  split
  · exact (symbol_likewise path _ h).next fun close hclose _ => .pure ⟨rfl, rfl, hclose⟩
  · refine (Likewise.reportIf h path _ _).bind fun _ _ _ => ?_
    refine (expression_likewise _ h).next fun arg harg proper => ?_
    obtain ⟨arg, _ | ⟨t, rest⟩, hproper⟩ := arg
    · exact absurd rfl harg.ne_nil
    · have hrest : ProperSuffix rest ts := hproper.of_cons
      dsimp only [List.cons_append]
      by_cases hcomma : t.kind = .symbol .comma
      · simp only [hcomma]
        refine (arguments_likewise path (count + 1) (harg.tail (by simp [hcomma]))).next fun more hmore _ => ?_
        exact .pure ⟨rfl, rfl, hmore⟩
      by_cases hclose : t.kind = .symbol .rightParen
      · simp only [hclose]
        exact .pure ⟨rfl, rfl, harg.tail (by simp [hclose])⟩
      · simp only
        exact .fail harg _ _
termination_by (ts.length, 14)
decreasing_by
  · exact Prod.Lex.right _ (by simp)
  · exact Prod.Lex.left _ _ hrest.length_lt

theorem primary_likewise (path : Path) : ∀ {ts : List Token}, EndMarked ts →
    ReadsLikewise behind (primary path ts) (primary path (ts ++ behind))
  | [], h => absurd rfl h.ne_nil
  | t :: rest, h => by
    rw [List.cons_append, primary, primary]
    by_cases hopen : t.kind = .symbol .leftParen
    · simp only [hopen]
      refine (expression_likewise _ (h.tail (by simp [hopen]))).next fun inner hinner _ => ?_
      exact (symbol_likewise _ _ hinner).next fun close hclose _ => .pure ⟨rfl, rfl, hclose⟩
    · simp only
      cases hatom : atom? t with
      | none => exact .fail h _ _
      | some e =>
        refine .pure ⟨rfl, rfl, h.tail fun heof => ?_⟩
        simp [heof, atom?] at hatom
termination_by ts => (ts.length, 0)

end

end Grammar

end ScriptLang
