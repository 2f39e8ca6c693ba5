import Mathlib.Tactic.Lemma
import ScriptLang.Grammar.Operator

/-!
# Phrases

The grammar of expressions, said without a reader: which tokens form a phrase of which stratum, and what
its tree is.  From the loosest to the tightest the strata are assignments, the eight levels of operators,
operands with operators in front, calls and property reads, and primaries.  A phrase of a tighter stratum
is a phrase of every looser one.

* `Phrase s ts e` — the tokens `ts` form a phrase of stratum `s` with the tree `e`;
* `GoesOn s k` — behind a phrase of stratum `s` a token of kind `k` would be read on;
* `Extends k` — the same for whole expressions, said by the kinds themselves;
* `Phrase.begins` — what the first token of a phrase can be.
-/

namespace ScriptLang

/-! ### Strata -/

/-- The strata of the grammar of expressions. -/
inductive Stratum where
  | assignment
  | level (l : Level)
  | unary
  | call
  | primary

/-- The stratum of the operands on a level. -/
def Level.operand : Level → Stratum
  | or => .level .and
  | and => .level .equality
  | equality => .level .comparison
  | comparison => .level .addition
  | addition => .level .mod
  | mod => .level .multiplication
  | multiplication => .level .coalescing
  | coalescing => .unary

/-- How tight the operators on a level bind. -/
def Level.tightness : Level → Nat
  | or => 0
  | and => 1
  | equality => 2
  | comparison => 3
  | addition => 4
  | mod => 5
  | multiplication => 6
  | coalescing => 7

/-! ### Tokens -/

/-- The name that a token spells, on its line. -/
def Token.ident (t : Token) : Ident := ⟨t.lexeme, t.line⟩

/-- The use of the name that a token spells. -/
def Token.use (t : Token) : Occurrence Unit := ⟨t.ident, ()⟩

/-- The operators between two operands, with their levels and the tokens they are written with. -/
inductive Joins : Level → Kind → Operator → Prop
  | or : Joins .or (.keyword .orKw) (.logical .or)
  | and : Joins .and (.keyword .andKw) (.logical .and)
  | equal : Joins .equality (.symbol .equalEqual) (.binary .equal)
  | notEqual : Joins .equality (.symbol .bangEqual) (.binary .notEqual)
  | less : Joins .comparison (.symbol .less) (.binary .less)
  | lessEqual : Joins .comparison (.symbol .lessEqual) (.binary .lessEqual)
  | greater : Joins .comparison (.symbol .greater) (.binary .greater)
  | greaterEqual : Joins .comparison (.symbol .greaterEqual) (.binary .greaterEqual)
  | plus : Joins .addition (.symbol .plus) (.binary .plus)
  | minus : Joins .addition (.symbol .minus) (.binary .minus)
  | mod : Joins .mod (.keyword .modKw) (.binary .mod)
  | times : Joins .multiplication (.symbol .star) (.binary .times)
  | divide : Joins .multiplication (.symbol .slash) (.binary .divide)
  | coalesce : Joins .coalescing (.symbol .questionQuestion) (.logical .coalesce)

/-- The operators in front of an operand, with the tokens they are written with. -/
inductive Leads : Kind → UnaryOp → Prop
  | negate : Leads (.symbol .minus) .negate
  | not : Leads (.symbol .bang) .not
  | truthy : Leads (.symbol .bangBang) .truthy

/-- The expressions of one token. -/
inductive Atom : Token → Expr Unit → Prop
  | number {t x} : t.kind = .number x → Atom t (.literal (.number x))
  | string {t s} : t.kind = .string s → Atom t (.literal (.string s))
  | trueLit {t} : t.kind = .keyword .trueKw → Atom t (.literal (.bool true))
  | falseLit {t} : t.kind = .keyword .falseKw → Atom t (.literal (.bool false))
  | null {t} : t.kind = .keyword .nullKw → Atom t (.literal .null)
  | identifier {t} : t.kind = .identifier → Atom t (.name .identifier t.use)
  | this {t} : t.kind = .keyword .thisKw → Atom t (.name .this t.use)
  | super {t} : t.kind = .keyword .superKw → Atom t (.name .super t.use)

/-- What may be assigned to, and the tree of the assignment: a variable or a property. -/
inductive Assigns : Expr Unit → Expr Unit → Expr Unit → Prop
  | variable {use value} : Assigns (.name .identifier use) value (.assign use value)
  | property {object name value} : Assigns (.get object name) value (.set object name value)
  | superProperty {keyword name value} :
      Assigns (.superGet keyword name) value (.set (.name .super keyword) name value)

/-- What reading a property makes of an object: `super` without more makes a look-up from the
superclass. -/
inductive Selects (name : Ident) : Expr Unit → Expr Unit → Prop
  | super {use} : Selects name (.name .super use) (.superGet use name)
  | get {object} : (∀ use, object ≠ .name .super use) → Selects name object (.get object name)

/-- Several parts with commas between them, and perhaps one more comma behind the last. -/
inductive Listed {α : Type} : List (List Token × α) → List Token → Prop
  | nil : Listed [] []
  | last {part} : Listed [part] part.1
  | cons {part parts} {comma : Token} {ts} : comma.kind = .symbol .comma → Listed parts ts →
      Listed (part :: parts) (part.1 ++ comma :: ts)

/-! ### Phrases -/

/-- **The grammar of expressions.** -/
inductive Phrase : Stratum → List Token → Expr Unit → Prop
  | ofOr {ts e} : Phrase (.level .or) ts e → Phrase .assignment ts e
  | assign {ts us target value e} {equal : Token} : Phrase (.level .or) ts target →
      equal.kind = .symbol .equal → Phrase .assignment us value → Assigns target value e →
      Phrase .assignment (ts ++ equal :: us) e
  | ofOperand {l ts e} : Phrase l.operand ts e → Phrase (.level l) ts e
  | joined {l ts us left right op} {t : Token} : Phrase (.level l) ts left → Joins l t.kind op →
      Phrase l.operand us right → Phrase (.level l) (ts ++ t :: us) (op.apply t.line left right)
  | ofCall {ts e} : Phrase .call ts e → Phrase .unary ts e
  | led {ts operand op} {t : Token} : Leads t.kind op → Phrase .unary ts operand →
      Phrase .unary (t :: ts) (.unary op t.line operand)
  | ofPrimary {ts e} : Phrase .primary ts e → Phrase .call ts e
  | call {ts us callee parts} {opening closing : Token} : Phrase .call ts callee →
      opening.kind = .symbol .leftParen → (∀ part ∈ parts, Phrase .assignment part.1 part.2) →
      Listed parts us → parts.length ≤ 254 → closing.kind = .symbol .rightParen →
      Phrase .call (ts ++ opening :: (us ++ [closing]))
        (.call closing.line callee (parts.map (·.2)))
  | property {ts object e} {dot name : Token} : Phrase .call ts object → dot.kind = .symbol .dot →
      name.kind = .identifier → Selects name.ident object e → Phrase .call (ts ++ [dot, name]) e
  | atom {t e} : Atom t e → Phrase .primary [t] e
  | group {ts e} {opening closing : Token} : opening.kind = .symbol .leftParen →
      Phrase .assignment ts e → closing.kind = .symbol .rightParen →
      Phrase .primary (opening :: (ts ++ [closing])) (.group e)

/-! ### What goes on behind a phrase -/

/-- Behind a phrase of the given stratum a token of the given kind is read on. -/
inductive GoesOn : Stratum → Kind → Prop
  | assign : GoesOn .assignment (.symbol .equal)
  | ofOr {k} : GoesOn (.level .or) k → GoesOn .assignment k
  | joins {l k op} : Joins l k op → GoesOn (.level l) k
  | ofOperand {l k} : GoesOn l.operand k → GoesOn (.level l) k
  | ofCall {k} : GoesOn .call k → GoesOn .unary k
  | call : GoesOn .call (.symbol .leftParen)
  | property : GoesOn .call (.symbol .dot)

/-- The tokens do not start with one that is read on behind a phrase of the given stratum. -/
def Stops (s : Stratum) (ts : List Token) : Prop := ∀ t ∈ ts.head?, ¬ GoesOn s t.kind

/-- The kinds of token that could go on an expression: an operator between operands, an equals sign, an
opening parenthesis, a point. -/
def Extends (k : Kind) : Prop :=
  (∃ l op, Joins l k op) ∨ k = .symbol .equal ∨ k = .symbol .leftParen ∨ k = .symbol .dot

lemma Joins.level_unique {l l' : Level} {k : Kind} {op op' : Operator} (h : Joins l k op)
    (h' : Joins l' k op') : l = l' := by
  cases h <;> cases h' <;> rfl

lemma goesOn_level {s : Stratum} {k : Kind} (h : GoesOn s k) :
    ∀ l, s = .level l → GoesOn .call k ∨ ∃ l' op, Joins l' k op ∧ l.tightness ≤ l'.tightness := by
  induction h with
  | joins hj =>
    rintro l ⟨⟩
    exact .inr ⟨_, _, hj, Nat.le_refl _⟩
  | @ofOperand l k h ih =>
    intro l' hl
    obtain rfl := Stratum.level.inj hl
    cases l
    case coalescing =>
      cases h with
      | ofCall h => exact .inl h
    all_goals
      refine (ih _ rfl).imp_right ?_
      rintro ⟨l', op, hj, hl⟩
      exact ⟨l', op, hj, by simp only [Level.tightness] at hl ⊢; omega⟩
  | _ => rintro l ⟨⟩

lemma goesOn_assignment_iff {k : Kind} : GoesOn .assignment k ↔ Extends k := by
  constructor
  · rintro (_ | h)
    · exact .inr (.inl rfl)
    · rcases goesOn_level h _ rfl with h | ⟨l, op, hj, -⟩
      · cases h with
        | call => exact .inr (.inr (.inl rfl))
        | property => exact .inr (.inr (.inr rfl))
      · exact .inl ⟨l, op, hj⟩
  · -- a kind that goes on the operands of a level goes on the level, so all end at the loosest one
    have climb : ∀ l : Level, GoesOn (.level l) k → GoesOn .assignment k := by
      intro l
      cases l <;> intro h <;> exact .ofOr (by repeat (first | exact h | apply GoesOn.ofOperand))
    rintro (⟨l, op, hj⟩ | rfl | rfl | rfl)
    · exact climb l (.joins hj)
    · exact .assign
    · exact climb .coalescing (.ofOperand (.ofCall .call))
    · exact climb .coalescing (.ofOperand (.ofCall .property))

/-- An operator does not go on the operands of its own level. -/
lemma Joins.not_goesOn_operand {l : Level} {k : Kind} {op : Operator} (h : Joins l k op) :
    ¬ GoesOn l.operand k := by
  intro hg
  have hc : ¬ GoesOn .call k := by intro hc; cases hc <;> cases h
  cases l
  case coalescing =>
    cases hg with
    | ofCall hg => exact hc hg
  all_goals
    rcases goesOn_level hg _ rfl with hg | ⟨l', op', hj, hl⟩
    · exact hc hg
    · obtain rfl := h.level_unique hj
      simp only [Level.tightness] at hl
      omega

lemma not_goesOn_equal : ¬ GoesOn (.level .or) (.symbol .equal) := by
  intro h
  rcases goesOn_level h _ rfl with h | ⟨l, op, hj, -⟩
  · cases h
  · cases hj

lemma Stops.of_kind {s : Stratum} {t : Token} {ts : List Token} (h : ¬ GoesOn s t.kind) :
    Stops s (t :: ts) := by
  intro t' ht'
  obtain rfl := Option.some.inj ht'
  exact h

lemma Stops.mono {s s' : Stratum} {ts : List Token} (h : Stops s ts)
    (hs : ∀ k, GoesOn s' k → GoesOn s k) : Stops s' ts :=
  fun t ht hg => h t ht (hs _ hg)

/-- A closing symbol that is no part of any expression ends the one in front of it. -/
lemma stops_closing {t : Token} {ts : List Token} {s : Symbol} (h : t.kind = .symbol s)
    (hs : s = .comma ∨ s = .rightParen ∨ s = .semicolon) : Stops .assignment (t :: ts) := by
  refine .of_kind ?_
  rw [goesOn_assignment_iff, h]
  rintro (⟨l, op, hj⟩ | hk | hk | hk)
  · rcases hs with rfl | rfl | rfl <;> cases hj
  all_goals
    cases hk
    rcases hs with hs | hs | hs <;> cases hs

/-! ### How a phrase begins -/

/-- The kinds of token with which an expression can begin. -/
inductive Begins : Kind → Prop
  | lead {k op} : Leads k op → Begins k
  | atom {t e} : Atom t e → Begins t.kind
  | group : Begins (.symbol .leftParen)

lemma Phrase.begins {s : Stratum} {ts : List Token} {e : Expr Unit} (h : Phrase s ts e) :
    ∃ t us, ts = t :: us ∧ Begins t.kind := by
  induction h with
  | ofOr _ ih | ofOperand _ ih | ofCall _ ih | ofPrimary _ ih => exact ih
  | assign _ _ _ _ ih | joined _ _ _ ih | call _ _ _ _ _ _ ih | property _ _ _ _ ih =>
    obtain ⟨t, us, rfl, ht⟩ := ih
    exact ⟨t, _, rfl, ht⟩
  | led hl => exact ⟨_, _, rfl, .lead hl⟩
  | atom ha => exact ⟨_, _, rfl, .atom ha⟩
  | group ho => exact ⟨_, _, rfl, ho ▸ .group⟩

/-- A phrase of calls begins with no operator in front. -/
lemma Phrase.call_begins {s : Stratum} {ts : List Token} {e : Expr Unit} (h : Phrase s ts e) :
    s = .call ∨ s = .primary → ∃ t us, ts = t :: us ∧ ∀ op, ¬ Leads t.kind op := by
  induction h with
  | ofPrimary _ ih => exact fun _ => ih (.inr rfl)
  | call _ _ _ _ _ _ ih | property _ _ _ _ ih =>
    intro _
    obtain ⟨t, us, rfl, ht⟩ := ih (.inl rfl)
    exact ⟨t, _, rfl, ht⟩
  | @atom t e ha =>
    refine fun _ => ⟨t, [], rfl, fun op hl => ?_⟩
    generalize hk : t.kind = k at hl
    cases ha <;> simp_all <;> subst hk <;> cases hl
  | group ho => exact fun _ => ⟨_, _, rfl, fun op hl => by rw [ho] at hl; cases hl⟩
  | _ => rintro (h | h) <;> cases h

/-- The tokens with which an expression can begin, by their kinds. -/
lemma Begins.kind {k : Kind} (h : Begins k) :
    (∃ s, k = .symbol s ∧ s ∈ [Symbol.minus, .bang, .bangBang, .leftParen]) ∨
    (∃ w, k = .keyword w ∧ w ∈ [Keyword.trueKw, .falseKw, .nullKw, .thisKw, .superKw]) ∨
    k = .identifier ∨ (∃ s, k = .string s) ∨ ∃ x, k = .number x := by
  cases h with
  | lead hl => cases hl <;> simp
  | atom ha => cases ha <;> simp_all
  | group => simp

lemma Begins.symbol {s : Symbol} (h : Begins (.symbol s)) :
    s ∈ [Symbol.minus, .bang, .bangBang, .leftParen] := by
  rcases h.kind with ⟨s', hk, hs⟩ | ⟨w, hk, -⟩ | hk | ⟨s', hk⟩ | ⟨x, hk⟩ <;> cases hk
  exact hs

lemma Begins.keyword {w : Keyword} (h : Begins (.keyword w)) :
    w ∈ [Keyword.trueKw, .falseKw, .nullKw, .thisKw, .superKw] := by
  rcases h.kind with ⟨s, hk, -⟩ | ⟨w', hk, hw⟩ | hk | ⟨s, hk⟩ | ⟨x, hk⟩ <;> cases hk
  exact hw

lemma Begins.ne_eof (h : Begins .eof) : False := by
  rcases h.kind with ⟨s, hk, -⟩ | ⟨w', hk, hw⟩ | hk | ⟨s, hk⟩ | ⟨x, hk⟩ <;> cases hk

end ScriptLang
