import ScriptLang.Grammar.Diagnostic
import ScriptLang.Tree.Basic

/-!
# Outcomes of grammar rules

A rule of the grammar takes a list of tokens.  It yields a value and the tokens that are left, always fewer
than it was given, or it fails with a diagnostic.  Besides, it may report diagnostics that do not stop it;
what was reported before a failure is kept.
-/

namespace ScriptLang

/-! ### What is left of a list -/

/-- `rest` is what is left of `ts` after at least one element. -/
structure ProperSuffix {α : Type} (rest ts : List α) : Prop where
  suffix : rest <:+ ts
  length_lt : rest.length < ts.length

namespace ProperSuffix

variable {α : Type} {as bs cs : List α} {a : α}

theorem tail : ProperSuffix as (a :: as) :=
  ⟨List.suffix_cons a as, Nat.lt_succ_self _⟩

theorem cons (h : ProperSuffix as bs) : ProperSuffix as (a :: bs) :=
  ⟨h.suffix.trans (List.suffix_cons a bs), Nat.lt_succ_of_lt h.length_lt⟩

theorem trans (h : ProperSuffix as bs) (k : ProperSuffix bs cs) : ProperSuffix as cs :=
  ⟨h.suffix.trans k.suffix, Nat.lt_trans h.length_lt k.length_lt⟩

/-- The tail of what is left is left as well. -/
theorem of_cons (h : ProperSuffix (a :: as) bs) : ProperSuffix as bs :=
  tail.trans h

/-- Whatever is left of the tail of a list is left of the list. -/
theorem of_suffix (h : as <:+ bs) : ProperSuffix as (a :: bs) :=
  ⟨h.trans (List.suffix_cons a bs), Nat.lt_succ_of_le h.length_le⟩

end ProperSuffix

/-- A value read from the tokens `ts` and the tokens that are left. -/
structure Parsed (α : Type) (ts : List Token) where
  value : α
  rest : List Token
  proper : ProperSuffix rest ts

namespace Parsed

variable {α β : Type} {t : Token} {ts rest : List Token}

/-- The same value, read behind one more token. -/
def behind (p : Parsed α ts) : Parsed α (t :: ts) :=
  ⟨p.value, p.rest, p.proper.cons⟩

/-- The same value, read from what is left of other tokens. -/
def within (h : ProperSuffix rest ts) (p : Parsed α rest) : Parsed α ts :=
  ⟨p.value, p.rest, p.proper.trans h⟩

/-- A token and what is left behind it are left of what something was read from. -/
theorem proper_cons (p : Parsed α ts) (h : p.rest = t :: rest) : ProperSuffix (t :: rest) ts :=
  h ▸ p.proper

theorem proper_tail (p : Parsed α ts) (h : p.rest = t :: rest) : ProperSuffix rest ts :=
  (p.proper_cons h).of_cons

/-- What is read behind something else, read from where that starts. -/
def andThen (p : Parsed α ts) (q : Parsed β p.rest) : Parsed β ts :=
  q.within p.proper

/-- Another value, read from the same tokens. -/
def map (f : α → β) (p : Parsed α ts) : Parsed β ts :=
  ⟨f p.value, p.rest, p.proper⟩

end Parsed

/-! ### Success, failure and reports -/

/-- The result of a rule together with what it reported on the way. -/
structure Outcome (α : Type) where
  result : Except Diagnostic α
  reported : List Diagnostic

namespace Outcome

variable {α : Type}

instance : Monad Outcome where
  pure a := ⟨.ok a, []⟩
  bind x f :=
    match x.result with
    | .error d => ⟨.error d, x.reported⟩
    | .ok a => ⟨(f a).result, x.reported ++ (f a).reported⟩

/-- Reports a diagnostic and goes on. -/
def tell (d : Diagnostic) : Outcome Unit :=
  ⟨.ok (), [d]⟩

/-- Never fails: a failure becomes the value. -/
def attempt (x : Outcome α) : Outcome (Except Diagnostic α) :=
  ⟨.ok x.result, x.reported⟩

end Outcome

/-- The rules that are being applied, the innermost first. -/
abbrev Path := List Rule

namespace Path

/-- The rules after one more is entered. -/
def enter (path : Path) (rule : Rule) : Path :=
  rule :: path

/-- The diagnostic for an error at the first of the given tokens. -/
def diagnostic (path : Path) (error : GrammarError) (ts : List Token) : Diagnostic :=
  ⟨error, path.reverse, ts.head?, ts.length⟩

/-- Fails at the first of the given tokens. -/
def fail {α : Type} (path : Path) (error : GrammarError) (ts : List Token) : Outcome α :=
  ⟨.error (path.diagnostic error ts), []⟩

/-- Reports an error at the first of the given tokens. -/
def report (path : Path) (error : GrammarError) (ts : List Token) : Outcome Unit :=
  .tell (path.diagnostic error ts)

/-- Reports an error if the condition holds. -/
def reportIf (path : Path) (condition : Bool) (error : GrammarError) (ts : List Token) : Outcome Unit :=
  if condition then path.report error ts else pure ()

end Path

/-! ### Single tokens -/

namespace Grammar

/-- Takes one particular symbol; its value is the line on which it stands. -/
def symbol (path : Path) (s : Symbol) : (ts : List Token) → Outcome (Parsed Nat ts)
  | [] => path.fail (.expected s) []
  | t :: rest =>
    match t.kind with
    | .symbol s' => if s' = s then pure ⟨t.line, rest, .tail⟩ else path.fail (.expected s) (t :: rest)
    | _ => path.fail (.expected s) (t :: rest)

/-- Takes an identifier. -/
def identifier (path : Path) : (ts : List Token) → Outcome (Parsed Ident ts)
  | [] => path.fail .expectedIdentifier []
  | t :: rest =>
    match t.kind with
    | .identifier => pure ⟨⟨t.lexeme, t.line⟩, rest, .tail⟩
    | _ => path.fail .expectedIdentifier (t :: rest)

end Grammar

end ScriptLang
