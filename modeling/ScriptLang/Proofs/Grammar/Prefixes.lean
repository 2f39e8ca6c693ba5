import Mathlib
import ScriptLang.Proofs.Grammar.ProgramReading

/-!
# Programs in front of other tokens

A program that is read without a diagnostic has no part in how the tokens behind it are read.  No rule looks
further than the declaration that it reads, but for an `if`, which looks for its `else`; and a diagnostic
counts the tokens from the one at fault on, so it does not tell what stands in front of that.

* `Program.parse_behind` — what is read behind a program is what is read without it.
-/

namespace ScriptLang

open Grammar

variable {ts us : List Token} {P : Program Unit}

/-- Where no end mark stands among the tokens, all of them are the row of declarations. -/
lemma areDeclarations_of_parse (hend : NoEnd ts) (hparse : Program.parse ts = .ok P) : AreDeclarations ts P := by
  rw [parse_ok_iff, beforeEnd_of_noEnd hend] at hparse
  exact hparse

/-- **A correct program has no part in what is read behind it.**  If tokens without an end mark are read as a
program, and any tokens behind them do not start with an `else`, then all of them together are read as that
program and behind it the one that the second tokens are read as; or, where the second tokens are not a
program, with exactly their diagnostics. -/
theorem Program.parse_behind (hend : NoEnd ts) (hparse : Program.parse ts = .ok P) (helse : NoElse us) :
    Program.parse (ts ++ us) = (Program.parse us).map (P ++ ·) := by
  have hbehind : programItems [.program] (ts ++ us) = (programItems [.program] us).behind P :=
    (areDeclarations_of_parse hend hparse).programItems_append helse
  unfold Program.parse
  rw [hbehind]
  simp only [Reading.behind]
  -- The diagnostics are those of the second tokens, so both readings are clean or neither.
  cases (programItems [.program] us).failures ++ (programItems [.program] us).reported with
  | nil => rfl
  | cons d ds => rfl

/-- An `if` without an `else` stands in front of a declaration without a name and a statement. -/
theorem parse_behind_if :
    let ts : List Token := [⟨.keyword .ifKw, "if", 1⟩, ⟨.symbol .leftParen, "(", 1⟩, ⟨.identifier, "a", 1⟩,
      ⟨.symbol .rightParen, ")", 1⟩, ⟨.identifier, "b", 1⟩, ⟨.symbol .semicolon, ";", 1⟩]
    let us : List Token := [⟨.keyword .letKw, "let", 2⟩, ⟨.symbol .semicolon, ";", 2⟩,
      ⟨.keyword .printKw, "print", 2⟩, ⟨.identifier, "c", 2⟩, ⟨.symbol .semicolon, ";", 2⟩, ⟨.eof, "", 2⟩]
    let read : Program Unit :=
      [.ifThen (.name .identifier ⟨⟨"a", 1⟩, ()⟩) (.expr (.name .identifier ⟨⟨"b", 1⟩, ()⟩))]
    let wrong : Diagnostic :=
      ⟨.expectedIdentifier, [.program, .declaration, .letDeclaration], some ⟨.symbol .semicolon, ";", 2⟩, 5⟩
    NoEnd ts ∧ NoElse us ∧ Program.parse ts = .ok read ∧ Program.parse us = .error [wrong] ∧
      Program.parse (ts ++ us) = .error [wrong] := by
  intro ts us read wrong
  have hend : NoEnd ts := by simp [ts, Token.isEnd]
  have helse : NoElse us := by simp [us, NoElse]
  have hread : Program.parse ts = .ok read := by cbv
  have hwrong : Program.parse us = .error [wrong] := by cbv
  refine ⟨hend, helse, hread, hwrong, ?_⟩
  rw [Program.parse_behind hend hread helse, hwrong]
  rfl

/-- An `else` is not read by itself, but behind an `if` it belongs to that. -/
example :
    let ts : List Token := [⟨.keyword .ifKw, "if", 1⟩, ⟨.symbol .leftParen, "(", 1⟩, ⟨.identifier, "a", 1⟩,
      ⟨.symbol .rightParen, ")", 1⟩, ⟨.identifier, "b", 1⟩, ⟨.symbol .semicolon, ";", 1⟩]
    let us : List Token := [⟨.keyword .elseKw, "else", 1⟩, ⟨.identifier, "c", 1⟩, ⟨.symbol .semicolon, ";", 1⟩]
    ((Program.parse ts).isOk, (Program.parse us).isOk, (Program.parse (ts ++ us)).isOk) = (true, false, true) := by
  cbv

end ScriptLang
