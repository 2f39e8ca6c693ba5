import ScriptLang.Proofs.Grammar.ExpressionReading
import ScriptLang.Grammar.Statement

/-!
# Sentences

The grammar of statements and declarations, said without a reader, over the rule for expressions.  The
first argument of `IsStatement` and `IsDeclaration` says whether the tokens end in an `if` that could still
take an `else`; such a statement is no branch in front of an `else`, so an `else` belongs to the nearest
`if` that can take it.

* `IsExpression ts e` — the rule for expressions reads all of `ts` as `e`;
* `IsStatement d ts s`, `IsDeclaration d ts s` — the tokens `ts` form the statement or declaration `s`;
* `AreDeclarations ts ss` — they are a row of declarations;
* `IsFunction`, `AreMembers` — the same for functions and for the methods and static methods of a class.
-/

namespace ScriptLang.Grammar

/-! ### Parts without statements -/

/-- The rule for expressions reads all of the tokens, without a diagnostic. -/
def IsExpression (ts : List Token) (e : Expr Unit) : Prop := (expression [] ts).Reads e []

/-- An expression in parentheses. -/
inductive IsCondition : List Token → Expr Unit → Prop
  | mk {ts e} {opening closing : Token} : opening.kind = .symbol .leftParen → IsExpression ts e →
      closing.kind = .symbol .rightParen → IsCondition (opening :: (ts ++ [closing])) e

/-- An expression that may be missing. -/
inductive IsOptional : List Token → Option (Expr Unit) → Prop
  | none : IsOptional [] none
  | some {ts e} : IsExpression ts e → IsOptional ts (some e)

/-- A variable declaration. -/
inductive IsLet : List Token → Stmt Unit → Prop
  | plain {keyword name semicolon : Token} : keyword.kind = .keyword .letKw →
      name.kind = .identifier → semicolon.kind = .symbol .semicolon →
      IsLet [keyword, name, semicolon] (.letVar name.ident none)
  | initialized {ts e} {keyword name equal semicolon : Token} : keyword.kind = .keyword .letKw →
      name.kind = .identifier → equal.kind = .symbol .equal → IsExpression ts e →
      semicolon.kind = .symbol .semicolon →
      IsLet (keyword :: name :: equal :: (ts ++ [semicolon])) (.letVar name.ident (some e))

/-- The initializer of a `for`, with the semicolon behind it. -/
inductive IsInitializer : List Token → Option (Stmt Unit) → Prop
  | none {semicolon : Token} : semicolon.kind = .symbol .semicolon → IsInitializer [semicolon] none
  | letVar {ts s} : IsLet ts s → IsInitializer ts (some s)
  | expr {ts e} {semicolon : Token} : IsExpression ts e → semicolon.kind = .symbol .semicolon →
      IsInitializer (ts ++ [semicolon]) (some (.expr e))

/-- The name and the parameters of a function. -/
inductive IsSignature : List Token → Ident → List Ident → Prop
  | mk {names ts : List Token} {name opening closing : Token} : name.kind = .identifier →
      opening.kind = .symbol .leftParen → (∀ t ∈ names, t.kind = .identifier) →
      Listed (names.map fun t => ([t], t)) ts → names.length ≤ 254 →
      closing.kind = .symbol .rightParen →
      IsSignature (name :: opening :: (ts ++ [closing])) name.ident (names.map Token.ident)

/-- The name of a class and the class that it extends, if it extends one. -/
inductive IsHeading : List Token → Ident → Option (Occurrence Unit) → Prop
  | plain {name : Token} : name.kind = .identifier → IsHeading [name] name.ident none
  | extending {name keyword parent : Token} : name.kind = .identifier →
      keyword.kind = .keyword .extendsKw → parent.kind = .identifier →
      IsHeading [name, keyword, parent] name.ident (some parent.use)

/-! ### What a `for` stands for -/

/-- The body of the loop: an increment stands behind the body, in a block with it. -/
inductive LoopBody (body : Stmt Unit) : Option (Expr Unit) → Stmt Unit → Prop
  | plain : LoopBody body none body
  | increment {e} : LoopBody body (some e) (.block [body, .expr e])

/-- The test of the loop: a missing condition is true. -/
inductive LoopTest : Option (Expr Unit) → Expr Unit → Prop
  | always : LoopTest none (.literal (.bool true))
  | test {e} : LoopTest (some e) e

/-- The loop itself: only an initializer asks for a block around it. -/
inductive LoopFrame (loop : Stmt Unit) : Option (Stmt Unit) → Stmt Unit → Prop
  | plain : LoopFrame loop none loop
  | initialized {s} : LoopFrame loop (some s) (.block [s, loop])

/-! ### Statements and declarations -/

mutual

/-- **The grammar of statements.** -/
inductive IsStatement : Bool → List Token → Stmt Unit → Prop
  | expr {ts e} {semicolon : Token} : IsExpression ts e → semicolon.kind = .symbol .semicolon →
      IsStatement false (ts ++ [semicolon]) (.expr e)
  | print {ts e} {keyword semicolon : Token} : keyword.kind = .keyword .printKw →
      IsExpression ts e → semicolon.kind = .symbol .semicolon →
      IsStatement false (keyword :: (ts ++ [semicolon])) (.print e)
  | return {ts e} {keyword semicolon : Token} : keyword.kind = .keyword .returnKw →
      IsOptional ts e → semicolon.kind = .symbol .semicolon →
      IsStatement false (keyword :: (ts ++ [semicolon])) (.return keyword.line e)
  | block {ts ss} {opening closing : Token} : opening.kind = .symbol .leftBrace →
      AreDeclarations ts ss → closing.kind = .symbol .rightBrace →
      IsStatement false (opening :: (ts ++ [closing])) (.block ss)
  | ifThen {d cs c ts s} {keyword : Token} : keyword.kind = .keyword .ifKw → IsCondition cs c →
      IsStatement d ts s → IsStatement true (keyword :: (cs ++ ts)) (.ifThen c s)
  | ifElse {d cs c ts yes us no} {keyword other : Token} : keyword.kind = .keyword .ifKw →
      IsCondition cs c → IsStatement false ts yes → other.kind = .keyword .elseKw →
      IsStatement d us no → IsStatement d (keyword :: (cs ++ (ts ++ other :: us))) (.ifElse c yes no)
  | while {d cs c ts s} {keyword : Token} : keyword.kind = .keyword .whileKw → IsCondition cs c →
      IsStatement d ts s → IsStatement d (keyword :: (cs ++ ts)) (.while c s)
  | for {d is initializer cs condition test ns increment ts s body tree}
      {keyword opening semicolon closing : Token} : keyword.kind = .keyword .forKw →
      opening.kind = .symbol .leftParen → IsInitializer is initializer →
      IsOptional cs condition → semicolon.kind = .symbol .semicolon →
      IsOptional ns increment → closing.kind = .symbol .rightParen → IsStatement d ts s →
      LoopTest condition test → LoopBody s increment body →
      LoopFrame (.while test body) initializer tree →
      IsStatement d (keyword :: opening :: (is ++ (cs ++ semicolon :: (ns ++ closing :: ts)))) tree

/-- **The grammar of declarations.** -/
inductive IsDeclaration : Bool → List Token → Stmt Unit → Prop
  | statement {d ts s} : IsStatement d ts s → IsDeclaration d ts s
  | letVar {ts s} : IsLet ts s → IsDeclaration false ts s
  | constVar {ts e} {keyword name equal semicolon : Token} : keyword.kind = .keyword .constKw →
      name.kind = .identifier → equal.kind = .symbol .equal → IsExpression ts e →
      semicolon.kind = .symbol .semicolon →
      IsDeclaration false (keyword :: name :: equal :: (ts ++ [semicolon])) (.constVar name.ident e)
  | function {ts decl} {keyword : Token} : keyword.kind = .keyword .functionKw →
      IsFunction ts decl → IsDeclaration false (keyword :: ts) (.function decl)
  | classDecl {hs name parent ts methods statics} {keyword opening closing : Token} :
      keyword.kind = .keyword .classKw → IsHeading hs name parent →
      opening.kind = .symbol .leftBrace → AreMembers ts methods statics →
      closing.kind = .symbol .rightBrace →
      IsDeclaration false (keyword :: (hs ++ opening :: (ts ++ [closing])))
        (.classDecl name parent methods statics)

/-- A row of declarations. -/
inductive AreDeclarations : List Token → List (Stmt Unit) → Prop
  | nil : AreDeclarations [] []
  | cons {d ts s us ss} : IsDeclaration d ts s → AreDeclarations us ss →
      AreDeclarations (ts ++ us) (s :: ss)

/-- A function or a method, from its name on. -/
inductive IsFunction : List Token → Method → Prop
  | mk {hs name params ts body} {opening closing : Token} : IsSignature hs name params →
      opening.kind = .symbol .leftBrace → AreDeclarations ts body →
      closing.kind = .symbol .rightBrace →
      IsFunction (hs ++ opening :: (ts ++ [closing])) ⟨name, params, body⟩

/-- The methods and the static methods of a class. -/
inductive AreMembers : List Token → List Method → List Method → Prop
  | nil : AreMembers [] [] []
  | method {ts decl us methods statics} : IsFunction ts decl → AreMembers us methods statics →
      AreMembers (ts ++ us) (decl :: methods) statics
  | static {ts decl us methods statics} {keyword : Token} : keyword.kind = .keyword .staticKw →
      IsFunction ts decl → AreMembers us methods statics →
      AreMembers (keyword :: (ts ++ us)) methods (decl :: statics)

end

end ScriptLang.Grammar
