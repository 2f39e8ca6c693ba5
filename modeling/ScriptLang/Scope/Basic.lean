import Std.Data.TreeMap
import ScriptLang.Store.Table
import ScriptLang.Tree.Numbering

/-!
# Scopes

Local names live in scopes; what surrounds all scopes is the global level, which has none.  Resolving a use
of a name says how many scopes out the innermost scope with that name stands.  The answers make a table;
a use without an entry is global.
-/

namespace ScriptLang

/-- How many scopes out the declaration of a use of a name stands. -/
abbrev Locals := Std.TreeMap OccurrenceId Nat

/-- The state of a name in its scope: its initializer is still being resolved, or it may be read. -/
inductive Binding where
  | declared | defined
deriving DecidableEq, Repr

/-- The names of a scope. -/
abbrev Scope := Table Binding

/-- What kind of code surrounds a place. -/
inductive Region where
  | topLevel | function | method | constructor | subclassMethod
deriving DecidableEq, Repr

namespace Region

/-- Whether code in this region has an instance that `this` denotes. -/
def allowsThis : Region → Bool
  | method | constructor | subclassMethod => true
  | _ => false

/-- Whether code in this region has a superclass that `super` denotes. -/
def allowsSuper : Region → Bool
  | subclassMethod => true
  | _ => false

/-- The region of a function declared in this region: closures inside methods are still inside the
method. -/
def nested (region : Region) : Region :=
  if region.allowsThis then region else function

/-- The region of a method with the given name. -/
def ofMethod (inSubclass : Bool) (name : String) : Region :=
  if inSubclass then subclassMethod else if name = "constructor" then constructor else method

end Region

/-- What makes a program unfit to run. -/
inductive ScopeError where
  | ownInitializer (name : String) (line : Nat)
  | returnOutsideFunction (line : Nat)
deriving DecidableEq, Repr

/-- The wording of a scope error. -/
def ScopeError.message : ScopeError → String
  | ownInitializer name line => s!"Cannot read local variable <{name}> in its own initializer (line {line})"
  | returnOutsideFunction line => s!"Cannot return from top-level code (line {line})"

/-- The wording of all scope errors of a program. -/
def ScopeError.report (errors : List ScopeError) : String :=
  s!"Found {errors.length} errors during resolution\n" ++
    String.join (errors.map fun e => e.message ++ "\n")

/-- What is doubtful about a program but does not keep it from running. -/
inductive ScopeWarning where
  | redeclaration (name : String) (line : Nat)
  | thisOutsideMethod (line : Nat)
  | superOutsideSubclass (line : Nat)
  | inheritsFromItself (name : String) (line : Nat)
deriving DecidableEq, Repr

/-- The wording of a scope warning. -/
def ScopeWarning.message : ScopeWarning → String
  | redeclaration name line => s!"Redeclaring variable <{name}> (line {line})"
  | thisOutsideMethod line => s!"Cannot use 'this' outside of a method (line {line})"
  | superOutsideSubclass line => s!"Cannot use 'super' outside of a subclass method (line {line})"
  | inheritsFromItself name line => s!"Class <{name}> cannot inherit from itself (line {line})"

/-- The state of resolving: the scopes around the place that is being resolved, the innermost first, and
what has been found so far. -/
structure Resolver where
  scopes : List Scope
  locals : Locals
  warnings : List ScopeWarning

/-- A resolver that has seen nothing. -/
def Resolver.empty : Resolver :=
  ⟨[], ∅, []⟩

/-- Steps of resolving, which a scope error stops. -/
abbrev Resolving := EStateM ScopeError Resolver

namespace Resolving

/-- Adds a warning. -/
def warn (warning : ScopeWarning) : Resolving Unit :=
  modify fun r => { r with warnings := r.warnings ++ [warning] }

/-- Adds a warning if the condition holds. -/
def warnIf (condition : Bool) (warning : ScopeWarning) : Resolving Unit :=
  if condition then warn warning else pure ()

/-- Enters a name into the innermost scope, if there is one. -/
def bind (name : String) (binding : Binding) : Resolving Unit :=
  modify fun r =>
    match r.scopes with
    | [] => r
    | scope :: outer => { r with scopes := scope.put name binding :: outer }

/-- Whether the innermost scope has a name. -/
def isBound (name : String) : Resolving Bool :=
  return match (← get).scopes with
    | [] => false
    | scope :: _ => scope.has name

/-- Declares a name: it may not be read yet.  Doing so twice in one scope is doubtful. -/
def declare (name : Ident) : Resolving Unit := do
  let again ← isBound name.text
  bind name.text .declared
  warnIf again (.redeclaration name.text name.line)

/-- Defines a name: from here on it may be read. -/
def define (name : String) : Resolving Unit :=
  bind name .defined

/-- How many scopes out the innermost scope with a name stands. -/
def distance? (scopes : List Scope) (name : String) : Option Nat :=
  scopes.findIdx? (·.has name)

/-- Enters the distance of a name under a use of it, if any scope has the name. -/
def locate (id : OccurrenceId) (name : String) : Resolving Unit :=
  modify fun r =>
    match distance? r.scopes name with
    | none => r
    | some depth => { r with locals := r.locals.insert id depth }

/-- Fails if a name is read while its initializer is being resolved in the same scope. -/
def checkReadable (name : Ident) : Resolving Unit := do
  match (← get).scopes with
  | [] => pure ()
  | scope :: _ =>
    if scope.get? name.text = some .declared then throw (.ownInitializer name.text name.line)

/-- Resolves something inside one more scope. -/
def inScope (body : Resolving Unit) : Resolving Unit := do
  modify fun r => { r with scopes := [] :: r.scopes }
  body
  modify fun r => { r with scopes := r.scopes.tail }

end Resolving

end ScriptLang
