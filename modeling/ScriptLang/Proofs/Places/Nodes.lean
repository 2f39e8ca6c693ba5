import ScriptLang.Proofs.Renaming.Redeclarations

/-!
# The places of a program

Where something stands in a program, told without running anything: the local scopes around it, from the inside
out, each with what opened it and with the names that were declared in it in front.  The nodes that resolving asks
about are the uses of names and the returns.

* `ScopeKind`, `LocalScope`, `Place` — the local scopes around a place;
* `Place.member?`, `Place.distance?` — the innermost member of a class around a place, and how many scopes out a name
  is declared;
* `Expr.nodes`, `Stmt.nodes` — the nodes of a program with their places, in the order of the tree;
* `Stmt.uses_nodesList` — these are all uses of names in it.
-/

namespace ScriptLang

variable {ι : Type}

/-- What opens a local scope: a block, a function or method with its parameters, a static method with its
parameters, or a method once more, for its instance and the superclass of its class. -/
inductive ScopeKind (ι : Type) where
  | block | function | static
  | receiver (decl : FunctionDecl (Stmt ι)) (inSubclass : Bool)

/-- A member of a class: a method, with whether the class extends another, or a static method. -/
inductive Member (ι : Type) where
  | method (decl : FunctionDecl (Stmt ι)) (inSubclass : Bool)
  | static

/-- A local scope around a place, with the names declared in it in front of the place. -/
structure LocalScope (ι : Type) where
  kind : ScopeKind ι
  names : List String

/-- A place in a program: the local scopes around it, the innermost first, and the variable or constant in whose
initializer it stands, if it stands in one. -/
structure Place (ι : Type) where
  scopes : List (LocalScope ι)
  initializer : Option String

namespace ScopeKind

/-- Whether the code of a function, method or static method stands in the scope. -/
def isBody : ScopeKind ι → Bool
  | function | static => true
  | block | receiver _ _ => false

/-- The member of a class whose code stands in the scope, if the scope says so. -/
def member? : ScopeKind ι → Option (Member ι)
  | receiver decl inSubclass => some (.method decl inSubclass)
  | static => some .static
  | block | function => none

end ScopeKind

namespace Place

/-- The global level, where there are no local scopes. -/
def global : Place ι := ⟨[], none⟩

/-- The same place behind declarations in the innermost scope. -/
def behind (p : Place ι) (names : List String) : Place ι :=
  match p.scopes with
  | [] => p
  | scope :: outer => { p with scopes := { scope with names := scope.names ++ names } :: outer }

/-- Inside one more scope, behind some names of it. -/
def inside (p : Place ι) (kind : ScopeKind ι) (names : List String) : Place ι :=
  ⟨⟨kind, names⟩ :: p.scopes, none⟩

/-- In the initializer of a variable or constant. -/
def initializing (p : Place ι) (name : String) : Place ι := { p with initializer := some name }

/-- Whether the code of a function, method or static method is around the place. -/
def inFunction (p : Place ι) : Bool := p.scopes.any (·.kind.isBody)

/-- The innermost member of a class that has the place in its code. -/
def member? (p : Place ι) : Option (Member ι) := p.scopes.findSome? (·.kind.member?)

/-- Whether the innermost member of a class around the place is a method. -/
def inMethod (p : Place ι) : Bool :=
  match p.member? with
  | some (.method _ _) => true
  | _ => false

/-- Whether the innermost member of a class around the place is a method of a class that extends another. -/
def inSubclassMethod (p : Place ι) : Bool :=
  match p.member? with
  | some (.method _ inSubclass) => inSubclass
  | _ => false

/-- Whether the place is in the initializer of a local variable or constant with the name. -/
def initializes (p : Place ι) (name : String) : Bool := !p.scopes.isEmpty && p.initializer = some name

/-- How many scopes out the innermost scope stands that has the name declared in front of the place. -/
def distance? (p : Place ι) (name : String) : Option Nat := p.scopes.findIdx? (name ∈ ·.names)

@[simp] lemma behind_nil (p : Place ι) : p.behind [] = p := by
  rcases p with ⟨_ | ⟨scope, outer⟩, initializer⟩ <;> simp [behind]

@[simp] lemma behind_behind (p : Place ι) (ns ms : List String) : (p.behind ns).behind ms = p.behind (ns ++ ms) := by
  rcases p with ⟨_ | ⟨scope, outer⟩, initializer⟩ <;> simp [behind]

@[simp] lemma global_behind (names : List String) : (global : Place ι).behind names = global := rfl

@[simp] lemma behind_initializer (p : Place ι) (names : List String) : (p.behind names).initializer = p.initializer := by
  rcases p with ⟨_ | ⟨scope, outer⟩, initializer⟩ <;> rfl

/-- What opened the scopes around a place. -/
def kinds (p : Place ι) : List (ScopeKind ι) := p.scopes.map (·.kind)

@[simp] lemma kinds_behind (p : Place ι) (names : List String) : (p.behind names).kinds = p.kinds := by
  rcases p with ⟨_ | ⟨scope, outer⟩, initializer⟩ <;> rfl

@[simp] lemma kinds_initializing (p : Place ι) (name : String) : (p.initializing name).kinds = p.kinds := rfl

lemma member?_eq (p : Place ι) : p.member? = p.kinds.findSome? ScopeKind.member? := by
  rw [member?, kinds, List.findSome?_map]
  rfl

lemma inFunction_eq (p : Place ι) : p.inFunction = p.kinds.any ScopeKind.isBody := by
  rw [inFunction, kinds, List.any_map]
  rfl

@[simp] lemma inFunction_behind (p : Place ι) (names : List String) : (p.behind names).inFunction = p.inFunction := by
  rw [inFunction_eq, inFunction_eq, kinds_behind]

end Place

/-- The names that a method finds in the scope around its own. -/
def reservedFor (inSubclass : Bool) : List String := if inSubclass then ["this", "super"] else ["this"]

/-- What resolving asks about: a word that reads a variable, an assignment, or a return. -/
inductive Node (ι : Type) where
  | read (kind : NameKind) (use : Occurrence ι)
  | assign (target : Occurrence ι)
  | return (line : Nat)

/-- The use of a name at a node, and the name under which it is looked up. -/
def Node.looksUp? : Node ι → Option (Occurrence ι × String)
  | .read kind use => some (use, Resolving.lookedUp kind use.text)
  | .assign target => some (target, target.text)
  | .return _ => none

mutual

/-- The nodes of an expression. -/
def Expr.nodes : Expr ι → List (Node ι)
  | .literal _ => []
  | .name kind use => [.read kind use]
  | .assign target value => value.nodes ++ [.assign target]
  | .unary _ _ operand => operand.nodes
  | .binary _ _ left right => left.nodes ++ right.nodes
  | .logical _ _ left right => left.nodes ++ right.nodes
  | .group inner => inner.nodes
  | .call _ callee args => callee.nodes ++ Expr.nodesList args
  | .get object _ => object.nodes
  | .superGet keyword _ => [.read .super keyword]
  | .set object _ value => object.nodes ++ value.nodes

/-- The nodes of several expressions. -/
def Expr.nodesList : List (Expr ι) → List (Node ι)
  | [] => []
  | e :: es => e.nodes ++ Expr.nodesList es

end

/-- The nodes of an expression that may be missing. -/
def Expr.nodesOption : Option (Expr ι) → List (Node ι)
  | none => []
  | some e => e.nodes

/-- Nodes at one place. -/
def nodesAt (p : Place ι) (nodes : List (Node ι)) : List (Node ι × Place ι) := nodes.map (·, p)

lemma nodesAt_append (p : Place ι) (ns ms : List (Node ι)) : nodesAt p (ns ++ ms) = nodesAt p ns ++ nodesAt p ms :=
  List.map_append

mutual

/-- The nodes of a statement at a place, each with its own place.  An expression has no scopes of its own, so all of
its nodes stand at one place. -/
def Stmt.nodes (p : Place ι) : Stmt ι → List (Node ι × Place ι)
  | .expr e | .print e => nodesAt p e.nodes
  | .letVar name value => nodesAt ((p.behind [name.text]).initializing name.text) (Expr.nodesOption value)
  | .constVar name value => nodesAt ((p.behind [name.text]).initializing name.text) value.nodes
  | .block body => Stmt.nodesList (p.inside .block []) body
  | .ifThen condition yes => nodesAt p condition.nodes ++ yes.nodes p
  | .ifElse condition yes no =>
    nodesAt p condition.nodes ++ (yes.nodes p ++ no.nodes (p.behind yes.scopeNames))
  | .while condition body => nodesAt p condition.nodes ++ body.nodes p
  | .function decl => FunctionDecl.nodes .function (p.behind [decl.name.text]) decl
  | .return line value => nodesAt p (.return line :: Expr.nodesOption value)
  | .classDecl name parent methods statics =>
    nodesAt p (parent.toList.map (.read .identifier)) ++
      (FunctionDecl.methodNodes parent.isSome (p.behind [name.text]) methods ++
        FunctionDecl.staticNodes (p.behind [name.text]) statics)

/-- The nodes of several statements, each behind the ones in front of it. -/
def Stmt.nodesList (p : Place ι) : List (Stmt ι) → List (Node ι × Place ι)
  | [] => []
  | s :: ss => s.nodes p ++ Stmt.nodesList (p.behind s.scopeNames) ss

/-- The nodes of a function, whose parameters and body share a scope. -/
def FunctionDecl.nodes (kind : ScopeKind ι) (p : Place ι) : FunctionDecl (Stmt ι) → List (Node ι × Place ι)
  | ⟨_, params, body⟩ => Stmt.nodesList (p.inside kind (params.map (·.text))) body

/-- The nodes of the methods of a class. -/
def FunctionDecl.methodNodes (inSubclass : Bool) (p : Place ι) :
    List (FunctionDecl (Stmt ι)) → List (Node ι × Place ι)
  | [] => []
  | d :: ds => FunctionDecl.nodes .function (p.inside (.receiver d inSubclass) (reservedFor inSubclass)) d ++
      FunctionDecl.methodNodes inSubclass p ds

/-- The nodes of the static methods of a class. -/
def FunctionDecl.staticNodes (p : Place ι) : List (FunctionDecl (Stmt ι)) → List (Node ι × Place ι)
  | [] => []
  | d :: ds => FunctionDecl.nodes .static p d ++ FunctionDecl.staticNodes p ds

end

/-- The nodes of a program with their places. -/
def Program.nodes (program : Program ι) : List (Node ι × Place ι) := Stmt.nodesList .global program

/-! ### All uses of names -/

/-- The uses of names at nodes. -/
def usesOf (nodes : List (Node ι)) : List (Occurrence ι) := nodes.filterMap fun n => n.looksUp?.map (·.1)

@[simp] lemma usesOf_append (ns ms : List (Node ι)) : usesOf (ns ++ ms) = usesOf ns ++ usesOf ms :=
  List.filterMap_append

mutual

theorem Expr.usesOf_nodes : ∀ e : Expr ι, usesOf e.nodes = e.occurrences
  | .literal _ | .name _ _ | .superGet _ _ => rfl
  | .assign target value => by
    rw [Expr.nodes, Expr.occurrences, usesOf_append, value.usesOf_nodes]
    rfl
  | .unary _ _ e | .group e | .get e _ => e.usesOf_nodes
  | .binary _ _ e e' | .logical _ _ e e' | .set e _ e' => by
    rw [Expr.nodes, Expr.occurrences, usesOf_append, e.usesOf_nodes, e'.usesOf_nodes]
  | .call _ e es => by
    rw [Expr.nodes, Expr.occurrences, usesOf_append, e.usesOf_nodes, Expr.usesOf_nodesList es]

theorem Expr.usesOf_nodesList : ∀ es : List (Expr ι), usesOf (Expr.nodesList es) = Expr.occurrencesList es
  | [] => rfl
  | e :: es => by
    rw [Expr.nodesList, Expr.occurrencesList, usesOf_append, e.usesOf_nodes, Expr.usesOf_nodesList es]

end

lemma Expr.usesOf_nodesOption (e : Option (Expr ι)) : usesOf (Expr.nodesOption e) = Expr.occurrencesOption e := by
  cases e with
  | none => rfl
  | some e => exact e.usesOf_nodes

lemma usesOf_reads (parent : Option (Occurrence ι)) :
    usesOf (parent.toList.map (.read .identifier)) = parent.toList := by
  cases parent <;> rfl

lemma map_fst_nodesAt (p : Place ι) (nodes : List (Node ι)) : (nodesAt p nodes).map (·.1) = nodes := by
  rw [nodesAt, List.map_map]
  exact List.map_id' nodes

mutual

theorem Stmt.uses_nodes (p : Place ι) : ∀ s : Stmt ι, usesOf ((s.nodes p).map (·.1)) = s.occurrences
  | .expr e | .print e => by
    rw [Stmt.nodes, Stmt.occurrences, map_fst_nodesAt, e.usesOf_nodes]
  | .letVar _ value => by
    rw [Stmt.nodes, Stmt.occurrences, map_fst_nodesAt, Expr.usesOf_nodesOption]
  | .constVar _ value => by
    rw [Stmt.nodes, Stmt.occurrences, map_fst_nodesAt, value.usesOf_nodes]
  | .block body => by
    rw [Stmt.nodes, Stmt.occurrences, Stmt.uses_nodesList _ body]
  | .ifThen c s | .while c s => by
    rw [Stmt.nodes, Stmt.occurrences, List.map_append, usesOf_append, map_fst_nodesAt, c.usesOf_nodes,
      s.uses_nodes p]
  | .ifElse c yes no => by
    rw [Stmt.nodes, Stmt.occurrences, List.map_append, List.map_append, usesOf_append, usesOf_append, map_fst_nodesAt,
      c.usesOf_nodes, yes.uses_nodes p, no.uses_nodes, List.append_assoc]
  | .function decl => by
    rw [Stmt.nodes, Stmt.occurrences, FunctionDecl.uses_nodes]
  | .return line value => by
    rw [Stmt.nodes, Stmt.occurrences, map_fst_nodesAt]
    exact Expr.usesOf_nodesOption value
  | .classDecl name parent methods statics => by
    rw [Stmt.nodes, Stmt.occurrences, List.map_append, List.map_append, usesOf_append, usesOf_append, map_fst_nodesAt,
      usesOf_reads, FunctionDecl.uses_methodNodes, FunctionDecl.uses_staticNodes, List.append_assoc]

theorem Stmt.uses_nodesList (p : Place ι) : ∀ ss : List (Stmt ι),
    usesOf ((Stmt.nodesList p ss).map (·.1)) = Stmt.occurrencesList ss
  | [] => rfl
  | s :: ss => by
    rw [Stmt.nodesList, Stmt.occurrencesList, List.map_append, usesOf_append, s.uses_nodes p,
      Stmt.uses_nodesList _ ss]

theorem FunctionDecl.uses_nodes (kind : ScopeKind ι) (p : Place ι) : ∀ d : FunctionDecl (Stmt ι),
    usesOf ((FunctionDecl.nodes kind p d).map (·.1)) = FunctionDecl.occurrences d
  | ⟨_, _, body⟩ => by
    rw [FunctionDecl.nodes, FunctionDecl.occurrences, Stmt.uses_nodesList _ body]

theorem FunctionDecl.uses_methodNodes (inSubclass : Bool) (p : Place ι) : ∀ ds : List (FunctionDecl (Stmt ι)),
    usesOf ((FunctionDecl.methodNodes inSubclass p ds).map (·.1)) = FunctionDecl.occurrencesList ds
  | [] => rfl
  | d :: ds => by
    rw [FunctionDecl.methodNodes, FunctionDecl.occurrencesList, List.map_append, usesOf_append,
      FunctionDecl.uses_nodes _ _ d, FunctionDecl.uses_methodNodes inSubclass p ds]

theorem FunctionDecl.uses_staticNodes (p : Place ι) : ∀ ds : List (FunctionDecl (Stmt ι)),
    usesOf ((FunctionDecl.staticNodes p ds).map (·.1)) = FunctionDecl.occurrencesList ds
  | [] => rfl
  | d :: ds => by
    rw [FunctionDecl.staticNodes, FunctionDecl.occurrencesList, List.map_append, usesOf_append,
      FunctionDecl.uses_nodes _ _ d, FunctionDecl.uses_staticNodes p ds]

end

end ScriptLang
