import ScriptLang.Store.Table
import ScriptLang.Tree.Numbering
import ScriptLang.Number.Text

/-!
# Values

What a script computes with.  Functions, classes and instances have an identity: each is made with a stamp of
its own, and two of them are equal exactly if their stamps are.  A function remembers the frame in which it
was declared; a class knows the classes it descends from; the properties of an instance are kept apart from
it, under its identity.
-/

namespace ScriptLang

/-- The place of a frame in the store. -/
abbrev FrameId := Nat

/-- The place of the properties of an instance in the store. -/
abbrev ObjectId := Nat

/-- The identity of a function or class. -/
abbrev Stamp := Nat

/-- A declared function together with the frame in which it was declared. -/
structure Closure where
  stamp : Stamp
  decl : FunctionDecl (Stmt OccurrenceId)
  frame : FrameId

namespace Closure

/-- The name of a function. -/
def name (f : Closure) : String :=
  f.decl.name.text

/-- The number of arguments that a function takes. -/
def arity (f : Closure) : Nat :=
  f.decl.arity

end Closure

/-- What one class declaration declares. -/
structure ClassBody where
  stamp : Stamp
  name : String
  methods : Table Closure
  statics : Table Closure

/-- A class: its own declaration and those of the classes it descends from, the nearest first. -/
structure Class where
  own : ClassBody
  ancestors : List ClassBody

namespace Class

/-- The name of the method that makes a new instance ready. -/
def constructorName : String := "constructor"

/-- The class that a class extends. -/
def superclass? (c : Class) : Option Class :=
  match c.ancestors with
  | [] => none
  | parent :: ancestors => some ⟨parent, ancestors⟩

/-- The class that extends another one, or none, and declares something of its own. -/
def extending (parent : Option Class) (own : ClassBody) : Class :=
  match parent with
  | none => ⟨own, []⟩
  | some p => ⟨own, p.own :: p.ancestors⟩

/-- The class with the given declaration and ancestors, and all classes it descends from. -/
def lineageFrom (own : ClassBody) : List ClassBody → List Class
  | [] => [⟨own, []⟩]
  | parent :: ancestors => ⟨own, parent :: ancestors⟩ :: lineageFrom parent ancestors

/-- A class and all classes it descends from, the nearest first. -/
def lineage (c : Class) : List Class :=
  lineageFrom c.own c.ancestors

/-- The nearest class of the lineage that declares a method, and the method. -/
def findMethod? (c : Class) (name : String) : Option (Class × Closure) :=
  c.lineage.findSome? fun d => (d.own.methods.get? name).map fun f => (d, f)

/-- The static method that the nearest class of the lineage declares under a name. -/
def findStatic? (c : Class) (name : String) : Option Closure :=
  c.lineage.findSome? fun d => d.own.statics.get? name

/-- The number of arguments that making an instance takes: that of the nearest constructor. -/
def arity (c : Class) : Nat :=
  match c.findMethod? constructorName with
  | none => 0
  | some (_, f) => f.arity

end Class

/-- An instance of a class. -/
structure Object where
  id : ObjectId
  cls : Class

/-- A value. -/
inductive Value where
  | null
  | bool (b : Bool)
  | number (x : Float)
  | string (s : String)
  | closure (f : Closure)
  | ofClass (c : Class)
  | object (o : Object)

instance : Inhabited Value := ⟨.null⟩

/-- The types of values. -/
inductive ValueType where
  | null | boolean | number | string | function | ofClass | object
deriving DecidableEq, Repr

/-- What a type is called in messages. -/
def ValueType.name : ValueType → String
  | null => "null"
  | boolean => "boolean"
  | number => "number"
  | string => "string"
  | function => "function"
  | ofClass => "class"
  | object => "instance"

namespace Value

/-- The type of a value. -/
def type : Value → ValueType
  | null => .null
  | bool _ => .boolean
  | number _ => .number
  | string _ => .string
  | closure _ => .function
  | ofClass _ => .ofClass
  | object _ => .object

/-- The text of a value. -/
def text : Value → String
  | null => "null"
  | bool b => if b then "true" else "false"
  | number x => Number.text x
  | string s => s
  | closure f => s!"<function {f.name}>"
  | ofClass c => s!"<class {c.own.name}>"
  | object o => s!"<{o.cls.own.name} instance>"

/-- Whether a value counts as true: all do but null, false, zero and the empty string. -/
def isTruthy : Value → Bool
  | null => false
  | bool b => b
  | number x => x != 0.0
  | string s => !s.isEmpty
  | closure _ | ofClass _ | object _ => true

/-- Whether two values are equal.  Functions, classes and instances are equal only to themselves. -/
def equals : Value → Value → Bool
  | null, null => true
  | bool a, bool b => a == b
  | number x, number y => x == y
  | string s, string t => s == t
  | closure f, closure g => f.stamp == g.stamp
  | ofClass c, ofClass d => c.own.stamp == d.own.stamp
  | object o, object p => o.id == p.id
  | _, _ => false

end Value

/-- The value that a literal stands for. -/
def Literal.value : Literal → Value
  | null => .null
  | bool b => .bool b
  | number x => .number x
  | string s => .string s

end ScriptLang
