import ScriptLang.Scope.Basic
import ScriptLang.Eval.Operator
import ScriptLang.Text.Utf8

/-!
# The machine that runs programs

The state of running programs, and the single steps on it: frames, objects, output.  A run ends with a value,
with a runtime error, or because its fuel is used up; the state is kept in all three cases.
-/

namespace ScriptLang

/-! ### Output -/

/-- Where output goes: what has been written, and how many more bytes fit, if there is a limit. -/
structure Sink where
  written : ByteArray
  room : Option Nat

namespace Sink

/-- An empty sink with a limit or without one. -/
def empty (room : Option Nat) : Sink :=
  ⟨ByteArray.empty, room⟩

/-- Whether some bytes fit. -/
def fits (s : Sink) (bytes : ByteArray) : Bool :=
  match s.room with
  | none => true
  | some n => bytes.size ≤ n

/-- The sink after bytes were written to it; what does not fit is lost. -/
def write (s : Sink) (bytes : ByteArray) : Sink :=
  match s.room with
  | none => ⟨s.written ++ bytes, none⟩
  | some n => ⟨s.written ++ bytes.extract 0 n, some (n - bytes.size)⟩

/-- What has been written from a place on, as text. -/
def textFrom (s : Sink) (start : Nat) : String :=
  Text.ofBytes (s.written.extract start s.written.size)

end Sink

/-! ### State -/

/-- The state of running programs: all frames, the properties of all objects, the next stamp, the frame that
names are looked up in, the distances of the local uses of names, and the output. -/
structure Machine where
  frames : Frames
  objects : Array (Table Value)
  nextStamp : Stamp
  current : FrameId
  locals : Locals
  sink : Sink

/-- The frame of the global names. -/
def globalFrame : FrameId := 0

namespace Machine

/-- A machine that has run nothing: its only frame is the global one. -/
def initial (limit : Option Nat) : Machine where
  frames := #[.empty none]
  objects := #[]
  nextStamp := 0
  current := globalFrame
  locals := ∅
  sink := .empty limit

/-- Adds the distances of another program. -/
def install (m : Machine) (locals : Locals) : Machine :=
  { m with locals := m.locals ∪ locals }

/-- The names of the global variables. -/
def globals (m : Machine) : List String :=
  (m.frames.frame globalFrame).mutables.sortedNames

/-- The names of the global constants. -/
def constants (m : Machine) : List String :=
  (m.frames.frame globalFrame).constants.sortedNames

end Machine

/-- What ends a run before it has a value. -/
inductive Stop where
  | error (e : RuntimeError)
  | outOfFuel
deriving DecidableEq, Repr

/-- Steps of running a program. -/
abbrev Eval := EStateM Stop Machine

/-- What a statement does to the statements behind it: nothing, or it ends the function with a value. -/
inductive Flow where
  | normal
  | returned (value : Value)

namespace Eval

variable {α : Type}

/-- Stops with a runtime error. -/
def fail (e : RuntimeError) : Eval α :=
  throw (.error e)

/-- A value, or an error of a name used on the given line. -/
def ofFrames (line : Nat) : Except FrameError α → Eval α
  | .ok a => pure a
  | .error e => fail (e.atLine line)

/-- A value, or a mismatch on the given line. -/
def ofTypes (line : Nat) : Except Mismatch α → Eval α
  | .ok a => pure a
  | .error e => fail (.typeMismatch e line)

/-! ### Frames -/

/-- Changes the frames. -/
def change (line : Nat) (op : Frames.Change α) : Eval α := fun m =>
  let frames := m.frames
  let m := { m with frames := #[] }
  match op frames with
  | .ok a frames => .ok a { m with frames }
  | .error e frames => .error (.error (e.atLine line)) { m with frames }

/-- Makes a new frame. -/
def newFrame (frame : Frame) : Eval FrameId :=
  modifyGet fun m => (m.frames.size, { m with frames := m.frames.add frame })

/-- Binds a name in the current frame. -/
def define (name : Ident) (value : Value) (constant : Bool) : Eval Unit := do
  change name.line (Frames.define (← get).current name.text value constant)

/-- Runs something with another current frame; whatever comes of it, the frame is current again. -/
def inFrame (i : FrameId) (body : Eval α) : Eval α := fun m =>
  let saved := m.current
  match body { m with current := i } with
  | .ok a m => .ok a { m with current := saved }
  | .error e m => .error e { m with current := saved }

/-- The value of a name for a use of a name: in the frame at the distance of the use, or global. -/
def lookUpAs (use : Occurrence OccurrenceId) (name : String) : Eval Value := do
  let m ← get
  ofFrames use.line <|
    match m.locals[use.id]? with
    | some hops => m.frames.getAt m.current hops name
    | none => m.frames.get globalFrame name

/-- The value of a use of a name. -/
def lookUp (use : Occurrence OccurrenceId) : Eval Value :=
  lookUpAs use use.text

/-- Assigns to a use of a name. -/
def assign (use : Occurrence OccurrenceId) (value : Value) : Eval Unit := do
  let m ← get
  let current := m.current
  match m.locals[use.id]? with
  | some hops => change use.line (Frames.assignAt current hops use.text value)
  | none => change use.line (Frames.assign globalFrame use.text value)

/-! ### Functions, classes and objects -/

/-- A stamp that nothing has yet. -/
def newStamp : Eval Stamp :=
  modifyGet fun m => (m.nextStamp, { m with nextStamp := m.nextStamp + 1 })

/-- A declared function, which remembers the current frame. -/
def newClosure (decl : FunctionDecl (Stmt OccurrenceId)) : Eval Closure := do
  return ⟨← newStamp, decl, (← get).current⟩

/-- The functions of several declarations by their names; of several under one name the last counts. -/
def newClosures (decls : List (FunctionDecl (Stmt OccurrenceId))) : Eval (Table Closure) := do
  return .ofEntries (← decls.mapM fun d => return (d.name.text, ← newClosure d))

/-- An instance without properties. -/
def newObject (cls : Class) : Eval Object :=
  modifyGet fun m => (⟨m.objects.size, cls⟩, { m with objects := m.objects.push [] })

/-- The frame in which a method finds its instance and the superclass of its class. -/
def receiverFrame (f : Closure) (owner : Class) (o : Object) : Frame where
  mutables :=
    ("this", .object o) ::
      match owner.superclass? with
      | none => []
      | some c => [("super", .ofClass c)]
  constants := []
  parent := some f.frame

/-- A method that the class `owner` declares, bound to an instance: a function of its own. -/
def bindMethod (f : Closure) (owner : Class) (o : Object) : Eval Closure := do
  let frame ← newFrame (receiverFrame f owner o)
  return ⟨← newStamp, f.decl, frame⟩

/-- The method of an instance that is found from the given class on. -/
def method (o : Object) (start : Class) (name : Ident) : Eval Value := do
  match start.findMethod? name.text with
  | some (owner, f) => return .closure (← bindMethod f owner o)
  | none => fail (.invalidPropertyAccess name.text (Value.object o).text name.line)

/-- A property of a value: of an instance its own property or else a method, of a class a static method. -/
def property (v : Value) (name : Ident) : Eval Value := do
  match v with
  | .object o =>
    match ((← get).objects.getD o.id []).get? name.text with
    | some value => return value
    | none => method o o.cls name
  | .ofClass c =>
    match c.findStatic? name.text with
    | some f => return .closure f
    | none => fail (.invalidPropertyAccess name.text v.text name.line)
  | v => fail (.invalidPropertyAccess name.text v.text name.line)

/-- The method that stands behind `super` and a point: it is found from the superclass on and bound to the
instance of the frame that holds the superclass. -/
def superProperty (keyword : Occurrence OccurrenceId) (name : Ident) : Eval Value := do
  match ← lookUp keyword with
  | .ofClass c =>
    match ← lookUpAs keyword "this" with
    | .object o => method o c name
    | v => fail (.invalidPropertyAccess name.text v.text name.line)
  | v => fail (.invalidPropertyAccess name.text v.text name.line)

/-- Sets a property of an instance. -/
def setProperty (o : Object) (name : Ident) (value : Value) : Eval Unit :=
  modify fun m => { m with objects := m.objects.modify o.id fun t => t.put name.text value }

/-! ### Output -/

/-- Writes a line. -/
def printLine (text : String) : Eval Unit := fun m =>
  let bytes := (text ++ "\n").toUTF8
  let full := !m.sink.fits bytes
  let sink := m.sink
  let m := { m with sink := .empty none }
  let m := { m with sink := sink.write bytes }
  if full then .error (.error .sinkFull) m else .ok () m

end Eval

end ScriptLang
