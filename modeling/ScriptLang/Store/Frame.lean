import ScriptLang.Store.Value
import ScriptLang.Text.Quoted

/-!
# Frames

A frame binds names to values, some for good.  Frames stand in a row in the order in which they were made;
each but the outermost ones has an older frame around it.  A name is bound by the nearest frame that has it.
-/

namespace ScriptLang

/-- One frame: what may be assigned to, what may not, and the frame around it. -/
structure Frame where
  mutables : Table Value
  constants : Table Value
  parent : Option FrameId

/-- Why a frame refuses an operation. -/
inductive FrameError where
  | alreadyDeclared (name : String)
  | undefined (name : String)
  | assignmentToConstant (name : String)
deriving DecidableEq, Repr

/-- The wording of a frame error. -/
def FrameError.message : FrameError → String
  | alreadyDeclared name => s!"Identifier <{name}> has already been declared"
  | undefined name => s!"Undefined variable <{name}>"
  | assignmentToConstant name => s!"Assignment to constant variable <{name}>"

namespace Frame

/-- A frame without names. -/
def empty (parent : Option FrameId) : Frame :=
  ⟨[], [], parent⟩

/-- Whether a frame has a name, as a variable or as a constant. -/
def binds (f : Frame) (name : String) : Bool :=
  f.mutables.has name || f.constants.has name

/-- The value of a name in a frame. -/
def get? (f : Frame) (name : String) : Option Value :=
  (f.mutables.get? name).or (f.constants.get? name)

/-- The frame with one more name, which it must not have yet. -/
def define (f : Frame) (name : String) (value : Value) (constant : Bool) : Except FrameError Frame :=
  if f.binds name then .error (.alreadyDeclared name)
  else if constant then .ok { f with constants := f.constants.put name value }
  else .ok { f with mutables := f.mutables.put name value }

/-- The frame with another value under a name, which it must have as a variable. -/
def assign (f : Frame) (name : String) (value : Value) : Except FrameError Frame :=
  if f.constants.has name then .error (.assignmentToConstant name)
  else if f.mutables.has name then .ok { f with mutables := f.mutables.put name value }
  else .error (.undefined name)

/-- The names of a frame as text.  Of a frame around it no more is said than that there is one. -/
def text (f : Frame) : String :=
  let list (t : Table Value) := "[" ++ ", ".intercalate (t.sortedNames.map Text.quote) ++ "]"
  let parent := match f.parent with
    | none => "None \x7d"
    | some _ => "Some"
  "Environment \x7b values: " ++ list f.mutables ++ ", constants: " ++ list f.constants ++ ", parent: "
    ++ parent

end Frame

/-- All frames, in the order in which they were made. -/
abbrev Frames := Array Frame

namespace Frames

/-- The frame in a place; where there is none, one without names. -/
def frame (fs : Frames) (i : FrameId) : Frame :=
  fs[i]?.getD (.empty none)

/-- The frame around a frame, which is always an older one. -/
def parent? (fs : Frames) (i : FrameId) : Option FrameId :=
  (fs.frame i).parent.filter (· < i)

theorem parent?_lt {fs : Frames} {i p : FrameId} (h : fs.parent? i = some p) : p < i := by
  have := (Option.filter_eq_some_iff.1 h).2
  simpa using this

/-- A frame and the frames around it, from the inside out. -/
def chain (fs : Frames) (i : FrameId) : List FrameId :=
  match _h : fs.parent? i with
  | none => [i]
  | some p => i :: chain fs p
termination_by i
decreasing_by exact parent?_lt _h

/-- The nearest frame that has a name. -/
def holder? (fs : Frames) (i : FrameId) (name : String) : Option FrameId :=
  (fs.chain i).find? fun j => (fs.frame j).binds name

/-- The frame a number of steps out; beyond the outermost frame there is none, so the steps end there. -/
def ancestor (fs : Frames) : Nat → FrameId → FrameId
  | 0, i => i
  | hops + 1, i =>
    match fs.parent? i with
    | none => i
    | some p => ancestor fs hops p

/-- The value of a name in the nearest frame that has it. -/
def get (fs : Frames) (i : FrameId) (name : String) : Except FrameError Value :=
  match (fs.chain i).findSome? fun j => (fs.frame j).get? name with
  | some value => .ok value
  | none => .error (.undefined name)

/-- The value of a name in the frame a number of steps out. -/
def getAt (fs : Frames) (i : FrameId) (hops : Nat) (name : String) : Except FrameError Value :=
  match (fs.frame (fs.ancestor hops i)).get? name with
  | some value => .ok value
  | none => .error (.undefined name)

/-- Operations that may change frames, and leave them as they are if they fail. -/
abbrev Change := EStateM FrameError Frames

/-- Changes one frame. -/
def update (i : FrameId) (f : Frame → Except FrameError Frame) : Change Unit := fun fs =>
  match f (fs.frame i) with
  | .error e => .error e fs
  | .ok frame => .ok () (fs.setIfInBounds i frame)

/-- One more frame, in the place behind all others. -/
def add (fs : Frames) (frame : Frame) : Frames :=
  Array.push fs frame

/-- Binds a name in a frame. -/
def define (i : FrameId) (name : String) (value : Value) (constant : Bool) : Change Unit :=
  update i fun f => f.define name value constant

/-- Assigns to a name in the nearest frame that has it. -/
def assign (i : FrameId) (name : String) (value : Value) : Change Unit := fun fs =>
  match fs.holder? i name with
  | none => .error (.undefined name) fs
  | some j => update j (fun f => f.assign name value) fs

/-- Assigns to a name in the frame a number of steps out. -/
def assignAt (i : FrameId) (hops : Nat) (name : String) (value : Value) : Change Unit := fun fs =>
  update (fs.ancestor hops i) (fun f => f.assign name value) fs

end Frames

end ScriptLang
