import ScriptLang.Proofs.Observing.Traced
import ScriptLang.Eval.Run

/-!
# Observed runs

Running with marks.  An observer says at which points of a run a mark is set, and which one; there is one evaluator
for all observers.  The moments of expressions, the events, the printed lines and the definitions of a run are what
four observers see of it.

* `Observer` — the marks, one field for each kind of point;
* `Observer.evaluate`, `Observer.execute`, `Observer.invoke` — running, marked;
* `Observer.erased` — whatever an observer marks, without the marks this is running;
* `Observer.property_unmarked`, `Observer.declareClass_unmarked`, … — steps at which an observer marks nothing;
* `Observer.moments` — all that an observer sees of a run of a program.
-/

namespace ScriptLang

/-- The marks that are set in a run, if any, at the points of each kind.  `κ` is what the observer knows of the scope
in front of a statement. -/
structure Observer (κ ω : Type) where
  /-- What is known in a new scope that has names of parameters, or none. -/
  inside : List String → κ
  /-- What is known behind a statement. -/
  behind : κ → Stmt OccurrenceId → κ
  /-- A statement begins. -/
  executes : Stmt OccurrenceId → Option ω := fun _ => none
  /-- An expression begins; so does the name of the class that another one extends. -/
  evaluates : Expr OccurrenceId → Option ω := fun _ => none
  /-- A declaration is about to define its name in a frame. -/
  defines : κ → Ident → FrameId → Value → Bool → Option ω := fun _ _ _ _ _ => none
  /-- A line is about to be printed. -/
  prints : String → Option ω := fun _ => none
  /-- A method that a class declares is about to be bound to an instance. -/
  binds : Closure → Class → Object → Option ω := fun _ _ _ => none
  /-- A function is about to be called. -/
  calls : Closure → Option ω := fun _ => none
  /-- A call has ended with a value. -/
  gives : Value → Option ω := fun _ => none
  /-- A bound constructor is about to be run. -/
  constructs : Closure → Option ω := fun _ => none
  /-- The run of a constructor has ended, and its value is not used. -/
  discards : Value → Option ω := fun _ => none
  /-- A return statement returns a value. -/
  returns : Value → Option ω := fun _ => none

namespace Eval

variable {α ω : Type}

/-- Runs something with another current frame, marked. -/
def inFrameT (i : FrameId) (body : Traced Stop Machine ω α) : Traced Stop Machine ω α :=
  ⟨inFrame i body.run, fun m => body.trace { m with current := i }⟩

/-- Repeats a body as long as a test holds, marked. -/
def repeatWhileT (test : Traced Stop Machine ω Value) (body : Traced Stop Machine ω Flow) :
    Nat → Traced Stop Machine ω Flow
  | 0 => .lift (throw .outOfFuel)
  | fuel + 1 => do
    if (← test).isTruthy then
      match ← body with
      | .normal => repeatWhileT test body fuel
      | .returned value => return .returned value
    else return .normal

/-- What declaring a class does once its superclass is known and its name is bound. -/
def finishClass (name : Ident) (parent : Option Class)
    (methods statics : List (FunctionDecl (Stmt OccurrenceId))) : Eval Unit := do
  let body : ClassBody := ⟨← newStamp, name.text, ← newClosures methods, ← newClosures statics⟩
  change name.line
    (Frames.assignAt (← get).current 0 name.text (.ofClass (.extending parent body)))

/-- What declaring a class does once its superclass is known. -/
def declareBody (name : Ident) (parent : Option Class)
    (methods statics : List (FunctionDecl (Stmt OccurrenceId))) : Eval Unit := do
  define name .null false
  finishClass name parent methods statics

end Eval

namespace Observer

open Eval (lookUp lookUpAs inFrameT repeatWhileT)

variable {κ ω : Type} (obs : Observer κ ω)

/-! ### Parts of runs -/

/-- Binds a name in a frame, marked. -/
def defineIn (k : κ) (name : Ident) (frame : FrameId) (value : Value) (constant : Bool) : Traced Stop Machine ω Unit :=
  .mark (obs.defines k name frame value constant)
    (.lift (Eval.change name.line (Frames.define frame name.text value constant)))

/-- Binds a name in the current frame, marked. -/
def define (k : κ) (name : Ident) (value : Value) (constant : Bool) : Traced Stop Machine ω Unit := do
  let m ← .lift get
  obs.defineIn k name m.current value constant

/-- Binds parameters to arguments in a frame that has the names of other parameters, marked. -/
def bindParams (frame : FrameId) (bound : List String) : List Ident → List Value → Traced Stop Machine ω Unit
  | p :: ps, v :: vs => do
    obs.defineIn (obs.inside bound) p frame v false
    bindParams frame (bound ++ [p.text]) ps vs
  | _, _ => pure ()

/-- Binds a method to an instance, marked. -/
def bindMethod (f : Closure) (owner : Class) (o : Object) : Traced Stop Machine ω Closure :=
  .mark (obs.binds f owner o) (.lift (Eval.bindMethod f owner o))

/-- The method of an instance that is found from the given class on, marked. -/
def method (o : Object) (start : Class) (name : Ident) : Traced Stop Machine ω Value := do
  match start.findMethod? name.text with
  | some (owner, f) => return .closure (← obs.bindMethod f owner o)
  | none => .lift (Eval.fail (.invalidPropertyAccess name.text (Value.object o).text name.line))

/-- A property of a value, marked. -/
def property (v : Value) (name : Ident) : Traced Stop Machine ω Value := do
  match v with
  | .object o =>
    let m ← .lift get
    match (m.objects.getD o.id []).get? name.text with
    | some value => return value
    | none => obs.method o o.cls name
  | v => .lift (Eval.property v name)

/-- The method that stands behind `super` and a point, marked. -/
def superProperty (keyword : Occurrence OccurrenceId) (name : Ident) : Traced Stop Machine ω Value := do
  match ← .lift (lookUp keyword) with
  | .ofClass c =>
    match ← .lift (lookUpAs keyword "this") with
    | .object o => obs.method o c name
    | v => .lift (Eval.fail (.invalidPropertyAccess name.text v.text name.line))
  | v => .lift (Eval.fail (.invalidPropertyAccess name.text v.text name.line))

/-- Executes the statements of a scope one after another, marked. -/
def sequence (run : κ → Stmt OccurrenceId → Traced Stop Machine ω Flow) (k : κ) :
    List (Stmt OccurrenceId) → Traced Stop Machine ω Flow
  | [] => return .normal
  | s :: ss => do
    match ← run k s with
    | .normal => sequence run (obs.behind k s) ss
    | .returned value => return .returned value

/-- Runs the constructor that a class itself declares, marked. -/
def constructOwn (invoke : Closure → List Value → Traced Stop Machine ω Value) (o : Object) (args : List Value)
    (line : Nat) (c : Class) : Traced Stop Machine ω Unit :=
  match c.own.methods.get? Class.constructorName with
  | none => pure ()
  | some f => do
    .lift (Eval.checkArity (c.own.name ++ "." ++ Class.constructorName) f.arity args.length line)
    let bound ← obs.bindMethod f c o
    let v ← .mark (obs.constructs bound) (invoke bound args)
    .mark (obs.discards v) (pure ())

/-- Runs the constructors of several classes, marked. -/
def construct (invoke : Closure → List Value → Traced Stop Machine ω Value) (o : Object) (args : List Value)
    (line : Nat) : List Class → Traced Stop Machine ω Unit
  | [] => pure ()
  | c :: cs => do
    obs.constructOwn invoke o args line c
    construct invoke o args line cs

/-- Makes an instance of a class, marked. -/
def instantiate (invoke : Closure → List Value → Traced Stop Machine ω Value) (c : Class) (args : List Value)
    (line : Nat) : Traced Stop Machine ω Value := do
  let o ← .lift (Eval.newObject c)
  obs.construct invoke o args line c.lineage.reverse
  return .object o

/-- Calls a value, marked. -/
def apply (invoke : Closure → List Value → Traced Stop Machine ω Value) (callee : Value) (args : List Value)
    (line : Nat) : Traced Stop Machine ω Value := do
  match callee with
  | .closure f =>
    .lift (Eval.checkArity f.name f.arity args.length line)
    let v ← .mark (obs.calls f) (invoke f args)
    .mark (obs.gives v) (return v)
  | .ofClass c =>
    .lift (Eval.checkArity c.own.name c.arity args.length line)
    obs.instantiate invoke c args line
  | v => .lift (Eval.fail (.objectNotCallable v.text line))

/-- The class that a class is declared to extend, marked: its name is an expression. -/
def superclass (name : Ident) : Option (Occurrence OccurrenceId) → Traced Stop Machine ω (Option Class)
  | none => return none
  | some use => .mark (obs.evaluates (.name .identifier use)) (.lift (Eval.superclass name (some use)))

/-- Declares a class, marked. -/
def declareClass (k : κ) (name : Ident) (parent : Option (Occurrence OccurrenceId))
    (methods statics : List (FunctionDecl (Stmt OccurrenceId))) : Traced Stop Machine ω Unit := do
  let parent ← obs.superclass name parent
  obs.define k name .null false
  .lift (Eval.finishClass name parent methods statics)

/-! ### Running -/

mutual

/-- Evaluates an expression, marked. -/
def evaluate : Nat → Expr OccurrenceId → Traced Stop Machine ω Value
  | 0, _ => .lift (throw .outOfFuel)
  | fuel + 1, e =>
    .mark (obs.evaluates e) <| match e with
    | .literal value => return value.value
    | .name _ use => .lift (lookUp use)
    | .assign target value => do
      let v ← evaluate fuel value
      .lift (Eval.assign target v)
      return v
    | .unary op line operand => do
      let v ← evaluate fuel operand
      .lift (Eval.ofTypes line (op.apply v))
    | .binary op line left right => do
      let v ← evaluate fuel left
      let w ← evaluate fuel right
      .lift (Eval.ofTypes line (op.apply v w))
    | .logical op _ left right => do
      let v ← evaluate fuel left
      if op.decidedBy v then return v else evaluate fuel right
    | .group inner => evaluate fuel inner
    | .call line callee args => do
      let f ← evaluate fuel callee
      let vs ← args.mapM (evaluate fuel)
      obs.apply (invoke fuel) f vs line
    | .get object name => do
      let v ← evaluate fuel object
      obs.property v name
    | .superGet keyword name => obs.superProperty keyword name
    | .set object name value => do
      match ← evaluate fuel object with
      | .object o =>
        let v ← evaluate fuel value
        .lift (Eval.setProperty o name v)
        return v
      | v => .lift (Eval.fail (.invalidPropertyAccess name.text v.text name.line))

/-- Executes a statement, marked. -/
def execute : Nat → κ → Stmt OccurrenceId → Traced Stop Machine ω Flow
  | 0, _, _ => .lift (throw .outOfFuel)
  | fuel + 1, k, s =>
    .mark (obs.executes s) <| match s with
    | .expr e => do
      let _ ← evaluate fuel e
      return .normal
    | .print e => do
      let v ← evaluate fuel e
      .mark (obs.prints v.text) (.lift (Eval.printLine v.text))
      return .normal
    | .letVar name none => do
      obs.define k name .null false
      return .normal
    | .letVar name (some value) => do
      let v ← evaluate fuel value
      obs.define k name v false
      return .normal
    | .constVar name value => do
      let v ← evaluate fuel value
      obs.define k name v true
      return .normal
    | .block body => do
      let m ← .lift get
      let frame ← .lift (Eval.newFrame (.empty (some m.current)))
      inFrameT frame (obs.sequence (execute fuel) (obs.inside []) body)
    | .ifThen condition thenBranch => do
      if (← evaluate fuel condition).isTruthy then execute fuel k thenBranch else return .normal
    | .ifElse condition thenBranch elseBranch => do
      if (← evaluate fuel condition).isTruthy then execute fuel k thenBranch
      else execute fuel (obs.behind k thenBranch) elseBranch
    | .while condition body => repeatWhileT (evaluate fuel condition) (execute fuel k body) fuel
    | .function decl => do
      let f ← .lift (Eval.newClosure decl)
      obs.define k decl.name (.closure f) false
      return .normal
    | .return _ none => .mark (obs.returns .null) (return .returned .null)
    | .return _ (some value) => do
      let v ← evaluate fuel value
      .mark (obs.returns v) (return .returned v)
    | .classDecl name parent methods statics => do
      obs.declareClass k name parent methods statics
      return .normal

/-- Calls a function, marked: its parameters and its body share a scope. -/
def invoke : Nat → Closure → List Value → Traced Stop Machine ω Value
  | 0, _, _ => .lift (throw .outOfFuel)
  | fuel + 1, f, args => do
    let frame ← .lift (Eval.newFrame (.empty (some f.frame)))
    obs.bindParams frame [] f.decl.params args
    match ← inFrameT frame
      (obs.sequence (execute fuel) (obs.inside (f.decl.params.map (·.text))) f.decl.body) with
    | .normal => return .null
    | .returned value => return value

end

/-! ### Erasing the marks -/

section Erasing

variable {obs} {α β : Type} {k : κ} {run : Stmt OccurrenceId → Eval Flow}
  {runO : κ → Stmt OccurrenceId → Traced Stop Machine ω Flow} {call : Closure → List Value → Eval Value}
  {callO : Closure → List Value → Traced Stop Machine ω Value}

@[simp] lemma inFrameT_run {i : FrameId} {body : Traced Stop Machine ω α} :
    (inFrameT i body).run = Eval.inFrame i body.run := rfl

lemma mapM_run (f : β → Traced Stop Machine ω α) (l : List β) : (l.mapM f).run = l.mapM fun b => (f b).run := by
  have loop : ∀ (l : List β) (acc : List α),
      (List.mapM.loop f l acc).run = List.mapM.loop (fun b => (f b).run) l acc := by
    intro l
    induction l with
    | nil => exact fun acc => rfl
    | cons b l ih =>
      intro acc
      rw [List.mapM.loop, List.mapM.loop, Traced.run_bind]
      exact bind_congr fun a => ih (a :: acc)
  exact loop l []

lemma repeatWhileT_run {test : Traced Stop Machine ω Value} {body : Traced Stop Machine ω Flow} :
    ∀ fuel, (repeatWhileT test body fuel).run = Eval.repeatWhile test.run body.run fuel
  | 0 => rfl
  | fuel + 1 => by
    rw [repeatWhileT, Eval.repeatWhile, Traced.run_bind]
    refine bind_congr fun v => ?_
    rw [Traced.run_ite]
    refine ite_congr rfl (fun _ => ?_) fun _ => rfl
    rw [Traced.run_bind]
    refine bind_congr fun flow => ?_
    cases flow with
    | normal => exact repeatWhileT_run fuel
    | returned value => rfl

@[simp] lemma defineIn_run (name : Ident) (frame : FrameId) (value : Value) (constant : Bool) :
    (obs.defineIn k name frame value constant).run =
      Eval.change name.line (Frames.define frame name.text value constant) := Traced.run_mark

@[simp] lemma define_run (name : Ident) (value : Value) (constant : Bool) :
    (obs.define k name value constant).run = Eval.define name value constant :=
  bind_congr fun _ => defineIn_run name _ value constant

lemma bindParams_run (frame : FrameId) (bound : List String) (ps : List Ident) (vs : List Value) :
    (obs.bindParams frame bound ps vs).run = Eval.bindParams frame ps vs := by
  induction ps generalizing bound vs with
  | nil => rfl
  | cons p ps ih =>
    cases vs with
    | nil => rfl
    | cons v vs =>
      rw [bindParams, Eval.bindParams, Traced.run_bind, defineIn_run]
      exact bind_congr fun _ => ih (bound ++ [p.text]) vs

@[simp] lemma bindMethod_run (f : Closure) (owner : Class) (o : Object) :
    (obs.bindMethod f owner o).run = Eval.bindMethod f owner o := Traced.run_mark

@[simp] lemma method_run (o : Object) (start : Class) (name : Ident) :
    (obs.method o start name).run = Eval.method o start name := by
  unfold method Eval.method
  cases start.findMethod? name.text with
  | none => rfl
  | some found => simp

@[simp] lemma property_run (v : Value) (name : Ident) : (obs.property v name).run = Eval.property v name := by
  cases v with
  | object o =>
    unfold property Eval.property
    rw [Traced.run_bind]
    refine bind_congr fun m => ?_
    cases (m.objects.getD o.id []).get? name.text with
    | some value => rfl
    | none => exact method_run o o.cls name
  | _ => rfl

@[simp] lemma superProperty_run (keyword : Occurrence OccurrenceId) (name : Ident) :
    (obs.superProperty keyword name).run = Eval.superProperty keyword name := by
  unfold superProperty Eval.superProperty
  rw [Traced.run_bind]
  refine bind_congr fun v => ?_
  cases v with
  | ofClass c =>
    rw [Traced.run_bind]
    refine bind_congr fun w => ?_
    cases w with
    | object o => exact method_run o c name
    | _ => rfl
  | _ => rfl

lemma sequence_run (h : ∀ k s, (runO k s).run = run s) (k : κ) (ss : List (Stmt OccurrenceId)) :
    (obs.sequence runO k ss).run = Eval.sequence run ss := by
  induction ss generalizing k with
  | nil => rfl
  | cons s ss ih =>
    rw [sequence, Eval.sequence, Traced.run_bind, h]
    refine bind_congr fun flow => ?_
    cases flow with
    | normal => exact ih (obs.behind k s)
    | returned value => rfl

lemma constructOwn_run (h : ∀ f args, (callO f args).run = call f args) (o : Object) (args : List Value)
    (line : Nat) (c : Class) : (obs.constructOwn callO o args line c).run = Eval.constructOwn call o args line c := by
  unfold constructOwn Eval.constructOwn
  cases c.own.methods.get? Class.constructorName with
  | none => rfl
  | some f => simp [h]

lemma construct_run (h : ∀ f args, (callO f args).run = call f args) (o : Object) (args : List Value)
    (line : Nat) : ∀ cs, (obs.construct callO o args line cs).run = Eval.construct call o args line cs
  | [] => rfl
  | c :: cs => by
    simp [construct, Eval.construct, constructOwn_run h, construct_run h o args line cs]

lemma apply_run (h : ∀ f args, (callO f args).run = call f args) (callee : Value) (args : List Value)
    (line : Nat) : (obs.apply callO callee args line).run = Eval.apply call callee args line := by
  unfold apply Eval.apply
  cases callee <;> simp [h, instantiate, Eval.instantiate, construct_run h]

@[simp] lemma superclass_run (name : Ident) (parent : Option (Occurrence OccurrenceId)) :
    (obs.superclass name parent).run = Eval.superclass name parent := by
  cases parent with
  | none => rfl
  | some use => exact Traced.run_mark

@[simp] lemma declareClass_run (name : Ident) (parent : Option (Occurrence OccurrenceId))
    (methods statics : List (FunctionDecl (Stmt OccurrenceId))) :
    (obs.declareClass k name parent methods statics).run = Eval.declareClass name parent methods statics := by
  simp [declareClass, Eval.declareClass, Eval.finishClass]

/-- **Marks change nothing**: erased, the marked functions are those that run programs, whatever is marked. -/
theorem erased (obs : Observer κ ω) (fuel : Nat) :
    (∀ e, (obs.evaluate fuel e).run = Eval.evaluate fuel e) ∧
      (∀ k s, (obs.execute fuel k s).run = Eval.execute fuel s) ∧
        ∀ f args, (obs.invoke fuel f args).run = Eval.invoke fuel f args := by
  induction fuel with
  | zero =>
    refine ⟨fun e => ?_, fun k s => ?_, fun f args => ?_⟩
    · rw [evaluate, Eval.evaluate, Traced.run_lift]
    · rw [execute, Eval.execute, Traced.run_lift]
    · rw [invoke, Eval.invoke, Traced.run_lift]
  | succ fuel ih =>
    obtain ⟨he, hs, hi⟩ := ih
    refine ⟨fun e => ?_, fun k s => ?_, fun f args => ?_⟩
    · rw [evaluate.eq_def, Eval.evaluate.eq_def]
      simp only [Traced.run_mark]
      cases e with
      | call line callee args => simp [he, mapM_run, apply_run hi]
      | set object name value =>
        simp only [Traced.run_bind, he]
        refine bind_congr fun v => ?_
        cases v <;> simp [he]
      | _ => simp [he]
    · rw [execute.eq_def, Eval.execute.eq_def]
      simp only [Traced.run_mark]
      cases s with
      | letVar name value => cases value <;> simp [he]
      | «return» line value => cases value <;> simp [he]
      | block body =>
        simp only [Traced.run_bind, Traced.run_lift, inFrameT_run]
        exact bind_congr fun m => bind_congr fun frame =>
          congrArg (Eval.inFrame frame) (sequence_run hs (obs.inside []) body)
      | «while» condition body =>
        simp [repeatWhileT_run, he, hs]
      | _ => simp [he, hs]
    · rw [invoke, Eval.invoke]
      simp only [Traced.run_bind, Traced.run_lift, inFrameT_run, bindParams_run]
      refine bind_congr fun frame => bind_congr fun _ => ?_
      rw [sequence_run hs]
      refine bind_congr fun flow => ?_
      cases flow <;> rfl

lemma execute_run (obs : Observer κ ω) (fuel : Nat) (k : κ) (s : Stmt OccurrenceId) :
    (obs.execute fuel k s).run = Eval.execute fuel s := (obs.erased fuel).2.1 k s

end Erasing

/-! ### Points without marks -/

section Unmarked

/-- Where no definition is marked, defining a name is one step. -/
lemma define_unmarked (h : obs.defines = fun _ _ _ _ _ => none) (k : κ) (name : Ident) (value : Value)
    (constant : Bool) : obs.define k name value constant = .lift (Eval.define name value constant) := by
  unfold define defineIn
  rw [h]
  rfl

lemma bindParams_unmarked (h : obs.defines = fun _ _ _ _ _ => none) (frame : FrameId) (bound : List String)
    (ps : List Ident) (vs : List Value) :
    obs.bindParams frame bound ps vs = .lift (Eval.bindParams frame ps vs) := by
  induction ps generalizing bound vs with
  | nil => rfl
  | cons p ps ih =>
    cases vs with
    | nil => rfl
    | cons v vs =>
      rw [bindParams, Eval.bindParams, Traced.lift_bind, defineIn, h]
      exact congrArg _ (funext fun _ => ih (bound ++ [p.text]) vs)

lemma method_unmarked (h : obs.binds = fun _ _ _ => none) (o : Object) (start : Class) (name : Ident) :
    obs.method o start name = .lift (Eval.method o start name) := by
  unfold method Eval.method bindMethod
  cases start.findMethod? name.text with
  | none => rfl
  | some found =>
    simp only [h, Traced.mark_none, Traced.lift_bind]
    rfl

lemma property_unmarked (h : obs.binds = fun _ _ _ => none) (v : Value) (name : Ident) :
    obs.property v name = .lift (Eval.property v name) := by
  unfold property Eval.property
  cases v with
  | object o =>
    simp only [Traced.lift_bind]
    refine congrArg _ (funext fun m => ?_)
    cases (m.objects.getD o.id []).get? name.text with
    | some value => rfl
    | none => exact obs.method_unmarked h o o.cls name
  | _ => rfl

lemma superProperty_unmarked (h : obs.binds = fun _ _ _ => none) (keyword : Occurrence OccurrenceId) (name : Ident) :
    obs.superProperty keyword name = .lift (Eval.superProperty keyword name) := by
  unfold superProperty Eval.superProperty
  rw [Traced.lift_bind]
  refine congrArg _ (funext fun v => ?_)
  cases v with
  | ofClass c =>
    simp only [Traced.lift_bind]
    refine congrArg _ (funext fun w => ?_)
    cases w with
    | object o => exact obs.method_unmarked h o c name
    | _ => rfl
  | _ => rfl

lemma superclass_unmarked (h : obs.evaluates = fun _ => none) (name : Ident)
    (parent : Option (Occurrence OccurrenceId)) :
    obs.superclass name parent = .lift (Eval.superclass name parent) := by
  cases parent with
  | none => rfl
  | some use => rw [superclass, h, Traced.mark_none]

lemma declareClass_unmarked (h : obs.defines = fun _ _ _ _ _ => none) (k : κ) (name : Ident)
    (parent : Option (Occurrence OccurrenceId)) (methods statics : List (FunctionDecl (Stmt OccurrenceId))) :
    obs.declareClass k name parent methods statics =
      obs.superclass name parent >>= fun c => .lift (Eval.declareBody name c methods statics) := by
  unfold declareClass
  simp only [obs.define_unmarked h, Eval.declareBody, Traced.lift_bind]

end Unmarked

/-- The marks of a run of the statements of a program at the global level, up to the first that fails, each with the
machine as it is then. -/
def moments (fuel : Nat) (k : κ) : Program OccurrenceId → Machine → List (ω × Machine)
  | [], _ => []
  | s :: ss, m =>
    (obs.execute fuel k s).trace m ++
      match (obs.execute fuel k s).run m with
      | .ok _ m => moments fuel k ss m
      | .error _ _ => []

end Observer

end ScriptLang
