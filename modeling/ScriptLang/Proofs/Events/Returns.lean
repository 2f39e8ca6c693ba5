import ScriptLang.Proofs.Events.TracedEvents
import ScriptLang.Proofs.Places.Findings

/-!
# Where returned values go

A value that is returned ends the innermost call or the innermost run of a constructor, and nothing else happens in
between: the events of a run are nested like brackets, and a return stands only in front of a closing one.  A
statement that resolving accepts at the top level has no return outside of functions, so it returns nothing.

* `Orderly`, `Interrupted` — the events of a run that ends, and of one that is broken off;
* `Leaves` — a computation with such events, closed under the steps of running;
* `runs_orderly` — the induction on the fuel for expressions, statements and calls;
* `execute_goesOn` — what is accepted at the top level returns nothing;
* `no_return_at_top_level` — the theorem for accepted programs.
-/

namespace ScriptLang

open Eval
open Observer (events)

/-! ### Orderly events -/

/-- What neither begins nor ends a call or the run of a constructor, and returns nothing. -/
def Event.IsStep : Event → Prop
  | .executes _ | .evaluates _ | .binds .. => True
  | .calls _ | .gives _ | .constructs _ | .discards _ | .returns _ => False

/-- The events of a body that ends with a returned value, or without one. -/
def bodyEvents (body : List Event) (returned : Option Value) : List Event :=
  body ++ (returned.map .returns).toList

/-- **Orderly events.**  Calls and runs of constructors are closed in the order of brackets.  A return is the last
event of a body, and its value is that of the call, or it is discarded by the run of the constructor; a body without
a return gives null. -/
inductive Orderly : List Event → Prop
  | nil : Orderly []
  | step {e : Event} {es : List Event} : e.IsStep → Orderly es → Orderly (e :: es)
  | call (f : Closure) (returned : Option Value) {body es : List Event} : Orderly body → Orderly es →
    Orderly (.calls f :: (bodyEvents body returned ++ .gives (returned.getD .null) :: es))
  | construction (f : Closure) (returned : Option Value) {body es : List Event} : Orderly body → Orderly es →
    Orderly (.constructs f :: (bodyEvents body returned ++ .discards (returned.getD .null) :: es))

/-- The beginning of orderly events. -/
def Interrupted (es : List Event) : Prop := ∃ rest, Orderly (es ++ rest)

variable {α β : Type} {es es' : List Event} {e : Event} {v : Value} {fuel : Nat}

lemma Orderly.append (h : Orderly es) (h' : Orderly es') : Orderly (es ++ es') := by
  induction h with
  | nil => exact h'
  | step he _ ih => exact .step he ih
  | call f returned hbody _ _ ih =>
    rw [List.cons_append, List.append_assoc]
    exact .call f returned hbody ih
  | construction f returned hbody _ _ ih =>
    rw [List.cons_append, List.append_assoc]
    exact .construction f returned hbody ih

lemma Orderly.interrupted (h : Orderly es) : Interrupted es := ⟨[], by rwa [List.append_nil]⟩

lemma Orderly.behind (h : Orderly es) (h' : Interrupted es') : Interrupted (es ++ es') := by
  obtain ⟨rest, hrest⟩ := h'
  exact ⟨rest, by rw [List.append_assoc]; exact h.append hrest⟩

/-- A call that is broken off inside of its body. -/
lemma Interrupted.inCall (h : Interrupted es) (f : Closure) : Interrupted (.calls f :: es) := by
  obtain ⟨rest, hrest⟩ := h
  refine ⟨rest ++ [.gives .null], ?_⟩
  have hcall := Orderly.call f none hrest .nil
  rwa [bodyEvents, Option.map_none, Option.toList_none, List.append_nil, List.append_assoc] at hcall

/-- The run of a constructor that is broken off inside of its body. -/
lemma Interrupted.inConstruction (h : Interrupted es) (f : Closure) : Interrupted (.constructs f :: es) := by
  obtain ⟨rest, hrest⟩ := h
  refine ⟨rest ++ [.discards .null], ?_⟩
  have hconstruction := Orderly.construction f none hrest .nil
  rwa [bodyEvents, Option.map_none, Option.toList_none, List.append_nil, List.append_assoc] at hconstruction

/-! ### Computations with orderly events -/

namespace Eval

/-- The events of a computation from a machine on. -/
def eventsOf (t : Recording α) (m : Machine) : List Event := (t.trace m).map (·.1)

/-- A computation that succeeds leaves certain events behind, according to its result; one that fails breaks off
orderly events. -/
def Leaves (P : α → List Event → Prop) (t : Recording α) : Prop :=
  ∀ m, Traced.Ends (fun a _ => P a (eventsOf t m)) (fun _ => Interrupted (eventsOf t m)) (t.run m)

/-- The computation leaves orderly events behind. -/
abbrev LeavesOrderly (t : Recording α) : Prop := Leaves (fun _ => Orderly) t

/-- The events of statements: orderly if they go on, and else with one return behind, which is the last event. -/
def FlowEvents : Flow → List Event → Prop
  | .normal, es => Orderly es
  | .returned v, es => ∃ body, Orderly body ∧ es = body ++ [.returns v]

/-- The events of a body with a value. -/
def BodyEvents (v : Value) (es : List Event) : Prop :=
  ∃ body returned, Orderly body ∧ es = bodyEvents body returned ∧ v = returned.getD .null

variable {t : Recording α} {f : α → Recording β} {x : Eval α} {P : α → List Event → Prop}
  {R : β → List Event → Prop}

lemma eventsOf_bind_ok {a : α} {m m' : Machine} (h : t.run m = .ok a m') :
    eventsOf (t >>= f) m = eventsOf t m ++ eventsOf (f a) m' := by
  rw [eventsOf, Traced.trace_bind, h, List.map_append]
  rfl

lemma eventsOf_bind_error {stop : Stop} {m m' : Machine} (h : t.run m = .error stop m') :
    eventsOf (t >>= f) m = eventsOf t m := by
  rw [eventsOf, Traced.trace_bind, h]
  exact congrArg _ (List.append_nil _)

/-- One computation behind another: what the first has left stays in front. -/
lemma Leaves.bind (h : Leaves P t) (hf : ∀ a, Leaves (fun b es' => ∀ es, P a es → R b (es ++ es')) (f a))
    (hP : ∀ a es es', P a es → Interrupted es' → Interrupted (es ++ es')) : Leaves R (t >>= f) := by
  intro m
  have ht := h m
  rcases hrun : t.run m with ⟨a, m'⟩ | ⟨stop, m'⟩
  · rw [hrun] at ht
    rw [Traced.run_bind, Traced.bind_ok hrun, eventsOf_bind_ok hrun]
    have hfa := hf a m'
    rcases hrun' : (f a).run m' with ⟨b, m''⟩ | ⟨stop, m''⟩
    · rw [hrun'] at hfa
      exact hfa _ ht
    · rw [hrun'] at hfa
      exact hP a _ _ ht hfa
  · rw [hrun] at ht
    rw [Traced.run_bind, Traced.bind_error hrun, eventsOf_bind_error hrun]
    exact ht

/-- A property of events that others may be put in front of. -/
lemma LeavesOrderly.bind (h : LeavesOrderly t) (hf : ∀ a, Leaves R (f a))
    (hR : ∀ b es es', Orderly es → R b es' → R b (es ++ es')) : Leaves R (t >>= f) := by
  refine Leaves.bind h (fun a m => ?_) fun _ _ _ hes => hes.behind
  exact (hf a m).mono (fun b _ hb es hes => hR b es _ hes hb) fun _ herr => herr

lemma LeavesOrderly.append (h : LeavesOrderly t) (hf : ∀ a, LeavesOrderly (f a)) : LeavesOrderly (t >>= f) :=
  h.bind hf fun _ _ _ => Orderly.append

lemma Leaves.pure {a : α} (h : P a []) : Leaves P (pure a) := fun _ => h

lemma Leaves.visit {w : Event} (hw : w.IsStep) (hP : ∀ a es, P a es → P a (w :: es)) (h : Leaves P t) :
    Leaves P (.visit w t) := by
  intro m
  exact (h m).mono (fun a _ ha => hP a _ ha) fun _ ⟨rest, hrest⟩ => ⟨rest, .step hw hrest⟩

lemma LeavesOrderly.visit {w : Event} (hw : w.IsStep) (h : LeavesOrderly t) : LeavesOrderly (.visit w t) :=
  Leaves.visit hw (fun _ _ => .step hw) h

lemma lift_leaves : LeavesOrderly (.lift x) := by
  intro m
  show Traced.Ends (fun _ _ => Orderly []) (fun _ => Interrupted []) (x m)
  cases x m with
  | ok a m' => exact .nil
  | error stop m' => exact Orderly.nil.interrupted

lemma inFrameT_leaves {i : FrameId} (h : Leaves P t) : Leaves P (inFrameT i t) := by
  intro m
  have ht := h { m with current := i }
  show Traced.Ends _ _ (inFrame i t.run m)
  unfold inFrame
  simp only
  rcases hrun : t.run { m with current := i } with ⟨a, m'⟩ | ⟨stop, m'⟩
  · rw [hrun] at ht
    exact ht
  · rw [hrun] at ht
    exact ht

lemma mapM_leaves {g : β → Recording α} (h : ∀ b, LeavesOrderly (g b)) (l : List β) : LeavesOrderly (l.mapM g) := by
  have loop : ∀ (l : List β) (acc : List α), LeavesOrderly (List.mapM.loop g l acc) := by
    intro l
    induction l with
    | nil => exact fun acc => Leaves.pure .nil
    | cons b l ih => exact fun acc => (h b).append fun a => ih (a :: acc)
  exact loop l []

/-! ### Statements one after another -/

lemma FlowEvents.behind {flow : Flow} (h : Orderly es) (h' : FlowEvents flow es') : FlowEvents flow (es ++ es') := by
  cases flow with
  | normal => exact h.append h'
  | returned v =>
    obtain ⟨body, hbody, rfl⟩ := h'
    exact ⟨es ++ body, h.append hbody, (List.append_assoc ..).symm⟩

/-- What goes on behind a statement unless that returns. -/
lemma Leaves.goOn {t : Recording Flow} {f : Flow → Recording Flow} (h : Leaves FlowEvents t)
    (hnormal : Leaves FlowEvents (f .normal)) (hreturned : ∀ v, f (.returned v) = Pure.pure (.returned v)) :
    Leaves FlowEvents (t >>= f) := by
  intro m
  have ht := h m
  rcases hrun : t.run m with ⟨flow, m'⟩ | ⟨stop, m'⟩
  · rw [hrun] at ht
    rw [Traced.run_bind, Traced.bind_ok hrun, eventsOf_bind_ok hrun]
    cases flow with
    | normal => exact (hnormal m').mono (fun flow _ h' => FlowEvents.behind ht h') fun _ h' => Orderly.behind ht h'
    | returned v =>
      rw [hreturned]
      show FlowEvents (.returned v) (eventsOf t m ++ [])
      rw [List.append_nil]
      exact ht
  · rw [hrun] at ht
    rw [Traced.run_bind, Traced.bind_error hrun, eventsOf_bind_error hrun]
    exact ht

/-- What goes on behind an expression. -/
lemma LeavesOrderly.thenFlow {f : α → Recording Flow} (h : LeavesOrderly t) (hf : ∀ a, Leaves FlowEvents (f a)) :
    Leaves FlowEvents (t >>= f) := h.bind hf fun _ _ _ => FlowEvents.behind

/-- A computation with orderly events, behind which a statement has ended. -/
lemma LeavesOrderly.thenNormal (h : LeavesOrderly t) : Leaves FlowEvents (t >>= fun _ => return .normal) :=
  h.thenFlow fun _ => Leaves.pure .nil

lemma sequence_leaves {run : Unit → Stmt OccurrenceId → Recording Flow} (h : ∀ s, Leaves FlowEvents (run () s))
    (ss : List (Stmt OccurrenceId)) : Leaves FlowEvents (events.sequence run () ss) := by
  induction ss with
  | nil => exact Leaves.pure .nil
  | cons s ss ih => exact (h s).goOn ih fun _ => rfl

lemma repeatWhileT_leaves {test : Recording Value} {body : Recording Flow} (ht : LeavesOrderly test)
    (hb : Leaves FlowEvents body) : ∀ fuel, Leaves FlowEvents (repeatWhileT test body fuel)
  | 0 => fun _ => Orderly.nil.interrupted
  | fuel + 1 => by
    rw [repeatWhileT]
    refine ht.thenFlow fun v => ?_
    split
    · exact hb.goOn (repeatWhileT_leaves ht hb fuel) fun _ => rfl
    · exact Leaves.pure .nil

/-! ### Calls -/

/-- A body between an opening and a closing event. -/
lemma Leaves.enclosed {w : Event} {c : Value → Event} {body : Recording Value} {u : Value → Recording α}
    (h : Leaves BodyEvents body)
    (hw : ∀ inner returned, Orderly inner → Orderly (w :: (bodyEvents inner returned ++ [c (returned.getD .null)])))
    (herr : ∀ es, Interrupted es → Interrupted (w :: es)) (hu : ∀ v, ∃ a, u v = .visit (c v) (Pure.pure a)) :
    LeavesOrderly (.visit w body >>= u) := by
  intro m
  have hbody := h m
  rcases hrun : body.run m with ⟨v, m'⟩ | ⟨stop, m'⟩
  · rw [hrun] at hbody
    obtain ⟨inner, returned, hinner, hes, rfl⟩ := hbody
    obtain ⟨a, ha⟩ := hu (returned.getD .null)
    have hvisit : (Traced.visit w body).run m = .ok (returned.getD .null) m' := hrun
    rw [Traced.run_bind, Traced.bind_ok hvisit, eventsOf_bind_ok hvisit, ha]
    have hevents : eventsOf (Traced.visit w body) m = w :: bodyEvents inner returned := congrArg (w :: ·) hes
    rw [hevents]
    exact hw inner returned hinner
  · rw [hrun] at hbody
    have hvisit : (Traced.visit w body).run m = .error stop m' := hrun
    rw [Traced.run_bind, Traced.bind_error hvisit, eventsOf_bind_error hvisit]
    exact herr _ hbody

lemma bindMethod_leaves (f : Closure) (owner : Class) (o : Object) : LeavesOrderly (events.bindMethod f owner o) :=
  .visit trivial lift_leaves

section Calls

variable {call : Closure → List Value → Recording Value} (hcall : ∀ f args, Leaves BodyEvents (call f args))

include hcall

lemma constructOwn_leaves (o : Object) (args : List Value) (line : Nat) (c : Class) :
    LeavesOrderly (events.constructOwn call o args line c) := by
  unfold Observer.constructOwn
  cases c.own.methods.get? Class.constructorName with
  | none => exact Leaves.pure .nil
  | some f =>
    refine lift_leaves.append fun _ => (bindMethod_leaves f c o).append fun bound => ?_
    exact (hcall bound args).enclosed (fun _ returned hinner => .construction bound returned hinner .nil)
      (fun _ h => h.inConstruction bound) fun v => ⟨(), rfl⟩

lemma construct_leaves (o : Object) (args : List Value) (line : Nat) :
    ∀ cs, LeavesOrderly (events.construct call o args line cs)
  | [] => Leaves.pure .nil
  | c :: cs => (constructOwn_leaves hcall o args line c).append fun _ => construct_leaves o args line cs

lemma apply_leaves (callee : Value) (args : List Value) (line : Nat) :
    LeavesOrderly (events.apply call callee args line) := by
  unfold Observer.apply
  cases callee with
  | closure f =>
    refine lift_leaves.append fun _ => ?_
    exact (hcall f args).enclosed (fun _ returned hinner => .call f returned hinner .nil)
      (fun _ h => h.inCall f) fun v => ⟨v, rfl⟩
  | ofClass c =>
    refine lift_leaves.append fun _ => lift_leaves.append fun o => ?_
    exact (construct_leaves hcall o args line _).append fun _ => Leaves.pure .nil
  | _ => exact lift_leaves

end Calls

lemma method_leaves (o : Object) (start : Class) (name : Ident) : LeavesOrderly (events.method o start name) := by
  unfold Observer.method
  split
  · next owner f _ => exact (bindMethod_leaves f owner o).append fun _ => Leaves.pure .nil
  · exact lift_leaves

lemma property_leaves (v : Value) (name : Ident) : LeavesOrderly (events.property v name) := by
  unfold Observer.property
  cases v with
  | object o =>
    refine lift_leaves.append fun m => ?_
    split
    · exact Leaves.pure .nil
    · exact method_leaves o o.cls name
  | _ => exact lift_leaves

lemma superProperty_leaves (keyword : Occurrence OccurrenceId) (name : Ident) :
    LeavesOrderly (events.superProperty keyword name) := by
  unfold Observer.superProperty
  refine lift_leaves.append fun v => ?_
  cases v with
  | ofClass c =>
    refine lift_leaves.append fun w => ?_
    cases w with
    | object o => exact method_leaves o c name
    | _ => exact lift_leaves
  | _ => exact lift_leaves

lemma declareClass_leaves (name : Ident) (parent : Option (Occurrence OccurrenceId))
    (methods statics : List (FunctionDecl (Stmt OccurrenceId))) :
    LeavesOrderly (events.declareClass () name parent methods statics) := by
  have hparent : LeavesOrderly (events.superclass name parent) := by
    cases parent with
    | none => exact Leaves.pure .nil
    | some use => exact .visit trivial lift_leaves
  rw [events.declareClass_unmarked rfl]
  exact hparent.append fun _ => lift_leaves

/-! ### The induction -/

/-- A return statement: its value, and then the return. -/
lemma returns_leaves (v : Value) : Leaves FlowEvents (.visit (.returns v) (return .returned v)) :=
  fun _ => ⟨[], .nil, rfl⟩

section Induction

variable {fuel : Nat}

lemma evaluateE_succ_leaves (he : ∀ e, LeavesOrderly (evaluateE fuel e))
    (hi : ∀ f args, Leaves BodyEvents (invokeE fuel f args)) (e : Expr OccurrenceId) :
    LeavesOrderly (evaluateE (fuel + 1) e) := by
  rw [evaluateE, Observer.evaluate.eq_def]
  refine LeavesOrderly.visit trivial ?_
  cases e with
  | literal value => exact Leaves.pure .nil
  | name kind use => exact lift_leaves
  | assign target value => exact (he value).append fun v => lift_leaves.append fun _ => Leaves.pure .nil
  | unary op line operand => exact (he operand).append fun v => lift_leaves
  | binary op line left right => exact (he left).append fun v => (he right).append fun w => lift_leaves
  | logical op line left right =>
    refine (he left).append fun v => ?_
    split
    · exact Leaves.pure .nil
    · exact he right
  | group inner => exact he inner
  | call line callee args =>
    exact (he callee).append fun g => (mapM_leaves he args).append fun vs => apply_leaves hi g vs line
  | get object name => exact (he object).append fun v => property_leaves v name
  | superGet keyword name => exact superProperty_leaves keyword name
  | set object name value =>
    refine (he object).append fun v => ?_
    cases v with
    | object o => exact (he value).append fun v => lift_leaves.append fun _ => Leaves.pure .nil
    | _ => exact lift_leaves

lemma executeE_succ_leaves (he : ∀ e, LeavesOrderly (evaluateE fuel e)) (hs : ∀ s, Leaves FlowEvents (executeE fuel s))
    (s : Stmt OccurrenceId) : Leaves FlowEvents (executeE (fuel + 1) s) := by
  rw [executeE, Observer.execute.eq_def]
  have hfront : Orderly [.executes s] := .step trivial .nil
  refine Leaves.visit trivial (fun flow es h => FlowEvents.behind hfront h) ?_
  cases s with
  | expr e => exact (he e).thenNormal
  | print e => exact (he e).thenFlow fun v => lift_leaves.thenNormal
  | letVar name value =>
    cases value with
    | none => exact lift_leaves.thenNormal
    | some value => exact (he value).thenFlow fun v => lift_leaves.thenNormal
  | constVar name value => exact (he value).thenFlow fun v => lift_leaves.thenNormal
  | block body =>
    refine lift_leaves.thenFlow fun m => lift_leaves.thenFlow fun frame => ?_
    exact inFrameT_leaves (sequence_leaves hs body)
  | ifThen condition yes =>
    refine (he condition).thenFlow fun v => ?_
    split
    · exact hs yes
    · exact Leaves.pure .nil
  | ifElse condition yes no =>
    refine (he condition).thenFlow fun v => ?_
    split
    · exact hs yes
    · exact hs no
  | «while» condition body => exact repeatWhileT_leaves (he condition) (hs body) fuel
  | function decl => exact lift_leaves.thenFlow fun f => lift_leaves.thenNormal
  | «return» line value =>
    cases value with
    | none => exact returns_leaves .null
    | some value => exact (he value).thenFlow returns_leaves
  | classDecl name parent methods statics => exact (declareClass_leaves name parent methods statics).thenNormal

lemma invokeE_succ_leaves (hs : ∀ s, Leaves FlowEvents (executeE fuel s)) (f : Closure) (args : List Value) :
    Leaves BodyEvents (invokeE (fuel + 1) f args) := by
  rw [invokeE, Observer.invoke]
  have hprepend : ∀ v es es', Orderly es → BodyEvents v es' → BodyEvents v (es ++ es') := by
    rintro v es _ hes ⟨body, returned, hbody, rfl, rfl⟩
    exact ⟨es ++ body, returned, hes.append hbody, (List.append_assoc ..).symm, rfl⟩
  refine lift_leaves.bind (fun frame => ?_) hprepend
  rw [events.bindParams_unmarked rfl]
  refine lift_leaves.bind (fun _ => ?_) hprepend
  -- what the body leaves behind is what the call has for a value
  intro m
  have hbody := inFrameT_leaves (i := frame) (sequence_leaves hs f.decl.body) m
  rcases hrun : (inFrameT frame (events.sequence (events.execute fuel) () f.decl.body)).run m with ⟨flow, m'⟩ | ⟨stop, m'⟩
  · rw [hrun] at hbody
    rw [Traced.run_bind, Traced.bind_ok hrun, eventsOf_bind_ok hrun]
    cases flow with
    | normal => exact ⟨_, none, hbody, rfl, rfl⟩
    | returned v =>
      obtain ⟨body, hbody, hes⟩ := hbody
      refine ⟨body, some v, hbody, ?_, rfl⟩
      rw [hes]
      exact List.append_nil _
  · rw [hrun] at hbody
    rw [Traced.run_bind, Traced.bind_error hrun, eventsOf_bind_error hrun]
    exact hbody

end Induction

/-- **The events of all runs are orderly.** -/
theorem runs_orderly (fuel : Nat) :
    (∀ e, LeavesOrderly (evaluateE fuel e)) ∧ (∀ s, Leaves FlowEvents (executeE fuel s)) ∧
      ∀ f args, Leaves BodyEvents (invokeE fuel f args) := by
  induction fuel with
  | zero =>
    refine ⟨fun e => ?_, fun s => ?_, fun f args => ?_⟩
    · rw [evaluateE, Observer.evaluate]
      exact lift_leaves
    · rw [executeE, Observer.execute]
      exact fun _ => Orderly.nil.interrupted
    · rw [invokeE, Observer.invoke]
      exact fun _ => Orderly.nil.interrupted
  | succ fuel ih =>
    obtain ⟨he, hs, hi⟩ := ih
    exact ⟨evaluateE_succ_leaves he hi, executeE_succ_leaves he hs, invokeE_succ_leaves hs⟩

/-! ### Statements that return nothing -/

/-- If the computation succeeds, what stands behind it goes on. -/
def GoesOn (x : Eval Flow) : Prop := ∀ m, Traced.Ends (fun flow _ => flow = .normal) (fun _ => True) (x m)

lemma GoesOn.pure : GoesOn (return .normal) := fun _ => rfl

lemma GoesOn.bind {x : Eval α} {f : α → Eval Flow} (hf : ∀ a, GoesOn (f a)) : GoesOn (x >>= f) := by
  intro m
  rcases hx : x m with ⟨a, m'⟩ | ⟨stop, m'⟩
  · rw [Traced.bind_ok hx]
    exact hf a m'
  · rw [Traced.bind_error hx]
    trivial

/-- Behind a statement that goes on, what it returns does not matter. -/
lemma GoesOn.andThen {x : Eval Flow} {f : Flow → Eval Flow} (hx : GoesOn x) (hf : GoesOn (f .normal)) :
    GoesOn (x >>= f) := by
  intro m
  have hflow := hx m
  rcases hrun : x m with ⟨flow, m'⟩ | ⟨stop, m'⟩
  · rw [hrun] at hflow
    obtain rfl : flow = .normal := hflow
    rw [Traced.bind_ok hrun]
    exact hf m'
  · rw [Traced.bind_error hrun]
    trivial

lemma GoesOn.inFrame {x : Eval Flow} (h : GoesOn x) (i : FrameId) : GoesOn (inFrame i x) := by
  intro m
  have hx := h { m with current := i }
  unfold Eval.inFrame
  simp only
  rcases hrun : x { m with current := i } with ⟨flow, m'⟩ | ⟨stop, m'⟩
  · rw [hrun] at hx
    exact hx
  · trivial

lemma repeatWhile_goesOn {test : Eval Value} {body : Eval Flow} (hb : GoesOn body) :
    ∀ fuel, GoesOn (repeatWhile test body fuel)
  | 0 => fun _ => trivial
  | fuel + 1 => by
    rw [repeatWhile]
    refine .bind fun v => ?_
    split
    · exact hb.andThen (repeatWhile_goesOn hb fuel)
    · exact .pure

/-- Statements at a place that is in no function, with no fault in them. -/
lemma sequence_goesOn {run : Stmt OccurrenceId → Eval Flow}
    (hrun : ∀ s (p : Place OccurrenceId), p.inFunction = false → (∀ n ∈ s.nodes p, Node.fault? n = none) →
      GoesOn (run s)) :
    ∀ (ss : List (Stmt OccurrenceId)) (p : Place OccurrenceId), p.inFunction = false →
      (∀ n ∈ Stmt.nodesList p ss, Node.fault? n = none) → GoesOn (sequence run ss)
  | [], _, _, _ => .pure
  | s :: ss, p, hp, hn => by
    rw [Stmt.nodesList, List.forall_mem_append] at hn
    have hp' : (p.behind s.scopeNames).inFunction = false := by rw [Place.inFunction_behind, hp]
    exact (hrun s p hp hn.1).andThen (sequence_goesOn hrun ss _ hp' hn.2)

/-- **A statement without a fault that stands in no function returns nothing.** -/
theorem execute_goesOn (fuel : Nat) : ∀ s (p : Place OccurrenceId), p.inFunction = false →
    (∀ n ∈ s.nodes p, Node.fault? n = none) → GoesOn (execute fuel s) := by
  induction fuel with
  | zero =>
    intro s p _ _
    rw [execute]
    exact fun _ => trivial
  | succ fuel ih =>
    intro s p hp hn
    rw [execute.eq_def]
    cases s with
    | expr e | classDecl name parent methods statics => exact .bind fun _ => .pure
    | print e | constVar name e | function decl => exact .bind fun v => .bind fun _ => .pure
    | letVar name value =>
      cases value with
      | none => exact .bind fun _ => .pure
      | some value => exact .bind fun v => .bind fun _ => .pure
    | block body =>
      exact .bind fun m => .bind fun frame =>
        (sequence_goesOn ih body (p.inside .block []) hp hn).inFrame frame
    | ifThen condition yes =>
      rw [Stmt.nodes, List.forall_mem_append] at hn
      refine .bind fun v => ?_
      split
      · exact ih yes p hp hn.2
      · exact .pure
    | ifElse condition yes no =>
      rw [Stmt.nodes, List.forall_mem_append, List.forall_mem_append] at hn
      have hp' : (p.behind yes.scopeNames).inFunction = false := by rw [Place.inFunction_behind, hp]
      refine .bind fun v => ?_
      split
      · exact ih yes p hp hn.2.1
      · exact ih no _ hp' hn.2.2
    | «while» condition body =>
      rw [Stmt.nodes, List.forall_mem_append] at hn
      exact repeatWhile_goesOn (ih body p hp hn.2) fuel
    | «return» line value =>
      -- the return itself would be a fault
      have hfault := hn (.return line, p) List.mem_cons_self
      rw [Node.fault?, hp] at hfault
      cases hfault

end Eval

/-! ### Accepted programs -/

/-- The events of a statement from a machine on. -/
def Stmt.events (fuel : Nat) (s : Stmt OccurrenceId) (m : Machine) : List Event :=
  Eval.eventsOf (Eval.executeE fuel s) m

/-- **No return reaches the top level.**  A statement of an accepted program, executed from any machine on, returns
nothing.  Its events are orderly: what is returned in the functions that it calls is the value of the innermost call,
or is discarded behind the innermost run of a constructor; if it fails, its events are the beginning of orderly
ones. -/
theorem no_return_at_top_level {program : Program OccurrenceId} {res : Resolution}
    (h : (Resolver.empty.resolve program).1 = .ok res) {s : Stmt OccurrenceId} (hs : s ∈ program) (fuel : Nat)
    (m : Machine) :
    (Eval.executeE fuel s).run = Eval.execute fuel s ∧
    (∀ flow m', Eval.execute fuel s m = .ok flow m' → flow = .normal ∧ Orderly (s.events fuel m)) ∧
    ∀ stop m', Eval.execute fuel s m = .error stop m' → Interrupted (s.events fuel m) := by
  have hfaults : ∀ n ∈ s.nodes .global, Node.fault? n = none := by
    intro n hn
    refine (resolve_ok_nodes h).1 n ?_
    rw [Program.nodes_eq_flatMap]
    exact List.mem_flatMap.2 ⟨s, hs, hn⟩
  have hflow := Eval.execute_goesOn fuel s .global rfl hfaults m
  have hevents := (Eval.runs_orderly fuel).2.1 s m
  rw [Observer.execute_run] at hevents
  refine ⟨Observer.execute_run _ fuel () s, fun flow m' hrun => ?_, fun stop m' hrun => ?_⟩
  · rw [hrun] at hflow hevents
    obtain rfl : flow = .normal := hflow
    exact ⟨rfl, hevents⟩
  · rw [hrun] at hevents
    exact hevents

/-- A block with a function that returns out of a loop, and a call of it. -/
def returningOutOfLoop : Stmt OccurrenceId :=
  .block [.function ⟨⟨"f", 1⟩, [], [.while (.literal (.bool true)) (.return 1 none)]⟩,
    .expr (.call 1 (.name .identifier ⟨⟨"f", 1⟩, 0⟩) [])]

/-- The block goes on behind the call, and the call has ended with the return. -/
theorem no_return_at_top_level_loop :
    (Resolver.empty.resolve [returningOutOfLoop]).1 = .ok ⟨{(0, 0)}, []⟩ ∧
      ∃ m, Eval.execute 7 returningOutOfLoop ((Machine.initial none).install {(0, 0)}) = .ok .normal m ∧
        Orderly (returningOutOfLoop.events 7 ((Machine.initial none).install {(0, 0)})) := by
  have hres : (Resolver.empty.resolve [returningOutOfLoop]).1 = .ok ⟨{(0, 0)}, []⟩ := by cbv
  have hcompletes : (runProgram 7 [returningOutOfLoop] ((Machine.initial none).install {(0, 0)})).1 = .completed := by
    cbv
  obtain ⟨-, hends, -⟩ := no_return_at_top_level hres (List.mem_singleton.2 rfl) 7
    ((Machine.initial none).install {(0, 0)})
  refine ⟨hres, ?_⟩
  rw [runProgram] at hcompletes
  rcases hrun : Eval.execute 7 returningOutOfLoop ((Machine.initial none).install {(0, 0)}) with
    ⟨flow, m⟩ | ⟨stop, m⟩
  · obtain ⟨rfl, horderly⟩ := hends flow m hrun
    exact ⟨m, rfl, horderly⟩
  · rw [hrun] at hcompletes
    cases stop <;> cases hcompletes

end ScriptLang
