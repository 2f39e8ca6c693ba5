import ScriptLang.Proofs.Classes.Methods
import ScriptLang.Proofs.Events.Histories
import ScriptLang.Proofs.Events.TracedEvents
import ScriptLang.Proofs.Frames.Restoration

/-!
# The moments of a run

What holds at every event of a run, whatever runs: the current frame is there, all frames of the moments before have
gone on, and a method that is bound has been searched from the class of the instance on, or from the class that `super`
stands for.

* `Ongoing`, `Concluded` — a machine with what has happened so far;
* `Originates` — where a method that is bound comes from;
* `Proceeds` — a computation that keeps all this;
* `runs_proceed` — everything that runs is of this kind;
* `runEvents_proceed` — the events of a run of a program;
* `Machine.Reachable` — the machines that an interpreter comes through.
-/

namespace ScriptLang

open Eval
open Observer (events)

variable {α β : Type} {past : History} {m m' : Machine} {w : Event} {f : Closure} {owner c : Class} {o : Object}
  {line fuel : Nat} {name : Ident} {text : String}

/-- The current frame is there, and all frames of the past have gone on. -/
structure Ongoing (past : History) (m : Machine) : Prop where
  current : m.current < m.frames.size
  frames : ∀ p ∈ past, p.2.frames.Continue m.frames

/-- A property behind `super` begins. -/
def Event.Pending : Event → Prop
  | .evaluates (.superGet _ _) => True
  | _ => False

/-- A property behind `super` has not just begun. -/
def Concluded (past : History) : Prop := ∀ p ∈ past.getLast?, ¬ p.1.Pending

/-- Where a method comes from that is bound to an instance.  Either it is a method of a class from which the class of the
instance descends; or a property behind `super` has just begun, `super` is a class and `this` the instance, and the
method is searched from this class on. -/
inductive Originates (past : History) (f : Closure) (owner : Class) (o : Object) (m : Machine) : Prop
  | own {text : String} : Concluded past → owner ∈ o.cls.lineage → owner.own.methods.get? text = some f →
    Originates past f owner o m
  | super {before : History} {use : Occurrence OccurrenceId} {name : Ident} {c : Class} :
    past = before ++ [(.evaluates (.superGet use name), m)] → lookUp use m = .ok (.ofClass c) m →
      lookUpAs use "this" m = .ok (.object o) m → c.Finds name.text owner f → Originates past f owner o m

/-- If a method is bound, this is where it comes from. -/
def Sourced (past : History) : Event → Machine → Prop
  | .binds f owner o, m => Originates past f owner o m
  | _, _ => True

/-- What holds at every event. -/
structure Moment (past : History) (w : Event) (m : Machine) : Prop where
  current : m.current < m.frames.size
  sourced : Sourced past w m

/-- The machine `m'` with what has happened so far comes after `m`. -/
structure Onward (m : Machine) (past' : History) (m' : Machine) : Prop where
  grown : m.Grown m'
  ongoing : Ongoing past' m'

/-- At every event holds what holds at every event, and the machine goes on; if it comes to a result, no property behind
`super` has just begun. -/
def Proceeds (t : Recording α) (past : History) (m : Machine) : Prop :=
  t.Tells Moment (fun _ past' m' => Onward m past' m' ∧ Concluded past') (Onward m) past m

lemma concluded_snoc (hw : ¬ w.Pending) : Concluded (past ++ [(w, m)]) := by
  intro p hp
  rw [List.getLast?_concat] at hp
  cases hp
  exact hw

namespace Ongoing

lemma grown (h : Ongoing past m) (hg : m.Grown m') : Ongoing past m' :=
  ⟨hg.current ▸ Nat.lt_of_lt_of_le h.current hg.frames.size, fun p hp => (h.frames p hp).trans hg.frames⟩

lemma event (h : Ongoing past m) (w : Event) : Ongoing (past ++ [(w, m)]) m :=
  ⟨h.current, List.forall_mem_append.2 ⟨h.frames, List.forall_mem_singleton.2 .refl⟩⟩

lemma onward (h : Ongoing past m) (hg : m.Grown m') : Onward m past m' := ⟨hg, h.grown hg⟩

end Ongoing

/-! ### Computations -/

namespace Proceeds

variable {t : Recording α} {g : α → Recording β} {x : Eval α} {a : α}

lemma lift (hx : Growing x) (hm : Ongoing past m) (hs : Concluded past) : Proceeds (.lift x) past m := by
  have hgrown := hx m
  refine Traced.Tells.lift ?_
  rcases hr : x m with ⟨a, m'⟩ | ⟨stop, m'⟩ <;> rw [hr] at hgrown
  · exact ⟨hm.onward hgrown, hs⟩
  · exact hm.onward hgrown

lemma pure (hm : Ongoing past m) (hs : Concluded past) : Proceeds (Pure.pure a) past m := lift .pure hm hs

/-- A step that stops. -/
lemma stop {stop : Stop} (h : x m = .error stop m) (hm : Ongoing past m) : Proceeds (.lift x) past m := by
  refine Traced.Tells.lift ?_
  rw [h]
  exact hm.onward .refl

/-- What comes after a machine from which running has come. -/
lemma after (h : Proceeds t past m') (hg : m.Grown m') :
    t.Tells Moment (fun _ past' m'' => Onward m past' m'' ∧ Concluded past') (Onward m) past m' :=
  Traced.Tells.mono h (fun _ _ _ h => h) (fun _ _ _ h => ⟨⟨hg.trans h.1.grown, h.1.ongoing⟩, h.2⟩)
    fun _ _ h => ⟨hg.trans h.grown, h.ongoing⟩

lemma bind (h : Proceeds t past m)
    (hg : ∀ a past' m', Onward m past' m' → Concluded past' → Proceeds (g a) past' m') : Proceeds (t >>= g) past m :=
  Traced.Tells.bind h fun a past' m' h => (hg a past' m' h.1 h.2).after h.1.grown

/-- A step with a known result. -/
lemma step (hx : x m = .ok a m') (hgrown : m.Grown m') (h : Proceeds (g a) past m') :
    Proceeds (.lift x >>= g) past m := by
  refine Traced.Tells.bind (Q := fun b past' n => b = a ∧ past' = past ∧ n = m') (Traced.Tells.lift ?_) ?_
  · rw [hx]
    exact ⟨rfl, rfl, rfl⟩
  · rintro _ _ _ ⟨rfl, rfl, rfl⟩
    exact h.after hgrown

lemma step_stop {stop : Stop} (hx : x m = .error stop m) (hm : Ongoing past m) : Proceeds (.lift x >>= g) past m := by
  refine Traced.Tells.bind (Q := fun _ _ _ => False) (Traced.Tells.lift ?_) fun _ _ _ h => h.elim
  rw [hx]
  exact hm.onward .refl

lemma visit (hw : Sourced past w m) (hm : Ongoing past m)
    (h : Ongoing (past ++ [(w, m)]) m → Proceeds t (past ++ [(w, m)]) m) : Proceeds (.visit w t) past m :=
  Traced.Tells.visit ⟨hm.current, hw⟩ (h (hm.event w))

/-- An event that begins no property behind `super`. -/
lemma visit_concluded (hw : Sourced past w m) (hw' : ¬ w.Pending) (hm : Ongoing past m)
    (h : Ongoing (past ++ [(w, m)]) m → Concluded (past ++ [(w, m)]) → Proceeds t (past ++ [(w, m)]) m) :
    Proceeds (.visit w t) past m := visit hw hm fun hm => h hm (concluded_snoc hw')

lemma mapM {g : α → Recording β} (hg : ∀ a past m, Ongoing past m → Proceeds (g a) past m) (l : List α)
    (hm : Ongoing past m) (hs : Concluded past) : Proceeds (l.mapM g) past m := by
  have loop : ∀ (l : List α) (acc : List β) (past : History) (m : Machine), Ongoing past m → Concluded past →
      Proceeds (List.mapM.loop g l acc) past m := by
    intro l
    induction l with
    | nil => exact fun acc past m hm hs => pure hm hs
    | cons a l ih =>
      intro acc past m hm hs
      rw [List.mapM.loop]
      exact (hg a past m hm).bind fun b past' m' h hs' => ih (b :: acc) past' m' h.ongoing hs'
  exact loop l [] past m hm hs

/-- A computation in another frame. -/
lemma inFrame {i : FrameId} (hm : Ongoing past m) (h : Proceeds t past { m with current := i }) :
    Proceeds (inFrameT i t) past m := by
  obtain ⟨htrace, hrun⟩ := h
  have back : ∀ {past' m'}, Onward { m with current := i } past' m' → Onward m past' { m' with current := m.current } :=
    fun h => ⟨{ h.grown with current := rfl },
      Nat.lt_of_lt_of_le hm.current h.grown.frames.size, h.ongoing.frames⟩
  refine ⟨htrace, ?_⟩
  show Traced.Ends _ _ (Eval.inFrame i t.run m)
  unfold Eval.inFrame
  simp only
  rcases hr : t.run { m with current := i } with ⟨a, m'⟩ | ⟨stop, m'⟩ <;> rw [hr] at hrun
  · exact ⟨back hrun.1, hrun.2⟩
  · exact back hrun

end Proceeds

/-! ### Methods that are bound -/

lemma bindMethod_proceeds (hm : Ongoing past m) (h : Originates past f owner o m) :
    Proceeds (events.bindMethod f owner o) past m :=
  .visit_concluded h not_false hm fun hm hs => .lift (bindMethod_growing f owner o) hm hs

lemma method_proceeds (hm : Ongoing past m)
    (h : ∀ owner f, c.Finds name.text owner f → Originates past f owner o m) :
    Proceeds (events.method o c name) past m := by
  unfold Observer.method
  rcases hfind : c.findMethod? name.text with _ | ⟨owner, f⟩
  · exact .stop rfl hm
  · exact (bindMethod_proceeds hm (h _ _ (Class.findMethod?_finds hfind))).bind fun _ _ _ h hs => .pure h.ongoing hs

lemma property_proceeds (v : Value) (hm : Ongoing past m) (hs : Concluded past) :
    Proceeds (events.property v name) past m := by
  unfold Observer.property
  cases v with
  | object o =>
    refine Proceeds.step (a := m) rfl .refl ?_
    split
    · exact .pure hm hs
    · exact method_proceeds hm fun owner f hf => .own hs hf.mem hf.declares
  | _ => exact .lift (property_growing _) hm hs

/-- Behind the event of a property behind `super` the method is bound, or the access fails. -/
lemma superProperty_proceeds {use : Occurrence OccurrenceId}
    (hm : Ongoing (past ++ [(.evaluates (.superGet use name), m)]) m) :
    Proceeds (events.superProperty use name) (past ++ [(.evaluates (.superGet use name), m)]) m := by
  unfold Observer.superProperty
  rcases lookUpAs_cases use use.text m with ⟨v, hsuper⟩ | hsuper
  · refine .step hsuper .refl ?_
    cases v with
    | ofClass c =>
      rcases lookUpAs_cases use "this" m with ⟨w, hthis⟩ | hthis
      · refine .step hthis .refl ?_
        cases w with
        | object o => exact method_proceeds hm fun owner f hf => .super rfl hsuper hthis hf
        | _ => exact .stop rfl hm
      · exact .step_stop hthis hm
    | _ => exact .stop rfl hm
  · exact .step_stop hsuper hm

/-! ### Everything that runs -/

/-- A declaration that ends with the definition of its name. -/
lemma definesE_proceeds (name : Ident) (v : Value) (constant : Bool) (hm : Ongoing past m) (hs : Concluded past) :
    Proceeds (do .lift (define name v constant); return Flow.normal) past m :=
  (Proceeds.lift (define_growing constant) hm hs).bind fun _ _ _ h1 hs1 => .pure h1.ongoing hs1

/-- Expressions, statements and calls keep what holds at every event. -/
structure RunsProceed (fuel : Nat) : Prop where
  evaluate : ∀ e past m, Ongoing past m → Proceeds (evaluateE fuel e) past m
  execute : ∀ s past m, Ongoing past m → Proceeds (executeE fuel s) past m
  invoke : ∀ f args past m, Ongoing past m → Concluded past → Proceeds (invokeE fuel f args) past m

section Runs

variable (h : RunsProceed fuel)

include h

lemma sequence_proceeds (ss : List (Stmt OccurrenceId)) (hm : Ongoing past m) (hs : Concluded past) :
    Proceeds (events.sequence (events.execute fuel) () ss) past m := by
  induction ss generalizing past m with
  | nil => exact .pure hm hs
  | cons s ss ih =>
    rw [Observer.sequence]
    refine (h.execute s past m hm).bind fun flow past' m' hon hs' => ?_
    cases flow with
    | normal => exact ih hon.ongoing hs'
    | returned v => exact .pure hon.ongoing hs'

/-- Statements in a frame that is there. -/
lemma bodyE_proceeds {i : FrameId} (hi : i < m.frames.size) (ss : List (Stmt OccurrenceId)) (hm : Ongoing past m)
    (hs : Concluded past) : Proceeds (inFrameT i (events.sequence (events.execute fuel) () ss)) past m :=
  .inFrame hm (sequence_proceeds h ss ⟨hi, hm.frames⟩ hs)

lemma repeatWhileT_proceeds (c : Expr OccurrenceId) (body : Stmt OccurrenceId) (n : Nat) (hm : Ongoing past m)
    (hs : Concluded past) : Proceeds (repeatWhileT (evaluateE fuel c) (executeE fuel body) n) past m := by
  induction n generalizing past m with
  | zero => exact .stop rfl hm
  | succ n ih =>
    rw [repeatWhileT]
    refine (h.evaluate c past m hm).bind fun v past1 m1 h1 hs1 => ?_
    split
    · refine (h.execute body past1 m1 h1.ongoing).bind fun flow past2 m2 h2 hs2 => ?_
      cases flow with
      | normal => exact ih h2.ongoing hs2
      | returned v => exact .pure h2.ongoing hs2
    · exact .pure h1.ongoing hs1

lemma constructOwn_proceeds {args : List Value} (hc : c ∈ o.cls.lineage) (hm : Ongoing past m) (hs : Concluded past) :
    Proceeds (events.constructOwn (invokeE fuel) o args line c) past m := by
  unfold Observer.constructOwn
  split
  · exact .pure hm hs
  · next f hf =>
    refine (Proceeds.lift (checkArity_growing _ _ _) hm hs).bind fun _ past1 m1 h1 hs1 => ?_
    refine (bindMethod_proceeds h1.ongoing (.own hs1 hc hf)).bind fun g past2 m2 h2 _ => ?_
    refine Proceeds.bind (.visit_concluded trivial not_false h2.ongoing (h.invoke g args _ m2)) fun v past3 m3 h3 hs3 => ?_
    exact .visit_concluded trivial not_false h3.ongoing fun hm hs => .pure hm hs

lemma construct_proceeds {args : List Value} : ∀ {cs : List Class} {past : History} {m : Machine},
    (∀ c ∈ cs, c ∈ o.cls.lineage) → Ongoing past m → Concluded past →
      Proceeds (events.construct (invokeE fuel) o args line cs) past m
  | [], _, _, _, hm, hs => .pure hm hs
  | c :: cs, past, m, hcs, hm, hs => by
    obtain ⟨hc, hcs⟩ := List.forall_mem_cons.1 hcs
    rw [Observer.construct]
    exact (constructOwn_proceeds h hc hm hs).bind fun _ _ _ h1 hs1 => construct_proceeds hcs h1.ongoing hs1

lemma apply_proceeds (callee : Value) (args : List Value) (hm : Ongoing past m) (hs : Concluded past) :
    Proceeds (events.apply (invokeE fuel) callee args line) past m := by
  unfold Observer.apply
  cases callee with
  | closure f =>
    refine (Proceeds.lift (checkArity_growing _ _ _) hm hs).bind fun _ past1 m1 h1 _ => ?_
    refine Proceeds.bind (.visit_concluded trivial not_false h1.ongoing (h.invoke f args _ m1)) fun v past2 m2 h2 _ => ?_
    exact .visit_concluded trivial not_false h2.ongoing fun hm hs => .pure hm hs
  | ofClass c =>
    refine (Proceeds.lift (checkArity_growing _ _ _) hm hs).bind fun _ past1 m1 h1 hs1 => ?_
    have hmade := newObject_growing c m1
    refine .step rfl hmade ?_
    refine (construct_proceeds h (fun d hd => List.mem_reverse.1 hd) (h1.ongoing.grown hmade) hs1).bind
      fun _ past2 m2 h2 hs2 => ?_
    exact .pure h2.ongoing hs2
  | _ => exact .stop rfl hm

lemma evaluateE_proceeds (e : Expr OccurrenceId) (hm : Ongoing past m) : Proceeds (evaluateE (fuel + 1) e) past m := by
  have he := h.evaluate
  rw [evaluateE, Observer.evaluate.eq_def]
  refine .visit trivial hm fun hm => ?_
  have hconcluded : ¬ (Event.evaluates e).Pending → Concluded (past ++ [(.evaluates e, m)]) := concluded_snoc
  cases e with
  | literal value => exact .pure hm (hconcluded not_false)
  | name kind use => exact .lift (lookUpAs_growing use use.text) hm (hconcluded not_false)
  | assign target value =>
    refine (he value _ m hm).bind fun v past1 m1 h1 hs1 => ?_
    exact (Proceeds.lift (assign_growing target v) h1.ongoing hs1).bind fun _ _ _ h2 hs2 => .pure h2.ongoing hs2
  | unary op line operand =>
    exact (he operand _ m hm).bind fun v _ _ h1 hs1 => .lift (ofTypes_growing _) h1.ongoing hs1
  | binary op line left right =>
    refine (he left _ m hm).bind fun v past1 m1 h1 _ => ?_
    exact (he right past1 m1 h1.ongoing).bind fun w _ _ h2 hs2 => .lift (ofTypes_growing _) h2.ongoing hs2
  | logical op line left right =>
    refine (he left _ m hm).bind fun v past1 m1 h1 hs1 => ?_
    split
    · exact .pure h1.ongoing hs1
    · exact he right past1 m1 h1.ongoing
  | group inner => exact he inner _ m hm
  | call line callee args =>
    refine (he callee _ m hm).bind fun f past1 m1 h1 hs1 => ?_
    exact (Proceeds.mapM he args h1.ongoing hs1).bind fun vs _ _ h2 hs2 => apply_proceeds h f vs h2.ongoing hs2
  | get object name => exact (he object _ m hm).bind fun v _ _ h1 hs1 => property_proceeds v h1.ongoing hs1
  | superGet use name => exact superProperty_proceeds hm
  | set object name value =>
    refine (he object _ m hm).bind fun v past1 m1 h1 _ => ?_
    cases v with
    | object o =>
      refine (he value past1 m1 h1.ongoing).bind fun w past2 m2 h2 hs2 => ?_
      exact (Proceeds.lift (setProperty_growing o w) h2.ongoing hs2).bind fun _ _ _ h3 hs3 => .pure h3.ongoing hs3
    | _ => exact .stop rfl h1.ongoing

lemma executeE_proceeds (s : Stmt OccurrenceId) (hm : Ongoing past m) : Proceeds (executeE (fuel + 1) s) past m := by
  have he := h.evaluate
  have hx := h.execute
  rw [executeE, Observer.execute.eq_def]
  refine .visit_concluded trivial not_false hm fun hm hs => ?_
  cases s with
  | expr e => exact (he e _ m hm).bind fun _ _ _ h1 hs1 => .pure h1.ongoing hs1
  | print e =>
    refine (he e _ m hm).bind fun v past1 m1 h1 hs1 => ?_
    exact (Proceeds.lift (printLine_growing v.text) h1.ongoing hs1).bind fun _ _ _ h2 hs2 => .pure h2.ongoing hs2
  | letVar name value =>
    cases value with
    | none => exact definesE_proceeds name .null false hm hs
    | some value => exact (he value _ m hm).bind fun v _ _ h1 hs1 => definesE_proceeds name v false h1.ongoing hs1
  | constVar name value =>
    exact (he value _ m hm).bind fun v _ _ h1 hs1 => definesE_proceeds name v true h1.ongoing hs1
  | block body =>
    have hadd : m.Grown { m with frames := m.frames.add (.empty (some m.current)) } := .of_frames (add_continue _)
    refine .step (a := m) rfl .refl (.step rfl hadd ?_)
    exact bodyE_proceeds h (Nat.lt_of_lt_of_eq (Nat.lt_succ_self _) (size_add _).symm) body (hm.grown hadd) hs
  | ifThen c yes =>
    refine (he c _ m hm).bind fun v past1 m1 h1 hs1 => ?_
    split
    · exact hx yes past1 m1 h1.ongoing
    · exact .pure h1.ongoing hs1
  | ifElse c yes no =>
    refine (he c _ m hm).bind fun v past1 m1 h1 _ => ?_
    split
    · exact hx yes past1 m1 h1.ongoing
    · exact hx no past1 m1 h1.ongoing
  | «while» c body => exact repeatWhileT_proceeds h c body fuel hm hs
  | function decl =>
    refine (Proceeds.lift (newClosure_growing decl) hm hs).bind fun f _ _ h1 hs1 => ?_
    exact definesE_proceeds decl.name (.closure f) false h1.ongoing hs1
  | «return» line value =>
    cases value with
    | none => exact .visit_concluded trivial not_false hm fun hm hs => .pure hm hs
    | some value =>
      refine (he value _ m hm).bind fun v past1 m1 h1 _ => ?_
      exact .visit_concluded trivial not_false h1.ongoing fun hm hs => .pure hm hs
  | classDecl name parent methods statics =>
    refine Proceeds.bind ?_ fun _ _ _ h1 hs1 => .pure h1.ongoing hs1
    rw [events.declareClass_unmarked rfl]
    refine Proceeds.bind ?_ fun c _ _ h1 hs1 => .lift (declareBody_growing c methods statics) h1.ongoing hs1
    cases parent with
    | none => exact .pure hm hs
    | some use =>
      exact .visit_concluded trivial not_false hm fun hm hs => .lift (superclass_growing (some use)) hm hs

lemma invokeE_proceeds (f : Closure) (args : List Value) (hm : Ongoing past m) (hs : Concluded past) :
    Proceeds (invokeE (fuel + 1) f args) past m := by
  have hadd : m.Grown { m with frames := m.frames.add (.empty (some f.frame)) } := .of_frames (add_continue _)
  rw [invokeE, Observer.invoke]
  refine .step rfl hadd ?_
  rw [events.bindParams_unmarked rfl]
  refine (Proceeds.lift (bindParams_growing _ _ args) (hm.grown hadd) hs).bind fun _ past1 m1 h1 hs1 => ?_
  have hi : m.frames.size < m1.frames.size :=
    Nat.lt_of_lt_of_le (Nat.lt_of_lt_of_eq (Nat.lt_succ_self _) (size_add _).symm) h1.grown.frames.size
  refine (bodyE_proceeds h hi f.decl.body h1.ongoing hs1).bind fun flow _ _ h2 hs2 => ?_
  cases flow with
  | normal => exact .pure h2.ongoing hs2
  | returned v => exact .pure h2.ongoing hs2

end Runs

/-- **Whatever runs keeps what holds at every event**, with any fuel. -/
theorem runs_proceed (fuel : Nat) : RunsProceed fuel := by
  induction fuel with
  | zero =>
    refine ⟨fun e past m hm => ?_, fun s past m hm => ?_, fun f args past m hm _ => ?_⟩
    · rw [evaluateE, Observer.evaluate]
      exact .stop rfl hm
    · rw [executeE, Observer.execute]
      exact .stop rfl hm
    · rw [invokeE, Observer.invoke]
      exact .stop rfl hm
  | succ fuel ih =>
    exact ⟨fun e past m => evaluateE_proceeds ih e, fun s past m => executeE_proceeds ih s,
      fun f args past m => invokeE_proceeds ih f args⟩

/-- **What holds at every event of a run of a program**, and behind the run. -/
theorem runEvents_proceed (fuel : Nat) (program : Program OccurrenceId) (hm : Ongoing past m) :
    Chronicle Moment past (runEvents fuel program m) ∧
      Ongoing (past ++ runEvents fuel program m) (runProgram fuel program m).2 := by
  induction program generalizing past m with
  | nil =>
    rw [runEvents, Observer.moments, runProgram, List.append_nil]
    exact ⟨trivial, hm⟩
  | cons s ss ih =>
    obtain ⟨htrace, hrun⟩ := (runs_proceed fuel).execute s past m hm
    rw [runEvents, Observer.moments, runProgram, ← Observer.events.execute_run _ ()]
    rcases he : (executeE fuel s).run m with ⟨flow, m'⟩ | ⟨stop, m'⟩ <;> rw [he] at hrun
    · obtain ⟨hrest, hlast⟩ := ih hrun.1.ongoing
      rw [← List.append_assoc]
      exact ⟨chronicle_append.2 ⟨htrace, hrest⟩, hlast⟩
    · rw [List.append_nil]
      refine ⟨htrace, ?_⟩
      cases stop <;> exact hrun.ongoing

/-! ### Machines that can be reached -/

/-- The machines that an interpreter comes through: those between the programs that it runs, whatever becomes of these,
and those at the events of a program. -/
def Machine.Reachable (m : Machine) : Prop :=
  ∃ (limit : Option Nat) (tasks : List Task), m = tasks.foldl Machine.perform (Machine.initial limit) ∨
    ∃ (task : Task) (w : Event), (w, m) ∈ runEvents task.fuel task.program
      ((tasks.foldl Machine.perform (Machine.initial limit)).prepare task)

/-- The current frame of such a machine is there. -/
lemma Machine.Reachable.current_lt (h : m.Reachable) : m.current < m.frames.size := by
  obtain ⟨limit, tasks, rfl | ⟨task, w, hw⟩⟩ := h
  · exact (foldl_perform (initial_current limit) tasks).2.1
  · have hstart : Ongoing [] ((tasks.foldl Machine.perform (Machine.initial limit)).prepare task) := by
      refine ⟨?_, List.forall_mem_nil _⟩
      rw [prepare_current, prepare_frames]
      exact (foldl_perform (initial_current limit) tasks).2.1
    obtain ⟨before, after, hsplit⟩ := List.append_of_mem hw
    exact (chronicle_iff.1 (runEvents_proceed task.fuel task.program hstart).1 _ _ _ hsplit).current

end ScriptLang
