import ScriptLang.Proofs.Heap.FoundedSteps

/-!
# Runs that build on what is there

With any fuel and any table of distances, running keeps a machine that refers only to what has been made before it: a
block or a call makes its frame inside of one that is there, and so does binding a method.

* `EvaluatesFounded`, `ExecutesFounded`, `InvokesFounded` — the statement for expressions, statements and calls;
* `runs_founded` — the induction on the fuel that proves all three;
* `runEvents_founded` — whole programs.
-/

namespace ScriptLang

open Eval
open Observer (events)

variable {past past' : History} {m m' : Machine} {fuel line : Nat} {v : Value}

/-- What a returned value refers to is there. -/
def FoundedFlow (flow : Flow) (past : History) (m : Machine) : Prop :=
  ∀ v, flow = .returned v → FoundedValue v past m

lemma normal_founded : FoundedFlow .normal past m := by
  rintro v ⟨⟩

lemma returned_founded (hv : FoundedValue v past m) : FoundedFlow (.returned v) past m := by
  rintro w ⟨⟩
  exact hv

/-- With this fuel, expressions are evaluated so. -/
def EvaluatesFounded (fuel : Nat) : Prop :=
  ∀ (e : Expr OccurrenceId) (past : History) (m : Machine), m.Founded (classesOf past) →
    StaysFounded (evaluateE fuel e) past m FoundedValue

/-- With this fuel, statements are executed so. -/
def ExecutesFounded (fuel : Nat) : Prop :=
  ∀ (s : Stmt OccurrenceId) (past : History) (m : Machine), m.Founded (classesOf past) →
    StaysFounded (executeE fuel s) past m FoundedFlow

/-- With this fuel, functions are called so. -/
def InvokesFounded (fuel : Nat) : Prop :=
  ∀ (f : Closure) (args : List Value) (past : History) (m : Machine), m.Founded (classesOf past) → f.Within m →
    (∀ v ∈ args, FoundedValue v past m) → StaysFounded (invokeE fuel f args) past m FoundedValue

/-! ### Parts of runs -/

lemma sequence_founded (hx : ExecutesFounded fuel) : ∀ (ss : List (Stmt OccurrenceId)) {past : History} {m : Machine},
    m.Founded (classesOf past) → StaysFounded (events.sequence (events.execute fuel) () ss) past m FoundedFlow
  | [], past, m, hm => .pure hm normal_founded
  | s :: ss, past, m, hm => by
    rw [Observer.sequence]
    refine (hx s past m hm).bind fun flow past' m' h hflow => ?_
    cases flow with
    | normal => exact sequence_founded hx ss h.founded
    | returned v => exact .pure h.founded hflow

/-- The statements of a body, in a frame that is there. -/
lemma body_founded (hx : ExecutesFounded fuel) {i : FrameId} (ss : List (Stmt OccurrenceId))
    (hm : m.Founded (classesOf past)) (hi : i < m.frames.size) :
    StaysFounded (inFrameT i (events.sequence (events.execute fuel) () ss)) past m FoundedFlow := by
  refine .inFrame hm (fun flow past' m' j h v hv => ?_) (sequence_founded hx ss (hm.restate rfl rfl (Nat.le_refl _) hi))
  have hsame : HeapGrows (classesOf past') m' (classesOf past') { m' with current := j } :=
    ⟨List.Subset.refl _, Nat.le_refl _, Nat.le_refl _⟩
  exact hsame.value (h v hv)

lemma repeatWhile_founded {test : Recording Value} {body : Recording Flow}
    (htest : ∀ past m, m.Founded (classesOf past) → StaysFounded test past m FoundedValue)
    (hbody : ∀ past m, m.Founded (classesOf past) → StaysFounded body past m FoundedFlow)
    (n : Nat) (hm : m.Founded (classesOf past)) : StaysFounded (repeatWhileT test body n) past m FoundedFlow := by
  induction n generalizing past m with
  | zero => exact .outOfFuel hm
  | succ n ih =>
    rw [repeatWhileT]
    refine (htest past m hm).bind fun v past1 m1 h1 _ => ?_
    split
    · refine (hbody past1 m1 h1.founded).bind fun flow past2 m2 h2 hflow => ?_
      cases flow with
      | normal => exact ih h2.founded
      | returned v => exact .pure h2.founded hflow
    · exact .pure h1.founded normal_founded

section Calls

variable {o : Object} {args : List Value} (hi : InvokesFounded fuel)

include hi

lemma constructOwn_founded {c : Class} (hm : m.Founded (classesOf past)) (hc : c ∈ classesOf past)
    (ho : o.Within (classesOf past) m) (hargs : ∀ v ∈ args, FoundedValue v past m) :
    StaysFoundedAnyhow (events.constructOwn (invokeE fuel) o args line c) past m := by
  unfold Observer.constructOwn
  split
  · exact .pure hm trivial
  · next f hf =>
    have hmethod := (hm.members c hc).methods _ f hf
    refine (checkArity_founded hm).bind fun _ past1 m1 h1 _ => ?_
    refine (bindMethod_founded h1.founded (h1.grows.closure hmethod) (h1.grows.classes hc)
      (h1.grows.object ho)).bind fun g past2 m2 h2 hg => ?_
    have hevent := BuiltOn.event h2.founded (w := .constructs g) rfl
    have hcall := hi g args _ m2 hevent.founded hg (((h1.trans h2).trans hevent).values hargs)
    refine (StaysFounded.visit (w := .constructs g) h2.founded rfl hg hcall).bind fun v past3 m3 h3 hv => ?_
    exact .visit h3.founded rfl hv (.pure (BuiltOn.event h3.founded rfl).founded trivial)

lemma construct_founded : ∀ {cs : List Class} {past : History} {m : Machine}, m.Founded (classesOf past) →
    (∀ c ∈ cs, c ∈ classesOf past) → o.Within (classesOf past) m → (∀ v ∈ args, FoundedValue v past m) →
    StaysFoundedAnyhow (events.construct (invokeE fuel) o args line cs) past m
  | [], _, _, hm, _, _, _ => .pure hm trivial
  | c :: cs, past, m, hm, hcs, ho, hargs => by
    obtain ⟨hc, hcs⟩ := List.forall_mem_cons.1 hcs
    rw [Observer.construct]
    refine (constructOwn_founded hi hm hc ho hargs).bind fun _ past1 m1 h1 _ => ?_
    exact construct_founded h1.founded (fun c hc => h1.grows.classes (hcs c hc)) (h1.grows.object ho) (h1.values hargs)

lemma apply_founded {callee : Value} (hm : m.Founded (classesOf past)) (hcallee : FoundedValue callee past m)
    (hargs : ∀ v ∈ args, FoundedValue v past m) :
    StaysFounded (events.apply (invokeE fuel) callee args line) past m FoundedValue := by
  unfold Observer.apply
  cases callee with
  | closure f =>
    refine (checkArity_founded hm).bind fun _ past1 m1 h1 _ => ?_
    have hf : f.Within m1 := h1.grows.closure hcallee
    have hevent := BuiltOn.event h1.founded (w := .calls f) rfl
    have hcall := hi f args _ m1 hevent.founded hf ((h1.trans hevent).values hargs)
    refine (StaysFounded.visit (w := .calls f) h1.founded rfl hf hcall).bind fun v past2 m2 h2 hv => ?_
    have hgives := BuiltOn.event h2.founded (w := .gives v) rfl
    exact .visit h2.founded rfl hv (.pure hgives.founded (hgives.grows.value hv))
  | ofClass c =>
    refine (checkArity_founded hm).bind fun _ past1 m1 h1 _ => ?_
    have hc : c ∈ classesOf past1 := h1.grows.classes hcallee
    refine (newObject_founded h1.founded hc).bind fun o past2 m2 h2 ho => ?_
    refine (construct_founded hi h2.founded (fun d hd => ?_) ho ((h1.trans h2).values hargs)).bind
      fun _ past3 m3 h3 _ => .pure h3.founded (h3.grows.object ho)
    exact h2.founded.classes.mem_lineage (h2.grows.classes hc) d (List.mem_reverse.1 hd)
  | _ => exact .fail hm

end Calls

/-! ### The induction -/

lemma evaluatesFounded_succ (he : EvaluatesFounded fuel) (hi : InvokesFounded fuel) : EvaluatesFounded (fuel + 1) := by
  intro e past m hm
  rw [evaluateE, Observer.evaluate.eq_def]
  refine .visit hm rfl trivial ?_
  replace hm := (BuiltOn.event hm (w := .evaluates e) rfl).founded
  cases e with
  | literal value => exact .pure hm (literal_primitive value).within
  | name kind use => exact lookUpAs_founded hm
  | assign target value =>
    refine (he value _ m hm).bind fun v past1 m1 h1 hv => ?_
    exact (assign_founded h1.founded hv).bind fun _ past2 m2 h2 _ => .pure h2.founded (h2.grows.value hv)
  | unary op line operand =>
    refine (he operand _ m hm).bind fun v past1 m1 h1 _ => ?_
    exact ofTypes_founded h1.founded fun w hw => (unary_primitive hw).within
  | binary op line left right =>
    refine (he left _ m hm).bind fun v past1 m1 h1 _ => ?_
    refine (he right past1 m1 h1.founded).bind fun w past2 m2 h2 _ => ?_
    exact ofTypes_founded h2.founded fun u hu => (binary_primitive hu).within
  | logical op line left right =>
    refine (he left _ m hm).bind fun v past1 m1 h1 hv => ?_
    split
    · exact .pure h1.founded hv
    · exact he right past1 m1 h1.founded
  | group inner => exact he inner _ m hm
  | call line callee args =>
    refine (he callee _ m hm).bind fun f past1 m1 h1 hf => ?_
    refine (StaysFounded.mapM h1.founded he).bind fun vs past2 m2 h2 hvs => ?_
    exact apply_founded hi h2.founded (h2.grows.value hf) hvs
  | get object name => exact (he object _ m hm).bind fun v past1 m1 h1 hv => property_founded h1.founded hv
  | superGet keyword name => exact superProperty_founded hm
  | set object name value =>
    refine (he object _ m hm).bind fun v past1 m1 h1 _ => ?_
    cases v with
    | object o =>
      refine (he value past1 m1 h1.founded).bind fun w past2 m2 h2 hw => ?_
      exact (setProperty_founded h2.founded hw).bind fun _ past3 m3 h3 _ => .pure h3.founded (h3.grows.value hw)
    | _ => exact .fail h1.founded

/-- A declaration that ends with the definition of its name. -/
lemma declares_founded {name : Ident} {constant : Bool} (hm : m.Founded (classesOf past)) (hv : FoundedValue v past m) :
    StaysFounded (do .lift (define name v constant); return Flow.normal) past m FoundedFlow :=
  (define_founded hm hv).bind fun _ _ _ h _ => .pure h.founded normal_founded

lemma executesFounded_succ (he : EvaluatesFounded fuel) (hx : ExecutesFounded fuel) : ExecutesFounded (fuel + 1) := by
  intro s past m hm
  by_cases hclass : ∃ name parent methods statics, s = .classDecl name parent methods statics
  · obtain ⟨name, parent, methods, statics, rfl⟩ := hclass
    exact (classDecl_founded fuel name parent methods statics hm).mono fun _ _ _ _ h => h ▸ normal_founded
  simp only [not_exists] at hclass
  rw [executeE, Observer.execute.eq_def]
  refine .visit hm (makes?_of_ne hclass) trivial ?_
  replace hm := (BuiltOn.event hm (makes?_of_ne hclass)).founded
  cases s with
  | expr e => exact (he e _ m hm).bind fun v past1 m1 h1 _ => .pure h1.founded normal_founded
  | print e =>
    refine (he e _ m hm).bind fun v past1 m1 h1 _ => ?_
    exact (printLine_founded h1.founded).bind fun _ past2 m2 h2 _ => .pure h2.founded normal_founded
  | letVar name value =>
    cases value with
    | none => exact declares_founded hm trivial
    | some value => exact (he value _ m hm).bind fun v past1 m1 h1 hv => declares_founded h1.founded hv
  | constVar name value => exact (he value _ m hm).bind fun v past1 m1 h1 hv => declares_founded h1.founded hv
  | block body =>
    refine StaysFounded.bind (Q := fun n _ m' => n = m') (.step rfl (.refl hm) rfl) ?_
    rintro _ past1 n h1 rfl
    refine (newFrame_founded h1.founded h1.founded.current).bind fun i past2 m2 h2 hi => ?_
    exact body_founded hx body h2.founded hi
  | ifThen c yes =>
    refine (he c _ m hm).bind fun v past1 m1 h1 _ => ?_
    split
    · exact hx yes past1 m1 h1.founded
    · exact .pure h1.founded normal_founded
  | ifElse c yes no =>
    refine (he c _ m hm).bind fun v past1 m1 h1 _ => ?_
    split
    · exact hx yes past1 m1 h1.founded
    · exact hx no past1 m1 h1.founded
  | «while» c body => exact repeatWhile_founded (he c) (hx body) fuel hm
  | function decl => exact (newClosure_founded hm).bind fun f past1 m1 h1 hf => declares_founded h1.founded hf
  | «return» line value =>
    cases value with
    | none => exact .visit hm rfl trivial (.pure (BuiltOn.event hm rfl).founded (returned_founded trivial))
    | some value =>
      refine (he value _ m hm).bind fun v past1 m1 h1 hv => ?_
      have hevent := BuiltOn.event h1.founded (w := .returns v) rfl
      exact .visit h1.founded rfl hv (.pure hevent.founded (returned_founded (hevent.grows.value hv)))
  | classDecl name parent methods statics => exact absurd rfl (hclass name parent methods statics)

lemma invokesFounded_succ (hx : ExecutesFounded fuel) : InvokesFounded (fuel + 1) := by
  intro f args past m hm hf hargs
  rw [invokeE, Observer.invoke]
  refine (newFrame_founded hm hf).bind fun i past1 m1 h1 hi => ?_
  rw [events.bindParams_unmarked rfl]
  refine (bindParams_founded h1.founded (h1.values hargs)).bind fun _ past2 m2 h2 _ => ?_
  refine (body_founded hx f.decl.body h2.founded (Nat.lt_of_lt_of_le hi h2.grows.frames)).bind
    fun flow past3 m3 h3 hflow => ?_
  cases flow with
  | normal => exact .pure h3.founded trivial
  | returned v => exact .pure h3.founded (hflow v rfl)

/-- **Everything that runs builds on what is there**, with any fuel. -/
theorem runs_founded (fuel : Nat) : EvaluatesFounded fuel ∧ ExecutesFounded fuel ∧ InvokesFounded fuel := by
  induction fuel with
  | zero =>
    refine ⟨fun e past m hm => ?_, fun s past m hm => ?_, fun f args past m hm _ _ => ?_⟩
    · rw [evaluateE, Observer.evaluate]
      exact .outOfFuel hm
    · rw [executeE, Observer.execute]
      exact .outOfFuel hm
    · rw [invokeE, Observer.invoke]
      exact .outOfFuel hm
  | succ fuel ih =>
    obtain ⟨he, hx, hi⟩ := ih
    exact ⟨evaluatesFounded_succ he hi, executesFounded_succ he hx, invokesFounded_succ hx⟩

/-! ### Programs -/

/-- **A run of a program builds on what is there**, up to the statement that fails. -/
theorem runEvents_founded (fuel : Nat) : ∀ (program : Program OccurrenceId) {past : History} {m : Machine},
    m.Founded (classesOf past) → Chronicle FoundedMoment past (runEvents fuel program m) ∧
      BuiltOn past m (past ++ runEvents fuel program m) (runProgram fuel program m).2
  | [], past, m, hm => by
    rw [runEvents, Observer.moments, runProgram, List.append_nil]
    exact ⟨trivial, .refl hm⟩
  | s :: ss, past, m, hm => by
    obtain ⟨htrace, hrun⟩ := (runs_founded fuel).2.1 s past m hm
    rw [runEvents, Observer.moments, runProgram, ← Observer.events.execute_run _ ()]
    rcases he : (executeE fuel s).run m with ⟨flow, m'⟩ | ⟨stop, m'⟩
    · rw [he] at hrun
      obtain ⟨hbuilt, -⟩ := hrun
      obtain ⟨hrest, hlast⟩ := runEvents_founded fuel ss hbuilt.founded
      rw [← List.append_assoc]
      exact ⟨chronicle_append.2 ⟨htrace, hrest⟩, hbuilt.trans hlast⟩
    · rw [he] at hrun
      rw [List.append_nil]
      refine ⟨htrace, ?_⟩
      cases stop <;> exact hrun

end ScriptLang
