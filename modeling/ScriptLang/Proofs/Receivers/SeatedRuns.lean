import ScriptLang.Proofs.Places.Spelled
import ScriptLang.Proofs.Receivers.SeatedSteps

/-!
# Runs that keep code in its place

Frames are made anew for every block, every call and every method that is bound, each inside of the frame in which
its code was declared: so the frames around running code stand for the scopes around its place.

* `StandsAt` — running stands at a place;
* `EvaluatesSeated`, `ExecutesSeated`, `InvokesSeated` — the statement for expressions, statements and calls;
* `runs_seated` — the induction on the fuel that proves all three;
* `runEvents_seated` — whole programs.
-/

namespace ScriptLang

open Eval
open Observer (events)

variable {N : PlacedNodes} {past past' : History} {m m' : Machine} {p q : Place OccurrenceId} {fuel line : Nat}
  {v : Value}

/-- The code of the machine is in its place, and the frames around the current one stand for the scopes around the
given place. -/
structure StandsAt (N : PlacedNodes) (p : Place OccurrenceId) (past : History) (m : Machine) : Prop where
  seated : m.Seated N past
  place : Seated past m.frames p.kinds m.current

namespace StandsAt

lemma follows (h : StandsAt N p past m) (h' : Follows N past m past' m') : StandsAt N p past' m' :=
  ⟨h'.seated, h'.stands h.place⟩

/-- Names do not matter for the frames. -/
lemma congr (h : StandsAt N p past m) (hkinds : q.kinds = p.kinds) : StandsAt N q past m :=
  ⟨h.seated, hkinds ▸ h.place⟩

lemma behind (h : StandsAt N p past m) (names : List String) : StandsAt N (p.behind names) past m :=
  h.congr (Place.kinds_behind p names)

lemma initializing (h : StandsAt N p past m) (name : String) :
    StandsAt N ((p.behind [name]).initializing name) past m := (h.behind [name]).congr rfl

lemma event (h : StandsAt N p past m) (w : Event) : StandsAt N p (past ++ [(w, m)]) m :=
  h.follows (.event h.seated w)

end StandsAt

/-- A value that is returned has its code in its place. -/
def SeatedFlow (N : PlacedNodes) (flow : Flow) (past : History) (m : Machine) : Prop :=
  ∀ v, flow = .returned v → v.Seated N past m.frames

lemma normal_seated : SeatedFlow N .normal past m := by
  rintro v ⟨⟩

lemma returned_seated (hv : v.Seated N past m.frames) : SeatedFlow N (.returned v) past m := by
  rintro w ⟨⟩
  exact hv

/-- With this fuel, expressions are evaluated at their places. -/
def EvaluatesSeated (N : PlacedNodes) (fuel : Nat) : Prop :=
  ∀ (e : Expr OccurrenceId) (p : Place OccurrenceId) (past : History) (m : Machine), nodesAt p e.nodes ⊆ N →
    StandsAt N p past m → StaysSeated N (evaluateE fuel e) past m (SeatedValue N)

/-- With this fuel, statements are executed at their places. -/
def ExecutesSeated (N : PlacedNodes) (fuel : Nat) : Prop :=
  ∀ (s : Stmt OccurrenceId) (p : Place OccurrenceId) (past : History) (m : Machine), s.Regular → s.nodes p ⊆ N →
    StandsAt N p past m → StaysSeated N (executeE fuel s) past m (SeatedFlow N)

/-- With this fuel, functions are called in their places. -/
def InvokesSeated (N : PlacedNodes) (fuel : Nat) : Prop :=
  ∀ (f : Closure) (args : List Value) (past : History) (m : Machine), f.Seated N past m.frames →
    (∀ v ∈ args, v.Seated N past m.frames) → m.Seated N past →
      StaysSeated N (invokeE fuel f args) past m (SeatedValue N)

/-! ### Parts of runs -/

lemma nodesList_subset : ∀ {es : List (Expr OccurrenceId)}, nodesAt p (Expr.nodesList es) ⊆ N →
    ∀ e ∈ es, nodesAt p e.nodes ⊆ N
  | [], _ => List.forall_mem_nil _
  | e :: es, h => by
    rw [Expr.nodesList, nodesAt_append, List.append_subset] at h
    exact List.forall_mem_cons.2 ⟨h.1, nodesList_subset h.2⟩

lemma methodNodes_subset {inSubclass : Bool} : ∀ {ds : List (FunctionDecl (Stmt OccurrenceId))},
    FunctionDecl.RegularList ds → FunctionDecl.methodNodes inSubclass p ds ⊆ N → ∀ d ∈ ds, FunctionDecl.Regular d ∧
      FunctionDecl.nodes .function (p.inside (.receiver d inSubclass) (reservedFor inSubclass)) d ⊆ N
  | [], _, _ => List.forall_mem_nil _
  | _ :: _, ⟨hd, hds⟩, h => by
    rw [FunctionDecl.methodNodes, List.append_subset] at h
    exact List.forall_mem_cons.2 ⟨⟨hd, h.1⟩, methodNodes_subset hds h.2⟩

lemma staticNodes_subset : ∀ {ds : List (FunctionDecl (Stmt OccurrenceId))}, FunctionDecl.RegularList ds →
    FunctionDecl.staticNodes p ds ⊆ N → ∀ d ∈ ds, FunctionDecl.Regular d ∧ FunctionDecl.nodes .static p d ⊆ N
  | [], _, _ => List.forall_mem_nil _
  | _ :: _, ⟨hd, hds⟩, h => by
    rw [FunctionDecl.staticNodes, List.append_subset] at h
    exact List.forall_mem_cons.2 ⟨⟨hd, h.1⟩, staticNodes_subset hds h.2⟩

lemma sequence_seated (hx : ExecutesSeated N fuel) : ∀ (ss : List (Stmt OccurrenceId)) {p : Place OccurrenceId}
    {past : History} {m : Machine}, Stmt.RegularList ss → Stmt.nodesList p ss ⊆ N → StandsAt N p past m →
      StaysSeated N (events.sequence (events.execute fuel) () ss) past m (SeatedFlow N)
  | [], p, past, m, _, _, hm => .pure hm.seated normal_seated
  | s :: ss, p, past, m, ⟨hs, hss⟩, hnodes, hm => by
    rw [Stmt.nodesList, List.append_subset] at hnodes
    rw [Observer.sequence]
    refine (hx s p past m hs hnodes.1 hm).bind fun flow past' m' h hflow => ?_
    cases flow with
    | normal => exact sequence_seated hx ss hss hnodes.2 ((hm.follows h).behind s.scopeNames)
    | returned v => exact .pure h.seated hflow

/-- The statements of a body, in the frame that stands for the scope of the body. -/
lemma body_seated (hx : ExecutesSeated N fuel) {i : FrameId} {ss : List (Stmt OccurrenceId)} (hs : Stmt.RegularList ss)
    (hnodes : Stmt.nodesList p ss ⊆ N) (hm : m.Seated N past) (hp : Seated past m.frames p.kinds i) :
    StaysSeated N (inFrameT i (events.sequence (events.execute fuel) () ss)) past m (SeatedFlow N) := by
  have hstands : StandsAt N p past { m with current := i } := ⟨⟨hm.size, hm.frames, hm.objects⟩, hp⟩
  exact .inFrame (P := fun (flow : Flow) past fs => ∀ v, flow = .returned v → v.Seated N past fs)
    (sequence_seated hx ss hs hnodes hstands)

/-- Every round of a loop is at the place where the loop stands. -/
lemma repeatWhile_seated {test : Recording Value} {body : Recording Flow}
    (htest : ∀ past m, StandsAt N p past m → StaysSeated N test past m (SeatedValue N))
    (hbody : ∀ past m, StandsAt N p past m → StaysSeated N body past m (SeatedFlow N))
    (n : Nat) (hm : StandsAt N p past m) : StaysSeated N (repeatWhileT test body n) past m (SeatedFlow N) := by
  induction n generalizing past m with
  | zero => exact .outOfFuel hm.seated
  | succ n ih =>
    rw [repeatWhileT]
    refine (htest past m hm).bind fun v past1 m1 h1 _ => ?_
    split
    · refine (hbody past1 m1 (hm.follows h1)).bind fun flow past2 m2 h2 hflow => ?_
      cases flow with
      | normal => exact ih (hm.follows (h1.trans h2))
      | returned v => exact .pure h2.seated hflow
    · exact .pure h1.seated normal_seated

section Calls

variable {o : Object} {args : List Value} (hi : InvokesSeated N fuel)

include hi

lemma constructOwn_seated {c : Class} (hm : m.Seated N past) (hc : c.Seated N past m.frames)
    (ho : o.cls.Seated N past m.frames) (hargs : ∀ v ∈ args, v.Seated N past m.frames) :
    StaysSeated N (events.constructOwn (invokeE fuel) o args line c) past m Whatever := by
  unfold Observer.constructOwn
  split
  · exact .pure hm trivial
  · next f hf =>
    have hmethod := (hc c (mem_lineage_self c)).methods _ f hf
    refine (checkArity_seated hm).bind fun _ past1 m1 h1 _ => ?_
    have hmethod1 := hmethod.later (List.Subset.refl _) h1.history h1.frames
    refine (bindMethod_seated h1.seated hmethod1 (h1.cls hc) (h1.cls ho)).bind fun g past2 m2 h2 hg => ?_
    have hevent := Follows.event h2.seated (.constructs g)
    have hcall := hi g args _ m2 (hg.1.later (List.Subset.refl _) hevent.history .refl)
      (((h1.trans h2).trans hevent).values hargs) hevent.seated
    refine (StaysSeated.visit (w := .constructs g) h2.seated trivial hcall).bind fun v past3 m3 h3 _ => ?_
    exact .visit h3.seated trivial (.pure (Follows.event h3.seated _).seated trivial)

lemma construct_seated : ∀ {cs : List Class} {past : History} {m : Machine}, m.Seated N past →
    (∀ c ∈ cs, c.Seated N past m.frames) → o.cls.Seated N past m.frames → (∀ v ∈ args, v.Seated N past m.frames) →
    StaysSeated N (events.construct (invokeE fuel) o args line cs) past m Whatever
  | [], _, _, hm, _, _, _ => .pure hm trivial
  | c :: cs, past, m, hm, hcs, ho, hargs => by
    obtain ⟨hc, hcs⟩ := List.forall_mem_cons.1 hcs
    rw [Observer.construct]
    refine (constructOwn_seated hi hm hc ho hargs).bind fun _ past1 m1 h1 _ => ?_
    exact construct_seated h1.seated (fun c hc => h1.cls (hcs c hc)) (h1.cls ho) (h1.values hargs)

lemma apply_seated {callee : Value} (hm : m.Seated N past) (hcallee : callee.Seated N past m.frames)
    (hargs : ∀ v ∈ args, v.Seated N past m.frames) :
    StaysSeated N (events.apply (invokeE fuel) callee args line) past m (SeatedValue N) := by
  unfold Observer.apply
  cases callee with
  | closure f =>
    refine (checkArity_seated hm).bind fun _ past1 m1 h1 _ => ?_
    have h := h1.trans (Follows.event h1.seated (.calls f))
    have hcall := hi f args _ m1 (h.value (v := .closure f) hcallee) (h.values hargs) h.seated
    refine (StaysSeated.visit (w := .calls f) h1.seated trivial hcall).bind fun v past2 m2 h2 hv => ?_
    have hevent := Follows.event h2.seated (.gives v)
    exact .visit h2.seated trivial (.pure hevent.seated (hevent.value hv))
  | ofClass c =>
    refine (checkArity_seated hm).bind fun _ past1 m1 h1 _ => ?_
    refine (newObject_seated h1.seated).bind fun o past2 m2 h2 ho => ?_
    have hc : c.Seated N past2 m2.frames := (h1.trans h2).cls hcallee
    have ho : o.cls.Seated N past2 m2.frames := ho.symm ▸ hc
    refine (construct_seated hi h2.seated (fun d hd => hc.of_mem (List.mem_reverse.1 hd)) ho
      ((h1.trans h2).values hargs)).bind fun _ past3 m3 h3 _ => ?_
    exact .pure h3.seated (h3.cls ho)
  | _ => exact .fail hm

end Calls

/-! ### The induction -/

lemma evaluatesSeated_succ (hN : ∀ n ∈ N, n.1.Spelled) (he : EvaluatesSeated N fuel) (hi : InvokesSeated N fuel) :
    EvaluatesSeated N (fuel + 1) := by
  intro e p past m hnodes hm
  rw [evaluateE, Observer.evaluate.eq_def]
  refine .visit hm.seated ⟨p, hnodes, hm.place, rfl⟩ ?_
  replace hm := hm.event (.evaluates e)
  cases e with
  | literal value => exact .pure hm.seated (literal_primitive value).seated
  | name kind use => exact lookUpAs_seated hm.seated
  | assign target value =>
    rw [Expr.nodes, nodesAt_append, List.append_subset] at hnodes
    have htarget : target.Plain := hN _ (hnodes.2 (List.mem_singleton.2 rfl))
    refine (he value p _ m hnodes.1 hm).bind fun v past1 m1 h1 hv => ?_
    exact (assign_seated h1.seated htarget hv).bind fun _ past2 m2 h2 _ => .pure h2.seated (h2.value hv)
  | unary op line operand =>
    refine (he operand p _ m hnodes hm).bind fun v past1 m1 h1 _ => ?_
    exact ofTypes_seated h1.seated fun w hw => (unary_primitive hw).seated
  | binary op line left right =>
    rw [Expr.nodes, nodesAt_append, List.append_subset] at hnodes
    refine (he left p _ m hnodes.1 hm).bind fun v past1 m1 h1 _ => ?_
    refine (he right p past1 m1 hnodes.2 (hm.follows h1)).bind fun w past2 m2 h2 _ => ?_
    exact ofTypes_seated h2.seated fun u hu => (binary_primitive hu).seated
  | logical op line left right =>
    rw [Expr.nodes, nodesAt_append, List.append_subset] at hnodes
    refine (he left p _ m hnodes.1 hm).bind fun v past1 m1 h1 hv => ?_
    split
    · exact .pure h1.seated hv
    · exact he right p past1 m1 hnodes.2 (hm.follows h1)
  | group inner => exact he inner p _ m hnodes hm
  | call line callee args =>
    rw [Expr.nodes, nodesAt_append, List.append_subset] at hnodes
    refine (he callee p _ m hnodes.1 hm).bind fun f past1 m1 h1 hf => ?_
    refine (StaysSeated.mapM h1.seated fun e hmem past' m' h => ?_).bind fun vs past2 m2 h2 hvs => ?_
    · exact he e p past' m' (nodesList_subset hnodes.2 e hmem) (hm.follows (h1.trans h))
    · exact apply_seated hi h2.seated (h2.value hf) hvs
  | get object name => exact (he object p _ m hnodes hm).bind fun v past1 m1 h1 hv => property_seated h1.seated hv
  | superGet keyword name => exact superProperty_seated hm.seated
  | set object name value =>
    rw [Expr.nodes, nodesAt_append, List.append_subset] at hnodes
    refine (he object p _ m hnodes.1 hm).bind fun v past1 m1 h1 _ => ?_
    cases v with
    | object o =>
      refine (he value p past1 m1 hnodes.2 (hm.follows h1)).bind fun w past2 m2 h2 hw => ?_
      exact (setProperty_seated h2.seated hw).bind fun _ past3 m3 h3 _ => .pure h3.seated (h3.value hw)
    | _ => exact .fail h1.seated

/-- A declaration that ends with the definition of its name. -/
lemma declares_seated {name : Ident} {constant : Bool} (hm : m.Seated N past) (hname : name.Plain)
    (hv : v.Seated N past m.frames) :
    StaysSeated N (do .lift (define name v constant); return Flow.normal) past m (SeatedFlow N) :=
  (define_seated hm hname hv).bind fun _ _ _ h _ => .pure h.seated normal_seated

lemma executesSeated_succ (he : EvaluatesSeated N fuel) (hx : ExecutesSeated N fuel) :
    ExecutesSeated N (fuel + 1) := by
  intro s p past m hs hnodes hm
  rw [executeE, Observer.execute.eq_def]
  refine .visit hm.seated trivial ?_
  replace hm := hm.event (.executes s)
  cases s with
  | expr e => exact (he e p _ m hnodes hm).bind fun v past1 m1 h1 _ => .pure h1.seated normal_seated
  | print e =>
    refine (he e p _ m hnodes hm).bind fun v past1 m1 h1 _ => ?_
    exact (printLine_seated h1.seated).bind fun _ past2 m2 h2 _ => .pure h2.seated normal_seated
  | letVar name value =>
    cases value with
    | none => exact declares_seated hm.seated hs.1 trivial
    | some value =>
      exact (he value _ _ m hnodes (hm.initializing name.text)).bind fun v past1 m1 h1 hv =>
        declares_seated h1.seated hs.1 hv
  | constVar name value =>
    exact (he value _ _ m hnodes (hm.initializing name.text)).bind fun v past1 m1 h1 hv =>
      declares_seated h1.seated hs.1 hv
  | block body =>
    refine StaysSeated.bind (Q := fun n _ m' => n = m') (.step rfl (.refl hm.seated) rfl) ?_
    rintro _ past1 n h1 rfl
    have hbare : ∀ fs j, ScopeKind.block.Seated past1 fs j := fun _ _ => trivial
    refine (newInner_seated h1.seated (h1.stands hm.place) hbare).bind fun i past2 m2 h2 hi => ?_
    exact body_seated (p := p.inside .block []) hx hs hnodes h2.seated hi
  | ifThen c yes =>
    rw [Stmt.nodes, List.append_subset] at hnodes
    refine (he c p _ m hnodes.1 hm).bind fun v past1 m1 h1 _ => ?_
    split
    · exact hx yes p past1 m1 hs.2.2 hnodes.2 (hm.follows h1)
    · exact .pure h1.seated normal_seated
  | ifElse c yes no =>
    rw [Stmt.nodes, List.append_subset, List.append_subset] at hnodes
    refine (he c p _ m hnodes.1 hm).bind fun v past1 m1 h1 _ => ?_
    split
    · exact hx yes p past1 m1 hs.2.1.2 hnodes.2.1 (hm.follows h1)
    · exact hx no _ past1 m1 hs.2.2.2 hnodes.2.2 ((hm.follows h1).behind yes.scopeNames)
  | «while» c body =>
    rw [Stmt.nodes, List.append_subset] at hnodes
    exact repeatWhile_seated (fun past m hm => he c p past m hnodes.1 hm)
      (fun past m hm => hx body p past m hs.2.2 hnodes.2 hm) fuel hm
  | function decl =>
    have hname : decl.name.Plain := by
      obtain ⟨name, ps, body⟩ := decl
      exact hs.1
    refine (newClosure_seated hm.seated).bind fun f past1 m1 h1 hf => ?_
    obtain ⟨rfl, hframe⟩ := hf
    refine declares_seated h1.seated hname ⟨hs, .function, _, rfl, hnodes, ?_⟩
    rw [hframe]
    exact h1.place (hm.behind [f.decl.name.text]).place
  | «return» line value =>
    cases value with
    | none => exact .visit hm.seated trivial (.pure (Follows.event hm.seated _).seated (returned_seated trivial))
    | some value =>
      have hvalue : nodesAt p value.nodes ⊆ N := List.Subset.trans (List.subset_cons_self ..) hnodes
      refine (he value p _ m hvalue hm).bind fun v past1 m1 h1 hv => ?_
      have hevent := Follows.event h1.seated (.returns v)
      exact .visit h1.seated trivial (.pure hevent.seated (returned_seated (hevent.value hv)))
  | classDecl name parent methods statics =>
    obtain ⟨hname, hmethods, hstatics⟩ := hs
    rw [Stmt.nodes, List.append_subset, List.append_subset] at hnodes
    obtain ⟨hparent, hmethodNodes, hstaticNodes⟩ := hnodes
    refine StaysSeated.bind (Q := Whatever) ?_ fun _ past1 m1 h1 _ => .pure h1.seated normal_seated
    rw [events.declareClass_unmarked rfl]
    refine (superclass_seated hm.seated hparent hm.place).bind fun c past1 m1 h1 hc => ?_
    refine declareBody_seated h1.seated hname ((hm.follows h1).behind [name.text]).place hc.2 ?_
      (staticNodes_subset hstatics hstaticNodes)
    rw [hc.1]
    exact methodNodes_subset hmethods hmethodNodes

lemma invokesSeated_succ (hx : ExecutesSeated N fuel) : InvokesSeated N (fuel + 1) := by
  rintro ⟨stamp, ⟨name, ps, body⟩, frame⟩ args past m ⟨⟨-, hps, hbody⟩, kind, p, hkind, hnodes, hp⟩ hargs hm
  have hbare : ∀ past fs j, kind.Seated past fs j := fun _ _ _ => by
    cases kind with
    | receiver decl inSubclass => cases hkind
    | _ => trivial
  rw [invokeE, Observer.invoke]
  refine (newInner_seated hm hp (hbare past)).bind fun i past1 m1 h1 hi => ?_
  rw [events.bindParams_unmarked rfl]
  refine (bindParams_seated h1.seated hps (h1.values hargs)).bind fun _ past2 m2 h2 _ => ?_
  refine (body_seated (p := p.inside kind (ps.map Ident.text)) hx hbody hnodes h2.seated (h2.place hi)).bind
    fun flow past3 m3 h3 hflow => ?_
  cases flow with
  | normal => exact .pure h3.seated trivial
  | returned v => exact .pure h3.seated (hflow v rfl)

/-- **Everything that runs is in its place**, with any fuel. -/
theorem runs_seated (hN : ∀ n ∈ N, n.1.Spelled) (fuel : Nat) :
    EvaluatesSeated N fuel ∧ ExecutesSeated N fuel ∧ InvokesSeated N fuel := by
  induction fuel with
  | zero =>
    refine ⟨fun e p past m _ hm => ?_, fun s p past m _ _ hm => ?_, fun f args past m _ _ hm => ?_⟩
    · rw [evaluateE, Observer.evaluate]
      exact .outOfFuel hm.seated
    · rw [executeE, Observer.execute]
      exact .outOfFuel hm.seated
    · rw [invokeE, Observer.invoke]
      exact .outOfFuel hm
  | succ fuel ih =>
    obtain ⟨he, hx, hi⟩ := ih
    exact ⟨evaluatesSeated_succ hN he hi, executesSeated_succ he hx, invokesSeated_succ hx⟩

/-! ### Programs -/

/-- **A run of a regular program keeps code in its place**: every expression is evaluated at one of its places, with
the table of the machine. -/
theorem runEvents_seated (hN : ∀ n ∈ N, n.1.Spelled) (fuel : Nat) : ∀ {program : Program OccurrenceId} {past : History}
    {m : Machine}, Stmt.RegularList program → Program.nodes program ⊆ N → StandsAt N .global past m →
      Chronicle (Evaluated N m.locals) past (runEvents fuel program m) ∧
        Follows N past m (past ++ runEvents fuel program m) (runProgram fuel program m).2
  | [], past, m, _, _, hm => by
    rw [runEvents, Observer.moments, runProgram, List.append_nil]
    exact ⟨trivial, .refl hm.seated⟩
  | s :: ss, past, m, ⟨hs, hss⟩, hnodes, hm => by
    rw [Program.nodes, Stmt.nodesList, Place.global_behind, List.append_subset] at hnodes
    obtain ⟨htrace, hrun⟩ := (runs_seated hN fuel).2.1 s .global past m hs hnodes.1 hm
    rw [runEvents, Observer.moments, runProgram, ← Observer.events.execute_run _ ()]
    rcases he : (executeE fuel s).run m with ⟨flow, m'⟩ | ⟨stop, m'⟩
    · rw [he] at hrun
      obtain ⟨hfollows, -⟩ := hrun
      obtain ⟨hrest, hlast⟩ := runEvents_seated hN fuel hss hnodes.2 (hm.follows hfollows)
      rw [hfollows.locals] at hrest
      rw [← List.append_assoc]
      exact ⟨chronicle_append.2 ⟨htrace, hrest⟩, hfollows.trans hlast⟩
    · rw [he] at hrun
      rw [List.append_nil]
      refine ⟨htrace, ?_⟩
      cases stop <;> exact hrun

end ScriptLang
