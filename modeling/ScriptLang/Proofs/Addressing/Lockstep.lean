import ScriptLang.Proofs.Addressing.KnownSteps
import ScriptLang.Proofs.Addressing.Readability

/-!
# Running keeps frames and scopes side by side

Resolving pushes and pops scopes, running makes and leaves frames.  Both walks agree: wherever resolving has
passed a piece of code in some scopes, running that piece in a frame that fits them evaluates every
expression where frames and scopes fit, and a statement that goes on leaves a frame that fits the scopes
behind it.

* `EvaluatesWell`, `ExecutesWell`, `InvokesWell` — the statement for expressions, statements and calls;
* `runs_well` — the induction on the fuel that proves all three.
-/

namespace ScriptLang

open Resolving (exprT exprsT exprOptionT stmtT stmtsT functionT methodsT staticsT inScopeT reservedScope)
open Eval
open Observer (expressions)

variable {C : Moments} {fs : Frames} {m m' : Machine} {scopes : List Scope} {r r' q : Resolver}
  {region : Region} {fuel : Nat}

/-- How a statement leaves a machine: if it goes on, the current frame fits the scopes behind it; a value
that it returns is known. -/
def FlowWell (C : Moments) (scopes : List Scope) : Flow → Machine → Prop
  | .normal, m => Fits m.frames scopes m.current
  | .returned v, m => v.Known C m.frames

/-- With this fuel, resolved expressions are evaluated well. -/
def EvaluatesWell (C : Moments) (fuel : Nat) : Prop :=
  ∀ (e : Expr OccurrenceId) (region : Region) (r r' : Resolver) (m : Machine),
    (exprT region e).Passes C r r' → m.Good C → Fits m.frames r.scopes m.current →
      Keeps C (evaluateT fuel e) m fun v m' => v.Known C m'.frames

/-- With this fuel, resolved statements are executed well. -/
def ExecutesWell (C : Moments) (fuel : Nat) : Prop :=
  ∀ (s : Stmt OccurrenceId) (region : Region) (r r' : Resolver) (m : Machine), s.Regular →
    (stmtT region s).Passes C r r' → m.Good C → Fits m.frames r.scopes m.current →
      Keeps C (executeT fuel s) m (FlowWell C r'.scopes)

/-- With this fuel, known functions are called well. -/
def InvokesWell (C : Moments) (fuel : Nat) : Prop :=
  ∀ (f : Closure) (args : List Value) (m : Machine), f.Known C m.frames →
    (∀ v ∈ args, v.Known C m.frames) → args.length = f.arity → m.Good C →
      Keeps C (invokeT fuel f args) m fun v m' => v.Known C m'.frames

/-! ### What resolving has passed -/

lemma exprsT_mem : ∀ {es : List (Expr OccurrenceId)} {r r' : Resolver}, (exprsT region es).Passes C r r' →
    ∀ e ∈ es, ∃ q q', q.scopes = r.scopes ∧ (exprT region e).Passes C q q'
  | [], _, _, _ => List.forall_mem_nil _
  | e :: es, r, r', h => by
    rw [exprsT, Traced.passes_bind] at h
    obtain ⟨q, he, hes⟩ := h
    refine List.forall_mem_cons.2 ⟨⟨r, q, rfl, he⟩, fun e' he' => ?_⟩
    obtain ⟨p, p', hp, h⟩ := exprsT_mem hes e' he'
    exact ⟨p, p', hp.trans (Resolving.exprT_scopes e he), h⟩

lemma methodsT_resolved {inSubclass : Bool} : ∀ {ds : List (FunctionDecl (Stmt OccurrenceId))}
    {r r' : Resolver}, FunctionDecl.RegularList ds → (methodsT inSubclass ds).Passes C r r' →
    ∀ d ∈ ds, Resolved C d r.scopes
  | [], _, _, _, _ => List.forall_mem_nil _
  | d :: ds, r, r', ⟨hd, hds⟩, h => by
    rw [methodsT, Traced.passes_bind] at h
    obtain ⟨q, h1, h2⟩ := h
    refine List.forall_mem_cons.2 ⟨⟨hd, _, r, q, rfl, h1⟩, ?_⟩
    rw [← Resolving.functionT_scopes d h1]
    exact methodsT_resolved hds h2

lemma staticsT_resolved : ∀ {ds : List (FunctionDecl (Stmt OccurrenceId))} {r r' : Resolver},
    FunctionDecl.RegularList ds → (staticsT ds).Passes C r r' → ∀ d ∈ ds, Resolved C d r.scopes
  | [], _, _, _, _ => List.forall_mem_nil _
  | d :: ds, r, r', ⟨hd, hds⟩, h => by
    rw [staticsT, Traced.passes_bind] at h
    obtain ⟨q, h1, h2⟩ := h
    refine List.forall_mem_cons.2 ⟨⟨hd, _, r, q, rfl, h1⟩, ?_⟩
    rw [← Resolving.functionT_scopes d h1]
    exact staticsT_resolved hds h2

lemma Stmt.Regular.scopesAfter_eq {s : Stmt OccurrenceId} (h : s.Regular)
    (hd : s.isDeclaration = false) : s.scopesAfter scopes = scopes := by
  induction s, scopes using Stmt.scopesAfter.induct with
  | case5 c yes scopes ih => exact ih h.2.2 h.2.1
  | case6 c yes no scopes ih1 ih2 =>
    rw [Stmt.scopesAfter, ih1 h.2.1.2 h.2.1.1]
    rw [ih1 h.2.1.2 h.2.1.1] at ih2
    exact ih2 h.2.2.2 h.2.2.1
  | case7 c body scopes ih => exact ih h.2.2 h.2.1
  | case8 => rw [Stmt.scopesAfter] <;> assumption
  | _ => cases hd

/-! ### Parts of runs -/

lemma inFrameT_keeps {α : Type} {i : FrameId} {body : Marked α} {P : α → Frames → Prop}
    (h : Keeps C body { m with current := i } fun a m' => P a m'.frames) :
    Keeps C (inFrameT i body) m fun a m' => P a m'.frames := by
  obtain ⟨htrace, hrun⟩ := h
  refine ⟨htrace, ?_⟩
  have back : ∀ m', After C { m with current := i } m' → After C m { m' with current := m.current } :=
    fun m' h => ⟨⟨h.good.size, h.good.frames, h.good.objects⟩, h.grows, rfl, h.locals⟩
  show Traced.Ends _ _ (inFrame i body.run m)
  unfold inFrame
  simp only
  rcases hr : body.run { m with current := i } with ⟨a, m'⟩ | ⟨e, m'⟩
  · rw [hr] at hrun
    exact ⟨back m' hrun.1, hrun.2⟩
  · rw [hr] at hrun
    exact back m' hrun

lemma sequence_keeps (hx : ExecutesWell C fuel) : ∀ (ss : List (Stmt OccurrenceId)) {r r' : Resolver}
    {m : Machine}, Stmt.RegularList ss → (stmtsT region ss).Passes C r r' → m.Good C →
      Fits m.frames r.scopes m.current →
      Keeps C (expressions.sequence (expressions.execute fuel) () ss) m (FlowWell C r'.scopes)
  | [], r, r', m, _, h, hm, hf => by
    rw [stmtsT, Traced.passes_pure] at h
    rw [Observer.sequence, h]
    exact .pure hm hf
  | s :: ss, r, r', m, ⟨hs, hss⟩, h, hm, hf => by
    rw [stmtsT, Traced.passes_bind] at h
    obtain ⟨q, h1, h2⟩ := h
    rw [Observer.sequence]
    refine (hx s region r q m hs h1 hm hf).bind fun flow m' h hflow => ?_
    cases flow with
    | normal => exact sequence_keeps hx ss hss h2 h.good hflow
    | returned v => exact .pure h.good hflow

/-- The statements of a body, in a frame that fits the scopes in front of them. -/
lemma body_keeps (hx : ExecutesWell C fuel) {i : FrameId} {ss : List (Stmt OccurrenceId)}
    (hs : Stmt.RegularList ss) (h : (stmtsT region ss).Passes C r r') (hm : m.Good C)
    (hf : Fits m.frames r.scopes i) :
    Keeps C (inFrameT i (expressions.sequence (expressions.execute fuel) () ss)) m
      fun flow m' => ∀ v, flow = .returned v → v.Known C m'.frames := by
  have hm' : Machine.Good C { m with current := i } := ⟨hm.size, hm.frames, hm.objects⟩
  refine inFrameT_keeps (P := fun flow fs => ∀ v, flow = .returned v → v.Known C fs)
    ((sequence_keeps hx ss hs h hm' hf).mono ?_)
  rintro flow m' - hflow v rfl
  exact hflow

lemma repeatWhile_keeps {test : Marked Value} {body : Marked Flow} {P : Value → Machine → Prop} :
    ∀ {n : Nat} {m : Machine}, m.Good C → (∀ m', After C m m' → Keeps C test m' P) →
      (∀ m', After C m m' → Keeps C body m' fun flow m'' => ∀ v, flow = .returned v → v.Known C m''.frames) →
      Keeps C (repeatWhileT test body n) m fun flow m' => ∀ v, flow = .returned v → v.Known C m'.frames := by
  intro n
  induction n with
  | zero => exact fun hm _ _ => .throw hm
  | succ n ih =>
    intro m hm htest hbody
    rw [repeatWhileT]
    refine (htest m (.refl hm)).bind fun v m1 h1 _ => ?_
    split
    · refine (hbody m1 h1).bind fun flow m2 h2 hflow => ?_
      cases flow with
      | normal =>
        exact ih h2.good (fun m' h => htest m' ((h1.trans h2).trans h))
          fun m' h => hbody m' ((h1.trans h2).trans h)
      | returned v => exact .pure h2.good hflow
    · refine .pure h1.good fun v hv => ?_
      cases hv

section Calls

variable {o : Object} {args : List Value} {line : Nat}

lemma constructOwn_keeps (hi : InvokesWell C fuel) {c : Class} (hm : m.Good C) (hc : c.Known C m.frames)
    (ho : o.cls.Known C m.frames) (hargs : ∀ v ∈ args, v.Known C m.frames) :
    Keeps C (expressions.constructOwn (invokeT fuel) o args line c) m fun _ _ => True := by
  unfold Observer.constructOwn
  split
  · exact .pure hm trivial
  · next f hf =>
    have hmethod := (hc c (mem_lineage_self c)).methods _ f hf
    refine (checkArity_keeps hm).bind fun _ m1 h1 harity => ?_
    refine (bindMethod_keeps h1.good (hmethod.grows h1.grows) (hc.grows h1.grows)
      (ho.grows h1.grows)).bind fun g m2 h2 hg => ?_
    refine (hi g args m2 hg.1 (fun v hv => (hargs v hv).grows (h1.trans h2).grows) ?_ h2.good).bind
      fun _ m3 h3 _ => Keeps.pure h3.good trivial
    rw [harity, Closure.arity, Closure.arity, hg.2]

lemma construct_keeps (hi : InvokesWell C fuel) : ∀ {cs : List Class} {m : Machine}, m.Good C →
    (∀ c ∈ cs, c.Known C m.frames) → o.cls.Known C m.frames → (∀ v ∈ args, v.Known C m.frames) →
    Keeps C (expressions.construct (invokeT fuel) o args line cs) m fun _ _ => True
  | [], _, hm, _, _, _ => .pure hm trivial
  | c :: cs, m, hm, hcs, ho, hargs => by
    obtain ⟨hc, hcs⟩ := List.forall_mem_cons.1 hcs
    rw [Observer.construct]
    exact (constructOwn_keeps hi hm hc ho hargs).bind fun _ m1 h1 _ =>
      construct_keeps hi h1.good (fun c hc => (hcs c hc).grows h1.grows) (ho.grows h1.grows)
        fun v hv => (hargs v hv).grows h1.grows

lemma apply_keeps (hi : InvokesWell C fuel) {callee : Value} (hm : m.Good C) (hc : callee.Known C m.frames)
    (hargs : ∀ v ∈ args, v.Known C m.frames) :
    Keeps C (expressions.apply (invokeT fuel) callee args line) m fun v m' => v.Known C m'.frames := by
  unfold Observer.apply
  cases callee with
  | closure f =>
    refine (checkArity_keeps hm).bind fun _ m1 h1 harity => ?_
    exact (hi f args m1 (Closure.Known.grows hc h1.grows) (fun v hv => (hargs v hv).grows h1.grows) harity
      h1.good).bind fun v m2 h2 hv => .pure h2.good hv
  | ofClass c =>
    refine (checkArity_keeps hm).bind fun _ m1 h1 _ => ?_
    refine (newObject_keeps h1.good).bind fun o m2 h2 ho => ?_
    have hc2 : c.Known C m2.frames := Class.Known.grows hc (h1.trans h2).grows
    have ho2 : o.cls.Known C m2.frames := ho.symm ▸ hc2
    refine (construct_keeps hi h2.good (fun d hd => hc2.of_mem (List.mem_reverse.1 hd)) ho2
      fun v hv => (hargs v hv).grows (h1.trans h2).grows).bind fun _ m3 h3 _ => ?_
    exact Keeps.pure h3.good (ho2.grows h3.grows)
  | _ => exact fail_keeps hm

end Calls

/-- What resolving has passed of a class declaration: its methods stand inside of the scope of the reserved names, its
static methods in the scopes around the class, which have its name. -/
lemma classDecl_resolved {name : Ident} {parent : Option (Occurrence OccurrenceId)}
    {methods statics : List (FunctionDecl (Stmt OccurrenceId))}
    (hs : (Stmt.classDecl name parent methods statics).Regular)
    (h : (stmtT region (.classDecl name parent methods statics)).Passes C r r') :
    (∃ q, (Resolving.superclassT region name parent).Passes C r q) ∧ r'.scopes = introduce name.text r.scopes ∧
      (∀ d ∈ methods, Resolved C d (reservedScope parent.isSome :: r'.scopes)) ∧
      ∀ d ∈ statics, Resolved C d r'.scopes := by
  obtain ⟨-, hmethods, hstatics⟩ := hs
  have hscopes : r'.scopes = introduce name.text r.scopes := Resolving.stmtT_scopes _ h
  rw [stmtT, Traced.passes_bind] at h
  obtain ⟨q, h1, h⟩ := h
  obtain ⟨q1, h2, h⟩ := Traced.passes_bind.1 h
  obtain ⟨q2, h3, h⟩ := Traced.passes_bind.1 h
  obtain ⟨q3, h4, h5⟩ := Traced.passes_bind.1 h
  obtain ⟨p, hp, rfl⟩ := Resolving.inScopeT_passes.1 h4
  obtain ⟨p1, hres, hms⟩ := Traced.passes_bind.1 hp
  have hq2 : q2.scopes = r'.scopes := by
    rw [(Resolving.define_rescopes (Traced.passes_lift.1 h3)).1,
      (Resolving.declare_rescopes (Traced.passes_lift.1 h2)).1, Resolving.superclassT_scopes h1, hscopes]
    rfl
  have hp1 := (Resolving.reservedNames_rescopes rfl (Traced.passes_lift.1 hres)).1
  have hmethods := methodsT_resolved hmethods hms
  rw [hp1, hq2] at hmethods
  have hstatics := staticsT_resolved hstatics h5
  have hp3 : p.scopes.tail = r'.scopes := by
    rw [Resolving.methodsT_scopes methods hms, hp1, List.tail_cons, hq2]
  rw [hp3] at hstatics
  exact ⟨⟨q, h1⟩, hscopes, hmethods, hstatics⟩

/-- Declaring a class: its methods are known inside the scope of the reserved names, its static methods in
the scopes around the class. -/
lemma declareClass_keeps {name : Ident} {parent : Option (Occurrence OccurrenceId)}
    {methods statics : List (FunctionDecl (Stmt OccurrenceId))}
    (hs : (Stmt.classDecl name parent methods statics).Regular)
    (h : (stmtT region (.classDecl name parent methods statics)).Passes C r r') (hm : m.Good C)
    (hf : Fits m.frames r.scopes m.current) :
    Keeps C (expressions.declareClass () name parent methods statics) m
      fun _ m' => Fits m'.frames r'.scopes m'.current := by
  obtain ⟨⟨q, h1⟩, hscopes, hmethods, hstatics⟩ := classDecl_resolved hs h
  unfold Observer.declareClass
  have hparent : Keeps C (expressions.superclass name parent) m
      fun c m' => c.isSome = parent.isSome ∧ ∀ d ∈ c, d.Known C m'.frames := by
    cases parent with
    | none => exact .pure hm ⟨rfl, nofun⟩
    | some use =>
      obtain ⟨p, hw, hr⟩ := Traced.passes_bind.1 h1
      obtain ⟨hC, -⟩ := Traced.passes_visit.1 hr
      have hpr := (Resolving.warnIf_rescopes (Traced.passes_lift.1 hw)).1
      exact .visit ⟨p, hC, hpr.symm ▸ hf⟩ (superclass_keeps hm)
  refine hparent.bind fun c m1 k1 hc => ?_
  refine (define_keeps (v := .null) k1.good ((k1.fits hf).lt_current k1.good)
    fun _ _ _ => trivial).bind fun _ m2 k2 hbinds => ?_
  have hfits2 : Fits m2.frames r'.scopes m2.current := by
    rw [hscopes]
    exact ((k1.trans k2).fits hf).introduce hbinds
  unfold finishClass
  rw [Traced.lift_bind]
  refine (newStamp_keeps k2.good).bind fun stamp m3 k3 _ => ?_
  rw [Traced.lift_bind]
  refine (newClosures_keeps k3.good).bind fun ms m4 k4 hms => ?_
  rw [Traced.lift_bind]
  refine (newClosures_keeps k4.good).bind fun ss m5 k5 hss => ?_
  have hfits3 := k3.fits hfits2
  have hfits4 := k4.fits hfits3
  have hknown : (Class.extending c ⟨stamp, name.text, ms, ss⟩).Known C m5.frames := by
    refine Class.Known.extending
      (fun d hd => (hc.2 d hd).grows (k2.trans (k3.trans (k4.trans k5))).grows)
      ⟨fun text f hf => ?_, fun text f hf => ?_⟩
    · obtain ⟨hd, -, hframe⟩ := hms text f hf
      rw [hc.1]
      exact ⟨_, hmethods _ hd, hframe ▸ hfits3.grows (k4.trans k5).grows⟩
    · obtain ⟨hd, -, hframe⟩ := hss text f hf
      exact ⟨_, hstatics _ hd, hframe ▸ hfits4.grows k5.grows⟩
  have hassign : Keeps C (.lift (change name.line (Frames.assignAt m5.current 0 name.text
      (.ofClass (.extending c ⟨stamp, name.text, ms, ss⟩))))) m5 fun _ m' =>
        Grows m5.frames m'.frames ∧ m'.current = m5.current := by
    refine change_keeps k5.good (fun fs' h => ?_) fun e fs' h => update_error h
    obtain ⟨j, hput⟩ := assignAt_putAt h
    exact ⟨⟨j, _, hput, Class.Known.grows hknown hput.grows⟩, hput.grows, rfl⟩
  refine Keeps.mono (Q := fun _ m' => Grows m5.frames m'.frames ∧ m'.current = m5.current) hassign ?_
  rintro _ m6 k6 -
  exact (k5.trans k6).fits hfits4

/-! ### The induction -/

lemma evaluatesWell_succ (he : EvaluatesWell C fuel) (hi : InvokesWell C fuel) :
    EvaluatesWell C (fuel + 1) := by
  intro e region r r' m h hm hf
  rw [exprT.eq_def] at h
  obtain ⟨hC, h⟩ := Traced.passes_visit.1 h
  rw [evaluateT, Observer.evaluate.eq_def]
  refine .visit ⟨r, hC, hf⟩ ?_
  cases e with
  | literal value => exact .pure hm (literal_primitive value).known
  | name kind use => exact lookUp_keeps hm
  | superGet keyword property => exact superProperty_keeps hm
  | assign target value =>
    obtain ⟨q, hv, -⟩ := Traced.passes_bind.1 h
    refine (he value region r q m hv hm hf).bind fun v m1 h1 hv => ?_
    exact (assign_keeps h1.good hv).bind fun _ m2 h2 _ => Keeps.pure h2.good (hv.grows h2.grows)
  | unary op line operand =>
    refine (he operand region r r' m h hm hf).bind fun v m1 h1 _ => ?_
    exact ofTypes_keeps h1.good fun w hw => (unary_primitive hw).known
  | binary op line left right =>
    obtain ⟨q, hl, hr⟩ := Traced.passes_bind.1 h
    refine (he left region r q m hl hm hf).bind fun v m1 h1 _ => ?_
    have hf1 := h1.fits hf
    rw [← Resolving.exprT_scopes left hl] at hf1
    refine (he right region q r' m1 hr h1.good hf1).bind fun w m2 h2 _ => ?_
    exact ofTypes_keeps h2.good fun u hu => (binary_primitive hu).known
  | logical op line left right =>
    obtain ⟨q, hl, hr⟩ := Traced.passes_bind.1 h
    refine (he left region r q m hl hm hf).bind fun v m1 h1 hv => ?_
    have hf1 := h1.fits hf
    rw [← Resolving.exprT_scopes left hl] at hf1
    split
    · exact .pure h1.good hv
    · exact he right region q r' m1 hr h1.good hf1
  | group inner => exact he inner region r r' m h hm hf
  | call line callee args =>
    obtain ⟨q, hc, hargs⟩ := Traced.passes_bind.1 h
    refine (he callee region r q m hc hm hf).bind fun f m1 h1 hv => ?_
    have hf1 := h1.fits hf
    rw [← Resolving.exprT_scopes callee hc] at hf1
    refine (mapM_keeps (P := fun v fs => v.Known C fs) (fun _ _ _ hg h => h.grows hg) h1.good
      fun e hmem m' h' => ?_).bind fun vs m2 h2 hvs => ?_
    · obtain ⟨p, p', hp, hpass⟩ := exprsT_mem hargs e hmem
      exact he e region p p' m' hpass h'.good (hp.symm ▸ h'.fits hf1)
    · exact apply_keeps hi h2.good (hv.grows h2.grows) hvs.2
  | get object property =>
    refine (he object region r r' m h hm hf).bind fun v m1 h1 hv => ?_
    exact property_keeps h1.good hv
  | set object property value =>
    obtain ⟨q, ho, hv⟩ := Traced.passes_bind.1 h
    refine (he object region r q m ho hm hf).bind fun v m1 h1 _ => ?_
    have hf1 := h1.fits hf
    rw [← Resolving.exprT_scopes object ho] at hf1
    cases v with
    | object o =>
      refine (he value region q r' m1 hv h1.good hf1).bind fun w m2 h2 hw => ?_
      exact (setProperty_keeps h2.good hw).bind fun _ m3 h3 _ => Keeps.pure h3.good (hw.grows h3.grows)
    | _ => exact fail_keeps h1.good

lemma FlowWell.of_returned {flow : Flow} (h : ∀ v, flow = .returned v → v.Known C m.frames)
    (hf : Fits m.frames scopes m.current) : FlowWell C scopes flow m := by
  cases flow with
  | normal => exact hf
  | returned v => exact h v rfl

/-- A branch or a loop body, which leaves the scopes as they are. -/
lemma ExecutesWell.branch (hx : ExecutesWell C fuel) {s : Stmt OccurrenceId}
    (hs : s.isDeclaration = false ∧ s.Regular) (h : (stmtT region s).Passes C q r') (hm : m.Good C)
    (hf : Fits m.frames q.scopes m.current) :
    r'.scopes = q.scopes ∧ Keeps C (executeT fuel s) m (FlowWell C q.scopes) := by
  have hscopes : r'.scopes = q.scopes := by
    rw [Resolving.stmtT_scopes s h, hs.2.scopesAfter_eq hs.1]
  refine ⟨hscopes, ?_⟩
  have hkeeps := hx s region q r' m hs.2 h hm hf
  rwa [hscopes] at hkeeps

/-- A name is declared while its value is computed, and bound behind it. -/
lemma EvaluatesWell.defines (he : EvaluatesWell C fuel) {name : Ident} {value : Expr OccurrenceId} {constant : Bool}
    (hd : Resolving.declare name r = .ok () q) (h : (exprT region value).Passes C q r') (hm : m.Good C)
    (hf : Fits m.frames r.scopes m.current) :
    Keeps C (do let v ← evaluateT fuel value; .lift (define name v constant); return .normal) m
      (FlowWell C (introduce name.text r.scopes)) := by
  -- while the initializer is evaluated, the name is declared and need not be bound
  have hfq : Fits m.frames q.scopes m.current := by
    rw [(Resolving.declare_rescopes hd).1]
    exact hf.declared
  refine (he value region q r' m h hm hfq).bind fun v m1 h1 hv => ?_
  exact (define_keeps h1.good ((h1.fits hf).lt_current h1.good) fun _ hg _ => hv.grows hg).bind
    fun _ m2 h2 hb => Keeps.pure h2.good (((h1.trans h2).fits hf).introduce hb)

/-- The statements of a block are executed in a frame of their own, and the current frame is left as it was. -/
lemma ExecutesWell.block (hx : ExecutesWell C fuel) {body : List (Stmt OccurrenceId)} (hs : Stmt.RegularList body)
    (h : (inScopeT (stmtsT region body)).Passes C r r') (hm : m.Good C) (hf : Fits m.frames r.scopes m.current) :
    Keeps C (do
      let m ← .lift get
      let frame ← .lift (newFrame (.empty (some m.current)))
      inFrameT frame (expressions.sequence (expressions.execute fuel) () body)) m (FlowWell C r.scopes) := by
  obtain ⟨q, hb, -⟩ := Resolving.inScopeT_passes.1 h
  have hget : Keeps C (.lift get) m fun a _ => a = m := .const hm ⟨rfl, rfl⟩
  refine hget.bind fun m0 m1 h1 hm0 => ?_
  subst hm0
  refine (newInner_keeps h1.good (hf.grows h1.grows)).bind fun i m2 h2 hi => ?_
  refine (body_keeps hx hs hb h2.good hi).mono fun flow m3 h3 hflow => ?_
  exact .of_returned hflow (((h1.trans h2).trans h3).fits hf)

/-- A function is known as soon as the frame that it remembers binds its own name. -/
lemma declareFunction_keeps {decl : FunctionDecl (Stmt OccurrenceId)} (hs : (Stmt.function decl).Regular)
    (h : (functionT region decl).Passes C q r') (hq : q.scopes = introduce decl.name.text r.scopes) (hm : m.Good C)
    (hf : Fits m.frames r.scopes m.current) :
    Keeps C (do let f ← .lift (newClosure decl); .lift (define decl.name (.closure f) false); return .normal) m
      (FlowWell C (introduce decl.name.text r.scopes)) := by
  refine (newClosure_keeps hm).bind fun f m1 k1 hfun => ?_
  have hf1 := k1.fits hf
  refine (define_keeps k1.good (hf1.lt_current k1.good) fun fs' hg hb => ?_).bind
    fun _ m2 k2 hb => Keeps.pure k2.good (((k1.trans k2).fits hf).introduce hb)
  refine ⟨introduce decl.name.text r.scopes, ⟨hfun.1 ▸ hs, _, q, r', hq, hfun.1.symm ▸ h⟩, ?_⟩
  rw [hfun.2, ← k1.current]
  exact (hf1.grows hg).introduce hb

lemma executesWell_succ (he : EvaluatesWell C fuel) (hx : ExecutesWell C fuel) :
    ExecutesWell C (fuel + 1) := by
  intro s region r r' m hs h hm hf
  have hscopes := Resolving.stmtT_scopes s h
  rw [executeT, Observer.execute.eq_def]
  cases s with
  | expr e =>
    rw [stmtT] at h
    refine (he e region r r' m h hm hf).bind fun v m1 h1 _ => Keeps.pure h1.good ?_
    rw [hscopes]
    exact h1.fits hf
  | print e =>
    rw [stmtT] at h
    refine (he e region r r' m h hm hf).bind fun v m1 h1 _ => ?_
    refine (printLine_keeps h1.good).bind fun _ m2 h2 _ => Keeps.pure h2.good ?_
    rw [hscopes]
    exact (h1.trans h2).fits hf
  | letVar name value =>
    rw [stmtT, Traced.passes_bind] at h
    obtain ⟨q, hd, h⟩ := h
    obtain ⟨q', hv, -⟩ := Traced.passes_bind.1 h
    rw [hscopes]
    cases value with
    | none =>
      refine (define_keeps (v := .null) hm (hf.lt_current hm) fun _ _ _ => trivial).bind
        fun _ m1 h1 hb => Keeps.pure h1.good ((h1.fits hf).introduce hb)
    | some value => exact he.defines (Traced.passes_lift.1 hd) hv hm hf
  | constVar name value =>
    rw [stmtT, Traced.passes_bind] at h
    obtain ⟨q, hd, h⟩ := h
    obtain ⟨q', hv, -⟩ := Traced.passes_bind.1 h
    rw [hscopes]
    exact he.defines (Traced.passes_lift.1 hd) hv hm hf
  | block body =>
    rw [stmtT] at h
    rw [hscopes]
    exact hx.block hs h hm hf
  | ifThen c yes =>
    rw [stmtT, Traced.passes_bind] at h
    obtain ⟨q, hc, hy⟩ := h
    refine (he c region r q m hc hm hf).bind fun v m1 h1 _ => ?_
    have hf1 := h1.fits hf
    rw [← Resolving.exprT_scopes c hc] at hf1
    obtain ⟨hr', hkeeps⟩ := hx.branch hs.2 hy h1.good hf1
    rw [hr']
    split
    · exact hkeeps
    · exact .pure h1.good hf1
  | ifElse c yes no =>
    rw [stmtT, Traced.passes_bind] at h
    obtain ⟨q, hc, h⟩ := h
    obtain ⟨q', hy, hn⟩ := Traced.passes_bind.1 h
    refine (he c region r q m hc hm hf).bind fun v m1 h1 _ => ?_
    have hf1 := h1.fits hf
    rw [← Resolving.exprT_scopes c hc] at hf1
    obtain ⟨hq', hkeeps⟩ := hx.branch hs.2.1 hy h1.good hf1
    have hf1' := hf1
    rw [← hq'] at hf1' hkeeps
    obtain ⟨hr', hkeeps'⟩ := hx.branch hs.2.2 hn h1.good hf1'
    rw [hr']
    split
    · exact hkeeps
    · exact hkeeps'
  | «while» c body =>
    rw [stmtT, Traced.passes_bind] at h
    obtain ⟨q, hc, hb⟩ := h
    have hq := Resolving.exprT_scopes c hc
    have hr' : r'.scopes = r.scopes := by
      rw [hscopes]
      exact hs.2.2.scopesAfter_eq hs.2.1
    rw [hr']
    refine (repeatWhile_keeps (P := fun v m' => v.Known C m'.frames) hm
      (fun m1 h1 => he c region r q m1 hc h1.good (h1.fits hf)) fun m1 h1 => ?_).mono
        fun flow m1 h1 hflow => .of_returned hflow (h1.fits hf)
    have hf1 := h1.fits hf
    rw [← hq] at hf1
    refine (hx.branch hs.2 hb h1.good hf1).2.mono fun flow m2 h2 hflow v hv => ?_
    subst hv
    exact hflow
  | function decl =>
    rw [stmtT, Traced.passes_bind] at h
    obtain ⟨q, h1, h⟩ := h
    obtain ⟨q', h2, h3⟩ := Traced.passes_bind.1 h
    have hq' : q'.scopes = introduce decl.name.text r.scopes := by
      rw [(Resolving.define_rescopes (Traced.passes_lift.1 h2)).1,
        (Resolving.declare_rescopes (Traced.passes_lift.1 h1)).1]
      rfl
    rw [hscopes]
    exact declareFunction_keeps hs h3 hq' hm hf
  | «return» line value =>
    rw [stmtT] at h
    split at h
    · cases h.1
    · cases value with
      | none => exact .pure hm trivial
      | some value =>
        exact (he value region r r' m h hm hf).bind fun v m1 h1 hv => Keeps.pure h1.good hv
  | classDecl name parent methods statics =>
    exact (declareClass_keeps hs h hm hf).bind fun _ m1 h1 hf1 => Keeps.pure h1.good hf1

lemma invokesWell_succ (hx : ExecutesWell C fuel) : InvokesWell C (fuel + 1) := by
  intro f args m hfun hargs harity hm
  obtain ⟨scopes, ⟨hreg, region, r, r', rfl, hpass⟩, hf⟩ := hfun
  obtain ⟨stamp, ⟨name, ps, body⟩, frame⟩ := f
  obtain ⟨-, -, hbody⟩ := hreg
  rw [functionT] at hpass
  obtain ⟨q, hq, -⟩ := Resolving.inScopeT_passes.1 hpass
  obtain ⟨q1, hps, hss⟩ := Traced.passes_bind.1 hq
  have hq1 := (Resolving.params_rescopes (Traced.passes_lift.1 hps)).1
  rw [invokeT, Observer.invoke]
  refine (newInner_keeps hm hf).bind fun i m1 h1 hi => ?_
  refine (bindParams_keeps h1.good (hi.lt_size h1.good.size) harity.symm
    (fun v hv => (hargs v hv).grows h1.grows) hi).bind fun _ m2 h2 hi2 => ?_
  refine (body_keeps hx hbody hss h2.good (hq1.symm ▸ hi2)).bind fun flow m3 h3 hflow => ?_
  cases flow with
  | normal => exact .pure h3.good trivial
  | returned v => exact .pure h3.good (hflow v rfl)

/-- **Frames and scopes stay side by side**, with any fuel, in expressions, statements and calls. -/
theorem runs_well (C : Moments) (fuel : Nat) :
    EvaluatesWell C fuel ∧ ExecutesWell C fuel ∧ InvokesWell C fuel := by
  induction fuel with
  | zero =>
    refine ⟨fun e region r r' m _ hm _ => ?_, fun s region r r' m _ _ hm _ => ?_,
      fun f args m _ _ _ hm => ?_⟩
    · rw [evaluateT, Observer.evaluate]
      exact .throw hm
    · rw [executeT, Observer.execute]
      exact .throw hm
    · rw [invokeT, Observer.invoke]
      exact .throw hm
  | succ fuel ih =>
    obtain ⟨he, hx, hi⟩ := ih
    exact ⟨evaluatesWell_succ he hi, executesWell_succ he hx, invokesWell_succ hx⟩

end ScriptLang
