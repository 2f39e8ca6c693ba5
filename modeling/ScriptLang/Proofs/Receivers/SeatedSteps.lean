import ScriptLang.Proofs.Events.Histories
import ScriptLang.Proofs.Receivers.Seats

/-!
# Steps that keep code in its place

What the single steps of running do to a machine whose code is in its place: it stays there, and what the frames have
under the reserved names is kept, because assignments and declarations are to other names.

* `Follows` — a later point of the same run;
* `StaysSeated` — a computation after which the machine still has its code in its place, and which evaluates every
  expression where the frames stand for the scopes around it;
* `bindMethod_seated` — a bound method stands in the frame that the binding has made;
* `define_seated`, `assign_seated`, `declareBody_seated`, … — the other steps.
-/

namespace ScriptLang

open Frames Eval
open Observer (events)

variable {N : PlacedNodes} {past past' past'' : History} {fs fs' : Frames} {i : FrameId} {m m' m'' : Machine}
  {c owner : Class} {f : Closure} {o : Object} {v : Value} {name : Ident} {line : Nat} {text : String}
  {kinds : List (ScopeKind OccurrenceId)} {p : Place OccurrenceId} {α β : Type}

/-! ### Later points of a run -/

/-- The machine `m'` with its history comes after `m`: its code is in its place, reserved names have kept their values,
and what is current and where names are found is as before. -/
structure Follows (N : PlacedNodes) (past : History) (m : Machine) (past' : History) (m' : Machine) : Prop where
  seated : m'.Seated N past'
  history : past ⊆ past'
  frames : Retains m.frames m'.frames
  current : m'.current = m.current
  locals : m'.locals = m.locals

namespace Follows

lemma refl (hm : m.Seated N past) : Follows N past m past m := ⟨hm, List.Subset.refl _, .refl, rfl, rfl⟩

lemma trans (h : Follows N past m past' m') (h' : Follows N past' m' past'' m'') : Follows N past m past'' m'' :=
  ⟨h'.seated, List.Subset.trans h.history h'.history, h.frames.trans h'.frames, h'.current.trans h.current,
    h'.locals.trans h.locals⟩

/-- The same machine behind one more event. -/
lemma event (hm : m.Seated N past) (w : Event) : Follows N past m (past ++ [(w, m)]) m :=
  ⟨hm.later (List.Subset.refl _) (List.subset_append_left ..), List.subset_append_left .., .refl, rfl, rfl⟩

lemma value (h : Follows N past m past' m') (hv : v.Seated N past m.frames) : v.Seated N past' m'.frames :=
  hv.later (List.Subset.refl _) h.history h.frames

lemma values {vs : List Value} (h : Follows N past m past' m') (hvs : ∀ v ∈ vs, v.Seated N past m.frames) :
    ∀ v ∈ vs, v.Seated N past' m'.frames := fun v hv => h.value (hvs v hv)

lemma cls (h : Follows N past m past' m') (hc : c.Seated N past m.frames) : c.Seated N past' m'.frames :=
  hc.later (List.Subset.refl _) h.history h.frames

lemma place (h : Follows N past m past' m') (hp : Seated past m.frames kinds i) : Seated past' m'.frames kinds i :=
  hp.later h.history h.frames

/-- Where running stands, it still stands later. -/
lemma stands (h : Follows N past m past' m') (hp : Seated past m.frames kinds m.current) :
    Seated past' m'.frames kinds m'.current := by
  rw [h.current]
  exact h.place hp

end Follows

/-! ### Computations -/

/-- If an expression begins, it is at one of its places, for which the frames stand, and the table is the given
one. -/
def Evaluated (N : PlacedNodes) (locals : Locals) (past : History) : Event → Machine → Prop
  | .evaluates e, m => ∃ p : Place OccurrenceId,
      nodesAt p e.nodes ⊆ N ∧ Seated past m.frames p.kinds m.current ∧ m.locals = locals
  | _, _ => True

/-- Every expression is evaluated at one of its places.  Whatever comes of the computation, the code of the machine
stays in its place; a result comes with `Q`. -/
def StaysSeated (N : PlacedNodes) (t : Recording α) (past : History) (m : Machine)
    (Q : α → History → Machine → Prop) : Prop :=
  t.Tells (fun past w m' => Evaluated N m.locals past w m') (fun a past' m' => Follows N past m past' m' ∧ Q a past' m')
    (Follows N past m) past m

/-- The code of a value is in its place. -/
abbrev SeatedValue (N : PlacedNodes) (v : Value) (past : History) (m : Machine) : Prop := v.Seated N past m.frames

/-- Nothing is said of the result. -/
abbrev Whatever (_ : α) (_ : History) (_ : Machine) : Prop := True

namespace StaysSeated

variable {t : Recording α} {g : α → Recording β} {x : Eval α} {a : α} {Q Q' : α → History → Machine → Prop}
  {R : β → History → Machine → Prop}

lemma step (h : x m = .ok a m') (hm : Follows N past m past m') (hq : Q a past m') :
    StaysSeated N (.lift x) past m Q := by
  refine Traced.Tells.lift ?_
  rw [h]
  exact ⟨hm, hq⟩

lemma stop {stop : Stop} (h : x m = .error stop m') (hm : Follows N past m past m') :
    StaysSeated N (.lift x) past m Q := by
  refine Traced.Tells.lift ?_
  rw [h]
  exact hm

lemma pure (hm : m.Seated N past) (hq : Q a past m) : StaysSeated N (Pure.pure a) past m Q :=
  step (x := Pure.pure a) rfl (.refl hm) hq

lemma fail {e : RuntimeError} (hm : m.Seated N past) : StaysSeated N (.lift (Eval.fail e : Eval α)) past m Q :=
  stop rfl (.refl hm)

lemma outOfFuel (hm : m.Seated N past) : StaysSeated N (.lift (throw .outOfFuel : Eval α)) past m Q :=
  stop rfl (.refl hm)

/-- A step that depends on the machine. -/
lemma get_bind {g : Machine → Eval α} (h : StaysSeated N (.lift (g m)) past m Q) :
    StaysSeated N (.lift (get >>= g)) past m Q := h

/-- The event of a computation that begins. -/
lemma visit {w : Event} (hm : m.Seated N past) (hw : Evaluated N m.locals past w m)
    (h : StaysSeated N t (past ++ [(w, m)]) m Q) : StaysSeated N (.visit w t) past m Q := by
  have hevent := Follows.event hm w
  exact Traced.Tells.visit hw
    (Traced.Tells.mono h (fun _ _ _ h => h) (fun _ _ _ h => ⟨hevent.trans h.1, h.2⟩) fun _ _ h => hevent.trans h)

lemma bind (h : StaysSeated N t past m Q)
    (hg : ∀ a past' m', Follows N past m past' m' → Q a past' m' → StaysSeated N (g a) past' m' R) :
    StaysSeated N (t >>= g) past m R := by
  refine Traced.Tells.bind h fun a past' m' hq => ?_
  refine Traced.Tells.mono (hg a past' m' hq.1 hq.2) (fun _ w _ hw => ?_) (fun _ _ _ h => ⟨hq.1.trans h.1, h.2⟩)
    fun _ _ h => hq.1.trans h
  rw [← hq.1.locals]
  exact hw

/-- Computations of values, one after another. -/
lemma mapM {g : β → Recording Value} {l : List β} (hm : m.Seated N past)
    (hg : ∀ b ∈ l, ∀ past' m', Follows N past m past' m' → StaysSeated N (g b) past' m' (SeatedValue N)) :
    StaysSeated N (l.mapM g) past m fun vs past' m' => ∀ v ∈ vs, v.Seated N past' m'.frames := by
  have loop : ∀ (l : List β) (acc : List Value) (past : History) (m : Machine), m.Seated N past →
      (∀ v ∈ acc, v.Seated N past m.frames) →
      (∀ b ∈ l, ∀ past' m', Follows N past m past' m' → StaysSeated N (g b) past' m' (SeatedValue N)) →
        StaysSeated N (List.mapM.loop g l acc) past m fun vs past' m' => ∀ v ∈ vs, v.Seated N past' m'.frames := by
    intro l
    induction l with
    | nil => exact fun acc past m hm hacc _ => pure hm fun v hv => hacc v (List.mem_reverse.1 hv)
    | cons b l ih =>
      intro acc past m hm hacc hg
      rw [List.mapM.loop]
      refine (hg b List.mem_cons_self past m (.refl hm)).bind fun v past' m' h hv => ?_
      refine ih (v :: acc) past' m' h.seated (List.forall_mem_cons.2 ⟨hv, h.values hacc⟩) fun b hb past'' m'' h' => ?_
      exact hg b (List.mem_cons_of_mem _ hb) past'' m'' (h.trans h')
  exact loop l [] past m hm (List.forall_mem_nil _) hg

/-- A computation in another frame, which is no longer current behind it. -/
lemma inFrame {P : α → History → Frames → Prop}
    (h : StaysSeated N t past { m with current := i } fun a past' m' => P a past' m'.frames) :
    StaysSeated N (inFrameT i t) past m fun a past' m' => P a past' m'.frames := by
  obtain ⟨htrace, hrun⟩ := h
  refine ⟨htrace, ?_⟩
  have back : ∀ {past' m'}, Follows N past { m with current := i } past' m' →
      Follows N past m past' { m' with current := m.current } := fun h =>
    ⟨⟨h.seated.size, h.seated.frames, h.seated.objects⟩, h.history, h.frames, rfl, h.locals⟩
  show Traced.Ends _ _ (Eval.inFrame i t.run m)
  unfold Eval.inFrame
  simp only
  rcases hr : t.run { m with current := i } with ⟨a, m'⟩ | ⟨e, m'⟩
  · rw [hr] at hrun
    exact ⟨back hrun.1, hrun.2⟩
  · rw [hr] at hrun
    exact back hrun

end StaysSeated

/-! ### Changes of frames -/

lemma change_seated {op : Frames.Change Unit} (hm : m.Seated N past) (hv : v.Seated N past m.frames)
    (hok : ∀ fs', op m.frames = .ok () fs' → PutsPlainly v m.frames fs')
    (herr : ∀ e fs', op m.frames = .error e fs' → fs' = m.frames) :
    StaysSeated N (.lift (change line op)) past m Whatever := by
  rcases hop : op m.frames with ⟨⟨⟩, fs'⟩ | ⟨e, fs'⟩
  · have hput := hok fs' hop
    have hrun : change line op m = .ok () { m with frames := fs' } := change_of_ok op hop
    exact .step hrun ⟨hm.change hput hv, List.Subset.refl _, hput.retains, rfl, rfl⟩ trivial
  · obtain rfl := herr e fs' hop
    have hrun : change line op m = .error (.error (e.atLine line)) m := change_of_error op hop
    exact .stop hrun (.refl hm)

lemma defineIn_seated (hm : m.Seated N past) (hname : name.Plain) (hv : v.Seated N past m.frames) (i : FrameId)
    (constant : Bool) : StaysSeated N (.lift (change line (Frames.define i name.text v constant))) past m Whatever :=
  change_seated hm hv (fun _ h => define_putsPlainly hname.not_reserved h) fun _ _ h => update_error h

lemma define_seated {constant : Bool} (hm : m.Seated N past) (hname : name.Plain) (hv : v.Seated N past m.frames) :
    StaysSeated N (.lift (define name v constant)) past m Whatever :=
  .get_bind (g := fun n => change name.line (Frames.define n.current name.text v constant))
    (defineIn_seated hm hname hv m.current constant)

lemma assign_seated {use : Occurrence OccurrenceId} (hm : m.Seated N past) (huse : use.Plain)
    (hv : v.Seated N past m.frames) : StaysSeated N (.lift (Eval.assign use v)) past m Whatever := by
  unfold Eval.assign
  refine .get_bind ?_
  simp only
  split
  · exact change_seated hm hv (fun _ h => update_assign_putsPlainly huse.not_reserved h) fun _ _ h => update_error h
  · exact change_seated hm hv (fun _ h => assign_putsPlainly huse.not_reserved h) fun _ _ h => assign_error h

lemma bindParams_seated : ∀ {ps : List Ident} {vs : List Value} {past : History} {m : Machine}, m.Seated N past →
    (∀ p ∈ ps, p.Plain) → (∀ v ∈ vs, v.Seated N past m.frames) →
    StaysSeated N (.lift (bindParams i ps vs)) past m Whatever
  | [], vs, past, m, hm, _, _ => by
    rw [bindParams]
    · exact .pure hm trivial
    · simp
  | p :: ps, [], past, m, hm, _, _ => by
    rw [bindParams]
    · exact .pure hm trivial
    · simp
  | p :: ps, v :: vs, past, m, hm, hps, hvs => by
    obtain ⟨hp, hps⟩ := List.forall_mem_cons.1 hps
    obtain ⟨hv, hvs⟩ := List.forall_mem_cons.1 hvs
    rw [bindParams, Traced.lift_bind]
    exact (defineIn_seated hm hp hv i false).bind fun _ past' m' h _ => bindParams_seated h.seated hps (h.values hvs)

/-- A new frame, which stands for a scope of its kind inside of the scopes around. -/
lemma newInner_seated {kind : ScopeKind OccurrenceId} (hm : m.Seated N past) (hp : Seated past m.frames kinds i)
    (hkind : ∀ fs j, kind.Seated past fs j) :
    StaysSeated N (.lift (newFrame (.empty (some i)))) past m fun j past' m' => Seated past' m'.frames (kind :: kinds) j :=
  .step rfl ⟨hm.add empty_seated, List.Subset.refl _, retains_add _, rfl, rfl⟩ (hp.add hm.size rfl (hkind _ _))

/-! ### Values found -/

lemma lookUpAs_seated {use : Occurrence OccurrenceId} (hm : m.Seated N past) :
    StaysSeated N (.lift (lookUpAs use text)) past m (SeatedValue N) := by
  rcases lookUpAs_cases use text m with ⟨v, hv⟩ | herror
  · obtain ⟨j, hj⟩ := lookUpAs_holds hv
    exact .step hv (.refl hm) (hm.frames j text v hj)
  · exact .stop herror (.refl hm)

lemma ofTypes_seated {r : Except Mismatch Value} (hm : m.Seated N past)
    (h : ∀ v, r = .ok v → v.Seated N past m.frames) :
    StaysSeated N (.lift (ofTypes line r)) past m (SeatedValue N) := by
  cases r with
  | ok v => exact .pure hm (h v rfl)
  | error e => exact .fail hm

lemma checkArity_seated {expected got : Nat} (hm : m.Seated N past) :
    StaysSeated N (.lift (checkArity text expected got line)) past m Whatever := by
  unfold checkArity
  split
  · exact .pure hm trivial
  · exact .fail hm

lemma printLine_seated (hm : m.Seated N past) : StaysSeated N (.lift (printLine text)) past m Whatever := by
  have hfollows : ∀ sink, Follows N past m past { m with sink } := fun _ =>
    ⟨⟨hm.size, hm.frames, hm.objects⟩, List.Subset.refl _, .refl, rfl, rfl⟩
  refine Traced.Tells.lift ?_
  unfold printLine
  simp only
  split
  · exact hfollows _
  · exact ⟨hfollows _, trivial⟩

/-! ### Functions and objects -/

lemma newClosure_seated {decl : FunctionDecl (Stmt OccurrenceId)} (hm : m.Seated N past) :
    StaysSeated N (.lift (newClosure decl)) past m fun f _ _ => f.decl = decl ∧ f.frame = m.current :=
  .step rfl ⟨⟨hm.size, hm.frames, hm.objects⟩, List.Subset.refl _, .refl, rfl, rfl⟩ ⟨rfl, rfl⟩

lemma newStamp_seated (hm : m.Seated N past) : StaysSeated N (.lift newStamp) past m Whatever :=
  .step rfl ⟨⟨hm.size, hm.frames, hm.objects⟩, List.Subset.refl _, .refl, rfl, rfl⟩ trivial

lemma newClosures_seated {decls : List (FunctionDecl (Stmt OccurrenceId))} (hm : m.Seated N past) :
    StaysSeated N (.lift (newClosures decls)) past m
      fun t _ _ => ∀ text f, t.get? text = some f → f.decl ∈ decls ∧ f.frame = m.current := by
  obtain ⟨t, stamp, h, ht⟩ := newClosures_ok decls m
  exact .step h ⟨⟨hm.size, hm.frames, hm.objects⟩, List.Subset.refl _, .refl, rfl, rfl⟩ ht

lemma newObject_seated (hm : m.Seated N past) : StaysSeated N (.lift (newObject c)) past m fun o _ _ => o.cls = c :=
  .step rfl ⟨hm.push, List.Subset.refl _, .refl, rfl, rfl⟩ rfl

lemma setProperty_seated (hm : m.Seated N past) (hv : v.Seated N past m.frames) :
    StaysSeated N (.lift (setProperty o name v)) past m Whatever :=
  .step rfl ⟨hm.setProperty hv o.id, List.Subset.refl _, .refl, rfl, rfl⟩ trivial

/-- **A bound method stands in its place**: the frame that the binding makes stands for the scope of the reserved
names. -/
lemma bindMethod_seated (hm : m.Seated N past) (hf : f.SeatedMethod N past m.frames owner.inherits)
    (howner : owner.Seated N past m.frames) (ho : o.cls.Seated N past m.frames) :
    StaysSeated N (events.bindMethod f owner o) past m fun g past' m' => g.Seated N past' m'.frames ∧ g.decl = f.decl := by
  have hevent := Follows.event hm (.binds f owner o)
  obtain ⟨hregular, p, hnodes, hp⟩ := hf
  refine .visit hm trivial ?_
  have hbound : bindMethod f owner o m = .ok ⟨m.nextStamp, f.decl, m.frames.size⟩
      { m with frames := m.frames.add (receiverFrame f owner o), nextStamp := m.nextStamp + 1 } := rfl
  have hadd := hevent.seated.add (receiverFrame_seated (f := f) (hevent.cls howner) (hevent.cls ho))
  refine .step hbound ⟨⟨hadd.size, hadd.frames, hadd.objects⟩, List.Subset.refl _, retains_add _, rfl, rfl⟩
    ⟨⟨hregular, .function, _, rfl, hnodes, ?_⟩, rfl⟩
  -- the new frame stands for the scope around the method, and its parent for the scopes around the class
  refine (hevent.place hp).add hm.size rfl ⟨f, owner, o, rfl, rfl, received_add ?_⟩
  exact List.mem_append_right _ (List.mem_singleton.2 rfl)

lemma method_seated (hm : m.Seated N past) (hc : c.Seated N past m.frames) (ho : o.cls.Seated N past m.frames) :
    StaysSeated N (events.method o c name) past m (SeatedValue N) := by
  unfold Observer.method
  split
  · next owner f hf =>
    obtain ⟨howner, hmethod⟩ := findMethod?_seated hc hf
    exact (bindMethod_seated hm hmethod howner ho).bind fun g past' m' h hg => .pure h.seated hg.1
  · exact .fail hm

lemma property_seated (hm : m.Seated N past) (hv : v.Seated N past m.frames) :
    StaysSeated N (events.property v name) past m (SeatedValue N) := by
  unfold Observer.property
  cases v with
  | object o =>
    refine StaysSeated.bind (Q := fun n _ m' => n = m') (.step rfl (.refl hm) rfl) ?_
    rintro _ past' n h rfl
    split
    · next w hw => exact .pure h.seated (h.seated.objects _ _ _ hw)
    · exact method_seated h.seated (h.cls hv) (h.cls hv)
  | ofClass c =>
    simp only [property]
    split
    · next f hf => exact .pure hm (findStatic?_seated hv hf)
    · exact .fail hm
  | _ => exact .fail hm

lemma superProperty_seated {keyword : Occurrence OccurrenceId} (hm : m.Seated N past) :
    StaysSeated N (events.superProperty keyword name) past m (SeatedValue N) := by
  unfold Observer.superProperty
  refine (lookUpAs_seated hm).bind fun v past' m' h hv => ?_
  cases v with
  | ofClass c =>
    refine (lookUpAs_seated h.seated).bind fun w past'' m'' h' hw => ?_
    cases w with
    | object o => exact method_seated h'.seated (h'.cls hv) hw
    | _ => exact .fail h'.seated
  | _ => exact .fail h.seated

/-! ### Classes -/

/-- Reading the superclass is evaluating its name. -/
lemma superclass_seated {parent : Option (Occurrence OccurrenceId)} (hm : m.Seated N past)
    (hnodes : nodesAt p (parent.toList.map (.read .identifier)) ⊆ N) (hp : Seated past m.frames p.kinds m.current) :
    StaysSeated N (events.superclass name parent) past m
      fun c past' m' => c.isSome = parent.isSome ∧ ∀ d ∈ c, d.Seated N past' m'.frames := by
  cases parent with
  | none => exact .pure hm ⟨rfl, nofun⟩
  | some use =>
    have hevent := Follows.event hm (.evaluates (.name .identifier use))
    refine .visit hm ⟨p, hnodes, hp, rfl⟩ ?_
    unfold superclass
    rw [Traced.lift_bind]
    refine (lookUpAs_seated hevent.seated).bind fun v past' m' h hv => ?_
    cases v with
    | ofClass c =>
      refine .pure h.seated ⟨rfl, fun d hd => ?_⟩
      cases hd
      exact hv
    | _ => exact .fail h.seated

/-- Declaring a class: its methods stand in the scope of the reserved names, its static methods in the scopes around
the class. -/
lemma declareBody_seated {parent : Option Class} {methods statics : List (FunctionDecl (Stmt OccurrenceId))}
    (hm : m.Seated N past) (hname : name.Plain) (hp : Seated past m.frames p.kinds m.current)
    (hparent : ∀ d ∈ parent, d.Seated N past m.frames)
    (hmethods : ∀ d ∈ methods, FunctionDecl.Regular d ∧
      FunctionDecl.nodes .function (p.inside (.receiver d parent.isSome) (reservedFor parent.isSome)) d ⊆ N)
    (hstatics : ∀ d ∈ statics, FunctionDecl.Regular d ∧ FunctionDecl.nodes .static p d ⊆ N) :
    StaysSeated N (.lift (declareBody name parent methods statics)) past m Whatever := by
  unfold declareBody
  rw [Traced.lift_bind]
  refine (define_seated (v := .null) hm hname trivial).bind fun _ past1 m1 h1 _ => ?_
  unfold finishClass
  rw [Traced.lift_bind]
  refine (newStamp_seated h1.seated).bind fun stamp past2 m2 h2 _ => ?_
  rw [Traced.lift_bind]
  refine (newClosures_seated h2.seated).bind fun ms past3 m3 h3 hms => ?_
  rw [Traced.lift_bind]
  refine (newClosures_seated h3.seated).bind fun ss past4 m4 h4 hss => .get_bind ?_
  have h12 := h1.trans h2
  have hbody : ClassBody.Seated N past4 m4.frames parent.isSome ⟨stamp, name.text, ms, ss⟩ := by
    refine ⟨fun text f hf => ?_, fun text f hf => ?_⟩
    · obtain ⟨hdecl, hframe⟩ := hms text f hf
      obtain ⟨hregular, hnodes⟩ := hmethods _ hdecl
      exact ⟨hregular, p, hnodes, hframe ▸ (h3.trans h4).place (h12.stands hp)⟩
    · obtain ⟨hdecl, hframe⟩ := hss text f hf
      obtain ⟨hregular, hnodes⟩ := hstatics _ hdecl
      exact ⟨hregular, .static, p, rfl, hnodes, hframe ▸ h4.place ((h12.trans h3).stands hp)⟩
  have hclass : (Class.extending parent ⟨stamp, name.text, ms, ss⟩).Seated N past4 m4.frames :=
    .extending (fun d hd => (h12.trans (h3.trans h4)).cls (hparent d hd)) hbody
  exact change_seated (v := .ofClass _) h4.seated hclass
    (fun _ h => update_assign_putsPlainly hname.not_reserved h) fun _ _ h => update_error h

end ScriptLang
