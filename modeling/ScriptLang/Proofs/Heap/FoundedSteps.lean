import ScriptLang.Proofs.Events.Histories
import ScriptLang.Proofs.Heap.Founded

/-!
# Steps that build on what is there

What the single steps of running do to a machine that holds nothing but references to what is there: they add frames,
classes and objects that refer to those before them, and lose none.

* `FoundedMoment` — a machine and an event in it that refer only to what has been made until then;
* `BuiltOn` — a later point of the same run;
* `StaysFounded` — a computation with such moments only, and one that leaves such a machine, whatever comes of it;
* `bindMethod_founded`, `classDecl_founded` — the frame of a bound method, and the class of a declaration;
* `define_founded`, `newFrame_founded`, `property_founded`, … — the other steps.
-/

namespace ScriptLang

open Frames Eval
open Observer (events)

variable {past past' past'' : History} {i p : FrameId} {m m' m'' : Machine} {c owner : Class} {cs : List Class}
  {f : Closure} {o : Object} {v : Value} {name : Ident} {line : Nat} {text : String} {α β : Type}

/-! ### Later points of a run -/

/-- What an event carries refers to what is there. -/
def Event.Within (cs : List Class) (m : Machine) : Event → Prop
  | .executes _ | .evaluates _ => True
  | .binds f owner o => f.Within m ∧ owner ∈ cs ∧ o.Within cs m
  | .calls f | .constructs f => f.Within m
  | .gives v | .discards v | .returns v => v.Within cs m

/-- Everything that the machine holds and that the event carries refers to what has been made until then. -/
def FoundedMoment (past : History) (w : Event) (m : Machine) : Prop :=
  m.Founded (made past m) ∧ w.Within (made past m) m

/-- The machine `m'` with its history comes after `m`: it refers only to what is there, and nothing was lost. -/
structure BuiltOn (past : History) (m : Machine) (past' : History) (m' : Machine) : Prop where
  founded : m'.Founded (classesOf past')
  grows : HeapGrows (classesOf past) m (classesOf past') m'

namespace BuiltOn

lemma refl (hm : m.Founded (classesOf past)) : BuiltOn past m past m := ⟨hm, .refl⟩

lemma trans (h : BuiltOn past m past' m') (h' : BuiltOn past' m' past'' m'') : BuiltOn past m past'' m'' :=
  ⟨h'.founded, h.grows.trans h'.grows⟩

/-- The same machine behind one more event, with which no class is made. -/
lemma event (hm : m.Founded (classesOf past)) {w : Event} (hw : w.makes? m = none) :
    BuiltOn past m (past ++ [(w, m)]) m := by
  have hclasses : classesOf (past ++ [(w, m)]) = classesOf past := by
    rw [classesOf_append, hw, Option.toList_none, List.append_nil]
  exact ⟨hclasses ▸ hm, hclasses ▸ .refl⟩

lemma values {vs : List Value} (h : BuiltOn past m past' m') (hvs : ∀ v ∈ vs, v.Within (classesOf past) m) :
    ∀ v ∈ vs, v.Within (classesOf past') m' := fun v hv => h.grows.value (hvs v hv)

end BuiltOn

/-! ### Computations -/

/-- At every moment everything refers to what has been made until then, and so it does after the computation, whatever
comes of it; a result comes with `Q`. -/
def StaysFounded (t : Recording α) (past : History) (m : Machine) (Q : α → History → Machine → Prop) : Prop :=
  t.Tells FoundedMoment (fun a past' m' => BuiltOn past m past' m' ∧ Q a past' m') (BuiltOn past m) past m

/-- What a value refers to is there. -/
abbrev FoundedValue (v : Value) (past : History) (m : Machine) : Prop := v.Within (classesOf past) m

/-- A computation whose result nothing is said of. -/
abbrev StaysFoundedAnyhow (t : Recording α) (past : History) (m : Machine) : Prop :=
  StaysFounded t past m fun _ _ _ => True

namespace StaysFounded

variable {t : Recording α} {g : α → Recording β} {x : Eval α} {a : α} {Q : α → History → Machine → Prop}
  {R : β → History → Machine → Prop}

lemma step (h : x m = .ok a m') (hm : BuiltOn past m past m') (hq : Q a past m') :
    StaysFounded (.lift x) past m Q := by
  refine Traced.Tells.lift ?_
  rw [h]
  exact ⟨hm, hq⟩

lemma stop {stop : Stop} (h : x m = .error stop m') (hm : BuiltOn past m past m') :
    StaysFounded (.lift x) past m Q := by
  refine Traced.Tells.lift ?_
  rw [h]
  exact hm

lemma pure (hm : m.Founded (classesOf past)) (hq : Q a past m) : StaysFounded (Pure.pure a) past m Q :=
  step (x := Pure.pure a) rfl (.refl hm) hq

lemma fail {e : RuntimeError} (hm : m.Founded (classesOf past)) :
    StaysFounded (.lift (Eval.fail e : Eval α)) past m Q := stop rfl (.refl hm)

lemma outOfFuel (hm : m.Founded (classesOf past)) : StaysFounded (.lift (throw .outOfFuel : Eval α)) past m Q :=
  stop rfl (.refl hm)

/-- A step that depends on the machine. -/
lemma get_bind {g : Machine → Eval α} (h : StaysFounded (.lift (g m)) past m Q) :
    StaysFounded (.lift (get >>= g)) past m Q := h

lemma mono {Q' : α → History → Machine → Prop} (h : StaysFounded t past m Q)
    (hQ : ∀ a past' m', BuiltOn past m past' m' → Q a past' m' → Q' a past' m') : StaysFounded t past m Q' :=
  Traced.Tells.mono h (fun _ _ _ h => h) (fun a _ _ h => ⟨h.1, hQ a _ _ h.1 h.2⟩) fun _ _ h => h

/-- The event of a computation that begins. -/
lemma visit {w : Event} (hm : m.Founded (classesOf past)) (hmakes : w.makes? m = none)
    (hw : w.Within (classesOf past) m) (h : StaysFounded t (past ++ [(w, m)]) m Q) :
    StaysFounded (.visit w t) past m Q := by
  have hevent := BuiltOn.event hm hmakes
  have hmoment : FoundedMoment past w m := by
    rw [FoundedMoment, made_eq hm.stamps]
    exact ⟨hm, hw⟩
  exact Traced.Tells.visit hmoment
    (Traced.Tells.mono h (fun _ _ _ h => h) (fun _ _ _ h => ⟨hevent.trans h.1, h.2⟩) fun _ _ h => hevent.trans h)

lemma bind (h : StaysFounded t past m Q)
    (hg : ∀ a past' m', BuiltOn past m past' m' → Q a past' m' → StaysFounded (g a) past' m' R) :
    StaysFounded (t >>= g) past m R := by
  refine Traced.Tells.bind h fun a past' m' hq => ?_
  exact Traced.Tells.mono (hg a past' m' hq.1 hq.2) (fun _ _ _ h => h) (fun _ _ _ h => ⟨hq.1.trans h.1, h.2⟩)
    fun _ _ h => hq.1.trans h

/-- Computations of values, one after another. -/
lemma mapM {g : β → Recording Value} {l : List β} (hm : m.Founded (classesOf past))
    (hg : ∀ b past' m', m'.Founded (classesOf past') → StaysFounded (g b) past' m' FoundedValue) :
    StaysFounded (l.mapM g) past m fun vs past' m' => ∀ v ∈ vs, FoundedValue v past' m' := by
  have loop : ∀ (l : List β) (acc : List Value) (past : History) (m : Machine), m.Founded (classesOf past) →
      (∀ v ∈ acc, FoundedValue v past m) →
        StaysFounded (List.mapM.loop g l acc) past m fun vs past' m' => ∀ v ∈ vs, FoundedValue v past' m' := by
    intro l
    induction l with
    | nil => exact fun acc past m hm hacc => pure hm fun v hv => hacc v (List.mem_reverse.1 hv)
    | cons b l ih =>
      intro acc past m hm hacc
      rw [List.mapM.loop]
      refine (hg b past m hm).bind fun v past' m' h hv => ?_
      exact ih (v :: acc) past' m' h.founded (List.forall_mem_cons.2 ⟨hv, h.values hacc⟩)
  exact loop l [] past m hm (List.forall_mem_nil _)

/-- A computation in another frame, which is no longer current behind it. -/
lemma inFrame (hm : m.Founded (classesOf past)) (hQ : ∀ a past' m' j, Q a past' m' → Q a past' { m' with current := j })
    (h : StaysFounded t past { m with current := i } Q) : StaysFounded (inFrameT i t) past m Q := by
  obtain ⟨htrace, hrun⟩ := h
  refine ⟨htrace, ?_⟩
  have back : ∀ {past' m'}, BuiltOn past { m with current := i } past' m' →
      BuiltOn past m past' { m' with current := m.current } := fun h =>
    ⟨h.founded.restate rfl rfl (Nat.le_refl _) (Nat.lt_of_lt_of_le hm.current h.grows.frames),
      h.grows.classes, h.grows.frames, h.grows.objects⟩
  show Traced.Ends _ _ (Eval.inFrame i t.run m)
  unfold Eval.inFrame
  simp only
  rcases hr : t.run { m with current := i } with ⟨a, m'⟩ | ⟨e, m'⟩
  · rw [hr] at hrun
    exact ⟨back hrun.1, hQ _ _ _ _ hrun.2⟩
  · rw [hr] at hrun
    exact back hrun

end StaysFounded

/-! ### Changes of frames -/

lemma change_founded {op : Frames.Change Unit} (hm : m.Founded (classesOf past)) (hv : FoundedValue v past m)
    (hok : ∀ fs', op m.frames = .ok () fs' → ∃ i, PutAt i v m.frames fs')
    (herr : ∀ e fs', op m.frames = .error e fs' → fs' = m.frames) :
    StaysFoundedAnyhow (.lift (change line op)) past m := by
  rcases hop : op m.frames with ⟨⟨⟩, fs'⟩ | ⟨e, fs'⟩
  · obtain ⟨i, hput⟩ := hok fs' hop
    have hrun : change line op m = .ok () { m with frames := fs' } := change_of_ok op hop
    exact .step hrun ⟨hm.put hput hv, List.Subset.refl _, hput.grows.size, Nat.le_refl _⟩ trivial
  · obtain rfl := herr e fs' hop
    have hrun : change line op m = .error (.error (e.atLine line)) m := change_of_error op hop
    exact .stop hrun (.refl hm)

lemma defineIn_founded (hm : m.Founded (classesOf past)) (hv : FoundedValue v past m) (i : FrameId) (constant : Bool) :
    StaysFoundedAnyhow (.lift (change line (Frames.define i text v constant))) past m :=
  change_founded hm hv (fun _ h => ⟨i, (define_putAt h).1⟩) fun _ _ h => update_error h

lemma define_founded {constant : Bool} (hm : m.Founded (classesOf past)) (hv : FoundedValue v past m) :
    StaysFoundedAnyhow (.lift (define name v constant)) past m :=
  .get_bind (g := fun n => change name.line (Frames.define n.current name.text v constant))
    (defineIn_founded hm hv m.current constant)

lemma assign_founded {use : Occurrence OccurrenceId} (hm : m.Founded (classesOf past)) (hv : FoundedValue v past m) :
    StaysFoundedAnyhow (.lift (Eval.assign use v)) past m := by
  unfold Eval.assign
  refine .get_bind ?_
  simp only
  split
  · exact change_founded hm hv (fun _ h => assignAt_putAt h) fun _ _ h => update_error h
  · exact change_founded hm hv (fun _ h => assign_putAt h) fun _ _ h => assign_error h

lemma bindParams_founded : ∀ {ps : List Ident} {vs : List Value} {past : History} {m : Machine},
    m.Founded (classesOf past) → (∀ v ∈ vs, FoundedValue v past m) →
      StaysFoundedAnyhow (.lift (bindParams i ps vs)) past m
  | [], vs, past, m, hm, _ => by
    rw [bindParams]
    · exact .pure hm trivial
    · simp
  | p :: ps, [], past, m, hm, _ => by
    rw [bindParams]
    · exact .pure hm trivial
    · simp
  | p :: ps, v :: vs, past, m, hm, hvs => by
    obtain ⟨hv, hvs⟩ := List.forall_mem_cons.1 hvs
    rw [bindParams, Traced.lift_bind]
    exact (defineIn_founded hm hv i false).bind fun _ past' m' h _ => bindParams_founded h.founded (h.values hvs)

/-- A new frame inside of one that is there. -/
lemma newFrame_founded (hm : m.Founded (classesOf past)) (hp : p < m.frames.size) :
    StaysFounded (.lift (newFrame (.empty (some p)))) past m fun i _ m' => i < m'.frames.size := by
  have hadd := hm.add (.empty (some p)) rfl hp empty_within
  refine .step rfl ⟨hadd, List.Subset.refl _, (grows_add _).size, Nat.le_refl _⟩ ?_
  show m.frames.size < (m.frames.add _).size
  rw [size_add]
  exact Nat.lt_succ_self _

/-! ### Values found -/

lemma lookUpAs_founded {use : Occurrence OccurrenceId} (hm : m.Founded (classesOf past)) :
    StaysFounded (.lift (lookUpAs use text)) past m FoundedValue := by
  rcases lookUpAs_cases use text m with ⟨v, hv⟩ | herror
  · exact .step hv (.refl hm) (hm.lookUpAs hv)
  · exact .stop herror (.refl hm)

lemma ofTypes_founded {r : Except Mismatch Value} (hm : m.Founded (classesOf past))
    (h : ∀ v, r = .ok v → FoundedValue v past m) : StaysFounded (.lift (ofTypes line r)) past m FoundedValue := by
  cases r with
  | ok v => exact .pure hm (h v rfl)
  | error e => exact .fail hm

lemma checkArity_founded {expected got : Nat} (hm : m.Founded (classesOf past)) :
    StaysFoundedAnyhow (.lift (checkArity text expected got line)) past m := by
  unfold checkArity
  split
  · exact .pure hm trivial
  · exact .fail hm

lemma printLine_founded (hm : m.Founded (classesOf past)) : StaysFoundedAnyhow (.lift (printLine text)) past m := by
  have hbuilt : ∀ sink, BuiltOn past m past { m with sink } := fun _ =>
    ⟨hm.restate rfl rfl (Nat.le_refl _) hm.current, List.Subset.refl _, Nat.le_refl _, Nat.le_refl _⟩
  refine Traced.Tells.lift ?_
  unfold printLine
  simp only
  split
  · exact hbuilt _
  · exact ⟨hbuilt _, trivial⟩

/-! ### Functions and objects -/

lemma newClosure_founded {decl : FunctionDecl (Stmt OccurrenceId)} (hm : m.Founded (classesOf past)) :
    StaysFounded (.lift (newClosure decl)) past m fun f _ m' => f.Within m' :=
  .step rfl ⟨hm.restate rfl rfl (Nat.le_succ _) hm.current, List.Subset.refl _, Nat.le_refl _, Nat.le_refl _⟩ hm.current

lemma newObject_founded (hm : m.Founded (classesOf past)) (hc : c ∈ classesOf past) :
    StaysFounded (.lift (newObject c)) past m fun o past' m' => o.Within (classesOf past') m' := by
  have hsize : (m.objects.push []).size = m.objects.size + 1 := Array.size_push ..
  refine .step rfl ⟨hm.push, List.Subset.refl _, Nat.le_refl _, ?_⟩ ⟨?_, hc⟩
  · exact hsize ▸ Nat.le_succ _
  · exact hsize ▸ Nat.lt_succ_self _

lemma setProperty_founded (hm : m.Founded (classesOf past)) (hv : FoundedValue v past m) :
    StaysFoundedAnyhow (.lift (setProperty o name v)) past m :=
  .step rfl ⟨hm.setProperty hv o.id, List.Subset.refl _, Nat.le_refl _, Nat.le_of_eq Array.size_modify.symm⟩ trivial

/-- **A bound method refers to a new frame**, and this frame to that of the method, to the instance and to the
superclass. -/
lemma bindMethod_founded (hm : m.Founded (classesOf past)) (hf : f.Within m) (howner : owner ∈ classesOf past)
    (ho : o.Within (classesOf past) m) :
    StaysFounded (events.bindMethod f owner o) past m fun g _ m' => g.Within m' := by
  have hevent := BuiltOn.event hm (w := .binds f owner o) rfl
  refine .visit hm rfl ⟨hf, howner, ho⟩ ?_
  have hbound : bindMethod f owner o m = .ok ⟨m.nextStamp, f.decl, m.frames.size⟩
      { m with frames := m.frames.add (receiverFrame f owner o), nextStamp := m.nextStamp + 1 } := rfl
  have hadd := hevent.founded.add (receiverFrame f owner o) rfl hf
    (receiverFrame_within hevent.founded.classes (hevent.grows.classes howner) (hevent.grows.object ho))
  have hsize : m.frames.size < (m.frames.add (receiverFrame f owner o)).size := by
    rw [size_add]
    exact Nat.lt_succ_self _
  exact .step hbound ⟨hadd.restate rfl rfl (Nat.le_succ _) hadd.current, List.Subset.refl _, Nat.le_of_lt hsize,
    Nat.le_refl _⟩ hsize

lemma method_founded (hm : m.Founded (classesOf past)) (hc : c ∈ classesOf past) (ho : o.Within (classesOf past) m) :
    StaysFounded (events.method o c name) past m FoundedValue := by
  unfold Observer.method
  split
  · next owner f hf =>
    obtain ⟨howner, hmethod⟩ := hm.findMethod? hc hf
    exact (bindMethod_founded hm hmethod howner ho).bind fun g past' m' h hg => .pure h.founded hg
  · exact .fail hm

lemma property_founded (hm : m.Founded (classesOf past)) (hv : FoundedValue v past m) :
    StaysFounded (events.property v name) past m FoundedValue := by
  unfold Observer.property
  cases v with
  | object o =>
    refine StaysFounded.bind (Q := fun n _ m' => n = m') (.step rfl (.refl hm) rfl) ?_
    rintro _ past' n h rfl
    split
    · next w hw => exact .pure h.founded (h.founded.properties _ _ _ hw)
    · have ho := h.grows.object hv
      exact method_founded h.founded ho.cls ho
  | ofClass c =>
    simp only [property]
    split
    · next f hf => exact .pure hm (hm.findStatic? hv hf)
    · exact .fail hm
  | _ => exact .fail hm

lemma superProperty_founded {keyword : Occurrence OccurrenceId} (hm : m.Founded (classesOf past)) :
    StaysFounded (events.superProperty keyword name) past m FoundedValue := by
  unfold Observer.superProperty
  refine (lookUpAs_founded hm).bind fun v past' m' h hv => ?_
  cases v with
  | ofClass c =>
    refine (lookUpAs_founded h.founded).bind fun w past'' m'' h' hw => ?_
    cases w with
    | object o => exact method_founded h'.founded (h'.grows.classes hv) hw
    | _ => exact .fail h'.founded
  | _ => exact .fail h.founded

/-! ### Classes -/

section Declarations

variable {parent : Option (Occurrence OccurrenceId)} {sup : Option Class}

lemma superclass_within (hm : m.Founded cs) (h : NamesSuperclass m parent sup) : ∀ d, sup = some d → d ∈ cs := by
  rintro d rfl
  cases parent with
  | none => cases h
  | some use =>
    obtain ⟨c, hc, hd⟩ := h
    cases hd
    exact hm.lookUpAs hc

/-- **A class declaration** puts one more class behind those that were made, or it fails and changes nothing. -/
lemma classDecl_founded (fuel : Nat) (name : Ident) (parent : Option (Occurrence OccurrenceId))
    (methods statics : List (FunctionDecl (Stmt OccurrenceId))) (hm : m.Founded (classesOf past)) :
    StaysFounded (executeE (fuel + 1) (.classDecl name parent methods statics)) past m
      fun flow _ _ => flow = .normal := by
  have hmoment : ∀ w, FoundedMoment past (.executes w) m := fun w => by
    rw [FoundedMoment, made_eq hm.stamps]
    exact ⟨hm, trivial⟩
  have hclasses : classesOf (past ++ (executeE (fuel + 1) (.classDecl name parent methods statics)).trace m) =
      classesOf past ++ ((Event.executes (.classDecl name parent methods statics)).makes? m).toList := by
    rw [classDecl_trace, List.append_cons]
    cases parent with
    | none => rw [Option.toList_none, List.map_nil, List.append_nil, classesOf_append]
    | some use =>
      rw [Option.toList_some, List.map_singleton, classesOf_append, classesOf_append]
      exact List.append_nil _
  refine ⟨?_, ?_⟩
  · rw [classDecl_trace]
    refine ⟨hmoment _, ?_⟩
    cases parent with
    | none => trivial
    | some use =>
      -- The class has not been made yet when the name of its superclass is evaluated.
      refine ⟨?_, trivial⟩
      rw [FoundedMoment, made_event hm.current hm.stamps]
      exact ⟨hm, trivial⟩
  · rw [Observer.execute_run]
    rcases classDecl_makes fuel name parent methods statics hm.current with ⟨stop, herror, hnone⟩ |
      ⟨sup, c, fs, hsup, hc, hwrites, hok, hsome⟩
    · rw [herror]
      rw [hnone, Option.toList_none, List.append_nil] at hclasses
      show BuiltOn past m _ m
      exact ⟨hclasses ▸ hm, hclasses ▸ .refl⟩
    · rw [hok]
      rw [hsome, Option.toList_some] at hclasses
      have hstamp : m.nextStamp < m.nextStamp + 1 + methods.length + statics.length :=
        Nat.lt_of_lt_of_le (Nat.lt_succ_self _) (Nat.le_trans (Nat.le_add_right _ _) (Nat.le_add_right _ _))
      refine ⟨⟨?_, ?_⟩, rfl⟩
      · rw [hclasses]
        exact hm.declare hc (superclass_within hm hsup) hwrites hstamp
      · rw [hclasses]
        exact ⟨List.subset_append_left .., Nat.le_of_eq hwrites.size.symm, Nat.le_refl _⟩

end Declarations

end ScriptLang
