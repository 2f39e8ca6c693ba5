import Mathlib.Data.List.Chain
import ScriptLang.Proofs.Addressing.KnownSteps
import ScriptLang.Proofs.Frames.Operations

/-!
# How running changes frames

Whatever runs, it changes frames by operations only, each on a frame that is there.  An expression binds names
in frames that it has made itself, and so does a statement that declares nothing where it stands.

* `EvolvesIn` — frames come from others by operations that bind names only in certain frames;
* `Evolving` — a computation whose moments come from one another in this way;
* `evaluate_evolving`, `execute_evolving`, `invoke_evolving` — one level of what runs;
* `runs_evolve` — the induction on the fuel.
-/

namespace ScriptLang

open Frames Eval
open Observer (expressions)

variable {D : FrameId → Prop} {fs fs' fs'' : Frames} {m m' : Machine} {here : Bool} {line : Nat} {α β : Type}

/-! ### Where names are bound -/

/-- The frames come from others by operations, and names are bound only in certain frames. -/
def EvolvesIn (D : FrameId → Prop) (fs fs' : Frames) : Prop :=
  ∃ ops, Performs fs ops fs' ∧ ∀ i name v constant, FrameOp.define i name v constant ∈ ops → D i

lemma EvolvesIn.evolves (h : EvolvesIn D fs fs') : Evolves fs fs' := by
  obtain ⟨ops, hops, -⟩ := h
  exact ⟨ops, hops⟩

lemma EvolvesIn.refl : EvolvesIn D fs fs := ⟨[], .nil, nofun⟩

lemma EvolvesIn.trans (h : EvolvesIn D fs fs') (h' : EvolvesIn D fs' fs'') : EvolvesIn D fs fs'' := by
  obtain ⟨ops, hops, hD⟩ := h
  obtain ⟨ops', hops', hD'⟩ := h'
  refine ⟨ops ++ ops', hops.append hops', fun i name v constant hmem => ?_⟩
  rcases List.mem_append.1 hmem with hmem | hmem
  · exact hD i name v constant hmem
  · exact hD' i name v constant hmem

lemma EvolvesIn.one (op : FrameOp) (hon : op.OnExisting fs)
    (hD : ∀ i name v constant, op = .define i name v constant → D i) : EvolvesIn D fs (op.after fs) :=
  ⟨[op], .one hon, fun i name v constant hmem => hD i name v constant (List.mem_singleton.1 hmem).symm⟩

lemma after_size_le {op : FrameOp} (hon : op.OnExisting fs) : fs.size ≤ (op.after fs).size := by
  rcases after_cases hon with h | ⟨parent, -, h⟩ | ⟨slot, v, -, -, h⟩
  · rw [h]
  · rw [h, size_add]
    exact Nat.le_succ _
  · exact Nat.le_of_eq h.size.symm

lemma Performs.size_le {ops : List FrameOp} (h : Performs fs ops fs') : fs.size ≤ fs'.size := by
  induction h with
  | nil => exact Nat.le_refl _
  | cons hon _ ih => exact Nat.le_trans (after_size_le hon) ih

lemma EvolvesIn.size_le (h : EvolvesIn D fs fs') : fs.size ≤ fs'.size := by
  obtain ⟨ops, hops, -⟩ := h
  exact hops.size_le

lemma EvolvesIn.add (parent : Option FrameId) : EvolvesIn D fs (fs.add (.empty parent)) :=
  .one (.new parent) nofun nofun

lemma writing_end {change : Change Unit} : endState (FrameOp.writing change fs) = endState (change fs) := by
  unfold FrameOp.writing
  cases change fs <;> rfl

lemma EvolvesIn.define {i : FrameId} (hi : i < fs.size) (hD : D i) (name : String) (v : Value)
    (constant : Bool) : EvolvesIn D fs (endState (Frames.define i name v constant fs)) := by
  have h := EvolvesIn.one (D := D) (.define i name v constant)
    (by rintro j ⟨⟩; exact hi) (by rintro j _ _ _ ⟨⟩; exact hD)
  rwa [FrameOp.after, FrameOp.perform, writing_end] at h

lemma EvolvesIn.assign {i : FrameId} (hi : i < fs.size) (name : String) (v : Value) :
    EvolvesIn D fs (endState (Frames.assign i name v fs)) := by
  have h := EvolvesIn.one (D := D) (.assign i name v) (by rintro j ⟨⟩; exact hi) nofun
  rwa [FrameOp.after, FrameOp.perform, writing_end] at h

lemma EvolvesIn.assignAt {i : FrameId} (hi : i < fs.size) (hops : Nat) (name : String) (v : Value) :
    EvolvesIn D fs (endState (Frames.assignAt i hops name v fs)) := by
  have h := EvolvesIn.one (D := D) (.assignAt i hops name v) (by rintro j ⟨⟩; exact hi) nofun
  rwa [FrameOp.after, FrameOp.perform, writing_end] at h

/-! ### Computations -/

/-- Names may be bound in frames that are still to be made, and in the current one if that is wanted. -/
structure Room (D : FrameId → Prop) (here : Bool) (m : Machine) : Prop where
  current : m.current < m.frames.size
  fresh : ∀ i, m.frames.size ≤ i → D i
  here : here = true → D m.current

/-- The frames that a computation passes: where it starts, at every moment, and where it ends. -/
def framesOf (t : Marked α) (m : Machine) : List Frames :=
  m.frames :: (t.trace m).map (·.2.frames) ++ [(endState (t.run m)).frames]

/-- Where there is room, all frames that the computation passes come from those before them, and the current
frame is current again at the end. -/
def Evolving (D : FrameId → Prop) (here : Bool) (t : Marked α) (m : Machine) : Prop :=
  Room D here m → (framesOf t m).Pairwise (EvolvesIn D) ∧ (endState (t.run m)).current = m.current

lemma Room.later (h : Room D here m) (hsize : m.frames.size ≤ m'.frames.size) (hcur : m'.current = m.current) :
    Room D here m' := by
  refine ⟨?_, fun i hi => h.fresh i (Nat.le_trans hsize hi), fun hh => ?_⟩
  · rw [hcur]
    exact Nat.lt_of_lt_of_le h.current hsize
  · rw [hcur]
    exact h.here hh

section Computations

variable {t : Marked α} {f : α → Marked β} {x : Eval α} {a : α}

lemma Evolving.lift (h : Room D here m →
    EvolvesIn D m.frames (endState (x m)).frames ∧ (endState (x m)).current = m.current) :
    Evolving D here (.lift x) m := by
  intro hr
  obtain ⟨hframes, hcur⟩ := h hr
  refine ⟨?_, hcur⟩
  show [m.frames, (endState (x m)).frames].Pairwise (EvolvesIn D)
  simpa using hframes

/-- Steps that leave the frames as they are. -/
lemma Evolving.still (hframes : (endState (x m)).frames = m.frames)
    (hcur : (endState (x m)).current = m.current) : Evolving D here (.lift x) m :=
  .lift fun _ => ⟨by rw [hframes]; exact .refl, hcur⟩

lemma Evolving.pure : Evolving D here (pure a) m := .still rfl rfl

lemma Evolving.throw {s : Stop} : Evolving D here (.lift (throw s : Eval α)) m := .still rfl rfl

lemma Evolving.visit {e : Expr OccurrenceId} (h : Evolving D here t m) : Evolving D here (.visit e t) m := by
  intro hr
  obtain ⟨hframes, hcur⟩ := h hr
  refine ⟨List.pairwise_cons.2 ⟨?_, hframes⟩, hcur⟩
  intro fs hfs
  rcases List.mem_cons.1 hfs with rfl | hfs
  · exact .refl
  · exact (List.pairwise_cons.1 hframes).1 fs hfs

/-- What is passed first comes before all that is passed later. -/
lemma pairwise_through {l l' : List Frames} (h : (l ++ [fs]).Pairwise (EvolvesIn D))
    (h' : (fs :: l').Pairwise (EvolvesIn D)) : (l ++ fs :: l').Pairwise (EvolvesIn D) := by
  obtain ⟨hl, -, hto⟩ := List.pairwise_append.1 h
  refine List.pairwise_append.2 ⟨hl, h', fun a ha b hb => ?_⟩
  have hfs := hto a ha fs (List.mem_singleton.2 rfl)
  rcases List.mem_cons.1 hb with rfl | hb
  · exact hfs
  · exact hfs.trans ((List.pairwise_cons.1 h').1 b hb)

/-- The place where both meet can be left out. -/
lemma pairwise_across {l l' : List Frames} (h : (l ++ [fs]).Pairwise (EvolvesIn D))
    (h' : (fs :: l').Pairwise (EvolvesIn D)) : (l ++ l').Pairwise (EvolvesIn D) :=
  (pairwise_through h h').sublist ((List.sublist_cons_self fs l').append_left l)

lemma Evolving.bind (h : Evolving D here t m)
    (hf : ∀ a m', t.run m = .ok a m' → m.frames.size ≤ m'.frames.size → Evolving D here (f a) m') :
    Evolving D here (t >>= f) m := by
  intro hr
  obtain ⟨hframes, hcur⟩ := h hr
  have hsize : m.frames.size ≤ (endState (t.run m)).frames.size :=
    ((List.pairwise_cons.1 hframes).1 _ (List.mem_append_right _ (List.mem_singleton.2 rfl))).size_le
  rcases hrun : t.run m with ⟨a, m'⟩ | ⟨e, m'⟩
  · have hbind : (t >>= f).run m = (f a).run m' := Traced.bind_ok hrun
    rw [framesOf, hrun] at hframes
    rw [hrun] at hcur hsize
    obtain ⟨hframes', hcur'⟩ := hf a m' hrun hsize (hr.later hsize hcur)
    rw [framesOf, Traced.trace_bind, hrun, hbind]
    refine ⟨?_, hcur'.trans hcur⟩
    have hacross := pairwise_across hframes hframes'
    simpa [Traced.follow] using hacross
  · have hbind : (t >>= f).run m = .error e m' := Traced.bind_error hrun
    rw [framesOf, hrun] at hframes
    rw [hrun] at hcur
    rw [framesOf, Traced.trace_bind, hrun, hbind]
    refine ⟨?_, hcur⟩
    simpa [Traced.follow, endState] using hframes

/-- A step that depends on the machine. -/
lemma Evolving.get_bind {g : Machine → Eval α} (h : Evolving D here (.lift (g m)) m) :
    Evolving D here (.lift (get >>= g)) m := h

lemma Evolving.mapM {f : β → Marked α} {l : List β}
    (hf : ∀ b ∈ l, ∀ m', m.frames.size ≤ m'.frames.size → Evolving D here (f b) m') :
    Evolving D here (l.mapM f) m := by
  have loop : ∀ (l : List β) (acc : List α) (m' : Machine), m.frames.size ≤ m'.frames.size →
      (∀ b ∈ l, ∀ m', m.frames.size ≤ m'.frames.size → Evolving D here (f b) m') →
        Evolving D here (List.mapM.loop f l acc) m' := by
    intro l
    induction l with
    | nil => exact fun acc m' _ _ => .pure
    | cons b l ih =>
      intro acc m' hm' hf
      rw [List.mapM.loop]
      refine (hf b List.mem_cons_self m' hm').bind fun a m'' _ hm'' => ?_
      exact ih (a :: acc) m'' (Nat.le_trans hm' hm'') fun c hc => hf c (List.mem_cons_of_mem _ hc)
  exact loop l [] m (Nat.le_refl _) hf

/-- A computation in another frame, in which it may bind names. -/
lemma Evolving.inFrame {i : FrameId} (hi : i < m.frames.size) (hD : D i)
    (h : Evolving D true t { m with current := i }) : Evolving D here (inFrameT i t) m := by
  intro hr
  obtain ⟨hframes, -⟩ := h ⟨hi, hr.fresh, fun _ => hD⟩
  unfold framesOf at hframes ⊢
  rw [Observer.inFrameT_run]
  unfold Eval.inFrame
  simp only
  rcases hrun : t.run { m with current := i } with ⟨a, m'⟩ | ⟨e, m'⟩
  · rw [hrun] at hframes
    exact ⟨hframes, rfl⟩
  · rw [hrun] at hframes
    exact ⟨hframes, rfl⟩

/-- A computation that goes on behind a new frame. -/
lemma Evolving.newFrame_bind {frame : Frame} {f : FrameId → Marked α}
    (hadd : Room D here m → EvolvesIn D m.frames (m.frames.add frame))
    (hf : ∀ m', m'.frames = m.frames.add frame → D m.frames.size → Evolving D here (f m.frames.size) m') :
    Evolving D here (.lift (newFrame frame) >>= f) m := by
  intro hr
  have hmade : Evolving D here (.lift (newFrame frame)) m := .lift fun hr => ⟨hadd hr, rfl⟩
  refine hmade.bind (fun i m' hrun _ => ?_) hr
  cases hrun
  exact hf _ rfl (hr.fresh _ (Nat.le_refl _))

end Computations

/-! ### Single steps -/

section Steps

variable {name : Ident} {v : Value} {i : FrameId}

lemma ofFrames_still (r : Except FrameError α) : endState (ofFrames line r m) = m := by
  cases r <;> rfl

lemma ofTypes_still (r : Except Mismatch α) : endState (ofTypes line r m) = m := by
  cases r <;> rfl

lemma ofTypes_evolving (r : Except Mismatch α) : Evolving D here (.lift (ofTypes line r)) m :=
  .still (by rw [ofTypes_still]) (by rw [ofTypes_still])

lemma lookUpAs_evolving (use : Occurrence OccurrenceId) (text : String) :
    Evolving D here (.lift (lookUpAs use text)) m := by
  unfold lookUpAs
  exact .get_bind (.still (by rw [ofFrames_still]) (by rw [ofFrames_still]))

lemma checkArity_evolving (text : String) (expected got : Nat) :
    Evolving D here (.lift (checkArity text expected got line)) m := by
  unfold checkArity
  split
  · exact .pure
  · exact .throw

lemma printLine_evolving (text : String) : Evolving D here (.lift (printLine text)) m := by
  have hstill : ∃ sink, endState (printLine text m) = { m with sink } := by
    unfold printLine
    simp only
    split
    · exact ⟨_, rfl⟩
    · exact ⟨_, rfl⟩
  obtain ⟨sink, hsink⟩ := hstill
  exact .still (by rw [hsink]) (by rw [hsink])

lemma newClosure_evolving (decl : FunctionDecl (Stmt OccurrenceId)) :
    Evolving D here (.lift (newClosure decl)) m := .still rfl rfl

lemma newClosures_evolving (decls : List (FunctionDecl (Stmt OccurrenceId))) :
    Evolving D here (.lift (newClosures decls)) m := by
  unfold newClosures
  rw [Traced.lift_bind, lift_mapM]
  refine (Evolving.mapM fun d _ m' _ => ?_).bind fun entries m' _ _ => .pure
  rw [Traced.lift_bind]
  exact (newClosure_evolving d).bind fun f m'' _ _ => .pure

lemma change_evolving {op : Change Unit}
    (h : Room D here m → EvolvesIn D m.frames (endState (op m.frames))) :
    Evolving D here (.lift (change line op)) m := by
  have hend : endState (change line op m) = { m with frames := endState (op m.frames) } := by
    unfold change
    simp only
    cases op m.frames <;> rfl
  exact .lift fun hr => ⟨by rw [hend]; exact h hr, by rw [hend]⟩

lemma define_evolving {constant : Bool} : Evolving D true (.lift (define name v constant)) m := by
  have h : Evolving D true (.lift (change name.line (Frames.define m.current name.text v constant))) m :=
    change_evolving fun hr => .define hr.current (hr.here rfl) name.text v constant
  exact h

lemma assign_evolving {use : Occurrence OccurrenceId} : Evolving D here (.lift (Eval.assign use v)) m := by
  unfold Eval.assign
  refine .get_bind ?_
  simp only
  split
  · exact change_evolving fun hr => .assignAt hr.current _ use.text v
  · exact change_evolving fun hr => .assign (Nat.lt_of_le_of_lt (Nat.zero_le _) hr.current) use.text v

lemma define_add {frame frame' : Frame} (text : String) (v : Value) (constant : Bool)
    (h : frame.define text v constant = .ok frame') (hD : D fs.size) :
    EvolvesIn D (fs.add frame) (fs.add frame') := by
  have hsize : fs.size < (fs.add frame).size := by
    rw [size_add]
    exact Nat.lt_succ_self _
  have hdefine := EvolvesIn.define hsize hD text v constant
  have hframe : (fs.add frame).frame fs.size = frame := by rw [frame_add, if_pos rfl]
  have hset : (fs.add frame).setIfInBounds fs.size frame' = fs.add frame' := by
    refine Array.ext_getElem? fun i => ?_
    simp only [Frames.add, Array.getElem?_setIfInBounds, Array.getElem?_push, Array.size_push]
    by_cases hi : fs.size = i
    · simp [hi]
    · rw [if_neg hi, if_neg (Ne.symm hi), if_neg (Ne.symm hi)]
  unfold Frames.define Frames.update at hdefine
  simp only [hframe, h, endState, hset] at hdefine
  exact hdefine

/-- The frame of a method is made by operations: it is new, and the instance and the superclass are bound in
it. -/
lemma add_receiverFrame (f : Closure) (owner : Class) (o : Object) (hD : D fs.size) :
    EvolvesIn D fs (fs.add (receiverFrame f owner o)) := by
  have hthis : EvolvesIn D fs (fs.add ⟨[("this", .object o)], [], some f.frame⟩) :=
    (EvolvesIn.add (some f.frame)).trans (define_add "this" (.object o) false rfl hD)
  unfold receiverFrame
  cases owner.superclass? with
  | none => exact hthis
  | some c => exact hthis.trans (define_add "super" (.ofClass c) false rfl hD)

lemma bindMethod_evolving (f : Closure) (owner : Class) (o : Object) :
    Evolving D here (.lift (bindMethod f owner o)) m := by
  unfold bindMethod
  rw [Traced.lift_bind]
  refine .newFrame_bind (fun hr => add_receiverFrame f owner o (hr.fresh _ (Nat.le_refl _))) fun m' _ _ => ?_
  exact .still rfl rfl

lemma method_evolving (o : Object) (start : Class) : Evolving D here (.lift (method o start name)) m := by
  unfold method
  split
  · next owner f _ =>
    rw [Traced.lift_bind]
    exact (bindMethod_evolving f owner o).bind fun g m' _ _ => .pure
  · exact .throw

lemma property_evolving : Evolving D here (expressions.property v name) m := by
  rw [expressions.property_unmarked rfl]
  unfold property
  cases v with
  | object o =>
    refine .get_bind ?_
    split
    · exact .pure
    · exact method_evolving o o.cls
  | ofClass c =>
    simp only
    split
    · exact .pure
    · exact .throw
  | _ => exact .throw

lemma superProperty_evolving {keyword : Occurrence OccurrenceId} :
    Evolving D here (expressions.superProperty keyword name) m := by
  rw [expressions.superProperty_unmarked rfl, superProperty, Traced.lift_bind]
  refine (lookUpAs_evolving keyword keyword.text).bind fun v m' _ _ => ?_
  cases v with
  | ofClass c =>
    simp only
    rw [Traced.lift_bind]
    refine (lookUpAs_evolving keyword "this").bind fun w m'' _ _ => ?_
    cases w with
    | object o => exact method_evolving o c
    | _ => exact .throw
  | _ => exact .throw

lemma superclass_evolving (parent : Option (Occurrence OccurrenceId)) :
    Evolving D here (expressions.superclass name parent) m := by
  cases parent with
  | none => exact .pure
  | some use =>
    refine .visit ?_
    unfold superclass
    rw [Traced.lift_bind]
    refine (lookUpAs_evolving use use.text).bind fun v m' _ _ => ?_
    cases v with
    | ofClass c => exact .pure
    | _ => exact .throw

lemma bindParams_evolving (hi : i < m.frames.size) (hD : D i) (bound : List String) (ps : List Ident)
    (vs : List Value) : Evolving D here (expressions.bindParams i bound ps vs) m := by
  induction ps generalizing m bound vs with
  | nil => exact .pure
  | cons p ps ih =>
    cases vs with
    | nil => exact .pure
    | cons v vs =>
      rw [Observer.bindParams]
      refine (change_evolving fun _ => .define hi hD p.text v false).bind fun _ m' _ hm' => ?_
      exact ih (Nat.lt_of_lt_of_le hi hm') (bound ++ [p.text]) vs

lemma finishClass_evolving {parent : Option Class} {methods statics : List (FunctionDecl (Stmt OccurrenceId))} :
    Evolving D here (.lift (finishClass name parent methods statics)) m := by
  unfold finishClass
  rw [Traced.lift_bind]
  refine (Evolving.still (x := newStamp) rfl rfl).bind fun stamp m2 _ _ => ?_
  rw [Traced.lift_bind]
  refine (newClosures_evolving methods).bind fun ms m3 _ _ => ?_
  rw [Traced.lift_bind]
  refine (newClosures_evolving statics).bind fun ss m4 _ _ => .get_bind ?_
  exact change_evolving fun hr => .assignAt hr.current 0 name.text _

end Steps

/-! ### Everything that runs -/

/-- Whether a statement can declare a name where it stands: itself, or by a branch or body that stands in the
same scope. -/
def Stmt.declaresHere {ι : Type} : Stmt ι → Bool
  | .letVar .. | .constVar .. | .function .. | .classDecl .. => true
  | .ifThen _ yes => yes.declaresHere
  | .ifElse _ yes no => yes.declaresHere || no.declaresHere
  | .while _ body => body.declaresHere
  | _ => false

section Runs

variable {run : Unit → Stmt OccurrenceId → Marked Flow} {call : Closure → List Value → Marked Value}

lemma sequence_evolving {ss : List (Stmt OccurrenceId)} (h : ∀ s m, Evolving D here (run () s) m) :
    Evolving D here (expressions.sequence run () ss) m := by
  induction ss generalizing m with
  | nil => exact .pure
  | cons s ss ih =>
    rw [Observer.sequence]
    refine (h s m).bind fun flow m' _ _ => ?_
    cases flow with
    | normal => exact ih
    | returned v => exact .pure

lemma repeatWhile_evolving {test : Marked Value} {body : Marked Flow} (ht : ∀ m, Evolving D here test m)
    (hb : ∀ m, Evolving D here body m) (fuel : Nat) : Evolving D here (repeatWhileT test body fuel) m := by
  induction fuel generalizing m with
  | zero => exact .throw
  | succ fuel ih =>
    rw [repeatWhileT]
    refine (ht m).bind fun v m1 _ _ => ?_
    split
    · refine (hb m1).bind fun flow m2 _ _ => ?_
      cases flow with
      | normal => exact ih
      | returned w => exact .pure
    · exact .pure

lemma construct_evolving (h : ∀ f args m, Evolving D here (call f args) m) {o : Object} {args : List Value}
    {cs : List Class} : Evolving D here (expressions.construct call o args line cs) m := by
  induction cs generalizing m with
  | nil => exact .pure
  | cons c cs ih =>
    rw [Observer.construct]
    refine Evolving.bind ?_ fun _ m1 _ _ => ih
    unfold Observer.constructOwn
    split
    · exact .pure
    · next f _ =>
      refine (checkArity_evolving _ f.arity args.length).bind fun _ m1 _ _ => ?_
      refine (bindMethod_evolving f c o).bind fun g m2 _ _ => ?_
      exact (h g args m2).bind fun _ m3 _ _ => .pure

lemma apply_evolving (h : ∀ f args m, Evolving D here (call f args) m) {callee : Value} {args : List Value} :
    Evolving D here (expressions.apply call callee args line) m := by
  unfold Observer.apply
  cases callee with
  | closure f =>
    refine (checkArity_evolving f.name f.arity args.length).bind fun _ m1 _ _ => ?_
    exact (h f args m1).bind fun v m2 _ _ => .pure
  | ofClass c =>
    refine (checkArity_evolving c.own.name c.arity args.length).bind fun _ m1 _ _ => ?_
    unfold Observer.instantiate
    refine (Evolving.still (x := newObject c) rfl rfl).bind fun o m2 _ _ => ?_
    exact (construct_evolving h).bind fun _ m3 _ _ => .pure
  | _ => exact .throw

/-- Expressions evolve, statements do where there is room for what they declare, and calls do. -/
structure RunsEvolve (D : FrameId → Prop) (fuel : Nat) : Prop where
  evaluate : ∀ here e m, Evolving D here (evaluateT fuel e) m
  execute : ∀ here s m, (s.declaresHere = true → here = true) → Evolving D here (executeT fuel s) m
  invoke : ∀ here f args m, Evolving D here (invokeT fuel f args) m

variable {fuel : Nat}

lemma evaluate_evolving (h : RunsEvolve D fuel) (e : Expr OccurrenceId) :
    Evolving D here (evaluateT (fuel + 1) e) m := by
  have he : ∀ e m, Evolving D here (evaluateT fuel e) m := h.evaluate here
  rw [evaluateT, Observer.evaluate.eq_def]
  refine .visit ?_
  cases e with
  | literal value => exact .pure
  | name kind use => exact lookUpAs_evolving use use.text
  | assign target value =>
    exact (he value m).bind fun v m1 _ _ => assign_evolving.bind fun _ m2 _ _ => .pure
  | unary op line operand => exact (he operand m).bind fun v m1 _ _ => ofTypes_evolving _
  | binary op line left right =>
    exact (he left m).bind fun v m1 _ _ => (he right m1).bind fun w m2 _ _ => ofTypes_evolving _
  | logical op line left right =>
    refine (he left m).bind fun v m1 _ _ => ?_
    split
    · exact .pure
    · exact he right m1
  | group inner => exact he inner m
  | call line callee args =>
    refine (he callee m).bind fun f m1 _ _ => ?_
    refine (Evolving.mapM fun e _ m' _ => he e m').bind fun vs m2 _ _ => ?_
    exact apply_evolving (h.invoke here)
  | get object property => exact (he object m).bind fun v m1 _ _ => property_evolving
  | superGet keyword property => exact superProperty_evolving
  | set object property value =>
    refine (he object m).bind fun v m1 _ _ => ?_
    cases v with
    | object o =>
      refine (he value m1).bind fun w m2 _ _ => ?_
      exact (Evolving.still (x := setProperty o property w) rfl rfl).bind fun _ m3 _ _ => .pure
    | _ => exact .throw

lemma execute_evolving (h : RunsEvolve D fuel) (s : Stmt OccurrenceId)
    (hs : s.declaresHere = true → here = true) : Evolving D here (executeT (fuel + 1) s) m := by
  have he : ∀ e m, Evolving D here (evaluateT fuel e) m := h.evaluate here
  rw [executeT, Observer.execute.eq_def]
  cases s with
  | expr e => exact (he e m).bind fun v m1 _ _ => .pure
  | print e =>
    exact (he e m).bind fun v m1 _ _ => (printLine_evolving v.text).bind fun _ m2 _ _ => .pure
  | letVar name value =>
    obtain rfl := hs rfl
    cases value with
    | none => exact define_evolving.bind fun _ m1 _ _ => .pure
    | some value =>
      exact (he value m).bind fun v m1 _ _ => define_evolving.bind fun _ m2 _ _ => .pure
  | constVar name value =>
    obtain rfl := hs rfl
    exact (he value m).bind fun v m1 _ _ => define_evolving.bind fun _ m2 _ _ => .pure
  | block body =>
    refine (Evolving.still (x := get) rfl rfl).bind fun m0 m1 _ _ => ?_
    refine .newFrame_bind (fun _ => .add _) fun m2 hm2 hD => ?_
    refine .inFrame ?_ hD (sequence_evolving fun s m => h.execute true s m fun _ => rfl)
    rw [hm2, size_add]
    exact Nat.lt_succ_self _
  | ifThen c yes =>
    refine (he c m).bind fun v m1 _ _ => ?_
    split
    · exact h.execute here yes m1 hs
    · exact .pure
  | ifElse c yes no =>
    refine (he c m).bind fun v m1 _ _ => ?_
    split
    · exact h.execute here yes m1 fun hy => hs (Bool.or_eq_true_iff.2 (.inl hy))
    · exact h.execute here no m1 fun hn => hs (Bool.or_eq_true_iff.2 (.inr hn))
  | «while» c body => exact repeatWhile_evolving (he c) (fun m => h.execute here body m hs) fuel
  | function decl =>
    obtain rfl := hs rfl
    exact (newClosure_evolving decl).bind fun f m1 _ _ => define_evolving.bind fun _ m2 _ _ => .pure
  | «return» line value =>
    cases value with
    | none => exact .pure
    | some value => exact (he value m).bind fun v m1 _ _ => .pure
  | classDecl name parent methods statics =>
    obtain rfl := hs rfl
    refine Evolving.bind ?_ fun _ m1 _ _ => .pure
    unfold Observer.declareClass
    exact (superclass_evolving parent).bind fun c m1 _ _ => define_evolving.bind fun _ m2 _ _ => finishClass_evolving

lemma invoke_evolving (h : RunsEvolve D fuel) (f : Closure) (args : List Value) :
    Evolving D here (invokeT (fuel + 1) f args) m := by
  rw [invokeT, Observer.invoke]
  refine .newFrame_bind (fun _ => .add _) fun m1 hm1 hD => ?_
  have hi : m.frames.size < m1.frames.size := by
    rw [hm1, size_add]
    exact Nat.lt_succ_self _
  refine (bindParams_evolving hi hD _ _ _).bind fun _ m2 _ hm2 => ?_
  refine Evolving.bind (.inFrame (Nat.lt_of_lt_of_le hi hm2) hD
    (sequence_evolving fun s m => h.execute true s m fun _ => rfl)) fun flow m3 _ _ => ?_
  cases flow with
  | normal => exact .pure
  | returned v => exact .pure

/-- **Whatever runs changes frames by operations only**, and binds names in frames that it has made and where
there is room for what it declares. -/
theorem runs_evolve (D : FrameId → Prop) (fuel : Nat) : RunsEvolve D fuel := by
  induction fuel with
  | zero =>
    refine ⟨fun here e m => ?_, fun here s m _ => ?_, fun here f args m => ?_⟩
    · rw [evaluateT, Observer.evaluate]
      exact .throw
    · rw [executeT, Observer.execute]
      exact .throw
    · rw [invokeT, Observer.invoke]
      exact .throw
  | succ fuel ih =>
    exact ⟨fun _ e _ => evaluate_evolving ih e, fun _ s _ hs => execute_evolving ih s hs,
      fun _ f args _ => invoke_evolving ih f args⟩

end Runs

end ScriptLang
