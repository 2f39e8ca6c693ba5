import ScriptLang.Proofs.Frames.GlobalNames
import ScriptLang.Proofs.Token.Dispatch

/-!
# What running gives back

Whatever runs, and however it ends, the frame that was current before is current again, and it is the same
frame: it has only gained names.  This holds of every machine, whether or not a session can come to it.

* `Frame.Continues`, `Frames.Continue` — the same frames, perhaps with more names and with frames behind them;
* `Machine.Grown` — what a machine has gained and what it has kept;
* `Growing` — a computation after which every machine has grown;
* `runs_grow` — expressions, statements and calls are of this kind;
* `frame_restored` — the same for all that runs, and for sessions.
-/

namespace ScriptLang

open Frames Eval

variable {α β : Type} {fs fs' fs'' : Frames} {f f' f'' : Frame} {m m' m'' : Machine} {i : FrameId}
  {text : String} {v : Value} {line fuel : Nat}

/-! ### Frames that go on -/

/-- A frame later on: what is around it is the same, its names are there in their old order, and its constants
have their values. -/
structure Frame.Continues (f f' : Frame) : Prop where
  parent : f'.parent = f.parent
  mutables : f.mutables.names <+: f'.mutables.names
  constants : f.constants <+: f'.constants

/-- All frames go on in their places, and others may stand behind them. -/
structure Frames.Continue (fs fs' : Frames) : Prop where
  size : fs.size ≤ fs'.size
  frame : ∀ i < fs.size, (fs.frame i).Continues (fs'.frame i)

lemma Frame.Continues.refl : f.Continues f := ⟨rfl, List.prefix_rfl, List.prefix_rfl⟩

lemma Frame.Continues.trans (h : f.Continues f') (h' : f'.Continues f'') : f.Continues f'' :=
  ⟨h'.parent.trans h.parent, h.mutables.trans h'.mutables, h.constants.trans h'.constants⟩

lemma Frames.Continue.refl : fs.Continue fs := ⟨Nat.le_refl _, fun _ _ => .refl⟩

lemma Frames.Continue.trans (h : fs.Continue fs') (h' : fs'.Continue fs'') : fs.Continue fs'' :=
  ⟨Nat.le_trans h.size h'.size,
    fun i hi => (h.frame i hi).trans (h'.frame i (Nat.lt_of_lt_of_le hi h.size))⟩

lemma has_mono_names {α : Type} {t t' : Table α} (h : t.names <+: t'.names) (hb : t.has text = true) :
    t'.has text = true := by
  by_contra hn
  have hmem : text ∉ t'.names := Table.get?_eq_none_iff.1 (Option.not_isSome_iff_eq_none.1 hn)
  have hnone : t.get? text = none := Table.get?_eq_none_iff.2 fun ht => hmem (h.subset ht)
  rw [Table.has, hnone] at hb
  cases hb

lemma Frame.Continues.binds (h : f.Continues f') (hb : f.binds text = true) :
    f'.binds text = true := by
  have hconstants : f.constants.names <+: f'.constants.names := h.constants.map Prod.fst
  rcases Bool.or_eq_true_iff.1 hb with hb | hb
  · exact Bool.or_eq_true_iff.2 (.inl (has_mono_names h.mutables hb))
  · exact Bool.or_eq_true_iff.2 (.inr (has_mono_names hconstants hb))

lemma Frames.Continue.grows (h : fs.Continue fs') : Grows fs fs' :=
  ⟨h.size, fun i hi => (h.frame i hi).parent, fun i _ hb => (h.frame i (lt_size_of_binds hb)).binds hb⟩

/-- An entry under a new name comes behind the others. -/
lemma put_of_fresh {t : Table α} {a : α} (h : t.has text = false) : t.put text a = t ++ [(text, a)] := by
  induction t with
  | nil => rfl
  | cons p t ih =>
    obtain ⟨k, b⟩ := p
    by_cases hk : k = text
    · simp [Table.has, Table.get?, hk] at h
    · unfold Table.has at h ih
      rw [Table.get?, if_neg hk] at h
      rw [Table.put, if_neg hk, ih h]
      rfl

lemma define_continues {constant : Bool} (h : f.define text v constant = .ok f') : f.Continues f' := by
  have hmutables : f.mutables.names <+: f'.mutables.names := by
    rw [(define_names h).1]
    exact List.prefix_append _ _
  obtain ⟨hfree, hput⟩ := frame_define h
  refine ⟨hput.parent, hmutables, ?_⟩
  have hconst : f.constants.has text = false := (Bool.or_eq_false_iff.1 hfree).2
  unfold Frame.define at h
  split at h
  · cases h
  · split at h <;> cases h
    · simp only [put_of_fresh hconst]
      exact List.prefix_append _ _
    · exact List.prefix_rfl

lemma assign_continues (h : f.assign text v = .ok f') : f.Continues f' := by
  have hmutables := (assign_names h).1
  obtain ⟨-, hput⟩ := frame_assign h
  refine ⟨hput.parent, hmutables ▸ List.prefix_rfl, ?_⟩
  unfold Frame.assign at h
  split at h
  · cases h
  · split at h <;> cases h
    exact List.prefix_rfl

lemma add_continue (frame : Frame) : fs.Continue (fs.add frame) := by
  refine ⟨by rw [size_add]; exact Nat.le_succ _, fun i hi => ?_⟩
  rw [frame_add, if_neg (Nat.ne_of_lt hi)]
  exact .refl

/-- A change of one frame, after which that frame goes on. -/
lemma update_continue {change : Frame → Except FrameError Frame}
    (h : ∀ f f', change f = .ok f' → f.Continues f') (i : FrameId) (fs : Frames) :
    fs.Continue (endState (Frames.update i change fs)) := by
  rcases hupdate : Frames.update i change fs with ⟨⟨⟩, fs'⟩ | ⟨e, fs'⟩
  · -- Behind the frames there is nothing to change, and one of them goes on by assumption.
    obtain ⟨f', hf, rfl⟩ := update_ok hupdate
    refine ⟨Nat.le_of_eq Array.size_setIfInBounds.symm, fun j _ => ?_⟩
    simp only [endState]
    rw [frame_set]
    split
    · next hij => exact hij.1 ▸ h _ _ hf
    · exact .refl
  · rw [update_error hupdate]
    exact .refl

lemma frames_define_continue (i : FrameId) (text : String) (v : Value) (constant : Bool) (fs : Frames) :
    fs.Continue (endState (Frames.define i text v constant fs)) :=
  update_continue (fun _ _ => define_continues) i fs

lemma frames_assign_continue (i : FrameId) (text : String) (v : Value) (fs : Frames) :
    fs.Continue (endState (Frames.assign i text v fs)) := by
  unfold Frames.assign
  split
  · exact .refl
  · exact update_continue (fun _ _ => assign_continues) _ fs

lemma frames_assignAt_continue (i : FrameId) (hops : Nat) (text : String) (v : Value) (fs : Frames) :
    fs.Continue (endState (Frames.assignAt i hops text v fs)) :=
  update_continue (fun _ _ => assign_continues) _ fs

/-! ### Machines that grow -/

/-- A machine later on: the same frame is current, all frames go on, no stamp and no object is taken back, the
distances of uses are the same, and what was written is still there. -/
structure Machine.Grown (m m' : Machine) : Prop where
  current : m'.current = m.current
  frames : m.frames.Continue m'.frames
  objects : m.objects.size ≤ m'.objects.size
  stamps : m.nextStamp ≤ m'.nextStamp
  locals : m'.locals = m.locals
  output : ∃ bytes, m'.sink.written = m.sink.written ++ bytes

lemma Machine.Grown.refl : m.Grown m :=
  ⟨rfl, .refl, Nat.le_refl _, Nat.le_refl _, rfl, ByteArray.empty, ByteArray.append_empty.symm⟩

lemma Machine.Grown.trans (h : m.Grown m') (h' : m'.Grown m'') : m.Grown m'' := by
  obtain ⟨bytes, hbytes⟩ := h.output
  obtain ⟨bytes', hbytes'⟩ := h'.output
  exact ⟨h'.current.trans h.current, h.frames.trans h'.frames, Nat.le_trans h.objects h'.objects,
    Nat.le_trans h.stamps h'.stamps, h'.locals.trans h.locals, bytes ++ bytes',
    by rw [hbytes', hbytes, ByteArray.append_assoc]⟩

/-- Other frames, and all else as it was. -/
lemma Machine.Grown.of_frames (h : m.frames.Continue fs) : m.Grown { m with frames := fs } :=
  { Machine.Grown.refl (m := m) with current := rfl, frames := h }

/-- A computation after which every machine has grown, whether it succeeds or fails. -/
def Growing (x : Eval α) : Prop := ∀ m : Machine, m.Grown (endState (x m))

namespace Growing

variable {x : Eval α} {g : α → Eval β}

lemma still (h : ∀ m, endState (x m) = m) : Growing x := fun m => by
  rw [h m]
  exact .refl

lemma pure {a : α} : Growing (pure a : Eval α) := .still fun _ => rfl

lemma throw {stop : Stop} : Growing (throw stop : Eval α) := .still fun _ => rfl

lemma bind (h : Growing x) (hg : ∀ a, Growing (g a)) : Growing (x >>= g) := by
  intro m
  have hfirst := h m
  rcases hx : x m with ⟨a, m'⟩ | ⟨stop, m'⟩
  · rw [hx] at hfirst
    rw [Traced.bind_ok hx]
    exact hfirst.trans (hg a m')
  · rw [hx] at hfirst
    rw [Traced.bind_error hx]
    exact hfirst

/-- A step that depends on the machine. -/
lemma get_bind {g : Machine → Eval α} (h : ∀ m, Growing (g m)) : Growing (get >>= g) := fun m => h m m

lemma mapM {g : α → Eval β} (h : ∀ a, Growing (g a)) : ∀ l : List α, Growing (l.mapM g)
  | [] => by
    rw [List.mapM_nil]
    exact .pure
  | a :: l => by
    rw [List.mapM_cons]
    exact (h a).bind fun _ => (mapM h l).bind fun _ => .pure

/-- **The frame that was current is current again**, however the computation in the other frame ends. -/
lemma inFrame (h : Growing x) (i : FrameId) : Growing (inFrame i x) := by
  intro m
  have hinner := h { m with current := i }
  unfold Eval.inFrame
  simp only
  rcases hx : x { m with current := i } with ⟨a, m'⟩ | ⟨stop, m'⟩
  · rw [hx] at hinner
    exact { hinner with current := rfl }
  · rw [hx] at hinner
    exact { hinner with current := rfl }

end Growing

/-! ### Single steps -/

section Steps

variable {name : Ident}

lemma ofFrames_growing (r : Except FrameError α) : Growing (ofFrames line r) := .still fun _ => ofFrames_still r

lemma ofTypes_growing (r : Except Mismatch α) : Growing (ofTypes line r) := .still fun _ => ofTypes_still r

lemma change_growing {op : Change α} (h : ∀ fs : Frames, fs.Continue (endState (op fs))) :
    Growing (change line op) := by
  intro m
  have hframes := h m.frames
  unfold change
  simp only
  rcases hop : op m.frames with ⟨a, fs⟩ | ⟨e, fs⟩
  · rw [hop] at hframes
    exact .of_frames hframes
  · rw [hop] at hframes
    exact .of_frames hframes

lemma newFrame_growing (frame : Frame) : Growing (newFrame frame) := fun _ => .of_frames (add_continue frame)

lemma define_growing (constant : Bool) : Growing (Eval.define name v constant) :=
  .get_bind fun m => change_growing (frames_define_continue m.current name.text v constant)

lemma lookUpAs_growing (use : Occurrence OccurrenceId) (text : String) : Growing (lookUpAs use text) :=
  .get_bind fun _ => ofFrames_growing _

lemma assign_growing (use : Occurrence OccurrenceId) (v : Value) : Growing (Eval.assign use v) := by
  refine .get_bind fun m => ?_
  simp only
  split
  · exact change_growing (frames_assignAt_continue m.current _ use.text v)
  · exact change_growing (frames_assign_continue globalFrame use.text v)

lemma newStamp_growing : Growing newStamp := fun _ =>
  { Machine.Grown.refl with current := rfl, stamps := Nat.le_succ _ }

lemma newClosure_growing (decl : FunctionDecl (Stmt OccurrenceId)) : Growing (newClosure decl) :=
  newStamp_growing.bind fun _ => .get_bind fun _ => .pure

lemma newClosures_growing (decls : List (FunctionDecl (Stmt OccurrenceId))) : Growing (newClosures decls) :=
  (Growing.mapM (fun d => (newClosure_growing d).bind fun _ => .pure) decls).bind fun _ => .pure

lemma newObject_growing (c : Class) : Growing (newObject c) := fun m =>
  { Machine.Grown.refl with
    current := rfl
    objects := by simp [endState, newObject, modifyGet, MonadStateOf.modifyGet, EStateM.modifyGet] }

lemma bindMethod_growing (f : Closure) (owner : Class) (o : Object) : Growing (bindMethod f owner o) :=
  (newFrame_growing _).bind fun _ => newStamp_growing.bind fun _ => .pure

lemma method_growing (o : Object) (start : Class) : Growing (method o start name) := by
  unfold method
  split
  · exact (bindMethod_growing _ _ o).bind fun _ => .pure
  · exact .throw

lemma property_growing (v : Value) : Growing (property v name) := by
  unfold property
  cases v with
  | object o =>
    refine .get_bind fun m => ?_
    split
    · exact .pure
    · exact method_growing o o.cls
  | ofClass c =>
    simp only
    split
    · exact .pure
    · exact .throw
  | _ => exact .throw

lemma superProperty_growing (keyword : Occurrence OccurrenceId) : Growing (superProperty keyword name) := by
  refine (lookUpAs_growing keyword keyword.text).bind fun v => ?_
  cases v with
  | ofClass c =>
    refine (lookUpAs_growing keyword "this").bind fun w => ?_
    cases w with
    | object o => exact method_growing o c
    | _ => exact .throw
  | _ => exact .throw

lemma setProperty_growing (o : Object) (v : Value) : Growing (setProperty o name v) := fun _ =>
  { Machine.Grown.refl with current := rfl, objects := Nat.le_of_eq Array.size_modify.symm }

/-- Output that no longer fits is lost, but what stands there is not. -/
lemma printLine_growing (text : String) : Growing (printLine text) := by
  intro m
  have hwritten : ∀ bytes, ∃ more, (m.sink.write bytes).written = m.sink.written ++ more := by
    intro bytes
    unfold Sink.write
    split
    · exact ⟨bytes, rfl⟩
    · exact ⟨bytes.extract 0 _, rfl⟩
  unfold printLine
  simp only
  split
  · exact { Machine.Grown.refl (m := m) with current := rfl, output := hwritten _ }
  · exact { Machine.Grown.refl (m := m) with current := rfl, output := hwritten _ }

lemma checkArity_growing (text : String) (expected got : Nat) : Growing (checkArity text expected got line) := by
  unfold checkArity
  split
  · exact .pure
  · exact .throw

lemma bindParams_growing (i : FrameId) (ps : List Ident) (vs : List Value) : Growing (bindParams i ps vs) := by
  induction ps generalizing vs with
  | nil => exact .pure
  | cons p ps ih =>
    cases vs with
    | nil => exact .pure
    | cons v vs => exact (change_growing (frames_define_continue i p.text v false)).bind fun _ => ih vs

lemma superclass_growing (parent : Option (Occurrence OccurrenceId)) : Growing (superclass name parent) := by
  cases parent with
  | none => exact .pure
  | some use =>
    refine (lookUpAs_growing use use.text).bind fun v => ?_
    cases v with
    | ofClass c => exact .pure
    | _ => exact .throw

lemma declareBody_growing (parent : Option Class) (methods statics : List (FunctionDecl (Stmt OccurrenceId))) :
    Growing (declareBody name parent methods statics) := by
  refine (define_growing false).bind fun _ => newStamp_growing.bind fun stamp => ?_
  refine (newClosures_growing methods).bind fun ms => (newClosures_growing statics).bind fun ss => .get_bind fun m => ?_
  exact change_growing (frames_assignAt_continue m.current 0 name.text _)

lemma declareClass_growing (parent : Option (Occurrence OccurrenceId))
    (methods statics : List (FunctionDecl (Stmt OccurrenceId))) :
    Growing (declareClass name parent methods statics) :=
  (superclass_growing parent).bind fun c => declareBody_growing c methods statics

end Steps

/-! ### Everything that runs -/

section Runs

variable {run : Stmt OccurrenceId → Eval Flow} {call : Closure → List Value → Eval Value}

lemma sequence_growing (h : ∀ s, Growing (run s)) (ss : List (Stmt OccurrenceId)) :
    Growing (sequence run ss) := by
  induction ss with
  | nil => exact .pure
  | cons s ss ih =>
    rw [Eval.sequence]
    refine (h s).bind fun flow => ?_
    cases flow with
    | normal => exact ih
    | returned v => exact .pure

lemma repeatWhile_growing {test : Eval Value} {body : Eval Flow} (ht : Growing test) (hb : Growing body) :
    ∀ fuel, Growing (repeatWhile test body fuel)
  | 0 => .throw
  | fuel + 1 => by
    rw [repeatWhile]
    refine ht.bind fun v => ?_
    split
    · refine hb.bind fun flow => ?_
      cases flow with
      | normal => exact repeatWhile_growing ht hb fuel
      | returned w => exact .pure
    · exact .pure

lemma construct_growing (h : ∀ f args, Growing (call f args)) (o : Object) (args : List Value) :
    ∀ cs, Growing (construct call o args line cs)
  | [] => .pure
  | c :: cs => by
    rw [construct]
    refine Growing.bind ?_ fun _ => construct_growing h o args cs
    unfold constructOwn
    split
    · exact .pure
    · refine (checkArity_growing _ _ _).bind fun _ => (bindMethod_growing _ c o).bind fun bound => ?_
      exact (h bound args).bind fun _ => .pure

lemma instantiate_growing (h : ∀ f args, Growing (call f args)) (c : Class) (args : List Value) :
    Growing (instantiate call c args line) :=
  (newObject_growing c).bind fun o => (construct_growing h o args _).bind fun _ => .pure

lemma apply_growing (h : ∀ f args, Growing (call f args)) (callee : Value) (args : List Value) :
    Growing (apply call callee args line) := by
  cases callee with
  | closure f => exact (checkArity_growing f.name f.arity args.length).bind fun _ => h f args
  | ofClass c =>
    exact (checkArity_growing c.own.name c.arity args.length).bind fun _ => instantiate_growing h c args
  | _ => exact .throw

/-- Expressions, statements and calls let every machine grow. -/
structure RunsGrow (fuel : Nat) : Prop where
  evaluate : ∀ e, Growing (evaluate fuel e)
  execute : ∀ s, Growing (execute fuel s)
  invoke : ∀ f args, Growing (invoke fuel f args)

lemma evaluate_growing (h : RunsGrow fuel) (e : Expr OccurrenceId) : Growing (evaluate (fuel + 1) e) := by
  have he := h.evaluate
  rw [evaluate.eq_def]
  cases e with
  | literal value => exact .pure
  | name kind use => exact lookUpAs_growing use use.text
  | assign target value => exact (he value).bind fun v => (assign_growing target v).bind fun _ => .pure
  | unary op line operand => exact (he operand).bind fun v => ofTypes_growing _
  | binary op line left right =>
    exact (he left).bind fun v => (he right).bind fun w => ofTypes_growing _
  | logical op line left right =>
    refine (he left).bind fun v => ?_
    split
    · exact .pure
    · exact he right
  | group inner => exact he inner
  | call line callee args =>
    exact (he callee).bind fun f => (Growing.mapM he args).bind fun vs => apply_growing h.invoke f vs
  | get object name => exact (he object).bind fun v => property_growing v
  | superGet keyword name => exact superProperty_growing keyword
  | set object name value =>
    refine (he object).bind fun v => ?_
    cases v with
    | object o => exact (he value).bind fun w => (setProperty_growing o w).bind fun _ => .pure
    | _ => exact .throw

lemma execute_growing (h : RunsGrow fuel) (s : Stmt OccurrenceId) : Growing (execute (fuel + 1) s) := by
  have he := h.evaluate
  have hs := h.execute
  rw [execute.eq_def]
  cases s with
  | expr e => exact (he e).bind fun _ => .pure
  | print e => exact (he e).bind fun v => (printLine_growing v.text).bind fun _ => .pure
  | letVar name value =>
    cases value with
    | none => exact (define_growing false).bind fun _ => .pure
    | some value => exact (he value).bind fun v => (define_growing false).bind fun _ => .pure
  | constVar name value => exact (he value).bind fun v => (define_growing true).bind fun _ => .pure
  | block body =>
    refine .get_bind fun m => (newFrame_growing _).bind fun frame => ?_
    exact (sequence_growing hs body).inFrame frame
  | ifThen c yes =>
    refine (he c).bind fun v => ?_
    split
    · exact hs yes
    · exact .pure
  | ifElse c yes no =>
    refine (he c).bind fun v => ?_
    split
    · exact hs yes
    · exact hs no
  | «while» c body => exact repeatWhile_growing (he c) (hs body) fuel
  | function decl => exact (newClosure_growing decl).bind fun f => (define_growing false).bind fun _ => .pure
  | «return» line value =>
    cases value with
    | none => exact .pure
    | some value => exact (he value).bind fun v => .pure
  | classDecl name parent methods statics =>
    exact (declareClass_growing parent methods statics).bind fun _ => .pure

lemma invoke_growing (h : RunsGrow fuel) (f : Closure) (args : List Value) :
    Growing (invoke (fuel + 1) f args) := by
  rw [invoke]
  refine (newFrame_growing _).bind fun frame => (bindParams_growing frame _ args).bind fun _ => ?_
  refine ((sequence_growing h.execute _).inFrame frame).bind fun flow => ?_
  cases flow with
  | normal => exact .pure
  | returned v => exact .pure

/-- **Whatever runs lets the machine grow**, whether it succeeds, fails or is cut off. -/
theorem runs_grow (fuel : Nat) : RunsGrow fuel := by
  induction fuel with
  | zero =>
    refine ⟨fun e => ?_, fun s => ?_, fun f args => ?_⟩
    · rw [evaluate]
      exact .throw
    · rw [execute]
      exact .throw
    · rw [invoke]
      exact .throw
  | succ fuel ih => exact ⟨evaluate_growing ih, execute_growing ih, invoke_growing ih⟩

lemma runProgram_grown (fuel : Nat) (program : Program OccurrenceId) (m : Machine) :
    m.Grown (runProgram fuel program m).2 := by
  induction program generalizing m with
  | nil => exact .refl
  | cons s ss ih =>
    have hfirst := (runs_grow fuel).execute s m
    rw [runProgram]
    rcases hs : execute fuel s m with ⟨flow, m'⟩ | ⟨stop, m'⟩ <;> rw [hs] at hfirst
    · exact hfirst.trans (ih m')
    · cases stop <;> exact hfirst

end Runs

/-! ### Sessions -/

/-- A program may bring distances with it; but for these a session has the machine it had, grown. -/
lemma Session.submit_grown (fuel : Nat) (install : Bool) (tokens : List Token) (s : Session) :
    ∃ L, ({ s.machine with locals := L } : Machine).Grown (s.submit fuel install tokens).2.machine := by
  rcases hparse : Program.parse tokens with ds | tree
  · rw [submit_unreadable hparse]
    exact ⟨s.machine.locals, .refl⟩
  rcases hres : (s.resolver.resolve (s.numbered tree)).1 with rejection | res
  · rw [submit_rejected hparse hres]
    exact ⟨s.machine.locals, .refl⟩
  · rw [submit_ran hparse hres]
    have hrun := fun m => runProgram_grown fuel (s.numbered tree) m
    -- The distances are put into the machine before the program runs, and running does not touch them.
    cases install with
    | false => exact ⟨s.machine.locals, hrun s.machine⟩
    | true => exact ⟨s.machine.locals ∪ res.locals, hrun (s.machine.install res.locals)⟩

/-- The global frame has no frame around it. -/
lemma Session.Reachable.global_parent {s : Session} (h : s.Reachable) :
    (s.machine.frames.frame globalFrame).parent = none := by
  induction h with
  | initial limit => exact congrArg Frame.parent (frame_initial limit globalFrame)
  | @submit s fuel install tokens hs ih =>
    obtain ⟨L, hgrown⟩ := submit_grown fuel install tokens s
    exact (hgrown.frames.frame globalFrame hs.at_rest.2.1).parent.trans ih

/-- **The current frame is given back.**  From any machine, and whether it succeeds, returns from a function, fails
or is cut off: after a statement, an expression, a call of any value or of a function, an instantiation or a program
the frame that was current is current again, and every frame there was, the global one included, is still in its
place and has only gained names.  So between the programs of a session the global frame is current, and it is the
one with which the session began. -/
theorem frame_restored :
    (∀ fuel, (∀ s, Growing (execute fuel s)) ∧ (∀ e, Growing (evaluate fuel e)) ∧
      (∀ callee args line, Growing (apply (invoke fuel) callee args line)) ∧
      (∀ f args, Growing (invoke fuel f args)) ∧
      (∀ c args line, Growing (instantiate (invoke fuel) c args line)) ∧
      ∀ program (m : Machine), m.Grown (runProgram fuel program m).2) ∧
    ∀ s : Session, s.Reachable →
      s.machine.current = globalFrame ∧ globalFrame < s.machine.frames.size ∧
        (s.machine.frames.frame globalFrame).parent = none ∧
        ∀ fuel install tokens, (s.submit fuel install tokens).2.machine.current = globalFrame ∧
          s.machine.frames.Continue (s.submit fuel install tokens).2.machine.frames := by
  constructor
  · intro fuel
    have h := runs_grow fuel
    exact ⟨h.execute, h.evaluate, fun callee args _ => apply_growing h.invoke callee args, h.invoke,
      fun c args _ => instantiate_growing h.invoke c args, runProgram_grown fuel⟩
  · intro s hs
    refine ⟨hs.at_rest.1, hs.at_rest.2.1, hs.global_parent, fun fuel install tokens => ?_⟩
    obtain ⟨L, hgrown⟩ := Session.submit_grown fuel install tokens s
    exact ⟨hgrown.current.trans hs.at_rest.1, hgrown.frames⟩

/-- An error inside a loop and two blocks leads back to the global frame. -/
theorem frame_restored_nested_error :
    let body : Stmt OccurrenceId := .block [.print (.name .identifier ⟨⟨"a", 1⟩, 0⟩)]
    let r := (Session.initial none).submit 6 true
      (Scan.ofString "\x7b while (true) \x7b print a; \x7d \x7d").tokens
    r.1 = .ran [] (.failed ⟨.undefinedVariable "a" 1, .block [.while (.literal (.bool true)) body]⟩) ∧
      r.2.machine.current = globalFrame := by
  obtain ⟨-, -, -, hnext⟩ := frame_restored.2 _ (.initial none)
  refine ⟨?_, (hnext 6 true _).1⟩
  rw [Scan.ofString_eq_dispatch]
  cbv

end ScriptLang
