import ScriptLang.Proofs.Events.Moments
import ScriptLang.Proofs.Redeclaring.TracedDefinitions

/-!
# Class declarations

A class declaration takes its name, makes the class, and puts it under the name.  Either it fails and nothing has
changed, or there is one name more in the current frame.

* `HoldsLast`, `DeclaredAs` — the class that a declaration makes;
* `DeclaresClass` — all that can come of a declaration;
* `declareBody_taken`, `finishClass_ok` — the three steps of a declaration;
* `Machine.Reachable.class_declared` — the theorem.
-/

namespace ScriptLang

open Frames Eval
open Observer (events)

variable {α : Type} {fs fs' fs'' : Frames} {m : Machine} {name : Ident} {line : Nat} {v w : Value} {slot : Slot}
  {parent : Option (Occurrence OccurrenceId)} {sup : Option Class} {cls : Class}
  {decls methods statics : List (FunctionDecl (Stmt OccurrenceId))}

/-- The table has under each name the last of the declarations of that name, as a function that was made in the current
frame and is none of those there were. -/
structure HoldsLast (m : Machine) (decls : List (FunctionDecl (Stmt OccurrenceId))) (t : Table Closure) : Prop where
  last : ∀ text, (t.get? text).map (·.decl) = decls.reverse.find? (·.name.text = text)
  made : ∀ text f, t.get? text = some f → f.frame = m.current ∧ m.nextStamp ≤ f.stamp

/-- The class is what a declaration makes in the machine. -/
structure DeclaredAs (m : Machine) (name : Ident) (sup : Option Class)
    (methods statics : List (FunctionDecl (Stmt OccurrenceId))) (cls : Class) : Prop where
  name : cls.own.name = name.text
  stamp : cls.own.stamp = m.nextStamp
  superclass : cls.superclass? = sup
  methods : HoldsLast m methods cls.own.methods
  statics : HoldsLast m statics cls.own.statics

/-- The superclass that a declaration names, if it names one: its name stands for this class. -/
def NamesSuperclass (m : Machine) : Option (Occurrence OccurrenceId) → Option Class → Prop
  | none, sup => sup = none
  | some use, sup => ∃ c, lookUp use m = .ok (.ofClass c) m ∧ sup = some c

/-- What comes of a class declaration.  It fails if the name of the superclass is not found, if this is not the name of a
class, or if its own name is taken in the current frame, and leaves the machine as it was.  Otherwise it puts one class
under its name, which was free in both tables of the frame, and uses up the stamps of the class and its functions. -/
inductive DeclaresClass (name : Ident) (parent : Option (Occurrence OccurrenceId))
    (methods statics : List (FunctionDecl (Stmt OccurrenceId))) (m : Machine) :
    EStateM.Result Stop Machine Flow → Prop
  | undefined {use : Occurrence OccurrenceId} : parent = some use →
    lookUp use m = .error (.error (.undefinedVariable use.text use.line)) m →
      DeclaresClass name parent methods statics m (.error (.error (.undefinedVariable use.text use.line)) m)
  | noClass {use : Occurrence OccurrenceId} {v : Value} : parent = some use → lookUp use m = .ok v m →
    (∀ c, v ≠ .ofClass c) → DeclaresClass name parent methods statics m
      (.error (.error (.typeMismatch (.superclass name.text v.type) name.line)) m)
  | taken {sup : Option Class} : NamesSuperclass m parent sup →
    (m.frames.frame m.current).binds name.text = true → DeclaresClass name parent methods statics m
      (.error (.error (.identifierAlreadyDeclared name.text name.line)) m)
  | declared {sup : Option Class} {cls : Class} {fs : Frames} : NamesSuperclass m parent sup →
    (m.frames.frame m.current).binds name.text = false → DeclaredAs m name sup methods statics cls →
      Writes ⟨m.current, false, name.text⟩ (.ofClass cls) m.frames fs → DeclaresClass name parent methods statics m
        (.ok .normal { m with frames := fs, nextStamp := m.nextStamp + 1 + methods.length + statics.length })

/-! ### The class -/

/-- The class that a declaration makes when its name is taken. -/
def classMade (m : Machine) (name : Ident) (sup : Option Class)
    (methods statics : List (FunctionDecl (Stmt OccurrenceId))) : Class :=
  .extending sup ⟨m.nextStamp, name.text, closuresOf m.current (m.nextStamp + 1) methods,
    closuresOf m.current (m.nextStamp + 1 + methods.length) statics⟩

lemma superclass?_extending (sup : Option Class) (own : ClassBody) : (Class.extending sup own).superclass? = sup := by
  rcases sup with _ | ⟨parent, ancestors⟩ <;> rfl

lemma own_extending (sup : Option Class) (own : ClassBody) : (Class.extending sup own).own = own := by
  rcases sup with _ | _ <;> rfl

lemma closuresOf_last (m : Machine) {stamp : Stamp} (h : m.nextStamp ≤ stamp)
    (decls : List (FunctionDecl (Stmt OccurrenceId))) : HoldsLast m decls (closuresOf m.current stamp decls) := by
  refine ⟨fun text => ?_, fun text f hf => ?_⟩
  · have hdecls : decls.reverse = (decls.zipIdx stamp).reverse.map (·.1) := by
      rw [List.map_reverse, List.zipIdx_map_fst]
    rw [closuresOf, get?_ofEntries, ← List.map_reverse, List.find?_map, hdecls, List.find?_map]
    simp only [Option.map_map]
    rfl
  · obtain ⟨p, hp, heq⟩ := List.mem_map.1 (mem_of_ofEntries hf)
    cases heq
    exact ⟨rfl, Nat.le_trans h (List.le_snd_of_mem_zipIdx hp)⟩

lemma classMade_declared (m : Machine) (name : Ident) (sup : Option Class)
    (methods statics : List (FunctionDecl (Stmt OccurrenceId))) :
    DeclaredAs m name sup methods statics (classMade m name sup methods statics) := by
  refine ⟨?_, ?_, superclass?_extending sup _, ?_, ?_⟩ <;> rw [classMade, own_extending]
  · exact closuresOf_last m (Nat.le_succ _) methods
  · exact closuresOf_last m (Nat.le_trans (Nat.le_succ _) (Nat.le_add_right _ _)) statics

/-! ### The steps -/

/-- Two values put into one slot after each other are the second alone. -/
lemma Writes.again (h : Writes slot v fs fs') (h' : Writes slot w fs' fs'') : Writes slot w fs fs'' :=
  ⟨h'.size.trans h.size, fun i => (h'.parent i).trans (h.parent i), h'.written,
    fun other hne => (h'.others other hne).trans (h.others other hne)⟩

lemma define_taken {constant : Bool} (h : (m.frames.frame m.current).binds name.text = true) :
    Eval.define name v constant m = .error (.error (.identifierAlreadyDeclared name.text name.line)) m := by
  rcases define_cases name v constant m with ⟨f', hf, -⟩ | ⟨-, herror⟩
  · rw [(frame_define hf).1] at h
    cases h
  · exact herror

lemma define_free (v : Value) (constant : Bool) (h : (m.frames.frame m.current).binds name.text = false)
    (hm : m.current < m.frames.size) : ∃ fs, Eval.define name v constant m = .ok () { m with frames := fs } ∧
      Writes ⟨m.current, constant, name.text⟩ v m.frames fs := by
  rcases define_cases name v constant m with ⟨f', hf, hok⟩ | ⟨hbinds, -⟩
  · exact ⟨_, hok, writes_update hm (frame_define hf).2⟩
  · rw [hbinds] at h
    cases h

/-- **The last step does not fail**: under a name that is a variable of the current frame the class is put. -/
lemma finishClass_ok (sup : Option Class) (methods statics : List (FunctionDecl (Stmt OccurrenceId)))
    (hvar : (m.frames.at ⟨m.current, false, name.text⟩).isSome) (hconst : m.frames.at ⟨m.current, true, name.text⟩ = none)
    (hm : m.current < m.frames.size) :
    ∃ fs, finishClass name sup methods statics m =
        .ok () { m with frames := fs, nextStamp := m.nextStamp + 1 + methods.length + statics.length } ∧
      Writes ⟨m.current, false, name.text⟩ (.ofClass (classMade m name sup methods statics)) m.frames fs := by
  have hstamp : newStamp m = .ok m.nextStamp { m with nextStamp := m.nextStamp + 1 } := rfl
  have hassigned := frame_assign_ok (v := .ofClass (classMade m name sup methods statics)) hvar
    (congrArg Option.isSome hconst)
  refine ⟨_, ?_, writes_update hm putEntry_mutable⟩
  unfold finishClass
  rw [Traced.bind_ok hstamp, Traced.bind_ok (newClosures_eq methods _), Traced.bind_ok (newClosures_eq statics _),
    Traced.bind_get]
  exact change_of_ok (Frames.assignAt m.current 0 name.text _) (update_of_ok hassigned)

lemma declareBody_taken (h : (m.frames.frame m.current).binds name.text = true) :
    declareBody name sup methods statics m = .error (.error (.identifierAlreadyDeclared name.text name.line)) m :=
  Traced.bind_error (define_taken h)

/-- With its name free, a class is declared. -/
lemma declareBody_free (sup : Option Class) (methods statics : List (FunctionDecl (Stmt OccurrenceId)))
    (h : (m.frames.frame m.current).binds name.text = false) (hm : m.current < m.frames.size) :
    ∃ fs, declareBody name sup methods statics m =
        .ok () { m with frames := fs, nextStamp := m.nextStamp + 1 + methods.length + statics.length } ∧
      Writes ⟨m.current, false, name.text⟩ (.ofClass (classMade m name sup methods statics)) m.frames fs := by
  obtain ⟨fs, hdefine, hwrites⟩ := define_free .null false h hm
  have hconst : fs.at ⟨m.current, true, name.text⟩ = none := by
    rw [hwrites.others _ (by simp)]
    exact binds_eq_false h true
  obtain ⟨fs', hfinish, hwrites'⟩ := finishClass_ok (m := { m with frames := fs }) sup methods statics
    (by rw [hwrites.written]; rfl) hconst (by rw [hwrites.size]; exact hm)
  exact ⟨fs', (Traced.bind_ok hdefine).trans hfinish, hwrites.again hwrites'⟩

/-- The superclass is found, or its name stands for nothing or for something else. -/
lemma superclass_cases (name : Ident) (parent : Option (Occurrence OccurrenceId)) (m : Machine) :
    (∃ sup, NamesSuperclass m parent sup ∧ superclass name parent m = .ok sup m) ∨
    (∃ use, parent = some use ∧ lookUp use m = .error (.error (.undefinedVariable use.text use.line)) m ∧
      superclass name parent m = .error (.error (.undefinedVariable use.text use.line)) m) ∨
    ∃ use v, parent = some use ∧ lookUp use m = .ok v m ∧ (∀ c, v ≠ .ofClass c) ∧
      superclass name parent m = .error (.error (.typeMismatch (.superclass name.text v.type) name.line)) m := by
  cases parent with
  | none => exact .inl ⟨none, rfl, rfl⟩
  | some use =>
    rcases lookUpAs_cases use use.text m with ⟨v, hv⟩ | herror
    · have hbind : superclass name (some use) m = _ := Traced.bind_ok hv
      cases v with
      | ofClass c => exact .inl ⟨some c, ⟨c, hv, rfl⟩, hbind⟩
      | _ => exact .inr (.inr ⟨use, _, rfl, hv, nofun, hbind⟩)
    · exact .inr (.inl ⟨use, rfl, herror, Traced.bind_error herror⟩)

/-! ### Declarations -/

/-- What can come of a class declaration where the current frame is there. -/
lemma execute_classDecl (fuel : Nat) (name : Ident) (parent : Option (Occurrence OccurrenceId))
    (methods statics : List (FunctionDecl (Stmt OccurrenceId))) (hm : m.current < m.frames.size) :
    DeclaresClass name parent methods statics m (execute (fuel + 1) (.classDecl name parent methods statics) m) := by
  have hrun : execute (fuel + 1) (.classDecl name parent methods statics) m =
      ((superclass name parent >>= fun sup => declareBody name sup methods statics) >>= fun _ => pure .normal) m := by
    rw [execute]
    rfl
  rw [hrun]
  rcases superclass_cases name parent m with ⟨sup, hsup, hok⟩ | ⟨use, rfl, hlook, herror⟩ |
    ⟨use, v, rfl, hlook, hv, herror⟩
  · rcases hbinds : (m.frames.frame m.current).binds name.text with _ | _
    · obtain ⟨fs, hbody, hwrites⟩ := declareBody_free sup methods statics hbinds hm
      rw [Traced.bind_ok ((Traced.bind_ok hok).trans hbody)]
      exact .declared hsup hbinds (classMade_declared m name sup methods statics) hwrites
    · rw [Traced.bind_error ((Traced.bind_ok hok).trans (declareBody_taken hbinds))]
      exact .taken hsup hbinds
  · rw [Traced.bind_error (Traced.bind_error herror)]
    exact .undefined rfl hlook
  · rw [Traced.bind_error (Traced.bind_error herror)]
    exact .noClass rfl hlook hv

/-- The events of a class declaration: it begins, and the name of the superclass is evaluated, both in the machine as it
was before. -/
lemma classDecl_trace (fuel : Nat) (name : Ident) (parent : Option (Occurrence OccurrenceId))
    (methods statics : List (FunctionDecl (Stmt OccurrenceId))) (m : Machine) :
    (executeE (fuel + 1) (.classDecl name parent methods statics)).trace m =
      (.executes (.classDecl name parent methods statics), m) ::
        parent.toList.map fun use => (.evaluates (.name .identifier use), m) := by
  rw [executeE, Observer.execute]
  refine congrArg (_ :: ·) ?_
  rw [events.declareClass_unmarked rfl]
  rw [Traced.trace_bind, Traced.follow_eq_nil fun _ _ => rfl, Traced.trace_bind, Traced.follow_eq_nil fun _ _ => rfl,
    List.append_nil, List.append_nil]
  cases parent <;> rfl

/-- **Class declarations are atomic.**  In every machine that an interpreter comes through, a class declaration fails for
one of three reasons and leaves the machine as it was; or it binds its name in the current frame to a class, which has
under each name the last declaration of that name and the superclass that was found, and nothing else has changed.
Nothing is run while the name has no class yet: the declaration has no events but its own and that of the name of the
superclass, both in front of the first change.  Once the name is taken, the declaration does not fail. -/
theorem Machine.Reachable.class_declared (h : m.Reachable) (fuel : Nat) (name : Ident)
    (parent : Option (Occurrence OccurrenceId)) (methods statics : List (FunctionDecl (Stmt OccurrenceId))) :
    DeclaresClass name parent methods statics m (execute (fuel + 1) (.classDecl name parent methods statics) m) ∧
    ((executeE (fuel + 1) (.classDecl name parent methods statics)).trace m =
      (.executes (.classDecl name parent methods statics), m) ::
        parent.toList.map fun use => (.evaluates (.name .identifier use), m)) ∧
    ∀ sup m', Eval.define name .null false m = .ok () m' →
      ∃ m'', finishClass name sup methods statics m' = .ok () m'' := by
  have hm := h.current_lt
  refine ⟨execute_classDecl fuel name parent methods statics hm, classDecl_trace fuel name parent methods statics m,
    fun sup m' hdefine => ?_⟩
  rcases hbinds : (m.frames.frame m.current).binds name.text with _ | _
  · obtain ⟨fs, hbody, -⟩ := declareBody_free sup methods statics hbinds hm
    have hfinish : declareBody name sup methods statics m = finishClass name sup methods statics m' :=
      Traced.bind_ok hdefine
    exact ⟨_, hfinish.symm.trans hbody⟩
  · rw [define_taken hbinds] at hdefine
    cases hdefine

/-- A class with two methods of one name: the second counts. -/
theorem class_declared_twice :
    (Machine.initial none).Reachable ∧
      ∃ cls fs, execute 1 (.classDecl ⟨"A", 1⟩ none [⟨⟨"f", 1⟩, [], []⟩, ⟨⟨"f", 2⟩, [⟨"x", 2⟩], []⟩] [])
          (Machine.initial none) = .ok .normal { Machine.initial none with frames := fs, nextStamp := 3 } ∧
        Writes ⟨globalFrame, false, "A"⟩ (.ofClass cls) (Machine.initial none).frames fs ∧
          (cls.own.methods.get? "f").map (·.decl) = some ⟨⟨"f", 2⟩, [⟨"x", 2⟩], []⟩ := by
  have hreachable : (Machine.initial none).Reachable := ⟨none, [], .inl rfl⟩
  refine ⟨hreachable, ?_⟩
  obtain ⟨hdeclares, -, -⟩ := hreachable.class_declared 0 ⟨"A", 1⟩ none
    [⟨⟨"f", 1⟩, [], []⟩, ⟨⟨"f", 2⟩, [⟨"x", 2⟩], []⟩] []
  generalize hr : execute 1 _ (Machine.initial none) = r at hdeclares ⊢
  cases hdeclares with
  | undefined hparent => cases hparent
  | noClass hparent => cases hparent
  | taken _ hbinds => cases hbinds
  | declared _ _ hcls hwrites => exact ⟨_, _, rfl, hwrites, hcls.methods.last "f"⟩

end ScriptLang
