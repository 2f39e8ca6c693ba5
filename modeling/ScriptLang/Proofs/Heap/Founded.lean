import ScriptLang.Proofs.Classes.Declaring
import ScriptLang.Proofs.Heap.Links
import ScriptLang.Proofs.Store.Related

/-!
# What refers to what was made before

Frames and classes refer to older frames and classes only, and values to such as there are.

* `Event.makes?`, `classesOf`, `made` — the classes that have been made in a run, in this order;
* `BuiltInOrder` — classes each of which extends one that was made before it;
* `Value.Within` — values that refer only to frames, classes and objects that are there;
* `HeapGrows` — nothing that was there is lost;
* `Machine.Founded` — all this for everything that a machine holds, and the changes of a machine that keep it.
-/

namespace ScriptLang

open Frames Eval

variable {past : History} {cs cs' cs'' : List Class} {c d : Class} {f : Closure} {o : Object} {v w : Value} {e : Event}
  {m m' m'' : Machine} {fs fs' : Frames} {i p : FrameId} {name : String}

/-! ### The classes that were made -/

/-- The class that a run leaves under a name of a frame, if it does not fail. -/
def classLeft? (i : FrameId) (name : String) : EStateM.Result Stop Machine Flow → Option Class
  | .ok _ m =>
    match (m.frames.frame i).get? name with
    | some (.ofClass c) => some c
    | _ => none
  | .error _ _ => none

/-- The class that is made with an event: that of a class declaration, which leaves it under its name in the current
frame. -/
def Event.makes? (m : Machine) : Event → Option Class
  | .executes (.classDecl name parent methods statics) =>
    classLeft? m.current name.text (execute 1 (.classDecl name parent methods statics) m)
  | _ => none

/-- The classes of all declarations that have begun and do not fail, in the order of these. -/
def classesOf (past : History) : List Class := past.filterMap fun p => p.1.makes? p.2

/-- The classes that have been made: a declaration that has only begun has not used up its stamps yet. -/
def made (past : History) (m : Machine) : List Class := (classesOf past).filter (·.own.stamp < m.nextStamp)

lemma classesOf_append (past : History) (e : Event) (m : Machine) :
    classesOf (past ++ [(e, m)]) = classesOf past ++ (e.makes? m).toList := by
  rw [classesOf, List.filterMap_append]
  rcases h : e.makes? m with _ | c <;> simp [classesOf, h]

/-- Where all classes have their stamps, all of them have been made. -/
lemma made_eq (h : ∀ c ∈ classesOf past, c.own.stamp < m.nextStamp) : made past m = classesOf past :=
  List.filter_eq_self.2 fun c hc => decide_eq_true (h c hc)

lemma makes?_of_ne {s : Stmt OccurrenceId}
    (h : ∀ name parent methods statics, s ≠ .classDecl name parent methods statics) :
    (Event.executes s).makes? m = none := by
  cases s with
  | classDecl name parent methods statics => exact absurd rfl (h name parent methods statics)
  | _ => rfl

/-- What a frame has after a value was put into one slot is what it had, or it is this value. -/
lemma Writes.holds {slot : Slot} (h : Writes slot v fs fs') (hw : (fs'.frame i).Holds name w) :
    (fs.frame i).Holds name w ∨ w = v := by
  have hentry : ∀ constant, (fs'.frame i).entry constant name = some w →
      (fs.frame i).entry constant name = some w ∨ w = v := fun constant hw => by
    by_cases hslot : (⟨i, constant, name⟩ : Slot) = slot
    · have hwritten : fs'.at ⟨i, constant, name⟩ = some v := hslot ▸ h.written
      exact .inr (Option.some.inj (hw.symm.trans hwritten))
    · exact .inl ((h.others _ hslot).symm.trans hw)
  rcases hw with hw | hw
  · exact (hentry false hw).imp_left .inl
  · exact (hentry true hw).imp_left .inr

/-- A value that was put under a free name is found there. -/
lemma get?_of_writes {constant : Bool} (h : Writes ⟨i, constant, name⟩ v fs fs')
    (hfree : (fs.frame i).binds name = false) : (fs'.frame i).get? name = some v := by
  have hwritten : (fs'.frame i).entry constant name = some v := h.written
  have hother : (fs'.frame i).entry (!constant) name = none :=
    (h.others ⟨i, !constant, name⟩ (by simp)).trans (binds_eq_false hfree _)
  unfold Frame.get?
  cases constant with
  | false =>
    rw [show (fs'.frame i).mutables.get? name = some v from hwritten]
    rfl
  | true =>
    rw [show (fs'.frame i).mutables.get? name = none from hother]
    exact hwritten

/-- A class declaration makes a class and puts it under its name, or it makes none and leaves the machine as it is. -/
lemma classDecl_makes (fuel : Nat) (ident : Ident) (parent : Option (Occurrence OccurrenceId))
    (methods statics : List (FunctionDecl (Stmt OccurrenceId))) (hm : m.current < m.frames.size) :
    (∃ stop, execute (fuel + 1) (.classDecl ident parent methods statics) m = .error stop m ∧
      (Event.executes (.classDecl ident parent methods statics)).makes? m = none) ∨
    ∃ sup c fs, NamesSuperclass m parent sup ∧ DeclaredAs m ident sup methods statics c ∧
      Writes ⟨m.current, false, ident.text⟩ (.ofClass c) m.frames fs ∧
      execute (fuel + 1) (.classDecl ident parent methods statics) m =
        .ok .normal { m with frames := fs, nextStamp := m.nextStamp + 1 + methods.length + statics.length } ∧
      (Event.executes (.classDecl ident parent methods statics)).makes? m = some c := by
  have hfuel : execute (fuel + 1) (.classDecl ident parent methods statics) m =
      execute 1 (.classDecl ident parent methods statics) m := by
    rw [execute, execute]
  have hmakes : (Event.executes (.classDecl ident parent methods statics)).makes? m =
      classLeft? m.current ident.text (execute 1 (.classDecl ident parent methods statics) m) := rfl
  have hdeclares := execute_classDecl 0 ident parent methods statics hm
  rw [hfuel, hmakes]
  generalize execute 1 (.classDecl ident parent methods statics) m = r at hdeclares
  cases hdeclares with
  | undefined hparent hlook => exact .inl ⟨_, rfl, rfl⟩
  | noClass hparent hlook hv => exact .inl ⟨_, rfl, rfl⟩
  | taken hsup hbinds => exact .inl ⟨_, rfl, rfl⟩
  | @declared sup c fs hsup hfree hdeclared hwrites =>
    refine .inr ⟨sup, c, fs, hsup, hdeclared, hwrites, rfl, ?_⟩
    simp only [classLeft?, get?_of_writes hwrites hfree]

/-- A class is made with the next stamp. -/
lemma makes?_stamp (hm : m.current < m.frames.size) (h : e.makes? m = some c) : c.own.stamp = m.nextStamp := by
  cases e with
  | executes s =>
    cases s with
    | classDecl name parent methods statics =>
      rcases classDecl_makes 0 name parent methods statics hm with ⟨-, -, hnone⟩ | ⟨sup, d, fs, -, hd, -, -, hsome⟩
      · rw [hnone] at h
        cases h
      · rw [hsome] at h
        cases h
        exact hd.stamp
    | _ => cases h
  | _ => cases h

/-- With the event of a declaration its class has not been made yet. -/
lemma made_event (hm : m.current < m.frames.size) (h : ∀ c ∈ classesOf past, c.own.stamp < m.nextStamp) (e : Event) :
    made (past ++ [(e, m)]) m = classesOf past := by
  have hpending : ∀ c ∈ (e.makes? m).toList, ¬ decide (c.own.stamp < m.nextStamp) = true := fun c hc => by
    rw [makes?_stamp hm (Option.mem_toList.1 hc), decide_eq_true_iff]
    exact Nat.lt_irrefl _
  rw [made, classesOf_append, List.filter_append, List.filter_eq_nil_iff.2 hpending, List.append_nil]
  exact made_eq h

/-! ### Classes in the order in which they were made -/

/-- The classes stand in the order in which they were made: the stamps grow, and what a class extends stands before
it. -/
structure BuiltInOrder (cs : List Class) : Prop where
  stamps : cs.Pairwise fun c d => c.own.stamp < d.own.stamp
  superclass : ∀ (i : Nat) c d, cs[i]? = some c → c.superclass? = some d → ∃ j < i, cs[j]? = some d

namespace BuiltInOrder

lemma nil : BuiltInOrder [] := ⟨.nil, fun _ _ _ h => by cases h⟩

/-- One more class is made. -/
lemma snoc (h : BuiltInOrder cs) (hstamp : ∀ d ∈ cs, d.own.stamp < c.own.stamp)
    (hsuper : ∀ d, c.superclass? = some d → d ∈ cs) : BuiltInOrder (cs ++ [c]) := by
  refine ⟨List.pairwise_append.2 ⟨h.stamps, List.pairwise_singleton _ _, fun d hd e he => ?_⟩, fun i d e hd he => ?_⟩
  · obtain rfl := List.mem_singleton.1 he
    exact hstamp d hd
  rcases Nat.lt_or_ge i cs.length with hi | hi
  · rw [List.getElem?_append_left hi] at hd
    obtain ⟨j, hj, hget⟩ := h.superclass i d e hd he
    exact ⟨j, hj, (List.getElem?_append_left (Nat.lt_trans hj hi)).trans hget⟩
  · rw [List.getElem?_append_right hi] at hd
    obtain rfl := List.mem_singleton.1 (List.mem_of_getElem? hd)
    obtain ⟨j, hj⟩ := List.mem_iff_getElem?.1 (hsuper e he)
    have hlt := (List.getElem?_eq_some_iff.1 hj).1
    exact ⟨j, Nat.lt_of_lt_of_le hlt hi, (List.getElem?_append_left hlt).trans hj⟩

lemma mem_superclass (h : BuiltInOrder cs) (hc : c ∈ cs) (hd : c.superclass? = some d) : d ∈ cs := by
  obtain ⟨i, hi⟩ := List.mem_iff_getElem?.1 hc
  obtain ⟨j, -, hj⟩ := h.superclass i c d hi hd
  exact List.mem_of_getElem? hj

/-- All classes that a class descends from are among them. -/
lemma mem_lineage (h : BuiltInOrder cs) (hc : c ∈ cs) : ∀ d ∈ c.lineage, d ∈ cs := by
  induction c using Class.descend with
  | root c hroot =>
    rw [Class.lineage_of_superclass?_none hroot]
    exact List.forall_mem_singleton.2 hc
  | sub c p hp ih =>
    rw [lineage_superclass hp]
    exact List.forall_mem_cons.2 ⟨hc, ih (h.mem_superclass hc hp)⟩

end BuiltInOrder

/-! ### Values -/

/-- The function was declared in a frame that is there. -/
def Closure.Within (m : Machine) (f : Closure) : Prop := f.frame < m.frames.size

/-- The methods and static methods of a class declaration were declared in frames that are there. -/
structure ClassBody.Within (m : Machine) (b : ClassBody) : Prop where
  methods : ∀ name f, b.methods.get? name = some f → f.Within m
  statics : ∀ name f, b.statics.get? name = some f → f.Within m

/-- The instance has its properties in the store, and its class is one of those given. -/
structure Object.Within (cs : List Class) (m : Machine) (o : Object) : Prop where
  properties : o.id < m.objects.size
  cls : o.cls ∈ cs

/-- What a value refers to is there: the frame of a function, a class, and the properties and the class of an
instance. -/
def Value.Within (cs : List Class) (m : Machine) : Value → Prop
  | .closure f => f.Within m
  | .ofClass c => c ∈ cs
  | .object o => o.Within cs m
  | _ => True

/-- No class was lost, and no frame and no object. -/
structure HeapGrows (cs : List Class) (m : Machine) (cs' : List Class) (m' : Machine) : Prop where
  classes : cs ⊆ cs'
  frames : m.frames.size ≤ m'.frames.size
  objects : m.objects.size ≤ m'.objects.size

namespace HeapGrows

lemma refl : HeapGrows cs m cs m := ⟨List.Subset.refl _, Nat.le_refl _, Nat.le_refl _⟩

lemma trans (h : HeapGrows cs m cs' m') (h' : HeapGrows cs' m' cs'' m'') : HeapGrows cs m cs'' m'' :=
  ⟨List.Subset.trans h.classes h'.classes, Nat.le_trans h.frames h'.frames, Nat.le_trans h.objects h'.objects⟩

lemma closure (h : HeapGrows cs m cs' m') (hf : f.Within m) : f.Within m' := Nat.lt_of_lt_of_le hf h.frames

lemma object (h : HeapGrows cs m cs' m') (ho : o.Within cs m) : o.Within cs' m' :=
  ⟨Nat.lt_of_lt_of_le ho.properties h.objects, h.classes ho.cls⟩

lemma value (h : HeapGrows cs m cs' m') (hv : v.Within cs m) : v.Within cs' m' := by
  cases v with
  | closure f => exact h.closure hv
  | ofClass c => exact h.classes hv
  | object o => exact h.object hv
  | _ => trivial

end HeapGrows

lemma ClassBody.Within.grows {b : ClassBody} (hb : b.Within m) (h : HeapGrows cs m cs' m') : b.Within m' :=
  ⟨fun name f hf => h.closure (hb.methods name f hf), fun name f hf => h.closure (hb.statics name f hf)⟩

lemma Value.IsPrimitive.within (h : v.IsPrimitive) : v.Within cs m := by
  cases v with
  | closure | ofClass | object => exact h.elim
  | _ => trivial

/-! ### Machines -/

/-- Everything that a machine holds refers to what is there: its frames and the classes, which were made in this order,
refer to older ones only; the current frame is there; and so is all that the methods of the classes and the values in
frames and objects refer to. -/
structure Machine.Founded (cs : List Class) (m : Machine) : Prop where
  frames : m.frames.Founded
  current : m.current < m.frames.size
  classes : BuiltInOrder cs
  stamps : ∀ c ∈ cs, c.own.stamp < m.nextStamp
  members : ∀ c ∈ cs, c.own.Within m
  bindings : ∀ i name v, (m.frames.frame i).Holds name v → v.Within cs m
  properties : ∀ id name v, (m.objects.getD id []).get? name = some v → v.Within cs m

lemma initial_founded (limit : Option Nat) : (Machine.initial limit).Founded [] := by
  refine ⟨.initial limit, Nat.one_pos, .nil, List.forall_mem_nil _, List.forall_mem_nil _, fun i name v h => ?_,
    fun id name v h => ?_⟩
  · rw [frame_initial] at h
    rcases h with h | h <;> cases h
  · cases h

namespace Machine.Founded

/-- Another machine in which nothing is lost and each value was there before or refers to what was there. -/
lemma renew (h : m.Founded cs) (hgrows : HeapGrows cs m cs m') (hfs : m'.frames.Founded)
    (hcurrent : m'.current < m'.frames.size) (hstamp : m.nextStamp ≤ m'.nextStamp)
    (hbindings : ∀ i name v, (m'.frames.frame i).Holds name v → (m.frames.frame i).Holds name v ∨ v.Within cs m)
    (hproperties : ∀ id name v, (m'.objects.getD id []).get? name = some v →
      (m.objects.getD id []).get? name = some v ∨ v.Within cs m) : m'.Founded cs := by
  refine ⟨hfs, hcurrent, h.classes, fun c hc => Nat.lt_of_lt_of_le (h.stamps c hc) hstamp,
    fun c hc => (h.members c hc).grows hgrows, fun i name v hv => hgrows.value ?_, fun id name v hv => hgrows.value ?_⟩
  · rcases hbindings i name v hv with hv | hv
    · exact h.bindings i name v hv
    · exact hv
  · rcases hproperties id name v hv with hv | hv
    · exact h.properties id name v hv
    · exact hv

/-- Stamps are used up, and the output, the table or the current frame is another one. -/
lemma restate (h : m.Founded cs) (hframes : m'.frames = m.frames) (hobjects : m'.objects = m.objects)
    (hstamp : m.nextStamp ≤ m'.nextStamp) (hcurrent : m'.current < m.frames.size) : m'.Founded cs := by
  have hgrows : HeapGrows cs m cs m' := ⟨List.Subset.refl _, hframes ▸ Nat.le_refl _, hobjects ▸ Nat.le_refl _⟩
  exact h.renew hgrows (hframes ▸ h.frames) (hframes ▸ hcurrent) hstamp (fun i name v hv => .inl (hframes ▸ hv))
    fun id name v hv => .inl (hobjects ▸ hv)

/-- A value is put into a frame. -/
lemma put (h : m.Founded cs) (hput : PutAt i v m.frames fs) (hv : v.Within cs m) :
    Machine.Founded cs { m with frames := fs } := by
  have hgrows : HeapGrows cs m cs { m with frames := fs } := ⟨List.Subset.refl _, hput.grows.size, Nat.le_refl _⟩
  have hfs : fs.Founded := by
    obtain ⟨f', hf, rfl⟩ := hput
    refine h.frames.of_links Array.size_setIfInBounds fun j => ?_
    rw [link, link, frame_set]
    split
    · next hij => rw [← hij.1, hf.parent]
    · rfl
  refine h.renew hgrows hfs (Nat.lt_of_lt_of_le h.current hgrows.frames) (Nat.le_refl _) (fun j name w hw => ?_)
    fun id name w hw => .inl hw
  rcases hput.holds hw with hw | rfl
  · exact .inl hw
  · exact .inr hv

/-- A frame is added inside of one that is there. -/
lemma add (h : m.Founded cs) (frame : Frame) (hparent : frame.parent = some p) (hp : p < m.frames.size)
    (hframe : ∀ name v, frame.Holds name v → v.Within cs m) :
    Machine.Founded cs { m with frames := m.frames.add frame } := by
  have hgrows : HeapGrows cs m cs { m with frames := m.frames.add frame } :=
    ⟨List.Subset.refl _, (grows_add frame).size, Nat.le_refl _⟩
  refine h.renew hgrows (h.frames.add hparent hp) (Nat.lt_of_lt_of_le h.current hgrows.frames) (Nat.le_refl _)
    (fun i name v hv => ?_) fun id name v hv => .inl hv
  rw [frame_add] at hv
  split at hv
  · exact .inr (hframe name v hv)
  · exact .inl hv

/-- An object is made. -/
lemma push (h : m.Founded cs) : Machine.Founded cs { m with objects := m.objects.push [] } := by
  have hsize : m.objects.size ≤ (m.objects.push []).size := by
    rw [Array.size_push]
    exact Nat.le_succ _
  refine h.renew ⟨List.Subset.refl _, Nat.le_refl _, hsize⟩ h.frames h.current (Nat.le_refl _)
    (fun i name v hv => .inl hv) fun id name v hv => .inl ?_
  rwa [getD_push_nil] at hv

/-- A property of an object is set. -/
lemma setProperty (h : m.Founded cs) (hv : v.Within cs m) (id : ObjectId) :
    Machine.Founded cs { m with objects := m.objects.modify id fun t => t.put name v } := by
  refine h.renew ⟨List.Subset.refl _, Nat.le_refl _, Nat.le_of_eq Array.size_modify.symm⟩ h.frames h.current
    (Nat.le_refl _) (fun i other w hw => .inl hw) fun id' other w hw => ?_
  rcases get?_modify_put hw with hw | rfl
  · exact .inl hw
  · exact .inr hv

/-- **A class is made**, and put into a frame. -/
lemma declare (h : m.Founded cs) {ident : Ident} {sup : Option Class}
    {methods statics : List (FunctionDecl (Stmt OccurrenceId))} {slot : Slot} {stamp : Stamp}
    (hc : DeclaredAs m ident sup methods statics c) (hsup : ∀ d, sup = some d → d ∈ cs)
    (hwrites : Writes slot (.ofClass c) m.frames fs) (hstamp : m.nextStamp < stamp) :
    Machine.Founded (cs ++ [c]) { m with frames := fs, nextStamp := stamp } := by
  have hgrows : HeapGrows cs m (cs ++ [c]) { m with frames := fs, nextStamp := stamp } :=
    ⟨List.subset_append_left .., Nat.le_of_eq hwrites.size.symm, Nat.le_refl _⟩
  refine ⟨h.frames.of_links hwrites.size hwrites.parent, Nat.lt_of_lt_of_le h.current hgrows.frames, ?_, ?_, ?_,
    fun i name v hv => ?_, fun id name v hv => hgrows.value (h.properties id name v hv)⟩
  · exact h.classes.snoc (fun d hd => hc.stamp ▸ h.stamps d hd) fun d hd => hsup d (hc.superclass.symm.trans hd)
  · refine List.forall_mem_append.2 ⟨fun d hd => Nat.lt_trans (h.stamps d hd) hstamp, List.forall_mem_singleton.2 ?_⟩
    exact hc.stamp ▸ hstamp
  · refine List.forall_mem_append.2 ⟨fun d hd => ?_, List.forall_mem_singleton.2 ?_⟩
    · exact (h.members d hd).grows hgrows
    · have hframe : ∀ f : Closure, f.frame = m.current → f.Within m := fun f hf => by
        rw [Closure.Within, hf]
        exact h.current
      exact ⟨fun name f hf => hgrows.closure (hframe f (hc.methods.made name f hf).1),
        fun name f hf => hgrows.closure (hframe f (hc.statics.made name f hf).1)⟩
  · rcases hwrites.holds hv with hv | rfl
    · exact hgrows.value (h.bindings i name v hv)
    · exact List.mem_append_right cs (List.mem_singleton.2 rfl)

end Machine.Founded

/-! ### What is found -/

namespace Machine.Founded

lemma lookUpAs (h : m.Founded cs) {use : Occurrence OccurrenceId} (hv : lookUpAs use name m = .ok v m') :
    v.Within cs m := by
  obtain ⟨j, hj⟩ := lookUpAs_holds hv
  exact h.bindings j name v hj

lemma findMethod? (h : m.Founded cs) (hc : c ∈ cs) (hf : c.findMethod? name = some (d, f)) : d ∈ cs ∧ f.Within m := by
  have hfinds := Class.findMethod?_finds hf
  have hmem := h.classes.mem_lineage hc d hfinds.mem
  exact ⟨hmem, (h.members d hmem).methods name f hfinds.declares⟩

lemma findStatic? (h : m.Founded cs) (hc : c ∈ cs) (hf : c.findStatic? name = some f) : f.Within m := by
  obtain ⟨d, hd, hget⟩ := List.exists_of_findSome?_eq_some hf
  exact (h.members d (h.classes.mem_lineage hc d hd)).statics name f hget

end Machine.Founded

lemma empty_within {parent : Option FrameId} (name : String) (v : Value) (h : (Frame.empty parent).Holds name v) :
    v.Within cs m := by
  rcases h with h | h <;> cases h

lemma receiverFrame_within (h : BuiltInOrder cs) (hc : c ∈ cs) (ho : o.Within cs m) (name : String) (v : Value)
    (hv : (receiverFrame f c o).Holds name v) : v.Within cs m := by
  rcases receiverFrame_holds hv with rfl | ⟨d, hd, rfl⟩
  · exact ho
  · exact h.mem_superclass hc hd

end ScriptLang
