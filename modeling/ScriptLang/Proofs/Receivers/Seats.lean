import ScriptLang.Proofs.Events.TracedEvents
import ScriptLang.Proofs.Frames.Operations
import ScriptLang.Proofs.Places.Reserved
import ScriptLang.Proofs.Redeclaring.MadeCode

/-!
# Code in its place

The frames around running code stand for the scopes around its place, one for each.  The frame for the scope around a
method is one that a binding has made: it has the instance under `this`, and under `super` the superclass of the class
that declares the method.

* `Retains` — frames have changed, but not what they have under the reserved names;
* `Received`, `Seated` — a frame that a binding has made, and a row of frames for the scopes around a place;
* `Closure.Seated`, `Class.Seated`, `Value.Seated` — functions whose nodes are known and whose frames stand for the
  scopes around them;
* `Machine.Seated` — everything that a machine holds is of this kind, kept by the changes of a machine.
-/

namespace ScriptLang

open Frames Eval

/-- The nodes of programs, with their places. -/
abbrev PlacedNodes := List (Node OccurrenceId × Place OccurrenceId)

variable {N N' : PlacedNodes} {past past' : History} {fs fs' fs'' : Frames} {i : FrameId} {m : Machine}
  {c d owner : Class} {f : Closure} {o : Object} {v w : Value} {inSubclass constant : Bool} {name : String}
  {kinds : List (ScopeKind OccurrenceId)} {kind : ScopeKind OccurrenceId} {p : Place OccurrenceId}

/-! ### Reserved names in frames -/

/-- Frames were added and names bound, and the frames there were have under the reserved names what they had. -/
structure Retains (fs fs' : Frames) : Prop extends Grows fs fs' where
  reserved : ∀ i < fs.size, ∀ name, IsReserved name → (fs'.frame i).get? name = (fs.frame i).get? name

lemma Retains.refl : Retains fs fs := ⟨.refl, fun _ _ _ _ => rfl⟩

lemma Retains.trans (h : Retains fs fs') (h' : Retains fs' fs'') : Retains fs fs'' :=
  ⟨h.toGrows.trans h'.toGrows, fun i hi name hname =>
    (h'.reserved i (Nat.lt_of_lt_of_le hi h.size) name hname).trans (h.reserved i hi name hname)⟩

lemma retains_add (frame : Frame) : Retains fs (fs.add frame) :=
  ⟨grows_add frame, fun i hi name _ => by rw [frame_add, if_neg (Nat.ne_of_lt hi)]⟩

lemma Frame.PutEntry.get?_of_ne {f f' : Frame} {other : String} (h : f.PutEntry constant name v f')
    (hne : name ≠ other) : f'.get? other = f.get? other := by
  have hentry : ∀ k, f'.entry k other = f.entry k other := fun k => by rw [h.entry, if_neg fun hk => hne hk.2]
  exact congrArg₂ Option.or (hentry false) (hentry true)

lemma PutAt.retains {f' : Frame} (hput : PutAt i v fs (fs.setIfInBounds i f'))
    (hentry : (fs.frame i).PutEntry constant name v f') (hname : ¬ IsReserved name) :
    Retains fs (fs.setIfInBounds i f') := by
  refine ⟨hput.grows, fun j _ other hother => ?_⟩
  rw [frame_set]
  split
  · next hij =>
    rw [← hij.1]
    exact hentry.get?_of_ne fun heq => hname (heq ▸ hother)
  · rfl

/-- A change of frames that puts a value under a name that is not reserved. -/
structure PutsPlainly (v : Value) (fs fs' : Frames) : Prop where
  put : ∃ i, PutAt i v fs fs'
  retains : Retains fs fs'

lemma define_putsPlainly (hname : ¬ IsReserved name) (h : Frames.define i name v constant fs = .ok () fs') :
    PutsPlainly v fs fs' := by
  obtain ⟨f', hf, rfl⟩ := update_ok h
  obtain ⟨hput, -⟩ := define_putAt h
  exact ⟨⟨i, hput⟩, hput.retains (frame_define hf).2 hname⟩

lemma update_assign_putsPlainly (hname : ¬ IsReserved name)
    (h : Frames.update i (fun f => f.assign name v) fs = .ok () fs') : PutsPlainly v fs fs' := by
  obtain ⟨f', hf, rfl⟩ := update_ok h
  have hput : PutAt i v fs (fs.setIfInBounds i f') := ⟨f', assign_puts hf, rfl⟩
  exact ⟨⟨i, hput⟩, hput.retains (frame_assign hf).2 hname⟩

lemma assign_putsPlainly (hname : ¬ IsReserved name) (h : Frames.assign i name v fs = .ok () fs') :
    PutsPlainly v fs fs' := by
  unfold Frames.assign at h
  split at h
  · cases h
  · exact update_assign_putsPlainly hname h

/-! ### Rows of frames -/

/-- The frame is the one that was made when the method `f` of the class `owner` was bound to the instance `o`: it has
the instance and the superclass of the class under the reserved names. -/
structure Received (past : History) (fs : Frames) (i : FrameId) (f : Closure) (owner : Class) (o : Object) : Prop where
  bound : ∃ m, (.binds f owner o, m) ∈ past ∧ m.frames.size = i
  this : (fs.frame i).get? "this" = some (.object o)
  super : (fs.frame i).get? "super" = owner.superclass?.map .ofClass

/-- A frame may stand for a scope: for the scope around a method if the method was bound then. -/
def ScopeKind.Seated (past : History) (fs : Frames) (i : FrameId) : ScopeKind OccurrenceId → Prop
  | .receiver decl inSubclass => ∃ f owner o, f.decl = decl ∧ owner.inherits = inSubclass ∧ Received past fs i f owner o
  | .block | .function | .static => True

/-- From a frame outwards stand frames for the scopes, and behind them the global frame. -/
def Seated (past : History) (fs : Frames) : List (ScopeKind OccurrenceId) → FrameId → Prop
  | [], i => i = globalFrame
  | kind :: outer, i => kind.Seated past fs i ∧ ∃ p, fs.parent? i = some p ∧ Seated past fs outer p

section Later

variable (hpast : past ⊆ past') (hfs : Retains fs fs')

include hpast hfs

lemma Received.later (hi : i < fs.size) (h : Received past fs i f owner o) : Received past' fs' i f owner o := by
  obtain ⟨m, hm, hsize⟩ := h.bound
  refine ⟨⟨m, hpast hm, hsize⟩, ?_, ?_⟩
  · rw [hfs.reserved i hi "this" (.inl rfl), h.this]
  · rw [hfs.reserved i hi "super" (.inr rfl), h.super]

lemma ScopeKind.Seated.later (hi : i < fs.size) (h : kind.Seated past fs i) : kind.Seated past' fs' i := by
  cases kind with
  | receiver decl inSubclass =>
    obtain ⟨f, owner, o, hf, howner, hreceived⟩ := h
    exact ⟨f, owner, o, hf, howner, hreceived.later hpast hfs hi⟩
  | _ => trivial

lemma Seated.later : ∀ {kinds : List (ScopeKind OccurrenceId)} {i : FrameId}, Seated past fs kinds i →
    Seated past' fs' kinds i
  | [], _, h => h
  | _ :: _, _, ⟨hkind, p, hp, houter⟩ =>
    ⟨hkind.later hpast hfs (lt_size_of_parent? hp), p, hfs.parent? hp, Seated.later houter⟩

end Later

lemma Seated.lt_size (h0 : 0 < fs.size) (h : Seated past fs kinds i) : i < fs.size := by
  cases kinds with
  | nil =>
    obtain rfl : i = globalFrame := h
    exact h0
  | cons kind outer =>
    obtain ⟨-, p, hp, -⟩ := h
    exact lt_size_of_parent? hp

/-- The frame a number of steps out stands for the scope at that place. -/
lemma Seated.ancestor : ∀ {kinds : List (ScopeKind OccurrenceId)} {i : FrameId} {k : Nat}, Seated past fs kinds i →
    kinds[k]? = some kind → kind.Seated past fs (fs.ancestor k i)
  | [], _, _, _, hk => by cases hk
  | _ :: _, _, 0, ⟨hkind, _⟩, hk => by
    cases hk
    exact hkind
  | _ :: _, _, k + 1, ⟨_, p, hp, houter⟩, hk => by
    rw [Frames.ancestor, hp]
    exact Seated.ancestor houter hk

/-- A new frame stands for one more scope. -/
lemma Seated.add {frame : Frame} (h : Seated past fs kinds i) (h0 : 0 < fs.size) (hparent : frame.parent = some i)
    (hkind : kind.Seated past (fs.add frame) fs.size) : Seated past (fs.add frame) (kind :: kinds) fs.size :=
  ⟨hkind, i, parent?_add hparent (h.lt_size h0), h.later (List.Subset.refl _) (retains_add frame)⟩

/-- The frame that a binding makes. -/
lemma received_add {m : Machine} (hm : (.binds f owner o, m) ∈ past) :
    Received past (m.frames.add (receiverFrame f owner o)) m.frames.size f owner o := by
  refine ⟨⟨m, hm, rfl⟩, ?_, ?_⟩
  · rw [frame_add, if_pos rfl]
    rfl
  · rw [frame_add, if_pos rfl]
    unfold receiverFrame Frame.get?
    cases owner.superclass? <;> rfl

/-! ### Functions and classes -/

/-- The nodes of a regular function are known, and its frame stands for the scopes around it. -/
def Closure.Seated (N : PlacedNodes) (past : History) (fs : Frames) (f : Closure) : Prop :=
  FunctionDecl.Regular f.decl ∧ ∃ (kind : ScopeKind OccurrenceId) (p : Place OccurrenceId), kind.isBody = true ∧
    FunctionDecl.nodes kind p f.decl ⊆ N ∧ ScriptLang.Seated past fs p.kinds f.frame

/-- The nodes of a regular method are known in one scope more than its frame stands for: that of the reserved
names. -/
def Closure.SeatedMethod (N : PlacedNodes) (past : History) (fs : Frames) (inSubclass : Bool) (f : Closure) : Prop :=
  FunctionDecl.Regular f.decl ∧ ∃ p : Place OccurrenceId,
    FunctionDecl.nodes .function (p.inside (.receiver f.decl inSubclass) (reservedFor inSubclass)) f.decl ⊆ N ∧
      ScriptLang.Seated past fs p.kinds f.frame

/-- The methods and static methods of a class declaration have known nodes and frames for their scopes. -/
structure ClassBody.Seated (N : PlacedNodes) (past : History) (fs : Frames) (inSubclass : Bool) (b : ClassBody) :
    Prop where
  methods : ∀ name f, b.methods.get? name = some f → f.SeatedMethod N past fs inSubclass
  statics : ∀ name f, b.statics.get? name = some f → f.Seated N past fs

/-- The same for a class and all classes that it descends from. -/
def Class.Seated (N : PlacedNodes) (past : History) (fs : Frames) (c : Class) : Prop :=
  ∀ d ∈ c.lineage, d.own.Seated N past fs d.inherits

/-- All code that a value carries has known nodes and frames for its scopes. -/
def Value.Seated (N : PlacedNodes) (past : History) (fs : Frames) : Value → Prop
  | .closure f => f.Seated N past fs
  | .ofClass c => c.Seated N past fs
  | .object o => o.cls.Seated N past fs
  | _ => True

section Later

variable (hN : N ⊆ N') (hpast : past ⊆ past') (hfs : Retains fs fs')

include hN hpast hfs

lemma Closure.Seated.later (h : f.Seated N past fs) : f.Seated N' past' fs' := by
  obtain ⟨hregular, kind, p, hkind, hnodes, hseated⟩ := h
  exact ⟨hregular, kind, p, hkind, List.Subset.trans hnodes hN, hseated.later hpast hfs⟩

lemma Closure.SeatedMethod.later (h : f.SeatedMethod N past fs inSubclass) : f.SeatedMethod N' past' fs' inSubclass := by
  obtain ⟨hregular, p, hnodes, hseated⟩ := h
  exact ⟨hregular, p, List.Subset.trans hnodes hN, hseated.later hpast hfs⟩

lemma Class.Seated.later (h : c.Seated N past fs) : c.Seated N' past' fs' := fun d hd =>
  ⟨fun name f hf => ((h d hd).methods name f hf).later hN hpast hfs,
    fun name f hf => ((h d hd).statics name f hf).later hN hpast hfs⟩

lemma Value.Seated.later (h : v.Seated N past fs) : v.Seated N' past' fs' := by
  cases v with
  | closure f => exact Closure.Seated.later hN hpast hfs h
  | ofClass c => exact Class.Seated.later hN hpast hfs h
  | object o => exact Class.Seated.later hN hpast hfs h
  | _ => trivial

end Later

lemma Class.Seated.of_mem (h : c.Seated N past fs) (hd : d ∈ c.lineage) : d.Seated N past fs :=
  fun e he => h e (lineage_of_mem hd e he)

lemma Class.Seated.superclass (h : c.Seated N past fs) (hd : c.superclass? = some d) : d.Seated N past fs := by
  refine h.of_mem ?_
  rw [lineage_superclass hd]
  exact List.mem_cons_of_mem _ (mem_lineage_self d)

lemma Class.Seated.extending {parent : Option Class} {body : ClassBody} (hp : ∀ p ∈ parent, p.Seated N past fs)
    (hb : body.Seated N past fs parent.isSome) : (Class.extending parent body).Seated N past fs := by
  cases parent with
  | none =>
    intro d hd
    obtain rfl := List.mem_singleton.1 hd
    exact hb
  | some p =>
    intro d hd
    rcases List.mem_cons.1 hd with rfl | hd
    · exact hb
    · exact hp p rfl d hd

lemma findMethod?_seated (h : c.Seated N past fs) (hf : c.findMethod? name = some (d, f)) :
    d.Seated N past fs ∧ f.SeatedMethod N past fs d.inherits := by
  obtain ⟨e, he, hget⟩ := List.exists_of_findSome?_eq_some hf
  obtain ⟨g, hg, hpair⟩ := Option.map_eq_some_iff.1 hget
  cases hpair
  exact ⟨h.of_mem he, (h _ he).methods name f hg⟩

lemma findStatic?_seated (h : c.Seated N past fs) (hf : c.findStatic? name = some f) : f.Seated N past fs := by
  obtain ⟨e, he, hget⟩ := List.exists_of_findSome?_eq_some hf
  exact (h e he).statics name f hget

/-! ### Values computed -/

lemma Value.IsPrimitive.seated (h : v.IsPrimitive) : v.Seated N past fs := by
  cases v with
  | closure | ofClass | object => exact h.elim
  | _ => trivial

/-! ### Machines -/

/-- All code that a machine holds has known nodes and frames for its scopes; and there is a global frame. -/
structure Machine.Seated (N : PlacedNodes) (past : History) (m : Machine) : Prop where
  size : 0 < m.frames.size
  frames : ∀ i name v, (m.frames.frame i).Holds name v → v.Seated N past m.frames
  objects : ∀ id name v, (m.objects.getD id []).get? name = some v → v.Seated N past m.frames

lemma initial_seated (limit : Option Nat) : (Machine.initial limit).Seated N past := by
  refine ⟨Nat.one_pos, fun i name v h => ?_, fun id name v h => ?_⟩
  · rw [frame_initial] at h
    rcases h with h | h <;> cases h
  · cases h

namespace Machine.Seated

lemma later (hN : N ⊆ N') (hpast : past ⊆ past') (h : m.Seated N past) : m.Seated N' past' :=
  ⟨h.size, fun i name v hv => (h.frames i name v hv).later hN hpast .refl,
    fun id name v hv => (h.objects id name v hv).later hN hpast .refl⟩

/-- Other frames, each of whose values was there before or has its code in its place. -/
lemma reframe (h : m.Seated N past) (hfs : Retains m.frames fs')
    (hnew : ∀ i name v, (fs'.frame i).Holds name v → (m.frames.frame i).Holds name v ∨ v.Seated N past m.frames) :
    Machine.Seated N past { m with frames := fs' } := by
  have hlater : ∀ {v : Value}, v.Seated N past m.frames → v.Seated N past fs' := fun hv =>
    hv.later (List.Subset.refl _) (List.Subset.refl _) hfs
  refine ⟨Nat.lt_of_lt_of_le h.size hfs.size, fun i name v hv => ?_, fun id name v hv => ?_⟩
  · rcases hnew i name v hv with hv | hv
    · exact hlater (h.frames i name v hv)
    · exact hlater hv
  · exact hlater (h.objects id name v hv)

/-- A value is put into a frame under a name that is not reserved. -/
lemma change (h : m.Seated N past) (hput : PutsPlainly v m.frames fs') (hv : v.Seated N past m.frames) :
    Machine.Seated N past { m with frames := fs' } := by
  obtain ⟨⟨i, hput⟩, hretains⟩ := hput
  refine h.reframe hretains fun j name w hw => ?_
  rcases hput.holds hw with hw | rfl
  · exact .inl hw
  · exact .inr hv

/-- A frame is added. -/
lemma add (h : m.Seated N past) {frame : Frame} (hframe : ∀ name v, frame.Holds name v → v.Seated N past m.frames) :
    Machine.Seated N past { m with frames := m.frames.add frame } := by
  refine h.reframe (retains_add frame) fun i name v hv => ?_
  rw [frame_add] at hv
  split at hv
  · exact .inr (hframe name v hv)
  · exact .inl hv

/-- An object is made. -/
lemma push (h : m.Seated N past) : Machine.Seated N past { m with objects := m.objects.push [] } := by
  refine ⟨h.size, h.frames, fun id name v hv => ?_⟩
  rw [getD_push_nil] at hv
  exact h.objects id name v hv

/-- A property of an object is set. -/
lemma setProperty (h : m.Seated N past) (hv : v.Seated N past m.frames) (o : ObjectId) :
    Machine.Seated N past { m with objects := m.objects.modify o fun t => t.put name v } := by
  refine ⟨h.size, h.frames, fun id other w hw => ?_⟩
  rcases get?_modify_put hw with hw | rfl
  · exact h.objects id other w hw
  · exact hv

end Machine.Seated

lemma empty_seated {parent : Option FrameId} (name : String) (v : Value) (h : (Frame.empty parent).Holds name v) :
    v.Seated N past fs := by
  rcases h with h | h <;> cases h

lemma receiverFrame_seated (howner : owner.Seated N past fs) (ho : o.cls.Seated N past fs) (name : String) (v : Value)
    (h : (receiverFrame f owner o).Holds name v) : v.Seated N past fs := by
  rcases receiverFrame_holds h with rfl | ⟨d, hd, rfl⟩
  · exact ho
  · exact howner.superclass hd

end ScriptLang
