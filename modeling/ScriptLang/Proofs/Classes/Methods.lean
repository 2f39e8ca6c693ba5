import ScriptLang.Proofs.Addressing.KnownCode
import ScriptLang.Proofs.Places.Reserved

/-!
# Methods of classes

A method is searched from a class on towards the outermost one, and the nearest class that declares it has it.  To
bind it to an instance makes one frame, in which the instance and the superclass of that class stand.

* `Class.Above` — the classes that a class descends from, without itself;
* `Class.Finds` — the nearest class that declares a method;
* `BoundTo`, `bindMethod_ok` — a method bound to an instance;
* `GivesMethod`, `GivesProperty` — what reading a property of an instance gives.
-/

namespace ScriptLang

open Eval

variable {c d e : Class} {f g : Closure} {o : Object} {m m' : Machine} {text : String} {name : Ident} {v : Value}

/-! ### Higher classes -/

/-- The class `d` is one that `c` descends from, and not `c` itself. -/
def Class.Above (d c : Class) : Prop := ∃ p, c.superclass? = some p ∧ d ∈ p.lineage

namespace Class

/-- What holds of a class without a superclass, and of every class if it holds of its superclass, holds of all
classes. -/
@[elab_as_elim]
lemma descend {motive : Class → Prop} (root : ∀ c, c.superclass? = none → motive c)
    (sub : ∀ c p, c.superclass? = some p → motive p → motive c) (c : Class) : motive c := by
  obtain ⟨own, ancestors⟩ := c
  induction ancestors generalizing own with
  | nil => exact root _ rfl
  | cons parent ancestors ih => exact sub _ _ rfl (ih parent)

lemma lineage_of_superclass?_none (h : c.superclass? = none) : c.lineage = [c] := by
  obtain ⟨own, _ | ⟨parent, ancestors⟩⟩ := c
  · rfl
  · cases h

lemma mem_lineage_iff : d ∈ c.lineage ↔ d = c ∨ d.Above c := by
  rcases hc : c.superclass? with _ | p
  · rw [lineage_of_superclass?_none hc, List.mem_singleton]
    refine (or_iff_left ?_).symm
    rintro ⟨p, hp, -⟩
    rw [hc] at hp
    cases hp
  · rw [lineage_superclass hc, List.mem_cons, Above]
    simp [hc]

lemma Above.mem (h : d.Above c) : d ∈ c.lineage := mem_lineage_iff.2 (.inr h)

lemma Above.of_mem (h : d.Above c) (he : e ∈ d.lineage) : e.Above c := by
  obtain ⟨p, hp, hd⟩ := h
  exact ⟨p, hp, lineage_of_mem hd e he⟩

lemma Above.trans (he : e.Above d) (hd : d.Above c) : e.Above c := hd.of_mem he.mem

lemma lineage_suffix (h : d ∈ c.lineage) : d.lineage <:+ c.lineage := by
  induction c using descend with
  | root c hc =>
    rw [lineage_of_superclass?_none hc, List.mem_singleton] at h
    exact h ▸ List.suffix_refl _
  | sub c p hp ih =>
    rw [lineage_superclass hp] at h
    rcases List.mem_cons.1 h with rfl | h
    · exact List.suffix_refl _
    · rw [lineage_superclass hp]
      exact (ih h).trans (List.suffix_cons _ _)

/-- A higher class has fewer classes above it. -/
lemma Above.length_lt (h : d.Above c) : d.lineage.length < c.lineage.length := by
  obtain ⟨p, hp, hd⟩ := h
  rw [lineage_superclass hp, List.length_cons]
  exact Nat.lt_succ_of_le (lineage_suffix hd).length_le

lemma not_above_self (c : Class) : ¬ c.Above c := fun h => Nat.lt_irrefl _ h.length_lt

/-- The nearest class stands first. -/
lemma pairwise_lineage (c : Class) : c.lineage.Pairwise fun d e => e.Above d := by
  induction c using descend with
  | root c hc =>
    rw [lineage_of_superclass?_none hc]
    exact List.pairwise_singleton _ _
  | sub c p hp ih =>
    rw [lineage_superclass hp]
    exact List.pairwise_cons.2 ⟨fun e he => ⟨p, hp, he⟩, ih⟩

/-! ### Searching for a method -/

/-- The nearest class of the lineage of `c` that declares a method under the name is `d`, and the method is `f`. -/
structure Finds (c : Class) (text : String) (d : Class) (f : Closure) : Prop where
  mem : d ∈ c.lineage
  declares : d.own.methods.get? text = some f
  nearest : ∀ e ∈ c.lineage, d.Above e → e.own.methods.get? text = none

/-- No class of the lineage declares a method under the name. -/
def Lacks (c : Class) (text : String) : Prop := ∀ d ∈ c.lineage, d.own.methods.get? text = none

lemma findMethod?_own (h : c.own.methods.get? text = some f) : c.findMethod? text = some (c, f) := by
  have hlineage : c.lineage = c :: c.lineage.tail := by
    obtain ⟨own, _ | ⟨parent, ancestors⟩⟩ := c <;> rfl
  rw [findMethod?, hlineage, List.findSome?_cons, h]
  rfl

lemma findMethod?_inherited (hp : c.superclass? = some d) (h : c.own.methods.get? text = none) :
    c.findMethod? text = d.findMethod? text := by
  rw [findMethod?, lineage_superclass hp, List.findSome?_cons, h]
  rfl

lemma findMethod?_eq_none : c.findMethod? text = none ↔ c.Lacks text := by
  simp [findMethod?, Lacks]

lemma Finds.self (h : c.own.methods.get? text = some f) : c.Finds text c f :=
  ⟨mem_lineage_self c, h, fun _ he habove => absurd (habove.of_mem he) (not_above_self _)⟩

lemma Finds.inherited (hp : c.superclass? = some d) (h : c.own.methods.get? text = none) (hf : d.Finds text e f) :
    c.Finds text e f := by
  refine ⟨?_, hf.declares, ?_⟩
  · rw [lineage_superclass hp]
    exact List.mem_cons_of_mem _ hf.mem
  · rw [lineage_superclass hp]
    exact List.forall_mem_cons.2 ⟨fun _ => h, hf.nearest⟩

/-- **The nearest class has the method.** -/
lemma findMethod?_finds (h : c.findMethod? text = some (d, f)) : c.Finds text d f := by
  induction c using descend with
  | root c hc =>
    rcases hown : c.own.methods.get? text with _ | g
    · have hlacks : c.findMethod? text = none := by
        rw [findMethod?_eq_none, Lacks, lineage_of_superclass?_none hc]
        exact List.forall_mem_singleton.2 hown
      rw [hlacks] at h
      cases h
    · rw [findMethod?_own hown] at h
      cases h
      exact .self hown
  | sub c p hp ih =>
    rcases hown : c.own.methods.get? text with _ | g
    · rw [findMethod?_inherited hp hown] at h
      exact (ih h).inherited hp hown
    · rw [findMethod?_own hown] at h
      cases h
      exact .self hown

/-- There is no other nearest class. -/
lemma Finds.findMethod? (h : c.Finds text d f) : c.findMethod? text = some (d, f) := by
  induction c using descend with
  | root c hc =>
    have hd := h.mem
    rw [lineage_of_superclass?_none hc, List.mem_singleton] at hd
    exact hd ▸ findMethod?_own (hd ▸ h.declares)
  | sub c p hp ih =>
    rcases mem_lineage_iff.1 h.mem with rfl | habove
    · exact findMethod?_own h.declares
    · have hown : c.own.methods.get? text = none := h.nearest c (mem_lineage_self c) habove
      rw [findMethod?_inherited hp hown]
      obtain ⟨q, hq, hmem⟩ := habove
      obtain rfl : q = p := Option.some.inj (hq.symm.trans hp)
      refine ih ⟨hmem, h.declares, fun e he => h.nearest e ?_⟩
      rw [lineage_superclass hp]
      exact List.mem_cons_of_mem _ he

end Class

/-! ### Binding -/

/-- The function `g` is the method `f` that the class `owner` declares, bound to an instance.  It has a stamp of its own
and a frame of its own in front of that of the method; this frame has the instance under `this` and the superclass of
the class under `super`, if there is one, and nothing else.  Everything else is as it was. -/
structure BoundTo (f : Closure) (owner : Class) (o : Object) (m : Machine) (g : Closure) (m' : Machine) : Prop where
  decl : g.decl = f.decl
  stamp : g.stamp = m.nextStamp
  frame : g.frame = m.frames.size
  parent : (m'.frames.frame g.frame).parent = some f.frame
  this : (m'.frames.frame g.frame).get? "this" = some (.object o)
  super : (m'.frames.frame g.frame).get? "super" = owner.superclass?.map .ofClass
  nothing : ∀ other, ¬ IsReserved other → (m'.frames.frame g.frame).get? other = none
  size : m'.frames.size = m.frames.size + 1
  frames : ∀ i < m.frames.size, m'.frames.frame i = m.frames.frame i
  rest : m' = { m with frames := m'.frames, nextStamp := m.nextStamp + 1 }

lemma bindMethod_ok (f : Closure) (owner : Class) (o : Object) (m : Machine) :
    ∃ g m', bindMethod f owner o m = .ok g m' ∧ BoundTo f owner o m g m' := by
  have hframe : Frames.frame (m.frames.add (receiverFrame f owner o)) m.frames.size = receiverFrame f owner o := by
    rw [frame_add, if_pos rfl]
  refine ⟨⟨m.nextStamp, f.decl, m.frames.size⟩,
    { m with frames := m.frames.add (receiverFrame f owner o), nextStamp := m.nextStamp + 1 }, rfl,
    rfl, rfl, rfl, ?_, ?_, ?_, fun other hother => ?_, size_add _, fun i hi => ?_, rfl⟩
  · rw [hframe]
    rfl
  · rw [hframe]
    rfl
  · rw [hframe]
    unfold receiverFrame Frame.get?
    cases owner.superclass? <;> rfl
  · rw [hframe]
    unfold receiverFrame Frame.get?
    obtain ⟨hthis, hsuper⟩ := not_or.1 hother
    cases owner.superclass? <;> simp [Table.get?, Ne.symm hthis, Ne.symm hsuper]
  · rw [frame_add, if_neg (Nat.ne_of_lt hi)]

/-! ### Properties of instances -/

/-- What comes of reading a method of an instance that is searched from the class `c` on: the method of the nearest
class that declares one, bound to the instance, or an error if no class does. -/
inductive GivesMethod (o : Object) (c : Class) (name : Ident) (m : Machine) : EStateM.Result Stop Machine Value → Prop
  | found {d : Class} {f g : Closure} {m' : Machine} : c.Finds name.text d f → BoundTo f d o m g m' →
    GivesMethod o c name m (.ok (.closure g) m')
  | missing : c.Lacks name.text →
    GivesMethod o c name m (.error (.error (.invalidPropertyAccess name.text (Value.object o).text name.line)) m)

lemma method_gives (o : Object) (c : Class) (name : Ident) (m : Machine) : GivesMethod o c name m (method o c name m) := by
  unfold method
  rcases hfind : c.findMethod? name.text with _ | ⟨d, f⟩
  · exact .missing (Class.findMethod?_eq_none.1 hfind)
  · obtain ⟨g, m', hbind, hbound⟩ := bindMethod_ok f d o m
    simp only
    rw [Traced.bind_ok hbind]
    exact .found (Class.findMethod?_finds hfind) hbound

/-- What comes of reading a property of an instance: its own property if it has one, and otherwise a method, searched from
its class on. -/
inductive GivesProperty (o : Object) (name : Ident) (m : Machine) : EStateM.Result Stop Machine Value → Prop
  | own {v : Value} : (m.objects.getD o.id []).get? name.text = some v → GivesProperty o name m (.ok v m)
  | method {r : EStateM.Result Stop Machine Value} : (m.objects.getD o.id []).get? name.text = none →
    GivesMethod o o.cls name m r → GivesProperty o name m r

lemma property_gives (o : Object) (name : Ident) (m : Machine) : GivesProperty o name m (property (.object o) name m) := by
  unfold property
  simp only
  rw [Traced.bind_get]
  rcases hown : (m.objects.getD o.id []).get? name.text with _ | v
  · exact .method hown (method_gives o o.cls name m)
  · exact .own hown

end ScriptLang
