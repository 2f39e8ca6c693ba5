import ScriptLang.Proofs.Classes.Methods

/-!
# Instances of classes

An instance is made without properties; then the constructors of all classes that its class descends from run on it,
the outermost first, up to the first that does not take the arguments or does not come to an end.

* `Class.constructors` — the constructors that a class has, in the order in which they run;
* `Constructed` — constructors that have run on an instance, one after another;
* `Halts` — a constructor that stops the construction;
* `construct_ends` — constructing runs all constructors, or those in front of one that stops it;
* `class_called` — the theorem.
-/

namespace ScriptLang

open Eval

variable {c d : Class} {f g : Closure} {o : Object} {args : List Value} {line : Nat} {m m' m'' : Machine}
  {call : Closure → List Value → Eval Value} {stop : Stop} {fs : List (Class × Closure)}

namespace Class

/-- The constructor that a class itself declares, if it does. -/
def constructor? (d : Class) : Option (Class × Closure) :=
  (d.own.methods.get? constructorName).map fun f => (d, f)

/-- The constructors of a class and of all classes it descends from, that of the outermost class first. -/
def constructors (c : Class) : List (Class × Closure) := c.lineage.reverse.filterMap constructor?

lemma constructor?_eq_some {e : Class} :
    e.constructor? = some (d, f) ↔ e = d ∧ d.own.methods.get? constructorName = some f := by
  rw [constructor?, Option.map_eq_some_iff]
  constructor
  · rintro ⟨g, hg, heq⟩
    cases heq
    exact ⟨rfl, hg⟩
  · rintro ⟨rfl, hf⟩
    exact ⟨f, hf, rfl⟩

lemma mem_constructors : (d, f) ∈ c.constructors ↔ d ∈ c.lineage ∧ d.own.methods.get? constructorName = some f := by
  simp only [constructors, List.mem_filterMap, List.mem_reverse, constructor?_eq_some]
  constructor
  · rintro ⟨e, he, rfl, hf⟩
    exact ⟨he, hf⟩
  · rintro ⟨hd, hf⟩
    exact ⟨d, hd, rfl, hf⟩

/-- Of two constructors the first is that of a higher class. -/
lemma pairwise_constructors (c : Class) : c.constructors.Pairwise fun x y => x.1.Above y.1 := by
  refine List.pairwise_filterMap.2 ((List.pairwise_reverse.2 c.pairwise_lineage).imp fun habove x hx y hy => ?_)
  obtain ⟨rfl, -⟩ := constructor?_eq_some.1 hx
  obtain ⟨rfl, -⟩ := constructor?_eq_some.1 hy
  exact habove

lemma Finds.arity (h : c.Finds constructorName d f) : c.arity = f.arity := by
  rw [Class.arity, h.findMethod?]

lemma Lacks.arity (h : c.Lacks constructorName) : c.arity = 0 := by
  rw [Class.arity, findMethod?_eq_none.2 h]

end Class

/-! ### Constructors that run -/

/-- Constructors have run on an instance, one after another, each with all arguments: each was bound to the instance
and gave some value. -/
inductive Constructed (call : Closure → List Value → Eval Value) (o : Object) (args : List Value) :
    List (Class × Closure) → Machine → Machine → Prop
  | done {m : Machine} : Constructed call o args [] m m
  | run {d : Class} {f g : Closure} {v : Value} {fs : List (Class × Closure)} {m m1 m2 m' : Machine} :
    f.arity = args.length → BoundTo f d o m g m1 → call g args m1 = .ok v m2 → Constructed call o args fs m2 m' →
      Constructed call o args ((d, f) :: fs) m m'

/-- The constructor `f` that the class `d` declares stops the construction: it does not take that many arguments, or it
takes them and, bound to the instance, does not come to an end. -/
inductive Halts (call : Closure → List Value → Eval Value) (o : Object) (args : List Value) (line : Nat) (d : Class)
    (f : Closure) (m : Machine) : Stop → Machine → Prop
  | arity : f.arity ≠ args.length → Halts call o args line d f m
      (.error (.invalidNumberOfArguments (d.own.name ++ "." ++ Class.constructorName) f.arity args.length line)) m
  | body {g : Closure} {stop : Stop} {m1 m2 : Machine} : f.arity = args.length → BoundTo f d o m g m1 →
    call g args m1 = .error stop m2 → Halts call o args line d f m stop m2

lemma checkArity_eq {name : String} {expected got : Nat} (h : got = expected) :
    checkArity name expected got line m = .ok () m := by
  rw [checkArity, if_pos h]
  rfl

lemma checkArity_ne {name : String} {expected got : Nat} (h : got ≠ expected) :
    checkArity name expected got line m = .error (.error (.invalidNumberOfArguments name expected got line)) m := by
  rw [checkArity, if_neg h]
  rfl

/-- A class without a constructor of its own does nothing. -/
lemma constructOwn_none (h : d.constructor? = none) : constructOwn call o args line d m = .ok () m := by
  unfold constructOwn
  rw [Option.map_eq_none_iff.1 h]
  rfl

/-- The constructor that a class itself declares runs on the instance, or it stops the construction. -/
lemma constructOwn_some (call : Closure → List Value → Eval Value) (o : Object) (args : List Value) (line : Nat)
    (m : Machine) (h : d.constructor? = some (d, f)) :
    (∃ m', Constructed call o args [(d, f)] m m' ∧ constructOwn call o args line d m = .ok () m') ∨
      ∃ stop m', Halts call o args line d f m stop m' ∧ constructOwn call o args line d m = .error stop m' := by
  have hown := (Class.constructor?_eq_some.1 h).2
  unfold constructOwn
  rw [hown]
  simp only
  by_cases harity : f.arity = args.length
  · obtain ⟨g, m1, hbind, hbound⟩ := bindMethod_ok f d o m
    rw [Traced.bind_ok (checkArity_eq harity.symm), Traced.bind_ok hbind]
    rcases hcall : call g args m1 with ⟨v, m2⟩ | ⟨stop, m2⟩
    · refine .inl ⟨m2, .run harity hbound hcall .done, ?_⟩
      rw [Traced.bind_ok hcall]
      rfl
    · exact .inr ⟨stop, m2, .body harity hbound hcall, Traced.bind_error hcall⟩
  · exact .inr ⟨_, m, .arity harity, Traced.bind_error (checkArity_ne (Ne.symm harity))⟩

lemma Constructed.append {fs' : List (Class × Closure)} (h : Constructed call o args fs m m')
    (h' : Constructed call o args fs' m' m'') : Constructed call o args (fs ++ fs') m m'' := by
  induction h with
  | done => exact h'
  | run harity hbound hcall _ ih => exact .run harity hbound hcall (ih h')

/-- **Constructing runs all constructors of the classes in their order, or those in front of one that stops it.** -/
lemma construct_ends (call : Closure → List Value → Eval Value) (o : Object) (args : List Value) (line : Nat)
    (cs : List Class) (m : Machine) :
    (∃ m', Constructed call o args (cs.filterMap Class.constructor?) m m' ∧
      construct call o args line cs m = .ok () m') ∨
    ∃ ran d f later m1 stop m2, cs.filterMap Class.constructor? = ran ++ (d, f) :: later ∧
      Constructed call o args ran m m1 ∧ Halts call o args line d f m1 stop m2 ∧
        construct call o args line cs m = .error stop m2 := by
  induction cs generalizing m with
  | nil => exact .inl ⟨m, .done, rfl⟩
  | cons c cs ih =>
    rw [construct]
    rcases hown : c.constructor? with _ | ⟨d, f⟩
    · rw [List.filterMap_cons_none hown, Traced.bind_ok (constructOwn_none hown)]
      exact ih m
    · obtain ⟨rfl, -⟩ := Class.constructor?_eq_some.1 hown
      rw [List.filterMap_cons_some hown]
      rcases constructOwn_some call o args line m hown with
        ⟨m1, hrun, hok⟩ | ⟨stop, m1, hhalts, herror⟩
      · rw [Traced.bind_ok hok]
        rcases ih m1 with ⟨m', hrest, hrestok⟩ | ⟨ran, d, g, later, m2, stop, m3, hsplit, hran, hhalts, herror⟩
        · exact .inl ⟨m', hrun.append hrest, hrestok⟩
        · exact .inr ⟨(c, f) :: ran, d, g, later, m2, stop, m3, congrArg _ hsplit, hrun.append hran, hhalts, herror⟩
      · exact .inr ⟨[], c, f, _, m, stop, m1, rfl, .done, hhalts, Traced.bind_error herror⟩

/-! ### Calling a class -/

/-- **Calling a class runs its constructors, the outermost first.**  With another number of arguments than the nearest
constructor takes the call fails and changes nothing; without a constructor a class takes none.  Otherwise there is one
new instance of the class.  The constructors that the class and those above it declare run on it, that of a higher class
first; `this` is the instance, `super` the superclass of the class that declares the constructor.  The result is the
instance; or a constructor stops the call, and then exactly those in front of it have run. -/
theorem class_called (fuel : Nat) (c : Class) (args : List Value) (line : Nat) (m : Machine) :
    (∀ d f, c.Finds Class.constructorName d f → c.arity = f.arity) ∧ (c.Lacks Class.constructorName → c.arity = 0) ∧
    (∀ d f, (d, f) ∈ c.constructors ↔ d ∈ c.lineage ∧ d.own.methods.get? Class.constructorName = some f) ∧
    (c.constructors.Pairwise fun x y => x.1.Above y.1) ∧
    (args.length ≠ c.arity → apply (invoke fuel) (.ofClass c) args line m =
      .error (.error (.invalidNumberOfArguments c.own.name c.arity args.length line)) m) ∧
    (args.length = c.arity →
      let o : Object := ⟨m.objects.size, c⟩
      let made : Machine := { m with objects := m.objects.push [] }
      (∃ m', Constructed (invoke fuel) o args c.constructors made m' ∧
        apply (invoke fuel) (.ofClass c) args line m = .ok (.object o) m') ∨
      ∃ ran d f later m1 stop m2, c.constructors = ran ++ (d, f) :: later ∧
        Constructed (invoke fuel) o args ran made m1 ∧ Halts (invoke fuel) o args line d f m1 stop m2 ∧
          apply (invoke fuel) (.ofClass c) args line m = .error stop m2) := by
  refine ⟨fun d f h => h.arity, fun h => h.arity, fun d f => Class.mem_constructors, c.pairwise_constructors,
    fun hne => ?_, fun heq => ?_⟩
  · exact Traced.bind_error (checkArity_ne hne)
  · intro o made
    have hobject : newObject c m = .ok o made := rfl
    have happly : apply (invoke fuel) (.ofClass c) args line m =
        (construct (invoke fuel) o args line c.lineage.reverse >>= fun _ => pure (.object o)) made := by
      unfold apply instantiate
      simp only
      rw [Traced.bind_ok (checkArity_eq heq), Traced.bind_ok hobject]
    rw [happly]
    rcases construct_ends (invoke fuel) o args line c.lineage.reverse made with
      ⟨m', hrun, hok⟩ | ⟨ran, d, f, later, m1, stop, m2, hsplit, hran, hhalts, herror⟩
    · refine .inl ⟨m', hrun, ?_⟩
      rw [Traced.bind_ok hok]
      rfl
    · exact .inr ⟨ran, d, f, later, m1, stop, m2, hsplit, hran, hhalts, Traced.bind_error herror⟩

/-- A class without parameters whose superclass takes one: the call is allowed, and the first constructor stops it. -/
theorem class_called_outer_arity :
    let outer : ClassBody :=
      ⟨0, "A", [("constructor", ⟨1, ⟨⟨"constructor", 1⟩, [⟨"x", 1⟩], []⟩, globalFrame⟩)], []⟩
    let c : Class := ⟨⟨2, "B", [("constructor", ⟨3, ⟨⟨"constructor", 1⟩, [], []⟩, globalFrame⟩)], []⟩, [outer]⟩
    c.arity = 0 ∧ ∃ m', apply (invoke 3) (.ofClass c) [] 1 (Machine.initial none) =
      .error (.error (.invalidNumberOfArguments "A.constructor" 1 0 1)) m' := by
  intro outer c
  refine ⟨rfl, ?_⟩
  have hconstructors : c.constructors = [(⟨outer, []⟩, ⟨1, ⟨⟨"constructor", 1⟩, [⟨"x", 1⟩], []⟩, globalFrame⟩),
      (c, ⟨3, ⟨⟨"constructor", 1⟩, [], []⟩, globalFrame⟩)] := rfl
  obtain ⟨-, -, -, -, -, hcalled⟩ := class_called 3 c [] 1 (Machine.initial none)
  rcases hcalled rfl with ⟨m', hrun, -⟩ | ⟨ran, d, f, later, m1, stop, m2, hsplit, hran, hhalts, herror⟩
  · rw [hconstructors] at hrun
    cases hrun with
    | run harity => cases harity
  · rw [hconstructors] at hsplit
    cases hran with
    | done =>
      cases hsplit
      cases hhalts with
      | arity => exact ⟨_, herror⟩
      | body harity => cases harity
    | run harity =>
      obtain ⟨hhead, -⟩ := List.cons.inj hsplit
      cases hhead
      cases harity

end ScriptLang
