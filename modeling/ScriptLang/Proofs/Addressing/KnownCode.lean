import ScriptLang.Proofs.Addressing.FrameChains
import ScriptLang.Proofs.Addressing.TracedEval
import ScriptLang.Proofs.Tree.Regular

/-!
# The code in a machine

Every function that a machine holds was resolved somewhere, and the frame that it remembers fits the scopes
in which that happened.  A method of a class was resolved inside the scope of the reserved names, which has
no frame before the method is bound.

* `Closure.Known`, `Class.Known`, `Value.Known` — what is known of a value, given the moments `C` that
  resolving has passed;
* `Machine.Good` — all values of a machine are known;
* `After` — a good machine that has come from another one;
* `Keeps` — the computations that lead from good machines to good ones, and evaluate every expression where
  frames and scopes fit.
-/

namespace ScriptLang

open Resolving

/-- A property of the moments that resolving passes. -/
abbrev Moments := Expr OccurrenceId → Resolver → Prop

variable {C : Moments} {fs fs' : Frames}

/-! ### Known values -/

/-- A regular function was resolved in the given scopes. -/
def Resolved (C : Moments) (d : FunctionDecl (Stmt OccurrenceId)) (scopes : List Scope) : Prop :=
  FunctionDecl.Regular d ∧ ∃ region r r', r.scopes = scopes ∧ (functionT region d).Passes C r r'

/-- A function was resolved in scopes that its frame fits. -/
def Closure.Known (C : Moments) (fs : Frames) (f : Closure) : Prop :=
  ∃ scopes, Resolved C f.decl scopes ∧ Fits fs scopes f.frame

/-- A method was resolved in one scope more than its frame fits: that of the reserved names. -/
def Closure.KnownMethod (C : Moments) (fs : Frames) (inSubclass : Bool) (f : Closure) : Prop :=
  ∃ scopes, Resolved C f.decl (reservedScope inSubclass :: scopes) ∧ Fits fs scopes f.frame

/-- The methods and static methods of a class declaration are known. -/
structure ClassBody.Known (C : Moments) (fs : Frames) (inSubclass : Bool) (b : ClassBody) : Prop where
  methods : ∀ name f, b.methods.get? name = some f → f.KnownMethod C fs inSubclass
  statics : ∀ name f, b.statics.get? name = some f → f.Known C fs

/-- Whether a class extends another one. -/
def Class.inherits (c : Class) : Bool := c.superclass?.isSome

/-- A class and all classes that it descends from are known. -/
def Class.Known (C : Moments) (fs : Frames) (c : Class) : Prop :=
  ∀ d ∈ c.lineage, d.own.Known C fs d.inherits

/-- All code that a value carries is known. -/
def Value.Known (C : Moments) (fs : Frames) : Value → Prop
  | .closure f => f.Known C fs
  | .ofClass c => c.Known C fs
  | .object o => o.cls.Known C fs
  | _ => True

lemma Closure.Known.grows {f : Closure} (h : f.Known C fs) (hg : Grows fs fs') : f.Known C fs' := by
  obtain ⟨scopes, hr, hf⟩ := h
  exact ⟨scopes, hr, hf.grows hg⟩

lemma Closure.KnownMethod.grows {inSubclass : Bool} {f : Closure} (h : f.KnownMethod C fs inSubclass)
    (hg : Grows fs fs') : f.KnownMethod C fs' inSubclass := by
  obtain ⟨scopes, hr, hf⟩ := h
  exact ⟨scopes, hr, hf.grows hg⟩

lemma Class.Known.grows {c : Class} (h : c.Known C fs) (hg : Grows fs fs') : c.Known C fs' :=
  fun d hd => ⟨fun name f hf => ((h d hd).methods name f hf).grows hg,
    fun name f hf => ((h d hd).statics name f hf).grows hg⟩

lemma Value.Known.grows {v : Value} (h : v.Known C fs) (hg : Grows fs fs') : v.Known C fs' := by
  cases v with
  | closure f => exact Closure.Known.grows h hg
  | ofClass c => exact Class.Known.grows h hg
  | object o => exact Class.Known.grows h hg
  | _ => trivial

/-! ### More moments

What is known stays known when resolving has passed more moments.
-/

section MoreMoments

variable {C' : Moments} (hC : ∀ e q, C e q → C' e q)

include hC

lemma Resolved.imp {d : FunctionDecl (Stmt OccurrenceId)} {scopes : List Scope} (h : Resolved C d scopes) :
    Resolved C' d scopes := by
  obtain ⟨hd, region, r, r', hr, hp⟩ := h
  exact ⟨hd, region, r, r', hr, hp.mono hC⟩

lemma Closure.Known.imp {f : Closure} (h : f.Known C fs) : f.Known C' fs := by
  obtain ⟨scopes, hr, hf⟩ := h
  exact ⟨scopes, hr.imp hC, hf⟩

lemma Class.Known.imp {c : Class} (h : c.Known C fs) : c.Known C' fs := by
  intro d hd
  refine ⟨fun name f hf => ?_, fun name f hf => ((h d hd).statics name f hf).imp hC⟩
  obtain ⟨scopes, hr, hfits⟩ := (h d hd).methods name f hf
  exact ⟨scopes, hr.imp hC, hfits⟩

lemma Value.Known.imp {v : Value} (h : v.Known C fs) : v.Known C' fs := by
  cases v with
  | closure f => exact Closure.Known.imp hC h
  | ofClass c => exact Class.Known.imp hC h
  | object o => exact Class.Known.imp hC h
  | _ => trivial

end MoreMoments

/-! ### Classes -/

lemma mem_lineage_self (c : Class) : c ∈ c.lineage := by
  obtain ⟨own, _ | ⟨parent, ancestors⟩⟩ := c <;> simp [Class.lineage, Class.lineageFrom]

lemma lineage_superclass {c d : Class} (h : c.superclass? = some d) : c.lineage = c :: d.lineage := by
  obtain ⟨own, _ | ⟨parent, ancestors⟩⟩ := c
  · cases h
  · cases h
    rfl

lemma lineage_of_mem : ∀ {own : ClassBody} {ancestors : List ClassBody} {d : Class},
    d ∈ Class.lineageFrom own ancestors → ∀ e ∈ d.lineage, e ∈ Class.lineageFrom own ancestors
  | own, [], d, hd => by
    obtain rfl := List.mem_singleton.1 hd
    exact fun e he => he
  | own, parent :: ancestors, d, hd => by
    intro e he
    rcases List.mem_cons.1 hd with rfl | hd
    · exact he
    · exact List.mem_cons_of_mem _ (lineage_of_mem hd e he)

lemma Class.Known.of_mem {c d : Class} (h : c.Known C fs) (hd : d ∈ c.lineage) : d.Known C fs :=
  fun e he => h e (lineage_of_mem hd e he)

lemma Class.Known.superclass {c d : Class} (h : c.Known C fs) (hd : c.superclass? = some d) :
    d.Known C fs := by
  refine h.of_mem ?_
  rw [lineage_superclass hd]
  exact List.mem_cons_of_mem _ (mem_lineage_self d)

lemma Class.Known.extending {parent : Option Class} {body : ClassBody}
    (hp : ∀ p ∈ parent, p.Known C fs) (hb : body.Known C fs parent.isSome) :
    (Class.extending parent body).Known C fs := by
  cases parent with
  | none =>
    intro d hd
    obtain rfl := List.mem_singleton.1 hd
    exact hb
  | some p =>
    intro d hd
    rcases List.mem_cons.1 hd with rfl | hd
    · exact hb
    · exact hp p rfl d hd

lemma findMethod?_known {c d : Class} {f : Closure} {name : String} (h : c.Known C fs)
    (hf : c.findMethod? name = some (d, f)) : d.Known C fs ∧ f.KnownMethod C fs d.inherits := by
  obtain ⟨e, he, hget⟩ := List.exists_of_findSome?_eq_some hf
  obtain ⟨g, hg, hpair⟩ := Option.map_eq_some_iff.1 hget
  cases hpair
  exact ⟨h.of_mem he, (h _ he).methods name f hg⟩

lemma findStatic?_known {c : Class} {f : Closure} {name : String} (h : c.Known C fs)
    (hf : c.findStatic? name = some f) : f.Known C fs := by
  obtain ⟨e, he, hget⟩ := List.exists_of_findSome?_eq_some hf
  exact (h e he).statics name f hget

/-! ### Good machines -/

/-- Everything that a machine holds is known. -/
structure Machine.Good (C : Moments) (m : Machine) : Prop where
  size : 0 < m.frames.size
  frames : ∀ i name v, (m.frames.frame i).Holds name v → v.Known C m.frames
  objects : ∀ id name v, (m.objects.getD id []).get? name = some v → v.Known C m.frames

lemma Machine.Good.imp {C' : Moments} {m : Machine} (h : m.Good C) (hC : ∀ e q, C e q → C' e q) :
    m.Good C' :=
  ⟨h.size, fun i name v hv => (h.frames i name v hv).imp hC,
    fun id name v hv => (h.objects id name v hv).imp hC⟩

/-- A good machine that has come from another one: frames have grown, and what is current and where names
are found is as before. -/
structure After (C : Moments) (m m' : Machine) : Prop where
  good : m'.Good C
  grows : Grows m.frames m'.frames
  current : m'.current = m.current
  locals : m'.locals = m.locals

lemma After.refl {m : Machine} (h : m.Good C) : After C m m := ⟨h, .refl, rfl, rfl⟩

lemma After.trans {m m' m'' : Machine} (h : After C m m') (h' : After C m' m'') : After C m m'' :=
  ⟨h'.good, h.grows.trans h'.grows, h'.current.trans h.current, h'.locals.trans h.locals⟩

lemma After.fits {m m' : Machine} {scopes : List Scope} (h : After C m m')
    (hf : Fits m.frames scopes m.current) : Fits m'.frames scopes m'.current := by
  rw [h.current]
  exact hf.grows h.grows

/-- Where the expression is evaluated frames fit the scopes in which it was resolved. -/
def Fitting (C : Moments) (e : Expr OccurrenceId) (m : Machine) : Prop :=
  ∃ q, C e q ∧ Fits m.frames q.scopes m.current

/-- From the machine `m` on, every expression is evaluated where frames and scopes fit, with the table of
`m`, and whatever comes of it, the machine stays good; a result comes with `Q`. -/
def Keeps {α : Type} (C : Moments) (t : Eval.Marked α) (m : Machine) (Q : α → Machine → Prop) : Prop :=
  t.Satisfies (fun e m' => Fitting C e m' ∧ m'.locals = m.locals) (fun a m' => After C m m' ∧ Q a m')
    (After C m) m

section Keeps

variable {α β : Type} {t : Eval.Marked α} {f : α → Eval.Marked β} {m : Machine} {Q Q' : α → Machine → Prop}
  {R : β → Machine → Prop} {a : α} {x : Eval α}

lemma Keeps.pure (hm : m.Good C) (h : Q a m) : Keeps C (pure a) m Q := Traced.Satisfies.pure ⟨.refl hm, h⟩

lemma Keeps.visit {e : Expr OccurrenceId} (he : Fitting C e m) (h : Keeps C t m Q) :
    Keeps C (.visit e t) m Q := Traced.Satisfies.visit ⟨he, rfl⟩ h

lemma Keeps.mono (h : Keeps C t m Q) (hQ : ∀ a m', After C m m' → Q a m' → Q' a m') : Keeps C t m Q' :=
  Traced.Satisfies.mono h (fun _ _ h => h) (fun a m' h => ⟨h.1, hQ a m' h.1 h.2⟩) fun _ h => h

lemma Keeps.bind (h : Keeps C t m Q) (hf : ∀ a m', After C m m' → Q a m' → Keeps C (f a) m' R) :
    Keeps C (t >>= f) m R :=
  Traced.Satisfies.bind h fun a m' hq => Traced.Satisfies.mono (hf a m' hq.1 hq.2)
    (fun _ _ h => ⟨h.1, h.2.trans hq.1.locals⟩) (fun _ _ h => ⟨hq.1.trans h.1, h.2⟩) fun _ h => hq.1.trans h

lemma Keeps.lift (h : Traced.Ends (fun a m' => After C m m' ∧ Q a m') (After C m) (x m)) :
    Keeps C (.lift x) m Q := Traced.Satisfies.lift h

/-- A step that depends on the machine. -/
lemma Keeps.get_bind {g : Machine → Eval α} (h : Keeps C (.lift (g m)) m Q) :
    Keeps C (.lift (get >>= g)) m Q := h

lemma Keeps.throw {s : Stop} (hm : m.Good C) : Keeps C (.lift (throw s : Eval α)) m Q := .lift (After.refl hm)

/-- A step that leaves the machine as it is. -/
lemma Keeps.const (hm : m.Good C) (h : Traced.Ends (fun a m' => m' = m ∧ Q a m) (· = m) (x m)) :
    Keeps C (.lift x) m Q := by
  refine .lift (h.mono ?_ ?_)
  · rintro a _ ⟨rfl, hq⟩
    exact ⟨.refl hm, hq⟩
  · rintro _ rfl
    exact .refl hm

end Keeps

end ScriptLang
