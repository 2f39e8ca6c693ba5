import Mathlib.Tactic.Lemma

/-!
# Traced computations

A computation together with the moments that it passes: marks that were set on the way, each with the state
in which it was set.  Marks change nothing: what a traced computation does is the computation it carries.

* `Traced.run_bind`, `Traced.run_visit`, … — erasing the marks, step by step;
* `Traced.Satisfies` — a property of every moment, of the result and of the state after a failure;
* `Satisfies.bind`, `Satisfies.visit`, … — how such properties are put together.
-/

namespace ScriptLang

/-- A computation and the moments that it passes from each state. -/
structure Traced (ε σ ω α : Type) where
  run : EStateM ε σ α
  trace : σ → List (ω × σ)

namespace Traced

variable {ε σ ω α β : Type}

/-- The moments of a computation that goes on with another one if it succeeds. -/
def follow (f : α → Traced ε σ ω β) : EStateM.Result ε σ α → List (ω × σ)
  | .ok a s => (f a).trace s
  | .error _ _ => []

instance : Monad (Traced ε σ ω) where
  pure a := ⟨pure a, fun _ => []⟩
  bind t f := ⟨t.run >>= fun a => (f a).run, fun s => t.trace s ++ follow f (t.run s)⟩

/-- A computation that passes no moments. -/
def lift (x : EStateM ε σ α) : Traced ε σ ω α := ⟨x, fun _ => []⟩

/-- A computation that sets a mark first. -/
def visit (w : ω) (t : Traced ε σ ω α) : Traced ε σ ω α := ⟨t.run, fun s => (w, s) :: t.trace s⟩

/-- A computation that sets a mark first, if there is one. -/
def mark : Option ω → Traced ε σ ω α → Traced ε σ ω α
  | none, t => t
  | some w, t => visit w t

/-! ### Erasing the marks -/

variable {t : Traced ε σ ω α} {f : α → Traced ε σ ω β} {x : EStateM ε σ α} {w : ω} {a : α} {s : σ}

@[simp] lemma run_pure : (pure a : Traced ε σ ω α).run = pure a := rfl

@[simp] lemma run_bind : (t >>= f).run = t.run >>= fun a => (f a).run := rfl

@[simp] lemma run_lift : (lift x : Traced ε σ ω α).run = x := rfl

@[simp] lemma run_visit : (visit w t).run = t.run := rfl

@[simp] lemma run_mark {w : Option ω} : (mark w t).run = t.run := by
  cases w <;> rfl

@[simp] lemma mark_none : mark none t = t := rfl

@[simp] lemma run_ite {c : Prop} [Decidable c] {u : Traced ε σ ω α} :
    (if c then t else u).run = if c then t.run else u.run := by
  by_cases h : c <;> simp [h]

lemma trace_bind : (t >>= f).trace s = t.trace s ++ follow f (t.run s) := rfl

lemma follow_eq_nil (h : ∀ a s, (f a).trace s = []) (r : EStateM.Result ε σ α) : follow f r = [] := by
  cases r with
  | ok a s => exact h a s
  | error e s => rfl

/-- Steps without marks, one after the other, are one step without marks. -/
lemma lift_bind {g : α → EStateM ε σ β} :
    (lift (x >>= g) : Traced ε σ ω β) = lift x >>= fun a => lift (g a) := by
  show mk _ _ = mk _ _
  congr 1
  funext s
  exact (follow_eq_nil (fun _ _ => rfl) (x s)).symm

lemma bind_ok {g : α → EStateM ε σ β} {s' : σ} (h : x s = .ok a s') : (x >>= g) s = g a s' := by
  show EStateM.bind x g s = g a s'
  rw [EStateM.bind, h]

lemma bind_error {g : α → EStateM ε σ β} {e : ε} {s' : σ} (h : x s = .error e s') :
    (x >>= g) s = .error e s' := by
  show EStateM.bind x g s = .error e s'
  rw [EStateM.bind, h]

/-- What goes on with the state. -/
lemma bind_get {g : σ → EStateM ε σ β} : (get >>= g) s = g s s := rfl

/-! ### Properties of all moments -/

variable {G : ω → σ → Prop} {Q Q' : α → σ → Prop} {R : β → σ → Prop} {E : σ → Prop}

/-- A result comes with `Q`, and a failure leaves a state with `E`. -/
def Ends (Q : α → σ → Prop) (E : σ → Prop) : EStateM.Result ε σ α → Prop
  | .ok a s => Q a s
  | .error _ s => E s

lemma Ends.mono {E' : σ → Prop} {r : EStateM.Result ε σ α} (h : Ends Q E r)
    (hQ : ∀ a s, Q a s → Q' a s) (hE : ∀ s, E s → E' s) : Ends Q' E' r := by
  cases r with
  | ok a s => exact hQ a s h
  | error e s => exact hE s h

/-- From the state `s` on, every moment has the property `G`, a result comes with `Q`, and a failure leaves
a state with `E`. -/
def Satisfies (G : ω → σ → Prop) (Q : α → σ → Prop) (E : σ → Prop) (t : Traced ε σ ω α) (s : σ) : Prop :=
  (∀ p ∈ t.trace s, G p.1 p.2) ∧ Ends Q E (t.run s)

lemma Satisfies.pure (h : Q a s) : Satisfies G Q E (pure a : Traced ε σ ω α) s :=
  ⟨List.forall_mem_nil _, h⟩

lemma Satisfies.lift (h : Ends Q E (x s)) : Satisfies G Q E (lift x : Traced ε σ ω α) s :=
  ⟨List.forall_mem_nil _, h⟩

lemma Satisfies.visit (hw : G w s) (h : Satisfies G Q E t s) : Satisfies G Q E (visit w t) s := by
  refine ⟨?_, h.2⟩
  intro p hp
  rcases List.mem_cons.1 hp with rfl | hp
  · exact hw
  · exact h.1 p hp

lemma Satisfies.mono {G' : ω → σ → Prop} {E' : σ → Prop} (h : Satisfies G Q E t s)
    (hG : ∀ w s', G w s' → G' w s') (hQ : ∀ a s', Q a s' → Q' a s') (hE : ∀ s', E s' → E' s') :
    Satisfies G' Q' E' t s := ⟨fun p hp => hG _ _ (h.1 p hp), h.2.mono hQ hE⟩

lemma Satisfies.bind (h : Satisfies G Q E t s)
    (hf : ∀ a s', Q a s' → Satisfies G R E (f a) s') : Satisfies G R E (t >>= f) s := by
  obtain ⟨htrace, hrun⟩ := h
  rcases hr : t.run s with ⟨a, s'⟩ | ⟨e, s'⟩
  · rw [hr] at hrun
    obtain ⟨hftrace, hfrun⟩ := hf a s' hrun
    refine ⟨?_, ?_⟩
    · intro p hp
      rw [trace_bind, hr] at hp
      rcases List.mem_append.1 hp with hp | hp
      · exact htrace p hp
      · exact hftrace p hp
    · rw [run_bind, bind_ok hr]
      exact hfrun
  · rw [hr] at hrun
    refine ⟨?_, ?_⟩
    · intro p hp
      rw [trace_bind, hr] at hp
      rcases List.mem_append.1 hp with hp | hp
      · exact htrace p hp
      · cases hp
    · rw [run_bind, bind_error hr]
      exact hrun

/-! ### Successful computations without a result -/

section Passes

variable {t : Traced ε σ ω Unit} {f : Unit → Traced ε σ ω Unit} {x : EStateM ε σ Unit} {s' s'' : σ}

/-- The computation leads from `s` to `s'` without a failure, and every moment on the way has the
property. -/
def Passes (G : ω → σ → Prop) (t : Traced ε σ ω Unit) (s s' : σ) : Prop :=
  t.run s = .ok () s' ∧ ∀ p ∈ t.trace s, G p.1 p.2

lemma passes_pure : Passes G (pure () : Traced ε σ ω Unit) s s' ↔ s' = s := by
  constructor
  · rintro ⟨h, -⟩
    cases h
    rfl
  · rintro rfl
    exact ⟨rfl, List.forall_mem_nil _⟩

lemma passes_lift : Passes G (lift x : Traced ε σ ω Unit) s s' ↔ x s = .ok () s' :=
  ⟨fun h => h.1, fun h => ⟨h, List.forall_mem_nil _⟩⟩

lemma passes_visit : Passes G (visit w t) s s' ↔ G w s ∧ Passes G t s s' := by
  constructor
  · rintro ⟨hr, ht⟩
    obtain ⟨hw, ht⟩ := List.forall_mem_cons.1 ht
    exact ⟨hw, hr, ht⟩
  · rintro ⟨hw, hr, ht⟩
    exact ⟨hr, List.forall_mem_cons.2 ⟨hw, ht⟩⟩

lemma passes_bind :
    Passes G (t >>= f) s s'' ↔ ∃ s', Passes G t s s' ∧ Passes G (f ()) s' s'' := by
  constructor
  · rintro ⟨hr, ht⟩
    rw [run_bind] at hr
    rcases ht' : t.run s with ⟨⟨⟩, s'⟩ | ⟨e, s'⟩
    · rw [bind_ok ht'] at hr
      rw [trace_bind, ht'] at ht
      obtain ⟨h1, h2⟩ := List.forall_mem_append.1 ht
      exact ⟨s', ⟨ht', h1⟩, hr, h2⟩
    · rw [bind_error ht'] at hr
      cases hr
  · rintro ⟨s', ⟨hr, ht⟩, hr', ht'⟩
    refine ⟨?_, ?_⟩
    · rw [run_bind, bind_ok hr]
      exact hr'
    · rw [trace_bind, hr]
      exact List.forall_mem_append.2 ⟨ht, ht'⟩

lemma Passes.mono {G' : ω → σ → Prop} (h : Passes G t s s') (hG : ∀ w s, G w s → G' w s) :
    Passes G' t s s' := ⟨h.1, fun p hp => hG _ _ (h.2 p hp)⟩

end Passes

end Traced

end ScriptLang
