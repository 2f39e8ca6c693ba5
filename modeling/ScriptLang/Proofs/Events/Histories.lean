import ScriptLang.Proofs.Observing.Traced

/-!
# Histories

A moment of a run may depend on the moments in front of it.  So a property of moments is told of each together with
its history, which grows along the run.

* `Chronicle` — every moment of a list has the property with the moments in front of it;
* `chronicle_iff` — the same by splitting the list at a moment;
* `Traced.Tells` — a property of every moment with its history, and of the result with the whole history;
* `Tells.bind`, `Tells.visit`, … — how such properties are put together.
-/

namespace ScriptLang

variable {ε σ ω α β : Type} {G G' : List (ω × σ) → ω → σ → Prop} {past l l' : List (ω × σ)}

/-- Behind the moments of the past, every moment of the list has the property with regard to those in front of
it. -/
def Chronicle (G : List (ω × σ) → ω → σ → Prop) (past : List (ω × σ)) : List (ω × σ) → Prop
  | [] => True
  | p :: l => G past p.1 p.2 ∧ Chronicle G (past ++ [p]) l

lemma chronicle_append : Chronicle G past (l ++ l') ↔ Chronicle G past l ∧ Chronicle G (past ++ l) l' := by
  induction l generalizing past with
  | nil => simp [Chronicle]
  | cons p l ih => simp [Chronicle, ih, and_assoc]

lemma Chronicle.mono (h : Chronicle G past l) (hG : ∀ past w s, G past w s → G' past w s) : Chronicle G' past l := by
  induction l generalizing past with
  | nil => trivial
  | cons p l ih => exact ⟨hG _ _ _ h.1, ih h.2⟩

/-- A chronicle, read at one of its moments. -/
lemma chronicle_iff :
    Chronicle G past l ↔ ∀ before p after, l = before ++ p :: after → G (past ++ before) p.1 p.2 := by
  constructor
  · rintro h before p after rfl
    exact (chronicle_append.1 h).2.1
  · intro h
    induction l generalizing past with
    | nil => trivial
    | cons p l ih =>
      refine ⟨?_, ih fun before q after hl => ?_⟩
      · simpa using h [] p l rfl
      · have hq := h (p :: before) q after (congrArg (p :: ·) hl)
        rwa [List.append_assoc, List.singleton_append]

namespace Traced

variable {t : Traced ε σ ω α} {f : α → Traced ε σ ω β} {x : EStateM ε σ α} {w : ω} {a : α} {s : σ}
  {Q Q' : α → List (ω × σ) → σ → Prop} {R : β → List (ω × σ) → σ → Prop} {E E' : List (ω × σ) → σ → Prop}

/-- From the state `s` on, behind the moments of the past, every moment has the property `G` with its history.  A
result comes with `Q` and a failure leaves a state with `E`, both with the whole history. -/
def Tells (G : List (ω × σ) → ω → σ → Prop) (Q : α → List (ω × σ) → σ → Prop) (E : List (ω × σ) → σ → Prop)
    (t : Traced ε σ ω α) (past : List (ω × σ)) (s : σ) : Prop :=
  Chronicle G past (t.trace s) ∧
    Ends (fun a s' => Q a (past ++ t.trace s) s') (fun s' => E (past ++ t.trace s) s') (t.run s)

lemma Tells.lift (h : Ends (fun a s' => Q a past s') (fun s' => E past s') (x s)) :
    Tells G Q E (lift x) past s := by
  have htrace : past ++ (Traced.lift x : Traced ε σ ω α).trace s = past := List.append_nil past
  refine ⟨trivial, ?_⟩
  rw [htrace]
  exact h

lemma Tells.visit (hw : G past w s) (h : Tells G Q E t (past ++ [(w, s)]) s) : Tells G Q E (visit w t) past s := by
  have htrace : past ++ (Traced.visit w t).trace s = past ++ [(w, s)] ++ t.trace s := List.append_cons ..
  refine ⟨⟨hw, h.1⟩, ?_⟩
  rw [htrace]
  exact h.2

lemma Tells.mono (h : Tells G Q E t past s) (hG : ∀ past w s', G past w s' → G' past w s')
    (hQ : ∀ a past s', Q a past s' → Q' a past s') (hE : ∀ past s', E past s' → E' past s') :
    Tells G' Q' E' t past s := ⟨h.1.mono hG, h.2.mono (fun a s' => hQ a _ s') fun s' => hE _ s'⟩

lemma Tells.bind (h : Tells G Q E t past s)
    (hf : ∀ a past s', Q a past s' → Tells G R E (f a) past s') : Tells G R E (t >>= f) past s := by
  obtain ⟨htrace, hrun⟩ := h
  rcases hr : t.run s with ⟨a, s'⟩ | ⟨e, s'⟩
  · rw [hr] at hrun
    obtain ⟨hftrace, hfrun⟩ := hf a _ s' hrun
    have hall : (t >>= f).trace s = t.trace s ++ (f a).trace s' := by
      rw [trace_bind, hr]
      rfl
    refine ⟨?_, ?_⟩
    · rw [hall]
      exact chronicle_append.2 ⟨htrace, hftrace⟩
    · rw [hall, run_bind, bind_ok hr, ← List.append_assoc]
      exact hfrun
  · rw [hr] at hrun
    have hall : (t >>= f).trace s = t.trace s := by
      rw [trace_bind, hr]
      exact List.append_nil _
    refine ⟨?_, ?_⟩
    · rw [hall]
      exact htrace
    · rw [hall, run_bind, bind_error hr]
      exact hrun

end Traced

end ScriptLang
