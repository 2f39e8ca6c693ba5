import ScriptLang.Proofs.Redeclaring.MadeCode
import ScriptLang.Proofs.Redeclaring.Standing

/-!
# Definitions that are foreseen

A definition is foreseen if its site is known and its frame has just the names in front of it.  Then it fails exactly
if its name is among these.

* `Definition.Foreseen`, `Definition.Foreseen.at_site` — what is foreseen of a definition, and what follows;
* `Foresees` — a computation whose definitions are all foreseen, and which fails with a name declared already only
  at one of them;
* `defineIn_foresees`, `property_foresees`, … — the single steps of running.
-/

namespace ScriptLang

open Frames Eval
open Observer (definitions)

variable {S : List Site} {α β : Type} {m m' : Machine} {name : Ident} {v : Value} {line : Nat} {e : RuntimeError}
  {fs fs' : Frames} {i : FrameId} {text : String} {front : Front}

/-! ### Foreseen definitions -/

/-- A regular function whose sites are all known. -/
structure Sited (S : List Site) (d : FunctionDecl (Stmt OccurrenceId)) : Prop where
  regular : FunctionDecl.Regular d
  sites : FunctionDecl.sites d ⊆ S

/-- The site of the definition is known, and its frame has the names in front. -/
structure Definition.Foreseen (S : List Site) (d : Definition) (m : Machine) : Prop where
  stands : Stands d.front m.frames d.frame
  known : d.front.sites d.name ⊆ S

lemma Definition.fails_of_binds {d : Definition} (h : (m.frames.frame d.frame).binds d.name.text = true) :
    d.Fails m := by
  have hdefine : (m.frames.frame d.frame).define d.name.text d.value d.constant =
      .error (.alreadyDeclared d.name.text) := if_pos h
  unfold Fails perform change Frames.define Frames.update
  simp only [hdefine]
  rfl

lemma Definition.perform_of_free {d : Definition} (h : (m.frames.frame d.frame).binds d.name.text = false) :
    ∃ fs, Frames.define d.frame d.name.text d.value d.constant m.frames = .ok () fs ∧
      d.perform m = .ok () { m with frames := fs } := by
  obtain ⟨f', hdefine⟩ : ∃ f', (m.frames.frame d.frame).define d.name.text d.value d.constant = .ok f' := by
    unfold Frame.define
    rw [h]
    cases d.constant <;> exact ⟨_, rfl⟩
  have hchange : Frames.define d.frame d.name.text d.value d.constant m.frames =
      .ok () (m.frames.setIfInBounds d.frame f') := by
    unfold Frames.define Frames.update
    simp only [hdefine]
  refine ⟨_, hchange, ?_⟩
  unfold perform change
  simp only [hchange]

/-- **A definition fails exactly if its frame has the name already.** -/
theorem Definition.fails_iff {d : Definition} :
    d.Fails m ↔ (m.frames.frame d.frame).binds d.name.text = true := by
  refine ⟨fun h => ?_, fails_of_binds⟩
  by_contra hfree
  obtain ⟨fs, -, hok⟩ := perform_of_free (Bool.eq_false_iff.2 hfree)
  cases h.symm.trans hok

/-- **A foreseen definition** stands in the global frame, or it is at a known site and fails exactly if the site is a
repeated one. -/
theorem Definition.Foreseen.at_site {d : Definition} (h : d.Foreseen S m) :
    (d.frame = globalFrame ↔ d.front = none) ∧
      ∀ names, d.front = some names → ⟨names, d.name⟩ ∈ S ∧ (d.Fails m ↔ Site.Repeated ⟨names, d.name⟩) := by
  obtain ⟨⟨-, hstands⟩, hknown⟩ := h
  cases hfront : d.front with
  | none =>
    rw [hfront] at hstands
    exact ⟨iff_of_true hstands rfl, fun names h => by cases h⟩
  | some front =>
    rw [hfront] at hstands hknown
    refine ⟨iff_of_false hstands.1 (by simp), ?_⟩
    rintro names ⟨⟩
    exact ⟨hknown (List.mem_singleton.2 rfl), Definition.fails_iff.trans (hstands.2 _)⟩

/-! ### Computations -/

/-- The error tells of a name that has been declared already. -/
def Stop.Redeclares (name : Ident) (stop : Stop) : Prop :=
  stop = .error (.identifierAlreadyDeclared name.text name.line)

/-- All definitions are foreseen, code is only of known sites, a result comes with `Q`, and if the computation fails
with a name declared already, it is one of the definitions that fails. -/
structure Foresees (S : List Site) (t : Defining α) (m : Machine) (Q : α → Machine → Prop) : Prop where
  marks : ∀ p ∈ t.trace m, p.1.Foreseen S p.2
  ok : ∀ a m', t.run m = .ok a m' → m'.MadeOf (Sited S) ∧ Q a m'
  error : ∀ stop m', t.run m = .error stop m' → m'.MadeOf (Sited S) ∧
    ∀ name, stop.Redeclares name → ∃ p ∈ t.trace m, p.1.name = name ∧ p.1.Fails p.2

section Computations

variable {t : Defining α} {f : α → Defining β} {x : Eval α} {a : α} {Q Q' : α → Machine → Prop}
  {R : β → Machine → Prop}

lemma Foresees.step (h : x m = .ok a m') (hm : m'.MadeOf (Sited S)) (hq : Q a m') : Foresees S (.lift x) m Q := by
  refine ⟨List.forall_mem_nil _, fun b m1 hrun => ?_, fun stop m1 hrun => ?_⟩
  · cases h.symm.trans hrun
    exact ⟨hm, hq⟩
  · cases h.symm.trans hrun

lemma Foresees.stop {stop : Stop} (h : x m = .error stop m') (hm : m'.MadeOf (Sited S))
    (hstop : ∀ name, ¬ stop.Redeclares name) : Foresees S (.lift x) m Q := by
  refine ⟨List.forall_mem_nil _, fun b m1 hrun => ?_, fun stop' m1 hrun => ?_⟩
  · cases h.symm.trans hrun
  · cases h.symm.trans hrun
    exact ⟨hm, fun name hname => absurd hname (hstop name)⟩

lemma Foresees.pure (hm : m.MadeOf (Sited S)) (hq : Q a m) : Foresees S (pure a) m Q := Foresees.step rfl hm hq

lemma Foresees.fail (hm : m.MadeOf (Sited S)) (he : ∀ text line, e ≠ .identifierAlreadyDeclared text line) :
    Foresees S (.lift (fail e : Eval α)) m Q :=
  .stop rfl hm fun name h => he name.text name.line (Stop.error.inj h)

/-- A property that is not there is no name that is declared already. -/
lemma Foresees.noProperty {key text : String} {line : Nat} (hm : m.MadeOf (Sited S)) :
    Foresees S (.lift (Eval.fail (.invalidPropertyAccess key text line) : Eval α)) m Q :=
  .fail hm fun _ _ h => by cases h

lemma Foresees.outOfFuel (hm : m.MadeOf (Sited S)) : Foresees S (.lift (throw .outOfFuel : Eval α)) m Q :=
  .stop rfl hm fun _ h => by cases h

lemma Foresees.mono (h : Foresees S t m Q) (hQ : ∀ a m', t.run m = .ok a m' → Q a m' → Q' a m') :
    Foresees S t m Q' :=
  ⟨h.marks, fun a m' hrun => ⟨(h.ok a m' hrun).1, hQ a m' hrun (h.ok a m' hrun).2⟩, h.error⟩

lemma Foresees.bind (h : Foresees S t m Q)
    (hf : ∀ a m', t.run m = .ok a m' → m'.MadeOf (Sited S) → Q a m' → Foresees S (f a) m' R) :
    Foresees S (t >>= f) m R := by
  rcases hrun : t.run m with ⟨a, m1⟩ | ⟨stop, m1⟩
  · obtain ⟨hm1, hq⟩ := h.ok a m1 hrun
    have hrest := hf a m1 hrun hm1 hq
    have htrace : (t >>= f).trace m = t.trace m ++ (f a).trace m1 := by rw [Traced.trace_bind, hrun]; rfl
    have hbind : (t >>= f).run m = (f a).run m1 := Traced.bind_ok hrun
    refine ⟨fun p hp => ?_, fun b m2 h2 => hrest.ok b m2 (hbind.symm.trans h2), fun stop m2 h2 => ?_⟩
    · rw [htrace] at hp
      exact (List.mem_append.1 hp).elim (h.marks p) (hrest.marks p)
    · obtain ⟨hm2, hfails⟩ := hrest.error stop m2 (hbind.symm.trans h2)
      refine ⟨hm2, fun name hname => ?_⟩
      obtain ⟨p, hp, hpname⟩ := hfails name hname
      exact ⟨p, htrace ▸ List.mem_append_right _ hp, hpname⟩
  · have htrace : (t >>= f).trace m = t.trace m := by
      rw [Traced.trace_bind, hrun]
      exact List.append_nil _
    have hbind : (t >>= f).run m = .error stop m1 := Traced.bind_error hrun
    refine ⟨fun p hp => h.marks p (htrace ▸ hp), fun b m2 h2 => ?_, fun stop' m2 h2 => ?_⟩
    · cases hbind.symm.trans h2
    · cases hbind.symm.trans h2
      rw [htrace]
      exact h.error stop m1 hrun

/-- A step that depends on the machine. -/
lemma Foresees.get_bind {g : Machine → Eval α} (h : Foresees S (.lift (g m)) m Q) :
    Foresees S (.lift (get >>= g)) m Q := ⟨h.marks, h.ok, h.error⟩

lemma Foresees.mapM {f : β → Defining α} {P : α → Prop} {l : List β} (hm : m.MadeOf (Sited S))
    (hf : ∀ b ∈ l, ∀ m', m'.MadeOf (Sited S) → Foresees S (f b) m' fun a _ => P a) :
    Foresees S (l.mapM f) m fun as _ => ∀ a ∈ as, P a := by
  have loop : ∀ (l : List β) (acc : List α) (m : Machine), m.MadeOf (Sited S) → (∀ a ∈ acc, P a) →
      (∀ b ∈ l, ∀ m', m'.MadeOf (Sited S) → Foresees S (f b) m' fun a _ => P a) →
        Foresees S (List.mapM.loop f l acc) m fun as _ => ∀ a ∈ as, P a := by
    intro l
    induction l with
    | nil => exact fun acc m hm hacc _ => .pure hm fun a ha => hacc a (List.mem_reverse.1 ha)
    | cons b l ih =>
      intro acc m hm hacc hf
      rw [List.mapM.loop]
      refine (hf b List.mem_cons_self m hm).bind fun a m' _ hm' ha => ?_
      exact ih (a :: acc) m' hm' (List.forall_mem_cons.2 ⟨ha, hacc⟩) fun c hc => hf c (List.mem_cons_of_mem _ hc)
  exact loop l [] m hm (List.forall_mem_nil _) hf

/-- A computation in another frame, which is no longer current behind it. -/
lemma Foresees.inFrame {P : α → Prop} (h : Foresees S t { m with current := i } fun a _ => P a) :
    Foresees S (inFrameT i t) m fun a _ => P a := by
  rcases hrun : t.run { m with current := i } with ⟨a, m1⟩ | ⟨stop, m1⟩
  · have hframe : (inFrameT i t).run m = .ok a { m1 with current := m.current } := by
      rw [Observer.inFrameT_run]
      unfold Eval.inFrame
      simp only [hrun]
    obtain ⟨hm1, hP⟩ := h.ok a m1 hrun
    refine ⟨h.marks, fun b m2 h2 => ?_, fun stop m2 h2 => ?_⟩
    · cases hframe.symm.trans h2
      exact ⟨⟨hm1.size, hm1.frames, hm1.objects⟩, hP⟩
    · cases hframe.symm.trans h2
  · have hframe : (inFrameT i t).run m = .error stop { m1 with current := m.current } := by
      rw [Observer.inFrameT_run]
      unfold Eval.inFrame
      simp only [hrun]
    obtain ⟨hm1, hfails⟩ := h.error stop m1 hrun
    refine ⟨h.marks, fun b m2 h2 => ?_, fun stop' m2 h2 => ?_⟩
    · cases hframe.symm.trans h2
    · cases hframe.symm.trans h2
      exact ⟨⟨hm1.size, hm1.frames, hm1.objects⟩, hfails⟩

end Computations

/-! ### Definitions -/

/-- **A foreseen definition**: if it succeeds, its name is in front of what follows in its frame. -/
lemma defineIn_foresees {d : Definition} (hd : d.Foreseen S m) (hm : m.MadeOf (Sited S))
    (hv : d.value.MadeOf (Sited S)) :
    Foresees S (definitions.defineIn d.front d.name d.frame d.value d.constant) m fun _ m' =>
      m'.current = m.current ∧ Stands (d.front.after [d.name.text]) m'.frames d.frame := by
  cases hb : (m.frames.frame d.frame).binds d.name.text with
  | true =>
    have hfails : d.Fails m := Definition.fails_of_binds hb
    refine ⟨List.forall_mem_singleton.2 hd, fun a m' h => ?_, fun stop m' h => ?_⟩
    · cases hfails.symm.trans h
    · cases hfails.symm.trans h
      refine ⟨hm, fun name hname => ⟨(d, m), List.mem_singleton.2 rfl, ?_, hfails⟩⟩
      injection Stop.error.inj hname with htext hline
      exact congrArg₂ Ident.mk htext hline
  | false =>
    obtain ⟨fs, hdefine, hok⟩ := Definition.perform_of_free hb
    refine ⟨List.forall_mem_singleton.2 hd, fun a m' h => ?_, fun stop m' h => ?_⟩
    · cases hok.symm.trans h
      exact ⟨hm.change (define_putAt hdefine).1 hv, rfl, hd.stands.define hdefine⟩
    · cases hok.symm.trans h

lemma define_foresees {constant : Bool} (hm : m.MadeOf (Sited S)) (hstands : Stands front m.frames m.current)
    (hsites : front.sites name ⊆ S) (hv : v.MadeOf (Sited S)) :
    Foresees S (definitions.define front name v constant) m fun _ m' =>
      Stands (front.after [name.text]) m'.frames m'.current := by
  refine Foresees.bind (Q := fun n m' => n = m ∧ m' = m) (.step rfl hm ⟨rfl, rfl⟩) ?_
  rintro n m' - - ⟨rfl, rfl⟩
  refine (defineIn_foresees (d := ⟨front, name, m'.current, v, constant⟩) ⟨hstands, hsites⟩ hm hv).mono ?_
  rintro _ m1 - ⟨hcurrent, hstands⟩
  exact hcurrent ▸ hstands

lemma bindParams_foresees {ps : List Ident} {vs : List Value} {names : List String}
    (hlength : ps.length = vs.length) (hvs : ∀ v ∈ vs, v.MadeOf (Sited S)) (hsites : paramSites names ps ⊆ S)
    (hm : m.MadeOf (Sited S)) (hstands : Stands (some names) m.frames i) :
    Foresees S (definitions.bindParams i names ps vs) m
      fun _ m' => Stands (some (names ++ ps.map (·.text))) m'.frames i := by
  induction ps generalizing vs names m with
  | nil =>
    obtain rfl : vs = [] := List.length_eq_zero_iff.1 hlength.symm
    rw [List.map_nil, List.append_nil]
    exact .pure hm hstands
  | cons p ps ih =>
    cases vs with
    | nil => cases hlength
    | cons v vs =>
      obtain ⟨hv, hvs⟩ := List.forall_mem_cons.1 hvs
      obtain ⟨hsite, hsites⟩ := List.cons_subset.1 hsites
      have hknown : Front.sites (some names) p ⊆ S := fun d hd => List.mem_singleton.1 hd ▸ hsite
      rw [Observer.bindParams]
      refine (defineIn_foresees (d := ⟨some names, p, i, v, false⟩) ⟨hstands, hknown⟩ hm hv).bind ?_
      rintro _ m' - hm' ⟨-, hstands'⟩
      refine (ih (Nat.succ.inj hlength) hvs hsites hm' hstands').mono fun _ m'' _ h => ?_
      rwa [List.append_assoc] at h

/-! ### Steps without definitions -/

lemma change_foresees {op : Frames.Change Unit} (hm : m.MadeOf (Sited S)) (hv : v.MadeOf (Sited S))
    (hok : ∀ fs', op m.frames = .ok () fs' → ∃ j, PutAt j v m.frames fs')
    (herr : ∀ e fs', op m.frames = .error e fs' → fs' = m.frames ∧ ∀ text, e ≠ .alreadyDeclared text) :
    Foresees S (.lift (change line op)) m fun _ _ => True := by
  rcases hop : op m.frames with ⟨⟨⟩, fs'⟩ | ⟨e, fs'⟩
  · obtain ⟨j, hput⟩ := hok fs' hop
    have hrun : change line op m = .ok () { m with frames := fs' } := change_of_ok op hop
    exact .step hrun (hm.change hput hv) trivial
  · obtain ⟨rfl, he⟩ := herr e fs' hop
    have hrun : change line op m = .error (.error (e.atLine line)) m := change_of_error op hop
    refine .stop hrun hm fun name hname => ?_
    cases e with
    | alreadyDeclared text => exact he text rfl
    | _ => cases hname

lemma frame_assign_error {f : Frame} {e : FrameError} (h : f.assign text v = .error e) (other : String) :
    e ≠ .alreadyDeclared other := by
  unfold Frame.assign at h
  split at h
  · cases h
    exact nofun
  · split at h
    · cases h
    · cases h
      exact nofun

lemma update_assign_error {e : FrameError} (h : Frames.update i (fun f => f.assign text v) fs = .error e fs') :
    fs' = fs ∧ ∀ other, e ≠ .alreadyDeclared other := by
  refine ⟨update_error h, ?_⟩
  unfold Frames.update at h
  split at h
  · next hassign =>
    cases h
    exact frame_assign_error hassign
  · cases h

lemma assign_foresees {use : Occurrence OccurrenceId} (hm : m.MadeOf (Sited S)) (hv : v.MadeOf (Sited S)) :
    Foresees S (.lift (Eval.assign use v)) m fun _ _ => True := by
  unfold Eval.assign
  refine .get_bind ?_
  simp only
  split
  · exact change_foresees hm hv (fun fs' h => assignAt_putAt h) fun e fs' h => update_assign_error h
  · refine change_foresees hm hv (fun fs' h => assign_putAt h) fun e fs' h => ?_
    unfold Frames.assign at h
    split at h
    · cases h
      exact ⟨rfl, nofun⟩
    · exact update_assign_error h

lemma newFrame_foresees {frame : Frame} (hm : m.MadeOf (Sited S))
    (hframe : ∀ name v, frame.Holds name v → v.MadeOf (Sited S)) :
    Foresees S (.lift (newFrame frame)) m fun j m' => j = m.frames.size ∧ m'.frames = m.frames.add frame :=
  .step rfl (hm.add hframe) ⟨rfl, rfl⟩

lemma lookUpAs_foresees {use : Occurrence OccurrenceId} (hm : m.MadeOf (Sited S)) :
    Foresees S (.lift (lookUpAs use text)) m fun v _ => v.MadeOf (Sited S) := by
  rcases lookUpAs_cases use text m with ⟨v, hv⟩ | herror
  · obtain ⟨j, hj⟩ := lookUpAs_holds hv
    exact .step hv hm (hm.frames j text v hj)
  · exact .stop herror hm nofun

lemma ofTypes_foresees {r : Except Mismatch Value} (hm : m.MadeOf (Sited S))
    (h : ∀ v, r = .ok v → v.MadeOf (Sited S)) :
    Foresees S (.lift (ofTypes line r)) m fun v _ => v.MadeOf (Sited S) := by
  cases r with
  | ok v => exact .pure hm (h v rfl)
  | error e => exact .fail hm nofun

lemma checkArity_foresees {expected got : Nat} (hm : m.MadeOf (Sited S)) :
    Foresees S (.lift (checkArity text expected got line)) m fun _ _ => got = expected := by
  unfold checkArity
  split
  · next h => exact .pure hm h
  · exact .fail hm nofun

lemma printLine_foresees (hm : m.MadeOf (Sited S)) : Foresees S (.lift (printLine text)) m fun _ _ => True := by
  have hmade : ∀ sink, Machine.MadeOf (Sited S) { m with sink } := fun _ => ⟨hm.size, hm.frames, hm.objects⟩
  have hrun : printLine text m = if (!m.sink.fits (text ++ "\n").toUTF8) = true
      then .error (.error .sinkFull) { m with sink := m.sink.write (text ++ "\n").toUTF8 }
      else .ok () { m with sink := m.sink.write (text ++ "\n").toUTF8 } := rfl
  cases hfits : m.sink.fits (text ++ "\n").toUTF8 with
  | false =>
    rw [hfits, if_pos (by rfl)] at hrun
    exact .stop hrun (hmade _) fun _ h => by cases h
  | true =>
    rw [hfits, if_neg (by simp)] at hrun
    exact .step hrun (hmade _) trivial

/-! ### Functions, classes and objects -/

lemma newClosure_foresees {decl : FunctionDecl (Stmt OccurrenceId)} (hm : m.MadeOf (Sited S)) :
    Foresees S (.lift (newClosure decl)) m fun f _ => f.decl = decl :=
  .step rfl ⟨hm.size, hm.frames, hm.objects⟩ rfl

lemma newClosures_foresees {decls : List (FunctionDecl (Stmt OccurrenceId))} (hm : m.MadeOf (Sited S)) :
    Foresees S (.lift (newClosures decls)) m fun t _ => ∀ text f, t.get? text = some f → f.decl ∈ decls := by
  obtain ⟨t, stamp, h, ht⟩ := newClosures_ok decls m
  exact .step h ⟨hm.size, hm.frames, hm.objects⟩ fun text f hf => (ht text f hf).1

lemma newObject_foresees {c : Class} (hm : m.MadeOf (Sited S)) :
    Foresees S (.lift (newObject c)) m fun o _ => o.cls = c :=
  .step rfl hm.push rfl

lemma setProperty_foresees {o : Object} (hm : m.MadeOf (Sited S)) (hv : v.MadeOf (Sited S)) :
    Foresees S (.lift (setProperty o name v)) m fun _ _ => True :=
  .step rfl (hm.setProperty hv o.id) trivial

lemma bindMethod_foresees {f : Closure} {c : Class} {o : Object} (hm : m.MadeOf (Sited S))
    (hc : c.MadeOf (Sited S)) (ho : o.cls.MadeOf (Sited S)) :
    Foresees S (.lift (bindMethod f c o)) m fun g _ => g.decl = f.decl := by
  unfold bindMethod
  rw [Traced.lift_bind]
  refine (newFrame_foresees hm (receiverFrame_madeOf hc ho)).bind fun j m' _ hm' _ => ?_
  exact .step rfl ⟨hm'.size, hm'.frames, hm'.objects⟩ rfl

lemma method_foresees {o : Object} {start : Class} (hm : m.MadeOf (Sited S)) (hs : start.MadeOf (Sited S))
    (ho : o.cls.MadeOf (Sited S)) :
    Foresees S (.lift (method o start name)) m fun v _ => v.MadeOf (Sited S) := by
  unfold method
  split
  · next c f hf =>
    obtain ⟨hc, hdecl⟩ := findMethod?_madeOf hs hf
    rw [Traced.lift_bind]
    refine (bindMethod_foresees hm hc ho).bind fun g m' _ hm' hg => .pure hm' ?_
    rw [Value.MadeOf, hg]
    exact hdecl
  · exact .noProperty hm

lemma property_foresees (hm : m.MadeOf (Sited S)) (hv : v.MadeOf (Sited S)) :
    Foresees S (definitions.property v name) m fun w _ => w.MadeOf (Sited S) := by
  rw [definitions.property_unmarked rfl]
  unfold property
  cases v with
  | object o =>
    refine .get_bind ?_
    split
    · next w hw => exact .pure hm (hm.objects _ _ _ hw)
    · exact method_foresees hm hv hv
  | ofClass c =>
    simp only
    split
    · next f hf => exact .pure hm (findStatic?_madeOf hv hf)
    · exact .noProperty hm
  | _ => exact .noProperty hm

lemma superProperty_foresees {keyword : Occurrence OccurrenceId} (hm : m.MadeOf (Sited S)) :
    Foresees S (definitions.superProperty keyword name) m fun w _ => w.MadeOf (Sited S) := by
  rw [definitions.superProperty_unmarked rfl, superProperty, Traced.lift_bind]
  refine (lookUpAs_foresees hm).bind fun v m1 _ hm1 hv => ?_
  cases v with
  | ofClass c =>
    simp only
    rw [Traced.lift_bind]
    refine (lookUpAs_foresees hm1).bind fun w m2 _ hm2 hw => ?_
    cases w with
    | object o => exact method_foresees hm2 hv hw
    | _ => exact .noProperty hm2
  | _ => exact .noProperty hm1

lemma superclass_foresees {parent : Option (Occurrence OccurrenceId)} (hm : m.MadeOf (Sited S)) :
    Foresees S (definitions.superclass name parent) m fun c _ => ∀ d ∈ c, d.MadeOf (Sited S) := by
  rw [definitions.superclass_unmarked rfl]
  cases parent with
  | none => exact .pure hm nofun
  | some use =>
    unfold superclass
    rw [Traced.lift_bind]
    refine (lookUpAs_foresees hm).bind fun v m' _ hm' hv => ?_
    cases v with
    | ofClass c =>
      refine .pure hm' fun d hd => ?_
      cases hd
      exact hv
    | _ => exact .fail hm' nofun

lemma finishClass_foresees {parent : Option Class} {methods statics : List (FunctionDecl (Stmt OccurrenceId))}
    (hm : m.MadeOf (Sited S)) (hparent : ∀ d ∈ parent, d.MadeOf (Sited S)) (hmethods : ∀ d ∈ methods, Sited S d)
    (hstatics : ∀ d ∈ statics, Sited S d) :
    Foresees S (.lift (finishClass name parent methods statics)) m fun _ _ => True := by
  unfold finishClass
  rw [Traced.lift_bind]
  refine (Foresees.step (x := newStamp) (Q := fun _ _ => True) rfl
    ⟨hm.size, hm.frames, hm.objects⟩ trivial).bind fun stamp m1 _ hm1 _ => ?_
  rw [Traced.lift_bind]
  refine (newClosures_foresees hm1).bind fun ms m2 _ hm2 hms => ?_
  rw [Traced.lift_bind]
  refine (newClosures_foresees hm2).bind fun ss m3 _ hm3 hss => .get_bind ?_
  have hclass : (Class.extending parent ⟨stamp, name.text, ms, ss⟩).MadeOf (Sited S) :=
    Class.MadeOf.extending hparent
      ⟨fun text f hf => hmethods _ (hms text f hf), fun text f hf => hstatics _ (hss text f hf)⟩
  exact change_foresees (v := .ofClass _) hm3 hclass (fun fs' h => assignAt_putAt h) fun e fs' h =>
    update_assign_error h

end ScriptLang
