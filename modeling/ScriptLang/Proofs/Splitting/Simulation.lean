import ScriptLang.Proofs.Observing.Traced
import ScriptLang.Proofs.Splitting.AlikeFrames
import ScriptLang.Eval.Run

/-!
# Computations that differ in lines

Two computations simulate each other if from machines alike both succeed, with related results, or both stop,
and leave machines alike.  Neither changes the table of its machine, and what a successful one writes is
text.

* `EndAlike`, `Simulates` — the relation between outcomes and between computations;
* `Simulates.bind`, `Simulates.inFrame`, `mapM_simulates` — how computations are put together;
* `lookUp_simulates`, `define_simulates`, … — the single steps of running.
-/

namespace ScriptLang

open Eval

variable {α β γ δ : Type} {n : OccurrenceId} {m m' m1 m1' m2 m2' : Machine} {R : α → β → Prop}
  {S : γ → δ → Prop}

/-! ### Outcomes -/

/-- The second machine is the first with more text written. -/
def Wrote (m m1 : Machine) : Prop := ∃ text : String, m1.sink.written = m.sink.written ++ text.toUTF8

lemma Wrote.of_sink (h : m1.sink = m.sink) : Wrote m m1 := by
  refine ⟨"", ?_⟩
  rw [h]
  simp

lemma Wrote.trans (h : Wrote m m1) (h' : Wrote m1 m2) : Wrote m m2 := by
  obtain ⟨s, hs⟩ := h
  obtain ⟨t, ht⟩ := h'
  refine ⟨s ++ t, ?_⟩
  simp only [ht, hs, ByteArray.append_assoc, String.toUTF8_eq_toByteArray, String.toByteArray_append]

/-- Two machines alike that have come from two others with their tables unchanged. -/
structure Together (n : OccurrenceId) (m m' m1 m1' : Machine) : Prop where
  alike : m1.Alike n m1'
  left : m1.locals = m.locals
  right : m1'.locals = m'.locals

lemma Together.refl (h : m.Alike n m') : Together n m m' m m' := ⟨h, rfl, rfl⟩

lemma Together.trans (h : Together n m m' m1 m1') (h' : Together n m1 m1' m2 m2') :
    Together n m m' m2 m2' := ⟨h'.alike, h'.left.trans h.left, h'.right.trans h.right⟩

/-- The outcomes of two computations: both have succeeded, with related results, or both have stopped. -/
inductive EndAlike (n : OccurrenceId) (R : α → β → Prop) (m m' : Machine) :
    EStateM.Result Stop Machine α → EStateM.Result Stop Machine β → Prop
  | ok {a b m1 m1'} : R a b → Together n m m' m1 m1' → Wrote m m1 → EndAlike n R m m' (.ok a m1) (.ok b m1')
  | error {e e' m1 m1'} : Together n m m' m1 m1' → EndAlike n R m m' (.error e m1) (.error e' m1')

lemma EndAlike.inv {r : EStateM.Result Stop Machine α} {r' : EStateM.Result Stop Machine β}
    (h : EndAlike n R m m' r r') :
    (∃ a b m1 m1', r = .ok a m1 ∧ r' = .ok b m1' ∧ R a b ∧ Together n m m' m1 m1' ∧ Wrote m m1) ∨
      ∃ e e' m1 m1', r = .error e m1 ∧ r' = .error e' m1' ∧ Together n m m' m1 m1' := by
  cases h with
  | ok hab ht hw => exact .inl ⟨_, _, _, _, rfl, rfl, hab, ht, hw⟩
  | error ht => exact .inr ⟨_, _, _, _, rfl, rfl, ht⟩

/-- From machines alike the two computations have outcomes alike. -/
def Simulates (n : OccurrenceId) (R : α → β → Prop) (x : Eval α) (y : Eval β) : Prop :=
  ∀ m m', m.Alike n m' → EndAlike n R m m' (x m) (y m')

variable {x : Eval α} {y : Eval β} {f : α → Eval γ} {g : β → Eval δ} {a : α} {b : β}

lemma Simulates.pure (h : R a b) : Simulates n R (pure a) (pure b) :=
  fun _ _ hm => .ok h (.refl hm) (.of_sink rfl)

lemma Simulates.throw {s s' : Stop} : Simulates n R (throw s) (throw s') := fun _ _ hm => .error (.refl hm)

lemma Simulates.bind (h : Simulates n R x y) (hf : ∀ a b, R a b → Simulates n S (f a) (g b)) :
    Simulates n S (x >>= f) (y >>= g) := by
  intro m m' hm
  obtain ⟨a, b, m1, m1', hx, hy, hab, ht, hw⟩ | ⟨e, e', m1, m1', hx, hy, ht⟩ := (h m m' hm).inv
  · rw [Traced.bind_ok hx, Traced.bind_ok hy]
    obtain ⟨c, d, m2, m2', hc, hd, hcd, ht', hw'⟩ | ⟨e, e', m2, m2', hc, hd, ht'⟩ :=
      (hf a b hab m1 m1' ht.alike).inv
    · rw [hc, hd]
      exact .ok hcd (ht.trans ht') (hw.trans hw')
    · rw [hc, hd]
      exact .error (ht.trans ht')
  · rw [Traced.bind_error hx, Traced.bind_error hy]
    exact .error ht

/-- A step that depends on the machine. -/
lemma Simulates.get_bind {f : Machine → Eval α} {g : Machine → Eval β}
    (h : ∀ m m', m.Alike n m' → EndAlike n R m m' (f m m) (g m' m')) :
    Simulates n R (get >>= f) (get >>= g) := h

lemma Simulates.inFrame {i : FrameId} (h : Simulates n R x y) : Simulates n R (inFrame i x) (inFrame i y) := by
  intro m m' hm
  have hm' : Machine.Alike n { m with current := i } { m' with current := i } :=
    ⟨hm.frames, hm.objects, hm.properties, hm.nextStamp, rfl, hm.sink, hm.locals⟩
  have back : ∀ {m1 m1'}, Together n { m with current := i } { m' with current := i } m1 m1' →
      Together n m m' { m1 with current := m.current } { m1' with current := m'.current } := fun ht =>
    ⟨⟨ht.alike.frames, ht.alike.objects, ht.alike.properties, ht.alike.nextStamp, hm.current,
      ht.alike.sink, ht.alike.locals⟩, ht.left, ht.right⟩
  unfold Eval.inFrame
  simp only
  obtain ⟨a, b, m1, m1', hx, hy, hab, ht, hw⟩ | ⟨e, e', m1, m1', hx, hy, ht⟩ := (h _ _ hm').inv
  · rw [hx, hy]
    exact .ok hab (back ht) hw
  · rw [hx, hy]
    exact .error (back ht)

/-- Computations over related lists, one after another. -/
lemma mapM_simulates {P : γ → δ → Prop} {f : γ → Eval α} {g : δ → Eval β} {l : List γ} {l' : List δ}
    (h : List.Forall₂ P l l') (hfg : ∀ c d, P c d → Simulates n R (f c) (g d)) :
    Simulates n (List.Forall₂ R) (l.mapM f) (l'.mapM g) := by
  induction h with
  | nil =>
    rw [List.mapM_nil, List.mapM_nil]
    exact .pure .nil
  | @cons c d l l' hcd _ ih =>
    rw [List.mapM_cons, List.mapM_cons]
    exact (hfg c d hcd).bind fun a b hab => ih.bind fun as bs habs => .pure (.cons hab habs)

/-! ### Single steps -/

variable {line line' : Nat} {v v' : Value} {key : String}

lemma fail_simulates {e e' : RuntimeError} : Simulates n R (fail e) (fail e') := .throw

lemma ofFrames_simulates {r : Except FrameError α} {r' : Except FrameError β} (h : Agree R r r') :
    Simulates n R (ofFrames line r) (ofFrames line' r') := by
  cases h with
  | ok h => exact .pure h
  | error => exact .throw

lemma ofTypes_simulates {r : Except Mismatch α} {r' : Except Mismatch β} (h : Agree R r r') :
    Simulates n R (ofTypes line r) (ofTypes line' r') := by
  cases h with
  | ok h => exact .pure h
  | error => exact .throw

lemma Machine.Alike.withFrames {fs fs' : Frames} (hm : m.Alike n m') (h : fs.Alike n fs') :
    Machine.Alike n { m with frames := fs } { m' with frames := fs' } :=
  ⟨h, hm.objects, hm.properties, hm.nextStamp, hm.current, hm.sink, hm.locals⟩

lemma change_endAlike {op op' : Frames.Change Unit} (hm : m.Alike n m')
    (h : FramesAgree n (op m.frames) (op' m'.frames)) :
    EndAlike n Eq m m' (change line op m) (change line' op' m') := by
  unfold Eval.change
  simp only
  revert h
  generalize op m.frames = r
  generalize op' m'.frames = r'
  rintro (h | h)
  · exact .ok rfl ⟨hm.withFrames h, rfl, rfl⟩ (.of_sink rfl)
  · exact .error ⟨hm.withFrames h, rfl, rfl⟩

lemma change_simulates {op op' : Frames.Change Unit}
    (h : ∀ fs fs', fs.Alike n fs' → FramesAgree n (op fs) (op' fs')) :
    Simulates n Eq (change line op) (change line' op') :=
  fun m m' hm => change_endAlike hm (h m.frames m'.frames hm.frames)

lemma newFrame_simulates {frame frame' : Frame} (h : frame.Alike n frame') :
    Simulates n Eq (newFrame frame) (newFrame frame') := by
  intro m m' hm
  refine .ok hm.frames.size ⟨hm.withFrames (hm.frames.add h), rfl, rfl⟩ (.of_sink rfl)

lemma define_simulates {name : Ident} {constant : Bool} (f : Nat → Nat) (hv : v.Alike n v') :
    Simulates n Eq (define name v constant) (define (name.relabel f) v' constant) := by
  refine .get_bind fun m m' hm => change_endAlike hm ?_
  rw [hm.current]
  exact define_agree hm.frames hv

lemma lookUpAs_simulates {use use' : Occurrence OccurrenceId} (hid : use.id = use'.id) (hlt : use.id < n) :
    Simulates n (Value.Alike n) (lookUpAs use key) (lookUpAs use' key) := by
  refine .get_bind fun m m' hm => ofFrames_simulates ?_ m m' hm
  rw [← hid, ← hm.locals use.id hlt, hm.current]
  split
  · exact hm.frames.getAt _
  · exact hm.frames.get

lemma lookUp_simulates {use use' : Occurrence OccurrenceId} (h : ∃ f, use' = use.relabel f id)
    (hlt : use.id < n) : Simulates n (Value.Alike n) (lookUp use) (lookUp use') := by
  obtain ⟨f, rfl⟩ := h
  exact lookUpAs_simulates rfl hlt

lemma assign_simulates {use use' : Occurrence OccurrenceId} (h : ∃ f, use' = use.relabel f id)
    (hlt : use.id < n) (hv : v.Alike n v') : Simulates n Eq (assign use v) (assign use' v') := by
  obtain ⟨f, rfl⟩ := h
  refine .get_bind fun m m' hm => ?_
  have hlocals := hm.locals use.id hlt
  simp only [Occurrence.relabel, Ident.relabel, id, hm.current]
  rcases hl : m.locals[use.id]? with _ | hops
  · rw [← hlocals, hl]
    exact change_endAlike hm (assign_agree hm.frames hv)
  · rw [← hlocals, hl]
    exact change_endAlike hm (assignAt_agree hm.frames hv)

/-! ### Functions, classes and objects -/

variable {d d' : FunctionDecl (Stmt OccurrenceId)} {c c' : Class} {o o' : Object} {h h' : Closure}
  {name name' : Ident}

lemma newStamp_simulates : Simulates n Eq newStamp newStamp := by
  intro m m' hm
  exact .ok hm.nextStamp ⟨⟨hm.frames, hm.objects, hm.properties, congrArg (· + 1) hm.nextStamp, hm.current,
    hm.sink, hm.locals⟩, rfl, rfl⟩ (.of_sink rfl)

lemma newClosure_simulates (hd : d.Alike n d') :
    Simulates n (Closure.Alike n) (newClosure d) (newClosure d') :=
  newStamp_simulates.bind fun _ _ hs => .get_bind fun _ _ hm =>
    .ok ⟨hs, hd, hm.current⟩ (.refl hm) (.of_sink rfl)

lemma newClosures_simulates {ds ds' : List (FunctionDecl (Stmt OccurrenceId))}
    (hds : List.Forall₂ (FunctionDecl.Alike n) ds ds') :
    Simulates n (Table.Alike (Closure.Alike n)) (newClosures ds) (newClosures ds') :=
  (mapM_simulates (R := fun p p' => p.1 = p'.1 ∧ p.2.Alike n p'.2) hds fun _ _ hd =>
    (newClosure_simulates hd).bind fun _ _ hf => .pure ⟨hd.name, hf⟩).bind fun _ _ hes =>
      .pure (ofEntries_alike hes)

lemma newObject_simulates (hc : c.Alike n c') :
    Simulates n (Object.Alike n) (newObject c) (newObject c') := by
  intro m m' hm
  refine .ok ⟨hm.objects, hc⟩ ⟨⟨hm.frames, ?_, properties_push hm.properties, hm.nextStamp, hm.current, hm.sink,
    hm.locals⟩, rfl, rfl⟩ (.of_sink rfl)
  simp only [Array.size_push, hm.objects]

lemma setProperty_simulates (ho : o.id = o'.id) (hname : name.text = name'.text) (hv : v.Alike n v') :
    Simulates n Eq (setProperty o name v) (setProperty o' name' v') := by
  intro m m' hm
  refine .ok rfl ⟨⟨hm.frames, ?_, ?_, hm.nextStamp, hm.current, hm.sink, hm.locals⟩, rfl, rfl⟩ (.of_sink rfl)
  · simp only [Array.size_modify, hm.objects]
  · simp only [← ho, ← hname]
    exact properties_modify hm.properties hm.objects hv o.id name.text

lemma receiverFrame_alike (hf : h.Alike n h') (hc : c.Alike n c') (ho : o.Alike n o') :
    (receiverFrame h c o).Alike n (receiverFrame h' c' o') := by
  refine ⟨.cons ⟨rfl, .object ho⟩ ?_, .nil, congrArg some hf.frame⟩
  obtain ⟨hs, hs'⟩ | ⟨p, p', hs, hs', hp⟩ := rel_iff.1 hc.superclass?
  · rw [hs, hs']
    exact .nil
  · rw [hs, hs']
    exact .cons ⟨rfl, .ofClass hp⟩ .nil

lemma bindMethod_simulates (hf : h.Alike n h') (hc : c.Alike n c') (ho : o.Alike n o') :
    Simulates n (Closure.Alike n) (bindMethod h c o) (bindMethod h' c' o') :=
  (newFrame_simulates (receiverFrame_alike hf hc ho)).bind fun _ _ hi =>
    newStamp_simulates.bind fun _ _ hs => .pure ⟨hs, hf.decl, hi⟩

lemma method_simulates (ho : o.Alike n o') (hc : c.Alike n c') (hname : name.text = name'.text) :
    Simulates n (Value.Alike n) (method o c name) (method o' c' name') := by
  unfold Eval.method
  rw [← hname]
  obtain ⟨hm, hm'⟩ | ⟨p, p', hm, hm', hp⟩ := rel_iff.1 (hc.findMethod? name.text)
  · rw [hm, hm']
    exact fail_simulates
  · rw [hm, hm']
    exact (bindMethod_simulates hp.2 hp.1 ho).bind fun _ _ hg => .pure (.closure hg)

lemma property_simulates (hv : v.Alike n v') (hname : name.text = name'.text) :
    Simulates n (Value.Alike n) (property v name) (property v' name') := by
  cases hv with
  | @object o o' ho =>
    refine .get_bind fun m m' hm => ?_
    have hget := (hm.properties o.id).get? name.text
    simp only [← ho.id, ← hname]
    obtain ⟨hp, hp'⟩ | ⟨w, w', hp, hp', hw⟩ := rel_iff.1 hget
    · rw [hp, hp']
      exact method_simulates ho ho.cls hname m m' hm
    · rw [hp, hp']
      exact .ok hw (.refl hm) (.of_sink rfl)
  | ofClass hc =>
    unfold Eval.property
    simp only [← hname]
    obtain ⟨hs, hs'⟩ | ⟨f, f', hs, hs', hf⟩ := rel_iff.1 (hc.findStatic? name.text)
    · rw [hs, hs']
      exact fail_simulates
    · rw [hs, hs']
      exact .pure (.closure hf)
  | _ => exact fail_simulates

lemma superProperty_simulates {use use' : Occurrence OccurrenceId} (huse : ∃ f, use' = use.relabel f id)
    (hlt : use.id < n) (hname : name.text = name'.text) :
    Simulates n (Value.Alike n) (superProperty use name) (superProperty use' name') := by
  refine (lookUp_simulates huse hlt).bind fun v v' hv => ?_
  obtain ⟨f, rfl⟩ := huse
  cases hv with
  | ofClass hc =>
    have hthis : Simulates n (Value.Alike n) (lookUpAs use "this") (lookUpAs (use.relabel f id) "this") :=
      lookUpAs_simulates rfl hlt
    refine hthis.bind fun w w' hw => ?_
    cases hw with
    | object ho => exact method_simulates ho hc hname
    | _ => exact fail_simulates
  | _ => exact fail_simulates

lemma write_of_fits {s : Sink} {bytes : ByteArray} (h : s.fits bytes = true) :
    (s.write bytes).written = s.written ++ bytes := by
  obtain ⟨written, room⟩ := s
  cases room with
  | none => rfl
  | some k =>
    have hle : bytes.size ≤ k := of_decide_eq_true h
    have hall : bytes.extract 0 k = bytes := by
      rw [← Nat.max_eq_left hle]
      exact ByteArray.extract_zero_max_size
    show written ++ bytes.extract 0 k = written ++ bytes
    rw [hall]

lemma printLine_simulates {text : String} : Simulates n Eq (printLine text) (printLine text) := by
  intro m m' hm
  unfold Eval.printLine
  simp only [← hm.sink]
  have ht : ∀ sink, Together n m m' { m with sink } { m' with sink } := fun sink =>
    ⟨⟨hm.frames, hm.objects, hm.properties, hm.nextStamp, hm.current, rfl, hm.locals⟩, rfl, rfl⟩
  split
  · exact .error (ht _)
  · next hfits =>
    refine .ok rfl (ht _) ⟨text ++ "\n", write_of_fits ?_⟩
    simpa using hfits

end ScriptLang
