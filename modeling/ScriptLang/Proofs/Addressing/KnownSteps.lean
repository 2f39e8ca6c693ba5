import Mathlib.Data.List.Induction
import ScriptLang.Proofs.Addressing.KnownCode
import ScriptLang.Proofs.Store.Related

/-!
# Steps between good machines

What the single steps of running do to a good machine: it stays good, frames only grow, and the values that
come out of them are known.

* `define_keeps`, `assign_keeps`, `newFrame_keeps` — changes of frames;
* `lookUpAs_holds`, `receiverFrame_holds` — which frame a value is in, and which values a frame has;
* `lookUp_keeps`, `property_keeps`, `superProperty_keeps` — values found;
* `Value.IsPrimitive` — values computed, which refer to nothing;
* `newClosures_keeps`, `bindMethod_keeps` — functions made;
* `bindParams_keeps` — the frame of a call fits the scope of the parameters.
-/

namespace ScriptLang

open Resolving (reservedScope)
open Eval
open Observer (expressions)

variable {C : Moments} {fs fs' : Frames} {m m' : Machine} {scopes : List Scope} {i p : FrameId}
  {name : Ident} {v : Value} {line : Nat}

/-! ### Frames -/

/-- A change of frames leads from a good machine to a good one. -/
lemma Machine.Good.change (hm : m.Good C) (hg : Grows m.frames fs')
    (hv : ∀ i name w, (fs'.frame i).Holds name w → (m.frames.frame i).Holds name w ∨ w.Known C fs') :
    After C m { m with frames := fs' } := by
  refine ⟨⟨Nat.lt_of_lt_of_le hm.size hg.size, fun i name w hw => ?_, fun id name w hw => ?_⟩, hg, rfl, rfl⟩
  · rcases hv i name w hw with hw | hw
    · exact (hm.frames i name w hw).grows hg
    · exact hw
  · exact (hm.objects id name w hw).grows hg

lemma change_of_ok (op : Frames.Change α) {a : α} (h : op m.frames = .ok a fs') :
    change line op m = .ok a { m with frames := fs' } := by
  unfold Eval.change
  simp only [h]

lemma change_of_error (op : Frames.Change α) {e : FrameError} (h : op m.frames = .error e m.frames) :
    change line op m = .error (.error (e.atLine line)) m := by
  unfold Eval.change
  simp only [h]

lemma change_keeps {op : Frames.Change Unit} {Q : Unit → Machine → Prop} (hm : m.Good C)
    (hok : ∀ fs', op m.frames = .ok () fs' →
      (∃ i v, PutAt i v m.frames fs' ∧ v.Known C fs') ∧ Q () { m with frames := fs' })
    (herr : ∀ e fs', op m.frames = .error e fs' → fs' = m.frames) :
    Keeps C (.lift (change line op)) m Q := by
  refine .lift ?_
  unfold Eval.change
  simp only
  rcases hop : op m.frames with ⟨⟨⟩, fs'⟩ | ⟨e, fs'⟩
  · obtain ⟨⟨i, v, hput, hv⟩, hQ⟩ := hok fs' hop
    refine ⟨hm.change hput.grows fun j other w hw => ?_, hQ⟩
    rcases hput.holds hw with hw | rfl
    · exact .inl hw
    · exact .inr hv
  · obtain rfl := herr e fs' hop
    exact .refl hm

lemma Fits.lt_current (h : Fits m.frames scopes m.current) (hm : m.Good C) :
    m.current < m.frames.size := h.lt_size hm.size

/-- A value is bound in the current frame.  It need be known only once its name is bound. -/
lemma define_keeps {constant : Bool} (hm : m.Good C) (hc : m.current < m.frames.size)
    (hv : ∀ fs', Grows m.frames fs' → (fs'.frame m.current).binds name.text = true → v.Known C fs') :
    Keeps C (.lift (define name v constant)) m
      fun _ m' => (m'.frames.frame m'.current).binds name.text = true := by
  have h : Keeps C (.lift (change name.line (Frames.define m.current name.text v constant))) m
      fun _ m' => (m'.frames.frame m'.current).binds name.text = true := by
    refine change_keeps hm (fun fs' h => ?_) fun e fs' h => update_error h
    obtain ⟨hput, hb⟩ := define_putAt h
    exact ⟨⟨_, v, hput, hv fs' hput.grows (hb hc)⟩, hb hc⟩
  exact h

lemma assign_keeps {use : Occurrence OccurrenceId} (hm : m.Good C) (hv : v.Known C m.frames) :
    Keeps C (.lift (assign use v)) m fun _ _ => True := by
  have put : ∀ {fs'}, (∃ j, PutAt j v m.frames fs') →
      (∃ i w, PutAt i w m.frames fs' ∧ w.Known C fs') ∧ True := by
    rintro fs' ⟨j, hput⟩
    exact ⟨⟨j, v, hput, hv.grows hput.grows⟩, trivial⟩
  unfold assign
  refine .get_bind ?_
  simp only
  split
  · exact change_keeps hm (fun fs' h => put (assignAt_putAt h)) fun e fs' h => update_error h
  · exact change_keeps hm (fun fs' h => put (assign_putAt h)) fun e fs' h => assign_error h

lemma newFrame_keeps {frame : Frame} (hm : m.Good C)
    (hf : ∀ name v, frame.Holds name v → v.Known C m.frames) :
    Keeps C (.lift (newFrame frame)) m
      fun i m' => i = m.frames.size ∧ m'.frames = m.frames.add frame := by
  refine .lift ⟨hm.change (grows_add frame) fun i name w hw => ?_, rfl, rfl⟩
  rw [frame_add] at hw
  split at hw
  · exact .inr ((hf name w hw).grows (grows_add frame))
  · exact .inl hw

lemma Fits.add {frame : Frame} {scope : Scope} (h : Fits fs scopes p) (h0 : 0 < fs.size)
    (hp : frame.parent = some p)
    (hb : ∀ name, scope.get? name = some .defined → frame.binds name = true) :
    Fits (fs.add frame) (scope :: scopes) fs.size := by
  refine ⟨fun name hname => ?_, p, parent?_add hp (h.lt_size h0), h.grows (grows_add frame)⟩
  rw [frame_add, if_pos rfl]
  exact hb name hname

/-- The frame of a block or a call, which binds nothing yet. -/
lemma newInner_keeps (hm : m.Good C) (h : Fits m.frames scopes p) :
    Keeps C (.lift (newFrame (.empty (some p)))) m fun i m' => Fits m'.frames ([] :: scopes) i := by
  refine (newFrame_keeps hm ?_).mono ?_
  · rintro name v (h | h) <;> cases h
  · rintro i m' - ⟨rfl, hfr⟩
    rw [hfr]
    exact h.add hm.size rfl nofun

/-! ### Values found -/

lemma get?_holds {f : Frame} {text : String} (h : f.get? text = some v) : f.Holds text v := by
  unfold Frame.get? at h
  rcases hm : f.mutables.get? text with _ | w
  · rw [hm] at h
    exact .inr h
  · rw [hm] at h
    cases h
    exact .inl hm

lemma getAt_holds {hops : Nat} {text : String} (h : fs.getAt i hops text = .ok v) : ∃ j, (fs.frame j).Holds text v := by
  unfold Frames.getAt at h
  split at h
  · next w hw =>
    cases h
    exact ⟨_, get?_holds hw⟩
  · cases h

lemma get_holds {text : String} (h : fs.get i text = .ok v) : ∃ j, (fs.frame j).Holds text v := by
  unfold Frames.get at h
  split at h
  · next w hw =>
    cases h
    obtain ⟨j, -, hj⟩ := List.exists_of_findSome?_eq_some hw
    exact ⟨j, get?_holds hj⟩
  · cases h

/-- What is found for a use of a name is in some frame under this name. -/
lemma lookUpAs_holds {use : Occurrence OccurrenceId} {text : String} (h : lookUpAs use text m = .ok v m') :
    ∃ j, (m.frames.frame j).Holds text v := by
  have hfound : ∀ {r : Except FrameError Value}, (∀ w, r = .ok w → ∃ j, (m.frames.frame j).Holds text w) →
      (ofFrames use.line r : Eval Value) m = .ok v m' → ∃ j, (m.frames.frame j).Holds text v := by
    intro r hr h
    cases r with
    | ok w =>
      cases h
      exact hr _ rfl
    | error e => cases h
  unfold lookUpAs at h
  rw [Traced.bind_get] at h
  split at h
  · exact hfound (fun w hw => getAt_holds hw) h
  · exact hfound (fun w hw => get_holds hw) h

/-- A name is found in the machine as it is, or not found. -/
lemma lookUpAs_cases (use : Occurrence OccurrenceId) (text : String) (m : Machine) :
    (∃ v, lookUpAs use text m = .ok v m) ∨
      lookUpAs use text m = .error (.error (.undefinedVariable text use.line)) m := by
  have hcases : ∀ r : Except FrameError Value, (∃ v, r = .ok v) ∨ r = .error (.undefined text) →
      (∃ v, ofFrames use.line r m = .ok v m) ∨
        ofFrames use.line r m = .error (.error (.undefinedVariable text use.line)) m := by
    rintro r (⟨v, rfl⟩ | rfl)
    · exact .inl ⟨v, rfl⟩
    · exact .inr rfl
  unfold lookUpAs
  rw [Traced.bind_get]
  refine hcases _ ?_
  split
  · unfold Frames.getAt
    split
    · exact .inl ⟨_, rfl⟩
    · exact .inr rfl
  · unfold Frames.get
    split
    · exact .inl ⟨_, rfl⟩
    · exact .inr rfl

lemma lookUpAs_keeps {use : Occurrence OccurrenceId} {text : String} (hm : m.Good C) :
    Keeps C (.lift (lookUpAs use text)) m fun v m' => v.Known C m'.frames := by
  refine .lift ?_
  rcases lookUpAs_cases use text m with ⟨v, hv⟩ | herror
  · obtain ⟨j, hj⟩ := lookUpAs_holds hv
    rw [hv]
    exact ⟨.refl hm, hm.frames j text v hj⟩
  · rw [herror]
    exact .refl hm

lemma lookUp_keeps {use : Occurrence OccurrenceId} (hm : m.Good C) :
    Keeps C (.lift (lookUp use)) m fun v m' => v.Known C m'.frames := lookUpAs_keeps hm

lemma fail_keeps {α : Type} {e : RuntimeError} {Q : α → Machine → Prop} (hm : m.Good C) :
    Keeps C (.lift (fail e)) m Q := .throw hm

lemma ofTypes_keeps {r : Except Mismatch Value} (hm : m.Good C)
    (h : ∀ v, r = .ok v → v.Known C m.frames) :
    Keeps C (.lift (ofTypes line r)) m fun v m' => v.Known C m'.frames := by
  cases r with
  | ok v => exact .const hm ⟨rfl, h v rfl⟩
  | error e => exact .const hm rfl

/-! ### Values computed -/

/-- The value is no function, no class and no instance, so it refers to nothing. -/
def Value.IsPrimitive : Value → Prop
  | .closure _ | .ofClass _ | .object _ => False
  | _ => True

lemma literal_primitive (l : Literal) : l.value.IsPrimitive := by
  cases l <;> trivial

lemma unary_primitive {op : UnaryOp} {w : Value} (h : op.apply v = .ok w) : w.IsPrimitive := by
  unfold UnaryOp.apply at h
  split at h <;> cases h <;> trivial

lemma binary_primitive {op : BinaryOp} {u w : Value} (h : op.apply u v = .ok w) : w.IsPrimitive := by
  unfold BinaryOp.apply at h
  split at h <;> cases h
  · cases op <;> trivial
  all_goals trivial

lemma Value.IsPrimitive.known (h : v.IsPrimitive) : v.Known C fs := by
  cases v with
  | closure | ofClass | object => exact h.elim
  | _ => trivial

/-! ### Checks and output -/

lemma checkArity_keeps {text : String} {expected got : Nat} (hm : m.Good C) :
    Keeps C (.lift (checkArity text expected got line)) m fun _ _ => got = expected := by
  unfold checkArity
  split
  · next h => exact .const hm ⟨rfl, h⟩
  · exact .throw hm

lemma printLine_keeps {text : String} (hm : m.Good C) :
    Keeps C (.lift (printLine text)) m fun _ _ => True := by
  have hafter : ∀ sink, After C m { m with sink } := fun sink =>
    ⟨⟨hm.size, hm.frames, hm.objects⟩, .refl, rfl, rfl⟩
  refine .lift ?_
  unfold printLine
  simp only
  split
  · exact hafter _
  · exact ⟨hafter _, trivial⟩

/-! ### Functions and objects -/

lemma newClosure_keeps {decl : FunctionDecl (Stmt OccurrenceId)} (hm : m.Good C) :
    Keeps C (.lift (newClosure decl)) m fun f _ => f.decl = decl ∧ f.frame = m.current :=
  .lift ⟨⟨⟨hm.size, hm.frames, hm.objects⟩, .refl, rfl, rfl⟩, rfl, rfl⟩

lemma newStamp_keeps (hm : m.Good C) : Keeps C (.lift newStamp) m fun _ _ => True :=
  .lift ⟨⟨⟨hm.size, hm.frames, hm.objects⟩, .refl, rfl, rfl⟩, trivial⟩

lemma newObject_keeps {c : Class} (hm : m.Good C) :
    Keeps C (.lift (newObject c)) m fun o _ => o.cls = c := by
  refine .lift ⟨⟨⟨hm.size, hm.frames, fun id name w hw => ?_⟩, .refl, rfl, rfl⟩, rfl⟩
  rw [getD_push_nil] at hw
  exact hm.objects id name w hw

/-- The properties of objects after one was set: those that were there, and the value that was put. -/
lemma get?_modify_put {objects : Array (Table Value)} {o id : ObjectId} {key other : String} {w : Value}
    (h : ((objects.modify o fun t => t.put key v).getD id []).get? other = some w) :
    (objects.getD id []).get? other = some w ∨ w = v := by
  simp only [Array.getD_eq_getD_getElem?, Array.getElem?_modify] at h ⊢
  split at h
  · next hid =>
    subst hid
    rcases ho : objects[o]? with _ | t
    · rw [ho] at h
      cases h
    · rw [ho] at h
      exact holds_put h
  · exact .inl h

lemma setProperty_keeps {o : Object} (hm : m.Good C) (hv : v.Known C m.frames) :
    Keeps C (.lift (setProperty o name v)) m fun _ _ => True := by
  refine .lift ⟨⟨⟨hm.size, hm.frames, fun id text w hw => ?_⟩, .refl, rfl, rfl⟩, trivial⟩
  rcases get?_modify_put hw with hw | rfl
  · exact hm.objects id text w hw
  · exact hv

section Lists

variable {α β : Type}

/-- Computations one after another, with a property of results that growing frames keep. -/
lemma mapM_keeps {f : β → Marked α} {P : α → Frames → Prop}
    (hP : ∀ a fs fs', Grows fs fs' → P a fs → P a fs') {l : List β} (hm : m.Good C)
    (hf : ∀ b ∈ l, ∀ m', After C m m' → Keeps C (f b) m' fun a m'' => P a m''.frames) :
    Keeps C (l.mapM f) m fun as m' => as.length = l.length ∧ ∀ a ∈ as, P a m'.frames := by
  have loop : ∀ (l : List β) (acc : List α) (m' : Machine), (∀ b ∈ l, ∀ m'', After C m' m'' →
      Keeps C (f b) m'' fun a m'' => P a m''.frames) → m'.Good C → (∀ a ∈ acc, P a m'.frames) →
      Keeps C (List.mapM.loop f l acc) m'
        fun as m'' => as.length = acc.length + l.length ∧ ∀ a ∈ as, P a m''.frames := by
    intro l
    induction l with
    | nil =>
      intro acc m' _ hm' hacc
      exact .pure hm' ⟨List.length_reverse, fun a ha => hacc a (List.mem_reverse.1 ha)⟩
    | cons b l ih =>
      intro acc m' hf hm' hacc
      refine (hf b List.mem_cons_self m' (.refl hm')).bind fun a m'' h ha => ?_
      refine (ih (a :: acc) m'' (fun b hb m3 h3 => hf b (List.mem_cons_of_mem _ hb) m3 (h.trans h3)) h.good
        (List.forall_mem_cons.2 ⟨ha, fun c hc => hP c _ _ h.grows (hacc c hc)⟩)).mono ?_
      rintro as m3 - ⟨hlen, has⟩
      refine ⟨?_, has⟩
      rw [hlen, List.length_cons, List.length_cons]
      omega
  refine (loop l [] m hf hm (List.forall_mem_nil _)).mono ?_
  rintro as m' - ⟨hlen, has⟩
  exact ⟨by rw [hlen, List.length_nil, Nat.zero_add], has⟩

lemma lift_mapM {g : β → Eval α} (l : List β) :
    (Traced.lift (l.mapM g) : Marked (List α)) = l.mapM fun b => Traced.lift (g b) := by
  have loop : ∀ (l : List β) (acc : List α), (Traced.lift (List.mapM.loop g l acc) : Marked (List α)) =
      List.mapM.loop (fun b => Traced.lift (g b)) l acc := by
    intro l
    induction l with
    | nil => exact fun acc => rfl
    | cons b l ih =>
      intro acc
      rw [List.mapM.loop, List.mapM.loop, Traced.lift_bind]
      exact congrArg _ (funext fun a => ih (a :: acc))
  exact loop l []

end Lists

/-- Under a name a table has the last entry that was given for it. -/
lemma get?_ofEntries {α : Type} (entries : List (String × α)) (text : String) :
    (Table.ofEntries entries).get? text = (entries.reverse.find? (·.1 = text)).map (·.2) := by
  induction entries using List.reverseRecOn with
  | nil => rfl
  | append_singleton entries p ih =>
    rw [Table.ofEntries_eq_foldl, List.foldl_append, ← Table.ofEntries_eq_foldl, List.foldl_cons, List.foldl_nil,
      Table.get?_put, ih, List.reverse_append, List.reverse_singleton, List.singleton_append, List.find?_cons]
    by_cases hp : p.1 = text <;> simp [hp]

lemma mem_of_ofEntries {α : Type} {entries : List (String × α)} {text : String} {a : α}
    (h : (Table.ofEntries entries).get? text = some a) : (text, a) ∈ entries := by
  rw [get?_ofEntries] at h
  obtain ⟨p, hp, rfl⟩ := Option.map_eq_some_iff.1 h
  obtain rfl : p.1 = text := by simpa using List.find?_some hp
  exact List.mem_reverse.1 (List.mem_of_find?_eq_some hp)

/-- Functions made for declarations are among these and remember the current frame. -/
lemma newClosures_keeps {decls : List (FunctionDecl (Stmt OccurrenceId))} (hm : m.Good C) :
    Keeps C (.lift (newClosures decls)) m
      fun t _ => ∀ text f, t.get? text = some f →
        f.decl ∈ decls ∧ f.decl.name.text = text ∧ f.frame = m.current := by
  have h := mapM_keeps (f := fun d => Traced.lift (do return (d.name.text, ← newClosure d)))
    (P := fun (p : String × Closure) _ =>
      p.2.decl ∈ decls ∧ p.2.decl.name.text = p.1 ∧ p.2.frame = m.current)
    (fun _ _ _ _ h => h) hm (l := decls) fun d hd m' h => by
      rw [Traced.lift_bind]
      refine (newClosure_keeps h.good).bind fun f m'' h' hf => Keeps.pure h'.good ?_
      rw [hf.1, hf.2]
      exact ⟨hd, rfl, h.current⟩
  have hlift : (Traced.lift (newClosures decls) : Marked (Table Closure)) =
      (decls.mapM fun d => Traced.lift (do return (d.name.text, ← newClosure d))) >>=
        fun entries => Traced.lift (pure (Table.ofEntries entries)) := by
    unfold newClosures
    rw [Traced.lift_bind, lift_mapM]
  rw [hlift]
  refine h.bind fun entries m' h' hentries => Keeps.pure h'.good fun text f hf => ?_
  exact hentries.2 _ (mem_of_ofEntries hf)

/-- The frame of a bound method has the instance, and the superclass if there is one. -/
lemma receiverFrame_holds {f : Closure} {c : Class} {o : Object} {text : String} (h : (receiverFrame f c o).Holds text v) :
    v = .object o ∨ ∃ d, c.superclass? = some d ∧ v = .ofClass d := by
  rcases h with h | h
  · unfold receiverFrame at h
    simp only [Table.get?] at h
    split at h
    · cases h
      exact .inl rfl
    · split at h
      · cases h
      · next d hd =>
        simp only [Table.get?] at h
        split at h
        · cases h
          exact .inr ⟨d, hd, rfl⟩
        · cases h
  · cases h

/-- A bound method has a frame for the scope of the reserved names. -/
lemma bindMethod_keeps {f : Closure} {owner : Class} {o : Object} (hm : m.Good C)
    (hf : f.KnownMethod C m.frames owner.inherits) (howner : owner.Known C m.frames)
    (ho : o.cls.Known C m.frames) :
    Keeps C (.lift (bindMethod f owner o)) m fun g m' => g.Known C m'.frames ∧ g.decl = f.decl := by
  unfold bindMethod
  rw [Traced.lift_bind]
  obtain ⟨scopes, hr, hfits⟩ := hf
  refine (newFrame_keeps hm fun text w hw => ?_).bind fun i m' h hi => ?_
  · rcases receiverFrame_holds hw with rfl | ⟨c, hc, rfl⟩
    · exact ho
    · exact howner.superclass hc
  · rw [Traced.lift_bind]
    obtain ⟨rfl, hframes⟩ := hi
    have hnew : Fits m'.frames (reservedScope owner.inherits :: scopes) m.frames.size := by
      rw [hframes]
      refine hfits.add hm.size rfl fun text ht => ?_
      unfold reservedScope Class.inherits at ht
      unfold receiverFrame
      rcases hsup : owner.superclass? with _ | c
      · simp only [hsup, Option.isSome_none, Bool.false_eq_true, if_false, Table.get?] at ht
        split at ht
        · next htext =>
          subst htext
          rfl
        · cases ht
      · simp only [hsup, Option.isSome_some, if_true, Table.get?] at ht
        split at ht
        · next htext =>
          subst htext
          rfl
        · split at ht
          · next htext =>
            subst htext
            rfl
          · cases ht
    exact (newStamp_keeps h.good).bind fun stamp m'' h' _ =>
      Keeps.pure h'.good ⟨⟨_, hr, hnew.grows h'.grows⟩, rfl⟩

lemma method_keeps {o : Object} {start : Class} (hm : m.Good C) (hs : start.Known C m.frames)
    (ho : o.cls.Known C m.frames) :
    Keeps C (.lift (method o start name)) m fun v m' => v.Known C m'.frames := by
  unfold method
  split
  · next owner f hf =>
    obtain ⟨howner, hmethod⟩ := findMethod?_known hs hf
    rw [Traced.lift_bind]
    exact (bindMethod_keeps hm hmethod howner ho).bind fun g m' h hg => Keeps.pure h.good hg.1
  · exact fail_keeps hm

lemma property_keeps (hm : m.Good C) (hv : v.Known C m.frames) :
    Keeps C (expressions.property v name) m fun w m' => w.Known C m'.frames := by
  rw [expressions.property_unmarked rfl]
  unfold property
  cases v with
  | object o =>
    refine .get_bind ?_
    split
    · next w hw => exact .pure hm (hm.objects _ _ _ hw)
    · exact method_keeps hm hv hv
  | ofClass c =>
    simp only
    split
    · next f hf => exact .pure hm (findStatic?_known hv hf)
    · exact fail_keeps hm
  | _ => exact fail_keeps hm

lemma superProperty_keeps {keyword : Occurrence OccurrenceId} (hm : m.Good C) :
    Keeps C (expressions.superProperty keyword name) m fun w m' => w.Known C m'.frames := by
  rw [expressions.superProperty_unmarked rfl, superProperty, Traced.lift_bind]
  refine (lookUp_keeps hm).bind fun v m' h hv => ?_
  cases v with
  | ofClass c =>
    simp only
    rw [Traced.lift_bind]
    refine (lookUpAs_keeps h.good).bind fun w m'' h' hw => ?_
    cases w with
    | object o => exact method_keeps h'.good (Class.Known.grows hv h'.grows) hw
    | _ => exact fail_keeps h'.good
  | _ => exact fail_keeps h.good

lemma superclass_keeps {parent : Option (Occurrence OccurrenceId)} (hm : m.Good C) :
    Keeps C (.lift (superclass name parent)) m
      fun c m' => c.isSome = parent.isSome ∧ ∀ d ∈ c, d.Known C m'.frames := by
  cases parent with
  | none => exact .pure hm ⟨rfl, nofun⟩
  | some use =>
    unfold superclass
    rw [Traced.lift_bind]
    refine (lookUp_keeps hm).bind fun v m' h hv => ?_
    cases v with
    | ofClass c =>
      refine Keeps.pure h.good ⟨rfl, fun d hd => ?_⟩
      cases hd
      exact hv
    | _ => exact fail_keeps h.good

/-! ### Parameters -/

lemma bindParams_keeps : ∀ {ps : List Ident} {vs : List Value} {bound : List String} {m : Machine}
    {scopes : List Scope}, m.Good C → i < m.frames.size → ps.length = vs.length →
    (∀ v ∈ vs, v.Known C m.frames) → Fits m.frames scopes i →
    Keeps C (expressions.bindParams i bound ps vs) m fun _ m' => Fits m'.frames (scopesAfterParams ps scopes) i
  | [], vs, _, m, scopes, hm, _, _, _, hf => Keeps.pure hm hf
  | p :: ps, [], _, _, _, _, _, hlen, _, _ => nomatch hlen
  | p :: ps, v :: vs, _, m, scopes, hm, hi, hlen, hv, hf => by
    obtain ⟨hv, hvs⟩ := List.forall_mem_cons.1 hv
    rw [Observer.bindParams]
    have hdefine : Keeps C (.lift (change p.line (Frames.define i p.text v false))) m
        fun _ m' => Fits m'.frames (introduce p.text scopes) i := by
      refine change_keeps hm (fun fs' h => ?_) fun e fs' h => update_error h
      obtain ⟨hput, hb⟩ := define_putAt h
      exact ⟨⟨i, v, hput, hv.grows hput.grows⟩, (hf.grows hput.grows).introduce (hb hi)⟩
    refine Keeps.bind hdefine fun _ m' h hf' => ?_
    exact bindParams_keeps h.good (Nat.lt_of_lt_of_le hi h.grows.size) (Nat.succ.inj hlen)
      (fun w hw => (hvs w hw).grows h.grows) hf'

end ScriptLang
