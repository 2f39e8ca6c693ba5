import Mathlib.Tactic.Lemma
import ScriptLang.Proofs.Frames.Operations
import ScriptLang.Proofs.Limits.Prints

/-!
# Cutting the output off

The same computation with an unlimited sink and with one that takes only so many bytes: until a line does not fit,
both do the same, and then the second one stops, with what still fits of the line written.

* `Sink.limit`, `limit_write` — the part of a sink that a limit lets through;
* `Silent` — steps that do not know of the sink;
* `Chained` — what is written is the lines that are printed, one behind another;
* `Cut` — the two computations, and `Truncates.bind`, `Truncates.inFrame`, … — how they are put together.
-/

namespace ScriptLang

open Eval
open Observer (lines)

variable {α β : Type} {n line : Nat} {m m' : Machine} {s s' s'' : Sink} {text : String}

/-! ### Limited sinks -/

/-- The bytes of a line that is printed. -/
def lineBytes (text : String) : ByteArray := (text ++ "\n").toUTF8

lemma lineBytes_pos (text : String) : 0 < (lineBytes text).size := by
  have hsize : (lineBytes text).size = text.utf8ByteSize + 1 := String.utf8ByteSize_append
  omega

/-- What a sink that takes `n` bytes has of a sink without a limit. -/
def Sink.limit (n : Nat) (s : Sink) : Sink := ⟨s.written.extract 0 n, some (n - s.written.size)⟩

/-- A limit lets through of a longer output what it lets through of the parts. -/
lemma Sink.limit_write (hs : s.room = none) (bytes : ByteArray) :
    (s.write bytes).limit n = (s.limit n).write bytes := by
  obtain ⟨written, room⟩ := s
  obtain rfl : room = none := hs
  unfold Sink.limit Sink.write
  dsimp only
  rw [ByteArray.extract_append, ByteArray.size_append, Nat.zero_sub, Nat.sub_add_eq]

lemma Sink.room_write (hs : s.room = none) (bytes : ByteArray) : (s.write bytes).room = none := by
  unfold Sink.write
  rw [hs]

lemma Sink.written_write (hs : s.room = none) (bytes : ByteArray) : (s.write bytes).written = s.written ++ bytes := by
  unfold Sink.write
  rw [hs]

/-- What is written beyond the limit is lost. -/
lemma Sink.limit_beyond {bytes : ByteArray} (h : s'.written = s.written ++ bytes) (hfull : n ≤ s.written.size) :
    s'.limit n = s.limit n := by
  have hempty : bytes.extract 0 (n - s.written.size) = ByteArray.empty := by
    rw [Nat.sub_eq_zero_of_le hfull]
    exact ByteArray.extract_same
  unfold Sink.limit
  rw [h, ByteArray.extract_append, ByteArray.size_append, Nat.zero_sub, hempty, ByteArray.append_empty,
    Nat.sub_eq_zero_of_le hfull, Nat.sub_eq_zero_of_le (Nat.le_add_right_of_le hfull)]

/-- A limit that has not been passed lets everything through. -/
lemma Sink.limit_written (h : s.written.size ≤ n) : (s.limit n).written = s.written := by
  show s.written.extract 0 n = s.written
  rw [show n = max n s.written.size from (Nat.max_eq_left h).symm]
  exact ByteArray.extract_zero_max_size

/-- A machine with a limited sink in place of its own. -/
def Machine.limit (n : Nat) (m : Machine) : Machine := { m with sink := m.sink.limit n }

/-- A machine after a line was written. -/
def Machine.withLine (text : String) (m : Machine) : Machine := { m with sink := m.sink.write (lineBytes text) }

/-- A result with another state. -/
def mapState {ε σ α : Type} (f : σ → σ) : EStateM.Result ε σ α → EStateM.Result ε σ α
  | .ok a s => .ok a (f s)
  | .error e s => .error e (f s)

/-- Whether a line fits when it is about to be printed. -/
def LineFits (n : Nat) (p : String × Machine) : Prop := p.2.sink.written.size + (lineBytes p.1).size ≤ n

/-- A moment in a limited run. -/
def limitMoment (n : Nat) (p : String × Machine) : String × Machine := (p.1, p.2.limit n)

/-- Whether a line fits depends on its text and on how much has been written. -/
lemma lineFits_iff {k : Nat} {p : String × Machine} (h : (p.1, p.2.sink.written.size) = (text, k)) :
    LineFits n p ↔ k + (lineBytes text).size ≤ n := by
  obtain ⟨rfl, rfl⟩ := Prod.mk.inj h
  exact Iff.rfl

lemma fits_limit : (m.limit n).sink.fits (lineBytes text) = true ↔ LineFits n (text, m) := by
  have hpos := lineBytes_pos text
  unfold Sink.fits Machine.limit Sink.limit LineFits
  dsimp only
  rw [decide_eq_true_iff]
  omega

lemma printLine_eq (text : String) (m : Machine) : printLine text m =
    if m.sink.fits (lineBytes text) then .ok () (m.withLine text)
    else .error (.error .sinkFull) (m.withLine text) := by
  unfold printLine lineBytes
  dsimp only
  cases m.sink.fits (text ++ "\n").toUTF8 <;> rfl

/-! ### Steps that do not know of the sink -/

/-- Steps that do the same with every sink and leave it alone. -/
def Silent (x : Eval α) : Prop :=
  ∀ (m : Machine) (sink : Sink), x { m with sink } = mapState (fun m' => { m' with sink }) (x m)

namespace Silent

variable {x : Eval α} {g : α → Eval β}

lemma pure {a : α} : Silent (pure a : Eval α) := fun _ _ => rfl

lemma throw {stop : Stop} : Silent (throw stop : Eval α) := fun _ _ => rfl

lemma bind (h : Silent x) (hg : ∀ a, Silent (g a)) : Silent (x >>= g) := by
  intro m sink
  have hx := h m sink
  rcases hm : x m with ⟨a, m1⟩ | ⟨stop, m1⟩ <;> rw [hm] at hx
  · rw [Traced.bind_ok hx, Traced.bind_ok hm]
    exact hg a m1 sink
  · rw [Traced.bind_error hx, Traced.bind_error hm]
    rfl

/-- What goes on with a state of which it does not read the sink. -/
lemma get_bind {g : Machine → Eval β} (h : ∀ m, Silent (g m)) (hg : ∀ m sink, g { m with sink } = g m) :
    Silent (get >>= g) := by
  intro m sink
  rw [Traced.bind_get, Traced.bind_get, hg]
  exact h m m sink

lemma mapM {g : α → Eval β} (h : ∀ a, Silent (g a)) : ∀ l : List α, Silent (l.mapM g)
  | [] => .pure
  | a :: l => by
    rw [List.mapM_cons]
    exact (h a).bind fun _ => (mapM h l).bind fun _ => .pure

end Silent

section Steps

variable {name : Ident} {v : Value}

lemma ofFrames_silent (r : Except FrameError α) : Silent (ofFrames line r) := by
  cases r <;> exact fun _ _ => rfl

lemma ofTypes_silent (r : Except Mismatch α) : Silent (ofTypes line r) := by
  cases r <;> exact fun _ _ => rfl

lemma change_silent (op : Frames.Change α) : Silent (change line op) := by
  intro m sink
  unfold change
  dsimp only
  cases op m.frames <;> rfl

lemma newFrame_silent (frame : Frame) : Silent (newFrame frame) := fun _ _ => rfl

lemma define_silent (constant : Bool) : Silent (define name v constant) :=
  .get_bind (fun _ => change_silent _) fun _ _ => rfl

lemma lookUpAs_silent (use : Occurrence OccurrenceId) (text : String) : Silent (lookUpAs use text) :=
  .get_bind (fun _ => ofFrames_silent _) fun _ _ => rfl

lemma assign_silent (use : Occurrence OccurrenceId) : Silent (assign use v) := by
  refine .get_bind (fun m => ?_) fun _ _ => rfl
  dsimp only
  split <;> exact change_silent _

lemma newClosure_silent (decl : FunctionDecl (Stmt OccurrenceId)) : Silent (newClosure decl) := fun _ _ => rfl

lemma newClosures_silent (decls : List (FunctionDecl (Stmt OccurrenceId))) : Silent (newClosures decls) :=
  (Silent.mapM (fun decl => (newClosure_silent decl).bind fun _ => .pure) decls).bind fun _ => .pure

lemma newObject_silent (c : Class) : Silent (newObject c) := fun _ _ => rfl

lemma bindMethod_silent (f : Closure) (owner : Class) (o : Object) : Silent (bindMethod f owner o) := fun _ _ => rfl

lemma method_silent (o : Object) (start : Class) : Silent (method o start name) := by
  unfold method
  split
  · exact (bindMethod_silent _ _ _).bind fun _ => .pure
  · exact .throw

lemma property_silent (v : Value) : Silent (property v name) := by
  unfold property
  split
  · refine .get_bind (fun m => ?_) fun _ _ => rfl
    split
    · exact .pure
    · exact method_silent _ _
  · split
    · exact .pure
    · exact .throw
  · exact .throw

lemma superProperty_silent (keyword : Occurrence OccurrenceId) : Silent (superProperty keyword name) := by
  refine (lookUpAs_silent _ _).bind fun v => ?_
  split
  · refine (lookUpAs_silent _ _).bind fun w => ?_
    split
    · exact method_silent _ _
    · exact .throw
  · exact .throw

lemma setProperty_silent (o : Object) : Silent (setProperty o name v) := fun _ _ => rfl

lemma checkArity_silent (text : String) (expected got : Nat) : Silent (checkArity text expected got line) := by
  unfold checkArity
  split
  · exact .pure
  · exact .throw

lemma bindParams_silent (i : FrameId) (ps : List Ident) (vs : List Value) : Silent (bindParams i ps vs) := by
  induction ps generalizing vs with
  | nil => exact .pure
  | cons p ps ih =>
    cases vs with
    | nil => exact .pure
    | cons v vs => exact (change_silent _).bind fun _ => ih vs

lemma superclass_silent (parent : Option (Occurrence OccurrenceId)) : Silent (superclass name parent) := by
  cases parent with
  | none => exact .pure
  | some use =>
    refine (lookUpAs_silent _ _).bind fun v => ?_
    split
    · exact .pure
    · exact .throw

lemma finishClass_silent (parent : Option Class) (methods statics : List (FunctionDecl (Stmt OccurrenceId))) :
    Silent (finishClass name parent methods statics) := by
  refine Silent.bind (x := newStamp) (fun _ _ => rfl) fun _ => ?_
  refine (newClosures_silent methods).bind fun _ => (newClosures_silent statics).bind fun _ => ?_
  exact .get_bind (fun _ => change_silent _) fun _ _ => rfl

end Steps

/-! ### Lines behind one another -/

/-- From one sink to the other the lines are written one behind another, and each is about to be written when all
before it are. -/
def Chained : Sink → List (String × Machine) → Sink → Prop
  | s, [], s' => s' = s
  | s, (text, m) :: ps, s' => m.sink = s ∧ Chained (s.write (lineBytes text)) ps s'

variable {ps qs : List (String × Machine)}

lemma Chained.append (h : Chained s ps s') (h' : Chained s' qs s'') : Chained s (ps ++ qs) s'' := by
  induction ps generalizing s with
  | nil => exact (show s' = s from h) ▸ h'
  | cons p ps ih => exact ⟨h.1, ih h.2⟩

lemma Chained.room (h : Chained s ps s') (hs : s.room = none) : s'.room = none := by
  induction ps generalizing s with
  | nil => exact (show s' = s from h) ▸ hs
  | cons p ps ih => exact ih h.2 (Sink.room_write hs _)

/-- The bytes of some lines. -/
def linesBytes (ps : List (String × Machine)) : ByteArray :=
  ps.foldr (fun p bytes => lineBytes p.1 ++ bytes) ByteArray.empty

/-- What is written is the lines. -/
lemma Chained.written (h : Chained s ps s') (hs : s.room = none) : s'.written = s.written ++ linesBytes ps := by
  induction ps generalizing s with
  | nil => rw [show s' = s from h]; exact ByteArray.append_empty.symm
  | cons p ps ih =>
    rw [ih h.2 (Sink.room_write hs _), Sink.written_write hs, ByteArray.append_assoc]
    rfl

/-- When a line is about to be written, those before it are. -/
lemma Chained.split (h : Chained s (ps ++ (text, m) :: qs) s') :
    Chained s ps m.sink ∧ Chained (m.sink.write (lineBytes text)) qs s' := by
  induction ps generalizing s with
  | nil => exact ⟨h.1, h.1 ▸ h.2⟩
  | cons p ps ih =>
    obtain ⟨hps, hqs⟩ := ih h.2
    exact ⟨⟨h.1, hps⟩, hqs⟩

/-- Behind lines that fit, the limit has not been passed. -/
lemma Chained.size_le (h : Chained s ps s')
    (hfits : ∀ p ∈ ps, LineFits n p) (hsize : s.written.size ≤ n) (hroom : s.room = none) :
    s'.written.size ≤ n := by
  induction ps generalizing s with
  | nil => exact (show s' = s from h) ▸ hsize
  | cons p ps ih =>
    obtain ⟨hfit, hfits⟩ := List.forall_mem_cons.1 hfits
    refine ih h.2 hfits ?_ (Sink.room_write hroom _)
    rw [Sink.written_write hroom, ByteArray.size_append, ← h.1]
    exact hfit

/-! ### Two computations -/

/-- What a computation with an unlimited sink becomes when the sink takes `n` bytes.  Either all lines fit, and it
does the same; or it stops with an error at the first line that does not fit, in the machine as it is then, with the
part of the line that fits. -/
inductive Cut (n : Nat) (x : Printing α) (m : Machine) : Prop where
  | whole (fits : ∀ p ∈ x.trace m, LineFits n p) (run : x.run (m.limit n) = mapState (Machine.limit n) (x.run m))
    (trace : x.trace (m.limit n) = (x.trace m).map (limitMoment n))
  | cut (before : List (String × Machine)) (text : String) (stop : Machine) (behind : List (String × Machine))
    (frame : FrameId) (prints : x.trace m = before ++ (text, stop) :: behind) (fits : ∀ p ∈ before, LineFits n p)
    (full : ¬ LineFits n (text, stop))
    (run : x.run (m.limit n) = .error (.error .sinkFull) { (stop.withLine text).limit n with current := frame })
    (trace : x.trace (m.limit n) = (before ++ [(text, stop)]).map (limitMoment n))

/-- From each machine with an unlimited sink, what is written is the lines that are printed, and a limit cuts them
off. -/
def Truncates (n : Nat) (x : Printing α) : Prop :=
  ∀ m, m.sink.room = none → Chained m.sink (x.trace m) (endState (x.run m)).sink ∧ Cut n x m

namespace Truncates

variable {x : Printing α} {g : α → Printing β}

/-- Steps that do not know of the sink. -/
lemma lift {x : Eval α} (h : Silent x) : Truncates n (.lift x) := by
  intro m _
  have hself : ∀ sink, x { m with sink } = mapState (fun m' => { m' with sink }) (x m) := h m
  have hsink : (endState (x m)).sink = m.sink := by
    have hm := hself m.sink
    rw [show x { m with sink := m.sink } = x m from rfl] at hm
    rw [hm]
    cases x m <;> rfl
  refine ⟨hsink, .whole (List.forall_mem_nil _) ?_ rfl⟩
  show x { m with sink := m.sink.limit n } = mapState (Machine.limit n) (x m)
  rw [hself]
  rcases hm : x m with ⟨a, m1⟩ | ⟨stop, m1⟩ <;> rw [hm] at hsink
  · exact congrArg (EStateM.Result.ok a) (by rw [Machine.limit, show m1.sink = m.sink from hsink])
  · exact congrArg (EStateM.Result.error stop) (by rw [Machine.limit, show m1.sink = m.sink from hsink])

lemma pure {a : α} : Truncates n (Pure.pure a : Printing α) := lift .pure

lemma throw {stop : Stop} : Truncates n (.lift (MonadExcept.throw stop) : Printing α) := lift .throw

/-- The line that is printed. -/
lemma print (text : String) : Truncates n (.visit text (.lift (printLine text))) := by
  intro m hm
  have hfree : printLine text m = .ok () (m.withLine text) := by
    rw [printLine_eq]
    unfold Sink.fits
    rw [hm]
    rfl
  have hlimit : (m.limit n).withLine text = (m.withLine text).limit n :=
    congrArg (fun sink => { m with sink }) (Sink.limit_write hm _).symm
  refine ⟨⟨rfl, ?_⟩, ?_⟩
  · rw [Traced.run_visit, Traced.run_lift, hfree]
    rfl
  · by_cases hfits : LineFits n (text, m)
    · refine .whole (List.forall_mem_singleton.2 hfits) ?_ rfl
      rw [Traced.run_visit, Traced.run_lift, hfree, printLine_eq, if_pos (fits_limit.2 hfits), hlimit]
      rfl
    · refine .cut [] text m [] m.current rfl (List.forall_mem_nil _) hfits ?_ rfl
      rw [Traced.run_visit, Traced.run_lift, printLine_eq, if_neg (fun h => hfits (fits_limit.1 h)), hlimit]
      rfl

/-- **One computation behind another.** -/
lemma bind (hx : Truncates n x) (hg : ∀ a, Truncates n (g a)) : Truncates n (x >>= g) := by
  intro m hm
  obtain ⟨hchain, hcut⟩ := hx m hm
  rcases hr : x.run m with ⟨a, m1⟩ | ⟨stop, m1⟩ <;> rw [hr] at hchain
  · -- The first one succeeds without the limit.
    obtain ⟨hchain', hcut'⟩ := hg a m1 (hchain.room hm)
    have htrace : (x >>= g).trace m = x.trace m ++ (g a).trace m1 := by rw [Traced.trace_bind, hr]; rfl
    refine ⟨?_, ?_⟩
    · rw [htrace, Traced.run_bind, Traced.bind_ok hr]
      exact hchain.append hchain'
    cases hcut with
    | whole fits run trace =>
      rw [hr] at run
      have htrace' : (x >>= g).trace (m.limit n) = x.trace (m.limit n) ++ (g a).trace (m1.limit n) := by
        rw [Traced.trace_bind, run]; rfl
      cases hcut' with
      | whole fits' run' trace' =>
        refine .whole ?_ ?_ ?_
        · rw [htrace]
          exact List.forall_mem_append.2 ⟨fits, fits'⟩
        · rw [Traced.run_bind, Traced.bind_ok run, Traced.bind_ok hr]
          exact run'
        · rw [htrace, htrace', trace, trace', List.map_append]
      | cut before text stop behind frame prints fits' full run' trace' =>
        refine .cut (x.trace m ++ before) text stop behind frame ?_ (List.forall_mem_append.2 ⟨fits, fits'⟩) full ?_ ?_
        · rw [htrace, prints, List.append_assoc]
        · rw [Traced.run_bind, Traced.bind_ok run]
          exact run'
        · rw [htrace', trace, trace', ← List.map_append, List.append_assoc]
    | cut before text stop behind frame prints fits full run trace =>
      refine .cut before text stop (behind ++ (g a).trace m1) frame ?_ fits full ?_ ?_
      · rw [htrace, prints, List.append_assoc]
        rfl
      · rw [Traced.run_bind, Traced.bind_error run]
      · rw [Traced.trace_bind, run, ← trace]
        exact List.append_nil _
  · -- It fails without the limit.
    have htrace : (x >>= g).trace m = x.trace m := by
      rw [Traced.trace_bind, hr]
      exact List.append_nil _
    refine ⟨?_, ?_⟩
    · rw [htrace, Traced.run_bind, Traced.bind_error hr]
      exact hchain
    cases hcut with
    | whole fits run trace =>
      rw [hr] at run
      refine .whole ?_ ?_ ?_
      · rwa [htrace]
      · rw [Traced.run_bind, Traced.bind_error run, Traced.bind_error hr]
        rfl
      · rw [htrace, Traced.trace_bind, run, ← trace]
        exact List.append_nil _
    | cut before text stop behind frame prints fits full run trace =>
      refine .cut before text stop behind frame (htrace.trans prints) fits full ?_ ?_
      · rw [Traced.run_bind, Traced.bind_error run]
      · rw [Traced.trace_bind, run, ← trace]
        exact List.append_nil _

/-- Steps on states that do not know of the sink, and what goes on with their results. -/
lemma behind {x : Eval α} (h : Silent x) (hg : ∀ a, Truncates n (g a)) : Truncates n (.lift x >>= g) :=
  (lift h).bind hg

/-- What goes on with a state of which it does not read the sink. -/
lemma get_bind {g : Machine → Printing β} (h : ∀ m, Truncates n (g m)) (hg : ∀ m, g (m.limit n) = g m) :
    Truncates n (.lift get >>= g) := by
  intro m hm
  obtain ⟨hchain, hcut⟩ := h m m hm
  have hlimit : ((.lift get : Printing Machine) >>= g).run (m.limit n) = (g m).run (m.limit n) ∧
      ((.lift get : Printing Machine) >>= g).trace (m.limit n) = (g m).trace (m.limit n) := by
    rw [← hg m]
    exact ⟨rfl, rfl⟩
  refine ⟨hchain, ?_⟩
  cases hcut with
  | whole fits run trace => exact .whole fits (hlimit.1.trans run) (hlimit.2.trans trace)
  | cut before text stop behind frame prints fits full run trace =>
    exact .cut before text stop behind frame prints fits full (hlimit.1.trans run) (hlimit.2.trans trace)

lemma mapM {g : α → Printing β} (hg : ∀ a, Truncates n (g a)) (l : List α) : Truncates n (l.mapM g) := by
  have loop : ∀ (l : List α) (acc : List β), Truncates n (List.mapM.loop g l acc) := by
    intro l
    induction l with
    | nil => exact fun acc => pure
    | cons a l ih =>
      intro acc
      rw [List.mapM.loop]
      exact (hg a).bind fun b => ih (b :: acc)
  exact loop l []

/-- A computation in another frame. -/
lemma inFrame (h : Truncates n x) (i : FrameId) : Truncates n (inFrameT i x) := by
  intro m hm
  obtain ⟨hchain, hcut⟩ := h { m with current := i } hm
  have hrun : ∀ m : Machine, (inFrameT i x).run m =
      mapState (fun m' => { m' with current := m.current }) (x.run { m with current := i }) := fun m => by
    rw [Observer.inFrameT_run]
    unfold Eval.inFrame
    simp only
    cases x.run { m with current := i } <;> rfl
  refine ⟨?_, ?_⟩
  · rw [hrun]
    show Chained m.sink (x.trace { m with current := i }) _
    rcases hr : x.run { m with current := i } with ⟨a, m1⟩ | ⟨stop, m1⟩ <;> rw [hr] at hchain <;> exact hchain
  cases hcut with
  | whole fits run trace =>
    refine .whole fits ?_ trace
    rw [hrun, hrun]
    refine (congrArg _ run).trans ?_
    cases x.run { m with current := i } <;> rfl
  | cut before text stop behind frame prints fits full run trace =>
    refine .cut before text stop behind m.current prints fits full ?_ trace
    rw [hrun]
    exact congrArg _ run

end Truncates

end ScriptLang
