import Mathlib
import ScriptLang.Proofs.Frames.Restoration
import ScriptLang.Proofs.Limits.CutRuns
import ScriptLang.Proofs.Renumbering.RenumberedSessions
import ScriptLang.Proofs.Token.Dispatch

/-!
# Cutting sessions off

The same session with an unlimited sink and with one that takes only so many bytes.  What the second one writes is
the beginning of what the first one writes; up to the first line that does not fit both do the same.

* `runProgram_cut`, `submit_cut` — programs and submissions;
* `submit_full` — nothing is written to a full sink;
* `served_whole`, `Follows.next` — one request after another, as long as all lines fit and later;
* `output_truncated` — the theorem.
-/

namespace ScriptLang

open Eval

variable {n fuel : Nat} {m : Machine} {s s' : Session}

/-! ### Programs -/

/-- What a run of a program with an unlimited sink becomes when the sink takes `n` bytes. -/
inductive ProgramCut (n fuel : Nat) (program : Program OccurrenceId) (m : Machine) : Prop where
  | whole (fits : ∀ p ∈ runPrints fuel program m, LineFits n p)
    (run : runProgram fuel program (m.limit n) =
      ((runProgram fuel program m).1, (runProgram fuel program m).2.limit n))
    (trace : runPrints fuel program (m.limit n) = (runPrints fuel program m).map (limitMoment n))
  | cut (before : List (String × Machine)) (text : String) (stop : Machine) (behind : List (String × Machine))
    (statement : Stmt OccurrenceId)
    (prints : runPrints fuel program m = before ++ (text, stop) :: behind)
    (fits : ∀ p ∈ before, LineFits n p) (full : ¬ LineFits n (text, stop)) (inside : statement ∈ program)
    (run : runProgram fuel program (m.limit n) =
      (.failed ⟨.sinkFull, statement⟩, { (stop.withLine text).limit n with current := m.current }))
    (trace : runPrints fuel program (m.limit n) = (before ++ [(text, stop)]).map (limitMoment n))

/-- How a program ends of which a statement stops. -/
def Stop.result (s : Stmt OccurrenceId) : Stop → RunResult
  | .error e => .failed ⟨e, s⟩
  | .outOfFuel => .outOfFuel

section Statements

variable {s : Stmt OccurrenceId} {flow : Flow} {m' : Machine} {stop : Stop}

lemma run_cons_ok (ss : Program OccurrenceId) (h : (executeP fuel s).run m = .ok flow m') :
    runProgram fuel (s :: ss) m = runProgram fuel ss m' ∧
      runPrints fuel (s :: ss) m = (executeP fuel s).trace m ++ runPrints fuel ss m' := by
  have hrun := h
  rw [Observer.execute_run] at hrun
  rw [runProgram, hrun, runPrints, Observer.moments, h]
  exact ⟨rfl, rfl⟩

lemma run_cons_error (ss : Program OccurrenceId) (h : (executeP fuel s).run m = .error stop m') :
    runProgram fuel (s :: ss) m = (stop.result s, m') ∧
      runPrints fuel (s :: ss) m = (executeP fuel s).trace m := by
  have hrun := h
  rw [Observer.execute_run] at hrun
  rw [runProgram, hrun, runPrints, Observer.moments, h]
  cases stop <;> exact ⟨rfl, List.append_nil _⟩

lemma executeP_current (h : endState ((executeP fuel s).run m) = m') : m'.current = m.current := by
  rw [Observer.execute_run] at h
  exact h ▸ ((runs_grow fuel).execute s m).current

end Statements

/-- **Programs are cut off** at the first line that does not fit. -/
lemma runProgram_cut (n fuel : Nat) (program : Program OccurrenceId) (hm : m.sink.room = none) :
    Chained m.sink (runPrints fuel program m) (runProgram fuel program m).2.sink ∧
      ProgramCut n fuel program m := by
  induction program generalizing m with
  | nil => exact ⟨rfl, .whole (List.forall_mem_nil _) rfl rfl⟩
  | cons s ss ih =>
    obtain ⟨hchain, hcut⟩ := (runs_truncate n fuel).execute s m hm
    cases hcut with
    | cut before text stop behind frame prints fits full run trace =>
      -- The first statement is cut off.
      obtain ⟨hprog', hprints'⟩ := run_cons_error ss run
      have hframe : frame = m.current := executeP_current (congrArg endState run)
      subst hframe
      rcases hr : (executeP fuel s).run m with ⟨flow, m1⟩ | ⟨e, m1⟩ <;> rw [hr] at hchain
      · obtain ⟨hprog, hprints⟩ := run_cons_ok ss hr
        rw [hprog, hprints]
        refine ⟨hchain.append (ih (hchain.room hm)).1, .cut before text stop (behind ++ runPrints fuel ss m1) s ?_ fits
          full List.mem_cons_self hprog' (hprints'.trans trace)⟩
        rw [hprints, prints, List.append_assoc]
        rfl
      · obtain ⟨hprog, hprints⟩ := run_cons_error ss hr
        rw [hprog, hprints]
        exact ⟨hchain, .cut before text stop behind s (hprints.trans prints) fits full List.mem_cons_self hprog'
          (hprints'.trans trace)⟩
    | whole fits run trace =>
      rcases hr : (executeP fuel s).run m with ⟨flow, m1⟩ | ⟨e, m1⟩ <;> rw [hr] at hchain run
      · obtain ⟨hprog, hprints⟩ := run_cons_ok ss hr
        obtain ⟨hprog', hprints'⟩ := run_cons_ok ss run
        obtain ⟨hchain', hcut'⟩ := ih (m := m1) (hchain.room hm)
        have hcurrent : m1.current = m.current := executeP_current (congrArg endState hr)
        rw [hprog, hprints]
        refine ⟨hchain.append hchain', ?_⟩
        cases hcut' with
        | whole fits' run' trace' =>
          refine .whole ?_ ?_ ?_
          · rw [hprints]
            exact List.forall_mem_append.2 ⟨fits, fits'⟩
          · rw [hprog, hprog']
            exact run'
          · rw [hprints, hprints', trace, trace', List.map_append]
        | cut before text stop behind statement prints fits' full inside run' trace' =>
          refine .cut ((executeP fuel s).trace m ++ before) text stop behind statement ?_
            (List.forall_mem_append.2 ⟨fits, fits'⟩) full (List.mem_cons_of_mem _ inside) ?_ ?_
          · rw [hprints, prints, List.append_assoc]
          · rw [hprog', ← hcurrent]
            exact run'
          · rw [hprints', trace, trace', ← List.map_append, List.append_assoc]
      · obtain ⟨hprog, hprints⟩ := run_cons_error ss hr
        obtain ⟨hprog', hprints'⟩ := run_cons_error ss run
        rw [hprog, hprints]
        refine ⟨hchain, .whole ?_ ?_ ?_⟩
        · rwa [hprints]
        · rw [hprog, hprog']
        · rw [hprints, hprints', trace]

/-! ### Submissions -/

namespace Session

/-- The lines that a submission prints. -/
def printsOf (fuel : Nat) (install : Bool) (tokens : List Token) (s : Session) : List (String × Machine) :=
  match Program.parse tokens with
  | .error _ => []
  | .ok tree =>
    match (s.resolver.resolve (s.numbered tree)).1 with
    | .error _ => []
    | .ok res =>
      runPrints fuel (s.numbered tree) { s.machine with locals := tableWith install s.machine.locals res.locals }

/-- A session of which the machine has a limited sink. -/
def limit (n : Nat) (s : Session) : Session := { s with machine := s.machine.limit n }

variable {install : Bool} {tokens : List Token}

/-- What a submission to a session with an unlimited sink becomes when the sink takes `n` bytes. -/
inductive SubmissionCut (n fuel : Nat) (install : Bool) (tokens : List Token) (s : Session) : Prop where
  | whole (fits : ∀ p ∈ s.printsOf fuel install tokens, LineFits n p)
    (same : (s.limit n).submit fuel install tokens =
      ((s.submit fuel install tokens).1, (s.submit fuel install tokens).2.limit n))
  | cut (before : List (String × Machine)) (text : String) (stop : Machine) (behind : List (String × Machine))
    (warnings : List ScopeWarning) (result : RunResult) (statement : Stmt OccurrenceId)
    (prints : s.printsOf fuel install tokens = before ++ (text, stop) :: behind)
    (fits : ∀ p ∈ before, LineFits n p) (full : ¬ LineFits n (text, stop))
    (answer : (s.submit fuel install tokens).1 = .ran warnings result)
    (stopped : ((s.limit n).submit fuel install tokens).1 = .ran warnings (.failed ⟨.sinkFull, statement⟩))
    (machine : ((s.limit n).submit fuel install tokens).2.machine =
      { (stop.withLine text).limit n with current := s.machine.current })
    (trace : (s.limit n).printsOf fuel install tokens = (before ++ [(text, stop)]).map (limitMoment n))

lemma submit_cut (n fuel : Nat) (install : Bool) (tokens : List Token) (hs : s.machine.sink.room = none) :
    Chained s.machine.sink (s.printsOf fuel install tokens) (s.submit fuel install tokens).2.machine.sink ∧
      SubmissionCut n fuel install tokens s := by
  rcases hparse : Program.parse tokens with ds | tree
  · have hprints : s.printsOf fuel install tokens = [] := by rw [printsOf, hparse]
    rw [hprints, submit_unreadable hparse]
    refine ⟨rfl, .whole ?_ ?_⟩
    · rw [hprints]
      exact List.forall_mem_nil _
    · rw [submit_unreadable hparse, submit_unreadable hparse]
  rcases hres : (s.resolver.resolve (s.numbered tree)).1 with rejection | res
  · have hprints : s.printsOf fuel install tokens = [] := by
      unfold printsOf
      simp only [hparse, hres]
    rw [hprints, submit_rejected hparse hres]
    refine ⟨rfl, .whole ?_ ?_⟩
    · rw [hprints]
      exact List.forall_mem_nil _
    · rw [submit_rejected hparse hres, submit_rejected (s := s.limit n) hparse hres]
      rfl
  · have hprints : ∀ s' : Session, (s'.resolver.resolve (s'.numbered tree)).1 = .ok res →
        s'.printsOf fuel install tokens = runPrints fuel (s'.numbered tree)
          { s'.machine with locals := tableWith install s'.machine.locals res.locals } := fun s' hres' => by
      unfold printsOf
      simp only [hparse, hres']
    obtain ⟨hchain, hcut⟩ := runProgram_cut (m := { s.machine with
      locals := tableWith install s.machine.locals res.locals }) n fuel (s.numbered tree) hs
    rw [hprints s hres, submit_ran hparse hres]
    refine ⟨hchain, ?_⟩
    cases hcut with
    | whole fits run trace =>
      refine .whole ?_ ?_
      · rwa [hprints s hres]
      · rw [submit_ran (s := s.limit n) hparse hres, submit_ran hparse hres]
        have hboth : (s.limit n).runWith fuel install tree res.locals =
          ((s.runWith fuel install tree res.locals).1, (s.runWith fuel install tree res.locals).2.limit n) := run
        rw [hboth]
        rfl
    | cut before text stop behind statement prints fits full inside run trace =>
      have hstopped : (s.limit n).runWith fuel install tree res.locals = (.failed ⟨.sinkFull, statement⟩,
        { (stop.withLine text).limit n with current := s.machine.current }) := run
      refine .cut before text stop behind res.warnings (s.runWith fuel install tree res.locals).1 statement
        ((hprints s hres).trans prints) fits full ?_ ?_ ?_ ((hprints (s.limit n) hres).trans trace)
      · rw [submit_ran hparse hres]
      · rw [submit_ran (s := s.limit n) hparse hres, hstopped]
      · rw [submit_ran (s := s.limit n) hparse hres, hstopped]

/-! ### Full sinks -/

/-- A session with a full sink is what the limit makes of a session with an unlimited one. -/
lemma exists_limit_of_full (hs : s.machine.sink.room = some 0) :
    ∃ (k : Nat) (s' : Session), s'.machine.sink.room = none ∧ k ≤ s'.machine.sink.written.size ∧ s = s'.limit k := by
  obtain ⟨nextId, resolver, frames, objects, nextStamp, current, locals, written, room⟩ := s
  obtain rfl : room = some 0 := hs
  refine ⟨written.size, ⟨nextId, resolver, frames, objects, nextStamp, current, locals, written, none⟩, rfl,
    Nat.le_refl _, ?_⟩
  unfold limit Machine.limit Sink.limit
  dsimp only
  rw [ByteArray.extract_zero_size, Nat.sub_self]

/-- **Nothing is written to a full sink.** -/
lemma submit_full (fuel : Nat) (install : Bool) (tokens : List Token) (hs : s.machine.sink.room = some 0) :
    (s.submit fuel install tokens).2.machine.sink = s.machine.sink := by
  obtain ⟨k, s', hs', hfull, rfl⟩ := exists_limit_of_full hs
  obtain ⟨hchain, hcut⟩ := submit_cut k fuel install tokens hs'
  cases hcut with
  | whole fits same =>
    rw [same]
    exact Sink.limit_beyond (hchain.written hs') hfull
  | cut before text stop behind warnings result statement prints fits full answer stopped machine trace =>
    rw [prints] at hchain
    have hstop := hchain.split.1
    have hwritten : (stop.withLine text).sink.written =
        s'.machine.sink.written ++ (linesBytes before ++ lineBytes text) := by
      rw [← ByteArray.append_assoc, ← hstop.written hs']
      exact Sink.written_write (hstop.room hs') _
    rw [machine]
    exact Sink.limit_beyond hwritten hfull

/-! ### Requests one after another -/

/-- The session behind some requests. -/
def served (s : Session) : List Request → Session
  | [] => s
  | q :: qs => (s.next q).served qs

/-- The lines that are printed when a request is answered. -/
def prints (q : Request) (s : Session) : List (String × Machine) :=
  (s.skip q.skipped).printsOf q.fuel q.install q.tokens

/-- The lines that are printed when some requests are answered. -/
def allPrints (s : Session) : List Request → List (String × Machine)
  | [] => []
  | q :: qs => s.prints q ++ (s.next q).allPrints qs

/-- What becomes of the program of a request. -/
def answer (q : Request) (s : Session) : Answer := ((s.skip q.skipped).submit q.fuel q.install q.tokens).1

variable {q : Request} {qs : List Request}

lemma next_chained (q : Request) (hs : s.machine.sink.room = none) :
    Chained s.machine.sink (s.prints q) (s.next q).machine.sink :=
  (submit_cut (s := s.skip q.skipped) 0 q.fuel q.install q.tokens hs).1

lemma served_chained (hs : s.machine.sink.room = none) :
    Chained s.machine.sink (s.allPrints qs) (s.served qs).machine.sink := by
  induction qs generalizing s with
  | nil => rfl
  | cons q qs ih =>
    have hfirst := next_chained q hs
    exact hfirst.append (ih (hfirst.room hs))

/-- If all lines fit, a limit changes nothing. -/
lemma next_whole (hs : s.machine.sink.room = none) (hsize : s.machine.sink.written.size ≤ n)
    (hfits : ∀ p ∈ s.prints q, LineFits n p) :
    (s.limit n).next q = (s.next q).limit n ∧ (s.limit n).reply q = s.reply q := by
  have hchain := next_chained q hs
  obtain ⟨-, hcut⟩ := submit_cut (s := s.skip q.skipped) n q.fuel q.install q.tokens hs
  cases hcut with
  | cut before text stop behind warnings result statement prints fits full answer stopped machine trace =>
    refine absurd (hfits (text, stop) ?_) full
    rw [Session.prints, prints]
    exact List.mem_append_right _ List.mem_cons_self
  | whole fits same =>
    have hnext : (s.limit n).next q = (s.next q).limit n := congrArg Prod.snd same
    refine ⟨hnext, ?_⟩
    have hbefore : ((s.limit n).machine.sink).written = s.machine.sink.written := Sink.limit_written hsize
    have hafter : ((s.next q).limit n).machine.sink.written = (s.next q).machine.sink.written :=
      Sink.limit_written (hchain.size_le hfits hsize hs)
    unfold reply output Sink.textFrom
    rw [hnext, hbefore, hafter]
    have hanswer : ((s.limit n).skip q.skipped).submit q.fuel q.install q.tokens =
      (((s.skip q.skipped).submit q.fuel q.install q.tokens).1, (s.next q).limit n) := same
    rw [hanswer]
    rfl

lemma served_whole (hs : s.machine.sink.room = none) (hsize : s.machine.sink.written.size ≤ n)
    (hfits : ∀ p ∈ s.allPrints qs, LineFits n p) :
    (s.limit n).served qs = (s.served qs).limit n ∧ (s.limit n).replies qs = s.replies qs := by
  induction qs generalizing s with
  | nil => exact ⟨rfl, rfl⟩
  | cons q qs ih =>
    obtain ⟨hq, hqs⟩ := List.forall_mem_append.1 hfits
    obtain ⟨hnext, hreply⟩ := next_whole hs hsize hq
    have hchain := next_chained q hs
    obtain ⟨hserved, hreplies⟩ := ih (hchain.room hs) (hchain.size_le hq hsize hs) hqs
    refine ⟨?_, ?_⟩
    · rw [served, hnext, hserved, served]
    · rw [replies, hnext, hreply, hreplies, replies]

/-- A limited sink has the beginning of what an unlimited one has.  Either the sessions differ in nothing else, or
the limited sink is full. -/
def Follows (n : Nat) (s s' : Session) : Prop :=
  s.machine.sink.room = none ∧ s'.machine.sink = s.machine.sink.limit n ∧
    (s' = s.limit n ∨ n ≤ s.machine.sink.written.size)

lemma Follows.next (h : Follows n s s') (q : Request) : Follows n (s.next q) (s'.next q) := by
  obtain ⟨hroom, hsink, hcase⟩ := h
  have hchain := next_chained q hroom
  refine ⟨hchain.room hroom, ?_⟩
  rcases hcase with rfl | hfull
  · obtain ⟨-, hcut⟩ := submit_cut (s := s.skip q.skipped) n q.fuel q.install q.tokens hroom
    cases hcut with
    | whole fits same =>
      have hnext : (s.limit n).next q = (s.next q).limit n := congrArg Prod.snd same
      exact ⟨congrArg (·.machine.sink) hnext, .inl hnext⟩
    | cut before text stop behind warnings result statement prints fits full answer stopped machine trace =>
      -- The line that does not fit is written in the unlimited session, so the limit is passed there.
      rw [Session.prints, prints] at hchain
      obtain ⟨hstop, hrest⟩ := hchain.split
      have hroom' := hstop.room hroom
      have hwritten := hrest.written (Sink.room_write hroom' _)
      have hline : n ≤ (stop.sink.write (lineBytes text)).written.size := by
        rw [Sink.written_write hroom', ByteArray.size_append]
        exact Nat.le_of_not_le full
      refine ⟨(congrArg Machine.sink machine).trans (Sink.limit_beyond hwritten hline).symm, .inr ?_⟩
      rw [hwritten, ByteArray.size_append]
      exact Nat.le_add_right_of_le hline
  · have hroom' : s'.machine.sink.room = some 0 := by
      rw [hsink]
      exact congrArg some (Nat.sub_eq_zero_of_le hfull)
    have hsame : (s'.next q).machine.sink = s'.machine.sink :=
      submit_full (s := s'.skip q.skipped) q.fuel q.install q.tokens hroom'
    have hwritten := hchain.written hroom
    refine ⟨hsame.trans (hsink.trans (Sink.limit_beyond hwritten hfull).symm), .inr ?_⟩
    rw [hwritten, ByteArray.size_append]
    exact Nat.le_add_right_of_le hfull

lemma served_current : (s.served qs).machine.current = s.machine.current := by
  induction qs generalizing s with
  | nil => rfl
  | cons q qs ih =>
    obtain ⟨L, hgrown⟩ := submit_grown q.fuel q.install q.tokens (s.skip q.skipped)
    exact ih.trans hgrown.current

lemma Follows.served (h : Follows n s s') : Follows n (s.served qs) (s'.served qs) := by
  induction qs generalizing s s' with
  | nil => exact h
  | cons q qs ih => exact ih (h.next q)

/-- A session before its first program with a limit, and one without. -/
lemma initial_limit (n : Nat) : initial (some n) = (initial none).limit n := by
  have hempty : ByteArray.empty.extract 0 n = ByteArray.empty := ByteArray.extract_eq_empty_iff.2 (by simp)
  unfold initial limit Machine.limit Sink.limit Machine.initial Sink.empty
  dsimp only
  rw [hempty]
  rfl

/-- There is one first line that does not fit. -/
lemma first_unfit {p p' : String × Machine} {before before' behind behind' : List (String × Machine)}
    (h : before ++ p :: behind = before' ++ p' :: behind') (hfits : ∀ p ∈ before, LineFits n p) (hp : ¬ LineFits n p)
    (hfits' : ∀ p ∈ before', LineFits n p) (hp' : ¬ LineFits n p') : before = before' ∧ p = p' := by
  induction before generalizing before' with
  | nil =>
    cases before' with
    | nil => exact ⟨rfl, (List.cons.inj h).1⟩
    | cons first before' => exact absurd ((List.cons.inj h).1 ▸ hfits' first List.mem_cons_self) hp
  | cons first before ih =>
    cases before' with
    | nil => exact absurd ((List.cons.inj h).1 ▸ hfits first List.mem_cons_self) hp'
    | cons first' before' =>
      obtain ⟨rfl, hrest⟩ := List.cons.inj h
      obtain ⟨rfl, hpp⟩ := ih hrest (List.forall_mem_cons.1 hfits).2 (List.forall_mem_cons.1 hfits').2
      exact ⟨rfl, hpp⟩

/-! ### The theorem -/

/-- **A full sink cuts the output off, and does nothing else.**  Take a session with an unlimited sink and one with a
sink that takes `n` bytes, and let both take the same programs.  What the second has written is the first `n` bytes
of what the first has written, which are the lines that its programs have printed.  As long as all lines fit, both
reply the same and have the same state.  And when in a further program a line does not fit, however deep in it the
line is printed, then the second session stops there: up to that line the same lines are about to be printed in the
same machines, the program ends with an error of the output, and what is left is the machine that was about to print
the line, with as much of it written as fits, and with the global frame current again. -/
theorem output_truncated (n : Nat) (qs : List Request) :
    let s := (initial none).served qs
    let s' := (initial (some n)).served qs
    s.machine.sink.written = linesBytes ((initial none).allPrints qs) ∧
    s'.machine.sink.written = s.machine.sink.written.extract 0 n ∧
    ((∀ p ∈ (initial none).allPrints qs, LineFits n p) →
      (initial (some n)).replies qs = (initial none).replies qs ∧ s' = s.limit n ∧
      ∀ q before text stop behind, s.prints q = before ++ (text, stop) :: behind →
        (∀ p ∈ before, LineFits n p) → ¬ LineFits n (text, stop) →
        ∃ warnings result statement, s.answer q = .ran warnings result ∧
          s'.answer q = .ran warnings (.failed ⟨.sinkFull, statement⟩) ∧
          s'.prints q = (before ++ [(text, stop)]).map (limitMoment n) ∧
          (s'.next q).machine = { (stop.withLine text).limit n with current := globalFrame }) := by
  intro s s'
  have hroom : (initial none).machine.sink.room = none := rfl
  have hchain : Chained (initial none).machine.sink ((initial none).allPrints qs) s.machine.sink :=
    served_chained hroom
  have hfollows : Follows n s s' :=
    Follows.served ⟨hroom, congrArg (·.machine.sink) (initial_limit n), .inl (initial_limit n)⟩
  refine ⟨?_, congrArg Sink.written hfollows.2.1, fun hfits => ?_⟩
  · rw [hchain.written hroom]
    exact ByteArray.empty_append
  obtain ⟨hserved, hreplies⟩ := served_whole (n := n) (s := initial none) hroom (Nat.zero_le _) hfits
  have hsame : s' = s.limit n := by
    rw [← hserved, ← initial_limit]
  refine ⟨by rw [initial_limit, hreplies], hsame, fun q before text stop behind hprints hbefore hline => ?_⟩
  obtain ⟨-, hcut⟩ := submit_cut (s := s.skip q.skipped) n q.fuel q.install q.tokens (hchain.room hroom)
  cases hcut with
  | whole fits same =>
    refine absurd (fits (text, stop) ?_) hline
    rw [show (s.skip q.skipped).printsOf q.fuel q.install q.tokens = s.prints q from rfl, hprints]
    exact List.mem_append_right _ List.mem_cons_self
  | cut before' text' stop' behind' warnings result statement prints fits full answer stopped machine trace =>
    obtain ⟨rfl, hfirst⟩ := first_unfit (prints.symm.trans hprints) fits full hbefore hline
    obtain ⟨rfl, rfl⟩ := Prod.mk.inj hfirst
    have hcurrent : s.machine.current = globalFrame := served_current
    rw [hsame]
    exact ⟨warnings, result, statement, answer, stopped, trace, machine.trans (by rw [← hcurrent]; rfl)⟩

/-- A sink that takes five bytes takes the line of the first program.  Of the lines of the second one it takes the
first and a byte of the next, where the program stops; without a limit this program runs to its end. -/
theorem output_truncated_second_line :
    let first : Request := ⟨9, true, (Scan.ofString "print \"a\";").tokens, 0⟩
    let second : Request := ⟨9, true, (Scan.ofString "print \"b\";print \"cc\";print \"d\";").tokens, 0⟩
    let s := (initial none).served [first]
    let s' := (initial (some 5)).served [first]
    (initial (some 5)).replies [first] = (initial none).replies [first] ∧ s' = s.limit 5 ∧
      s.answer second = .ran [] .completed ∧
      (∃ statement, s'.answer second = .ran [] (.failed ⟨.sinkFull, statement⟩)) ∧
      (s'.prints second).map (·.1) = ["b", "cc"] ∧ (s'.next second).machine.sink.written = "a\nb\nc".toUTF8 := by
  intro first second s s'
  have hruns : ((initial none).allPrints [first]).map (fun p => (p.1, p.2.sink.written.size)) = [("a", 0)] ∧
      (s.prints second).map (fun p => (p.1, p.2.sink.written.size)) = [("b", 2), ("cc", 4), ("d", 7)] ∧
      s.answer second = .ran [] .completed ∧
      (s.next second).machine.sink.written.extract 0 5 = "a\nb\nc".toUTF8 := by
    unfold s second first
    rw [Scan.ofString_eq_dispatch, Scan.ofString_eq_dispatch]
    refine ⟨?_, ?_, ?_, ?_⟩ <;> cbv
  obtain ⟨hfirst, hsecond, hanswer, hbytes⟩ := hruns
  obtain ⟨a, hlines, ha⟩ := List.map_eq_singleton_iff.1 hfirst
  obtain ⟨b, rest, hprints, hb, hrest⟩ := List.map_eq_cons_iff.1 hsecond
  obtain ⟨c, behind, rfl, hc, -⟩ := List.map_eq_cons_iff.1 hrest
  have hfits : ∀ p ∈ (initial none).allPrints [first], LineFits 5 p := by
    rw [hlines]
    exact List.forall_mem_singleton.2 ((lineFits_iff ha).2 (by decide))
  obtain ⟨-, -, hwhole⟩ := output_truncated 5 [first]
  obtain ⟨hreplies, hsame, hcut⟩ := hwhole hfits
  obtain ⟨warnings, result, statement, hran, hstopped, htrace, -⟩ := hcut second [b] c.1 c.2 behind hprints
    (List.forall_mem_singleton.2 ((lineFits_iff hb).2 (by decide))) fun h => absurd ((lineFits_iff hc).1 h) (by decide)
  obtain ⟨rfl, rfl⟩ := Answer.ran.inj (hanswer.symm.trans hran)
  obtain ⟨-, hwritten, -⟩ := output_truncated 5 [first, second]
  refine ⟨hreplies, hsame, hanswer, ⟨statement, hstopped⟩, ?_, hwritten.trans hbytes⟩
  rw [show s'.prints second = _ from htrace]
  simp [limitMoment, (Prod.mk.inj hb).1, (Prod.mk.inj hc).1]

end Session

end ScriptLang
