import Mathlib
import ScriptLang.Proofs.Command.TextLines
import ScriptLang.Proofs.Frames.Restoration

/-!
# What the loop does with a text

The loop divides a text into submissions: each is as many lines as are needed to close all braces that they open.
No line is lost, none is taken twice, and there is no other division of this kind.

* `Division`, `Division.IsDue` — the division of a text;
* `Division.IsDue.unique`, `exists_due` — there is one, and only one;
* `run_submissions`, `run_waiting` — what the loop does with submissions and with lines that wait;
* `transcript_divided` — the theorem.
-/

namespace ScriptLang

/-! ### Outputs behind one another -/

lemma Output.append_assoc (a b c : Output) : a ++ b ++ c = a ++ (b ++ c) :=
  congrArg₂ Output.mk String.append_assoc String.append_assoc

lemma Output.empty_append (a : Output) : Output.empty ++ a = a :=
  congrArg₂ Output.mk String.empty_append String.empty_append

lemma Output.append_empty (a : Output) : a ++ Output.empty = a :=
  congrArg₂ Output.mk String.append_empty String.append_empty

lemma Output.out_append (a b : String) : Output.out (a ++ b) = Output.out a ++ Output.out b := rfl

/-- A transcript with something in front of it. -/
def Transcript.after (o : Output) (t : Transcript) : Transcript :=
  { o ++ t.toOutput with exit := t.exit }

lemma Transcript.after_after (a b : Output) (t : Transcript) : (t.after b).after a = t.after (a ++ b) := by
  unfold Transcript.after
  rw [Output.append_assoc]

lemma Transcript.after_empty (t : Transcript) : t.after .empty = t := by
  unfold Transcript.after
  rw [Output.empty_append]

namespace Command.Repl

variable {text : String} {line : String} {lines first rest pending : List String} {s : Session}

/-! ### Divisions -/

/-- Whether lines leave a brace open. -/
def IsOpen (lines : List String) : Prop := 0 < (Scan.ofString (String.join lines)).braceDepth

/-- Lines none of which closes the braces that have been opened up to its end. -/
def Wait (lines : List String) : Prop := ∀ first, first <+: lines → first ≠ [] → IsOpen first

/-- A submission: the first lines after which no brace is open. -/
structure IsSubmission (lines : List String) : Prop where
  nonempty : lines ≠ []
  closed : ¬ IsOpen lines
  wait : Wait lines.dropLast

/-- The lines of a text, divided into submissions and the lines that still wait at its end. -/
structure Division where
  submissions : List (List String)
  pending : List String

/-- The lines of a division in their order. -/
def Division.all (d : Division) : List String := d.submissions.flatten ++ d.pending

/-- Whether all braces of the submissions are closed, and none of these are before its last line, while what is
left over waits up to its end. -/
structure Division.IsDue (d : Division) : Prop where
  submissions : ∀ lines ∈ d.submissions, IsSubmission lines
  pending : Wait d.pending

lemma isComplete_iff : isComplete (String.join lines) = true ↔ ¬ IsOpen lines := by
  unfold isComplete IsOpen
  rw [decide_eq_true_iff, Int.not_lt]

lemma Wait.nil : Wait [] := fun _ hfront hne => absurd (List.prefix_nil.1 hfront) hne

lemma Wait.concat (h : Wait lines) (hopen : IsOpen (lines ++ [line])) : Wait (lines ++ [line]) := by
  intro first hfront hne
  rcases List.prefix_concat_iff.1 hfront with rfl | hfront
  · exact hopen
  · exact h first hfront hne

/-- A submission and lines that wait, or another submission, do not begin alike. -/
lemma IsSubmission.eq_of_begins (h : IsSubmission lines) (h' : IsSubmission first) (hfront : first <+: lines) :
    first = lines := by
  by_contra hne
  have hinit : first <+: lines.dropLast := by
    rw [← List.dropLast_concat_getLast h.nonempty] at hfront hne
    exact (List.prefix_concat_iff.1 hfront).resolve_left hne
  exact h'.closed (h.wait first hinit h'.nonempty)

lemma IsSubmission.not_begins (h : IsSubmission first) (hw : Wait lines) : ¬ first <+: lines :=
  fun hfront => h.closed (hw first hfront h.nonempty)

lemma join_flatten (l : List (List String)) : String.join l.flatten = String.join (l.map String.join) := by
  induction l with
  | nil => rfl
  | cons lines l ih => rw [List.flatten_cons, String.join_append, ih, List.map_cons, String.join_cons]

/-- Lines are divided in one way at most. -/
lemma Division.IsDue.unique {d d' : Division} (h : d.IsDue) (h' : d'.IsDue) (hlines : d'.all = d.all) : d = d' := by
  obtain ⟨subs, pending⟩ := d
  obtain ⟨subs', pending'⟩ := d'
  obtain ⟨hs, hp⟩ := h
  obtain ⟨hs', hp'⟩ := h'
  unfold Division.all at hlines
  dsimp only at hlines hs hp hs' hp'
  induction subs generalizing subs' with
  | nil =>
    cases subs' with
    | nil => rw [show pending = pending' from hlines.symm]
    | cons sub' subs' =>
      refine absurd ?_ ((hs' sub' List.mem_cons_self).not_begins hp)
      exact ⟨subs'.flatten ++ pending', by rw [← List.append_assoc]; exact hlines⟩
  | cons sub subs ih =>
    obtain ⟨hsub, hsubs⟩ := List.forall_mem_cons.1 hs
    cases subs' with
    | nil =>
      refine absurd ?_ (hsub.not_begins hp')
      exact ⟨subs.flatten ++ pending, by rw [← List.append_assoc]; exact hlines.symm⟩
    | cons sub' subs' =>
      obtain ⟨hsub', hsubs'⟩ := List.forall_mem_cons.1 hs'
      rw [List.flatten_cons, List.flatten_cons, List.append_assoc, List.append_assoc] at hlines
      have heq : sub' = sub := by
        rcases List.prefix_or_prefix_of_prefix (List.prefix_append sub' _)
          (hlines ▸ List.prefix_append sub _) with hle | hle
        · exact hsub.eq_of_begins hsub' hle
        · exact (hsub'.eq_of_begins hsub hle).symm
      subst heq
      obtain ⟨rfl, rfl⟩ := Division.mk.inj (ih subs' (List.append_cancel_left hlines) hsubs hsubs')
      rfl

/-- Lines can be divided when some that wait stand in front of them. -/
lemma exists_due_append (hfirst : Wait first) (lines : List String) :
    ∃ d : Division, d.IsDue ∧ d.all = first ++ lines := by
  induction lines generalizing first with
  | nil => exact ⟨⟨[], first⟩, ⟨nofun, hfirst⟩, (List.append_nil _).symm⟩
  | cons line lines ih =>
    rw [List.append_cons]
    by_cases hopen : IsOpen (first ++ [line])
    · exact ih (hfirst.concat hopen)
    · obtain ⟨d, hdue, hall⟩ := ih Wait.nil
      refine ⟨⟨(first ++ [line]) :: d.submissions, d.pending⟩,
        ⟨List.forall_mem_cons.2 ⟨⟨by simp, hopen, ?_⟩, hdue.submissions⟩, hdue.pending⟩, ?_⟩
      · rwa [List.dropLast_concat]
      · rw [Division.all, List.flatten_cons, List.append_assoc]
        exact congrArg _ hall

lemma exists_due (lines : List String) : ∃ d : Division, d.IsDue ∧ d.all = lines := exists_due_append .nil lines

/-! ### The loop on them -/

/-- What the loop says before a line when so many others are waiting. -/
def promptAfter : Nat → String
  | 0 => "> "
  | _ + 1 => ". "

/-- What the loop says before some lines in a row, when others are waiting in front of them. -/
def promptsAfter (waiting : Nat) : Nat → String
  | 0 => ""
  | n + 1 => promptAfter waiting ++ promptsAfter (waiting + 1) n

/-- What is written while submissions are taken one after another, and the session that they leave. -/
def converse : List (List String) → Session → Output × Session
  | [], s => (.empty, s)
  | lines :: rest, s =>
    let answer := submit (String.join lines) s
    let answers := converse rest answer.2
    (.out (promptsAfter 0 lines.length) ++ answer.1 ++ answers.1, answers.2)

lemma prompt_waiting (h : ∀ line ∈ first, line ≠ "") :
    (Repl.mk s (String.join first)).prompt = promptAfter first.length := by
  unfold prompt
  cases first with
  | nil => rfl
  | cons line first =>
    have hne : (String.join (line :: first)).isEmpty = false := by
      rw [Bool.eq_false_iff, ne_eq, String.isEmpty_iff, String.join_cons]
      exact fun hempty => h line List.mem_cons_self (String.append_eq_empty_iff.1 hempty).1
    dsimp only
    rw [hne]
    rfl

/-- One line more. -/
lemma run_line (h : ∀ line ∈ first, line ≠ "") (more : List (Except SourceError String)) :
    run ⟨s, String.join first⟩ (.ok line :: more) =
      (run ((⟨s, String.join first⟩ : Repl).feed line).2 more).after
        (.out (promptAfter first.length) ++ ((⟨s, String.join first⟩ : Repl).feed line).1) := by
  rw [run, prompt_waiting h]
  rfl

lemma feed_open (hopen : IsOpen (first ++ [line])) :
    (⟨s, String.join first⟩ : Repl).feed line = (.empty, ⟨s, String.join (first ++ [line])⟩) := by
  have hjoin : String.join first ++ line = String.join (first ++ [line]) := by
    rw [String.join_append, String.join_cons, String.join_nil, String.append_empty]
  unfold feed
  dsimp only
  rw [hjoin, if_neg (fun h => isComplete_iff.1 h hopen)]

lemma feed_closed (hclosed : ¬ IsOpen (first ++ [line])) :
    (⟨s, String.join first⟩ : Repl).feed line =
      ((submit (String.join (first ++ [line])) s).1, ⟨(submit (String.join (first ++ [line])) s).2, ""⟩) := by
  have hjoin : String.join first ++ line = String.join (first ++ [line]) := by
    rw [String.join_append, String.join_cons, String.join_nil, String.append_empty]
  unfold feed
  dsimp only
  rw [hjoin, if_pos (isComplete_iff.2 hclosed)]

lemma promptsAfter_succ (waiting n : Nat) :
    promptsAfter waiting (n + 1) = promptsAfter waiting n ++ promptAfter (waiting + n) := by
  induction n generalizing waiting with
  | zero => exact String.append_empty.trans String.empty_append.symm
  | succ n ih =>
    calc promptsAfter waiting (n + 1 + 1)
        = promptAfter waiting ++ (promptsAfter (waiting + 1) n ++ promptAfter (waiting + 1 + n)) :=
          congrArg (promptAfter waiting ++ ·) (ih (waiting + 1))
      _ = promptsAfter waiting (n + 1) ++ promptAfter (waiting + (n + 1)) := by
        rw [← String.append_assoc, Nat.add_assoc, Nat.add_comm 1 n]
        rfl

/-- **Lines that wait** are prompted for and kept. -/
lemma run_waiting (hne : ∀ line ∈ first ++ lines, line ≠ "") (hw : Wait (first ++ lines))
    (more : List (Except SourceError String)) :
    run ⟨s, String.join first⟩ (lines.map .ok ++ more) =
      (run ⟨s, String.join (first ++ lines)⟩ more).after (.out (promptsAfter first.length lines.length)) := by
  induction lines generalizing first with
  | nil => rw [List.append_nil]; exact (Transcript.after_empty _).symm
  | cons line lines ih =>
    rw [List.append_cons] at hne hw ⊢
    have hfirst : ∀ line ∈ first, line ≠ "" := fun l hl => hne l (by simp [hl])
    have hopen : IsOpen (first ++ [line]) := hw _ (List.prefix_append _ _) (by simp)
    rw [List.map_cons, List.cons_append, run_line hfirst, feed_open hopen, ih hne hw, Transcript.after_after,
      Output.append_empty, ← Output.out_append, List.length_append]
    rfl

/-- Lines that wait, with none in front of them. -/
lemma run_pending (hne : ∀ line ∈ lines, line ≠ "") (hw : Wait lines) (more : List (Except SourceError String)) :
    run ⟨s, ""⟩ (lines.map .ok ++ more) =
      (run ⟨s, String.join lines⟩ more).after (.out (promptsAfter 0 lines.length)) :=
  have hnone : Wait ([] ++ lines) := hw
  run_waiting hne hnone more

/-- **A submission** is prompted for, line by line, and handed over whole. -/
lemma run_submission (hne : ∀ line ∈ lines, line ≠ "") (h : IsSubmission lines)
    (more : List (Except SourceError String)) :
    run ⟨s, ""⟩ (lines.map .ok ++ more) =
      (run ⟨(submit (String.join lines) s).2, ""⟩ more).after
        (.out (promptsAfter 0 lines.length) ++ (submit (String.join lines) s).1) := by
  obtain ⟨init, last, rfl⟩ : ∃ init last, lines = init ++ [last] :=
    ⟨_, _, (List.dropLast_concat_getLast h.nonempty).symm⟩
  have hwait := h.wait
  rw [List.dropLast_concat] at hwait
  have hinit : ∀ line ∈ init, line ≠ "" := fun l hl => hne l (List.mem_append_left _ hl)
  rw [List.map_append, List.append_assoc]
  refine (run_pending hinit hwait (.ok last :: more)).trans ?_
  rw [run_line hinit, feed_closed h.closed, Transcript.after_after, List.length_append, List.length_singleton,
    promptsAfter_succ, Nat.zero_add, Output.out_append, Output.append_assoc]

/-- **Submissions one after another** are handed over in their order. -/
lemma run_submissions {submissions : List (List String)} (hne : ∀ line ∈ submissions.flatten, line ≠ "")
    (h : ∀ lines ∈ submissions, IsSubmission lines) (more : List (Except SourceError String)) :
    run ⟨s, ""⟩ (submissions.flatten.map .ok ++ more) =
      (run ⟨(converse submissions s).2, ""⟩ more).after (converse submissions s).1 := by
  induction submissions generalizing s with
  | nil => exact (Transcript.after_empty _).symm
  | cons lines submissions ih =>
    obtain ⟨hlines, hrest⟩ := List.forall_mem_cons.1 h
    rw [List.flatten_cons] at hne ⊢
    rw [List.map_append, List.append_assoc, run_submission (fun l hl => hne l (List.mem_append_left _ hl)) hlines,
      ih (fun l hl => hne l (List.mem_append_right _ hl)) hrest, Transcript.after_after]
    rfl

/-! ### What a submission leaves -/

/-- A program that fails has run up to the statement that fails. -/
lemma runProgram_failed {fuel : Nat} {program : Program OccurrenceId} {failure : Failure} {m m' : Machine}
    (h : runProgram fuel program m = (.failed failure, m')) :
    ∃ before behind m1, program = before ++ failure.statement :: behind ∧
      runProgram fuel before m = (.completed, m1) ∧
      Eval.execute fuel failure.statement m1 = .error (.error failure.error) m' := by
  induction program generalizing m with
  | nil => cases h
  | cons s ss ih =>
    rw [runProgram] at h
    rcases hs : Eval.execute fuel s m with ⟨flow, m1⟩ | ⟨stop, m1⟩ <;> rw [hs] at h
    · obtain ⟨before, behind, m2, rfl, hbefore, hfails⟩ := ih h
      refine ⟨s :: before, behind, m2, rfl, ?_, hfails⟩
      rw [runProgram, hs]
      exact hbefore
    · cases stop <;> cases h
      exact ⟨[], ss, m, rfl, rfl, hs⟩

/-- What a submission leaves of a session.  Nothing is taken back; a program that is not read, or not fit to run,
changes nothing; and one that fails leaves what its statements up to the failing one, and this one up to the error,
have made. -/
structure Keeps (text : String) (s s' : Session) : Prop where
  grown : ∃ L, ({ s.machine with locals := L } : Machine).Grown s'.machine
  unread : ∀ ds, Program.parse (Scan.ofString text).tokens = .error ds → s' = s
  unfit : ∀ tree rejection, Program.parse (Scan.ofString text).tokens = .ok tree →
    (s.resolver.resolve (s.numbered tree)).1 = .error rejection → s'.machine = s.machine
  failed : ∀ tree res failure, Program.parse (Scan.ofString text).tokens = .ok tree →
    (s.resolver.resolve (s.numbered tree)).1 = .ok res →
    (runProgram fuel (s.numbered tree) (s.machine.install res.locals)).1 = .failed failure →
    ∃ before behind m, s.numbered tree = before ++ failure.statement :: behind ∧
      runProgram fuel before (s.machine.install res.locals) = (.completed, m) ∧
      Eval.execute fuel failure.statement m = .error (.error failure.error) s'.machine

lemma submit_snd (text : String) (s : Session) :
    (submit text s).2 = (s.submit fuel true (Scan.ofString text).tokens).2 := by
  unfold submit interpret
  dsimp only
  split <;> rfl

lemma submit_keeps (text : String) (s : Session) : Keeps text s (submit text s).2 := by
  rw [submit_snd]
  refine ⟨s.submit_grown .., fun ds hparse => ?_, fun tree rejection hparse hres => ?_,
    fun tree res failure hparse hres hrun => ?_⟩
  · rw [Session.submit_unreadable hparse]
  · rw [Session.submit_rejected hparse hres]
  · rw [Session.submit_ran hparse hres]
    exact runProgram_failed (Prod.ext hrun rfl)

/-! ### The theorem -/

/-- **The loop neither loses nor repeats a line.**  Every text is divided into submissions and lines that are left
over in exactly one way: its lines are those of the submissions and then those left over; a submission is some lines
after the last of which no brace is open, while one is open after each of the others; and after each line that is
left over a brace is open.  The loop hands over the texts of the submissions in their order and nothing else, with
the continuing prompt before a line exactly if lines of the same submission, or of those left over, stand before it;
then it waits with what is left over, and when the text ends, so does the loop, with code 0, whatever became of the
submissions.  And each submission leaves what was there before it. -/
theorem transcript_divided (text : String) :
    ∃ d : Division,
      (AreLines text d.all ∧ d.IsDue) ∧
      (∀ d' : Division, AreLines text d'.all ∧ d'.IsDue → d' = d) ∧
      String.join (d.submissions.map String.join) ++ String.join d.pending = text ∧
      (∀ more, initial.run (d.all.map .ok ++ more) =
        (run ⟨(converse d.submissions (.initial none)).2, String.join d.pending⟩ more).after
          ((converse d.submissions (.initial none)).1 ++ .out (promptsAfter 0 d.pending.length))) ∧
      transcript text.toUTF8 =
        { Output.out banner ++ (converse d.submissions (.initial none)).1 ++
            .out (promptsAfter 0 (d.pending.length + 1)) with exit := 0 } ∧
      ∀ lines s, Keeps (String.join lines) s (submit (String.join lines) s).2 := by
  have hlines := areLines_textLines text
  obtain ⟨d, hdue, hall⟩ := exists_due ((textLines text.toList).map String.ofList)
  rw [← hall] at hlines
  have hrun : ∀ more, initial.run (d.all.map .ok ++ more) =
      (run ⟨(converse d.submissions (.initial none)).2, String.join d.pending⟩ more).after
        ((converse d.submissions (.initial none)).1 ++ .out (promptsAfter 0 d.pending.length)) := fun more => by
    have hne := hlines.nonempty
    unfold Division.all at hne ⊢
    rw [List.map_append, List.append_assoc]
    refine (run_submissions (fun l hl => hne l (List.mem_append_left _ hl)) hdue.submissions _).trans ?_
    rw [← Transcript.after_after]
    exact congrArg _ (run_pending (fun l hl => hne l (List.mem_append_right _ hl)) hdue.pending more)
  refine ⟨d, ⟨hlines, hdue⟩, fun d' h' => h'.2.unique hdue (hlines.unique h'.1), ?_, hrun, ?_,
    fun lines => submit_keeps _⟩
  · rw [← join_flatten, ← String.join_append]
    exact hlines.join
  · unfold transcript
    have hend := hrun []
    rw [List.append_nil] at hend
    have hprompt : (Repl.mk (converse d.submissions (.initial none)).2 (String.join d.pending)).prompt =
        promptAfter d.pending.length :=
      prompt_waiting fun l hl => hlines.nonempty l (List.mem_append_right _ hl)
    rw [decode_splitLines, ← hall]
    dsimp only
    rw [hend, run, hprompt, promptsAfter_succ, Nat.zero_add, Output.out_append, Output.append_assoc,
      ← Output.append_assoc _ (.out (promptsAfter _ _))]
    rfl

end Command.Repl

end ScriptLang
