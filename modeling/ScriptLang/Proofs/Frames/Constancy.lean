import ScriptLang.Proofs.Frames.Evolution
import ScriptLang.Proofs.Submission

/-!
# Constancy

The frames that an interpreter passes while it runs one program after another, whatever comes of each.

* `Machine.history` — all these frames, at every moment, in their order;
* `history_evolves` — each comes from all before it by operations;
* `frames_constant` — what stays: a name its table, a constant its value, and both tables of a frame apart;
* `Session.Reachable.performed`, `Session.Reachable.at_rest` — the machine of a session between programs.
-/

namespace ScriptLang

open Eval

/-- What an interpreter is asked to do: run a program with some fuel, perhaps after a table of distances was
installed. -/
structure Task where
  table : Option Locals
  program : Program OccurrenceId
  fuel : Nat

namespace Machine

/-- The machine with the table of a task. -/
def prepare (m : Machine) (task : Task) : Machine :=
  match task.table with
  | none => m
  | some L => m.install L

/-- The machine after a task, whatever came of it. -/
def perform (m : Machine) (task : Task) : Machine :=
  (runProgram task.fuel task.program (m.prepare task)).2

/-- The frames before one task after another, at every moment of it, and after all. -/
def history (m : Machine) : List Task → List Frames
  | [] => [m.frames]
  | task :: tasks =>
    m.frames :: (runMoments task.fuel task.program (m.prepare task)).map (·.2.frames) ++
      (m.perform task).history tasks

end Machine

variable {D : FrameId → Prop} {fs : Frames} {m : Machine}

/-! ### Runs of programs -/

/-- The frames that a run of a program passes. -/
def framesOfRun (fuel : Nat) (program : Program OccurrenceId) (m : Machine) : List Frames :=
  m.frames :: (runMoments fuel program m).map (·.2.frames) ++ [(runProgram fuel program m).2.frames]

lemma runProgram_evolves (fuel : Nat) (program : Program OccurrenceId) (hr : Room D true m) :
    (framesOfRun fuel program m).Pairwise (EvolvesIn D) ∧ (runProgram fuel program m).2.current = m.current := by
  induction program generalizing m with
  | nil => exact ⟨List.pairwise_pair.2 .refl, rfl⟩
  | cons s ss ih =>
    obtain ⟨hframes, hcur⟩ := (runs_evolve D fuel).execute true s m (fun _ => rfl) hr
    have hsize : m.frames.size ≤ (endState ((executeT fuel s).run m)).frames.size :=
      ((List.pairwise_cons.1 hframes).1 _ (List.mem_append_right _ (List.mem_singleton.2 rfl))).size_le
    unfold framesOf at hframes
    unfold framesOfRun
    rw [runMoments, Observer.moments, runProgram]
    rw [Observer.execute_run] at hframes hcur hsize ⊢
    rcases hrun : execute fuel s m with ⟨flow, m'⟩ | ⟨stop, m'⟩
    · rw [hrun] at hframes hcur hsize
      obtain ⟨hframes', hcur'⟩ := ih (hr.later hsize hcur)
      refine ⟨?_, hcur'.trans hcur⟩
      have hacross := pairwise_across hframes hframes'
      simpa [endState] using hacross
    · rw [hrun] at hframes hcur
      cases stop <;> exact ⟨by simpa [endState] using hframes, hcur⟩

/-- There is room for anything where the current frame exists. -/
lemma room_anywhere (h : m.current < m.frames.size) : Room (fun _ => True) true m :=
  ⟨h, fun _ _ => trivial, fun _ => trivial⟩

lemma prepare_frames (m : Machine) (task : Task) : (m.prepare task).frames = m.frames := by
  unfold Machine.prepare
  split <;> rfl

lemma prepare_current (m : Machine) (task : Task) : (m.prepare task).current = m.current := by
  unfold Machine.prepare
  split <;> rfl

/-- A task leaves the current frame as it is and its place in the row of frames too. -/
lemma perform_current (h : m.current < m.frames.size) (task : Task) :
    (framesOfRun task.fuel task.program (m.prepare task)).Pairwise (EvolvesIn fun _ => True) ∧
      (m.perform task).current = m.current ∧ (m.perform task).current < (m.perform task).frames.size := by
  obtain ⟨hframes, hcur⟩ := runProgram_evolves task.fuel task.program
    (room_anywhere (m := m.prepare task) (by rwa [prepare_current, prepare_frames]))
  rw [prepare_current] at hcur
  refine ⟨hframes, hcur, ?_⟩
  have hsize := ((List.pairwise_cons.1 hframes).1 _ (List.mem_append_right _ (List.mem_singleton.2 rfl))).size_le
  rw [prepare_frames] at hsize
  exact hcur.symm ▸ Nat.lt_of_lt_of_le h hsize

/-- **All frames that an interpreter passes come from those before them by operations.** -/
theorem history_evolves (h : m.current < m.frames.size) (tasks : List Task) :
    (m.history tasks).Pairwise (EvolvesIn fun _ => True) := by
  induction tasks generalizing m with
  | nil => exact List.pairwise_singleton _ _
  | cons task tasks ih =>
    obtain ⟨hframes, -, hplace⟩ := perform_current h task
    unfold framesOfRun at hframes
    rw [prepare_frames] at hframes
    have hrest := ih hplace
    have hhead : (m.perform task).history tasks =
        (m.perform task).frames :: ((m.perform task).history tasks).tail := by
      cases tasks <;> rfl
    rw [Machine.history, hhead]
    rw [hhead] at hrest
    exact pairwise_through hframes hrest

/-! ### What stays -/

lemma initial_evolves (limit : Option Nat) : Evolves #[] (Machine.initial limit).frames :=
  (EvolvesIn.add (D := fun _ => True) none).evolves

lemma initial_current (limit : Option Nat) :
    (Machine.initial limit).current < (Machine.initial limit).frames.size := Nat.zero_lt_one

/-- All frames that an interpreter passes come from nothing. -/
lemma history_made {limit : Option Nat} {tasks : List Task} (h : fs ∈ (Machine.initial limit).history tasks) :
    Evolves #[] fs := by
  have hpairs := history_evolves (initial_current limit) tasks
  cases tasks with
  | nil => exact List.mem_singleton.1 h ▸ initial_evolves limit
  | cons task tasks =>
    rcases List.mem_cons.1 h with rfl | h
    · exact initial_evolves limit
    · exact (initial_evolves limit).trans ((List.pairwise_cons.1 hpairs).1 fs h).evolves

/-- **What frames keep.**  Frames that come from others by operations have kept all their names, each in the same
table, and the values of their constants, and no frame has a name in both tables.  An operation that fails leaves
everything as it was; a write that succeeds puts its value into one slot and leaves everything else as it was.  All
frames that an interpreter passes, with any programs and whatever comes of them, come from those before them by
operations. -/
theorem frames_constant :
    (∀ fs fs', Evolves #[] fs → Evolves fs fs' → fs'.Disjoint ∧ KeepsSlots fs fs') ∧
    (∀ (op : FrameOp) fs, op.OnExisting fs →
      (∀ e fs', op.perform fs = .error e fs' → fs' = fs) ∧
      ∀ r fs', op.isWrite → op.perform fs = .ok r fs' →
        ∃ slot v, op.target? fs = some (slot, v) ∧ Writes slot v fs fs') ∧
    ∀ limit tasks,
      (∀ fs ∈ (Machine.initial limit).history tasks, Evolves #[] fs ∧ fs.Disjoint) ∧
      ((Machine.initial limit).history tasks).Pairwise fun fs fs' => Evolves fs fs' ∧ KeepsSlots fs fs' := by
  refine ⟨fun fs fs' hmade h => ⟨(hmade.trans h).disjoint, h.keeps hmade.disjoint⟩, fun op fs hon => ⟨?_, ?_⟩,
    fun limit tasks => ⟨fun fs h => ⟨history_made h, (history_made h).disjoint⟩, ?_⟩⟩
  · exact fun e fs' => perform_error
  · intro r fs' hwrite hop
    obtain ⟨slot, v, htarget, -, hwrites⟩ := perform_write hon hwrite hop
    exact ⟨slot, v, htarget, hwrites⟩
  · refine (history_evolves (initial_current limit) tasks).imp_of_mem fun {fs fs'} hmem _ h => ?_
    exact ⟨h.evolves, h.evolves.keeps (history_made hmem).disjoint⟩

/-- A constant of the global frame, and a variable of a frame inside it, made by operations. -/
def besideConstant : List FrameOp :=
  [.new none, .define globalFrame "k" (.bool true) true, .new (some globalFrame), .define 1 "x" .null false]

/-- From the inner frame the constant cannot be assigned to, and a try changes nothing.  The variable can be, and that
one slot is written. -/
theorem frames_constant_inner :
    let fs := besideConstant.foldl (fun fs op => op.after fs) #[]
    let fs' := (FrameOp.assignAt 1 0 "x" (.bool true)).after fs
    (FrameOp.assign 1 "k" .null).perform fs = .error (.assignmentToConstant "k") fs ∧
      Writes ⟨1, false, "x"⟩ (.bool true) fs fs' ∧ fs'.Disjoint ∧ KeepsSlots fs fs' := by
  intro fs fs'
  have hmade : Performs #[] besideConstant fs := by
    refine .cons ?_ (.cons ?_ (.cons ?_ (.cons ?_ .nil))) <;> rintro _ ⟨⟩ <;> decide
  have hconstant : (FrameOp.assign 1 "k" .null).OnExisting fs := by
    rintro _ ⟨⟩
    decide
  have hvariable : (FrameOp.assignAt 1 0 "x" (.bool true)).OnExisting fs := by
    rintro _ ⟨⟩
    decide
  obtain ⟨hkeeps, hops, -⟩ := frames_constant
  obtain ⟨fs'', hrefused⟩ : ∃ fs'', (FrameOp.assign 1 "k" .null).perform fs = .error (.assignmentToConstant "k") fs'' :=
    ⟨_, by cbv⟩
  have hwritten : (FrameOp.assignAt 1 0 "x" (.bool true)).perform fs = .ok none fs' := by cbv
  obtain ⟨slot, v, htarget, hwrites⟩ := (hops _ fs hvariable).2 none fs' rfl hwritten
  obtain ⟨rfl, rfl⟩ := Prod.mk.inj (Option.some.inj htarget)
  rw [(hops _ fs hconstant).1 _ _ hrefused] at hrefused
  exact ⟨hrefused, hwrites, hkeeps fs fs' ⟨_, hmade⟩ ⟨_, .one hvariable⟩⟩

/-! ### Sessions -/

/-- Where an interpreter ends is the last of what it passes, and the current frame is the one it started in. -/
lemma foldl_perform (h : m.current < m.frames.size) (tasks : List Task) :
    (tasks.foldl Machine.perform m).current = m.current ∧
      (tasks.foldl Machine.perform m).current < (tasks.foldl Machine.perform m).frames.size ∧
        (tasks.foldl Machine.perform m).frames ∈ m.history tasks := by
  induction tasks generalizing m with
  | nil => exact ⟨rfl, h, List.mem_singleton.2 rfl⟩
  | cons task tasks ih =>
    obtain ⟨-, hcur, hplace⟩ := perform_current h task
    obtain ⟨hcur', hplace', hmem⟩ := ih hplace
    exact ⟨hcur'.trans hcur, hplace', List.mem_append_right _ hmem⟩

/-- The machine of a session is one that has performed tasks. -/
lemma Session.Reachable.performed {s : Session} (h : s.Reachable) :
    ∃ limit, ∃ tasks : List Task, s.machine = tasks.foldl Machine.perform (Machine.initial limit) := by
  induction h with
  | initial limit => exact ⟨limit, [], rfl⟩
  | @submit s fuel install tokens _ ih =>
    obtain ⟨limit, tasks, hmachine⟩ := ih
    rcases hparse : Program.parse tokens with ds | tree
    · rw [submit_unreadable hparse]
      exact ⟨limit, tasks, hmachine⟩
    rcases hres : (s.resolver.resolve (s.numbered tree)).1 with rejection | res
    · rw [submit_rejected hparse hres]
      exact ⟨limit, tasks, hmachine⟩
    · rw [submit_ran hparse hres]
      refine ⟨limit, tasks ++ [⟨if install then some res.locals else none, s.numbered tree, fuel⟩], ?_⟩
      rw [List.foldl_append, ← hmachine]
      cases install <;> rfl

/-- Between programs the global frame is current, and no frame has a name in both tables. -/
lemma Session.Reachable.at_rest {s : Session} (h : s.Reachable) :
    s.machine.current = globalFrame ∧ 0 < s.machine.frames.size ∧ s.machine.frames.Disjoint := by
  obtain ⟨limit, tasks, hmachine⟩ := h.performed
  obtain ⟨hcur, hplace, hmem⟩ := foldl_perform (initial_current limit) tasks
  rw [← hmachine] at hcur hplace hmem
  exact ⟨hcur, Nat.zero_lt_of_lt hplace, (history_made hmem).disjoint⟩

end ScriptLang
