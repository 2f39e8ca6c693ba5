import ScriptLang.Proofs.Heap.FoundedRuns
import ScriptLang.Proofs.Submission
import ScriptLang.Proofs.Token.Dispatch

/-!
# The frames and classes of a session

Whatever a session is given, and with whatever fuel it is run, its frames and classes are built in order: each refers
to older ones only, and every value refers to such as there are.  So whatever is searched along them is found, or is
missing, after finitely many steps.

* `Session.eventsWith`, `Session.Lived` — the events of a submission, and the sessions that can be reached, with all
  that has happened in them;
* `Machine.LinksEnd` — following the links of frames and classes ends;
* `Lived.heap_founded` — the theorem.
-/

namespace ScriptLang

variable {past : History} {cs : List Class} {m : Machine}

/-- Every row of frames ends with the global frame, and following the links of frames and of classes ends. -/
structure Machine.LinksEnd (m : Machine) : Prop where
  global : ∀ i < m.frames.size, (m.frames.chain i).getLast? = some globalFrame
  frames : m.frames.SearchesEnd
  classes : ∀ c : Class, c.SearchesEnd

lemma Machine.Founded.linksEnd (h : m.Founded cs) : m.LinksEnd :=
  ⟨fun _ hi => h.frames.getLast?_chain hi, h.frames.searchesEnd, Class.searchesEnd⟩

namespace Session

variable {s : Session}

/-- The events of the run of a program, if a session accepts it. -/
def eventsWith (fuel : Nat) (install : Bool) (tokens : List Token) (s : Session) : History :=
  match Program.parse tokens with
  | .error _ => []
  | .ok tree =>
    match (s.resolver.resolve (s.numbered tree)).1 with
    | .error _ => []
    | .ok res =>
      runEvents fuel (s.numbered tree) { s.machine with locals := tableWith install s.machine.locals res.locals }

/-- The sessions that start without code and take one program after another, each with everything that has happened. -/
inductive Lived : History → Session → Prop
  | initial (limit : Option Nat) : Lived [] (initial limit)
  | submit {past : History} {s : Session} (fuel : Nat) (install : Bool) (tokens : List Token) : Lived past s →
    Lived (past ++ s.eventsWith fuel install tokens) (s.submit fuel install tokens).2

/-- These are all sessions that can be reached. -/
lemma Reachable.lived (h : Reachable s) : ∃ past, Lived past s := by
  induction h with
  | initial limit => exact ⟨_, .initial limit⟩
  | submit fuel install tokens _ ih =>
    obtain ⟨past, hpast⟩ := ih
    exact ⟨_, .submit fuel install tokens hpast⟩

/-- Everything that a session holds, and held at any moment of its runs, refers to what had been made until then. -/
structure Founded (past : History) (s : Session) : Prop where
  machine : s.machine.Founded (classesOf past)
  moments : Chronicle FoundedMoment [] past

lemma Founded.submit (h : s.Founded past) (fuel : Nat) (install : Bool) (tokens : List Token) :
    (s.submit fuel install tokens).2.Founded (past ++ s.eventsWith fuel install tokens) := by
  rcases hparse : Program.parse tokens with ds | tree
  · have hevents : s.eventsWith fuel install tokens = [] := by simp only [eventsWith, hparse]
    rw [hevents, List.append_nil, submit_unreadable hparse]
    exact h
  rcases hres : (s.resolver.resolve (s.numbered tree)).1 with rejection | res
  · have hevents : s.eventsWith fuel install tokens = [] := by simp only [eventsWith, hparse, hres]
    rw [hevents, List.append_nil, submit_rejected hparse hres]
    exact ⟨h.machine, h.moments⟩
  have hevents : s.eventsWith fuel install tokens = runEvents fuel (s.numbered tree)
      { s.machine with locals := tableWith install s.machine.locals res.locals } := by
    simp only [eventsWith, hparse, hres]
  -- the table does not matter for what the machine holds
  have hstart : Machine.Founded (classesOf past)
      { s.machine with locals := tableWith install s.machine.locals res.locals } :=
    h.machine.restate rfl rfl (Nat.le_refl _) h.machine.current
  obtain ⟨hmoments, hbuilt⟩ := runEvents_founded fuel (s.numbered tree) hstart
  rw [submit_ran hparse hres, hevents]
  exact ⟨hbuilt.founded, chronicle_append.2 ⟨h.moments, hmoments⟩⟩

lemma Lived.founded (h : Lived past s) : s.Founded past := by
  induction h with
  | initial limit => exact ⟨initial_founded limit, trivial⟩
  | submit fuel install tokens _ ih => exact ih.submit fuel install tokens

/-- **Frames and classes form a well-founded heap.**  Between the programs of a session and at every moment of their
runs, the frame around each frame and the class that each class extends were made before it, every row of frames ends
with the global frame, and what functions, bound methods, classes and instances refer to is there: in the frames, in
the properties of instances, in the methods of classes, and in what the event of the moment carries.  So searching for a
name, assigning to one, going steps out, searching for a method or a static method and collecting the classes that a
class descends from all end, for every frame, name, number of steps and class. -/
theorem Lived.heap_founded (h : Lived past s) :
    (s.machine.Founded (made past s.machine) ∧ s.machine.LinksEnd) ∧
    ∀ before w m after, past = before ++ (w, m) :: after →
      (m.Founded (made before m) ∧ m.LinksEnd) ∧ w.Within (made before m) m := by
  obtain ⟨hmachine, hmoments⟩ := h.founded
  refine ⟨⟨?_, hmachine.linksEnd⟩, fun before w m after hsplit => ?_⟩
  · rw [made_eq hmachine.stamps]
    exact hmachine
  · obtain ⟨hm, hw⟩ : FoundedMoment ([] ++ before) w m := chronicle_iff.1 hmoments before (w, m) after hsplit
    exact ⟨⟨hm, hm.linksEnd⟩, hw⟩

/-- A class in a block extends the class of its own name outside of the block. -/
theorem heap_founded_same_name :
    let tokens := (Scan.ofString "class A\x7b\x7d\x7bclass A extends A\x7b\x7d\x7d").tokens
    let past := (initial none).eventsWith 3 true tokens
    let m := ((initial none).submit 3 true tokens).2.machine
    Lived past ((initial none).submit 3 true tokens).2 ∧ m.Founded (made past m) ∧
      (m.frames.chain 1).getLast? = some globalFrame ∧
      (made past m).map (fun c => (c.own.name, c.superclass?.map (·.own.name))) = [("A", none), ("A", some "A")] := by
  intro tokens past m
  have hlived : Lived past ((initial none).submit 3 true tokens).2 := .submit 3 true tokens (.initial none)
  obtain ⟨⟨hm, hends⟩, -⟩ := hlived.heap_founded
  refine ⟨hlived, hm, hends.global 1 ?_, ?_⟩
  · show 1 < ((initial none).submit 3 true tokens).2.machine.frames.size
    simp only [tokens, Scan.ofString_eq_dispatch]
    cbv
  · show (made ((initial none).eventsWith 3 true tokens) ((initial none).submit 3 true tokens).2.machine).map _ = _
    simp only [tokens, Scan.ofString_eq_dispatch]
    cbv

end Session

end ScriptLang
