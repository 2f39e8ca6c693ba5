import Mathlib
import ScriptLang.Proofs.Addressing.Sessions
import ScriptLang.Proofs.Places.Findings
import ScriptLang.Proofs.Receivers.SeatedRuns
import ScriptLang.Proofs.Redeclaring.Predictions
import ScriptLang.Proofs.Splitting.Submissions
import ScriptLang.Proofs.Token.Dispatch

/-!
# What the reserved words stand for

In a session of source texts whose tables are installed, `this` and `super` are found wherever resolving has not warned
of them: in the frame that was made when the method around them was bound.

* `Tabled` — a table that has the distances of all nodes of a session;
* `Session.nodes`, `Session.events` — the nodes of a submitted program, and the events of its run;
* `Session.Receiving` — the sessions that can be reached, with all nodes and events so far;
* `Session.Placed`, `Receiving.placed` — the invariant of these sessions;
* `IsReceiver`, `Receiving.receivers_bound` — what the reserved words stand for, and the theorem.
-/

namespace ScriptLang

open Resolving Grammar Eval

variable {N : PlacedNodes} {past : History} {L : Locals} {next next' first : OccurrenceId} {tokens : List Token}
  {tree : Program Unit} {res : Resolution} {n : Node OccurrenceId} {p q place : Place OccurrenceId}
  {use : Occurrence OccurrenceId} {name : String} {kind : NameKind} {m : Machine} {f : Closure} {c owner : Class}
  {o : Object} {e : Expr OccurrenceId}

/-! ### Tables of distances -/

/-- The table has the distances of all nodes, which are spelled as they say; each use of a name is at one of them
only, and the numbers from `next` on are not in use. -/
structure Tabled (N : PlacedNodes) (L : Locals) (next : OccurrenceId) : Prop where
  spelled : ∀ n ∈ N, n.1.Spelled
  reserves : ∀ n ∈ N, n.2.Reserves
  used : ∀ k ∈ ids (usesOf (N.map (·.1))), k < next
  distinct : (ids (usesOf (N.map (·.1)))).Nodup
  entries : ∀ n p use name, (n, p) ∈ N → n.looksUp? = some (use, name) → L[use.id]? = p.distance? name
  fresh : ∀ k, next ≤ k → L[k]? = none

lemma mem_ids_usesOf (hmem : (n, p) ∈ N) (hn : n.looksUp? = some (use, name)) : use.id ∈ ids (usesOf (N.map (·.1))) := by
  refine List.mem_map_of_mem (List.mem_filterMap.2 ⟨n, List.mem_map_of_mem hmem, ?_⟩)
  rw [hn]
  rfl

lemma ids_usesOf (N : PlacedNodes) :
    ids (usesOf (N.map (·.1))) = N.filterMap fun n => n.1.looksUp?.map (·.1.id) := by
  rw [ids, usesOf, List.filterMap_map, List.map_filterMap]
  refine List.filterMap_congr fun n _ => ?_
  rw [Function.comp_apply, Option.map_map]
  rfl

namespace Tabled

lemma nil : Tabled [] ∅ next :=
  ⟨List.forall_mem_nil _, List.forall_mem_nil _, List.forall_mem_nil _, List.nodup_nil,
    fun _ _ _ _ h => absurd h List.not_mem_nil, fun _ _ => Std.TreeMap.getElem?_emptyc⟩

/-- Numbers may be left out. -/
lemma skip (h : Tabled N L next) (hle : next ≤ next') : Tabled N L next' :=
  ⟨h.spelled, h.reserves, fun k hk => Nat.lt_of_lt_of_le (h.used k hk) hle, h.distinct, h.entries,
    fun k hk => h.fresh k (Nat.le_trans hle hk)⟩

/-- A use of a name is at one place. -/
lemma same_place (h : Tabled N L next) (hp : (n, p) ∈ N) (hq : (n, q) ∈ N) (hn : n.looksUp? = some (use, name)) :
    p = q := by
  have hdistinct := h.distinct
  rw [ids_usesOf, List.Nodup, List.pairwise_filterMap] at hdistinct
  by_contra hne
  have hid : n.looksUp?.map (·.1.id) = some use.id := by
    rw [hn]
    rfl
  have hsymm : Std.Symm fun a b : Node OccurrenceId × Place OccurrenceId =>
      ∀ i, a.1.looksUp?.map (·.1.id) = some i → ∀ j, b.1.looksUp?.map (·.1.id) = some j → i ≠ j :=
    ⟨fun a b hab i hi j hj => (hab j hj i hi).symm⟩
  exact hdistinct.forall hp hq (fun heq => hne (Prod.mk.inj heq).2) _ hid _ hid rfl

/-- The table of one more program is installed. -/
lemma install (h : Tabled N L next) (hspelled : AllSpelled tokens) (hparse : Program.parse tokens = .ok tree)
    (hres : (Resolver.empty.resolve (tree.number next).1).1 = .ok res) :
    Tabled (N ++ Program.nodes (tree.number next).1) (L ∪ res.locals) (tree.number next).2 := by
  have hregular : Stmt.RegularList (tree.number next).1 := regular_of_resolve hspelled hparse hres
  have huses : usesOf ((Program.nodes (tree.number next).1).map (·.1)) = Stmt.occurrencesList (tree.number next).1 :=
    Stmt.uses_nodesList .global (tree.number next).1
  have hle := le_number next tree
  have hunion : ∀ k, (L ∪ res.locals)[k]? = res.locals[k]?.or L[k]? := fun k => Std.TreeMap.getElem?_union
  have hold : ∀ k < next, (L ∪ res.locals)[k]? = L[k]? := fun k hk => by
    rw [hunion, resolve_outside hres fun hmem => Nat.not_lt.2 ((mem_ids_number next tree).1 hmem).1 hk]
    rfl
  refine ⟨List.forall_mem_append.2 ⟨h.spelled, Program.spelled_nodes next hspelled hparse⟩,
    List.forall_mem_append.2 ⟨h.reserves, hregular.places_reserve Place.reserves_global⟩, ?_, ?_,
    fun n p use name hmem hn => ?_, fun k hk => ?_⟩
  · rw [List.map_append, usesOf_append, ids_append, List.forall_mem_append, huses]
    exact ⟨fun k hk => Nat.lt_of_lt_of_le (h.used k hk) hle, fun k hk => ((mem_ids_number next tree).1 hk).2⟩
  · -- the numbers of this program are not those of the programs before it
    rw [List.map_append, usesOf_append, ids_append, huses]
    refine List.nodup_append.2 ⟨h.distinct, number_nodup tree next, fun k hk j hj => ?_⟩
    exact Nat.ne_of_lt (Nat.lt_of_lt_of_le (h.used k hk) ((mem_ids_number next tree).1 hj).1)
  · rcases List.mem_append.1 hmem with hmem | hmem
    · rw [hold use.id (h.used _ (mem_ids_usesOf hmem hn)), h.entries n p use name hmem hn]
    · have hid := mem_ids_usesOf hmem hn
      rw [huses, mem_ids_number] at hid
      rw [hunion, h.fresh use.id hid.1, Option.or_none, resolve_entry hres hmem hn]
  · rw [hunion, h.fresh k (Nat.le_trans hle hk), Option.or_none]
    exact resolve_outside hres fun hmem => Nat.not_lt.2 hk ((mem_ids_number next tree).1 hmem).2

end Tabled

/-! ### Submissions -/

namespace Session

/-- The nodes of a program with their places, if a session accepts it. -/
def nodes (tokens : List Token) (s : Session) : PlacedNodes :=
  match Program.parse tokens with
  | .error _ => []
  | .ok tree =>
    match (s.resolver.resolve (s.numbered tree)).1 with
    | .error _ => []
    | .ok _ => Program.nodes (s.numbered tree)

/-- The events of the run of a program whose table is installed, if a session accepts it. -/
def events (fuel : Nat) (tokens : List Token) (s : Session) : History :=
  match Program.parse tokens with
  | .error _ => []
  | .ok tree =>
    match (s.resolver.resolve (s.numbered tree)).1 with
    | .error _ => []
    | .ok res => runEvents fuel (s.numbered tree) (s.machine.install res.locals)

/-- The sessions that start without code and take one source text after another, each with the nodes of the programs
that it has accepted and with everything that has happened. -/
inductive Receiving : PlacedNodes → History → Session → Prop
  | initial (limit : Option Nat) : Receiving [] [] (initial limit)
  | submit {N : PlacedNodes} {past : History} {s : Session} (fuel : Nat) (source : String) : Receiving N past s →
    Receiving (N ++ s.nodes (Scan.ofString source).tokens) (past ++ s.events fuel (Scan.ofString source).tokens)
      (s.submit fuel true (Scan.ofString source).tokens).2

/-- The code of the session is in its place, between programs the global frame is current, and the table has the
distances of all nodes. -/
structure Placed (N : PlacedNodes) (past : History) (s : Session) : Prop where
  resolver : s.resolver = .empty
  seated : s.machine.Seated N past
  current : s.machine.current = globalFrame
  tabled : Tabled N s.machine.locals s.nextId

variable {s : Session} {fuel : Nat}

lemma placed_initial (limit : Option Nat) : (initial limit).Placed [] [] := ⟨rfl, initial_seated limit, rfl, .nil⟩

/-- What is known of a submission to a session with its code in its place: so it is behind it, whatever becomes of
the program, and every expression was evaluated at one of its places. -/
structure TakenInPlace (N : PlacedNodes) (past : History) (fuel : Nat) (tokens : List Token) (s : Session) : Prop where
  placed : (s.submit fuel true tokens).2.Placed (N ++ s.nodes tokens) (past ++ s.events fuel tokens)
  evaluated : ∃ L next, Tabled (N ++ s.nodes tokens) L next ∧
    Chronicle (Evaluated (N ++ s.nodes tokens) L) past (s.events fuel tokens)
  warnings : ∀ warnings result, (s.submit fuel true tokens).1 = .ran warnings result →
    misplaced warnings = (s.nodes tokens).filterMap Node.warning?

/-- A submission that is not run has no nodes and no events. -/
lemma TakenInPlace.of_not_run (h : s.Placed N past) (hnodes : s.nodes tokens = []) (hevents : s.events fuel tokens = [])
    (hplaced : (s.submit fuel true tokens).2.Placed N past)
    (hran : ∀ warnings result, (s.submit fuel true tokens).1 ≠ .ran warnings result) :
    TakenInPlace N past fuel tokens s := by
  refine ⟨?_, ⟨s.machine.locals, s.nextId, ?_, ?_⟩, fun _ _ h => absurd h (hran _ _)⟩
  · rw [hnodes, hevents, List.append_nil, List.append_nil]
    exact hplaced
  · rw [hnodes, List.append_nil]
    exact h.tabled
  · rw [hevents]
    trivial

/-- The run of a program behind the programs of its session keeps code in its place. -/
lemma Placed.follows (h : s.Placed N past) (fuel : Nat) (hspelled : AllSpelled tokens)
    (hparse : Program.parse tokens = .ok tree) (hres : (Resolver.empty.resolve (s.numbered tree)).1 = .ok res) :
    Chronicle (Evaluated (N ++ Program.nodes (s.numbered tree)) (s.machine.locals ∪ res.locals)) past
      (runEvents fuel (s.numbered tree) (s.machine.install res.locals)) ∧
    Follows (N ++ Program.nodes (s.numbered tree)) past (s.machine.install res.locals)
      (past ++ runEvents fuel (s.numbered tree) (s.machine.install res.locals))
      (runProgram fuel (s.numbered tree) (s.machine.install res.locals)).2 := by
  have htabled := h.tabled.install hspelled hparse hres
  -- the machine with the table of the program has its code where it was, among the nodes of the program as well
  have hlater := h.seated.later (List.subset_append_left N (Program.nodes (s.numbered tree))) (List.Subset.refl past)
  have hstart : StandsAt (N ++ Program.nodes (s.numbered tree)) .global past (s.machine.install res.locals) :=
    ⟨⟨hlater.size, hlater.frames, hlater.objects⟩, h.current⟩
  exact runEvents_seated htabled.spelled fuel (regular_of_resolve hspelled hparse hres) (List.subset_append_right ..) hstart

/-- A program that is run, behind the programs of its session. -/
lemma Placed.ran (h : s.Placed N past) (fuel : Nat) (hspelled : AllSpelled tokens)
    (hparse : Program.parse tokens = .ok tree) (hres : (s.resolver.resolve (s.numbered tree)).1 = .ok res) :
    TakenInPlace N past fuel tokens s := by
  have hnodes : s.nodes tokens = Program.nodes (s.numbered tree) := by simp only [nodes, hparse, hres]
  have hevents : s.events fuel tokens = runEvents fuel (s.numbered tree) (s.machine.install res.locals) := by
    simp only [events, hparse, hres]
  have hresolved := hres
  rw [h.resolver] at hresolved
  have htabled := h.tabled.install hspelled hparse hresolved
  obtain ⟨hevaluated, hfollows⟩ := h.follows fuel hspelled hparse hresolved
  refine ⟨?_, ⟨_, _, hnodes ▸ htabled, hnodes ▸ hevents ▸ hevaluated⟩, fun warnings result hran => ?_⟩
  · rw [submit_ran hparse hres, hnodes, hevents]
    refine ⟨resolve_snd (congrArg Resolver.scopes h.resolver), hfollows.seated, hfollows.current.trans h.current, ?_⟩
    have hlocals : (s.runWith fuel true tree res.locals).2.locals = s.machine.locals ∪ res.locals := hfollows.locals
    show Tabled _ (s.runWith fuel true tree res.locals).2.locals _
    rw [hlocals]
    exact htabled
  · rw [submit_ran hparse hres] at hran
    cases hran
    obtain ⟨-, -, hwarned⟩ := resolve_ok_nodes hresolved
    rw [hnodes, hwarned]

theorem Placed.submit (h : s.Placed N past) (fuel : Nat) (hspelled : AllSpelled tokens) :
    TakenInPlace N past fuel tokens s := by
  rcases hparse : Program.parse tokens with ds | tree
  · have hsubmit : s.submit fuel true tokens = (.unreadable ds, s) := submit_unreadable hparse
    refine .of_not_run h ?_ ?_ ?_ fun _ _ hran => ?_
    · simp only [nodes, hparse]
    · simp only [events, hparse]
    · rw [hsubmit]
      exact h
    · cases (congrArg Prod.fst hsubmit).symm.trans hran
  rcases hres : (s.resolver.resolve (s.numbered tree)).1 with rejection | res
  · have hsubmit : s.submit fuel true tokens = (.rejected rejection, _) := submit_rejected hparse hres
    refine .of_not_run h ?_ ?_ ?_ fun _ _ hran => ?_
    · simp only [nodes, hparse, hres]
    · simp only [events, hparse, hres]
    · rw [hsubmit]
      exact ⟨resolve_snd (congrArg Resolver.scopes h.resolver), h.seated, h.current,
        h.tabled.skip (le_number s.nextId tree)⟩
    · cases (congrArg Prod.fst hsubmit).symm.trans hran
  exact h.ran fuel hspelled hparse hres

lemma Receiving.placed (h : Receiving N past s) : s.Placed N past := by
  induction h with
  | initial limit => exact placed_initial limit
  | submit fuel source _ ih => exact (ih.submit fuel (scan_spelled source)).placed

end Session

/-! ### Receivers -/

/-- A `this` without a warning is in a method. -/
lemma member?_of_this (h : Node.warning? (.read .this use, p) = none) :
    ∃ decl inSubclass, p.member? = some (.method decl inSubclass) := by
  have hallowed : p.inMethod = true := by simpa [Node.warning?] using h
  unfold Place.inMethod at hallowed
  split at hallowed
  · next decl inSubclass hmember => exact ⟨decl, inSubclass, hmember⟩
  · cases hallowed

/-- A `super` without a warning is in a method of a class that extends another. -/
lemma member?_of_super (h : Node.warning? (.read .super use, p) = none) :
    ∃ decl, p.member? = some (.method decl true) := by
  have hallowed : p.inSubclassMethod = true := by simpa [Node.warning?] using h
  unfold Place.inSubclassMethod at hallowed
  split at hallowed
  · next decl inSubclass hmember =>
    cases hallowed
    exact ⟨decl, hmember⟩
  · cases hallowed

/-- The frame in which the use of a reserved word finds its value was made when the method `f` of the class `owner` was
bound to the instance `o`. -/
def FindsReceiver (past : History) (use : Occurrence OccurrenceId) (m : Machine) (f : Closure) (owner : Class)
    (o : Object) : Prop :=
  ∃ d, m.locals[use.id]? = some d ∧ Received past m.frames (m.frames.ancestor d m.current) f owner o

lemma FindsReceiver.this (h : FindsReceiver past use m f owner o) : lookUpAs use "this" m = .ok (.object o) m := by
  obtain ⟨d, hd, hreceived⟩ := h
  exact lookUpAs_ok hd hreceived.this

lemma FindsReceiver.super (h : FindsReceiver past use m f owner o) (hc : owner.superclass? = some c) :
    lookUpAs use "super" m = .ok (.ofClass c) m := by
  obtain ⟨d, hd, hreceived⟩ := h
  refine lookUpAs_ok hd ?_
  rw [hreceived.super, hc]
  rfl

/-- A place stands in the method `f` of the class `owner`, and the frame in which the use of a reserved word finds its
value was made when this method was bound to the instance `o`. -/
structure IsReceiver (past : History) (place : Place OccurrenceId) (use : Occurrence OccurrenceId) (m : Machine)
    (f : Closure) (owner : Class) (o : Object) : Prop where
  enclosing : place.member? = some (.method f.decl owner.inherits)
  frame : ∃ d, m.locals[use.id]? = some d ∧ Received past m.frames (m.frames.ancestor d m.current) f owner o

namespace IsReceiver

lemma this (h : IsReceiver past place use m f owner o) : lookUpAs use "this" m = .ok (.object o) m :=
  FindsReceiver.this h.frame

lemma super (h : IsReceiver past place use m f owner o) (hc : owner.superclass? = some c) :
    lookUpAs use "super" m = .ok (.ofClass c) m := FindsReceiver.super h.frame hc

lemma superclass (h : IsReceiver past place use m f owner o) {decl : FunctionDecl (Stmt OccurrenceId)}
    (hplace : place.member? = some (.method decl true)) : ∃ c, owner.superclass? = some c := by
  have hmember := h.enclosing
  rw [hplace] at hmember
  injection hmember with hmember
  injection hmember with _ hinherits
  exact Option.isSome_iff_exists.1 hinherits.symm

end IsReceiver

section Tables

variable (h : Tabled N L next) (he : Evaluated N L past (.evaluates e) m)

include h he

/-- A reserved word that is read in a method, where the scope around the method has it, finds what the binding of the
method has left. -/
lemma Tabled.receiver (hread : .read kind use ∈ e.nodes) (hplace : (.read kind use, place) ∈ N)
    {decl : FunctionDecl (Stmt OccurrenceId)} {inSubclass : Bool}
    (hmember : place.member? = some (.method decl inSubclass))
    (hreserved : lookedUp kind use.text ∈ reservedFor inSubclass) :
    ∃ f owner o, IsReceiver past place use m f owner o := by
  obtain ⟨p, hnodes, hseated, hlocals⟩ := he
  obtain rfl : p = place := h.same_place (hnodes (List.mem_map_of_mem hread)) hplace rfl
  obtain ⟨d, hkind, hdistance⟩ := Place.distance?_reserved (h.reserves _ hplace) hmember
  obtain ⟨f, owner, o, rfl, rfl, hreceived⟩ := hseated.ancestor hkind
  refine ⟨f, owner, o, hmember, d, ?_, hreceived⟩
  rw [hlocals, h.entries _ _ _ _ hplace rfl, hdistance _ hreserved]

lemma Tabled.this_bound (hread : .read .this use ∈ e.nodes) (hplace : (.read .this use, place) ∈ N)
    (hquiet : Node.warning? (.read .this use, place) = none) :
    ∃ f owner o, IsReceiver past place use m f owner o ∧ lookUp use m = .ok (.object o) m := by
  obtain ⟨decl, inSubclass, hmember⟩ := member?_of_this hquiet
  have hreserved : "this" ∈ reservedFor inSubclass := by cases inSubclass <;> exact List.mem_cons_self
  obtain ⟨f, owner, o, hreceiver⟩ := h.receiver he hread hplace hmember hreserved
  have htext : use.text = "this" := h.spelled _ hplace
  refine ⟨f, owner, o, hreceiver, ?_⟩
  rw [lookUp, htext]
  exact hreceiver.this

lemma Tabled.super_bound (hread : .read .super use ∈ e.nodes) (hplace : (.read .super use, place) ∈ N)
    (hquiet : Node.warning? (.read .super use, place) = none) :
    ∃ f owner o c, IsReceiver past place use m f owner o ∧ owner.superclass? = some c ∧
      lookUp use m = .ok (.ofClass c) m := by
  obtain ⟨decl, hmember⟩ := member?_of_super hquiet
  have hreserved : "super" ∈ reservedFor true := List.mem_cons_of_mem _ List.mem_cons_self
  obtain ⟨f, owner, o, hreceiver⟩ := h.receiver he hread hplace hmember hreserved
  obtain ⟨c, hc⟩ := hreceiver.superclass hmember
  have htext : use.text = "super" := h.spelled _ hplace
  refine ⟨f, owner, o, c, hreceiver, hc, ?_⟩
  rw [lookUp, htext]
  exact hreceiver.super hc

end Tables

/-- A property behind `super` is a method of the instance, if `super` is a class and `this` an instance. -/
lemma superProperty_eq {name : Ident} (hsuper : lookUp use m = .ok (.ofClass c) m)
    (hthis : lookUpAs use "this" m = .ok (.object o) m) : superProperty use name m = method o c name m := by
  rw [superProperty, Traced.bind_ok hsuper]
  dsimp only
  rw [Traced.bind_ok hthis]

lemma method_error {name : Ident} {stop : Stop} {m' : Machine} (h : method o c name m = .error stop m') :
    stop = .error (.invalidPropertyAccess name.text (Value.object o).text name.line) ∧
      ∀ d ∈ c.lineage, d.own.methods.get? name.text = none := by
  unfold method at h
  rcases hfind : c.findMethod? name.text with _ | ⟨owner, f⟩
  · rw [hfind] at h
    cases h
    refine ⟨rfl, fun d hd => ?_⟩
    exact Option.map_eq_none_iff.1 (List.findSome?_eq_none_iff.1 hfind d hd)
  · rw [hfind] at h
    cases h

/-- **The reserved words are well bound where they may stand.**  The warnings of an accepted program are those of its
misplaced nodes.  Whenever an expression is evaluated, it is at a place of this or an earlier program; and a `this`,
`super` or property behind `super` that there was no warning of stands in a method that was bound to an instance.  Then
`this` is the instance, `super` is the superclass of the class that declares the method, and a property behind `super` is
the method of the instance that is found from the superclass on: it can fail only because none of these classes
declares it. -/
theorem Session.Receiving.receivers_bound {s : Session} (h : Receiving N past s) (fuel : Nat) (source : String) :
    let tokens := (Scan.ofString source).tokens
    let nodes := N ++ s.nodes tokens
    (∀ warnings result, (s.submit fuel true tokens).1 = .ran warnings result →
      misplaced warnings = (s.nodes tokens).filterMap Node.warning?) ∧
    ∀ before e m after, s.events fuel tokens = before ++ (.evaluates e, m) :: after →
      (∃ place, nodesAt place e.nodes ⊆ nodes) ∧
      (∀ use place, e = .name .this use → (.read .this use, place) ∈ nodes → Node.warning? (.read .this use, place) = none →
        ∃ f owner o, IsReceiver (past ++ before) place use m f owner o ∧
          ∀ k, evaluate (k + 1) e m = .ok (.object o) m) ∧
      (∀ use place, e = .name .super use → (.read .super use, place) ∈ nodes →
        Node.warning? (.read .super use, place) = none →
          ∃ f owner o c, IsReceiver (past ++ before) place use m f owner o ∧ owner.superclass? = some c ∧
            ∀ k, evaluate (k + 1) e m = .ok (.ofClass c) m) ∧
      ∀ use name place, e = .superGet use name → (.read .super use, place) ∈ nodes →
        Node.warning? (.read .super use, place) = none →
          ∃ f owner o c, IsReceiver (past ++ before) place use m f owner o ∧ owner.superclass? = some c ∧
            lookUp use m = .ok (.ofClass c) m ∧ lookUpAs use "this" m = .ok (.object o) m ∧
            ∀ k, evaluate (k + 1) e m = method o c name m ∧
              ∀ stop m', evaluate (k + 1) e m = .error stop m' →
                stop = .error (.invalidPropertyAccess name.text (Value.object o).text name.line) ∧
                  ∀ d ∈ c.lineage, d.own.methods.get? name.text = none := by
  intro tokens nodes
  have htaken := h.placed.submit fuel (scan_spelled source)
  obtain ⟨L, next, htabled, hevaluated⟩ := htaken.evaluated
  refine ⟨htaken.warnings, fun before e m after hsplit => ?_⟩
  have he : Evaluated nodes L (past ++ before) (.evaluates e) m := chronicle_iff.1 hevaluated _ _ _ hsplit
  refine ⟨?_, ?_, ?_, ?_⟩
  · obtain ⟨place, hplace, -⟩ := he
    exact ⟨place, hplace⟩
  · rintro use place rfl hplace hquiet
    obtain ⟨f, owner, o, hreceiver, hfound⟩ := htabled.this_bound he (List.mem_singleton.2 rfl) hplace hquiet
    exact ⟨f, owner, o, hreceiver, fun k => by rw [evaluate, hfound]⟩
  · rintro use place rfl hplace hquiet
    obtain ⟨f, owner, o, c, hreceiver, hc, hfound⟩ := htabled.super_bound he (List.mem_singleton.2 rfl) hplace hquiet
    exact ⟨f, owner, o, c, hreceiver, hc, fun k => by rw [evaluate, hfound]⟩
  · rintro use name place rfl hplace hquiet
    obtain ⟨f, owner, o, c, hreceiver, hc, hfound⟩ := htabled.super_bound he (List.mem_singleton.2 rfl) hplace hquiet
    have hrun : ∀ k, evaluate (k + 1) (.superGet use name) m = method o c name m := fun k => by
      rw [evaluate, superProperty_eq hfound hreceiver.this]
    refine ⟨f, owner, o, c, hreceiver, hc, hfound, hreceiver.this, fun k => ⟨hrun k, fun stop m' hstop => ?_⟩⟩
    rw [hrun] at hstop
    exact method_error hstop

/-- A property behind `super` in the constructor of a subclass. -/
theorem Session.receivers_bound_subclass : Session.Receiving [] [] (Session.initial none) ∧
    ∃ before m f owner o c place,
      (.evaluates (.superGet ⟨⟨"super", 1⟩, 1⟩ ⟨"g", 1⟩), m) ∈ (Session.initial none).events 5
        (Scan.ofString "class A\x7b\x7dclass B extends A\x7bconstructor()\x7bsuper.g;\x7d\x7dB();").tokens ∧
      IsReceiver before place ⟨⟨"super", 1⟩, 1⟩ m f owner o ∧ owner.superclass? = some c ∧
        evaluate 1 (.superGet ⟨⟨"super", 1⟩, 1⟩ ⟨"g", 1⟩) m = method o c ⟨"g", 1⟩ m := by
  have hevent : (((Session.initial none).events 5 (Scan.ofString
      "class A\x7b\x7dclass B extends A\x7bconstructor()\x7bsuper.g;\x7d\x7dB();").tokens)[9]?).map (·.1) =
        some (.evaluates (.superGet ⟨⟨"super", 1⟩, 1⟩ ⟨"g", 1⟩)) := by
    rw [Scan.ofString_eq_dispatch]
    cbv
  have hnode : (((Session.initial none).nodes (Scan.ofString
      "class A\x7b\x7dclass B extends A\x7bconstructor()\x7bsuper.g;\x7d\x7dB();").tokens)[1]?).map
        (fun n => (n.1, Node.warning? n)) = some (.read .super ⟨⟨"super", 1⟩, 1⟩, none) := by
    rw [Scan.ofString_eq_dispatch]
    cbv
  obtain ⟨⟨_, m⟩, hget, rfl⟩ := Option.map_eq_some_iff.1 hevent
  obtain ⟨⟨_, place⟩, hplace, hpair⟩ := Option.map_eq_some_iff.1 hnode
  obtain ⟨rfl, hquiet⟩ := Prod.mk.inj hpair
  have hmem := List.mem_of_getElem? hget
  obtain ⟨before, after, hsplit⟩ := List.append_of_mem hmem
  obtain ⟨-, hevaluated⟩ := (Session.Receiving.initial none).receivers_bound 5
    "class A\x7b\x7dclass B extends A\x7bconstructor()\x7bsuper.g;\x7d\x7dB();"
  obtain ⟨-, -, -, hsuper⟩ := hevaluated _ _ _ _ hsplit
  obtain ⟨f, owner, o, c, hreceiver, hc, -, -, hrun⟩ := hsuper _ _ place rfl (List.mem_of_getElem? hplace) hquiet
  exact ⟨.initial none, before, m, f, owner, o, c, place, hmem, hreceiver, hc, (hrun 0).1⟩

end ScriptLang
