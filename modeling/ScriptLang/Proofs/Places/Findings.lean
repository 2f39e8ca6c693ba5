import Mathlib
import ScriptLang.Proofs.Places.Walk
import ScriptLang.Session

/-!
# What resolving a program finds

The distances, errors and warnings of a program, told from the places of its nodes.  An error ends only the statement
in which it occurs, so there is one for each statement at the top level that has a fault, the first one in it.

* `topLevel_finds` — a whole program from the global level on;
* `resolve_diagnostics` — which programs are rejected, with which errors, and what accepted ones are warned of;
* `resolve_distances` — the table of an accepted program.
-/

namespace ScriptLang

open Resolving

variable {ι : Type} {p : Place OccurrenceId} {r : Resolver} {program : Program OccurrenceId}
  {ns : List (Node OccurrenceId × Place OccurrenceId)}

/-- The first fault of a statement at the top level, in the order in which the tree is walked. -/
def Stmt.firstFault? (s : Stmt ι) : Option ScopeError := (s.nodes .global).findSome? Node.fault?

lemma Program.nodes_cons (s : Stmt ι) (program : Program ι) :
    Program.nodes (s :: program) = s.nodes .global ++ Program.nodes program := by
  rw [Program.nodes, Stmt.nodesList, Place.global_behind]
  rfl

/-- Programs stand behind one another at the global level, where no names are local. -/
lemma Program.nodes_eq_flatMap (program : Program ι) : Program.nodes program = program.flatMap (Stmt.nodes .global) := by
  induction program with
  | nil => rfl
  | cons s program ih => rw [Program.nodes_cons, List.flatMap_cons, ih]

/-! ### From the global level on -/

lemma stmt_global_checks (s : Stmt OccurrenceId) :
    Checks .global .global (s.nodes .global) (stmt .topLevel s) := by
  have h := stmt_checks (p := .global) rfl .global s
  rwa [Place.global_behind] at h

/-- The errors of a program are the first faults of its statements; without one, the table has the distances of all
nodes, and there is a warning for each that is misplaced. -/
lemma topLevel_finds : ∀ (program : Program OccurrenceId) {r : Resolver}, r.scopes = [] →
    (r.topLevel program).1 = program.filterMap Stmt.firstFault? ∧
      ((r.topLevel program).1 = [] →
        (r.topLevel program).2.locals = (Program.nodes program).foldl record r.locals ∧
        misplaced (r.topLevel program).2.warnings =
          misplaced r.warnings ++ (Program.nodes program).filterMap Node.warning?)
  | [], r, _ => ⟨rfl, fun _ => ⟨rfl, (List.append_nil _).symm⟩⟩
  | s :: ss, r, hr => by
    have hplace : Surrounds .global r.scopes := hr ▸ surrounds_global
    rw [Resolver.topLevel, List.filterMap_cons]
    rcases hs : stmt .topLevel s r with ⟨⟨⟩, q⟩ | ⟨e, q⟩
    · obtain ⟨hfault, hq, hlocals, hwarned⟩ := (stmt_global_checks s).succeeds r q hplace hs
      have hscopes : q.scopes = [] := List.forall₂_nil_right_iff.1 hq.names
      obtain ⟨herrors, hfound⟩ := topLevel_finds ss hscopes
      rw [Stmt.firstFault?, hfault]
      refine ⟨herrors, fun hnone => ?_⟩
      obtain ⟨hlocals', hwarned'⟩ := hfound hnone
      dsimp only
      rw [hlocals', hwarned', hlocals, hwarned, Program.nodes_cons, List.foldl_append, List.filterMap_append,
        List.append_assoc]
      exact ⟨rfl, rfl⟩
    · have hfault := (stmt_global_checks s).fails r q e hplace hs
      obtain ⟨herrors, -⟩ := topLevel_finds ss (r := { q with scopes := [] }) rfl
      rw [Stmt.firstFault?, hfault]
      exact ⟨congrArg (e :: ·) herrors, fun h => absurd h (List.cons_ne_nil e _)⟩

/-! ### Diagnostics -/

/-- The two faults: a return in no function, and an identifier in the initializer of the local variable or constant
with its name. -/
lemma Node.fault?_ne_none {n : Node ι × Place ι} : Node.fault? n ≠ none ↔
    (∃ line, n.1 = .return line ∧ n.2.inFunction = false) ∨
      ∃ use, n.1 = .read .identifier use ∧ n.2.initializes use.text = true := by
  obtain ⟨⟨kind, use⟩ | target | line, p⟩ := n
  · cases kind <;> simp [fault?]
  · simp [fault?]
  · simp [fault?]

lemma Program.no_fault_iff (program : Program ι) :
    program.filterMap Stmt.firstFault? = [] ↔ ∀ n ∈ Program.nodes program, Node.fault? n = none := by
  rw [List.filterMap_eq_nil_iff, Program.nodes_eq_flatMap, List.forall_mem_flatMap]
  exact forall₂_congr fun s _ => List.findSome?_eq_none_iff

lemma resolve_ok_nodes {res : Resolution} (h : (Resolver.empty.resolve program).1 = .ok res) :
    (∀ n ∈ Program.nodes program, Node.fault? n = none) ∧ res.locals = (Program.nodes program).foldl record ∅ ∧
      misplaced res.warnings = (Program.nodes program).filterMap Node.warning? := by
  obtain ⟨r', htop, rfl⟩ := resolve_ok_iff.1 h
  obtain ⟨herrors, hfound⟩ := topLevel_finds program (r := .empty) rfl
  rw [htop] at herrors hfound
  obtain ⟨hlocals, hwarned⟩ := hfound rfl
  exact ⟨(Program.no_fault_iff program).1 herrors.symm, hlocals, hwarned⟩

lemma resolve_error_errors {rejection : Rejection} (h : (Resolver.empty.resolve program).1 = .error rejection) :
    rejection.errors = program.filterMap Stmt.firstFault? ∧ program.filterMap Stmt.firstFault? ≠ [] := by
  have herrors := (topLevel_finds program (r := .empty) rfl).1
  rcases htop : Resolver.empty.topLevel program with ⟨errors, r'⟩
  rw [htop] at herrors
  unfold Resolver.resolve at h
  rw [htop] at h
  cases errors with
  | nil => cases h
  | cons e errors =>
    cases h
    exact ⟨herrors, herrors ▸ List.cons_ne_nil e errors⟩

/-- **Diagnostics are positional.**  A program is rejected exactly if some return is in no function, or some
identifier is read in the initializer of the local variable or constant of that name.  The errors are then the first
faults of the statements at the top level that have any.  An accepted program gets one warning for each `this` that
is not in a method and for each `super` that is not in a method of a subclass, in their order, and no other warning
of this kind. -/
theorem resolve_diagnostics (program : Program OccurrenceId) :
    ((∃ rejection, (Resolver.empty.resolve program).1 = .error rejection) ↔
      (∃ line place, (.return line, place) ∈ Program.nodes program ∧ place.inFunction = false) ∨
        ∃ use place, (.read .identifier use, place) ∈ Program.nodes program ∧
          place.initializes use.text = true) ∧
    match (Resolver.empty.resolve program).1 with
    | .error rejection => rejection.errors = program.filterMap Stmt.firstFault?
    | .ok res => misplaced res.warnings = (Program.nodes program).filterMap Node.warning? := by
  have hfaulty : (∃ n ∈ Program.nodes program, Node.fault? n ≠ none) ↔
      (∃ line place, (.return line, place) ∈ Program.nodes program ∧ place.inFunction = false) ∨
        ∃ use place, (.read .identifier use, place) ∈ Program.nodes program ∧
          place.initializes use.text = true := by
    constructor
    · rintro ⟨⟨n, place⟩, hmem, hn⟩
      rcases Node.fault?_ne_none.1 hn with ⟨line, rfl, hp⟩ | ⟨use, rfl, hp⟩
      · exact .inl ⟨line, place, hmem, hp⟩
      · exact .inr ⟨use, place, hmem, hp⟩
    · rintro (⟨line, place, hmem, hp⟩ | ⟨use, place, hmem, hp⟩)
      · exact ⟨_, hmem, Node.fault?_ne_none.2 (.inl ⟨line, rfl, hp⟩)⟩
      · exact ⟨_, hmem, Node.fault?_ne_none.2 (.inr ⟨use, rfl, hp⟩)⟩
  rw [← hfaulty]
  rcases hres : (Resolver.empty.resolve program).1 with rejection | res
  · obtain ⟨herrors, hsome⟩ := resolve_error_errors hres
    rw [Ne, Program.no_fault_iff, not_forall₂] at hsome
    obtain ⟨n, hmem, hn⟩ := hsome
    exact ⟨⟨fun _ => ⟨n, hmem, hn⟩, fun _ => ⟨rejection, rfl⟩⟩, herrors⟩
  · obtain ⟨hnone, -, hwarned⟩ := resolve_ok_nodes hres
    exact ⟨⟨nofun, fun ⟨n, hmem, hn⟩ => absurd (hnone n hmem) hn⟩, hwarned⟩

/-! ### Distances -/

lemma record_other {id : OccurrenceId} {L : Locals} {n : Node OccurrenceId × Place OccurrenceId}
    (h : ∀ use ∈ n.1.looksUp?.map (·.1), use.id ≠ id) : (record L n)[id]? = L[id]? := by
  rw [record]
  rcases hn : n.1.looksUp? with _ | ⟨use, name⟩
  · rfl
  · rw [hn] at h
    dsimp only
    rcases n.2.distance? name with _ | depth
    · rfl
    · rw [Std.TreeMap.getElem?_insert, if_neg]
      rw [Nat.compare_eq_eq]
      exact h use rfl

lemma foldl_record_other {id : OccurrenceId} : ∀ {ns : List (Node OccurrenceId × Place OccurrenceId)} {L : Locals},
    id ∉ ids (usesOf (ns.map (·.1))) → (ns.foldl record L)[id]? = L[id]?
  | [], _, _ => rfl
  | n :: ns, L, h => by
    rw [List.map_cons, ← List.singleton_append, usesOf_append, ids_append, List.mem_append, not_or] at h
    rw [List.foldl_cons, foldl_record_other h.2]
    refine record_other fun use huse hid => h.1 ?_
    obtain ⟨pair, hpair, rfl⟩ := Option.map_eq_some_iff.1 huse
    rw [← hid, usesOf, List.filterMap_cons, hpair]
    exact List.mem_singleton.2 rfl

/-- If no two uses share a number, each gets the distance of its own place. -/
lemma foldl_record_self {n : Node OccurrenceId} {use : Occurrence OccurrenceId} {name : String}
    (hn : n.looksUp? = some (use, name)) : ∀ {ns : List (Node OccurrenceId × Place OccurrenceId)} {L : Locals},
    (n, p) ∈ ns → (ids (usesOf (ns.map (·.1)))).Nodup → L[use.id]? = none →
      (ns.foldl record L)[use.id]? = p.distance? name
  | m :: ns, L, hmem, hnodup, hL => by
    rw [List.map_cons, ← List.singleton_append, usesOf_append, ids_append] at hnodup
    obtain ⟨-, hrest, hapart⟩ := List.nodup_append.1 hnodup
    rw [List.foldl_cons]
    rcases List.mem_cons.1 hmem with rfl | hmem
    · have hid : use.id ∈ ids (usesOf [n]) := by
        rw [usesOf, List.filterMap_cons, hn]
        exact List.mem_singleton.2 rfl
      rw [foldl_record_other fun h => hapart _ hid _ h rfl, record, hn]
      dsimp only
      rcases p.distance? name with _ | depth
      · exact hL
      · exact Std.TreeMap.getElem?_insert_self
    · refine foldl_record_self hn hmem hrest ((record_other fun use' huse' hid => ?_).trans hL)
      obtain ⟨pair, hpair, rfl⟩ := Option.map_eq_some_iff.1 huse'
      refine hapart pair.1.id ?_ use.id ?_ hid
      · rw [usesOf, List.filterMap_cons, hpair]
        exact List.mem_singleton.2 rfl
      · refine List.mem_map_of_mem (List.mem_filterMap.2 ⟨n, List.mem_map.2 ⟨_, hmem, rfl⟩, ?_⟩)
        rw [hn]
        rfl

/-- The distance of a name is the least number of scopes out at which it is declared in front of the place. -/
lemma Place.distance?_eq_some {p : Place ι} {name : String} {k : Nat} : p.distance? name = some k ↔
    IsLeast {i | ∃ scope, p.scopes[i]? = some scope ∧ name ∈ scope.names} k := by
  rw [Place.distance?, List.findIdx?_eq_some_iff_getElem]
  constructor
  · rintro ⟨hk, hname, hbefore⟩
    refine ⟨⟨p.scopes[k], List.getElem?_eq_getElem hk, of_decide_eq_true hname⟩, ?_⟩
    rintro i ⟨scope, hscope, hi⟩
    obtain ⟨hlt, rfl⟩ := List.getElem?_eq_some_iff.1 hscope
    exact Nat.le_of_not_lt fun hik => hbefore i hik (decide_eq_true hi)
  · rintro ⟨⟨scope, hscope, hname⟩, hleast⟩
    obtain ⟨hlt, rfl⟩ := List.getElem?_eq_some_iff.1 hscope
    refine ⟨hlt, decide_eq_true hname, fun i hik hi => ?_⟩
    have hle := hleast ⟨p.scopes[i], List.getElem?_eq_getElem (hik.trans hlt), of_decide_eq_true hi⟩
    exact absurd hik (Nat.not_lt.2 hle)

lemma number_nodup (tree : Program Unit) (first : OccurrenceId) :
    (ids (Stmt.occurrencesList (tree.number first).1)).Nodup := by
  have h : ids (Stmt.occurrencesList (tree.number first).1) = _ := (Stmt.numberList_spec first tree).ids
  rw [h]
  exact List.nodup_range'

/-- The entry of a use of a name in an accepted program is the distance of its place. -/
lemma resolve_entry {tree : Program Unit} {first : OccurrenceId} {res : Resolution} {n : Node OccurrenceId}
    {use : Occurrence OccurrenceId} {name : String}
    (h : (Resolver.empty.resolve (tree.number first).1).1 = .ok res)
    (hmem : (n, p) ∈ Program.nodes (tree.number first).1) (hn : n.looksUp? = some (use, name)) :
    res.locals[use.id]? = p.distance? name := by
  obtain ⟨-, hlocals, -⟩ := resolve_ok_nodes h
  have hnodup := number_nodup tree first
  rw [← Stmt.uses_nodesList .global (tree.number first).1] at hnodup
  rw [hlocals]
  exact foldl_record_self hn hmem hnodup Std.TreeMap.getElem?_emptyc

/-- **The table of an accepted program has the static distances.**  Every use of a name in the program stands at a
node.  The table has an entry `k` for it exactly if `k` is the least number such that the `k`-th scope around the
place has the name declared in front; and there are no other entries. -/
theorem resolve_distances {tree : Program Unit} {first : OccurrenceId} {res : Resolution}
    (h : (Resolver.empty.resolve (tree.number first).1).1 = .ok res) :
    usesOf ((Program.nodes (tree.number first).1).map (·.1)) = Stmt.occurrencesList (tree.number first).1 ∧
    (∀ node place use name, (node, place) ∈ Program.nodes (tree.number first).1 →
      node.looksUp? = some (use, name) → ∀ k, res.locals[use.id]? = some k ↔
        IsLeast {i | ∃ scope, place.scopes[i]? = some scope ∧ name ∈ scope.names} k) ∧
    ∀ id, id ∉ ids (Stmt.occurrencesList (tree.number first).1) → res.locals[id]? = none := by
  have huses := Stmt.uses_nodesList .global (tree.number first).1
  refine ⟨huses, fun node place use name hmem hnode k => ?_, fun id hid => resolve_outside h hid⟩
  rw [resolve_entry h hmem hnode, Place.distance?_eq_some]

/-- A name of the block around is one scope out, although the block inside declares another one. -/
theorem resolve_distances_outer_block : ∃ res,
    (Resolver.empty.resolve (Program.number [.block [.letVar ⟨"a", 1⟩ none, .block [.letVar ⟨"b", 1⟩ none,
      .print (.name .identifier ⟨⟨"a", 1⟩, ()⟩)]]] 0).1).1 = .ok res ∧ res.locals[0]? = some 1 := by
  have hres : (Resolver.empty.resolve (Program.number [.block [.letVar ⟨"a", 1⟩ none, .block [.letVar ⟨"b", 1⟩ none,
      .print (.name .identifier ⟨⟨"a", 1⟩, ()⟩)]]] 0).1).1 = .ok ⟨{(0, 1)}, []⟩ := by cbv
  obtain ⟨-, hdistance, -⟩ := resolve_distances hres
  refine ⟨_, hres, (hdistance (.read .identifier ⟨⟨"a", 1⟩, 0⟩) _ _ _ (List.mem_singleton.2 rfl) rfl 1).2
    ⟨⟨_, rfl, List.mem_singleton.2 rfl⟩, ?_⟩⟩
  rintro i ⟨scope, hscope, hname⟩
  rcases i with _ | i
  · cases hscope
    exact absurd hname (by decide)
  · exact Nat.le_add_left 1 i

end ScriptLang
