import ScriptLang.Proofs.Events.Moments
import ScriptLang.Proofs.Frames.Searching
import ScriptLang.Proofs.Receivers.Sessions

/-!
# Methods along the classes

In a session of source texts whose tables are installed, a method is searched from the class of the instance on; behind
`super` it is searched from the superclass of the class that declares the code, whatever class the instance has.

* `Place.superMethod?`, `Place.distance?_super` — the method that a `super` belongs to, and its distance;
* `SuperFound` — what every `super` of a session finds;
* `descends` — a method that is bound is declared by a class that the class of the instance descends from;
* `Tabled.super_gives` — what a property behind `super` is in the code of a method;
* `Session.Told` — what is known of everything that has happened in a session;
* `SuperStep`, `isChain_superStep` — one method read behind `super` in another, and chains of such steps;
* `Session.Receiving.methods_resolved` — the theorem.
-/

namespace ScriptLang

open Resolving Grammar Eval

variable {ι : Type} {N : PlacedNodes} {past before : History} {L : Locals} {next : OccurrenceId} {tokens : List Token}
  {use : Occurrence OccurrenceId} {m m' : Machine} {f : Closure} {c owner : Class} {o : Object} {w : Event} {name : Ident}

/-! ### Places in methods of subclasses -/

/-- The method around which the scope has `super`, if it has. -/
def ScopeKind.superMethod? : ScopeKind ι → Option (FunctionDecl (Stmt ι))
  | .receiver decl true => some decl
  | _ => none

/-- The innermost method of a class with a superclass that has the place in its code. -/
def Place.superMethod? (p : Place ι) : Option (FunctionDecl (Stmt ι)) := p.kinds.findSome? ScopeKind.superMethod?

/-- A scope has `super` if it is around a method of a class with a superclass. -/
lemma LocalScope.Reserves.super {l : LocalScope ι} (h : l.Reserves) :
    "super" ∈ l.names ↔ ∃ decl, l.kind = .receiver decl true := by
  rw [h "super" (.inr rfl)]
  rcases l.kind with _ | _ | _ | ⟨decl, _ | _⟩ <;> simp [ScopeKind.reserved, reservedFor]

/-- **The distance of `super`** is that of the innermost scope around a method of a class with a superclass. -/
theorem Place.distance?_super {p : Place ι} (h : p.Reserves) :
    (∃ decl k, p.superMethod? = some decl ∧ p.kinds[k]? = some (.receiver decl true) ∧ p.distance? "super" = some k) ∨
      p.superMethod? = none ∧ p.distance? "super" = none := by
  rcases p with ⟨scopes, i⟩
  simp only [Reserves, superMethod?, kinds, distance?] at h ⊢
  induction scopes with
  | nil => exact .inr ⟨rfl, rfl⟩
  | cons l outer ih =>
    obtain ⟨hl, houter⟩ := List.forall_mem_cons.1 h
    rw [List.map_cons, List.findSome?_cons, List.findIdx?_cons]
    by_cases hkind : ∃ decl, l.kind = .receiver decl true
    · obtain ⟨decl, hdecl⟩ := hkind
      rw [decide_eq_true (hl.super.2 ⟨decl, hdecl⟩), hdecl]
      exact .inl ⟨decl, 0, rfl, rfl, rfl⟩
    · have hnone : l.kind.superMethod? = none := by
        rcases hl' : l.kind with _ | _ | _ | ⟨decl, _ | _⟩
        · rfl
        · rfl
        · rfl
        · rfl
        · exact absurd ⟨decl, hl'⟩ hkind
      rw [decide_eq_false (mt hl.super.1 hkind), hnone]
      rcases ih houter with ⟨decl, k, hdecl, hk, hdistance⟩ | ⟨hdecl, hdistance⟩
      · refine .inl ⟨decl, k + 1, hdecl, hk, ?_⟩
        rw [hdistance]
        rfl
      · refine .inr ⟨hdecl, ?_⟩
        rw [hdistance]
        rfl

/-! ### What `super` finds -/

/-- What is found for a use with an entry in the table stands in the frame that many steps out. -/
lemma get?_of_lookUpAs {d : Nat} {text : String} {v : Value} (hd : m.locals[use.id]? = some d)
    (h : lookUpAs use text m = .ok v m') : (m.frames.frame (m.frames.ancestor d m.current)).get? text = some v := by
  unfold lookUpAs at h
  rw [Traced.bind_get, hd] at h
  simp only [Frames.getAt] at h
  split at h
  · next w hw =>
    cases h
    exact hw
  · cases h

lemma FindsReceiver.receiver_eq {o' : Object} (h : FindsReceiver past use m f owner o)
    (hfound : lookUpAs use "this" m = .ok (.object o') m') : o' = o := by
  obtain ⟨d, hd, hreceived⟩ := h
  have hthis := (get?_of_lookUpAs hd hfound).symm.trans hreceived.this
  cases hthis
  rfl

lemma FindsReceiver.superclass? (h : FindsReceiver past use m f owner o) (htext : use.text = "super")
    (hfound : lookUp use m = .ok (.ofClass c) m') : owner.superclass? = some c := by
  obtain ⟨d, hd, hreceived⟩ := h
  rw [lookUp, htext] at hfound
  have hsuper := (get?_of_lookUpAs hd hfound).symm.trans hreceived.super
  obtain ⟨c', hc', heq⟩ := Option.map_eq_some_iff.1 hsuper.symm
  cases heq
  exact hc'

/-- A method whose receiver is found has been bound. -/
lemma FindsReceiver.bound (h : FindsReceiver past use m f owner o) : ∃ n, (.binds f owner o, n) ∈ past := by
  obtain ⟨d, -, hreceived⟩ := h
  obtain ⟨n, hn, -⟩ := hreceived.bound
  exact ⟨n, hn⟩

/-- If a property behind `super` begins, `super` is found in a frame that was made when a method of a class was bound, or
it is not found. -/
def SuperFound (past : History) (w : Event) (m : Machine) : Prop :=
  ∀ use name, w = .evaluates (.superGet use name) → use.text = "super" ∧
    ((∃ f owner o, FindsReceiver past use m f owner o) ∨ ∀ v, lookUp use m ≠ .ok v m)

section Tables

variable (h : Tabled N L next) (he : Evaluated N L past (.evaluates (.superGet use name)) m)

include h he

/-- A `super` stands at its place, and in a method of a class with a superclass it finds what the binding of the method has
left; elsewhere it has no entry in the table. -/
lemma Tabled.super_cases {place : Place OccurrenceId} (hplace : (.read .super use, place) ∈ N) :
    (∃ f owner o, place.superMethod? = some f.decl ∧ owner.inherits = true ∧ FindsReceiver past use m f owner o) ∨
      place.superMethod? = none ∧ m.locals[use.id]? = none := by
  obtain ⟨p, hnodes, hseated, hlocals⟩ := he
  have hread : (.read .super use, p) ∈ N := hnodes (List.mem_map_of_mem (List.mem_singleton.2 rfl))
  obtain rfl : p = place := h.same_place hread hplace rfl
  have hentry : L[use.id]? = p.distance? "super" := h.entries _ _ _ _ hplace rfl
  rcases Place.distance?_super (h.reserves _ hplace) with ⟨decl, k, hdecl, hk, hdistance⟩ | ⟨hdecl, hdistance⟩
  · obtain ⟨f, owner, o, rfl, hinherits, hreceived⟩ := hseated.ancestor hk
    exact .inl ⟨f, owner, o, hdecl, hinherits, k, by rw [hlocals, hentry, hdistance], hreceived⟩
  · exact .inr ⟨hdecl, by rw [hlocals, hentry, hdistance]⟩

/-- Where the global frame does not have `super`, it is found for a method or not at all. -/
lemma Tabled.superFound (hglobal : (m.frames.frame globalFrame).get? "super" = none) :
    use.text = "super" ∧ ((∃ f owner o, FindsReceiver past use m f owner o) ∨ ∀ v, lookUp use m ≠ .ok v m) := by
  obtain ⟨p, hnodes, -⟩ := id he
  have hread : (.read .super use, p) ∈ N := hnodes (List.mem_map_of_mem (List.mem_singleton.2 rfl))
  have htext : use.text = "super" := h.spelled _ hread
  refine ⟨htext, ?_⟩
  rcases h.super_cases he hread with ⟨f, owner, o, -, -, hfinds⟩ | ⟨-, hentry⟩
  · exact .inl ⟨f, owner, o, hfinds⟩
  · refine .inr fun v hv => ?_
    have hmissing : m.frames.get globalFrame "super" = .error (.undefined "super") := by
      rw [Frames.get, chain_globalFrame, List.findSome?_singleton, hglobal]
    rw [lookUp, lookUpAs, Traced.bind_get, hentry, htext] at hv
    simp only [hmissing] at hv
    cases hv

end Tables

/-- **A method that is bound is declared by a class from which the class of the instance descends.** -/
theorem descends (hmoments : Chronicle Moment [] past) (hsupers : Chronicle SuperFound [] past) :
    ∀ f owner o m, (.binds f owner o, m) ∈ past →
      owner ∈ o.cls.lineage ∧ ∃ text, owner.own.methods.get? text = some f := by
  induction past using List.reverseRecOn with
  | nil => exact fun _ _ _ _ h => absurd h List.not_mem_nil
  | append_singleton past p ih =>
    obtain ⟨hpast, hmoment, -⟩ := chronicle_append.1 hmoments
    have hfound := (chronicle_append.1 hsupers).1
    replace ih := ih hpast hfound
    intro f owner o m hmem
    rcases List.mem_append.1 hmem with hmem | hmem
    · exact ih f owner o m hmem
    obtain rfl := List.mem_singleton.1 hmem
    rcases hmoment.sourced with ⟨-, hmem, hdeclares⟩ | ⟨hsplit, hsuper, hthis, hfinds⟩
    · exact ⟨hmem, _, hdeclares⟩
    · -- The method around the `super` was bound before, and to the same instance.
      obtain ⟨htext, ⟨f', owner', o', hreceiver⟩ | hmissing⟩ := chronicle_iff.1 hfound _ _ [] hsplit _ _ rfl
      · obtain rfl := hreceiver.receiver_eq hthis
        have hc := hreceiver.superclass? htext hsuper
        obtain ⟨n, hn⟩ := hreceiver.bound
        obtain ⟨howner, -⟩ := ih f' owner' o n ((List.nil_append past ▸ hsplit) ▸ List.mem_append_left _ hn)
        have habove : owner.Above owner' := ⟨_, hc, hfinds.mem⟩
        exact ⟨lineage_of_mem howner _ habove.mem, _, hfinds.declares⟩
      · exact absurd hsuper (hmissing _)

/-- **A property behind `super`** in the code of a method is searched from the superclass of the class on that declares the
method, and bound to the instance to which this method is bound. -/
lemma Tabled.super_gives (h : Tabled N L next) (he : Evaluated N L past (.evaluates (.superGet use name)) m)
    (hmoments : Chronicle Moment [] past) (hsupers : Chronicle SuperFound [] past) {place : Place OccurrenceId}
    {decl : FunctionDecl (Stmt OccurrenceId)} (hplace : (.read .super use, place) ∈ N)
    (hdecl : place.superMethod? = some decl) :
    ∃ f owner o c, f.decl = decl ∧ FindsReceiver past use m f owner o ∧
      owner ∈ o.cls.lineage ∧ (∃ text, owner.own.methods.get? text = some f) ∧ owner.superclass? = some c ∧
        ∀ k, GivesMethod o c name m (evaluate (k + 1) (.superGet use name) m) := by
  rcases h.super_cases he hplace with ⟨f, owner, o, hmethod, hinherits, hreceiver⟩ | ⟨hnone, -⟩
  · obtain ⟨c, hc⟩ := Option.isSome_iff_exists.1 hinherits
    have htext : use.text = "super" := h.spelled _ hplace
    have hfound : lookUp use m = .ok (.ofClass c) m := by
      rw [lookUp, htext]
      exact hreceiver.super hc
    obtain ⟨n, hn⟩ := hreceiver.bound
    obtain ⟨hmem, hdeclares⟩ := descends hmoments hsupers f owner o n hn
    refine ⟨f, owner, o, c, Option.some.inj (hmethod.symm.trans hdecl), hreceiver, hmem, hdeclares, hc, fun k => ?_⟩
    rw [evaluate, superProperty_eq hfound hreceiver.this]
    exact method_gives o c name m
  · rw [hnone] at hdecl
    cases hdecl

/-! ### Sessions -/

namespace Session

variable {s : Session} {fuel : Nat}

/-- What is known of everything that has happened in a session. -/
structure Told (past : History) (s : Session) : Prop where
  ongoing : Ongoing past s.machine
  moments : Chronicle Moment [] past
  supers : Chronicle SuperFound [] past
  global : (s.machine.frames.frame globalFrame).get? "super" = none

lemma told_initial (limit : Option Nat) : (initial limit).Told [] := by
  refine ⟨⟨Nat.zero_lt_one, List.forall_mem_nil _⟩, trivial, trivial, ?_⟩
  show ((Machine.initial limit).frames.frame globalFrame).get? "super" = none
  rw [frame_initial]
  rfl

/-- A name that the global frame does not have in the end it did not have before. -/
lemma get?_of_continue {fs fs' : Frames} {i : FrameId} {text : String} (h : fs.Continue fs')
    (hnone : (fs'.frame i).get? text = none) : (fs.frame i).get? text = none := by
  refine get?_of_not_binds (Bool.eq_false_iff.2 fun hbinds => ?_)
  obtain ⟨v, hv⟩ := get?_of_binds (h.grows.binds i text hbinds)
  rw [hnone] at hv
  cases hv

lemma Told.ran (ht : s.Told past) (h : s.Placed N past) (fuel : Nat) (hspelled : AllSpelled tokens)
    {tree : Program Unit} {res : Resolution} (hparse : Program.parse tokens = .ok tree)
    (hres : (s.resolver.resolve (s.numbered tree)).1 = .ok res) :
    (s.submit fuel true tokens).2.Told (past ++ s.events fuel tokens) := by
  have hevents : s.events fuel tokens = runEvents fuel (s.numbered tree) (s.machine.install res.locals) := by
    simp only [events, hparse, hres]
  have hresolved := hres
  rw [h.resolver] at hresolved
  have hstart : Ongoing past (s.machine.install res.locals) := ⟨ht.ongoing.current, ht.ongoing.frames⟩
  obtain ⟨hmoments, hongoing⟩ := runEvents_proceed fuel (s.numbered tree) hstart
  obtain ⟨hevaluated, hfollows⟩ := h.follows fuel hspelled hparse hresolved
  have hglobal := (hfollows.frames.reserved globalFrame h.seated.size "super" (.inr rfl)).trans ht.global
  rw [submit_ran hparse hres, hevents]
  refine ⟨hongoing, chronicle_append.2 ⟨ht.moments, hmoments⟩, chronicle_append.2 ⟨ht.supers, ?_⟩, hglobal⟩
  refine chronicle_iff.2 fun before p after hsplit => ?_
  obtain ⟨w, m⟩ := p
  rintro use name rfl
  have hcontinue : m.frames.Continue (runProgram fuel (s.numbered tree) (s.machine.install res.locals)).2.frames :=
    hongoing.frames (_, m) (List.mem_append_right _ (hsplit ▸ List.mem_append_right _ List.mem_cons_self))
  exact (h.tabled.install hspelled hparse hresolved).superFound (chronicle_iff.1 hevaluated _ _ _ hsplit)
    (get?_of_continue hcontinue hglobal)

lemma Told.submit (ht : s.Told past) (h : s.Placed N past) (fuel : Nat) (hspelled : AllSpelled tokens) :
    (s.submit fuel true tokens).2.Told (past ++ s.events fuel tokens) := by
  rcases hparse : Program.parse tokens with ds | tree
  · have hevents : s.events fuel tokens = [] := by simp only [events, hparse]
    rw [hevents, List.append_nil, submit_unreadable hparse]
    exact ht
  rcases hres : (s.resolver.resolve (s.numbered tree)).1 with rejection | res
  · have hevents : s.events fuel tokens = [] := by simp only [events, hparse, hres]
    rw [hevents, List.append_nil, submit_rejected hparse hres]
    exact ⟨ht.ongoing, ht.moments, ht.supers, ht.global⟩
  exact ht.ran h fuel hspelled hparse hres

lemma Receiving.told (h : Receiving N past s) : s.Told past := by
  induction h with
  | initial limit => exact told_initial limit
  | submit fuel source h ih => exact ih.submit h.placed fuel (scan_spelled source)

end Session

/-! ### Steps to higher classes -/

/-- A method that is bound to an instance, with the class that declares it. -/
structure BoundMethod where
  method : Closure
  owner : Class
  receiver : Object

/-- In what has happened, a property behind `super` was read where `super` is found for the method `x`, and the method `y`
was bound for it. -/
def SuperStep (past : History) (x y : BoundMethod) : Prop :=
  ∃ before use name m m' after, past =
    before ++ (.evaluates (.superGet use name), m) :: (.binds y.method y.owner y.receiver, m') :: after ∧
      FindsReceiver before use m x.method x.owner x.receiver

variable {x y : BoundMethod} {chain : List BoundMethod}

/-- **Each step leads to a method of the same instance that is searched from the superclass on.** -/
lemma SuperStep.finds (hmoments : Chronicle Moment [] past) (hsupers : Chronicle SuperFound [] past)
    (h : SuperStep past x y) : y.receiver = x.receiver ∧
      ∃ c text, x.owner.superclass? = some c ∧ c.Finds text y.owner y.method := by
  obtain ⟨before, use, name, m, m', after, rfl, hreceiver⟩ := h
  obtain ⟨htext, -⟩ := chronicle_iff.1 hsupers _ _ _ rfl _ _ rfl
  have hmoment := chronicle_iff.1 hmoments (before ++ [(.evaluates (.superGet use name), m)])
    (.binds y.method y.owner y.receiver, m') after (List.append_cons ..)
  rcases hmoment.sourced with ⟨hconcluded, -, -⟩ | ⟨hsplit, hsuper, hthis, hfinds⟩
  · exact absurd trivial (hconcluded _ List.getLast?_concat)
  · rw [List.nil_append] at hsplit
    obtain ⟨rfl, hlast⟩ := List.append_inj' hsplit rfl
    cases hlast
    exact ⟨hreceiver.receiver_eq hthis, _, _, hreceiver.superclass? htext hsuper, hfinds⟩

lemma SuperStep.above (hmoments : Chronicle Moment [] past) (hsupers : Chronicle SuperFound [] past)
    (h : SuperStep past x y) : y.owner.Above x.owner := by
  obtain ⟨-, c, text, hc, hfinds⟩ := h.finds hmoments hsupers
  exact ⟨c, hc, hfinds.mem⟩

/-- A chain of such steps visits higher and higher classes, so it is no longer than the row of the classes. -/
lemma isChain_superStep (hmoments : Chronicle Moment [] past) (hsupers : Chronicle SuperFound [] past)
    (h : (x :: chain).IsChain (SuperStep past)) :
    ((x :: chain).Pairwise fun x y => y.owner.Above x.owner) ∧ (x :: chain).length ≤ x.owner.lineage.length := by
  have habove : (x :: chain).IsChain fun x y => y.owner.Above x.owner := h.imp fun _ _ h => h.above hmoments hsupers
  have htrans : IsTrans BoundMethod fun x y => y.owner.Above x.owner := ⟨fun _ _ _ hxy hyz => hyz.trans hxy⟩
  refine ⟨List.isChain_iff_pairwise.1 habove, ?_⟩
  clear h
  induction chain generalizing x with
  | nil => exact List.length_pos_of_mem (mem_lineage_self _)
  | cons y chain ih =>
    obtain ⟨hxy, hrest⟩ := List.isChain_cons_cons.1 habove
    rw [List.length_cons]
    exact Nat.lt_of_le_of_lt (ih hrest) hxy.length_lt

/-- **Methods are resolved along the classes.**  Reading a property of an instance gives its own property if it has one,
and otherwise the method of the nearest class from its class on, bound to it.  Reading a property behind `super`, in code
that a method of a class with a superclass has around it, gives the method of the nearest class from this superclass on,
bound to the instance to which that method is bound; its own properties do not matter, and its class may be any that
descends from the class that declares the method.  So each such step keeps the instance and leads to a higher class, and
a chain of them is no longer than the row of classes from the first one on. -/
theorem Session.Receiving.methods_resolved {s : Session} (h : Receiving N past s) (fuel : Nat) (source : String) :
    let tokens := (Scan.ofString source).tokens
    let nodes := N ++ s.nodes tokens
    let events := s.events fuel tokens
    (∀ k e name m o m', evaluate k e m = .ok (.object o) m' →
      GivesProperty o name m' (evaluate (k + 1) (.get e name) m)) ∧
    (∀ before use name m after, events = before ++ (.evaluates (.superGet use name), m) :: after →
      (∃ place, (.read .super use, place) ∈ nodes) ∧
      ∀ place decl, (.read .super use, place) ∈ nodes → place.superMethod? = some decl →
        ∃ f owner o c, f.decl = decl ∧ FindsReceiver (past ++ before) use m f owner o ∧
          owner ∈ o.cls.lineage ∧ (∃ text, owner.own.methods.get? text = some f) ∧ owner.superclass? = some c ∧
            ∀ k, GivesMethod o c name m (evaluate (k + 1) (.superGet use name) m)) ∧
    (∀ x y, SuperStep (past ++ events) x y → y.receiver = x.receiver ∧
      ∃ c text, x.owner.superclass? = some c ∧ c.Finds text y.owner y.method) ∧
    ∀ x chain, (x :: chain).IsChain (SuperStep (past ++ events)) →
      ((x :: chain).Pairwise fun x y => y.owner.Above x.owner) ∧ (x :: chain).length ≤ x.owner.lineage.length := by
  intro tokens nodes events
  have htold := (h.submit fuel source).told
  have htaken := h.placed.submit fuel (scan_spelled source)
  obtain ⟨L, next, htabled, hevaluated⟩ := htaken.evaluated
  refine ⟨fun k e name m o m' he => ?_, fun before use name m after hsplit => ?_,
    fun x y hstep => hstep.finds htold.moments htold.supers,
    fun x chain hchain => isChain_superStep htold.moments htold.supers hchain⟩
  · rw [evaluate, Traced.bind_ok he]
    exact property_gives o name m'
  · have he : Evaluated nodes L (past ++ before) (.evaluates (.superGet use name)) m :=
      chronicle_iff.1 hevaluated _ _ _ hsplit
    have hread : ∃ place, (.read .super use, place) ∈ nodes := by
      obtain ⟨place, hnodes, -⟩ := he
      exact ⟨place, hnodes (List.mem_map_of_mem (List.mem_singleton.2 rfl))⟩
    have hpast : past ++ events = (past ++ before) ++ (.evaluates (.superGet use name), m) :: after := by
      rw [show events = _ from hsplit, List.append_assoc]
    exact ⟨hread, fun place decl hplace hdecl => htabled.super_gives he (chronicle_append.1 (hpast ▸ htold.moments)).1
      (chronicle_append.1 (hpast ▸ htold.supers)).1 hplace hdecl⟩

/-- A method of `B` that runs on an instance of `C` reads `super.g`, and it is the method of `A`. -/
theorem Session.methods_resolved_three_classes :
    let source := "class A\x7bg()\x7b\x7d\x7dclass B extends A\x7bg()\x7bsuper.g;\x7d\x7dclass C extends B\x7b\x7dC().g();"
    Session.Receiving [] [] (Session.initial none) ∧ ∃ before use m decl f o c x y,
      use.text = "super" ∧ decl.name.text = "g" ∧ f.decl = decl ∧ FindsReceiver before use m f x o ∧
      x.superclass? = some c ∧ GivesMethod o c ⟨"g", 1⟩ m (evaluate 1 (.superGet use ⟨"g", 1⟩) m) ∧
      SuperStep ((Session.initial none).events 9 (Scan.ofString source).tokens) ⟨f, x, o⟩ y ∧ y.receiver = o ∧
      y.owner.own.name = "A" ∧ y.receiver.cls.own.name = "C" := by
  intro source
  have htokens : (Scan.ofString source).tokens =
        [⟨.keyword .classKw, "class", 1⟩, ⟨.identifier, "A", 1⟩, ⟨.symbol .leftBrace, "\x7b", 1⟩,
          ⟨.identifier, "g", 1⟩, ⟨.symbol .leftParen, "(", 1⟩, ⟨.symbol .rightParen, ")", 1⟩,
          ⟨.symbol .leftBrace, "\x7b", 1⟩, ⟨.symbol .rightBrace, "\x7d", 1⟩, ⟨.symbol .rightBrace, "\x7d", 1⟩,
          ⟨.keyword .classKw, "class", 1⟩, ⟨.identifier, "B", 1⟩, ⟨.keyword .extendsKw, "extends", 1⟩,
          ⟨.identifier, "A", 1⟩, ⟨.symbol .leftBrace, "\x7b", 1⟩, ⟨.identifier, "g", 1⟩,
          ⟨.symbol .leftParen, "(", 1⟩, ⟨.symbol .rightParen, ")", 1⟩, ⟨.symbol .leftBrace, "\x7b", 1⟩,
          ⟨.keyword .superKw, "super", 1⟩, ⟨.symbol .dot, ".", 1⟩, ⟨.identifier, "g", 1⟩,
          ⟨.symbol .semicolon, ";", 1⟩, ⟨.symbol .rightBrace, "\x7d", 1⟩, ⟨.symbol .rightBrace, "\x7d", 1⟩,
          ⟨.keyword .classKw, "class", 1⟩, ⟨.identifier, "C", 1⟩, ⟨.keyword .extendsKw, "extends", 1⟩,
          ⟨.identifier, "B", 1⟩, ⟨.symbol .leftBrace, "\x7b", 1⟩, ⟨.symbol .rightBrace, "\x7d", 1⟩,
          ⟨.identifier, "C", 1⟩, ⟨.symbol .leftParen, "(", 1⟩, ⟨.symbol .rightParen, ")", 1⟩, ⟨.symbol .dot, ".", 1⟩,
          ⟨.identifier, "g", 1⟩, ⟨.symbol .leftParen, "(", 1⟩, ⟨.symbol .rightParen, ")", 1⟩,
          ⟨.symbol .semicolon, ";", 1⟩, ⟨.eof, "", 1⟩] := by
    dsimp only [source]
    with_unfolding_all rfl
  have hread : (((Session.initial none).events 9 (Scan.ofString source).tokens)[13]?).map (·.1) =
      some (.evaluates (.superGet ⟨⟨"super", 1⟩, 1⟩ ⟨"g", 1⟩)) := by
    rw [htokens]
    cbv
  have hbound : ∃ g d o', (((Session.initial none).events 9 (Scan.ofString source).tokens)[14]?).map (·.1) =
      some (.binds g d o') ∧ d.own.name = "A" ∧ o'.cls.own.name = "C" := by
    refine ⟨⟨1, ⟨⟨"g", 1⟩, [], []⟩, 0⟩, ⟨⟨0, "A", [("g", ⟨1, ⟨⟨"g", 1⟩, [], []⟩, 0⟩)], []⟩, []⟩, ⟨0, ⟨4, "C", [], []⟩,
      [⟨2, "B", [("g", ⟨3, ⟨⟨"g", 1⟩, [], [.expr (.superGet ⟨⟨"super", 1⟩, 1⟩ ⟨"g", 1⟩)]⟩, 0⟩)], []⟩,
        ⟨0, "A", [("g", ⟨1, ⟨⟨"g", 1⟩, [], []⟩, 0⟩)], []⟩]⟩, ?_, rfl, rfl⟩
    rw [htokens]
    cbv
  have hnode : (((Session.initial none).nodes (Scan.ofString source).tokens)[1]?).map
      (fun n => (n.1, n.2.superMethod?.map (·.name.text))) = some (.read .super ⟨⟨"super", 1⟩, 1⟩, some "g") := by
    rw [htokens]
    cbv
  obtain ⟨-, hsuper, hstep, -⟩ := (Session.Receiving.initial none).methods_resolved 9 source
  obtain ⟨g, d, o', hbound, hd, ho'⟩ := hbound
  clear htokens
  generalize (Session.initial none).events 9 _ = events at hread hbound hsuper hstep ⊢
  generalize (Session.initial none).nodes _ = nodes at hnode hsuper
  obtain ⟨⟨_, m⟩, hm, rfl⟩ := Option.map_eq_some_iff.1 hread
  obtain ⟨⟨_, m'⟩, hm', rfl⟩ := Option.map_eq_some_iff.1 hbound
  obtain ⟨⟨_, place⟩, hplace, hpair⟩ := Option.map_eq_some_iff.1 hnode
  obtain ⟨rfl, hmethod⟩ := Prod.mk.inj hpair
  obtain ⟨decl, hdecl, hname⟩ := Option.map_eq_some_iff.1 hmethod
  obtain ⟨hlt, heq⟩ := List.getElem?_eq_some_iff.1 hm
  obtain ⟨hlt', heq'⟩ := List.getElem?_eq_some_iff.1 hm'
  have hsplit : events = events.take 13 ++ (.evaluates (.superGet ⟨⟨"super", 1⟩, 1⟩ ⟨"g", 1⟩), m) ::
      (.binds g d o', m') :: events.drop 15 := by
    rw [← heq, ← heq', ← List.drop_eq_getElem_cons, ← List.drop_eq_getElem_cons, List.take_append_drop]
  obtain ⟨f, x, o, c, hf, hreceiver, -, -, hc, hgives⟩ :=
    (hsuper _ _ _ _ _ hsplit).2 place decl (List.mem_of_getElem? hplace) hdecl
  have hxy : SuperStep events ⟨f, x, o⟩ ⟨g, d, o'⟩ := ⟨_, _, _, _, _, _, hsplit, hreceiver⟩
  exact ⟨.initial none, _, _, m, decl, f, o, c, x, ⟨g, d, o'⟩, rfl, hname, hf, hreceiver, hc, hgives 0, hxy,
    (hstep _ _ hxy).1, hd, ho'⟩

end ScriptLang
