import ScriptLang.Proofs.Places.Nodes
import ScriptLang.Proofs.Tree.Regular

/-!
# Where the reserved names stand

In a regular program no declaration has a reserved name, so only the scopes around methods have `this` and `super`.
From a place in a method the distance of both is that of the innermost such scope.

* `Place.Reserves` — around the place, the reserved names are only where methods have them;
* `Stmt.Regular.places_reserve` — all places in regular statements are such;
* `Place.distance?_reserved` — the distances of the reserved names.
-/

namespace ScriptLang

variable {ι : Type} {p : Place ι} {decl : FunctionDecl (Stmt ι)} {inSubclass : Bool}

/-- Whether a name is one of the two reserved ones. -/
def IsReserved (name : String) : Prop := name = "this" ∨ name = "super"

lemma Ident.Plain.not_reserved {name : Ident} (h : name.Plain) : ¬ IsReserved name.text :=
  not_or.2 h

lemma isReserved_of_mem {name : String} (h : name ∈ reservedFor inSubclass) : IsReserved name := by
  cases inSubclass with
  | false => exact .inl (List.mem_singleton.1 h)
  | true => simpa [reservedFor, IsReserved] using h

/-- The reserved names that a scope of the kind has. -/
def ScopeKind.reserved : ScopeKind ι → List String
  | receiver _ inSubclass => reservedFor inSubclass
  | block | function | static => []

/-- The scope has the reserved names of its kind and no others. -/
def LocalScope.Reserves (l : LocalScope ι) : Prop := ∀ name, IsReserved name → (name ∈ l.names ↔ name ∈ l.kind.reserved)

namespace Place

/-- All scopes around the place have the reserved names of their kinds and no others. -/
def Reserves (p : Place ι) : Prop := ∀ l ∈ p.scopes, l.Reserves

lemma reserves_global : (global : Place ι).Reserves := List.forall_mem_nil _

/-- Other names in the innermost scope do not matter. -/
lemma Reserves.behind (h : p.Reserves) {names : List String} (hnames : ∀ name ∈ names, ¬ IsReserved name) :
    (p.behind names).Reserves := by
  rcases p with ⟨_ | ⟨l, outer⟩, i⟩
  · exact h
  · obtain ⟨hl, houter⟩ := List.forall_mem_cons.1 h
    refine List.forall_mem_cons.2 ⟨fun name hname => ?_, houter⟩
    rw [List.mem_append, hl name hname, or_iff_left fun hmem => hnames name hmem hname]

lemma Reserves.initializing (h : p.Reserves) (name : String) : (p.initializing name).Reserves := h

/-- A scope of a block or a function, behind names that are not reserved. -/
lemma Reserves.inside (h : p.Reserves) {kind : ScopeKind ι} (hkind : kind.reserved = []) {names : List String}
    (hnames : ∀ name ∈ names, ¬ IsReserved name) : (p.inside kind names).Reserves := by
  refine List.forall_mem_cons.2 ⟨fun name hname => iff_of_false (fun hmem => hnames name hmem hname) ?_, h⟩
  rw [hkind]
  exact List.not_mem_nil

lemma Reserves.receiver (h : p.Reserves) (decl : FunctionDecl (Stmt ι)) (inSubclass : Bool) :
    (p.inside (.receiver decl inSubclass) (reservedFor inSubclass)).Reserves :=
  List.forall_mem_cons.2 ⟨fun _ _ => Iff.rfl, h⟩

/-! ### Distances -/

/-- **The distances of the reserved names in a method**: both are those of the innermost scope around a method. -/
theorem distance?_reserved (h : p.Reserves) (hmember : p.member? = some (.method decl inSubclass)) :
    ∃ k, p.kinds[k]? = some (.receiver decl inSubclass) ∧
      ∀ name ∈ reservedFor inSubclass, p.distance? name = some k := by
  rcases p with ⟨scopes, i⟩
  simp only [Reserves, member?, kinds, distance?] at h hmember ⊢
  induction scopes with
  | nil => cases hmember
  | cons l outer ih =>
    obtain ⟨hl, houter⟩ := List.forall_mem_cons.1 h
    rw [List.findSome?_cons] at hmember
    cases hkind : l.kind with
    | receiver d b =>
      rw [hkind] at hmember
      cases hmember
      refine ⟨0, ?_, fun name hname => ?_⟩
      · rw [List.map_cons, hkind]
        rfl
      · have hmem : name ∈ l.names := (hl name (isReserved_of_mem hname)).2 (hkind ▸ hname)
        rw [List.findIdx?_cons, decide_eq_true hmem]
        rfl
    | static =>
      rw [hkind] at hmember
      cases hmember
    | block | function =>
      rw [hkind] at hmember
      obtain ⟨k, hk, hdistance⟩ := ih houter hmember
      refine ⟨k + 1, hk, fun name hname => ?_⟩
      have hfree : name ∉ l.names := fun hmem => by
        have hreserved := (hl name (isReserved_of_mem hname)).1 hmem
        rw [hkind] at hreserved
        cases hreserved
      rw [List.findIdx?_cons, decide_eq_false hfree, hdistance name hname]
      rfl

end Place

/-! ### Regular statements -/

/-- No name that a regular statement declares where it stands is reserved. -/
lemma Stmt.Regular.plain_scopeNames : ∀ {s : Stmt ι}, s.Regular → ∀ name ∈ s.scopeNames, ¬ IsReserved name
  | .expr _, _ | .print _, _ | .block _, _ | .return _ _, _ => List.forall_mem_nil _
  | .letVar _ _, h | .constVar _ _, h | .classDecl _ _ _ _, h => List.forall_mem_singleton.2 h.1.not_reserved
  | .function ⟨_, _, _⟩, h => List.forall_mem_singleton.2 h.1.not_reserved
  | .ifThen _ s, h | .while _ s, h => Stmt.Regular.plain_scopeNames (s := s) h.2.2
  | .ifElse _ _ _, h =>
    List.forall_mem_append.2 ⟨Stmt.Regular.plain_scopeNames h.2.1.2, Stmt.Regular.plain_scopeNames h.2.2.2⟩

lemma nodesAt_reserve (h : p.Reserves) (ns : List (Node ι)) : ∀ n ∈ nodesAt p ns, n.2.Reserves := by
  intro n hn
  obtain ⟨m, -, rfl⟩ := List.mem_map.1 hn
  exact h

mutual

theorem Stmt.Regular.places_reserve : ∀ {s : Stmt ι} {p : Place ι}, s.Regular → p.Reserves →
    ∀ n ∈ s.nodes p, n.2.Reserves
  | .expr _, p, _, hp | .print _, p, _, hp | .return _ _, p, _, hp => nodesAt_reserve hp _
  | .letVar name _, p, h, hp | .constVar name _, p, h, hp =>
    nodesAt_reserve ((hp.behind (List.forall_mem_singleton.2 h.1.not_reserved)).initializing name.text) _
  | .block _, p, h, hp => Stmt.RegularList.places_reserve h (hp.inside rfl (List.forall_mem_nil _))
  | .ifThen _ s, p, h, hp | .while _ s, p, h, hp =>
    List.forall_mem_append.2 ⟨nodesAt_reserve hp _, Stmt.Regular.places_reserve (s := s) h.2.2 hp⟩
  | .ifElse _ yes no, p, h, hp => by
    have hp' := hp.behind h.2.1.2.plain_scopeNames
    refine List.forall_mem_append.2 ⟨nodesAt_reserve hp _, List.forall_mem_append.2 ⟨?_, ?_⟩⟩
    · exact Stmt.Regular.places_reserve h.2.1.2 hp
    · exact Stmt.Regular.places_reserve h.2.2.2 hp'
  | .function ⟨name, params, body⟩, p, h, hp =>
    FunctionDecl.Regular.places_reserve h (hp.behind (List.forall_mem_singleton.2 h.1.not_reserved)) rfl
  | .classDecl name parent methods statics, p, h, hp => by
    have hp' := hp.behind (List.forall_mem_singleton.2 h.1.not_reserved)
    refine List.forall_mem_append.2 ⟨nodesAt_reserve hp _, List.forall_mem_append.2 ⟨?_, ?_⟩⟩
    · exact FunctionDecl.RegularList.methods_reserve h.2.1 hp'
    · exact FunctionDecl.RegularList.statics_reserve h.2.2 hp'

/-- **The places in regular statements**: the reserved names stand around methods only. -/
theorem Stmt.RegularList.places_reserve : ∀ {ss : List (Stmt ι)} {p : Place ι}, Stmt.RegularList ss → p.Reserves →
    ∀ n ∈ Stmt.nodesList p ss, n.2.Reserves
  | [], _, _, _ => List.forall_mem_nil _
  | _ :: _, _, ⟨hs, hss⟩, hp =>
    List.forall_mem_append.2 ⟨hs.places_reserve hp, hss.places_reserve (hp.behind hs.plain_scopeNames)⟩

theorem FunctionDecl.Regular.places_reserve : ∀ {d : FunctionDecl (Stmt ι)} {p : Place ι} {kind : ScopeKind ι},
    FunctionDecl.Regular d → p.Reserves → kind.reserved = [] → ∀ n ∈ FunctionDecl.nodes kind p d, n.2.Reserves
  | ⟨_, params, body⟩, p, kind, ⟨_, hparams, hbody⟩, hp, hkind => by
    refine Stmt.RegularList.places_reserve hbody (hp.inside hkind fun name hname => ?_)
    obtain ⟨param, hparam, rfl⟩ := List.mem_map.1 hname
    exact (hparams param hparam).not_reserved

theorem FunctionDecl.RegularList.methods_reserve : ∀ {ds : List (FunctionDecl (Stmt ι))} {p : Place ι}
    {inSubclass : Bool}, FunctionDecl.RegularList ds → p.Reserves →
    ∀ n ∈ FunctionDecl.methodNodes inSubclass p ds, n.2.Reserves
  | [], _, _, _, _ => List.forall_mem_nil _
  | d :: _, _, inSubclass, ⟨hd, hds⟩, hp =>
    List.forall_mem_append.2 ⟨hd.places_reserve (hp.receiver d inSubclass) rfl, hds.methods_reserve hp⟩

theorem FunctionDecl.RegularList.statics_reserve : ∀ {ds : List (FunctionDecl (Stmt ι))} {p : Place ι},
    FunctionDecl.RegularList ds → p.Reserves → ∀ n ∈ FunctionDecl.staticNodes p ds, n.2.Reserves
  | [], _, _, _ => List.forall_mem_nil _
  | _ :: _, _, ⟨hd, hds⟩, hp => List.forall_mem_append.2 ⟨hd.places_reserve hp rfl, hds.statics_reserve hp⟩

end

end ScriptLang
