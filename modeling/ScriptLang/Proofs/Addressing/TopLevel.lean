import ScriptLang.Proofs.Addressing.Recording

/-!
# Resolving whole programs

At the top level there are no scopes, and none are left behind.  So each statement is resolved where the one
before it was, and a program is accepted if its statements are resolved without a failure.

* `topLevel_scopes` — the resolver is at the top level again behind a program;
* `topLevel_ok`, `topLevel_of_stmts` — accepting a program is resolving its statements without a failure;
* `topLevel_append` — one program behind another;
* `resolve_ok_iff`, `resolve_outside` — accepted programs and their tables;
* `Resolver.answers_fresh` — a resolver that takes one program after another.
-/

namespace ScriptLang

open Resolving

variable {r r' : Resolver} {program program' : Program OccurrenceId} {res : Resolution}

/-! ### Statements at the top level -/

lemma Stmt.scopesAfter_nil {ι : Type} (s : Stmt ι) : s.scopesAfter [] = [] := by
  generalize hscopes : ([] : List Scope) = scopes
  induction s, scopes using Stmt.scopesAfter.induct with
  | case5 c yes scopes ih => exact ih hscopes
  | case6 c yes no scopes ih1 ih2 =>
    subst hscopes
    exact (ih2 (ih1 rfl).symm).trans (ih1 rfl)
  | case7 c body scopes ih => exact ih hscopes
  | case8 => rw [Stmt.scopesAfter] <;> assumption
  | _ =>
    subst hscopes
    rfl

lemma topLevel_scopes : ∀ (program : Program OccurrenceId) {r : Resolver}, r.scopes = [] →
    (r.topLevel program).2.scopes = []
  | [], _, h => h
  | s :: ss, r, h => by
    rw [Resolver.topLevel]
    rcases hr : stmt .topLevel s r with ⟨⟨⟩, r'⟩ | ⟨e, r'⟩
    · have hp : (stmtT .topLevel s).Passes (fun _ _ => True) r r' :=
        ⟨by rw [stmtT_run, hr], fun _ _ => trivial⟩
      have hr' : r'.scopes = [] := by rw [stmtT_scopes s hp, h, s.scopesAfter_nil]
      exact topLevel_scopes ss hr'
    · exact topLevel_scopes ss rfl

/-- Without a failure, statements are resolved at the top level as they are in any scope. -/
lemma topLevel_ok : ∀ {program : Program OccurrenceId} {r r' : Resolver}, r.topLevel program = ([], r') →
    (stmtsT .topLevel program).run r = .ok () r' ∧
      r.moments program = (stmtsT .topLevel program).trace r
  | [], r, r', h => by
    cases h
    rw [stmtsT]
    exact ⟨rfl, rfl⟩
  | s :: ss, r, r', h => by
    rw [Resolver.topLevel] at h
    rcases hr : stmt .topLevel s r with ⟨⟨⟩, q⟩ | ⟨e, q⟩
    · rw [hr] at h
      obtain ⟨hrun, htrace⟩ := topLevel_ok h
      rw [stmtsT, Traced.run_bind, Traced.trace_bind, Resolver.moments, stmtT_run, hr]
      exact ⟨(Traced.bind_ok hr).trans hrun, congrArg _ htrace⟩
    · rw [hr] at h
      cases h

lemma topLevel_of_stmts : ∀ {program : Program OccurrenceId} {r r' : Resolver},
    stmts .topLevel program r = .ok () r' → r.topLevel program = ([], r')
  | [], r, r', h => by
    rw [stmts] at h
    cases h
    rfl
  | s :: ss, r, r', h => by
    rw [stmts] at h
    obtain ⟨q, hq, hr'⟩ := bind_ok h
    rw [Resolver.topLevel, hq]
    exact topLevel_of_stmts hr'

lemma topLevel_append : ∀ {program : Program OccurrenceId} {r : Resolver}, r.topLevel program = ([], r') →
    r.topLevel (program ++ program') = r'.topLevel program'
  | [], r, h => by
    cases h
    rfl
  | s :: ss, r, h => by
    rw [Resolver.topLevel] at h
    rw [List.cons_append, Resolver.topLevel]
    rcases hr : stmt .topLevel s r with ⟨⟨⟩, q⟩ | ⟨e, q⟩
    · rw [hr] at h
      exact topLevel_append h
    · rw [hr] at h
      cases h

/-! ### Programs -/

lemma resolve_snd (h : r.scopes = []) : (r.resolve program).2 = .empty := by
  have hs : (r.topLevel program).2.scopes = [] := topLevel_scopes program h
  show Resolver.mk (r.topLevel program).2.scopes ∅ [] = _
  rw [hs]
  rfl

lemma resolve_ok_iff : (r.resolve program).1 = .ok res ↔
    ∃ r', r.topLevel program = ([], r') ∧ res = ⟨r'.locals, r'.warnings⟩ := by
  rcases ht : r.topLevel program with ⟨errors, r'⟩
  unfold Resolver.resolve
  rw [ht]
  cases errors with
  | nil =>
    refine ⟨fun h => ?_, ?_⟩
    · cases h
      exact ⟨r', rfl, rfl⟩
    · rintro ⟨_, h, rfl⟩
      cases h
      rfl
  | cons e es =>
    refine ⟨fun h => ?_, ?_⟩
    · cases h
    · rintro ⟨_, h, -⟩
      cases h

/-- The table of a program is about its own uses of names. -/
lemma resolve_outside {k : OccurrenceId} (h : (Resolver.empty.resolve program).1 = .ok res)
    (hk : k ∉ ids (Stmt.occurrencesList program)) : res.locals[k]? = none := by
  obtain ⟨r', htop, rfl⟩ := resolve_ok_iff.1 h
  have hpass : (stmtsT .topLevel program).Passes (fun _ _ => True) .empty r' :=
    ⟨(topLevel_ok htop).1, fun _ _ => trivial⟩
  exact ((stmtsT_places .topLevel program .empty r' hpass).1 k hk).trans Std.TreeMap.getElem?_emptyc

/-! ### One program after another -/

/-- What a resolver answers to one program after another, each answer with the resolver behind it. -/
def Resolver.answers (r : Resolver) : List (Program OccurrenceId) → List (Except Rejection Resolution × Resolver)
  | [] => []
  | program :: programs => r.resolve program :: (r.resolve program).2.answers programs

/-- **A resolver has no memory**: behind each program, accepted or rejected, it has no scopes, no distances and no
warnings, and so it answers to each as one that has seen nothing. -/
theorem Resolver.answers_fresh (programs : List (Program OccurrenceId)) :
    Resolver.empty.answers programs = programs.map fun program => ((Resolver.empty.resolve program).1, .empty) := by
  induction programs with
  | nil => rfl
  | cons program programs ih =>
    have hleft : (Resolver.empty.resolve program).2 = .empty := resolve_snd rfl
    have hfirst : Resolver.empty.resolve program = ((Resolver.empty.resolve program).1, .empty) := Prod.ext rfl hleft
    rw [Resolver.answers, List.map_cons, hleft, ih]
    exact congrArg (· :: _) hfirst

end ScriptLang
