import Mathlib
import ScriptLang.Proofs.Grammar.Arising

/-!
# Reading makes progress

Every rule that succeeds has taken at least one token, and every diagnostic is about a place in the tokens that the
rule was given.  So the two loops that read declarations, that of a program and that of a block, get further in each
round, whether the declaration is read or fails, and end after at most one round for each token.

* `Advances` — what holds of each rule;
* `recover?` — where reading resumes, found by positions that have to lie within the tokens;
* `programRounds`, `blockRounds` — both loops with a bound on their rounds and with checked positions;
* `programRounds_eq`, `blockRounds_eq` — the bound is never met, and no check fails;
* `reading_progresses` — the theorem.
-/

namespace ScriptLang

open Grammar Outcome

variable {α : Type} {path : Path} {ts us rest : List Token} {t : Token} {d : Diagnostic} {n : Nat}

/-- A rule takes at least one token if it succeeds, and its diagnostics are about places in its tokens. -/
def Advances (rule : Path → (ts : List Token) → Outcome (Parsed α ts)) : Prop :=
  ∀ path ts, (∀ p, (rule path ts).result = .ok p → ∃ t us, ts = t :: us ++ p.rest) ∧
    ∀ d ∈ (rule path ts).diagnostics, d.Locates ts

lemma ProperSuffix.taken (h : ProperSuffix rest ts) : ∃ t us, ts = t :: us ++ rest := by
  obtain ⟨taken, rfl⟩ := h.suffix
  cases taken with
  | nil => exact absurd h.length_lt (Nat.lt_irrefl _)
  | cons t us => exact ⟨t, us, rfl⟩

lemma advances_of_raises {r : Rule} {rule : Path → (ts : List Token) → Outcome (Parsed α ts)}
    (h : ∀ path ts, (rule path ts).Raises (Arises r path ts)) : Advances rule := fun path ts =>
  ⟨fun p _ => p.proper.taken, fun d hd => (h path ts d hd).located⟩

/-! ### Where reading resumes -/

/-- Reading resumes there after a declaration at `ts` has failed: behind the first token of the declaration, and not
in front of the token at fault. -/
structure Diagnostic.Resumes (d : Diagnostic) (ts us : List Token) : Prop where
  located : d.Locates ts
  proper : ProperSuffix us ts
  behind : us <:+ ts.drop (ts.length - d.remaining)

/-- Where reading resumes after a declaration at `ts` has failed.  There is no such place if the diagnostic is about
a place in front of `ts`, or if what is passed over is longer than the tokens. -/
def recover? (ts : List Token) (d : Diagnostic) : Option (List Token) :=
  let passed := max 1 (ts.length - d.remaining)
  if d.remaining ≤ ts.length ∧ passed ≤ ts.length then
    some ((ts.drop passed).dropWhile fun t => !resumesAt t)
  else none

lemma declaration_failure (h : (declaration path ts).result = .error d) : d.Locates ts :=
  ((declaration_raises path ts).failure h).located

/-- A declaration that fails is passed over: the places are within the tokens. -/
lemma recover?_failure (h : (declaration path (t :: rest)).result = .error d) :
    recover? (t :: rest) d = some (resume d rest) := by
  have hplace : d.remaining ≤ (t :: rest).length := (declaration_failure h).1
  have hpassed : max 1 ((t :: rest).length - d.remaining) = (rest.length - d.remaining) + 1 := by
    rw [List.length_cons]
    omega
  have hwithin : (rest.length - d.remaining) + 1 ≤ (t :: rest).length := by
    rw [List.length_cons]
    omega
  unfold recover?
  simp only [hpassed]
  rw [if_pos ⟨hplace, hwithin⟩, List.drop_succ_cons]
  rfl

/-- **After a failure reading resumes behind the first token of the declaration and not in front of the token at
fault.** -/
lemma resume_resumes (h : (declaration path (t :: rest)).result = .error d) :
    d.Resumes (t :: rest) (resume d rest) := by
  refine ⟨declaration_failure h, resume_proper d t rest, (List.dropWhile_suffix _).trans ?_⟩
  -- If the first token is at fault, reading resumes one token behind it; else from the token at fault on.
  rcases Nat.lt_or_ge rest.length d.remaining with hlt | hle
  · have hfirst : (t :: rest).length - d.remaining = 0 := Nat.sub_eq_zero_of_le hlt
    have hnone : rest.length - d.remaining = 0 := Nat.sub_eq_zero_of_le (Nat.le_of_lt hlt)
    rw [hfirst, hnone, List.drop_zero, List.drop_zero]
    exact List.suffix_cons t rest
  · have hsame : (t :: rest).drop ((t :: rest).length - d.remaining) = rest.drop (rest.length - d.remaining) := by
      rw [List.length_cons, Nat.succ_sub hle, List.drop_succ_cons]
    exact hsame ▸ List.suffix_rfl

/-! ### The loop of a program -/

/-- The loop that reads the declarations of a program, with a bound on its rounds.  There is no reading if the bound
is met or if there is no place where it may resume. -/
def programRounds (path : Path) : Nat → List Token → Option Reading
  | 0, _ => none
  | n + 1, ts =>
    match ts with
    | [] => some ⟨[], [], []⟩
    | t :: rest =>
      match t.kind with
      | .eof => some ⟨[], [], []⟩
      | _ =>
        let first := declaration path (t :: rest)
        match first.result with
        | .ok s => (programRounds path n s.rest).map fun r => r.after first
        | .error d => do
          let next ← recover? (t :: rest) d
          (programRounds path n next).map fun r => r.after first

/-- **The loop of a program gets further in each round**, so it ends before it has made more rounds than there are
tokens. -/
theorem programRounds_eq (path : Path) (h : ts.length < n) : programRounds path n ts = some (programItems path ts) := by
  induction n generalizing ts with
  | zero => exact absurd h (Nat.not_lt_zero _)
  | succ n ih =>
    rcases ts with _ | ⟨t, rest⟩
    · rw [programRounds, programItems]
    have hlt : ∀ {us}, ProperSuffix us (t :: rest) → us.length < n := fun hus =>
      Nat.lt_of_lt_of_le hus.length_lt (Nat.le_of_lt_succ h)
    by_cases hend : t.kind = .eof
    · rw [programRounds, programItems]
      simp only [hend]
    rw [programItems_round hend, programRounds]
    split
    · next hk => exact absurd hk hend
    rcases hfirst : (declaration path (t :: rest)).result with d | s
    · simp only [hfirst, recover?_failure hfirst]
      exact congrArg (Option.map _) (ih (hlt (resume_proper d t rest)))
    · simp only [hfirst]
      rw [ih (hlt s.proper)]
      rfl

/-! ### The loop of a block -/

/-- An outcome, without the proof that fewer tokens are left. -/
def Outcome.plain (x : Outcome (Parsed α ts)) : Outcome (α × List Token) :=
  ⟨x.result.map fun p => (p.value, p.rest), x.reported⟩

/-- What a block is when a declaration was read, or failed, in front of its other ones. -/
def blockAfter (first : Outcome (Parsed (Stmt Unit) ts)) (o : Outcome (List (Stmt Unit) × List Token)) :
    Outcome (List (Stmt Unit) × List Token) where
  result := o.result.map fun p =>
    match first.result with
    | .ok s => (s.value :: p.1, p.2)
    | .error _ => p
  reported := first.diagnostics ++ o.reported

/-- The loop that reads the declarations of a block, with a bound on its rounds and with checked places like that of
a program. -/
def blockRounds (path : Path) : Nat → List Token → Option (Outcome (List (Stmt Unit) × List Token))
  | 0, _ => none
  | n + 1, ts =>
    match ts with
    | [] => some (path.fail (.expected .rightBrace) [])
    | t :: rest =>
      match t.kind with
      | .eof => some (path.fail (.expected .rightBrace) (t :: rest))
      | .symbol .rightBrace => some (pure ([], rest))
      | _ =>
        let first := declaration path (t :: rest)
        match first.result with
        | .ok s => (blockRounds path n s.rest).map (blockAfter first)
        | .error d => do
          let next ← recover? (t :: rest) d
          (blockRounds path n next).map (blockAfter first)

section Plain

variable {β : Type} {first : Outcome (Parsed (Stmt Unit) ts)}

lemma attempt_bind (x : Outcome α) (f : Except Diagnostic α → Outcome β) :
    x.attempt >>= f = ⟨(f x.result).result, x.reported ++ (f x.result).reported⟩ := rfl

lemma map_eq (x : Outcome α) (f : α → β) : (do return f (← x) : Outcome β) = ⟨x.result.map f, x.reported⟩ := by
  obtain ⟨result, reported⟩ := x
  cases result with
  | error d => rfl
  | ok a => exact congrArg (Outcome.mk (.ok (f a))) (List.append_nil reported)

/-- A block behind a declaration that was read. -/
lemma plain_read {s : Parsed (Stmt Unit) ts} (h : first.result = .ok s)
    (more : Outcome (Parsed (List (Stmt Unit)) s.rest)) :
    (⟨(do return s.andThen ((← more).map fun ss => s.value :: ss) : Outcome _).result,
      first.reported ++ (do return s.andThen ((← more).map fun ss => s.value :: ss) : Outcome _).reported⟩ :
        Outcome (Parsed (List (Stmt Unit)) ts)).plain = blockAfter first more.plain := by
  rw [map_eq]
  unfold blockAfter diagnostics
  rw [h, List.append_nil]
  obtain ⟨result, reported⟩ := more
  cases result <;> rfl

/-- A block behind a declaration that failed. -/
lemma plain_failed (h : first.result = .error d) (proper : ProperSuffix us ts)
    (more : Outcome (Parsed (List (Stmt Unit)) us)) :
    (⟨(do tell d; return (← more).within proper : Outcome _).result,
      first.reported ++ (do tell d; return (← more).within proper : Outcome _).reported⟩ :
        Outcome (Parsed (List (Stmt Unit)) ts)).plain = blockAfter first more.plain := by
  rw [map_eq]
  unfold blockAfter diagnostics
  rw [h, List.append_assoc]
  obtain ⟨result, reported⟩ := more
  cases result <;> rfl

end Plain

/-- A round of the loop of a block. -/
lemma blockItems_round {t : Token} {rest : List Token} (hend : t.kind ≠ .eof)
    (hclose : t.kind ≠ .symbol .rightBrace) :
    blockItems path (t :: rest) = (do
      match ← (declaration path (t :: rest)).attempt with
      | .ok s =>
        let more ← blockItems path s.rest
        return s.andThen (more.map fun ss => s.value :: ss)
      | .error d =>
        .tell d
        return (← blockItems path (resume d rest)).within (resume_proper d t rest)) := by
  rw [blockItems]
  split
  · next hk => exact absurd hk hend
  · next hk => exact absurd hk hclose
  · rfl

/-- **The loop of a block gets further in each round**, like that of a program. -/
theorem blockRounds_eq (path : Path) (h : ts.length < n) :
    blockRounds path n ts = some (blockItems path ts).plain := by
  induction n generalizing ts with
  | zero => exact absurd h (Nat.not_lt_zero _)
  | succ n ih =>
    rcases ts with _ | ⟨t, rest⟩
    · rw [blockRounds, blockItems]
      rfl
    have hlt : ∀ {us}, ProperSuffix us (t :: rest) → us.length < n := fun hus =>
      Nat.lt_of_lt_of_le hus.length_lt (Nat.le_of_lt_succ h)
    by_cases hend : t.kind = .eof
    · rw [blockRounds, blockItems]
      simp only [hend]
      rfl
    by_cases hclose : t.kind = .symbol .rightBrace
    · rw [blockRounds, blockItems]
      simp only [hclose]
      rfl
    rw [blockItems_round hend hclose, blockRounds]
    split
    · next hk => exact absurd hk hend
    · next hk => exact absurd hk hclose
    rw [attempt_bind]
    rcases hfirst : (declaration path (t :: rest)).result with d | s
    · simp only [hfirst, recover?_failure hfirst, plain_failed hfirst]
      exact congrArg (Option.map _) (ih (hlt (resume_proper d t rest)))
    · simp only [hfirst, plain_read hfirst]
      rw [ih (hlt s.proper)]
      rfl

/-! ### The whole grammar -/

/-- **Reading makes progress and ends**, for any tokens, with an end mark or without one.  A declaration, a statement,
a block, a function, a class or an expression that is read has taken at least one token, and each of its diagnostics,
those inside of it included, is about a place in its tokens.  After a declaration that fails, in a program or a block,
reading resumes behind the first token of it, and not in front of the token at fault.  Both loops end, with the place
where they resume always within the tokens, before they have made more rounds than there are tokens.  Everywhere else
the grammar takes only the first of tokens that are there. -/
theorem reading_progresses :
    (Advances declaration ∧ Advances statement ∧ Advances block ∧ Advances classDeclaration ∧ Advances expression ∧
      ∀ rule ∈ [Rule.function, .method, .staticMethod], Advances fun path => function path rule) ∧
    (∀ path t rest d, (declaration path (t :: rest)).result = .error d → d.Resumes (t :: rest) (resume d rest)) ∧
    (∀ path ts, programRounds path (ts.length + 1) ts = some (programItems path ts)) ∧
    (∀ path ts, blockRounds path (ts.length + 1) ts = some (blockItems path ts).plain) ∧
    ∀ ts, (∃ program, Program.parse ts = .ok program) ∨
      ∃ ds, Program.parse ts = .error ds ∧ ∀ d ∈ ds, d.Locates ts := by
  have hfunction : ∀ rule ∈ [Rule.function, .method, .staticMethod], Rule.block ∈ rule.callees := by decide
  refine ⟨⟨advances_of_raises declaration_raises, advances_of_raises statement_raises,
    advances_of_raises block_raises, advances_of_raises classDeclaration_raises,
    advances_of_raises expression_raises, fun rule hrule => ?_⟩, fun _ _ _ _ => resume_resumes,
    fun path ts => programRounds_eq path (Nat.lt_succ_self _),
    fun path ts => blockRounds_eq path (Nat.lt_succ_self _), fun ts => ?_⟩
  · exact advances_of_raises fun path ts => function_raises path rule ts (hfunction rule hrule)
  · rcases hparse : Program.parse ts with ds | program
    · exact .inr ⟨ds, rfl, fun d hd => (Program.parse_arises hparse d hd).located⟩
    · exact .inl ⟨program, rfl⟩

/-- Behind a `let` without a name, reading resumes at the next statement. -/
theorem reading_progresses_missing_name :
    let rest : List Token := [⟨.symbol .semicolon, ";", 1⟩, ⟨.keyword .printKw, "print", 1⟩]
    let d : Diagnostic := ⟨.expectedIdentifier, [.program, .declaration, .letDeclaration], rest.head?, 2⟩
    (declaration [.program] (⟨.keyword .letKw, "let", 1⟩ :: rest)).result = .error d ∧
      resume d rest = rest.tail ∧ d.Resumes (⟨.keyword .letKw, "let", 1⟩ :: rest) (resume d rest) := by
  intro rest d
  have hfails : (declaration [.program] (⟨.keyword .letKw, "let", 1⟩ :: rest)).result = .error d := by cbv
  exact ⟨hfails, by cbv, reading_progresses.2.1 _ _ _ _ hfails⟩

end ScriptLang
