import ScriptLang.Proofs.Grammar.Brackets
import ScriptLang.Proofs.Grammar.Progress

/-!
# Errors inside of blocks

After a declaration that fails, a block is read on from the next token at which reading may resume.  A closing brace
is no such token.  So what a block recovers from is an error with another statement behind it in the block; behind an
error in its last statement, the block takes over what stands behind its closing brace.

* `Broken t ts behind` — a declaration that fails, and the tokens that are passed over;
* `Recovers behind us ss` — the contents of a block, with broken declarations in front of other statements;
* `BlockEnds` — how the loop of a block can end;
* `block_ends` — the theorem;
* `block_passes_brace` — a closed block that runs past its brace.
-/

namespace ScriptLang

open Grammar Outcome

variable {path : Path} {ts us behind rest : List Token} {t u closing : Token} {d : Diagnostic}
  {ss : List (Stmt Unit)}

/-! ### What is passed over -/

/-- The declaration that starts at `t` fails in front of `behind`, and from the token at fault to `behind` there is
no token at which reading resumes.  The token at fault is one of `ts`, or the first one behind them. -/
structure Broken (t : Token) (ts behind : List Token) : Prop where
  starts : t.kind ≠ .eof ∧ t.kind ≠ .symbol .rightBrace ∧ t.kind ≠ .keyword .elseKw
  fails : ∀ path, ∃ d, (declaration path (t :: (ts ++ behind))).result = .error d ∧
    behind.length ≤ d.remaining ∧ ∀ u ∈ ts.drop ((ts ++ behind).length - d.remaining), resumesAt u = false

/-- The contents of a block in front of `behind`, and what is read of them: each declaration that is broken has a
token behind it, still in the block, at which reading resumes. -/
inductive Recovers (behind : List Token) : List Token → List (Stmt Unit) → Prop
  | nil : Recovers behind [] []
  | read {e : Bool} {ts us : List Token} {s : Stmt Unit} {ss : List (Stmt Unit)} : IsDeclaration e ts s →
      Recovers behind us ss → Recovers behind (ts ++ us) (s :: ss)
  | passed {t u : Token} {ts us : List Token} {ss : List (Stmt Unit)} : Broken t ts (u :: (us ++ behind)) →
      resumesAt u = true → Recovers behind (u :: us) ss → Recovers behind (t :: (ts ++ u :: us)) ss

/-- Contents without an error. -/
lemma recovers_of_areDeclarations {us : List Token} {ss : List (Stmt Unit)} (h : AreDeclarations us ss) :
    Recovers behind us ss := by
  cases h with
  | nil => exact .nil
  | cons hs hss => exact .read hs (recovers_of_areDeclarations hss)

/-- Behind a broken declaration, reading resumes at the first token that allows it. -/
lemma resume_append (hplace : (u :: us).length ≤ d.remaining)
    (hpassed : ∀ v ∈ ts.drop ((ts ++ u :: us).length - d.remaining), resumesAt v = false) (hu : resumesAt u = true) :
    resume d (ts ++ u :: us) = u :: us := by
  have hfault : (ts ++ u :: us).length - d.remaining ≤ ts.length := by
    rw [List.length_append]
    omega
  unfold resume
  rw [List.drop_append_of_le_length hfault]
  rw [List.dropWhile_append_of_pos (fun v hv => by simp [hpassed v hv])]
  simp [hu]

/-- Reading does not resume at a closing brace. -/
lemma resume_head_ne (d : Diagnostic) (ts : List Token) :
    ∀ u ∈ (resume d ts).head?, u.kind ≠ .symbol .rightBrace := by
  intro u hu hbrace
  have hresumes := List.head?_dropWhile_not (fun t : Token => !resumesAt t) (ts.drop (ts.length - d.remaining))
  unfold resume at hu
  rw [Option.mem_def.1 hu] at hresumes
  simp [resumesAt, hbrace] at hresumes

lemma Recovers.noElse (h : Recovers behind us ss) (hr : NoElse rest) : NoElse (us ++ rest) := by
  cases h with
  | nil => exact hr
  | read hs _ =>
    obtain ⟨t, vs, rfl, hb⟩ := hs.begins
    exact .of_kind hb.ne.2.2
  | passed hb _ _ => exact .of_kind hb.starts.2.2

/-! ### The loop of a block -/

/-- The loop of a block behind a declaration that was read. -/
lemma blockItems_read (hend : t.kind ≠ .eof) (hclose : t.kind ≠ .symbol .rightBrace)
    {p : Parsed (Stmt Unit) (t :: ts)} (hp : (declaration path (t :: ts)).result = .ok p) :
    (blockItems path (t :: ts)).result =
      (blockItems path p.rest).result.map fun more => p.andThen (more.map fun ss => p.value :: ss) := by
  rw [blockItems_round hend hclose, attempt_bind, hp]
  exact congrArg Outcome.result (map_eq _ _)

/-- The loop of a block behind a declaration that failed. -/
lemma blockItems_failed (hend : t.kind ≠ .eof) (hclose : t.kind ≠ .symbol .rightBrace)
    (hd : (declaration path (t :: ts)).result = .error d) :
    (blockItems path (t :: ts)).result =
      (blockItems path (resume d ts)).result.map fun more => more.within (resume_proper d t ts) := by
  rw [blockItems_round hend hclose, attempt_bind, hd]
  exact congrArg Outcome.result (map_eq _ _)

/-- How the loop of a block ends: right behind a closing brace, or at the end of the tokens, where it tells that the
brace is missing. -/
def BlockEnds (path : Path) (ts : List Token) : Except Diagnostic (Parsed (List (Stmt Unit)) ts) → Prop
  | .ok p => ∃ closing, closing.kind = .symbol .rightBrace ∧ closing :: p.rest <:+ ts
  | .error d => ∃ rest, rest <:+ ts ∧ AtEnd rest ∧ d = path.diagnostic (.expected .rightBrace) rest

/-- The end of the loop behind a declaration is the end of the whole loop. -/
lemma BlockEnds.map {r : Except Diagnostic (Parsed (List (Stmt Unit)) us)}
    {f : Parsed (List (Stmt Unit)) us → Parsed (List (Stmt Unit)) ts} (h : BlockEnds path us r) (hus : us <:+ ts)
    (hf : ∀ p, (f p).rest = p.rest) : BlockEnds path ts (r.map f) := by
  rcases r with d | p
  · obtain ⟨rest, hrest, hend⟩ := h
    exact ⟨rest, hrest.trans hus, hend⟩
  · obtain ⟨closing, hclosing, hbehind⟩ := h
    exact ⟨closing, hclosing, (hf p).symm ▸ hbehind.trans hus⟩

lemma blockItems_ends (path : Path) (ts : List Token) : BlockEnds path ts (blockItems path ts).result := by
  induction hm : ts.length using Nat.strongRecOn generalizing ts with
  | _ m ih =>
  subst hm
  rcases ts with _ | ⟨t, ts⟩
  · rw [blockItems]
    exact ⟨[], List.suffix_rfl, nofun, rfl⟩
  by_cases hend : t.kind = .eof
  · rw [blockItems]
    simp only [hend]
    exact ⟨t :: ts, List.suffix_rfl, by simpa [AtEnd] using isEnd_eq_true_iff.2 hend, rfl⟩
  by_cases hclose : t.kind = .symbol .rightBrace
  · rw [blockItems]
    simp only [hclose]
    exact ⟨t, hclose, List.suffix_rfl⟩
  rcases hfirst : (declaration path (t :: ts)).result with d | p
  · have hproper := resume_proper d t ts
    rw [blockItems_failed hend hclose hfirst]
    exact (ih _ hproper.length_lt _ rfl).map hproper.suffix fun _ => rfl
  · rw [blockItems_read hend hclose hfirst]
    exact (ih _ p.proper.length_lt _ rfl).map p.proper.suffix fun _ => rfl

/-- The loop of a block takes contents that it recovers from up to the brace behind them. -/
lemma Recovers.blockItems (hclosing : closing.kind = .symbol .rightBrace) (h : Recovers (closing :: rest) us ss) :
    ∃ p, (blockItems path (us ++ closing :: rest)).result = .ok p ∧ p.value = ss ∧ p.rest = rest := by
  induction h with
  | nil =>
    rw [List.nil_append, Grammar.blockItems]
    simp only [hclosing]
    exact ⟨_, rfl, rfl, rfl⟩
  | @read e ts us s ss hs hss ih =>
    have hne : NoElse (us ++ closing :: rest) := hss.noElse (.of_kind (by simp [hclosing]))
    have hread : (declaration path (ts ++ (us ++ closing :: rest))).Reads s (us ++ closing :: rest) :=
      hs.reads fun _ => hne
    obtain ⟨t, vs, rfl, hb⟩ := hs.begins
    rw [List.append_assoc, List.cons_append]
    rw [List.cons_append] at hread
    obtain ⟨p, hp, rfl, hmid⟩ := hread
    rw [← hmid] at ih
    obtain ⟨q, hq, rfl, hrest⟩ := ih
    rw [blockItems_read hb.ne.1 hb.ne.2.1 (congrArg Outcome.result hp), hq]
    exact ⟨_, rfl, rfl, hrest⟩
  | @passed t u ts us ss hb hu _ ih =>
    obtain ⟨d, hd, hplace, hpassed⟩ := hb.fails path
    have hresume : resume d (ts ++ u :: (us ++ closing :: rest)) = u :: (us ++ closing :: rest) :=
      resume_append hplace hpassed hu
    rw [List.cons_append, List.append_assoc, List.cons_append]
    rw [List.cons_append, ← hresume] at ih
    obtain ⟨q, hq, rfl, hrest⟩ := ih
    rw [blockItems_failed hb.starts.1 hb.starts.2.1 hd, hq]
    exact ⟨_, rfl, rfl, hrest⟩

/-! ### Blocks -/

/-- **What ends a block.**  A block fails only where its tokens end, for the brace that is missing there, and what it
leaves stands right behind a closing brace.  In front of a closing brace it takes its contents up to that brace and
leaves what stands behind it, whatever errors are in the contents, as long as each has another statement behind it
there at which reading resumes.  At the brace itself reading never resumes, so that an error in the last statement
of a block takes the brace with it. -/
theorem block_ends (path : Path) :
    (∀ ts, BlockEnds (path.enter .block) ts (block path ts).result) ∧
    (∀ us ss closing rest, closing.kind = .symbol .rightBrace → Recovers (closing :: rest) us ss →
      ∃ p, (block path (us ++ closing :: rest)).result = .ok p ∧ p.value = ss ∧ p.rest = rest) ∧
    ∀ d ts, ∀ u ∈ (resume d ts).head?, u.kind ≠ .symbol .rightBrace := by
  refine ⟨fun ts => ?_, fun us ss closing rest hclosing h => ?_, resume_head_ne⟩
  · rw [block_eq]
    exact blockItems_ends _ ts
  · rw [block_eq]
    exact h.blockItems hclosing

/-- A `let` without a name is passed over, and the statement behind it is read. -/
theorem block_ends_missing_name :
    let closing : Token := ⟨.symbol .rightBrace, "\x7d", 1⟩
    let us : List Token := [⟨.keyword .letKw, "let", 1⟩, ⟨.symbol .semicolon, ";", 1⟩,
      ⟨.keyword .printKw, "print", 1⟩, ⟨.identifier, "a", 1⟩, ⟨.symbol .semicolon, ";", 1⟩]
    let ss : List (Stmt Unit) := [.print (.name .identifier ⟨⟨"a", 1⟩, ()⟩)]
    closing.kind = .symbol .rightBrace ∧ Recovers [closing] us ss ∧
      (∃ p, (block [] (us ++ [closing])).result = .ok p ∧ p.value = ss ∧ p.rest = []) ∧
      BlockEnds [.block] us (block [] us).result := by
  intro closing us ss
  have hbroken : Broken ⟨.keyword .letKw, "let", 1⟩ [⟨.symbol .semicolon, ";", 1⟩]
      (us.drop 2 ++ [closing]) := by
    refine ⟨⟨nofun, nofun, nofun⟩, fun path => ?_⟩
    refine ⟨⟨.expectedIdentifier, (path.enter .declaration |>.enter .letDeclaration).reverse,
      some ⟨.symbol .semicolon, ";", 1⟩, 5⟩, by cbv, Nat.le_succ 4, ?_⟩
    exact List.forall_mem_singleton.2 rfl
  have hread : Program.parse (us.drop 2) = .ok ss := by cbv
  have hprint : AreDeclarations (us.drop 2) ss := parse_ok_iff.1 hread
  have hrecovers : Recovers [closing] us ss :=
    .passed hbroken rfl (recovers_of_areDeclarations hprint)
  exact ⟨rfl, hrecovers, (block_ends []).2.1 us ss closing [] rfl hrecovers, (block_ends []).1 us⟩

/-- An expression without a semicolon stands in front of the closing brace of the block: the block goes on behind the
brace, and tells that it is missing. -/
theorem block_passes_brace :
    let closing : Token := ⟨.symbol .rightBrace, "\x7d", 1⟩
    let ts : List Token := [⟨.symbol .leftBrace, "\x7b", 1⟩, ⟨.identifier, "a", 1⟩, closing, ⟨.eof, "", 1⟩]
    Nested (beforeEnd ts) ∧
      (block [] ts.tail).result = .error ⟨.expected .rightBrace, [.block], some ⟨.eof, "", 1⟩, 1⟩ ∧
      ∃ d, Program.parse ts = .error [d, ⟨.expected .rightBrace, [.program, .declaration, .statement, .block],
        some ⟨.eof, "", 1⟩, 1⟩] := by
  intro closing ts
  refine ⟨?_, by cbv, ⟨⟨.expected .semicolon, [.program, .declaration, .statement, .block, .declaration, .statement,
    .expressionStatement], some closing, 2⟩, by cbv⟩⟩
  have hin : Nested [⟨.identifier, "a", 1⟩] := .other rfl .nil
  exact hin.enclosed .braces

end ScriptLang
