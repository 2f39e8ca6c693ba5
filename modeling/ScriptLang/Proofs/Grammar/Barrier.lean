import ScriptLang.Proofs.Counted.MirroredPrograms
import ScriptLang.Proofs.Grammar.EndMarks

/-!
# The first end mark is a barrier

What stands behind the first end mark is never read: no rule takes an end mark, and after a failure reading resumes
at the end mark at the latest.  A diagnostic is placed by the number of tokens from it to the end of the list, and with
tokens behind the mark all these numbers grow by the same.

* `terminated_likewise`, `condition_likewise`, `forClauses_likewise`, … — what statements are made of;
* `resume_before` — after a failure reading resumes at the same token, the end mark at the latest;
* `declaration_likewise` — the rules for declarations and statements, in the recursion of the rules;
* `programItems_append`, `Program.parse_append` — whole programs;
* `Program.end_mark_barrier` — whatever stands behind an end mark, with numbers in the tree and without.
-/

namespace ScriptLang

open Outcome

namespace Grammar

variable {behind ts rest : List Token} {path : Path} {t : Token} {d : Diagnostic}

/-! ### Parts of statements -/

lemma terminated_likewise (path : Path) (h : EndMarked ts) :
    ReadsLikewise behind (terminated path ts) (terminated path (ts ++ behind)) := by
  refine (expression_likewise path h).next fun e he _ => ?_
  exact (symbol_likewise path _ he).next fun close hclose _ => .pure ⟨rfl, rfl, hclose⟩

lemma letDeclaration_likewise (path : Path) (h : EndMarked ts) :
    ReadsLikewise behind (letDeclaration path ts) (letDeclaration path (ts ++ behind)) := by
  refine (identifier_likewise _ h).next fun name hname _ => ?_
  dsimp only
  rw [startsWith_append _ hname]
  split
  · refine (symbol_likewise _ _ hname).next fun equal hequal _ => ?_
    exact (terminated_likewise _ hequal).next fun value hvalue _ => .pure ⟨rfl, rfl, hvalue⟩
  · exact (symbol_likewise _ _ hname).next fun close hclose _ => .pure ⟨rfl, rfl, hclose⟩

lemma constDeclaration_likewise (path : Path) (h : EndMarked ts) :
    ReadsLikewise behind (constDeclaration path ts) (constDeclaration path (ts ++ behind)) := by
  refine (identifier_likewise _ h).next fun name hname _ => ?_
  refine (symbol_likewise _ _ hname).next fun equal hequal _ => ?_
  exact (terminated_likewise _ hequal).next fun value hvalue _ => .pure ⟨rfl, rfl, hvalue⟩

lemma printStatement_likewise (path : Path) (h : EndMarked ts) :
    ReadsLikewise behind (printStatement path ts) (printStatement path (ts ++ behind)) :=
  (terminated_likewise _ h).next fun _ he _ => .pure ⟨rfl, rfl, he⟩

lemma returnStatement_likewise (path : Path) (line : Nat) (h : EndMarked ts) :
    ReadsLikewise behind (returnStatement path line ts) (returnStatement path line (ts ++ behind)) := by
  unfold returnStatement
  rw [startsWith_append _ h]
  split
  · exact (symbol_likewise _ _ h).next fun close hclose _ => .pure ⟨rfl, rfl, hclose⟩
  · exact (terminated_likewise _ h).next fun e he _ => .pure ⟨rfl, rfl, he⟩

lemma expressionStatement_likewise (path : Path) (h : EndMarked ts) :
    ReadsLikewise behind (expressionStatement path ts) (expressionStatement path (ts ++ behind)) :=
  (terminated_likewise _ h).next fun _ he _ => .pure ⟨rfl, rfl, he⟩

theorem parameters_likewise (path : Path) (count : Nat) {ts : List Token} (h : EndMarked ts) :
    ReadsLikewise behind (parameters path count ts) (parameters path count (ts ++ behind)) := by
  rw [parameters, parameters, startsWith_append _ h]
  split
  · exact (symbol_likewise path _ h).next fun close hclose _ => .pure ⟨rfl, rfl, hclose⟩
  · refine (Likewise.reportIf h path _ _).bind fun _ _ _ => ?_
    refine (identifier_likewise _ h).next fun name hname _ => ?_
    obtain ⟨name, _ | ⟨t, rest⟩, hproper⟩ := name
    · exact absurd rfl hname.ne_nil
    · have hrest : ProperSuffix rest ts := hproper.of_cons
      dsimp only [List.cons_append]
      by_cases hcomma : t.kind = .symbol .comma
      · simp only [hcomma]
        refine (parameters_likewise path (count + 1) (hname.tail (by simp [hcomma]))).next fun more hmore _ => ?_
        exact .pure ⟨rfl, rfl, hmore⟩
      by_cases hclose : t.kind = .symbol .rightParen
      · simp only [hclose]
        exact .pure ⟨rfl, rfl, hname.tail (by simp [hclose])⟩
      · simp only
        exact .fail hname _ _
termination_by ts.length
decreasing_by exact hrest.length_lt

lemma condition_likewise (path : Path) (h : EndMarked ts) :
    ReadsLikewise behind (condition path ts) (condition path (ts ++ behind)) := by
  refine (symbol_likewise _ _ h).next fun opening hopening _ => ?_
  refine (expression_likewise _ hopening).next fun e he _ => ?_
  exact (symbol_likewise _ _ he).next fun closing hclosing _ => .pure ⟨rfl, rfl, hclosing⟩

lemma forInitializer_likewise (path : Path) (h : EndMarked ts) :
    ReadsLikewise behind (forInitializer path ts) (forInitializer path (ts ++ behind)) := by
  obtain ⟨t, rest, rfl⟩ := List.exists_cons_of_ne_nil h.ne_nil
  rw [List.cons_append, forInitializer, forInitializer]
  by_cases hnone : t.kind = .symbol .semicolon
  · simp only [hnone]
    exact .pure ⟨rfl, rfl, h.tail (by simp [hnone])⟩
  by_cases hlet : t.kind = .keyword .letKw
  · simp only [hlet]
    exact (letDeclaration_likewise path (h.tail (by simp [hlet]))).next fun s hs _ => .pure ⟨rfl, rfl, hs⟩
  · simp only
    exact (expressionStatement_likewise path h).next fun s hs _ => .pure ⟨rfl, rfl, hs⟩

lemma optionalUntil_likewise (path : Path) (s : Symbol) (h : EndMarked ts) :
    ReadsLikewise behind (optionalUntil path s ts) (optionalUntil path s (ts ++ behind)) := by
  unfold optionalUntil
  rw [startsWith_append _ h]
  split
  · exact (symbol_likewise _ _ h).next fun close hclose _ => .pure ⟨rfl, rfl, hclose⟩
  · refine (expression_likewise path h).next fun e he _ => ?_
    exact (symbol_likewise _ _ he).next fun close hclose _ => .pure ⟨rfl, rfl, hclose⟩

lemma forClauses_likewise (path : Path) (h : EndMarked ts) :
    ReadsLikewise behind (forClauses path ts) (forClauses path (ts ++ behind)) := by
  refine (symbol_likewise _ _ h).next fun opening hopening _ => ?_
  refine (forInitializer_likewise _ hopening).next fun init hinit _ => ?_
  refine (optionalUntil_likewise _ _ hinit).next fun test htest _ => ?_
  exact (optionalUntil_likewise _ _ htest).next fun incr hincr _ => .pure ⟨rfl, rfl, hincr⟩

lemma signature_likewise (path : Path) (h : EndMarked ts) :
    ReadsLikewise behind (signature path ts) (signature path (ts ++ behind)) := by
  refine (identifier_likewise _ h).next fun name hname _ => ?_
  refine (symbol_likewise _ _ hname).next fun opening hopening _ => ?_
  exact (parameters_likewise _ 0 hopening).next fun params hparams _ => .pure ⟨rfl, rfl, hparams⟩

lemma classHead_likewise (path : Path) (h : EndMarked ts) :
    ReadsLikewise behind (classHead path ts) (classHead path (ts ++ behind)) := by
  refine (identifier_likewise _ h).next fun name hname _ => ?_
  obtain ⟨name, _ | ⟨t, rest⟩, hproper⟩ := name
  · exact absurd rfl hname.ne_nil
  · dsimp only [List.cons_append]
    by_cases hextends : t.kind = .keyword .extendsKw
    · simp only [hextends]
      refine (identifier_likewise _ (hname.tail (by simp [hextends]))).next fun parent hparent _ => ?_
      exact (symbol_likewise _ _ hparent).next fun opening hopening _ => .pure ⟨rfl, rfl, hopening⟩
    · simp only
      exact (symbol_likewise _ _ hname).next fun opening hopening _ => .pure ⟨rfl, rfl, hopening⟩

/-! ### Where reading resumes -/

/-- The search for a token at which reading may resume ends at the end mark. -/
lemma resuming_append (h : EndMarked ts) :
    (ts ++ behind).dropWhile (fun t => !resumesAt t) = ts.dropWhile (fun t => !resumesAt t) ++ behind ∧
      EndMarked (ts.dropWhile fun t => !resumesAt t) := by
  induction h with
  | @mark t heof =>
    have hstops : resumesAt t = true := by rw [resumesAt, heof]
    simp only [List.singleton_append, List.dropWhile_cons, hstops]
    exact ⟨rfl, .mark heof⟩
  | cons t h ih =>
    simp only [List.cons_append, List.dropWhile_cons]
    by_cases ht : resumesAt t
    · simp only [ht]
      exact ⟨rfl, .cons t h⟩
    · simp only [ht]
      exact ih

/-- **After a failure reading resumes at the same token**, and that is not behind the end mark. -/
lemma resume_before (behind : List Token) (h : EndMarked rest) (hd : 0 < d.remaining) :
    resume (d.before behind) (rest ++ behind) = resume d rest ++ behind ∧ EndMarked (resume d rest) := by
  have hlength := List.length_pos_iff.2 h.ne_nil
  have hsame : (rest ++ behind).length - (d.before behind).remaining = rest.length - d.remaining := by
    rw [List.length_append]
    exact Nat.add_sub_add_right _ _ _
  unfold resume
  rw [hsame, List.drop_append_of_le_length (Nat.sub_le _ _)]
  exact resuming_append (h.drop (Nat.sub_lt hlength hd))

/-! ### Statements inside statements -/

mutual

theorem declaration_likewise (path : Path) : ∀ {ts : List Token}, EndMarked ts →
    ReadsLikewise behind (declaration path ts) (declaration path (ts ++ behind))
  | [], h => absurd rfl h.ne_nil
  | t :: rest, h => by
    rw [List.cons_append, declaration, declaration]
    by_cases hclass : t.kind = .keyword .classKw
    · simp only [hclass]
      exact (classDeclaration_likewise _ (h.tail (by simp [hclass]))).next fun s hs _ => .pure ⟨rfl, rfl, hs⟩
    by_cases hfunction : t.kind = .keyword .functionKw
    · simp only [hfunction]
      exact (function_likewise _ _ (h.tail (by simp [hfunction]))).next fun f hf _ => .pure ⟨rfl, rfl, hf⟩
    by_cases hlet : t.kind = .keyword .letKw
    · simp only [hlet]
      exact (letDeclaration_likewise _ (h.tail (by simp [hlet]))).next fun s hs _ => .pure ⟨rfl, rfl, hs⟩
    by_cases hconst : t.kind = .keyword .constKw
    · simp only [hconst]
      exact (constDeclaration_likewise _ (h.tail (by simp [hconst]))).next fun s hs _ => .pure ⟨rfl, rfl, hs⟩
    · simp only
      exact statement_likewise _ h
termination_by ts => (ts.length, 1)

theorem classDeclaration_likewise (path : Path) {ts : List Token} (h : EndMarked ts) :
    ReadsLikewise behind (classDeclaration path ts) (classDeclaration path (ts ++ behind)) := by
  rw [classDeclaration, classDeclaration]
  refine (classHead_likewise _ h).next fun head hhead _ => ?_
  exact (members_likewise _ hhead).next fun body hbody _ => .pure ⟨rfl, rfl, hbody⟩
termination_by (ts.length, 0)
decreasing_by exact Prod.Lex.left _ _ head.proper.length_lt

theorem members_likewise (path : Path) : ∀ {ts : List Token}, EndMarked ts →
    ReadsLikewise behind (members path ts) (members path (ts ++ behind))
  | [], h => absurd rfl h.ne_nil
  | t :: rest, h => by
    rw [List.cons_append, members, members]
    by_cases hclose : t.kind = .symbol .rightBrace
    · simp only [hclose]
      exact .pure ⟨rfl, rfl, h.tail (by simp [hclose])⟩
    by_cases hstatic : t.kind = .keyword .staticKw
    · simp only [hstatic]
      refine (function_likewise _ _ (h.tail (by simp [hstatic]))).next fun method hmethod _ => ?_
      exact (members_likewise path hmethod).next fun more hmore _ => .pure ⟨rfl, rfl, hmore⟩
    by_cases heof : t.kind = .eof
    · simp only [heof]
      exact .fail h _ _
    · simp only
      refine (function_likewise path _ h).next fun method hmethod _ => ?_
      exact (members_likewise path hmethod).next fun more hmore _ => .pure ⟨rfl, rfl, hmore⟩
termination_by ts => (ts.length, 1)
decreasing_by
  · exact Prod.Lex.left _ _ (Nat.lt_succ_self _)
  · exact Prod.Lex.left _ _ method.proper.cons.length_lt
  · exact Prod.Lex.right _ (by simp)
  · exact Prod.Lex.left _ _ method.proper.length_lt

theorem function_likewise (path : Path) (rule : Rule) {ts : List Token} (h : EndMarked ts) :
    ReadsLikewise behind (function path rule ts) (function path rule (ts ++ behind)) := by
  rw [function, function]
  refine (signature_likewise _ h).next fun head hhead _ => ?_
  refine (symbol_likewise _ _ hhead).next fun opening hopening _ => ?_
  exact (block_likewise _ hopening).next fun body hbody _ => .pure ⟨rfl, rfl, hbody⟩
termination_by (ts.length, 0)
decreasing_by exact Prod.Lex.left _ _ (opening.proper.trans head.proper).length_lt

theorem statement_likewise (path : Path) : ∀ {ts : List Token}, EndMarked ts →
    ReadsLikewise behind (statement path ts) (statement path (ts ++ behind))
  | [], h => absurd rfl h.ne_nil
  | t :: rest, h => by
    rw [List.cons_append, statement, statement]
    by_cases hprint : t.kind = .keyword .printKw
    · simp only [hprint]
      exact (printStatement_likewise _ (h.tail (by simp [hprint]))).next fun s hs _ => .pure ⟨rfl, rfl, hs⟩
    by_cases hreturn : t.kind = .keyword .returnKw
    · simp only [hreturn]
      exact (returnStatement_likewise _ _ (h.tail (by simp [hreturn]))).next fun s hs _ => .pure ⟨rfl, rfl, hs⟩
    by_cases hopen : t.kind = .symbol .leftBrace
    · simp only [hopen]
      exact (block_likewise _ (h.tail (by simp [hopen]))).next fun ss hss _ => .pure ⟨rfl, rfl, hss⟩
    by_cases hif : t.kind = .keyword .ifKw
    · simp only [hif]
      exact (ifStatement_likewise _ (h.tail (by simp [hif]))).next fun s hs _ => .pure ⟨rfl, rfl, hs⟩
    by_cases hwhile : t.kind = .keyword .whileKw
    · simp only [hwhile]
      exact (whileStatement_likewise _ (h.tail (by simp [hwhile]))).next fun s hs _ => .pure ⟨rfl, rfl, hs⟩
    by_cases hfor : t.kind = .keyword .forKw
    · simp only [hfor]
      exact (forStatement_likewise _ (h.tail (by simp [hfor]))).next fun s hs _ => .pure ⟨rfl, rfl, hs⟩
    · simp only
      exact expressionStatement_likewise _ h
termination_by ts => (ts.length, 0)

theorem ifStatement_likewise (path : Path) {ts : List Token} (h : EndMarked ts) :
    ReadsLikewise behind (ifStatement path ts) (ifStatement path (ts ++ behind)) := by
  rw [ifStatement, ifStatement]
  refine (condition_likewise _ h).next fun test htest _ => ?_
  refine (statement_likewise _ htest).next fun yes hyes _ => ?_
  obtain ⟨yes, _ | ⟨t, rest⟩, hproper⟩ := yes
  · exact absurd rfl hyes.ne_nil
  · have hrest : ProperSuffix rest ts := hproper.of_cons.trans test.proper
    dsimp only [List.cons_append]
    by_cases helse : t.kind = .keyword .elseKw
    · simp only [helse]
      exact (statement_likewise _ (hyes.tail (by simp [helse]))).next fun no hno _ => .pure ⟨rfl, rfl, hno⟩
    · simp only
      exact .pure ⟨rfl, rfl, hyes⟩
termination_by (ts.length, 0)
decreasing_by
  · exact Prod.Lex.left _ _ test.proper.length_lt
  · exact Prod.Lex.left _ _ hrest.length_lt

theorem whileStatement_likewise (path : Path) {ts : List Token} (h : EndMarked ts) :
    ReadsLikewise behind (whileStatement path ts) (whileStatement path (ts ++ behind)) := by
  rw [whileStatement, whileStatement]
  refine (condition_likewise _ h).next fun test htest _ => ?_
  exact (statement_likewise _ htest).next fun body hbody _ => .pure ⟨rfl, rfl, hbody⟩
termination_by (ts.length, 0)
decreasing_by exact Prod.Lex.left _ _ test.proper.length_lt

theorem forStatement_likewise (path : Path) {ts : List Token} (h : EndMarked ts) :
    ReadsLikewise behind (forStatement path ts) (forStatement path (ts ++ behind)) := by
  rw [forStatement, forStatement]
  refine (forClauses_likewise _ h).next fun head hhead _ => ?_
  exact (statement_likewise _ hhead).next fun body hbody _ => .pure ⟨rfl, rfl, hbody⟩
termination_by (ts.length, 0)
decreasing_by exact Prod.Lex.left _ _ head.proper.length_lt

theorem block_likewise (path : Path) {ts : List Token} (h : EndMarked ts) :
    ReadsLikewise behind (block path ts) (block path (ts ++ behind)) := by
  rw [block, block]
  exact blockItems_likewise _ h
termination_by (ts.length, 3)

theorem blockItems_likewise (path : Path) : ∀ {ts : List Token}, EndMarked ts →
    ReadsLikewise behind (blockItems path ts) (blockItems path (ts ++ behind))
  | [], h => absurd rfl h.ne_nil
  | t :: rest, h => by
    rw [List.cons_append, blockItems, blockItems]
    by_cases heof : t.kind = .eof
    · simp only [heof]
      exact .fail h _ _
    by_cases hclose : t.kind = .symbol .rightBrace
    · simp only [hclose]
      exact .pure ⟨rfl, rfl, h.tail heof⟩
    · simp only
      refine (declaration_likewise path h).attempt.bind fun r r' hr => ?_
      cases hr with
      | @ok s s' hs =>
        obtain ⟨value, left, proper⟩ := s'
        obtain ⟨rfl, rfl, hmarked⟩ := hs
        exact (blockItems_likewise path hmarked).next fun more hmore _ => .pure ⟨rfl, rfl, hmore⟩
      | @error d hd =>
        obtain ⟨hresume, hmarked⟩ := resume_before behind (h.tail heof) hd
        refine (Likewise.tell d).bind fun _ _ _ => ?_
        -- What is left depends on where reading resumes, so both are rewritten at once.
        generalize resume_proper (d.before behind) t (rest ++ behind) = proper
        revert proper
        rw [hresume]
        intro proper
        exact (blockItems_likewise path hmarked).next fun more hmore _ => .pure ⟨rfl, rfl, hmore⟩
termination_by ts => (ts.length, 2)
decreasing_by
  · exact Prod.Lex.right _ (by simp)
  · exact Prod.Lex.left _ _ s.proper.length_lt
  · exact Prod.Lex.left _ _ (resume_proper d t rest).length_lt

end

/-! ### Programs -/

/-- The same reading, with the given tokens behind the others. -/
def Reading.before (behind : List Token) (r : Reading) : Reading :=
  { r with failures := r.failures.map (·.before behind), reported := r.reported.map (·.before behind) }

lemma Reading.after_before {us : List Token} {o : Outcome (Parsed (Stmt Unit) ts)}
    {o' : Outcome (Parsed (Stmt Unit) us)} (h : ReadsLikewise behind o o') (r : Reading) :
    (r.before behind).after o' = (r.after o).before behind := by
  obtain ⟨hreported, hresult⟩ := h
  unfold Reading.after
  rw [hreported]
  generalize o.result = x at hresult
  generalize o'.result = y at hresult
  cases hresult with
  | ok hs => simp only [Reading.before, hs.value, List.map_append]
  | error => simp only [Reading.before, List.map_append, List.map_cons]

theorem programItems_append (path : Path) : ∀ {ts : List Token}, EndMarked ts →
    programItems path (ts ++ behind) = (programItems path ts).before behind
  | [], h => absurd rfl h.ne_nil
  | t :: rest, h => by
    by_cases heof : t.kind = .eof
    · rw [List.cons_append, programItems, programItems, heof]
      rfl
    · rw [List.cons_append, programItems_round heof, programItems_round heof]
      have hdeclaration : ReadsLikewise behind (declaration path (t :: rest))
          (declaration path (t :: (rest ++ behind))) := declaration_likewise path h
      have hafter := Reading.after_before hdeclaration
      obtain ⟨-, hresult⟩ := hdeclaration
      generalize (declaration path (t :: rest)).result = x at hresult
      generalize (declaration path (t :: (rest ++ behind))).result = y at hresult
      cases hresult with
      | @ok s s' hs =>
        simp only [hs.rest, programItems_append path hs.marked]
        exact hafter _
      | @error d hd =>
        obtain ⟨hresume, hmarked⟩ := resume_before behind (h.tail heof) hd
        simp only [hresume, programItems_append path hmarked]
        exact hafter _
termination_by ts => ts.length
decreasing_by
  · exact s.proper.length_lt
  · exact (resume_proper d t rest).length_lt

end Grammar

namespace Program

variable {behind ts : List Token}

/-- Of tokens with an end mark the same program is read, or the same diagnostics are found, with others behind. -/
lemma parse_append (h : EndMarked ts) (behind : List Token) :
    parse (ts ++ behind) = (parse ts).mapError (List.map (·.before behind)) := by
  unfold parse
  rw [Grammar.programItems_append _ h]
  simp only [Grammar.Reading.before, ← List.map_append]
  cases (Grammar.programItems [.program] ts).failures ++ (Grammar.programItems [.program] ts).reported with
  | nil => rfl
  | cons d ds =>
    refine congrArg Except.error (List.map_mergeSort fun a _ b _ => ?_).symm
    simp [Diagnostic.before]

lemma read_forget (ts : List Token) (n : OccurrenceId) : (read ts n).1.map forget = parse ts := by
  obtain ⟨-, hread⟩ := read_mirrors ts n
  generalize (read ts n).1 = x at hread
  generalize parse ts = y at hread
  cases hread with
  | ok h => exact congrArg Except.ok h.1
  | error => rfl

/-- **The first end mark is a barrier.**  Whatever stands behind an end mark, the same program is read, with other
numbers for its uses of names at most, or the same diagnostics are found in the same order: each tells the same error,
rules and token, and only counts more tokens to the end of the list. -/
theorem end_mark_barrier (ts junk : List Token) (lexeme : String) (line : Nat) :
    parse (ts ++ [⟨.eof, lexeme, line⟩] ++ junk) =
        (parse (ts ++ [⟨.eof, lexeme, line⟩])).mapError (List.map (·.before junk)) ∧
      ∀ n m, (read (ts ++ [⟨.eof, lexeme, line⟩] ++ junk) n).1.map forget =
        ((read (ts ++ [⟨.eof, lexeme, line⟩]) m).1.map forget).mapError (List.map (·.before junk)) := by
  have hmarked : EndMarked (ts ++ [⟨.eof, lexeme, line⟩]) := endMarked_concat ts rfl
  refine ⟨parse_append hmarked junk, fun n m => ?_⟩
  rw [read_forget, read_forget, parse_append hmarked junk]

end Program

end ScriptLang
