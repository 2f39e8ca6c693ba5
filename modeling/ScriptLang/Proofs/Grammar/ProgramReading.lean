import ScriptLang.Proofs.Grammar.StatementReading
import ScriptLang.Grammar.Program

/-!
# Reading programs

A program is read without a diagnostic exactly if the tokens in front of the first end mark are a row of
declarations, and the program is that row.

* `Phrase.noEnd`, `AreDeclarations.noEnd` — no end mark stands in a sentence;
* `AreDeclarations.programItems_append` — what is read behind a row of declarations;
* `programItems_eq_iff` — what a clean reading of a program has read;
* `parse_iff` — the grammar of programs is exact, and it is not ambiguous.
-/

namespace ScriptLang

open Grammar Outcome

variable {path : Path} {ts us rest : List Token} {t : Token}

/-! ### End marks -/

/-- Whether a token marks the end of the input. -/
def Token.isEnd (t : Token) : Bool :=
  match t.kind with
  | .eof => true
  | _ => false

/-- The tokens in front of the first end mark. -/
def beforeEnd (ts : List Token) : List Token := ts.takeWhile fun t => !t.isEnd

/-- No end mark stands among the tokens. -/
def NoEnd (ts : List Token) : Prop := ∀ t ∈ ts, t.isEnd = false

@[simp] lemma noEnd_nil : NoEnd [] := nofun

@[simp] lemma noEnd_cons : NoEnd (t :: ts) ↔ t.isEnd = false ∧ NoEnd ts := List.forall_mem_cons

@[simp] lemma noEnd_append : NoEnd (ts ++ us) ↔ NoEnd ts ∧ NoEnd us := List.forall_mem_append

lemma isEnd_eq_true_iff : t.isEnd = true ↔ t.kind = .eof := by
  unfold Token.isEnd
  split <;> simp_all

lemma isEnd_symbol {s : Symbol} (h : t.kind = .symbol s) : t.isEnd = false := by
  simp [Token.isEnd, h]

lemma isEnd_keyword {w : Keyword} (h : t.kind = .keyword w) : t.isEnd = false := by
  simp [Token.isEnd, h]

lemma isEnd_identifier (h : t.kind = .identifier) : t.isEnd = false := by
  simp [Token.isEnd, h]

lemma isEnd_joins {l : Level} {op : Operator} (h : Joins l t.kind op) : t.isEnd = false := by
  generalize hk : t.kind = k at h
  cases h <;> first | exact isEnd_symbol hk | exact isEnd_keyword hk

lemma isEnd_leads {op : UnaryOp} (h : Leads t.kind op) : t.isEnd = false := by
  generalize hk : t.kind = k at h
  cases h <;> exact isEnd_symbol hk

lemma isEnd_atom {e : Expr Unit} (h : Atom t e) : t.isEnd = false := by
  cases h <;> simp [Token.isEnd, *]

lemma Listed.noEnd {α : Type} {parts : List (List Token × α)} (h : Listed parts ts) :
    (∀ part ∈ parts, NoEnd part.1) → NoEnd ts := by
  induction h with
  | nil => exact fun _ => noEnd_nil
  | last => exact fun hp => hp _ List.mem_cons_self
  | cons hc _ ih =>
    intro hp
    obtain ⟨hpart, hparts⟩ := List.forall_mem_cons.1 hp
    exact noEnd_append.2 ⟨hpart, noEnd_cons.2 ⟨isEnd_symbol hc, ih hparts⟩⟩

/-! ### Sentences hold no end mark -/

lemma Phrase.noEnd {s : Stratum} {e : Expr Unit} (h : Phrase s ts e) : NoEnd ts := by
  induction h with
  | ofOr _ ih | ofOperand _ ih | ofCall _ ih | ofPrimary _ ih => exact ih
  | assign _ hq _ _ iht ihv => simp [iht, ihv, isEnd_symbol hq]
  | joined _ hj _ ihl ihr => simp [ihl, ihr, isEnd_joins hj]
  | led hl _ ih => simp [ih, isEnd_leads hl]
  | call _ ho _ hlist _ hc ih ihp => simp [ih, isEnd_symbol ho, isEnd_symbol hc, hlist.noEnd ihp]
  | property _ hd hn _ ih => simp [ih, isEnd_symbol hd, isEnd_identifier hn]
  | atom ha => simp [isEnd_atom ha]
  | group ho _ hc ih => simp [ih, isEnd_symbol ho, isEnd_symbol hc]

namespace Grammar

lemma IsExpression.noEnd {e : Expr Unit} (h : IsExpression ts e) : NoEnd ts := (isExpression_iff.1 h).noEnd

lemma IsCondition.noEnd {e : Expr Unit} (h : IsCondition ts e) : NoEnd ts := by
  cases h with
  | mk ho he hc => simp [isEnd_symbol ho, isEnd_symbol hc, he.noEnd]

lemma IsOptional.noEnd {o : Option (Expr Unit)} (h : IsOptional ts o) : NoEnd ts := by
  cases h with
  | none => exact noEnd_nil
  | some he => exact he.noEnd

lemma IsLet.noEnd {s : Stmt Unit} (h : IsLet ts s) : NoEnd ts := by
  cases h with
  | plain hk hn hc => simp [isEnd_keyword hk, isEnd_identifier hn, isEnd_symbol hc]
  | initialized hk hn hq he hc =>
    simp [isEnd_keyword hk, isEnd_identifier hn, isEnd_symbol hq, isEnd_symbol hc, he.noEnd]

lemma IsInitializer.noEnd {o : Option (Stmt Unit)} (h : IsInitializer ts o) : NoEnd ts := by
  cases h with
  | none hc => simp [isEnd_symbol hc]
  | letVar hl => exact hl.noEnd
  | expr he hc => simp [isEnd_symbol hc, he.noEnd]

lemma IsSignature.noEnd {name : Ident} {names : List Ident} (h : IsSignature ts name names) :
    NoEnd ts := by
  cases h with
  | @mk params ts n o c hn ho hp hlist hle hc =>
    have hts : NoEnd ts := hlist.noEnd fun part hpart => by
      obtain ⟨t, ht, rfl⟩ := List.mem_map.1 hpart
      simp [isEnd_identifier (hp t ht)]
    simp [isEnd_identifier hn, isEnd_symbol ho, isEnd_symbol hc, hts]

lemma IsHeading.noEnd {name : Ident} {parent : Option (Occurrence Unit)} (h : IsHeading ts name parent) :
    NoEnd ts := by
  cases h with
  | plain hn => simp [isEnd_identifier hn]
  | extending hn hk hp => simp [isEnd_identifier hn, isEnd_keyword hk, isEnd_identifier hp]

mutual

theorem IsStatement.noEnd : ∀ {d : Bool} {ts : List Token} {s : Stmt Unit}, IsStatement d ts s → NoEnd ts
  | _, _, _, .expr he hc => by simp [he.noEnd, isEnd_symbol hc]
  | _, _, _, .print hk he hc => by simp [isEnd_keyword hk, he.noEnd, isEnd_symbol hc]
  | _, _, _, .return hk ho hc => by simp [isEnd_keyword hk, ho.noEnd, isEnd_symbol hc]
  | _, _, _, .block ho hs hc => by simp [isEnd_symbol ho, hs.noEnd, isEnd_symbol hc]
  | _, _, _, .ifThen hk hc hs => by simp [isEnd_keyword hk, hc.noEnd, hs.noEnd]
  | _, _, _, .ifElse hk hc hy ho hn => by
    simp [isEnd_keyword hk, hc.noEnd, hy.noEnd, isEnd_keyword ho, hn.noEnd]
  | _, _, _, .while hk hc hs => by simp [isEnd_keyword hk, hc.noEnd, hs.noEnd]
  | _, _, _, .for hk ho hi hcs hm hns hc hs _ _ _ => by
    simp [isEnd_keyword hk, isEnd_symbol ho, hi.noEnd, hcs.noEnd, isEnd_symbol hm, hns.noEnd,
      isEnd_symbol hc, hs.noEnd]

theorem IsDeclaration.noEnd : ∀ {d : Bool} {ts : List Token} {s : Stmt Unit},
    IsDeclaration d ts s → NoEnd ts
  | _, _, _, .statement hs => hs.noEnd
  | _, _, _, .letVar hl => hl.noEnd
  | _, _, _, .constVar hk hn hq he hc => by
    simp [isEnd_keyword hk, isEnd_identifier hn, isEnd_symbol hq, he.noEnd, isEnd_symbol hc]
  | _, _, _, .function hk hf => by simp [isEnd_keyword hk, hf.noEnd]
  | _, _, _, .classDecl hk hh ho hm hc => by
    simp [isEnd_keyword hk, hh.noEnd, isEnd_symbol ho, hm.noEnd, isEnd_symbol hc]

theorem AreDeclarations.noEnd : ∀ {ts : List Token} {ss : List (Stmt Unit)},
    AreDeclarations ts ss → NoEnd ts
  | _, _, .nil => noEnd_nil
  | _, _, .cons hs hss => noEnd_append.2 ⟨hs.noEnd, hss.noEnd⟩

theorem IsFunction.noEnd : ∀ {ts : List Token} {f : Method}, IsFunction ts f → NoEnd ts
  | _, _, .mk hs ho hb hc => by simp [hs.noEnd, isEnd_symbol ho, hb.noEnd, isEnd_symbol hc]

theorem AreMembers.noEnd : ∀ {ts : List Token} {methods statics : List Method},
    AreMembers ts methods statics → NoEnd ts
  | _, _, _, .nil => noEnd_nil
  | _, _, _, .method hf hm => noEnd_append.2 ⟨hf.noEnd, hm.noEnd⟩
  | _, _, _, .static hk hf hm => by simp [isEnd_keyword hk, hf.noEnd, hm.noEnd]

end

/-! ### Whole programs -/

/-- The tokens start with an end mark, or there are none. -/
def AtEnd (ts : List Token) : Prop := ∀ t ∈ ts.head?, t.isEnd = true

lemma programItems_atEnd (h : AtEnd ts) : programItems path ts = ⟨[], [], []⟩ := by
  rcases ts with _ | ⟨t, us⟩
  · rw [programItems]
  · rw [programItems.eq_def]
    simp [isEnd_eq_true_iff.1 (h t rfl)]

/-- The reading of what stands behind a program that was read without a diagnostic. -/
def Reading.behind (P : Program Unit) (r : Reading) : Reading := { r with program := P ++ r.program }

/-- A declaration that is read without a diagnostic only stands in front of what the rest is read as. -/
lemma programItems_reads {s : Stmt Unit} (ht : t.isEnd = false)
    (h : (declaration path (t :: us)).Reads s rest) :
    programItems path (t :: us) = (programItems path rest).behind [s] := by
  have hk : t.kind ≠ .eof := fun hk => by rw [isEnd_eq_true_iff.2 hk] at ht; cases ht
  obtain ⟨p, hp, rfl, rfl⟩ := h
  unfold Yields at hp
  rw [programItems_round hk, hp]
  rfl

/-- One declaration of a program, and the reading of the rest, if nothing is reported. -/
lemma programItems_step {P : Program Unit} (ht : t.isEnd = false) :
    programItems path (t :: us) = ⟨P, [], []⟩ ↔
      ∃ s mid, (declaration path (t :: us)).Reads s mid ∧
        ∃ Q, programItems path mid = ⟨Q, [], []⟩ ∧ s :: Q = P := by
  have hk : t.kind ≠ .eof := fun hk => by rw [isEnd_eq_true_iff.2 hk] at ht; cases ht
  constructor
  · intro h
    rw [programItems_round hk] at h
    rcases hr : (declaration path (t :: us)).result with d | p
    · simp [hr, Reading.after] at h
    · simp only [hr, Reading.after, Reading.mk.injEq, List.append_eq_nil_iff] at h
      obtain ⟨rfl, hf, hfirst, hreported⟩ := h
      have hQ : programItems path p.rest = ⟨(programItems path p.rest).program, [], []⟩ := by
        generalize programItems path p.rest = reading at hf hreported
        obtain ⟨program, _, _⟩ := reading
        obtain rfl : _ = [] := hf
        obtain rfl : _ = [] := hreported
        rfl
      have hp : (declaration path (t :: us)).Yields p := by
        unfold Yields
        rw [← hr, ← hfirst]
      exact ⟨p.value, p.rest, reads_of_yields hp, _, hQ, rfl⟩
  · rintro ⟨s, mid, hs, Q, hQ, rfl⟩
    rw [programItems_reads ht hs, hQ]
    rfl

lemma programItems_sound {P : Program Unit} (h : programItems path ts = ⟨P, [], []⟩) :
    ∃ us rest, ts = us ++ rest ∧ AreDeclarations us P ∧ AtEnd rest := by
  induction hm : ts.length using Nat.strongRecOn generalizing ts P with
  | _ m ih =>
  subst hm
  by_cases hend : AtEnd ts
  · rw [programItems_atEnd hend] at h
    obtain ⟨rfl, -, -⟩ := Reading.mk.inj h
    exact ⟨[], ts, rfl, .nil, hend⟩
  · obtain ⟨t, us, rfl, ht⟩ : ∃ t us, ts = t :: us ∧ t.isEnd = false := by
      rcases ts with _ | ⟨t, us⟩
      · exact absurd nofun hend
      · exact ⟨t, us, rfl, by simpa [AtEnd] using hend⟩
    obtain ⟨s, mid, hd, Q, hQ, rfl⟩ := (programItems_step ht).1 h
    have hlt := hd.length_lt
    obtain ⟨vs, d, hts, hvs, -⟩ := declaration_sound hd
    obtain ⟨ws, rest, rfl, hws, hrest⟩ := ih _ hlt hQ rfl
    exact ⟨vs ++ ws, rest, by rw [hts, List.append_assoc], .cons hvs hws, hrest⟩

lemma AtEnd.noElse (h : AtEnd rest) : NoElse rest := by
  intro t ht hk
  have hend := h t ht
  rw [isEnd_keyword hk] at hend
  cases hend

/-- **A row of declarations has no part in how the tokens behind it are read**, if they do not go on with an
`else`. -/
lemma AreDeclarations.programItems_append (hr : NoElse rest) : ∀ {us : List Token} {P : Program Unit},
    AreDeclarations us P → programItems path (us ++ rest) = (programItems path rest).behind P
  | _, _, .nil => rfl
  | _, _, @AreDeclarations.cons d ts s us ss hs hss => by
    have hd : (declaration path (ts ++ (us ++ rest))).Reads s (us ++ rest) :=
      hs.reads fun _ => hss.noElse hr
    have hend := hs.noEnd
    obtain ⟨t, vs, rfl, hb⟩ := hs.begins
    rw [List.append_assoc, List.cons_append]
    exact (programItems_reads (noEnd_cons.1 hend).1 hd).trans (by rw [hss.programItems_append hr]; rfl)

lemma AreDeclarations.programItems_eq {P : Program Unit} (h : AreDeclarations us P) (hr : AtEnd rest) :
    programItems path (us ++ rest) = ⟨P, [], []⟩ := by
  rw [h.programItems_append hr.noElse, programItems_atEnd hr, Reading.behind, List.append_nil]

lemma beforeEnd_append (hu : NoEnd us) (hr : AtEnd rest) : beforeEnd (us ++ rest) = us := by
  unfold beforeEnd
  rw [List.takeWhile_append_of_pos (by simpa [NoEnd] using hu)]
  rcases rest with _ | ⟨t, ts⟩
  · simp
  · simp [hr t rfl]

lemma exists_eq_beforeEnd (ts : List Token) : ∃ rest, ts = beforeEnd ts ++ rest ∧ AtEnd rest := by
  refine ⟨ts.dropWhile fun t => !t.isEnd, List.takeWhile_append_dropWhile.symm, ?_⟩
  intro t ht
  have hnot := List.head?_dropWhile_not (fun t : Token => !t.isEnd) ts
  rw [Option.mem_def.1 ht] at hnot
  simpa using hnot

lemma programItems_eq_iff {P : Program Unit} :
    programItems path ts = ⟨P, [], []⟩ ↔ AreDeclarations (beforeEnd ts) P := by
  constructor
  · intro h
    obtain ⟨us, rest, rfl, hus, hrest⟩ := programItems_sound h
    rwa [beforeEnd_append hus.noEnd hrest]
  · intro h
    obtain ⟨rest, hts, hrest⟩ := exists_eq_beforeEnd ts
    rw [hts]
    exact h.programItems_eq hrest

lemma beforeEnd_of_noEnd (h : NoEnd us) : beforeEnd us = us := by
  have hb : beforeEnd (us ++ []) = us := beforeEnd_append h nofun
  rwa [List.append_nil] at hb

end Grammar

lemma parse_eq_ok_iff {P : Program Unit} :
    Program.parse ts = .ok P ↔ programItems [.program] ts = ⟨P, [], []⟩ := by
  unfold Program.parse
  obtain ⟨program, failures, reported⟩ := programItems [.program] ts
  simp only [Reading.mk.injEq]
  split
  · next h =>
    obtain ⟨rfl, rfl⟩ := List.append_eq_nil_iff.1 h
    simp
  · next h =>
    refine iff_of_false nofun ?_
    rintro ⟨-, rfl, rfl⟩
    exact h rfl

lemma parse_ok_iff {P : Program Unit} : Program.parse ts = .ok P ↔ AreDeclarations (beforeEnd ts) P :=
  parse_eq_ok_iff.trans programItems_eq_iff

/-- **The grammar of programs is exact**: tokens are read as a program without a diagnostic exactly if those
in front of the first end mark are a row of declarations that forms it.  It is not ambiguous either. -/
theorem Program.parse_iff (ts : List Token) (P : Program Unit) :
    (Program.parse ts = .ok P ↔ AreDeclarations (beforeEnd ts) P) ∧
    ∀ us P Q, AreDeclarations us P → AreDeclarations us Q → P = Q := by
  refine ⟨parse_ok_iff, fun us P Q hP hQ => ?_⟩
  have hP' := parse_ok_iff.2 ((beforeEnd_of_noEnd hP.noEnd).symm ▸ hP)
  have hQ' := parse_ok_iff.2 ((beforeEnd_of_noEnd hQ.noEnd).symm ▸ hQ)
  exact Except.ok.inj (hP'.symm.trans hQ')

end ScriptLang
