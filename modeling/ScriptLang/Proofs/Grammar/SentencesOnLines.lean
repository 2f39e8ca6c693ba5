import ScriptLang.Proofs.Grammar.ProgramReading
import ScriptLang.Proofs.Tree.OtherLines

/-!
# Sentences on other lines

The grammar does not look at lines: the same tokens on other lines form the same tree on these lines.  A row
of declarations may be cut between any two of them.

* `Token.reline` — a token on another line;
* `Phrase.reline`, `IsStatement.reline`, … — sentences on other lines;
* `AreDeclarations.append` — one row of declarations behind another;
* `parse_append` — reading two programs as one.
-/

namespace ScriptLang

open Grammar

variable {f : Nat → Nat} {ts us : List Token} {t : Token} {e : Expr Unit} {s : Stmt Unit}

/-- The same token on another line. -/
def Token.reline (f : Nat → Nat) (t : Token) : Token := { t with line := f t.line }

lemma relabelList_eq_map {ι κ : Type} {g : ι → κ} (es : List (Expr ι)) :
    Expr.relabelList f g es = es.map fun e => e.relabel f g := by
  induction es with
  | nil => rfl
  | cons e es ih => rw [Expr.relabelList, ih, List.map_cons]

/-! ### Expressions -/

lemma Atom.reline (h : Atom t e) : Atom (t.reline f) (e.relabel f id) := by
  cases h with
  | number h => exact .number h
  | string h => exact .string h
  | trueLit h => exact .trueLit h
  | falseLit h => exact .falseLit h
  | null h => exact .null h
  | identifier h => exact .identifier h
  | this h => exact .this h
  | super h => exact .super h

lemma Assigns.reline {target value : Expr Unit} (h : Assigns target value e) :
    Assigns (target.relabel f id) (value.relabel f id) (e.relabel f id) := by
  cases h with
  | «variable» => exact .variable
  | property => exact .property
  | superProperty => exact .superProperty

lemma Selects.reline {name : Ident} {object : Expr Unit} (h : Selects name object e) :
    Selects (name.relabel f) (object.relabel f id) (e.relabel f id) := by
  cases h with
  | super => exact .super
  | get hnot =>
    refine .get fun use huse => ?_
    cases object with
    | name kind o =>
      cases huse
      exact hnot o rfl
    | _ => cases huse

lemma Listed.reline {α β : Type} {g : α → β} {parts : List (List Token × α)} (h : Listed parts ts) :
    Listed (parts.map fun part => (part.1.map (Token.reline f), g part.2)) (ts.map (Token.reline f)) := by
  induction h with
  | nil => exact .nil
  | last => exact .last
  | cons hc _ ih =>
    rw [List.map_cons, List.map_append, List.map_cons]
    exact .cons hc ih

lemma Operator.relabel_apply (op : Operator) (line : Nat) (left right : Expr Unit) :
    (op.apply line left right).relabel f id = op.apply (f line) (left.relabel f id) (right.relabel f id) := by
  cases op <;> rfl

/-- Tokens on other lines form the same expression on these lines. -/
lemma Phrase.reline {stratum : Stratum} (h : Phrase stratum ts e) :
    Phrase stratum (ts.map (Token.reline f)) (e.relabel f id) := by
  induction h with
  | ofOr _ ih => exact .ofOr ih
  | ofOperand _ ih => exact .ofOperand ih
  | ofCall _ ih => exact .ofCall ih
  | ofPrimary _ ih => exact .ofPrimary ih
  | assign _ hq _ ha iht ihv =>
    rw [List.map_append, List.map_cons]
    exact .assign iht hq ihv ha.reline
  | joined _ hj _ ihl ihr =>
    rw [List.map_append, List.map_cons, Operator.relabel_apply]
    exact .joined ihl hj ihr
  | led hl _ ih => exact .led hl ih
  | @call ts us callee parts opening closing _ ho _ hlist hle hc ih ihp =>
    have hargs : Expr.relabelList f id (parts.map (·.2)) =
        (parts.map fun part => (part.1.map (Token.reline f), part.2.relabel f id)).map (·.2) := by
      rw [relabelList_eq_map, List.map_map, List.map_map]
      rfl
    simp only [List.map_append, List.map_cons, List.map_nil]
    rw [Expr.relabel, hargs]
    refine @Phrase.call _ _ _ _ _ (closing.reline f) ih ho (fun part hpart => ?_) hlist.reline
      (by rwa [List.length_map]) hc
    obtain ⟨q, hq, rfl⟩ := List.mem_map.1 hpart
    exact ihp q hq
  | property _ hd hn hsel ih =>
    rw [List.map_append]
    exact .property ih hd hn hsel.reline
  | atom ha => exact .atom ha.reline
  | group ho _ hc ih =>
    simp only [List.map_append, List.map_cons, List.map_nil]
    exact .group ho ih hc

/-! ### Statements -/

namespace Grammar

lemma IsExpression.reline (h : IsExpression ts e) :
    IsExpression (ts.map (Token.reline f)) (e.relabel f id) :=
  isExpression_iff.2 (isExpression_iff.1 h).reline

lemma IsCondition.reline (h : IsCondition ts e) : IsCondition (ts.map (Token.reline f)) (e.relabel f id) := by
  cases h with
  | mk ho he hc =>
    simp only [List.map_append, List.map_cons, List.map_nil]
    exact .mk ho he.reline hc

lemma IsOptional.reline {o : Option (Expr Unit)} (h : IsOptional ts o) :
    IsOptional (ts.map (Token.reline f)) (o.map fun e => e.relabel f id) := by
  cases h with
  | none => exact .none
  | some he => exact .some he.reline

lemma IsLet.reline (h : IsLet ts s) : IsLet (ts.map (Token.reline f)) (s.relabel f id) := by
  cases h with
  | plain hk hn hs => exact @IsLet.plain _ (Token.reline f _) _ hk hn hs
  | initialized hk hn hq he hs =>
    simp only [List.map_append, List.map_cons, List.map_nil]
    exact @IsLet.initialized _ _ _ (Token.reline f _) _ _ hk hn hq he.reline hs

lemma IsInitializer.reline {o : Option (Stmt Unit)} (h : IsInitializer ts o) :
    IsInitializer (ts.map (Token.reline f)) (o.map fun s => s.relabel f id) := by
  cases h with
  | none hs => exact .none hs
  | letVar hl => exact .letVar hl.reline
  | expr he hs =>
    rw [List.map_append]
    exact .expr he.reline hs

lemma IsSignature.reline {name : Ident} {names : List Ident} (h : IsSignature ts name names) :
    IsSignature (ts.map (Token.reline f)) (name.relabel f) (names.map (Ident.relabel f)) := by
  cases h with
  | @mk names ts name opening closing hn ho hp hlist hle hc =>
    have hparams : (names.map Token.ident).map (Ident.relabel f) =
        (names.map (Token.reline f)).map Token.ident := by
      rw [List.map_map, List.map_map]
      rfl
    have hlist' : Listed ((names.map (Token.reline f)).map fun t => ([t], t)) (ts.map (Token.reline f)) := by
      have h := hlist.reline (f := f) (g := Token.reline f)
      rw [List.map_map] at h ⊢
      exact h
    simp only [List.map_append, List.map_cons, List.map_nil]
    rw [hparams]
    refine @IsSignature.mk _ _ (Token.reline f name) _ _ hn ho (fun t ht => ?_) hlist' (by rwa [List.length_map]) hc
    obtain ⟨u, hu, rfl⟩ := List.mem_map.1 ht
    exact hp u hu

lemma IsHeading.reline {name : Ident} {parent : Option (Occurrence Unit)} (h : IsHeading ts name parent) :
    IsHeading (ts.map (Token.reline f)) (name.relabel f) (parent.map fun use => use.relabel f id) := by
  cases h with
  | plain hn => exact @IsHeading.plain (Token.reline f _) hn
  | extending hn hk hp => exact @IsHeading.extending (Token.reline f _) _ (Token.reline f _) hn hk hp

lemma LoopTest.reline {o : Option (Expr Unit)} (h : LoopTest o e) :
    LoopTest (o.map fun e => e.relabel f id) (e.relabel f id) := by
  cases h with
  | always => exact .always
  | test => exact .test

lemma LoopBody.reline {o : Option (Expr Unit)} {body : Stmt Unit} (h : LoopBody s o body) :
    LoopBody (s.relabel f id) (o.map fun e => e.relabel f id) (body.relabel f id) := by
  cases h with
  | plain => exact .plain
  | increment => exact .increment

lemma LoopFrame.reline {o : Option (Stmt Unit)} {tree : Stmt Unit} (h : LoopFrame s o tree) :
    LoopFrame (s.relabel f id) (o.map fun s => s.relabel f id) (tree.relabel f id) := by
  cases h with
  | plain => exact .plain
  | initialized => exact .initialized

mutual

theorem IsStatement.reline : ∀ {d : Bool} {ts : List Token} {s : Stmt Unit}, IsStatement d ts s →
    IsStatement d (ts.map (Token.reline f)) (s.relabel f id)
  | _, _, _, .expr he hs => by
    rw [List.map_append]
    exact .expr he.reline hs
  | _, _, _, .print hk he hs => by
    rw [List.map_cons, List.map_append]
    exact .print hk he.reline hs
  | _, _, _, .return hk ho hs => by
    rw [List.map_cons, List.map_append]
    exact @IsStatement.return _ _ (Token.reline f _) _ hk ho.reline hs
  | _, _, _, .block ho hb hc => by
    rw [List.map_cons, List.map_append]
    exact .block ho hb.reline hc
  | _, _, _, .ifThen hk hc hs => by
    rw [List.map_cons, List.map_append]
    exact .ifThen hk hc.reline hs.reline
  | _, _, _, .ifElse hk hc hy he hn => by
    rw [List.map_cons, List.map_append, List.map_append, List.map_cons]
    exact .ifElse hk hc.reline hy.reline he hn.reline
  | _, _, _, .while hk hc hs => by
    rw [List.map_cons, List.map_append]
    exact .while hk hc.reline hs.reline
  | _, _, _, .for hk ho hi hc hsemi hn hclose hs ht hb hl => by
    simp only [List.map_cons, List.map_append]
    exact .for hk ho hi.reline hc.reline hsemi hn.reline hclose hs.reline ht.reline hb.reline hl.reline

theorem IsDeclaration.reline : ∀ {d : Bool} {ts : List Token} {s : Stmt Unit}, IsDeclaration d ts s →
    IsDeclaration d (ts.map (Token.reline f)) (s.relabel f id)
  | _, _, _, .statement h => .statement h.reline
  | _, _, _, .letVar hl => .letVar hl.reline
  | _, _, _, .constVar hk hn hq he hs => by
    simp only [List.map_cons, List.map_append, List.map_nil]
    exact @IsDeclaration.constVar _ _ _ (Token.reline f _) _ _ hk hn hq he.reline hs
  | _, _, _, .function hk hf => by
    rw [List.map_cons]
    exact .function hk hf.reline
  | _, _, _, .classDecl hk hh ho hm hc => by
    simp only [List.map_cons, List.map_append, List.map_nil]
    exact .classDecl hk hh.reline ho hm.reline hc

/-- **Declarations on other lines.** -/
theorem AreDeclarations.reline : ∀ {ts : List Token} {ss : List (Stmt Unit)}, AreDeclarations ts ss →
    AreDeclarations (ts.map (Token.reline f)) (Stmt.relabelList f id ss)
  | _, _, .nil => .nil
  | _, _, .cons h hss => by
    rw [List.map_append]
    exact .cons h.reline hss.reline

theorem IsFunction.reline : ∀ {ts : List Token} {d : Method}, IsFunction ts d →
    IsFunction (ts.map (Token.reline f)) (FunctionDecl.relabel f id d)
  | _, _, .mk hsig ho hb hc => by
    simp only [List.map_cons, List.map_append, List.map_nil]
    exact .mk hsig.reline ho hb.reline hc

theorem AreMembers.reline : ∀ {ts : List Token} {methods statics : List Method},
    AreMembers ts methods statics → AreMembers (ts.map (Token.reline f))
      (FunctionDecl.relabelList f id methods) (FunctionDecl.relabelList f id statics)
  | _, _, _, .nil => .nil
  | _, _, _, .method hf hm => by
    rw [List.map_append]
    exact .method hf.reline hm.reline
  | _, _, _, .static hk hf hm => by
    rw [List.map_cons, List.map_append]
    exact .static hk hf.reline hm.reline

end

/-! ### Programs -/

theorem AreDeclarations.append {ss' : List (Stmt Unit)} (h' : AreDeclarations us ss') :
    ∀ {ts : List Token} {ss : List (Stmt Unit)}, AreDeclarations ts ss →
      AreDeclarations (ts ++ us) (ss ++ ss')
  | _, _, .nil => h'
  | _, _, .cons h hss => by
    rw [List.append_assoc]
    exact .cons h (h'.append hss)

lemma beforeEnd_append_of_noEnd (h : NoEnd ts) : beforeEnd (ts ++ us) = ts ++ beforeEnd us := by
  unfold beforeEnd
  rw [List.takeWhile_append_of_pos fun t ht => by rw [h t ht]; rfl]

lemma beforeEnd_reline : beforeEnd (us.map (Token.reline f)) = (beforeEnd us).map (Token.reline f) := by
  unfold beforeEnd
  rw [List.takeWhile_map]
  rfl

end Grammar

/-- **Two programs are read as one**, with the end mark between them left out and the second on other
lines. -/
theorem parse_append {P Q : Program Unit} (f : Nat → Nat) (hts : NoEnd ts) (ht : t.kind = .eof)
    (hP : Program.parse (ts ++ [t]) = .ok P) (hQ : Program.parse us = .ok Q) :
    Program.parse (ts ++ us.map (Token.reline f)) = .ok (P ++ Stmt.relabelList f id Q) := by
  have hend : beforeEnd [t] = [] := by
    rw [beforeEnd, List.takeWhile_cons_of_neg]
    rw [isEnd_eq_true_iff.2 ht]
    exact Bool.false_ne_true
  rw [parse_ok_iff, beforeEnd_append_of_noEnd hts, hend, List.append_nil] at hP
  rw [parse_ok_iff, beforeEnd_append_of_noEnd hts, beforeEnd_reline]
  exact (parse_ok_iff.1 hQ).reline.append hP

end ScriptLang
