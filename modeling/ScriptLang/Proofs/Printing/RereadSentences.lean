import ScriptLang.Proofs.Printing.Rereading

/-!
# Reading a program again

The tokens of a program's text, on whatever lines they stand, form the program again, up to lines, if there are no
operators in it.  A statement that could take an `else` is no branch in front of one, and neither is it when it is
read again, since its text can take an `else` only if the statement could.

* `Stmt.parts` — the expressions in a statement;
* `Stmt.unlined` — a statement without its lines;
* `IsStatement.reread`, … — sentences of each kind;
* `AreDeclarations.reread` — the theorem.
-/

namespace ScriptLang

variable {ι : Type} {ts us : List Token} {s : Stmt Unit} {e : Expr Unit} {d : Bool}

/-! ### Expressions in a program -/

/-- The expressions in one that may be missing. -/
def Expr.partsOption : Option (Expr ι) → List (Expr ι)
  | none => []
  | some e => e.parts

mutual

/-- The expressions in a statement. -/
def Stmt.parts : Stmt ι → List (Expr ι)
  | .expr e => e.parts
  | .print e => e.parts
  | .letVar _ value => Expr.partsOption value
  | .constVar _ value => value.parts
  | .block body => Stmt.partsList body
  | .ifThen condition yes => condition.parts ++ yes.parts
  | .ifElse condition yes no => condition.parts ++ (yes.parts ++ no.parts)
  | .while condition body => condition.parts ++ body.parts
  | .function decl => FunctionDecl.parts decl
  | .return _ value => Expr.partsOption value
  | .classDecl _ _ methods statics => FunctionDecl.partsList methods ++ FunctionDecl.partsList statics

/-- The expressions in several statements. -/
def Stmt.partsList : List (Stmt ι) → List (Expr ι)
  | [] => []
  | s :: ss => s.parts ++ Stmt.partsList ss

/-- The expressions in a function. -/
def FunctionDecl.parts : FunctionDecl (Stmt ι) → List (Expr ι)
  | ⟨_, _, body⟩ => Stmt.partsList body

/-- The expressions in several functions. -/
def FunctionDecl.partsList : List (FunctionDecl (Stmt ι)) → List (Expr ι)
  | [] => []
  | d :: ds => FunctionDecl.parts d ++ FunctionDecl.partsList ds

end

/-! ### Programs without lines -/

/-- The statement without its lines. -/
def Stmt.unlined (s : Stmt ι) : Stmt ι := s.relabel (fun _ => 0) id

/-- The statements without their lines. -/
def Stmt.unlinedList (ss : List (Stmt ι)) : List (Stmt ι) := Stmt.relabelList (fun _ => 0) id ss

/-- The function without its lines. -/
def FunctionDecl.unlined (d : FunctionDecl (Stmt ι)) : FunctionDecl (Stmt ι) := FunctionDecl.relabel (fun _ => 0) id d

/-- The functions without their lines. -/
def FunctionDecl.unlinedList (ds : List (FunctionDecl (Stmt ι))) : List (FunctionDecl (Stmt ι)) :=
  FunctionDecl.relabelList (fun _ => 0) id ds

/-! ### What is read again -/

open Grammar Piece

/-- The text of the expression is read as the expression. -/
def Expr.Rereads (e : Expr Unit) : Prop :=
  ∀ us, AreTokensOf us e.pieces → ∃ e', IsExpression us e' ∧ e'.unlined = e.unlined

/-- The text of the statement is read as the statement; it can take an `else` only as the flag says. -/
def Stmt.Rereads (d : Bool) (s : Stmt Unit) : Prop :=
  ∀ us, AreTokensOf us s.pieces → ∃ d' s', IsStatement d' us s' ∧ (d' = true → d = true) ∧ s'.unlined = s.unlined

/-- The text of the declaration is read as the declaration. -/
def Stmt.RereadsDeclared (s : Stmt Unit) : Prop :=
  ∀ us, AreTokensOf us s.pieces → ∃ d' s', IsDeclaration d' us s' ∧ s'.unlined = s.unlined

/-- The text of the declarations is read as the declarations. -/
def Stmt.RereadsList (ss : List (Stmt Unit)) : Prop :=
  ∀ us, AreTokensOf us (Stmt.linePieces ss) → ∃ ss', AreDeclarations us ss' ∧ Stmt.unlinedList ss' = Stmt.unlinedList ss

/-- The text of the function is read as the function. -/
def FunctionDecl.Rereads (d : Method) : Prop :=
  ∀ us, AreTokensOf us (FunctionDecl.pieces d) →
    ∃ d', IsFunction us d' ∧ FunctionDecl.unlined d' = FunctionDecl.unlined d

/-- The texts of methods are read as the methods, in front of static ones. -/
def FunctionDecl.RereadsMethods (ds : List Method) : Prop :=
  ∀ us vs statics, AreTokensOf us (FunctionDecl.linePieces [] ds) → AreMembers vs [] statics →
    ∃ ds', AreMembers (us ++ vs) ds' statics ∧ FunctionDecl.unlinedList ds' = FunctionDecl.unlinedList ds

/-- The texts of static methods are read as static methods. -/
def FunctionDecl.RereadsStatics (ds : List Method) : Prop :=
  ∀ us, AreTokensOf us (FunctionDecl.linePieces [keyword .staticKw, space] ds) →
    ∃ ds', AreMembers us [] ds' ∧ FunctionDecl.unlinedList ds' = FunctionDecl.unlinedList ds

/-! ### Parts of sentences -/

/-- A condition stands between parentheses. -/
lemma Expr.Rereads.condition (he : e.Rereads) (hus : AreTokensOf us (inParens e.pieces)) :
    ∃ e', IsCondition us e' ∧ e'.unlined = e.unlined := by
  obtain ⟨o, vs, c, rfl, ho, hvs, hc⟩ := hus.inParens
  obtain ⟨e', he', heq⟩ := he vs hvs
  exact ⟨e', .mk ho he' hc, heq⟩

/-- An expression with a semicolon behind it. -/
lemma Expr.Rereads.terminated (he : e.Rereads) (hus : AreTokensOf us (e.pieces ++ [symbol .semicolon])) :
    ∃ vs e' semicolon, us = vs ++ [semicolon] ∧ IsExpression vs e' ∧ semicolon.kind = .symbol .semicolon ∧
      e'.unlined = e.unlined := by
  obtain ⟨vs, semicolon, rfl, hvs, hsemicolon⟩ := hus.closed
  obtain ⟨e', he', heq⟩ := he vs hvs
  exact ⟨vs, e', semicolon, rfl, he', hsemicolon, heq⟩

/-- The constant that stands for a missing condition. -/
lemma true_reread : Expr.Rereads (.literal (.bool true)) := by
  intro us hus
  obtain ⟨e', hphrase, heq⟩ := literal_reread (fun _ => .trueLit) us hus
  have hcall : Phrase .call us e' := .ofPrimary hphrase
  have htight : Phrase (.level .addition) us e' := .ofOperand (.ofOperand (.ofOperand (.ofOperand (.ofCall hcall))))
  exact ⟨e', isExpression_iff.2 (.ofOr (.ofOperand (.ofOperand (.ofOperand (.ofOperand htight))))), heq⟩

/-- The parameters of a function. -/
lemma params_reread {params : List Ident} (hus : AreTokensOf us (withCommas (params.map fun p => [.name p.text]))) :
    ∃ names : List Token, (∀ t ∈ names, t.kind = .identifier) ∧ Listed (names.map fun t => ([t], t)) us ∧
      names.map (fun t => t.ident.unlined) = params.map Ident.unlined := by
  have hname : ∀ p ∈ params, ∀ us, AreTokensOf us [.name p.text] →
      ∃ t : Token, (us = [t] ∧ t.kind = .identifier) ∧ t.ident.unlined = p.unlined := by
    intro p _ us hus
    obtain ⟨t, vs, rfl, hkind, hlexeme, hvs⟩ := hus.name
    obtain rfl := hvs.nil
    exact ⟨t, ⟨rfl, hkind⟩, ident_unlined hlexeme⟩
  obtain ⟨parts, hparts, hlist, hmap⟩ := listed_reread hname hus
  refine ⟨parts.map (·.2), fun t ht => ?_, ?_, ?_⟩
  · obtain ⟨part, hpart, rfl⟩ := List.mem_map.1 ht
    exact (hparts part hpart).2
  · have hsame : parts.map (fun part => ([part.2], part.2)) = parts.map id :=
      List.map_congr_left fun part hpart => Prod.ext (hparts part hpart).1.symm rfl
    rw [List.map_id] at hsame
    rw [List.map_map]
    exact hsame.symm ▸ hlist
  · rw [List.map_map]
    exact hmap

/-- The name of a class and the class that it extends. -/
lemma heading_reread {name : Ident} {parent : Option (Occurrence Unit)} {ps : List Piece}
    (hus : AreTokensOf us (.name name.text :: (extendsPieces parent ++ ps))) :
    ∃ hs vs name' parent', us = hs ++ vs ∧ IsHeading hs name' parent' ∧ AreTokensOf vs ps ∧
      name'.unlined = name.unlined ∧ parent'.map Occurrence.unlined = parent.map Occurrence.unlined := by
  obtain ⟨t, vs, rfl, hkind, hlexeme, hvs⟩ := hus.name
  cases parent with
  | none => exact ⟨[t], vs, t.ident, none, rfl, .plain hkind, hvs, ident_unlined hlexeme, rfl⟩
  | some use =>
    obtain ⟨w, xs, rfl, hw, hxs⟩ := hvs.space.keyword
    obtain ⟨u, ys, rfl, hu, hlexeme', hys⟩ := hxs.space.name
    exact ⟨[t, w, u], ys, t.ident, some u.use, rfl, .extending hkind hw hu, hys, ident_unlined hlexeme,
      congrArg some (use_unlined hlexeme')⟩

/-! ### Sentences from their parts -/

namespace Stmt.Rereads

lemma declared (h : Stmt.Rereads d s) : s.RereadsDeclared := by
  intro us hus
  obtain ⟨d', s', hs', -, heq⟩ := h us hus
  exact ⟨d', s', .statement hs', heq⟩

lemma expr (he : e.Rereads) : Stmt.Rereads d (.expr e) := by
  intro us hus
  obtain ⟨vs, e', semicolon, rfl, he', hsemicolon, heq⟩ := he.terminated hus
  exact ⟨false, .expr e', .expr he' hsemicolon, nofun, congrArg Stmt.expr heq⟩

lemma print (he : e.Rereads) : Stmt.Rereads d (.print e) := by
  intro us hus
  obtain ⟨w, us, rfl, hw, hus⟩ := AreTokensOf.keyword hus
  obtain ⟨vs, e', semicolon, rfl, he', hsemicolon, heq⟩ := he.terminated hus.space
  exact ⟨false, .print e', .print hw he' hsemicolon, nofun, congrArg Stmt.print heq⟩

lemma «return» {line : Nat} {o : Option (Expr Unit)} (ho : ∀ e ∈ o, e.Rereads) :
    Stmt.Rereads d (.return line o) := by
  intro us hus
  obtain ⟨w, us, rfl, hw, hus⟩ := AreTokensOf.keyword hus
  cases o with
  | none =>
    obtain ⟨vs, semicolon, rfl, hvs, hsemicolon⟩ := hus.closed
    obtain rfl := hvs.nil
    exact ⟨false, .return w.line none, .return hw .none hsemicolon, nofun, rfl⟩
  | some e =>
    obtain ⟨vs, e', semicolon, rfl, he', hsemicolon, heq⟩ := (ho e rfl).terminated hus.space
    exact ⟨false, .return w.line (some e'), .return hw (.some he') hsemicolon, nofun,
      congrArg (fun e => Stmt.return 0 (some e)) heq⟩

lemma block {ss : List (Stmt Unit)} (h : Stmt.RereadsList ss) : Stmt.Rereads d (.block ss) := by
  intro us hus
  obtain ⟨o, vs, c, rfl, ho, hvs, hc⟩ := AreTokensOf.inBraces hus
  obtain ⟨ss', hss', heq⟩ := h vs hvs
  exact ⟨false, .block ss', .block ho hss' hc, nofun, congrArg Stmt.block heq⟩

lemma «while» (hc : e.Rereads) (hs : Stmt.Rereads d s) : Stmt.Rereads d (.while e s) := by
  intro us hus
  obtain ⟨w, us, rfl, hw, hus⟩ := AreTokensOf.keyword hus
  obtain ⟨xs, ys, rfl, hxs, hys⟩ := hus.space.append
  obtain ⟨c', hc', hceq⟩ := hc.condition hxs
  obtain ⟨d', s', hs', hd, hseq⟩ := hs ys hys.space
  exact ⟨d', .while c' s', .while hw hc' hs', hd, congrArg₂ Stmt.while hceq hseq⟩

lemma ifThen (hc : e.Rereads) (hs : Stmt.Rereads d s) : Stmt.Rereads true (.ifThen e s) := by
  intro us hus
  obtain ⟨w, us, rfl, hw, hus⟩ := AreTokensOf.keyword hus
  obtain ⟨xs, ys, rfl, hxs, hys⟩ := hus.space.append
  obtain ⟨c', hc', hceq⟩ := hc.condition hxs
  obtain ⟨d', s', hs', -, hseq⟩ := hs ys hys.space
  exact ⟨true, .ifThen c' s', .ifThen hw hc' hs', id, congrArg₂ Stmt.ifThen hceq hseq⟩

/-- A branch that can take no `else` can take none when it is read again. -/
lemma ifElse {no : Stmt Unit} (hc : e.Rereads) (hs : Stmt.Rereads false s) (hno : Stmt.Rereads d no) :
    Stmt.Rereads d (.ifElse e s no) := by
  intro us hus
  obtain ⟨w, us, rfl, hw, hus⟩ := AreTokensOf.keyword hus
  obtain ⟨xs, us, rfl, hxs, hus⟩ := hus.space.append
  obtain ⟨ys, us, rfl, hys, hus⟩ := hus.space.append
  obtain ⟨other, zs, rfl, hother, hzs⟩ := hus.space.keyword
  obtain ⟨c', hc', hceq⟩ := hc.condition hxs
  obtain ⟨d', s', hs', hd, hseq⟩ := hs ys hys
  obtain rfl : d' = false := Bool.eq_false_iff.2 fun h => absurd (hd h) Bool.false_ne_true
  obtain ⟨d', no', hno', hd', hnoeq⟩ := hno zs hzs.space
  exact ⟨d', .ifElse c' s' no', .ifElse hw hc' hs' hother hno', hd',
    (congrArg₂ (Stmt.ifElse · · _) hceq hseq).trans (congrArg (Stmt.ifElse _ _) hnoeq)⟩

end Stmt.Rereads

namespace Stmt.RereadsList

lemma nil : Stmt.RereadsList [] := by
  intro us hus
  obtain rfl := hus.nil
  exact ⟨[], .nil, rfl⟩

lemma cons {ss : List (Stmt Unit)} (hs : s.RereadsDeclared) (hss : Stmt.RereadsList ss) :
    Stmt.RereadsList (s :: ss) := by
  intro us hus
  obtain ⟨vs, ws, rfl, hvs, hws⟩ := AreTokensOf.append hus
  obtain ⟨d', s', hs', heq⟩ := hs vs hvs
  obtain ⟨ss', hss', heqs⟩ := hss ws hws.lineBreak
  exact ⟨s' :: ss', .cons hs' hss', congrArg₂ List.cons heq heqs⟩

end Stmt.RereadsList

namespace Stmt.RereadsDeclared

lemma letVar {name : Ident} {o : Option (Expr Unit)} (ho : ∀ e ∈ o, e.Rereads) :
    (Stmt.letVar name o).RereadsDeclared := by
  intro us hus
  obtain ⟨w, us, rfl, hw, hus⟩ := AreTokensOf.keyword hus
  obtain ⟨t, us, rfl, ht, hlexeme, hus⟩ := hus.space.name
  have hname := ident_unlined hlexeme
  cases o with
  | none =>
    obtain ⟨semicolon, vs, rfl, hsemicolon, hvs⟩ := AreTokensOf.symbol hus
    obtain rfl := hvs.nil
    exact ⟨false, _, .letVar (.plain hw ht hsemicolon), congrArg (Stmt.letVar · none) hname⟩
  | some e =>
    obtain ⟨equal, us, rfl, hequal, hus⟩ := AreTokensOf.assigned hus
    obtain ⟨vs, e', semicolon, rfl, he', hsemicolon, heq⟩ := (ho e rfl).terminated hus
    exact ⟨false, _, .letVar (.initialized hw ht hequal he' hsemicolon),
      congrArg₂ (fun n e => Stmt.letVar n (some e)) hname heq⟩

lemma constVar {name : Ident} (he : e.Rereads) : (Stmt.constVar name e).RereadsDeclared := by
  intro us hus
  obtain ⟨w, us, rfl, hw, hus⟩ := AreTokensOf.keyword hus
  obtain ⟨t, us, rfl, ht, hlexeme, hus⟩ := hus.space.name
  obtain ⟨equal, us, rfl, hequal, hus⟩ := AreTokensOf.assigned hus
  obtain ⟨vs, e', semicolon, rfl, he', hsemicolon, heq⟩ := he.terminated hus
  exact ⟨false, _, .constVar hw ht hequal he' hsemicolon, congrArg₂ Stmt.constVar (ident_unlined hlexeme) heq⟩

lemma function {decl : Method} (h : FunctionDecl.Rereads decl) : (Stmt.function decl).RereadsDeclared := by
  intro us hus
  obtain ⟨w, us, rfl, hw, hus⟩ := AreTokensOf.keyword hus
  obtain ⟨decl', hdecl, heq⟩ := h us hus.space
  exact ⟨false, _, .function hw hdecl, congrArg Stmt.function heq⟩

end Stmt.RereadsDeclared

namespace FunctionDecl

lemma Rereads.mk {name : Ident} {params : List Ident} {body : List (Stmt Unit)} (hle : params.length ≤ 254)
    (hb : Stmt.RereadsList body) : FunctionDecl.Rereads ⟨name, params, body⟩ := by
  intro us hus
  obtain ⟨t, us, rfl, ht, hlexeme, hus⟩ := AreTokensOf.name hus
  obtain ⟨vs, ws, rfl, hvs, hws⟩ := hus.append
  obtain ⟨o, xs, c, rfl, ho, hxs, hc⟩ := hvs.inParens
  obtain ⟨o', ys, c', rfl, ho', hys, hc'⟩ := hws.space.inBraces
  obtain ⟨names, hnames, hlist, hmap⟩ := params_reread hxs
  obtain ⟨body', hbody, heq⟩ := hb ys hys
  have hlength : names.length ≤ 254 := by
    have hsame := congrArg List.length hmap
    simp only [List.length_map] at hsame
    rwa [hsame]
  refine ⟨⟨t.ident, names.map Token.ident, body'⟩, ?_, ?_⟩
  · have hsignature := IsSignature.mk ht ho hnames hlist hlength hc
    have hfunction := IsFunction.mk hsignature ho' hbody hc'
    rwa [List.cons_append] at hfunction
  · have hparams : (names.map Token.ident).map Ident.unlined = params.map Ident.unlined := by
      rw [List.map_map]
      exact hmap
    exact (congrArg₂ (FunctionDecl.mk · · _) (ident_unlined hlexeme) hparams).trans
      (congrArg (FunctionDecl.mk _ _) heq)

variable {decl : Method} {ds : List Method}

lemma RereadsMethods.nil : RereadsMethods [] := by
  intro us vs statics hus hstatics
  obtain rfl := hus.nil
  exact ⟨[], hstatics, rfl⟩

lemma RereadsMethods.cons (h : FunctionDecl.Rereads decl) (hds : RereadsMethods ds) : RereadsMethods (decl :: ds) := by
  intro us xs statics hus hstatics
  obtain ⟨vs, ws, rfl, hvs, hws⟩ := @AreTokensOf.append (FunctionDecl.pieces decl) _ us hus
  obtain ⟨decl', hdecl, heq⟩ := h vs hvs
  obtain ⟨ds', hds', heqs⟩ := hds ws xs statics hws.lineBreak hstatics
  refine ⟨decl' :: ds', ?_, congrArg₂ List.cons heq heqs⟩
  rw [List.append_assoc]
  exact .method hdecl hds'

lemma RereadsStatics.nil : RereadsStatics [] := by
  intro us hus
  obtain rfl := hus.nil
  exact ⟨[], .nil, rfl⟩

lemma RereadsStatics.cons (h : FunctionDecl.Rereads decl) (hds : RereadsStatics ds) : RereadsStatics (decl :: ds) := by
  intro us hus
  obtain ⟨w, us, rfl, hw, hus⟩ := AreTokensOf.keyword hus
  obtain ⟨vs, ws, rfl, hvs, hws⟩ := @AreTokensOf.append (FunctionDecl.pieces decl) _ us hus.space
  obtain ⟨decl', hdecl, heq⟩ := h vs hvs
  obtain ⟨ds', hds', heqs⟩ := hds ws hws.lineBreak
  exact ⟨decl' :: ds', .static hw hdecl hds', congrArg₂ List.cons heq heqs⟩

end FunctionDecl

/-- The members of a class are read again in two groups, first the methods and then the static ones. -/
lemma Stmt.RereadsDeclared.classDecl {name : Ident} {parent : Option (Occurrence Unit)} {methods statics : List Method}
    (hm : FunctionDecl.RereadsMethods methods) (hs : FunctionDecl.RereadsStatics statics) :
    (Stmt.classDecl name parent methods statics).RereadsDeclared := by
  intro us hus
  obtain ⟨w, us, rfl, hw, hus⟩ := AreTokensOf.keyword hus
  obtain ⟨hs', us, name', parent', rfl, hheading, hus, hname, hparent⟩ := heading_reread hus.space
  obtain ⟨o, vs, c, rfl, ho, hvs, hc⟩ := hus.space.inBraces
  obtain ⟨xs, ys, rfl, hxs, hys⟩ := hvs.append
  obtain ⟨statics', hstatics, hseq⟩ := hs ys hys
  obtain ⟨methods', hmembers, hmeq⟩ := hm xs ys statics' hxs hstatics
  refine ⟨false, _, .classDecl hw hheading ho hmembers hc, ?_⟩
  exact (congrArg₂ (Stmt.classDecl · · _ _) hname hparent).trans (congrArg₂ (Stmt.classDecl _ _) hmeq hseq)

/-! ### Sentences -/

/-- There are no operators in the statement. -/
def Stmt.OperatorFree (s : Stmt ι) : Prop := ∀ e ∈ s.parts, ¬ e.IsOperation

/-- There are no operators in the statements. -/
def Stmt.OperatorFreeList (ss : List (Stmt ι)) : Prop := ∀ e ∈ Stmt.partsList ss, ¬ e.IsOperation

lemma partsOption_forall {p : Expr ι → Prop} {o : Option (Expr ι)} (h : ∀ d ∈ Expr.partsOption o, p d) :
    ∀ e ∈ o, ∀ d ∈ e.parts, p d := by
  rintro e rfl
  exact h

namespace Grammar

variable {p : Expr Unit → Prop} {o : Option (Expr Unit)} {loop body tree : Stmt Unit} {init : Option (Stmt Unit)}

lemma IsExpression.reread (h : IsExpression ts e) (hfree : e.OperatorFree) : e.Rereads := by
  intro us hus
  obtain ⟨e', hphrase, heq⟩ := (isExpression_iff.1 h).reread hfree us hus
  exact ⟨e', isExpression_iff.2 hphrase, heq⟩

lemma IsCondition.reread (h : IsCondition ts e) (hfree : e.OperatorFree) : e.Rereads := by
  cases h with
  | mk _ he _ => exact he.reread hfree

lemma IsOptional.reread (h : IsOptional ts o) (hfree : ∀ e ∈ o, e.OperatorFree) : ∀ e ∈ o, e.Rereads := by
  cases h with
  | none => exact nofun
  | some he =>
    rintro e ⟨⟩
    exact he.reread (hfree _ rfl)

lemma IsLet.reread (h : IsLet ts s) (hfree : s.OperatorFree) : s.RereadsDeclared := by
  cases h with
  | plain => exact .letVar nofun
  | initialized _ _ _ he _ =>
    refine .letVar ?_
    rintro e ⟨⟩
    exact he.reread hfree

lemma IsInitializer.reread (h : IsInitializer ts init) (hfree : ∀ s ∈ init, s.OperatorFree) :
    ∀ s ∈ init, s.RereadsDeclared := by
  cases h with
  | none => exact nofun
  | letVar hl =>
    rintro s ⟨⟩
    exact hl.reread (hfree _ rfl)
  | expr he _ =>
    rintro s ⟨⟩
    exact (Stmt.Rereads.expr (d := false) (he.reread (hfree _ rfl))).declared

lemma IsSignature.length_le {name : Ident} {params : List Ident} (h : IsSignature ts name params) :
    params.length ≤ 254 := by
  cases h with
  | mk _ _ _ _ hle _ => rwa [List.length_map]

/-! #### What a `for` stands for -/

lemma LoopTest.forall_parts (h : LoopTest o e) (he : ∀ d ∈ e.parts, p d) : ∀ e ∈ o, ∀ d ∈ e.parts, p d := by
  cases h with
  | always => exact nofun
  | test =>
    rintro e ⟨⟩
    exact he

lemma LoopTest.reread (h : LoopTest o e) (ho : ∀ e ∈ o, e.Rereads) : e.Rereads := by
  cases h with
  | always => exact true_reread
  | test => exact ho _ rfl

lemma LoopBody.forall_parts (h : LoopBody s o body) (hb : ∀ d ∈ body.parts, p d) :
    (∀ d ∈ s.parts, p d) ∧ ∀ e ∈ o, ∀ d ∈ e.parts, p d := by
  cases h with
  | plain => exact ⟨hb, nofun⟩
  | increment =>
    obtain ⟨hs, he⟩ := List.forall_mem_append.1 hb
    refine ⟨hs, ?_⟩
    rintro e ⟨⟩
    exact (List.forall_mem_append.1 he).1

lemma LoopBody.reread (h : LoopBody s o body) (hs : Stmt.Rereads d s) (ho : ∀ e ∈ o, e.Rereads) :
    Stmt.Rereads d body := by
  cases h with
  | plain => exact hs
  | increment => exact .block (.cons hs.declared (.cons (Stmt.Rereads.expr (d := d) (ho _ rfl)).declared .nil))

lemma LoopFrame.forall_parts (h : LoopFrame loop init tree) (ht : ∀ d ∈ tree.parts, p d) :
    (∀ s ∈ init, ∀ d ∈ s.parts, p d) ∧ ∀ d ∈ loop.parts, p d := by
  cases h with
  | plain => exact ⟨nofun, ht⟩
  | initialized =>
    obtain ⟨hs, hl⟩ := List.forall_mem_append.1 ht
    refine ⟨?_, (List.forall_mem_append.1 hl).1⟩
    rintro s ⟨⟩
    exact hs

lemma LoopFrame.reread (h : LoopFrame loop init tree) (hi : ∀ s ∈ init, s.RereadsDeclared)
    (hl : Stmt.Rereads d loop) : Stmt.Rereads d tree := by
  cases h with
  | plain => exact hl
  | initialized => exact .block (.cons (hi _ rfl) (.cons hl.declared .nil))

/-! #### Statements and declarations -/

mutual

theorem IsStatement.reread : ∀ {d : Bool} {ts : List Token} {s : Stmt Unit}, IsStatement d ts s →
    s.OperatorFree → Stmt.Rereads d s
  | _, _, _, .expr he _, hfree => .expr (he.reread hfree)
  | _, _, _, .print _ he _, hfree => .print (he.reread hfree)
  | _, _, _, .return _ ho _, hfree => .return (ho.reread (partsOption_forall hfree))
  | _, _, _, .block _ hss _, hfree => .block (hss.reread hfree)
  | _, _, _, .ifThen _ hc hs, hfree => by
    obtain ⟨hfc, hfs⟩ := List.forall_mem_append.1 hfree
    exact .ifThen (hc.reread hfc) (hs.reread hfs)
  | _, _, _, .ifElse _ hc hy _ hn, hfree => by
    obtain ⟨hfc, hfree⟩ := List.forall_mem_append.1 hfree
    obtain ⟨hfy, hfn⟩ := List.forall_mem_append.1 hfree
    exact .ifElse (hc.reread hfc) (hy.reread hfy) (hn.reread hfn)
  | _, _, _, .while _ hc hs, hfree => by
    obtain ⟨hfc, hfs⟩ := List.forall_mem_append.1 hfree
    exact .while (hc.reread hfc) (hs.reread hfs)
  | _, _, _, .for _ _ hi hc _ hn _ hs ht hb hl, hfree => by
    obtain ⟨hfi, hfl⟩ := hl.forall_parts hfree
    obtain ⟨hft, hfb⟩ := List.forall_mem_append.1 hfl
    obtain ⟨hfs, hfn⟩ := hb.forall_parts hfb
    have htest := ht.reread (hc.reread (ht.forall_parts hft))
    exact hl.reread (hi.reread hfi) (.while htest (hb.reread (hs.reread hfs) (hn.reread hfn)))

theorem IsDeclaration.reread : ∀ {d : Bool} {ts : List Token} {s : Stmt Unit}, IsDeclaration d ts s →
    s.OperatorFree → s.RereadsDeclared
  | _, _, _, .statement h, hfree => (h.reread hfree).declared
  | _, _, _, .letVar hl, hfree => hl.reread hfree
  | _, _, _, .constVar _ _ _ he _, hfree => .constVar (he.reread hfree)
  | _, _, _, .function _ hf, hfree => .function (hf.reread hfree)
  | _, _, _, .classDecl _ _ _ hm _, hfree => by
    obtain ⟨hfm, hfs⟩ := List.forall_mem_append.1 hfree
    obtain ⟨hmethods, hstatics⟩ := hm.reread hfm hfs
    exact .classDecl hmethods hstatics

/-- **The text of declarations without operators is read as the declarations again**, up to lines. -/
theorem AreDeclarations.reread : ∀ {ts : List Token} {ss : List (Stmt Unit)}, AreDeclarations ts ss →
    Stmt.OperatorFreeList ss → Stmt.RereadsList ss
  | _, _, .nil, _ => .nil
  | _, _, .cons h hss, hfree => by
    obtain ⟨hfs, hfss⟩ := List.forall_mem_append.1 hfree
    exact .cons (h.reread hfs) (hss.reread hfss)

theorem IsFunction.reread : ∀ {ts : List Token} {decl : Method}, IsFunction ts decl →
    (∀ e ∈ FunctionDecl.parts decl, ¬ e.IsOperation) → FunctionDecl.Rereads decl
  | _, _, .mk hsig _ hb _, hfree => .mk hsig.length_le (hb.reread hfree)

theorem AreMembers.reread : ∀ {ts : List Token} {methods statics : List Method}, AreMembers ts methods statics →
    (∀ e ∈ FunctionDecl.partsList methods, ¬ e.IsOperation) → (∀ e ∈ FunctionDecl.partsList statics, ¬ e.IsOperation) →
      FunctionDecl.RereadsMethods methods ∧ FunctionDecl.RereadsStatics statics
  | _, _, _, .nil, _, _ => ⟨.nil, .nil⟩
  | _, _, _, .method hf hm, hfm, hfs => by
    obtain ⟨hfree, hfm⟩ := List.forall_mem_append.1 hfm
    obtain ⟨hmethods, hstatics⟩ := hm.reread hfm hfs
    exact ⟨.cons (hf.reread hfree) hmethods, hstatics⟩
  | _, _, _, .static _ hf hm, hfm, hfs => by
    obtain ⟨hfree, hfs⟩ := List.forall_mem_append.1 hfs
    obtain ⟨hmethods, hstatics⟩ := hm.reread hfm hfs
    exact ⟨hmethods, .cons (hf.reread hfree) hstatics⟩

end

end Grammar

end ScriptLang
