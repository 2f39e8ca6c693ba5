import ScriptLang.Proofs.Printing.NumberTexts
import ScriptLang.Proofs.Printing.RereadSentences

/-!
# What stands in the text of a program

In the text of a program that was read from a source text, every name is written as it was in the source, and every
literal is one again, if a string in it needs no escapes and a number is finite and its text is read as the number.

* `Literal.IsPlain`, `Number.ReadsBack` — what is asked of literals;
* `string_written`, `number_written` — such literals are written as tokens can be;
* `Phrase.written`, `IsStatement.written`, … — all that stands in the text of a sentence;
* `AreDeclarations.written` — the theorem.
-/

namespace ScriptLang

open Piece

variable {ι : Type} {text rest : List Char} {kind : Kind} {t : Token} {ts : List Token} {e : Expr Unit}
  {s : Stmt Unit}

/-! ### Literals -/

/-- The text of the number is read as this number and no other. -/
def Number.ReadsBack (x : Float) : Prop := ∀ y, Lexeme (Number.text x).toList (.number y) → y = x

/-- A string without quotes and backslashes, a finite number, or one of the other literals. -/
def Literal.IsPlain : Literal → Prop
  | .string s => '"' ∉ s.toList ∧ '\\' ∉ s.toList
  | .number x => Number.IsFinite x
  | .null | .bool _ => True

/-- The literal is plain, and if it is a number, its text is read as the number. -/
structure Literal.Legible (v : Literal) : Prop where
  plain : v.IsPlain
  readsBack : ∀ x, v = .number x → Number.ReadsBack x

/-- If the expression is a literal, it is a legible one. -/
def Expr.Legible (e : Expr ι) : Prop := ∀ v, e = .literal v → v.Legible

lemma stringBody_plain {cs : List Char} (hquote : '"' ∉ cs) (hbackslash : '\\' ∉ cs) : StringBody cs cs := by
  induction cs with
  | nil => exact .nil
  | cons c cs ih =>
    obtain ⟨hc, hcs⟩ := not_or.1 (mt List.mem_cons.2 hquote)
    obtain ⟨hc', hcs'⟩ := not_or.1 (mt List.mem_cons.2 hbackslash)
    exact .plain (Ne.symm hc) (Ne.symm hc') (ih hcs hcs')

lemma string_written {s : String} (h : (Literal.string s).IsPlain) :
    IsWritten (.string s) (Literal.text (.string s)).toList := by
  have hwritten := IsWritten.string (stringBody_plain h.1 h.2)
  rw [String.ofList_toList] at hwritten
  simpa [Literal.text] using hwritten

/-- A number that was read is written as a number, and so as itself if its text is read as the number. -/
lemma number_written {x : Float} {original : List Char} (hread : Lexeme original (.number x))
    (h : (Literal.number x).Legible) : IsWritten (.number x) (Number.text x).toList := by
  obtain ⟨y, hy⟩ : ∃ y, Lexeme (Number.text x).toList (.number y) := by
    cases hread with
    | whole => exact Number.text_lexeme h.plain
    | decimal => exact Number.text_lexeme h.plain
  obtain rfl := h.readsBack x rfl y hy
  exact .lexeme hy

/-! ### Tokens of a source text -/

lemma Piece.Rightful.written (h : (Piece.token kind text).Rightful rest) : IsWritten kind text := by
  cases h with
  | string hbody => exact .string hbody
  | lexeme hlongest => exact .lexeme hlongest.lexeme

lemma Token.IsPiece.written (h : t.IsPiece) : IsWritten t.kind t.lexeme.toList := by
  obtain ⟨rest, hright⟩ := h
  exact hright.written

/-- All tokens are pieces of a text. -/
def ArePieces (ts : List Token) : Prop := ∀ t ∈ ts, t.IsPiece

lemma arePieces_cons : ArePieces (t :: ts) ↔ t.IsPiece ∧ ArePieces ts := List.forall_mem_cons

lemma arePieces_append {us : List Token} : ArePieces (ts ++ us) ↔ ArePieces ts ∧ ArePieces us :=
  List.forall_mem_append

lemma Token.IsPiece.identifier (h : t.IsPiece) (hk : t.kind = .identifier) :
    IsWritten .identifier t.ident.text.toList := hk ▸ h.written

lemma Listed.part_subset {α : Type} {parts : List (List Token × α)} (h : Listed parts ts) :
    ∀ part ∈ parts, part.1 ⊆ ts := by
  induction h with
  | nil => exact nofun
  | last => exact List.forall_mem_singleton.2 (List.Subset.refl _)
  | cons _ _ ih =>
    refine List.forall_mem_cons.2 ⟨List.subset_append_left _ _, fun part hpart => ?_⟩
    exact fun t ht => List.mem_append_right _ (List.mem_cons_of_mem _ (ih part hpart ht))

/-! ### Expressions -/

section Operators

variable {n : String}

lemma symbol_written {s : Symbol} (hkind : kind = .symbol s) (hn : n = s.spelling) : IsWritten kind n.toList := by
  subst hkind hn
  exact .lexeme (.symbol s)

lemma keyword_written {w : Keyword} (hkind : kind = .keyword w) (hn : n = w.spelling) : IsWritten kind n.toList := by
  subst hkind hn
  exact .lexeme (.keyword w)

lemma UnaryOp.written (op : UnaryOp) : IsWritten op.kind op.text.toList := by
  cases op <;> exact symbol_written rfl rfl

lemma BinaryOp.written (op : BinaryOp) : IsWritten op.kind op.text.toList := by
  cases op with
  | mod => exact keyword_written rfl rfl
  | _ => exact symbol_written rfl rfl

lemma LogicalOp.written (op : LogicalOp) : IsWritten op.kind op.text.toList := by
  cases op with
  | coalesce => exact symbol_written rfl rfl
  | _ => exact keyword_written rfl rfl

end Operators

lemma operator_written (op : Operator) (line : Nat) {left right : Expr Unit} (hl : AllWritten left.pieces)
    (hr : AllWritten right.pieces) : AllWritten (op.apply line left right).pieces := by
  cases op with
  | binary op => simp [Operator.apply, Expr.pieces, op.written, hl, hr]
  | logical op => simp [Operator.apply, Expr.pieces, op.written, hl, hr]

lemma operator_forall_parts {p : Expr Unit → Prop} {op : Operator} {line : Nat} {left right : Expr Unit}
    (h : ∀ d ∈ (op.apply line left right).parts, p d) : (∀ d ∈ left.parts, p d) ∧ ∀ d ∈ right.parts, p d := by
  cases op <;> exact List.forall_mem_append.1 (List.forall_mem_cons.1 h).2

lemma Atom.written (h : Atom t e) (ht : t.IsPiece) (he : ∀ d ∈ e.parts, d.Legible) : AllWritten e.pieces := by
  have hself := he e (Expr.mem_parts e)
  have hwritten := ht.written
  cases h with
  | number hk =>
    rw [hk] at hwritten
    cases hwritten with
    | lexeme hread => exact allWritten_token.2 ⟨number_written hread (hself _ rfl), allWritten_nil⟩
  | string hk => exact allWritten_token.2 ⟨string_written (hself _ rfl).plain, allWritten_nil⟩
  | trueLit hk => exact allWritten_token.2 ⟨.lexeme (.keyword .trueKw), allWritten_nil⟩
  | falseLit hk => exact allWritten_token.2 ⟨.lexeme (.keyword .falseKw), allWritten_nil⟩
  | null hk => exact allWritten_token.2 ⟨.lexeme (.keyword .nullKw), allWritten_nil⟩
  | identifier hk | this hk | super hk =>
    rw [hk] at hwritten
    exact allWritten_token.2 ⟨hwritten, allWritten_nil⟩

lemma Assigns.legible_target {target value : Expr Unit} (h : Assigns target value e) : target.Legible := by
  cases h <;> exact nofun

/-- **In the text of an expression all is written as tokens can be.** -/
lemma Phrase.written {stratum : Stratum} (h : Phrase stratum ts e) :
    ArePieces ts → (∀ d ∈ e.parts, d.Legible) → AllWritten e.pieces := by
  induction h with
  | ofOr _ ih | ofOperand _ ih | ofCall _ ih | ofPrimary _ ih => exact ih
  | assign _ _ _ ha iht ihv =>
    intro hs he
    obtain ⟨hst, hsv⟩ := arePieces_append.1 hs
    obtain ⟨het, hev⟩ := ha.forall_parts ha.legible_target he
    rw [ha.pieces, allWritten_append, allWritten_assigned]
    exact ⟨iht hst het, ihv (arePieces_cons.1 hsv).2 hev⟩
  | joined _ _ _ ihl ihr =>
    intro hs he
    obtain ⟨hsl, hsr⟩ := arePieces_append.1 hs
    obtain ⟨hel, her⟩ := operator_forall_parts he
    exact operator_written _ _ (ihl hsl hel) (ihr (arePieces_cons.1 hsr).2 her)
  | led _ _ ih =>
    intro hs he
    have hoperand := ih (arePieces_cons.1 hs).2 (List.forall_mem_cons.1 he).2
    simp [Expr.pieces, UnaryOp.written, hoperand]
  | call _ _ _ hlist _ _ ih ihp =>
    intro hs he
    obtain ⟨hsc, hs⟩ := arePieces_append.1 hs
    obtain ⟨hsa, -⟩ := arePieces_append.1 (arePieces_cons.1 hs).2
    obtain ⟨hec, hea⟩ := List.forall_mem_append.1 (List.forall_mem_cons.1 he).2
    rw [Expr.pieces, allWritten_append, allWritten_inParens, allWritten_withCommas, piecesList_eq_map]
    refine ⟨ih hsc hec, fun ps hps => ?_⟩
    obtain ⟨a, ha, rfl⟩ := List.mem_map.1 hps
    obtain ⟨part, hpart, rfl⟩ := List.mem_map.1 ha
    exact ihp part hpart (fun t ht => hsa t (hlist.part_subset part hpart ht)) (partsList_forall hea _ ha)
  | property _ _ hn hsel ih =>
    intro hs he
    obtain ⟨hso, hsn⟩ := arePieces_append.1 hs
    have hname := (arePieces_cons.1 (arePieces_cons.1 hsn).2).1
    have hobject := ih hso (hsel.forall_parts (fun _ _ => nofun) he)
    rw [hsel.pieces, allWritten_append, allWritten_symbol, allWritten_name]
    exact ⟨hobject, hname.identifier hn, allWritten_nil⟩
  | atom ha => exact fun hs he => ha.written (arePieces_cons.1 hs).1 he
  | group _ _ _ ih =>
    intro hs he
    exact allWritten_inParens.2 (ih (arePieces_append.1 (arePieces_cons.1 hs).2).1 (List.forall_mem_cons.1 he).2)

/-! ### Statements -/

namespace Grammar

variable {o : Option (Expr Unit)} {loop body tree : Stmt Unit} {init : Option (Stmt Unit)}

lemma IsExpression.written (h : IsExpression ts e) (hs : ArePieces ts) (he : ∀ d ∈ e.parts, d.Legible) :
    AllWritten e.pieces := (isExpression_iff.1 h).written hs he

lemma IsCondition.written (h : IsCondition ts e) (hs : ArePieces ts) (he : ∀ d ∈ e.parts, d.Legible) :
    AllWritten e.pieces := by
  cases h with
  | mk _ hexpr _ => exact hexpr.written (arePieces_append.1 (arePieces_cons.1 hs).2).1 he

lemma IsOptional.written (h : IsOptional ts o) (hs : ArePieces ts) (he : ∀ e ∈ o, ∀ d ∈ e.parts, d.Legible) :
    ∀ e ∈ o, AllWritten e.pieces := by
  cases h with
  | none => exact nofun
  | some hexpr =>
    rintro e ⟨⟩
    exact hexpr.written hs (he _ rfl)

lemma IsLet.written (h : IsLet ts s) (hs : ArePieces ts) (he : ∀ d ∈ s.parts, d.Legible) : AllWritten s.pieces := by
  cases h with
  | plain _ hn _ =>
    simp only [arePieces_cons] at hs
    have hname := hs.2.1.identifier hn
    simpa [Stmt.pieces, Expr.piecesOption] using hname
  | initialized _ hn _ hexpr _ =>
    simp only [arePieces_cons, arePieces_append] at hs
    obtain ⟨-, hsn, -, hse, -⟩ := hs
    have hname := hsn.identifier hn
    have hvalue := hexpr.written hse he
    simpa [Stmt.pieces, Expr.piecesOption, hvalue] using hname

lemma IsInitializer.written (h : IsInitializer ts init) (hs : ArePieces ts)
    (he : ∀ s ∈ init, ∀ d ∈ s.parts, d.Legible) : ∀ s ∈ init, AllWritten s.pieces := by
  cases h with
  | none => exact nofun
  | letVar hl =>
    rintro s ⟨⟩
    exact hl.written hs (he _ rfl)
  | expr hexpr _ =>
    rintro s ⟨⟩
    have hvalue := hexpr.written (arePieces_append.1 hs).1 (he _ rfl)
    simpa [Stmt.pieces] using hvalue

lemma IsSignature.written {name : Ident} {params : List Ident} (h : IsSignature ts name params) (hs : ArePieces ts) :
    IsWritten .identifier name.text.toList ∧
      AllWritten (withCommas (params.map fun p => [Piece.name p.text])) := by
  cases h with
  | mk hn _ hnames hlist _ _ =>
    simp only [arePieces_cons, arePieces_append] at hs
    obtain ⟨hsn, -, hsp, -⟩ := hs
    refine ⟨hsn.identifier hn, allWritten_withCommas.2 fun ps hps => ?_⟩
    obtain ⟨p, hp, rfl⟩ := List.mem_map.1 hps
    obtain ⟨t, ht, rfl⟩ := List.mem_map.1 hp
    have hmem := hlist.part_subset ([t], t) (List.mem_map_of_mem ht) List.mem_cons_self
    exact allWritten_name.2 ⟨(hsp t hmem).identifier (hnames t ht), allWritten_nil⟩

lemma IsHeading.written {name : Ident} {parent : Option (Occurrence Unit)} (h : IsHeading ts name parent)
    (hs : ArePieces ts) : IsWritten .identifier name.text.toList ∧ AllWritten (extendsPieces parent) := by
  cases h with
  | plain hn => exact ⟨(arePieces_cons.1 hs).1.identifier hn, allWritten_nil⟩
  | extending hn _ hparent =>
    simp only [arePieces_cons] at hs
    have hextends := hs.2.2.1.identifier hparent
    refine ⟨hs.1.identifier hn, ?_⟩
    simp only [extendsPieces, allWritten_space, allWritten_keyword]
    exact allWritten_name.2 ⟨hextends, allWritten_nil⟩

/-! #### What a `for` stands for -/

lemma LoopTest.written (h : LoopTest o e) (ho : ∀ e ∈ o, AllWritten e.pieces) : AllWritten e.pieces := by
  cases h with
  | always => exact allWritten_token.2 ⟨.lexeme (.keyword .trueKw), allWritten_nil⟩
  | test => exact ho _ rfl

lemma LoopBody.written (h : LoopBody s o body) (hs : AllWritten s.pieces) (ho : ∀ e ∈ o, AllWritten e.pieces) :
    AllWritten body.pieces := by
  cases h with
  | plain => exact hs
  | increment =>
    have hincrement := ho _ rfl
    simp [Stmt.pieces, Stmt.linePieces, hs, hincrement]

lemma LoopFrame.written (h : LoopFrame loop init tree) (hi : ∀ s ∈ init, AllWritten s.pieces)
    (hl : AllWritten loop.pieces) : AllWritten tree.pieces := by
  cases h with
  | plain => exact hl
  | initialized =>
    have hfirst := hi _ rfl
    simp [Stmt.pieces, Stmt.linePieces, hl, hfirst]

/-! #### Statements and declarations -/

mutual

theorem IsStatement.written : ∀ {d : Bool} {ts : List Token} {s : Stmt Unit}, IsStatement d ts s →
    ArePieces ts → (∀ e ∈ s.parts, e.Legible) → AllWritten s.pieces
  | _, _, _, .expr he _, hs, hlegible => by
    have hexpr := he.written (arePieces_append.1 hs).1 hlegible
    simp [Stmt.pieces, hexpr]
  | _, _, _, .print _ he _, hs, hlegible => by
    have hexpr := he.written (arePieces_append.1 (arePieces_cons.1 hs).2).1 hlegible
    simp [Stmt.pieces, hexpr]
  | _, _, _, @IsStatement.return _ o _ _ _ ho _, hs, hlegible => by
    have hvalue := ho.written (arePieces_append.1 (arePieces_cons.1 hs).2).1 (partsOption_forall hlegible)
    cases o with
    | none => simp [Stmt.pieces, Expr.piecesOption]
    | some e => simp [Stmt.pieces, Expr.piecesOption, hvalue e rfl]
  | _, _, _, .block _ hss _, hs, hlegible =>
    allWritten_inBraces.2 (hss.written (arePieces_append.1 (arePieces_cons.1 hs).2).1 hlegible)
  | _, _, _, .ifThen _ hc hy, hs, hlegible | _, _, _, .while _ hc hy, hs, hlegible => by
    obtain ⟨hsc, hsy⟩ := arePieces_append.1 (arePieces_cons.1 hs).2
    obtain ⟨hlc, hly⟩ := List.forall_mem_append.1 hlegible
    simp [Stmt.pieces, hc.written hsc hlc, hy.written hsy hly]
  | _, _, _, .ifElse _ hc hy _ hn, hs, hlegible => by
    simp only [arePieces_cons, arePieces_append] at hs
    obtain ⟨-, hsc, hsy, -, hsn⟩ := hs
    obtain ⟨hlc, hlegible⟩ := List.forall_mem_append.1 hlegible
    obtain ⟨hly, hln⟩ := List.forall_mem_append.1 hlegible
    simp [Stmt.pieces, hc.written hsc hlc, hy.written hsy hly, hn.written hsn hln]
  | _, _, _, .for _ _ hi hc _ hn _ hb ht hbody hf, hs, hlegible => by
    simp only [arePieces_cons, arePieces_append] at hs
    obtain ⟨-, -, hsi, hsc, -, hsn, -, hsb⟩ := hs
    obtain ⟨hli, hll⟩ := hf.forall_parts hlegible
    obtain ⟨hlt, hlb⟩ := List.forall_mem_append.1 hll
    obtain ⟨hls, hln⟩ := hbody.forall_parts hlb
    have htest := ht.written (hc.written hsc (ht.forall_parts hlt))
    have hinner := hbody.written (hb.written hsb hls) (hn.written hsn hln)
    exact hf.written (hi.written hsi hli) (by simp [Stmt.pieces, htest, hinner])

theorem IsDeclaration.written : ∀ {d : Bool} {ts : List Token} {s : Stmt Unit}, IsDeclaration d ts s →
    ArePieces ts → (∀ e ∈ s.parts, e.Legible) → AllWritten s.pieces
  | _, _, _, .statement h, hs, hlegible => h.written hs hlegible
  | _, _, _, .letVar hl, hs, hlegible => hl.written hs hlegible
  | _, _, _, .constVar _ hn _ he _, hs, hlegible => by
    simp only [arePieces_cons, arePieces_append] at hs
    obtain ⟨-, hsn, -, hse, -⟩ := hs
    have hname := hsn.identifier hn
    simpa [Stmt.pieces, he.written hse hlegible] using hname
  | _, _, _, .function _ hf, hs, hlegible => by
    simp [Stmt.pieces, hf.written (arePieces_cons.1 hs).2 hlegible]
  | _, _, _, .classDecl _ hh _ hm _, hs, hlegible => by
    simp only [arePieces_cons, arePieces_append] at hs
    obtain ⟨-, hsh, -, hsm, -⟩ := hs
    obtain ⟨hname, hparent⟩ := hh.written hsh
    obtain ⟨hlm, hls⟩ := List.forall_mem_append.1 hlegible
    obtain ⟨hmethods, hstatics⟩ := hm.written hsm hlm hls
    simp [Stmt.pieces, hparent, hmethods, hstatics, hname]

/-- **In the text of declarations all is written as tokens can be**, if the literals in it are legible. -/
theorem AreDeclarations.written : ∀ {ts : List Token} {ss : List (Stmt Unit)}, AreDeclarations ts ss →
    ArePieces ts → (∀ e ∈ Stmt.partsList ss, e.Legible) → AllWritten (Stmt.linePieces ss)
  | _, _, .nil, _, _ => allWritten_nil
  | _, _, .cons h hss, hs, hlegible => by
    obtain ⟨hsd, hsds⟩ := arePieces_append.1 hs
    obtain ⟨hld, hlds⟩ := List.forall_mem_append.1 hlegible
    simp [Stmt.linePieces, h.written hsd hld, hss.written hsds hlds]

theorem IsFunction.written : ∀ {ts : List Token} {decl : Method}, IsFunction ts decl → ArePieces ts →
    (∀ e ∈ FunctionDecl.parts decl, e.Legible) → AllWritten (FunctionDecl.pieces decl)
  | _, _, .mk hsig _ hb _, hs, hlegible => by
    simp only [arePieces_cons, arePieces_append] at hs
    obtain ⟨hsh, -, hsb, -⟩ := hs
    obtain ⟨hname, hparams⟩ := hsig.written hsh
    simp [FunctionDecl.pieces, hname, hparams, hb.written hsb hlegible]

theorem AreMembers.written : ∀ {ts : List Token} {methods statics : List Method}, AreMembers ts methods statics →
    ArePieces ts → (∀ e ∈ FunctionDecl.partsList methods, e.Legible) →
      (∀ e ∈ FunctionDecl.partsList statics, e.Legible) → AllWritten (FunctionDecl.linePieces [] methods) ∧
        AllWritten (FunctionDecl.linePieces [keyword .staticKw, space] statics)
  | _, _, _, .nil, _, _, _ => ⟨allWritten_nil, allWritten_nil⟩
  | _, _, _, .method hf hm, hs, hlm, hls => by
    obtain ⟨hsf, hsm⟩ := arePieces_append.1 hs
    obtain ⟨hlf, hlm⟩ := List.forall_mem_append.1 hlm
    obtain ⟨hmethods, hstatics⟩ := hm.written hsm hlm hls
    simp [FunctionDecl.linePieces, hf.written hsf hlf, hmethods, hstatics]
  | _, _, _, .static _ hf hm, hs, hlm, hls => by
    obtain ⟨hsf, hsm⟩ := arePieces_append.1 (arePieces_cons.1 hs).2
    obtain ⟨hlf, hls⟩ := List.forall_mem_append.1 hls
    obtain ⟨hmethods, hstatics⟩ := hm.written hsm hlm hls
    simp [FunctionDecl.linePieces, hf.written hsf hlf, hmethods, hstatics]

end

end Grammar

end ScriptLang
