import ContractKit.Source.Read

/-!
# Comparing trees

Whether two trees are the same can be computed for the forms that small contracts are made of.
So it can be checked by evaluation what is read from a text.
-/

namespace ContractKit.Source

/-! ## Expressions -/

mutual

/-- Whether two expressions are the same; `false` if they have other forms than names, literals,
attributes, elements, unary and binary operators, single comparisons, calls without keywords and
empty lists and dictionaries. -/
def sameExpr : Expr → Expr → Bool
  | .literal v, .literal v' => v == v'
  | .name x, .name x' => x == x'
  | .attribute e x, .attribute e' x' => sameExpr e e' && x == x'
  | .subscript e i, .subscript e' i' => sameExpr e e' && sameExpr i i'
  | .unary op e, .unary op' e' => op == op' && sameExpr e e'
  | .binary l op r, .binary l' op' r' => sameExpr l l' && op == op' && sameExpr r r'
  | .compare l op r [], .compare l' op' r' [] => sameExpr l l' && op == op' && sameExpr r r'
  | .call f args [], .call f' args' [] => sameExpr f f' && sameExprs args args'
  | .list [], .list [] => true
  | .dict [], .dict [] => true
  | _, _ => false

/-- Whether the expressions of two lists are the same. -/
def sameExprs : List Expr → List Expr → Bool
  | [], [] => true
  | e :: rest, e' :: rest' => sameExpr e e' && sameExprs rest rest'
  | _, _ => false

end

/-- Whether two expressions are the same, or none is there. -/
def sameExpr? : Option Expr → Option Expr → Bool
  | none, none => true
  | some e, some e' => sameExpr e e'
  | _, _ => false

def sameParam (p p' : Parameter Expr) : Bool :=
  p.kind == p'.kind && p.name == p'.name && sameExpr? p.annotated p'.annotated &&
    sameExpr? p.default p'.default

def sameParams : List (Parameter Expr) → List (Parameter Expr) → Bool
  | [], [] => true
  | p :: rest, p' :: rest' => sameParam p p' && sameParams rest rest'
  | _, _ => false

/-- Expressions that compare as the same are equal, and so are lists of them. -/
theorem sameExpr_sound : (∀ e e' : Expr, sameExpr e e' = true → e = e') ∧
    ∀ es es' : List Expr, sameExprs es es' = true → es = es' := by
  refine sameExpr.mutual_induct (fun e e' => sameExpr e e' = true → e = e')
    (fun es es' => sameExprs es es' = true → es = es')
    ?literal ?name ?attr ?subscript ?unary ?binary ?compare ?call ?list ?dict ?other ?nil ?cons
    ?uneven
  case literal => simp [sameExpr]
  case name => simp [sameExpr]
  case attr =>
    intro e x e' x' ih h
    simp only [sameExpr, Bool.and_eq_true, beq_iff_eq] at h
    rw [ih h.1, h.2]
  case subscript =>
    intro e i e' i' ihe ihi h
    simp only [sameExpr, Bool.and_eq_true] at h
    rw [ihe h.1, ihi h.2]
  case unary =>
    intro op e op' e' ih h
    simp only [sameExpr, Bool.and_eq_true, beq_iff_eq] at h
    rw [h.1, ih h.2]
  case binary =>
    intro l op r l' op' r' ihl ihr h
    simp only [sameExpr, Bool.and_eq_true, beq_iff_eq] at h
    rw [ihl h.1.1, h.1.2, ihr h.2]
  case compare =>
    intro l op r l' op' r' ihl ihr h
    simp only [sameExpr, Bool.and_eq_true, beq_iff_eq] at h
    rw [ihl h.1.1, h.1.2, ihr h.2]
  case call =>
    intro f args f' args' ihf ihargs h
    simp only [sameExpr, Bool.and_eq_true] at h
    rw [ihf h.1, ihargs h.2]
  case list => exact fun _ => rfl
  case dict => exact fun _ => rfl
  case other =>
    intro e e' h₁ h₂ h₃ h₄ h₅ h₆ h₇ h₈ h₉ h₁₀ h
    rw [sameExpr] at h
    · simp at h
    all_goals assumption
  case nil => exact fun _ => rfl
  case cons =>
    intro e rest e' rest' ihe ihrest h
    simp only [sameExprs, Bool.and_eq_true] at h
    rw [ihe h.1, ihrest h.2]
  case uneven =>
    intro es es' h₁ h₂ h
    rw [sameExprs] at h
    · simp at h
    all_goals assumption

theorem eq_of_sameExpr {e e' : Expr} (h : sameExpr e e' = true) : e = e' :=
  sameExpr_sound.1 e e' h

theorem eq_of_sameExprs {es es' : List Expr} (h : sameExprs es es' = true) : es = es' :=
  sameExpr_sound.2 es es' h

theorem eq_of_sameExpr? {e e' : Option Expr} (h : sameExpr? e e' = true) : e = e' := by
  cases e with
  | none =>
    cases e' with
    | none => rfl
    | some e' => simp [sameExpr?] at h
  | some e =>
    cases e' with
    | none => simp [sameExpr?] at h
    | some e' => rw [eq_of_sameExpr h]

theorem eq_of_sameParams {ps ps' : List (Parameter Expr)} (h : sameParams ps ps' = true) :
    ps = ps' := by
  fun_induction sameParams ps ps' with
  | case1 => rfl
  | case2 p rest p' rest' ih =>
    obtain ⟨kind, name, annotated, default⟩ := p
    obtain ⟨kind', name', annotated', default'⟩ := p'
    simp only [Bool.and_eq_true, sameParam, beq_iff_eq] at h
    obtain ⟨⟨⟨⟨rfl, rfl⟩, hannotated⟩, hdefault⟩, hrest⟩ := h
    rw [eq_of_sameExpr? hannotated, eq_of_sameExpr? hdefault, ih hrest]
  | case3 => simp at h

/-! ## Statements -/

mutual

/-- Whether two statements are the same; `false` if they have other forms than functions and
classes without keywords, assignments, updates, branches, loops, returns, raises, expressions and
`pass`. -/
def sameStmt : Stmt → Stmt → Bool
  | .functionDef a x ps body ds r, .functionDef a' x' ps' body' ds' r' =>
    a == a' && x == x' && sameParams ps ps' && sameStmts body body' && sameExprs ds ds' &&
      sameExpr? r r'
  | .classDef x bases [] body ds, .classDef x' bases' [] body' ds' =>
    x == x' && sameExprs bases bases' && sameStmts body body' && sameExprs ds ds'
  | .ret value, .ret value' => sameExpr? value value'
  | .assign targets value, .assign targets' value' =>
    sameExprs targets targets' && sameExpr value value'
  | .augAssign target op value, .augAssign target' op' value' =>
    sameExpr target target' && op == op' && sameExpr value value'
  | .ifThen test body orelse, .ifThen test' body' orelse' =>
    sameExpr test test' && sameStmts body body' && sameStmts orelse orelse'
  | .forLoop a target e body orelse, .forLoop a' target' e' body' orelse' =>
    a == a' && sameExpr target target' && sameExpr e e' && sameStmts body body' &&
      sameStmts orelse orelse'
  | .raise e cause, .raise e' cause' => sameExpr? e e' && sameExpr? cause cause'
  | .expression e, .expression e' => sameExpr e e'
  | .pass, .pass => true
  | _, _ => false

/-- Whether the statements of two lists are the same. -/
def sameStmts : List Stmt → List Stmt → Bool
  | [], [] => true
  | s :: rest, s' :: rest' => sameStmt s s' && sameStmts rest rest'
  | _, _ => false

end

/-- Statements that compare as the same are equal. -/
theorem eq_of_sameStmts {ss ss' : List Stmt} (h : sameStmts ss ss' = true) : ss = ss' := by
  refine (sameStmt.mutual_induct (fun s s' => sameStmt s s' = true → s = s')
    (fun ss ss' => sameStmts ss ss' = true → ss = ss')
    ?function ?class_ ?ret ?assign ?update ?branch ?loop ?raise ?expression ?pass ?other ?nil ?cons
    ?uneven).2 ss ss' h
  case function =>
    intro a x ps body ds r a' x' ps' body' ds' r' ih h
    simp only [sameStmt, Bool.and_eq_true, beq_iff_eq] at h
    obtain ⟨⟨⟨⟨⟨rfl, rfl⟩, hps⟩, hbody⟩, hds⟩, hr⟩ := h
    rw [eq_of_sameParams hps, ih hbody, eq_of_sameExprs hds, eq_of_sameExpr? hr]
  case class_ =>
    intro x bases body ds x' bases' body' ds' ih h
    simp only [sameStmt, Bool.and_eq_true, beq_iff_eq] at h
    obtain ⟨⟨⟨rfl, hbases⟩, hbody⟩, hds⟩ := h
    rw [eq_of_sameExprs hbases, ih hbody, eq_of_sameExprs hds]
  case ret =>
    intro value value' h
    simp only [sameStmt] at h
    rw [eq_of_sameExpr? h]
  case assign =>
    intro targets value targets' value' h
    simp only [sameStmt, Bool.and_eq_true] at h
    rw [eq_of_sameExprs h.1, eq_of_sameExpr h.2]
  case update =>
    intro target op value target' op' value' h
    simp only [sameStmt, Bool.and_eq_true, beq_iff_eq] at h
    rw [eq_of_sameExpr h.1.1, h.1.2, eq_of_sameExpr h.2]
  case branch =>
    intro test body orelse test' body' orelse' ihbody ihorelse h
    simp only [sameStmt, Bool.and_eq_true] at h
    rw [eq_of_sameExpr h.1.1, ihbody h.1.2, ihorelse h.2]
  case loop =>
    intro a target e body orelse a' target' e' body' orelse' ihbody ihorelse h
    simp only [sameStmt, Bool.and_eq_true, beq_iff_eq] at h
    obtain ⟨⟨⟨⟨rfl, htarget⟩, he⟩, hbody⟩, horelse⟩ := h
    rw [eq_of_sameExpr htarget, eq_of_sameExpr he, ihbody hbody, ihorelse horelse]
  case raise =>
    intro e cause e' cause' h
    simp only [sameStmt, Bool.and_eq_true] at h
    rw [eq_of_sameExpr? h.1, eq_of_sameExpr? h.2]
  case expression =>
    intro e e' h
    simp only [sameStmt] at h
    rw [eq_of_sameExpr h]
  case pass => exact fun _ => rfl
  case other =>
    intro s s' h₁ h₂ h₃ h₄ h₅ h₆ h₇ h₈ h₉ h₁₀ h
    rw [sameStmt] at h
    · simp at h
    all_goals assumption
  case nil => exact fun _ => rfl
  case cons =>
    intro s rest s' rest' ihs ihrest h
    simp only [sameStmts, Bool.and_eq_true] at h
    rw [ihs h.1, ihrest h.2]
  case uneven =>
    intro ss ss' h₁ h₂ h
    rw [sameStmts] at h
    · simp at h
    all_goals assumption

/-! ## Texts put together from literals -/

/-- A text spells characters.  A literal is the string of a list of characters, so these are found
by unification, where taking a string apart would decode its bytes. -/
inductive Spells : String → List Char → Prop
  | append {s t : String} {cs ds : List Char} (hs : Spells s cs) (ht : Spells t ds) :
    Spells (s ++ t) (cs ++ ds)
  | literal (cs : List Char) : Spells (String.ofList cs) cs

theorem Spells.toList_eq {s : String} {cs : List Char} (h : Spells s cs) : s.toList = cs := by
  induction h with
  | append _ _ ihs iht => rw [String.toList_append, ihs, iht]
  | literal cs => exact String.toList_ofList

theorem readStatements_eq {text : String} {cs : List Char} {statements : List Stmt}
    (hspells : Spells text cs) (h : (readChars noNames cs).any (sameStmts statements ·) = true) :
    readStatements text = some statements := by
  obtain ⟨read, hread, hsame⟩ := Option.any_eq_true _ _ |>.mp h
  rw [readStatements, hspells.toList_eq, hread, eq_of_sameStmts hsame]

/-! ## Texts given by lines -/

/-- Lines spell characters, each with a line break behind it. -/
inductive Spelled : List String → List Char → Prop
  | nil : Spelled [] []
  | cons {line : List Char} {lines : List String} {cs : List Char} (h : Spelled lines cs) :
    Spelled (String.ofList line :: lines) (line ++ '\n' :: cs)

theorem Spelled.flatMap_eq {lines : List String} {cs : List Char} (h : Spelled lines cs) :
    (lines.flatMap fun l => l.toList ++ ['\n']) = cs := by
  induction h with
  | nil => rfl
  | cons _ ih => simp [ih]

theorem readStatements_lines {lines : List String} {cs : List Char} {statements : List Stmt}
    (hspelled : Spelled lines cs) (h : (readChars noNames cs).any (sameStmts statements ·) = true) :
    readStatements (String.ofList (lines.flatMap fun l => l.toList ++ ['\n'])) =
      some statements := by
  rw [hspelled.flatMap_eq]
  exact readStatements_eq (.literal cs) h

end ContractKit.Source
