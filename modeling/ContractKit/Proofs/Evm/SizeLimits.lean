import ContractKit.Proofs.Evm.ContractSizes
import ContractKit.Proofs.Evm.TextWords
import ContractKit.Proofs.Layout.OutlineBounds
import ContractKit.Proofs.Layout.Reanalysis

/-!
# Compiling fails only for size

Let all literals of a source be such that they can be pushed, and let the texts in it that look
like addresses be hexadecimal numbers.  Then nothing stops the analysis of the source, and the first
values of its variables can be stored.  Code grows with the tree that it is made from, so the code
of a source that is at all small enough to be written down has a size that can be pushed.  Whatever
statements and expressions there are in such a source, it is compiled unless its contract is too
big; and if it is, compiling fails because a number does not fit into two bytes.
-/

namespace ContractKit

open Source Layout Evm

/-! ## Assigned values -/

namespace Text

/-- A text that looks like an address has no sign. -/
theorem integer?_nonneg {s : Points} {i : Int} (hlooks : looksLikeAddress s = true)
    (h : integer? 16 s = some i) : 0 ≤ i := by
  obtain ⟨-, hfront⟩ := Bool.and_eq_true_iff.mp hlooks
  obtain ⟨rest, rfl⟩ := List.isPrefixOf_iff_prefix.mp hfront
  -- A digit is no blank, so it stays in front when blanks are taken away on both sides.
  have htrimmed : ∃ more, ((([48, 120] ++ rest).dropWhile isNumberBlank).reverse.dropWhile
      isNumberBlank).reverse = 48 :: more := by
    rw [List.cons_append, List.dropWhile_cons_of_neg (by decide), List.reverse_cons,
      List.dropWhile_append]
    split
    · exact ⟨[], rfl⟩
    · exact ⟨_, List.reverse_append⟩
  obtain ⟨more, hmore⟩ := htrimmed
  simp only [integer?, hmore] at h
  obtain ⟨n, -, rfl⟩ := Option.map_eq_some_iff.mp h
  exact Int.natCast_nonneg n

end Text

/-- What a text gives to a variable can be stored. -/
theorem storable_textValue {s : Text.Points} (hencodes : ∃ bytes, s.encode = .ok bytes)
    (haddress : looksLikeAddress s = true → (Text.integer? 16 s).isSome = true) :
    ∃ value type, textValue s = .ok (value, type) ∧ StorableValue value := by
  unfold textValue
  split
  case isTrue hlooks =>
    obtain ⟨i, hi⟩ := Option.isSome_iff_exists.mp (haddress hlooks)
    obtain ⟨hlength, -⟩ := Bool.and_eq_true_iff.mp hlooks
    have hlt := Text.natAbs_integer?_lt hi
    have hpos := Text.integer?_nonneg hlooks hi
    rw [beq_iff_eq.mp hlength] at hlt
    have hword : 16 ^ addressLength < 2 ^ 256 := by decide
    refine ⟨.int i, .address, by simp only [hi], hpos, ?_⟩
    omega
  case isFalse =>
    obtain ⟨bytes, hbytes⟩ := hencodes
    have hlt := bigEndian_lt (wordBytes bytes)
    rw [length_wordBytes] at hlt
    refine ⟨.int (bigEndian (wordBytes bytes)), .bytes32, by simp only [hbytes], ?_⟩
    exact ⟨Int.natCast_nonneg _, by exact_mod_cast hlt⟩

/-- A source whose literals can all be pushed, and in which the texts assigned to variables that
look like addresses are hexadecimal numbers. -/
structure Analyzable (statements : List Stmt) : Prop where
  literals : Pushables (parts statements)
  addresses : ∀ x s, .assign x (.literal (.text s)) ∈ outline statements →
    looksLikeAddress s = true → (Text.integer? 16 s).isSome = true

namespace Analyzable

variable {statements : List Stmt} {x : String} {e : Expr}

theorem storable (h : Analyzable statements) (hm : .assign x e ∈ outline statements) :
    ∃ value type, assignedValue e = .ok (value, type) ∧ StorableValue value := by
  have hliterals : Pushables e.parts :=
    h.literals.mono ((covers_outline statements).parts _ hm)
  have hzero : StorableValue (.int 0) := ⟨le_rfl, by norm_num⟩
  unfold assignedValue
  split
  · exact ⟨_, _, rfl, rfl⟩
  · exact ⟨_, _, rfl, hzero⟩
  case h_3 s =>
    have hpush := hliterals (.text s) List.mem_cons_self
    exact storable_textValue hpush (h.addresses x s hm)
  case h_4 v htext =>
    have hpush := hliterals v List.mem_cons_self
    refine ⟨_, _, rfl, ?_⟩
    cases v with
    | int n => exact hpush
    | bool b => trivial
    | bytes b => exact hpush
    | text s => exact (htext s rfl).elim
    | none | float _ | imaginary _ | ellipsis => exact hpush.elim
  · exact ⟨_, _, rfl, hzero⟩

end Analyzable

theorem word_le_shown : 2 ^ 256 ≤ 10 ^ Value.maxShownDigits := calc
  2 ^ 256 ≤ 10 ^ 256 := Nat.pow_le_pow_left (by norm_num) _
  _ ≤ 10 ^ Value.maxShownDigits := Nat.pow_le_pow_right (by norm_num) (by decide)

section Shown

-- The least number that cannot be shown is too big to be evaluated.
attribute [local irreducible] Value.maxShownDigits

theorem shown_of_storable {value : Value} (h : StorableValue value) :
    value.shown?.isNone = false := by
  cases value with
  | int n =>
    have hlt : ¬10 ^ Value.maxShownDigits ≤ n.natAbs := by
      have hword := word_le_shown
      have hn := h.2
      have hpos := h.1
      omega
    have hshown : (Value.int n).shown? = some (toString n) := if_neg hlt
    rw [hshown, Option.isNone_some]
  | bool b => rfl
  | bytes b => rfl
  | dict entries =>
    obtain rfl : entries = [] := h
    rfl
  | none | float _ | imaginary _ | text _ | list _ | ellipsis => exact h.elim

end Shown

/-- Landmarks at which only storable values are assigned do not stop an analysis. -/
theorem fault?_eq_none {landmarks : List Landmark}
    (h : ∀ x e, .assign x e ∈ landmarks →
      ∃ value type, assignedValue e = .ok (value, type) ∧ StorableValue value)
    (inside : Bool) : fault? inside landmarks = none := by
  induction landmarks generalizing inside with
  | nil => rfl
  | cons m rest ih =>
    have hrest := ih (fun x e hm => h x e (List.mem_cons_of_mem _ hm)) (m.inside inside)
    have hfirst : m.fault? inside = none := by
      cases m with
      | assign x e =>
        obtain ⟨value, type, hvalue, hstorable⟩ := h x e List.mem_cons_self
        simp only [Landmark.fault?, hvalue, shown_of_storable hstorable, Bool.and_false,
          Bool.false_eq_true, if_false]
      | contract _ | constructor | function _ _ _ _ | leave => rfl
    rw [fault?, hfirst, hrest]
    rfl

/-! ## Sizes -/

namespace Evm

/-- An instruction takes at most 33 bytes. -/
theorem codeSize_le (is : List Instr) : codeSize is ≤ 33 * is.length := by
  induction is with
  | nil => exact le_rfl
  | cons i is ih =>
    have hfirst : i.encode.length ≤ 33 := by
      cases i with
      | op o h => simp
      | push bytes h =>
        simp only [Instr.length_encode_push]
        omega
    rw [codeSize_cons, List.length_cons]
    omega

theorem length_exprCode_le (S : Scope) (expr : Expr) :
    (exprCode S expr).length ≤ 3 * expr.parts.length := by
  fun_induction exprCode S expr with
  | case1 | case2 | case3 | case4 | case5 => simp [Expr.parts]
  | case6 field index slot _ ih =>
    simp only [List.length_append, List.length_cons, List.length_nil, Expr.parts]
    omega
  | case7 field index _ =>
    simp only [List.length_append, List.length_cons, List.length_nil, Expr.parts]
    omega
  | case8 left op right ihl ihr =>
    have hop : (binaryCode op).length ≤ 3 := by cases op <;> decide
    simp only [List.length_append, List.length_cons, Expr.parts]
    omega
  | case9 left op right ihl ihr =>
    have hop : (compareCode op).length ≤ 3 := by cases op <;> decide
    simp only [List.length_append, List.length_cons, Expr.parts]
    omega
  | case10 left op right more _ ih =>
    simp only [List.length_append, List.length_cons, Expr.parts]
    omega
  | case11 expr =>
    have hpos : 1 ≤ expr.parts.length := by cases expr <;> simp [Expr.parts]
    simp only [List.length_singleton]
    omega

theorem length_assignCode_le (S : Scope) (target value : Expr) :
    (assignCode S target value).length ≤ 3 * (target.parts.length + value.parts.length + 1) := by
  have hvalue := length_exprCode_le S value
  unfold assignCode
  split
  case h_1 field =>
    split
    · simp only [List.length_append, List.length_cons, List.length_nil]
      omega
    · simp
  case h_2 field index =>
    have hindex := length_exprCode_le S index
    split
    · simp only [List.length_append, List.length_cons, List.length_nil, Expr.parts]
      omega
    · simp
  case h_3 => simp

/-- There are at most seven instructions for each part of statements. -/
theorem length_stmtsListing_le (S : Scope) (start : Nat) (ss : List Stmt) :
    (stmtsListing S start ss).length ≤ 7 * (parts ss).length := by
  refine (compileStmt.mutual_induct
    (fun s => ∀ start, (stmtListing S start s).length ≤ 7 * s.parts.length)
    (fun ss => ∀ start, (stmtsListing S start ss).length ≤ 7 * (parts ss).length)
    ?assign ?ret ?retNone ?branch ?other ?nil ?cons).2 ss start
  case assign =>
    intro target value start
    have hassign := length_assignCode_le S target value
    simp only [stmtListing, Stmt.parts, exprsParts, List.length_cons, List.length_append]
    omega
  case ret =>
    intro value start
    have hvalue := length_exprCode_le S value
    have hword : returnWordCode.length = 5 := rfl
    simp only [stmtListing, Stmt.parts, optionParts, List.length_append, hword, List.length_cons]
    omega
  case retNone =>
    intro start
    exact (by decide : returnEmptyCode.length ≤ 7)
  case branch =>
    intro test body orelse hbody horelse start
    have htest := length_exprCode_le S test
    have hfirst := hbody (start + codeSize (exprCode S test) + 5)
    have hsecond := horelse (elseTarget start (exprCode S test)
      (stmtsListing S (start + codeSize (exprCode S test) + 5) body) + 1)
    simp only [stmtListing, Stmt.parts, branchCode, List.length_cons, List.length_append,
      List.length_nil]
    omega
  case other =>
    intro s h₁ h₂ h₃ h₄ start
    rw [stmtListing]
    · exact Nat.zero_le _
    all_goals assumption
  case nil => exact fun _ => le_rfl
  case cons =>
    intro s rest hs hrest start
    have hfirst := hs start
    have hothers := hrest (start + codeSize (stmtListing S start s))
    simp only [stmtsListing, parts, List.length_append]
    omega

/-- The code of functions is bounded by their number and the biggest of their bodies. -/
theorem length_functionListings_le {c : ContractState} {n : Nat} {fs : List (String × Function)}
    (h : ∀ entry ∈ fs, (parts entry.2.body).length ≤ n) (start : Nat) :
    (functionListings c start fs).flatten.length ≤ fs.length * (7 * n + 7) := by
  induction fs generalizing start with
  | nil => exact Nat.zero_le _
  | cons entry rest ih =>
    obtain ⟨name, f⟩ := entry
    obtain ⟨hf, hrest⟩ := List.forall_mem_cons.mp h
    have hbody := (length_stmtsListing_le (bodyScope c f) (start + 1) f.body).trans
      (Nat.mul_le_mul_left 7 hf)
    have hending : (endingCode f).length ≤ 6 := by
      unfold endingCode
      split
      · decide
      · split <;> decide
    have hothers := ih hrest (start + codeSize (functionListing c start f))
    rw [functionListings, List.flatten_cons, List.length_append, List.length_cons, Nat.succ_mul]
    simp only [functionListing, List.length_cons, List.length_append] at hothers ⊢
    omega

end Evm

/-! ## The contract -/

theorem Assoc.length_grow_le (ks new : List String) :
    (Assoc.grow ks new).length ≤ ks.length + new.length := by
  induction new generalizing ks with
  | nil => exact le_rfl
  | cons k rest ih =>
    have hadd : (Assoc.addKey ks k).length ≤ ks.length + 1 := by
      unfold Assoc.addKey
      split <;> simp
    have hrest := ih (Assoc.addKey ks k)
    rw [List.length_cons]
    exact hrest.trans (by omega)

variable {statements : List Stmt}

/-- A table that grows by at most one entry with a landmark has no more than a source has parts. -/
theorem Analyzer.GrowsBy.length_le {keysOf : Layout → List String}
    {new? : Landmark → Option String} (hgrows : Analyzer.GrowsBy keysOf new?)
    (hempty : keysOf {} = []) (hend : (({} : Analyzer).analyze statements).2 = none) :
    (keysOf (({} : Analyzer).analyze statements).1.layout).length ≤ (parts statements).length := by
  have hkeys := hgrows.walk hend
  rw [← Analyzer.analyze, hempty] at hkeys
  rw [hkeys]
  calc _ ≤ ((outline statements).filterMap new?).length := by
        simpa using Assoc.length_grow_le [] ((outline statements).filterMap new?)
    _ ≤ (outline statements).length := List.length_filterMap_le _ _
    _ ≤ (parts statements).length := (covers_outline statements).length

theorem length_le_paramParts (params : List (Parameter Expr)) :
    params.length ≤ (paramParts params).length := by
  induction params with
  | nil => exact le_rfl
  | cons p rest ih =>
    simp only [paramParts, List.length_cons, List.length_append]
    omega

/-- A function that comes from a definition in a source is made from its parts. -/
theorem Analyzer.function_parts {entry : String × Function}
    (hentry : entry ∈ (({} : Analyzer).analyze statements).1.layout.functions) :
    entry.2.args.length ≤ (parts statements).length ∧
      (parts entry.2.body).Sublist (parts statements) := by
  let FromParts (l : Layout) : Prop := ∀ entry ∈ l.functions,
    entry.2.args.length ≤ (parts statements).length ∧
      (parts entry.2.body).Sublist (parts statements)
  suffices hall : FromParts (({} : Analyzer).walk (outline statements)).1.layout
    from hall entry hentry
  refine Analyzer.walk_keeps (fun m hm a h => ?_) (by simp [FromParts])
  cases m with
  | contract _ | constructor | leave => exact h
  | assign x e =>
    have hsame : (a.step (.assign x e)).1.layout.functions = a.layout.functions :=
      Analyzer.functions_assign a x e
    exact fun entry hentry => h entry (hsame ▸ hentry)
  | function name params body decorators =>
    intro entry hentry
    rcases Assoc.mem_set hentry with hold | rfl
    · exact h entry hold
    · have hparts : (paramParts params ++ parts body).Sublist (parts statements) :=
        (covers_outline statements).parts _ hm
      have hparams := length_le_paramParts params
      have hargs : ((listedParams params).map Parameter.name).length ≤ params.length := by
        simpa [listedParams] using List.length_filter_le _ params
      have hlength := hparts.length_le
      rw [List.length_append] at hlength
      simp only [Layout.functionOf]
      exact ⟨by omega, (List.sublist_append_right _ _).trans hparts⟩

namespace Analyzable

theorem analyze_ends (h : Analyzable statements) :
    (({} : Analyzer).analyze statements).2 = none := by
  rw [Analyzer.analyze, Analyzer.fault_walk]
  exact fault?_eq_none (fun _ _ hm => h.storable hm) _

/-- All that the code of the contract pushes fits into words if the source is small enough. -/
theorem fitsWords (h : Analyzable statements) (hsize : (parts statements).length < 2 ^ 80) :
    FitsWords (({} : Analyzer).analyze statements).1.layout.toState := by
  have hend := h.analyze_ends
  have hanalyzed := Analyzed.of_fresh hend
  set c := (({} : Analyzer).analyze statements).1.layout.toState with hc
  have hslots : c.slots.length ≤ (parts statements).length := by
    simpa [hc, Layout.toState, Assoc.keys] using Analyzer.growsBy_variable.length_le rfl hend
  have hcount : c.dispatchable.length ≤ (parts statements).length := by
    refine (List.length_filter_le _ _).trans ?_
    simpa [hc, Layout.toState, Assoc.keys] using Analyzer.growsBy_function.length_le rfl hend
  have hparts : ∀ entry ∈ c.dispatchable, entry.2.args.length ≤ (parts statements).length ∧
      (parts entry.2.body).Sublist (parts statements) :=
    fun entry hentry => Analyzer.function_parts (List.mem_filter.mp hentry).1
  refine ⟨fun entry he => ?_, fun entry he => h.literals.mono (hparts entry he).2,
    fun entry he => ?_, fun entry _ => ?_, ?_⟩
  case refine_1 =>
    have hargs := (hparts entry he).1
    exact bodyScope_fits_of_lt hanalyzed (by omega) (by omega)
  case refine_2 =>
    obtain ⟨hpos, hlt⟩ := hanalyzed.slot_lt he
    exact ⟨hpos, by omega⟩
  case refine_3 =>
    have hrecorded := Analyzer.recorded_analyze (x := entry.1) (Prod.ext rfl hend)
    simp only [hc, ContractState.initialValue, Layout.toState, hrecorded]
    cases hlast : lastAssigned? entry.1 (outline statements) with
    | none => exact ⟨le_rfl, by norm_num⟩
    | some e =>
      obtain ⟨value, type, hvalue, hstorable⟩ := h.storable (mem_of_lastAssigned? hlast)
      simpa [firstValue?, hvalue, Except.toOption] using hstorable
  case refine_4 =>
    have hlength := length_functionListings_le (c := c)
      (fun entry he => (hparts entry he).2.length_le) (functionsStart c)
    have hcode := codeSize_le
      (functionListings c (functionsStart c) c.dispatchable).flatten
    have hsquare : c.dispatchable.length * (7 * (parts statements).length + 7) ≤
        2 ^ 80 * (7 * 2 ^ 80 + 7) := Nat.mul_le_mul (by omega) (by omega)
    simp only [runtimeSize, functionsStart, revertStart] at hlength hcode ⊢
    omega

end Analyzable

/-- A source is compiled exactly if its contract is not too big, and then its code has the size that
the contract gives.  Otherwise compiling fails because a number does not fit into two bytes.  This
holds whatever the statements are, as long as all literals outside of annotations can be pushed
and those assigned to variables that look like addresses are hexadecimal numbers; that the tree is
smaller than any that a machine can hold makes sure that sizes can be pushed. -/
theorem compiled_or_oversized {text : String}
    (hread : readStatements text = some statements) (hsize : (parts statements).length < 2 ^ 80)
    (hliterals : ∀ v, .literal v ∈ parts statements → (Value.ofLiteral v).Pushable)
    (haddresses : ∀ x s, .assign x (.literal (.text s)) ∈ outline statements →
      looksLikeAddress s = true → (Text.integer? 16 s).isSome = true) :
    (¬Oversized (compile text).1.contract ∧
      ∃ r, (compile text).2.result = .ok r ∧ r.code.length =
        creationSize (compile text).1.contract + runtimeSize (compile text).1.contract) ∨
    (Oversized (compile text).1.contract ∧
      (compile text).2.result = .error (.fault .wordTooBig)) := by
  have hanalyzable : Analyzable statements := ⟨hliterals, haddresses⟩
  obtain ⟨hcontract, hcompiled, hfails⟩ := compile_of_analyzed hread hanalyzable.analyze_ends rfl
  rw [hcontract]
  rcases emitContract_or (hanalyzable.fitsWords hsize) with
    ⟨hsmall, e, hok, hlength⟩ | ⟨hlarge, e, hfail⟩
  · obtain ⟨r, hr, hcode⟩ := hcompiled e hok
    exact .inl ⟨hsmall, r, hr, by rw [hcode, hlength]⟩
  · exact .inr ⟨hlarge, hfails _ e hfail⟩

/-- The vault is small enough, so it is compiled: to 54 bytes of creation code and 20 bytes of
runtime code. -/
theorem vault_compiled :
    readStatements vaultText = some vaultStatements ∧
      looksLikeAddress ownerText = true ∧
      ∃ r, (compile vaultText).2.result = .ok r ∧ r.code.length = 54 + 20 := by
  have hsize : (parts vaultStatements).length < 2 ^ 80 := by decide
  have hliterals : ∀ v, .literal v ∈ parts vaultStatements → (Value.ofLiteral v).Pushable := by
    have hparts : ∀ v, .literal v ∈ parts vaultStatements →
        v = .text (Text.pointsOf "vault") ∨ v = .text ownerText := by
      simp [vaultStatements, plainMethod, setToText, textLiteral, parts,
        Stmt.parts, Expr.parts, exprsParts, keywordParts, paramParts, optionParts]
    intro v hv
    rcases hparts v hv with rfl | rfl
    · exact ⟨_, rfl⟩
    · exact ⟨_, rfl⟩
  have haddresses : ∀ x s, .assign x (.literal (.text s)) ∈ outline vaultStatements →
      looksLikeAddress s = true → (Text.integer? 16 s).isSome = true := by
    intro x s hm hlooks
    simp only [outline_vault, textLiteral, List.mem_cons, reduceCtorEq, false_or,
      List.not_mem_nil, or_false, Landmark.assign.injEq, Expr.literal.injEq,
      Literal.text.injEq] at hm
    rcases hm with ⟨-, rfl⟩ | ⟨-, rfl⟩
    · exact absurd hlooks (by decide)
    · decide +kernel
  have hcontract := (compile_of_analyzed read_vault
    (Analyzable.analyze_ends ⟨hliterals, haddresses⟩) rfl).1
  refine ⟨read_vault, rfl, ?_⟩
  obtain ⟨-, r, hok, hlength⟩ | ⟨hlarge, -⟩ :=
    compiled_or_oversized read_vault hsize hliterals haddresses
  · have hsizes : creationSize (({} : Analyzer).analyze vaultStatements).1.layout.toState +
        runtimeSize (({} : Analyzer).analyze vaultStatements).1.layout.toState =
          54 + 20 := by
      decide +kernel
    exact ⟨r, hok, by rw [hlength, hcontract, hsizes]⟩
  · have hsmall : ¬Oversized
        (({} : Analyzer).analyze vaultStatements).1.layout.toState := by
      decide +kernel
    exact (hsmall (hcontract ▸ hlarge)).elim

end ContractKit
