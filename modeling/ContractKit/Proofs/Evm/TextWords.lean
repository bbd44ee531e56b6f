import ContractKit.Proofs.Evm.Aliasing
import ContractKit.Proofs.Evm.Expressions
import ContractKit.Proofs.Evm.InitialStorage

/-!
# Words of texts

A text stands for a word in two places.  As the first value of a variable it is turned into a
number, which the creation code stores; in an expression of a function it is pushed as 32 bytes.
Both take the first 32 bytes of its UTF-8 form and fill them up with zeros.

A text that looks like an address is the exception: the number it spells is stored, but its bytes
are pushed.  The number is below the power of sixteen that belongs to its length, whereas the
bytes begin with a digit zero and so make one of the greatest words.  The two never agree, and
a variable that was set to an address is found to differ from it.
-/

namespace ContractKit.Text

/-! ## The number that a text spells -/

variable {base value n : Nat} {s : Points}

theorem baseDigit?_lt {point : Nat} (h : baseDigit? base point = some n) : n < base := by
  obtain ⟨d, -, hd⟩ := Option.bind_eq_some_iff.mp h
  by_cases hlt : d < base
  · rw [if_pos hlt] at hd
    exact Option.some.inj hd ▸ hlt
  · simp [hlt] at hd

/-- Every digit multiplies what has been read by the base and adds less than that. -/
theorem digitsToEnd?_lt {previous : Bool} (hbase : 0 < base)
    (h : digitsToEnd? base value previous s = some n) : n < (value + 1) * base ^ s.length := by
  induction s generalizing value previous with
  | nil =>
    by_cases hprevious : previous = true
    · obtain rfl : value = n := by simpa [digitsToEnd?, hprevious] using h
      simp
    · simp [digitsToEnd?, hprevious] at h
  | cons point rest ih =>
    rw [digitsToEnd?] at h
    have hgrows : base ^ rest.length ≤ base ^ (rest.length + 1) :=
      Nat.pow_le_pow_right hbase (by omega)
    split at h
    · split at h
      · exact (ih h).trans_le (Nat.mul_le_mul_left _ hgrows)
      · simp at h
    · obtain ⟨d, hd, h⟩ := Option.bind_eq_some_iff.mp h
      have hdigit := baseDigit?_lt hd
      have hnext : value * base + d + 1 ≤ (value + 1) * base := by
        rw [Nat.add_mul]
        omega
      calc n < (value * base + d + 1) * base ^ rest.length := ih h
        _ ≤ (value + 1) * base * base ^ rest.length := Nat.mul_le_mul_right _ hnext
        _ = (value + 1) * base ^ (rest.length + 1) := by rw [pow_succ]; ring

theorem magnitude?_lt (h : magnitude? 16 s = some n) : n < 16 ^ s.length := by
  have hdigits : ∀ {more : Points}, more.length ≤ s.length →
      digitsToEnd? 16 0 false more = some n → n < 16 ^ s.length := by
    intro more hlength hmore
    have hlt := digitsToEnd?_lt (by norm_num) hmore
    rw [Nat.zero_add, Nat.one_mul] at hlt
    exact hlt.trans_le (Nat.pow_le_pow_right (by norm_num) hlength)
  unfold magnitude? at h
  split at h
  · split at h
    · split at h <;> exact hdigits (by simp only [List.length_cons]; omega) h
    · exact hdigits le_rfl h
  · exact hdigits le_rfl h

/-- A number in base sixteen is below the power that belongs to the length of its text. -/
theorem natAbs_integer?_lt {i : Int} (h : integer? 16 s = some i) : i.natAbs < 16 ^ s.length := by
  have htrimmed : ((s.dropWhile isNumberBlank).reverse.dropWhile isNumberBlank).reverse.length ≤
      s.length := by
    rw [List.length_reverse]
    refine (List.length_dropWhile_le _ _).trans ?_
    rw [List.length_reverse]
    exact List.length_dropWhile_le _ _
  have hmagnitude : ∀ {more : Points} {n : Nat}, more.length ≤ s.length →
      magnitude? 16 more = some n → n < 16 ^ s.length := fun hlength hmore =>
    (magnitude?_lt hmore).trans_le (Nat.pow_le_pow_right (by norm_num) hlength)
  unfold integer? at h
  simp only at h
  split at h
  all_goals
    obtain ⟨n, hn, rfl⟩ := Option.map_eq_some_iff.mp h
  case h_1 rest hrest =>
    rw [hrest, List.length_cons] at htrimmed
    exact hmagnitude (by omega) hn
  case h_2 rest hrest =>
    rw [hrest, List.length_cons] at htrimmed
    obtain ⟨k, hk, hcast⟩ := Option.bind_eq_some_iff.mp hn
    obtain rfl := Option.some.inj hcast
    rw [Int.natAbs_neg, Int.natAbs_natCast]
    exact hmagnitude (by omega) hk
  case h_3 => exact hmagnitude htrimmed hn

end ContractKit.Text

namespace ContractKit.Evm

open Source Layout

variable {s : Text.Points} {bytes : List UInt8}

/-! ## The two words of a text -/

theorem pushedBytes_text (h : s.encode = .ok bytes) :
    pushedBytes (.ofLiteral (.text s)) = wordBytes bytes := by
  simp [pushedBytes, Value.ofLiteral, operand, h]

/-- The bytes of a text that looks like an address begin with that of a digit zero. -/
theorem bytes_of_address (haddress : looksLikeAddress s = true) (h : s.encode = .ok bytes) :
    s.length = addressLength ∧ ∃ more, bytes = 48 :: more := by
  obtain ⟨hlength, hprefix⟩ := Bool.and_eq_true_iff.mp haddress
  obtain ⟨rest, rfl⟩ := List.isPrefixOf_iff_prefix.mp hprefix
  refine ⟨by simpa using hlength, ?_⟩
  unfold Text.Points.encode at h
  split at h
  · simp at h
  · obtain rfl := Except.ok.inj h
    exact ⟨_, rfl⟩

theorem wordBytes_cons_ge (b : UInt8) (more : List UInt8) :
    b.toNat * 256 ^ 31 ≤ bigEndian (wordBytes (b :: more)) := by
  have hcons : ∃ tail, wordBytes (b :: more) = b :: tail := ⟨_, rfl⟩
  obtain ⟨tail, htail⟩ := hcons
  have hlength : tail.length = 31 := by
    simpa [htail] using length_wordBytes (b :: more)
  rw [htail, bigEndian_cons, hlength]
  exact Nat.le_add_right _ _

/-- **The two words of a text.**  Let a text give a variable a first value that a word can hold.
The word that is stored and the word that is pushed are the same iff the text does not look like an
address. -/
theorem stored_eq_pushed_iff {value : Value} {type : VarType} (h : s.encode = .ok bytes)
    (hvalue : textValue s = .ok (value, type)) (hstorable : StorableValue value) :
    valueWord value = wordOf (wordBytes bytes) ↔ looksLikeAddress s = false := by
  unfold textValue at hvalue
  by_cases haddress : looksLikeAddress s = true
  · rw [if_pos haddress] at hvalue
    split at hvalue
    case h_2 => simp at hvalue
    case h_1 i hi =>
    obtain rfl := (Prod.mk.inj (Except.ok.inj hvalue)).1
    obtain ⟨hlength, more, rfl⟩ := bytes_of_address haddress h
    obtain ⟨n, rfl⟩ := Int.eq_ofNat_of_zero_le hstorable.1
    -- The number has 42 digits in base sixteen at most, the word begins with a byte 48.
    have hsmall : n < 16 ^ 42 := by
      have hlt := Text.natAbs_integer?_lt hi
      rwa [hlength, Int.natAbs_natCast] at hlt
    have hlarge : 48 * 256 ^ 31 ≤ bigEndian (wordBytes (48 :: more)) := wordBytes_cons_ge 48 more
    refine iff_of_false (fun hsame => ?_) (by simp [haddress])
    have hnat := congrArg BitVec.toNat hsame
    rw [toNat_wordOf (by simp), valueWord, BitVec.ofInt_natCast, BitVec.toNat_ofNat,
      Nat.mod_eq_of_lt (by omega)] at hnat
    omega
  · rw [if_neg haddress, h] at hvalue
    obtain rfl := (Prod.mk.inj (Except.ok.inj hvalue)).1
    refine iff_of_true ?_ (by simpa using haddress)
    rw [valueWord, BitVec.ofInt_natCast, wordOf]

/-! ## Expressions without arguments -/

/-- Compiled for a contract, whatever is written before and whatever the arguments of the function
are, the expression becomes code that pushes the word if the storage is this one. -/
def EvaluatesTo (c : ContractState) (σ : Storage) (expr : Expr) (w : Word) : Prop :=
  ∀ (e : Emitter) (args : ArgMap), e.contract = some c →
    ∃ bytes e', compileExpr args expr e = .ok () e' ∧ Wrote e bytes e' ∧
      ∀ env pc m, StandsAt env pc bytes → Passes env m σ pc [] (pc + bytes.length) [w]

variable {c : ContractState} {σ : Storage} {w : Word}

/-- An expression without names is compiled the same whatever the arguments are, so they need not
fit into words. -/
theorem evaluatesTo_of_stack {expr : Expr}
    (hslots : ∀ entry ∈ c.slots, 0 ≤ entry.2 ∧ entry.2 < 2 ^ 256)
    (hpush : ExprPushable expr) (hfits : ExprFits expr)
    (hargs : ∀ args, compileExpr args expr = compileExpr [] expr)
    (hstack : ∀ data, exprStack ⟨fun x => Assoc.get? x c.slots, []⟩ data σ expr = [w]) :
    EvaluatesTo c σ expr w := by
  intro e args hcontract
  have hscope : e.scope [] = ⟨fun x => Assoc.get? x c.slots, []⟩ := by
    have hslot : e.slot? = fun x => Assoc.get? x c.slots := by
      funext x
      simp [Emitter.slot?, hcontract]
    rw [Emitter.scope, hslot]
  have hS := Emitter.scope_fits hcontract hslots (by simp : ∀ entry ∈ ([] : ArgMap), _)
  obtain ⟨e', hok⟩ := succeeds_compileExpr hS hpush e rfl
  obtain ⟨bytes, hwrote, hpasses⟩ := compiled_passes hS hfits hok
  refine ⟨bytes, e', by rw [hargs]; exact hok, hwrote, fun env pc m hat => ?_⟩
  rw [← hstack env.data, ← hscope]
  exact hpasses env pc m σ hat

def textLiteral (s : Text.Points) : Expr := .literal (.text s)

/-- `self.x == "…"` -/
def fieldIsText (x : String) (s : Text.Points) : Expr :=
  .compare (.attribute (.name "self") x) .eq (textLiteral s) []

theorem evaluatesTo_textLiteral (hslots : ∀ entry ∈ c.slots, 0 ≤ entry.2 ∧ entry.2 < 2 ^ 256)
    (h : s.encode = .ok bytes) (σ : Storage) :
    EvaluatesTo c σ (textLiteral s) (wordOf (wordBytes bytes)) := by
  refine evaluatesTo_of_stack hslots ⟨bytes, h⟩ trivial (fun _ => ?_) fun _ => ?_
  · simp only [textLiteral, compileExpr]
  · simp only [textLiteral, exprStack, pushedBytes_text h]

/-- A variable is compared with a text by comparing words. -/
theorem evaluatesTo_fieldIsText {x : String} {slot : Int}
    (hslots : ∀ entry ∈ c.slots, 0 ≤ entry.2 ∧ entry.2 < 2 ^ 256)
    (hslot : Assoc.get? x c.slots = some slot) (h : s.encode = .ok bytes) (σ : Storage) :
    EvaluatesTo c σ (fieldIsText x s) (flag (σ (slotWord slot) = wordOf (wordBytes bytes))) := by
  refine evaluatesTo_of_stack hslots ⟨trivial, bytes, h⟩ ⟨trivial, trivial⟩ (fun _ => ?_)
    fun _ => ?_
  · simp only [fieldIsText, textLiteral, compileExpr]
  · simp only [fieldIsText, textLiteral, exprStack, hslot, pushedBytes_text h]
    rfl

/-! ## After creation -/

variable {source x : String} {statements : List Stmt} {r : Compiled}

/-- A created contract compares the first value of a variable with a text. -/
theorem created_compares {value : Value} {slot : Nat} (hsteps : CompileSteps source statements r)
    (hcreatable : Creatable source r) (hslot : Assoc.get? x (compile source).1.slots = some slot)
    (hrecorded : Assoc.get? x (compile source).1.contract.initialValues = some value)
    (hencoded : s.encode = .ok bytes) {data : List UInt8} (hdata : data.length < 2 ^ 256) :
    ∃ returned last,
      Halts ⟨r.code, data, hdata⟩ 0 r.code.length ⟨0, ⟨[], fun _ => 0, fun _ => 0⟩⟩
        (.returned returned) last ∧
      last.state.storage (BitVec.ofNat 256 slot) = valueWord value ∧
      EvaluatesTo (compile source).1.contract last.state.storage (fieldIsText x s)
        (flag (valueWord value = wordOf (wordBytes bytes))) := by
  obtain ⟨returned, last, slot', hhalts, hslot', hstored⟩ :=
    createdWith_of_recorded hsteps hcreatable hrecorded data hdata
  obtain rfl : slot = slot' := Option.some.inj (hslot.symm.trans hslot')
  have hget : Assoc.get? x (compile source).1.contract.slots = some (slot : Int) :=
    (Assoc.get?_map_values _ x _).trans (congrArg (Option.map _) hslot)
  have hequal := evaluatesTo_fieldIsText hsteps.slot_lt_word hget hencoded last.state.storage
  rw [slotWord, BitVec.ofInt_natCast, hstored] at hequal
  exact ⟨returned, last, hhalts, hstored, hequal⟩

/-- **A text in a variable of a created contract.**  Let a source be compiled in which a text is the
only thing that is assigned to a variable, and let a contract be created with its code.  Then the
variable holds the word that is pushed for the text in a function, and it compares as equal to the
text, iff the text does not look like an address. -/
theorem text_equal_after_creation_iff (hread : readStatements source = some statements)
    (hok : (compile source).2.result = .ok r) (hcreatable : Creatable source r)
    (hassigned : .assign x (textLiteral s) ∈ outline statements)
    (honly : ∀ e, .assign x e ∈ outline statements → e = textLiteral s)
    (hencoded : s.encode = .ok bytes) :
    ∃ slot stored pushed, Assoc.get? x (compile source).1.slots = some slot ∧
      (∀ σ, EvaluatesTo (compile source).1.contract σ (textLiteral s) pushed) ∧
      (∀ (data : List UInt8) (hdata : data.length < 2 ^ 256), ∃ returned last,
        Halts ⟨r.code, data, hdata⟩ 0 r.code.length ⟨0, ⟨[], fun _ => 0, fun _ => 0⟩⟩
          (.returned returned) last ∧
        last.state.storage (BitVec.ofNat 256 slot) = stored ∧
        EvaluatesTo (compile source).1.contract last.state.storage (fieldIsText x s)
          (flag (looksLikeAddress s = false))) ∧
      (stored = pushed ↔ looksLikeAddress s = false) := by
  have hsteps := CompileSteps.of_read hread hok
  obtain ⟨slot, hslot⟩ := slot_of_assigned hsteps hassigned
  obtain ⟨value, type, hvalue, hrecorded⟩ := recorded_of_only hsteps hassigned honly
  have hstorable : StorableValue value := by
    have hentry : (x, (slot : Int)) ∈ (compile source).1.contract.slots :=
      List.mem_map.mpr ⟨(x, slot), Assoc.mem_of_get? hslot, rfl⟩
    simpa [ContractState.initialValue, hrecorded] using hcreatable.values _ hentry
  have hiff := stored_eq_pushed_iff hencoded hvalue hstorable
  refine ⟨slot, valueWord value, wordOf (wordBytes bytes), hslot,
    evaluatesTo_textLiteral hsteps.slot_lt_word hencoded, fun data hdata => ?_, hiff⟩
  obtain ⟨returned, last, hhalts, hstored, hequal⟩ :=
    created_compares hsteps hcreatable hslot hrecorded hencoded hdata
  exact ⟨returned, last, hhalts, hstored, by simpa only [flag, hiff] using hequal⟩

/-! ## A vault that does not know its owner -/

def ownerText : Text.Points := Text.pointsOf "0x00000000000000000000000000000000000000a1"

/-- A constructor that sets two variables to texts, one of which looks like an address. -/
def vaultText : String :=
  "class Vault(PySmartContract):\n" ++
  "    def __init__(self):\n" ++
  "        self.label = \"vault\"\n" ++
  "        self.owner = \"0x00000000000000000000000000000000000000a1\"\n"

/-- The statement that sets a variable to a text. -/
def setToText (x : String) (s : Text.Points) : Stmt :=
  .assign [.attribute (.name "self") x] (textLiteral s)

/-- The same source as statements. -/
def vaultStatements : List Stmt :=
  [.classDef "Vault" [.name "PySmartContract"] []
    [plainMethod "__init__" [setToText "label" (Text.pointsOf "vault"),
      setToText "owner" ownerText]] []]

theorem read_vault : readStatements vaultText = some vaultStatements :=
  readStatements_eq (by repeat' constructor) (by decide +kernel)

theorem compile_vault : ∃ r, (compile vaultText).2.result = .ok r ∧ Creatable vaultText r :=
  exists_creatable (n := 74) read_vault (by decide +kernel) (by decide) (by decide +kernel)

theorem outline_vault : outline vaultStatements =
    [.contract "Vault", .constructor, .assign "label" (textLiteral (Text.pointsOf "vault")),
      .assign "owner" (textLiteral ownerText), .leave] := by
  have hbase : ([.name "PySmartContract"] : List Expr).any (isName contractBase) = true := by decide
  have hname : ("__init__" == constructorName) = true := by decide
  simp [vaultStatements, plainMethod, setToText, outline, outlineOf, hbase, hname, selfAttribute?]

/-- The label is an ordinary text: a created vault finds it in the variable. -/
theorem label_equal_after_creation :
    ∃ r, (compile vaultText).2.result = .ok r ∧
      ∀ (data : List UInt8) (hdata : data.length < 2 ^ 256), ∃ returned last,
        Halts ⟨r.code, data, hdata⟩ 0 r.code.length ⟨0, ⟨[], fun _ => 0, fun _ => 0⟩⟩
          (.returned returned) last ∧
        EvaluatesTo (compile vaultText).1.contract last.state.storage
          (fieldIsText "label" (Text.pointsOf "vault")) 1 := by
  obtain ⟨r, hok, hcreatable⟩ := compile_vault
  obtain ⟨slot, stored, pushed, -, -, hcreated, -⟩ :=
    text_equal_after_creation_iff (x := "label") (s := Text.pointsOf "vault") read_vault hok
      hcreatable (by simp [outline_vault]) (by simp [outline_vault]) rfl
  refine ⟨r, hok, fun data hdata => ?_⟩
  obtain ⟨returned, last, hhalts, -, hequal⟩ := hcreated data hdata
  exact ⟨returned, last, hhalts, hequal⟩

/-- The owner looks like an address: a created vault has its number in the variable and finds that
it differs from the text that was assigned. -/
theorem owner_differs_after_creation :
    ∃ r, (compile vaultText).2.result = .ok r ∧
      readStatements vaultText = some vaultStatements ∧
      ∀ (data : List UInt8) (hdata : data.length < 2 ^ 256), ∃ returned last,
        Halts ⟨r.code, data, hdata⟩ 0 r.code.length ⟨0, ⟨[], fun _ => 0, fun _ => 0⟩⟩
          (.returned returned) last ∧
        last.state.storage 1 = 0xa1 ∧
        EvaluatesTo (compile vaultText).1.contract last.state.storage
          (fieldIsText "owner" ownerText) 0 := by
  obtain ⟨r, hok, hcreatable⟩ := compile_vault
  have hsteps := CompileSteps.of_read read_vault hok
  obtain ⟨value, type, hvalue, hrecorded⟩ := recorded_of_only (x := "owner") hsteps
    (by simp [outline_vault] : .assign "owner" (textLiteral ownerText) ∈ outline vaultStatements)
    (by simp [outline_vault])
  have hnumber : textValue ownerText = .ok (.int 0xa1, .address) := by
    have haddress : looksLikeAddress ownerText = true := rfl
    have hspelled : Text.integer? 16 ownerText = some 0xa1 := by decide +kernel
    simp only [textValue, haddress, hspelled, if_true]
  obtain rfl := (Prod.mk.inj (Except.ok.inj (hvalue.symm.trans hnumber))).1
  have hslot : Assoc.get? "owner" (compile vaultText).1.slots = some 1 := by
    rw [hsteps.slots_eq]
    decide +kernel
  refine ⟨r, hok, read_vault, fun data hdata => ?_⟩
  obtain ⟨returned, last, hhalts, hstored, hequal⟩ :=
    created_compares hsteps hcreatable hslot hrecorded (rfl : ownerText.encode = .ok _) hdata
  have hdiffer : flag (valueWord (.int 0xa1) = wordOf (wordBytes (Text.utf8
      "0x00000000000000000000000000000000000000a1"))) = 0 := rfl
  exact ⟨returned, last, hhalts, hstored, hdiffer ▸ hequal⟩

end ContractKit.Evm
