import ContractKit.Command.Run
import ContractKit.Proofs.Project.RoundTrip
import ContractKit.Proofs.Text.Trim
import Mathlib

/-!
# Arguments reach the contract as they are written

Arguments of a function are numbers and addresses.  A number is written by its decimal digits,
maybe with zeros before them, and an address as it is.  Around each argument there can be blanks,
and commas stand between them.  What the command reads from such a text are the arguments
themselves: a number never has a character that is no digit, and an address always has one.
-/

namespace ContractKit.Command

/-! ## Arguments and their texts -/

/-- An argument of a function: a number that fits in a word, or an address, which may have any
number of hexadecimal digits. -/
inductive Argument where
  | number (n : Nat) (hsize : n < 2 ^ 256)
  | address (digits : List Char) (hhex : ∀ c ∈ digits, (Text.hexValue? c).isSome = true)

/-- The value that the function gets. -/
def Argument.value : Argument → Json
  | number n _ => .int n
  | address digits _ => .str (String.ofList ('0' :: 'x' :: digits))

/-- The texts of an argument.  Zeros before a number may make its text as long as integers can
be. -/
inductive Argument.Spelled : Argument → List Char → Prop
  | decimal (n : Nat) (hsize : n < 2 ^ 256) : Spelled (.number n hsize) (Nat.toDigits 10 n)
  | padded (zeros n : Nat) (hsize : n < 2 ^ 256)
      (hlength : zeros + (Nat.toDigits 10 n).length ≤ Json.maxDigits) :
      Spelled (.number n hsize) (List.replicate zeros '0' ++ Nat.toDigits 10 n)
  | verbatim (digits : List Char) (hhex : ∀ c ∈ digits, (Text.hexValue? c).isSome = true) :
      Spelled (.address digits hhex) ('0' :: 'x' :: digits)

/-- The texts of an argument with blanks around them. -/
inductive Argument.Given (a : Argument) : List Char → Prop
  | surrounded (before body after : List Char) (hbody : a.Spelled body)
      (hbefore : ∀ c ∈ before, Text.isBlank c.toNat = true)
      (hafter : ∀ c ∈ after, Text.isBlank c.toNat = true) : Given a (before ++ body ++ after)

/-! ## Characters -/

/-- A character from the digits to the letters. -/
def IsVisible (c : Char) : Prop := 48 ≤ c.toNat ∧ c.toNat ≤ 120

theorem isBlank_of_isVisible {c : Char} (h : IsVisible c) : Text.isBlank c.toNat = false := by
  have hall : ∀ n < 121, 48 ≤ n → Text.isBlank n = false := by decide +kernel
  exact hall c.toNat (Nat.lt_succ_of_le h.2) h.1

theorem isVisible_of_isDigit {c : Char} (h : c.isDigit = true) : IsVisible c := by
  have hrange := Char.isDigit_iff_toNat.mp h
  exact ⟨hrange.1, hrange.2.trans (by decide)⟩

theorem isVisible_of_hexValue? {c : Char} (h : (Text.hexValue? c).isSome = true) :
    IsVisible c := by
  unfold Text.hexValue? at h
  split_ifs at h with hdigit hlower hupper
  · exact ⟨hdigit.1, Nat.le_trans hdigit.2 (by decide)⟩
  · exact ⟨Nat.le_trans (by decide) hlower.1, Nat.le_trans hlower.2 (by decide)⟩
  · exact ⟨Nat.le_trans (by decide) hupper.1, Nat.le_trans hupper.2 (by decide)⟩
  · exact absurd h Bool.false_ne_true

theorem isDigit_of_mem_padded {zeros n : Nat} {c : Char}
    (h : c ∈ List.replicate zeros '0' ++ Nat.toDigits 10 n) : c.isDigit = true := by
  rcases List.mem_append.mp h with h | h
  · rw [List.eq_of_mem_replicate h]
    rfl
  · exact Nat.isDigit_of_mem_toDigits (by decide) (by decide) h

/-! ## Texts of arguments -/

section Texts

variable {a : Argument} {body part : List Char}

/-- A number is written with digits, as many as an integer can have. -/
theorem Argument.Spelled.cases (h : a.Spelled body) :
    (∃ zeros n hsize, a = .number n hsize ∧ body = List.replicate zeros '0' ++ Nat.toDigits 10 n ∧
      body.length ≤ Json.maxDigits) ∨
    ∃ digits hhex, a = .address digits hhex ∧ body = '0' :: 'x' :: digits := by
  cases h with
  | decimal n hsize =>
    have hlength : (Nat.toDigits 10 n).length ≤ 78 :=
      Nat.toDigits_length 10 n 78 (by decide) (hsize.trans (by norm_num))
    exact .inl ⟨0, n, hsize, rfl, rfl, hlength.trans (by decide)⟩
  | padded zeros n hsize hlength =>
    exact .inl ⟨zeros, n, hsize, rfl, rfl, by simpa using hlength⟩
  | verbatim digits hhex => exact .inr ⟨digits, hhex, rfl, rfl⟩

theorem Argument.Spelled.ne_nil (h : a.Spelled body) : body ≠ [] := by
  obtain ⟨zeros, n, hsize, rfl, rfl, -⟩ | ⟨digits, hhex, rfl, rfl⟩ := h.cases
  · exact List.append_ne_nil_of_right_ne_nil _ Nat.toDigits_ne_nil
  · exact List.cons_ne_nil _ _

theorem Argument.Spelled.isVisible (h : a.Spelled body) : ∀ c ∈ body, IsVisible c := by
  intro c hc
  obtain ⟨zeros, n, hsize, rfl, rfl, -⟩ | ⟨digits, hhex, rfl, rfl⟩ := h.cases
  · exact isVisible_of_isDigit (isDigit_of_mem_padded hc)
  · simp only [List.mem_cons] at hc
    obtain rfl | rfl | hc := hc
    · exact ⟨by decide, by decide⟩
    · exact ⟨by decide, by decide⟩
    · exact isVisible_of_hexValue? (hhex c hc)

theorem Argument.Given.trim (h : a.Given part) : a.Spelled (Text.trimBlanks part) := by
  obtain ⟨before, body, after, hbody, hbefore, hafter⟩ := h
  have htrimmed : Text.Trimmed (fun c => Text.isBlank c.toNat) body :=
    ⟨fun c hc => isBlank_of_isVisible (hbody.isVisible c (List.mem_of_mem_head? hc)),
      fun c hc => isBlank_of_isVisible (hbody.isVisible c (List.mem_of_mem_getLast? hc))⟩
  have htrim : Text.trimBlanks (before ++ body ++ after) = body :=
    Text.trimEnds_append hbefore hafter hbody.ne_nil htrimmed
  rwa [htrim]

theorem Argument.Given.ne_nil (h : a.Given part) : part ≠ [] := by
  rintro rfl
  exact h.trim.ne_nil rfl

theorem Argument.Given.not_comma (h : a.Given part) : ',' ∉ part := by
  have hblank : Text.isBlank ','.toNat = false := by decide +kernel
  obtain ⟨before, body, after, hbody, hbefore, hafter⟩ := h
  simp only [List.mem_append, not_or]
  refine ⟨⟨fun hc => ?_, fun hc => ?_⟩, fun hc => ?_⟩
  · exact Bool.false_ne_true (hblank.symm.trans (hbefore _ hc))
  · exact absurd (hbody.isVisible _ hc).1 (by decide)
  · exact Bool.false_ne_true (hblank.symm.trans (hafter _ hc))

end Texts

/-! ## Reading arguments -/

theorem digitsValue?_of_isDigit {cs : List Char} (h : ∀ c ∈ cs, c.isDigit = true) :
    digitsValue? cs = some (Json.decimalDigits cs) := by
  suffices ∀ m, cs.foldlM (fun n c => (Text.decimalValue? c.toNat).map (n * 10 + ·)) m =
      some (cs.foldl (fun n c => n * 10 + (c.toNat - '0'.toNat)) m) from this 0
  induction cs with
  | nil => exact fun m => rfl
  | cons c cs ih =>
    intro m
    have hdigit : Text.decimalValue? c.toNat = some (c.toNat - '0'.toNat) :=
      if_pos (Char.isDigit_iff_toNat.mp (h c List.mem_cons_self))
    rw [List.foldlM_cons, List.foldl_cons, hdigit]
    exact ih (fun c hc => h c (List.mem_cons_of_mem _ hc)) _

theorem decimalDigits_padded (zeros n : Nat) :
    Json.decimalDigits (List.replicate zeros '0' ++ Nat.toDigits 10 n) = n := by
  induction zeros with
  | zero => exact Json.decimalDigits_toDigits n
  | succ zeros ih => exact ih

theorem argumentOf_number {cs : List Char} (hne : cs ≠ []) (hdigits : ∀ c ∈ cs, c.isDigit = true)
    (hlength : cs.length ≤ Json.maxDigits) : argumentOf cs = .int (Json.decimalDigits cs) := by
  have hlike : ∀ c ∈ cs, Text.isDigitLike c = true := by
    intro c hc
    have hrange := Char.isDigit_iff_toNat.mp (hdigits c hc)
    rw [Text.isDigitLike, if_pos (hrange.2.trans_lt (by decide))]
    exact hdigits c hc
  have hlooks : looksLikeDigits cs = true := by
    simpa [looksLikeDigits, hne] using hlike
  rw [argumentOf, if_pos hlooks, integerArgument?, if_neg hlength.not_gt,
    digitsValue?_of_isDigit hdigits]
  rfl

/-- A text with a character that is no digit, and without a point, is taken as it is. -/
theorem argumentOf_text {cs : List Char} (hdigit : ∃ c ∈ cs, Text.isDigitLike c = false)
    (hpoint : '.' ∉ cs) : argumentOf cs = .str (String.ofList cs) := by
  obtain ⟨c, hc, hlike⟩ := hdigit
  have hlooks : ¬ looksLikeDigits cs = true := by
    intro h
    simp only [looksLikeDigits, Bool.and_eq_true, List.all_eq_true] at h
    exact Bool.false_ne_true (hlike.symm.trans (h.2 c hc))
  have hdotted : ¬ (cs.contains '.' && looksLikeDigits (cs.filter (· != '.'))) = true := by
    simp [hpoint]
  rw [argumentOf, if_neg hlooks, if_neg hdotted]

theorem argumentOf_spelled {a : Argument} {body : List Char} (h : a.Spelled body) :
    argumentOf body = a.value := by
  have hpoint : '.' ∉ body := fun hc => absurd (h.isVisible _ hc).1 (by decide)
  have hne := h.ne_nil
  obtain ⟨zeros, n, hsize, rfl, rfl, hlength⟩ | ⟨digits, hhex, rfl, rfl⟩ := h.cases
  · rw [argumentOf_number hne (fun c hc => isDigit_of_mem_padded hc) hlength,
      decimalDigits_padded]
    rfl
  · exact argumentOf_text ⟨'x', by simp, by decide⟩ hpoint

section Lists

variable {args : List Argument} {parts : List (List Char)}

theorem not_comma_of_given (h : List.Forall₂ Argument.Given args parts) :
    ∀ part ∈ parts, ',' ∉ part := by
  induction h with
  | nil => exact List.forall_mem_nil _
  | cons ha _ ih => exact List.forall_mem_cons.mpr ⟨ha.not_comma, ih⟩

theorem map_argumentOf_given (h : List.Forall₂ Argument.Given args parts) :
    parts.map (fun part => argumentOf (Text.trimBlanks part)) = args.map Argument.value := by
  induction h with
  | nil => rfl
  | cons ha _ ih => rw [List.map_cons, List.map_cons, ih, argumentOf_spelled ha.trim]

theorem ne_nil_of_given (h : List.Forall₂ Argument.Given args parts) (hne : args ≠ []) :
    parts ≠ [] := by
  rintro rfl
  exact hne (List.forall₂_nil_right_iff.mp h)

/-- Arguments with commas between them are read in their order and number. -/
theorem argumentsOf_given (h : List.Forall₂ Argument.Given args parts) (hne : args ≠ []) :
    argumentsOf (String.ofList ([','].intercalate parts)) = args.map Argument.value := by
  rw [argumentsOf, String.toList_ofList, splitChars_eq_splitOn,
    List.splitOn_intercalate _ (not_comma_of_given h) (ne_nil_of_given h hne),
    map_argumentOf_given h]

theorem text_ne_empty_of_given (h : List.Forall₂ Argument.Given args parts) (hne : args ≠ []) :
    String.ofList ([','].intercalate parts) ≠ "" := by
  intro hempty
  have hchars : [','].intercalate parts = [] := by
    rw [← String.toList_ofList (l := [','].intercalate parts), hempty]
    rfl
  have hsplit := List.splitOn_intercalate ',' (not_comma_of_given h) (ne_nil_of_given h hne)
  rw [hchars, List.splitOn_nil] at hsplit
  subst hsplit
  obtain ⟨a, rest, ha, -⟩ := List.forall₂_cons_right_iff.mp h
  exact ha.ne_nil rfl

end Lists

/-! ## The command -/

/-- Uses a function with arguments, as the command does once it knows them. -/
def interactWith (contract function : String) (args : List Json) (config : Json) (isView : Bool) :
    SessionM Unit :=
  reporting "[red]Error:[/red]" do
    let result ← Deployment.interact contract function args config isView
    match result, isView with
    | .null, false => refuse ["[red]Transaction failed![/red]"]
    | _, _ => return ()

def exitCodeOf (task : SessionM Unit) : SessionM Nat := do
  match ← attempt task with
  | .ok () => return 0
  | .error (.exit code) => return code
  | .error .aborted => return 1
  | .error p => throw p

theorem runLine_eq {words : List String} {command : Command} (h : ofWords words = .ok command) :
    runLine words = exitCodeOf command.run := by
  rw [runLine, h]
  rfl

theorem configPath_text : (Path.ofText Project.configFile).text = Project.configFile := by
  decide +kernel

theorem projectConfig_of_textAt {s : Session} {document : String} {config : Json}
    (hthere : s.files.textAt (.ofText Project.configFile) = .ok document)
    (hconfig : Json.parse document = .ok config) : projectConfig s = .ok config s := by
  have hexists := exists?_run (.ofText Project.configFile) s
  rw [Project.exists?_of_textAt hthere] at hexists
  have hread := Project.readText_of_textAt (Path.named_ofText Project.configFile) hthere
  rw [configPath_text] at hread
  refine (bind_ok hexists).trans ((bind_ok hread).trans ?_)
  rw [parseDocument, hconfig]
  rfl

theorem attempt_bind_congr {β : Type} {task task' : SessionM Unit} {s : Session}
    (f : Except Problem Unit → SessionM β) (h : task s = task' s) :
    (attempt task >>= f) s = (attempt task' >>= f) s := by
  simp only [bind, EStateM.bind, attempt, h]

/-- The command uses the function with the arguments that are written. -/
theorem runInteract_given {args : List Argument} {parts : List (List Char)}
    (hargs : List.Forall₂ Argument.Given args parts) (hne : args ≠ []) (contract function : String)
    (isView : Bool) {s : Session} {config : Json} (hconfig : projectConfig s = .ok config s) :
    runInteract contract function (some (String.ofList ([','].intercalate parts))) isView s =
      interactWith contract function (args.map Argument.value) config isView s := by
  have hgiven : Option.filter (· != "") (some (String.ofList ([','].intercalate parts))) =
      some (String.ofList ([','].intercalate parts)) :=
    Option.filter_some_pos (by simpa using text_ne_empty_of_given hargs hne)
  have hread : ((Option.filter (· != "") (some (String.ofList ([','].intercalate parts)))).map
      argumentsOf).getD [] = args.map Argument.value := by
    rw [hgiven, Option.map_some, Option.getD_some, argumentsOf_given hargs hne]
  refine attempt_bind_congr _ ((bind_ok hconfig).trans ?_)
  exact congrFun (congrArg (fun given => Deployment.interact contract function given config isView
    >>= _) hread) s

/-- **The command passes the arguments that are written.**  If a command line gives a text of some
arguments, and the configuration of the project can be read, the function is used with exactly
these arguments, numbers as numbers and addresses as texts, in their order and number. -/
theorem interact_passes_arguments {args : List Argument} {parts : List (List Char)}
    (hargs : List.Forall₂ Argument.Given args parts) (hne : args ≠ []) {words : List String}
    {contract function : String} {isView : Bool}
    (hwords : ofWords words = .ok (.interact contract function
      (some (String.ofList ([','].intercalate parts))) isView))
    {s : Session} {document : String} {config : Json}
    (hthere : s.files.textAt (.ofText Project.configFile) = .ok document)
    (hconfig : Json.parse document = .ok config) :
    runLine words s =
      exitCodeOf (interactWith contract function (args.map Argument.value) config isView) s := by
  have hproject := projectConfig_of_textAt hthere hconfig
  rw [runLine_eq hwords]
  exact attempt_bind_congr _ (runInteract_given hargs hne contract function isView hproject)

/-- A project with an empty configuration. -/
def bareProject : Session where
  files := { nodes := [([Project.configFile], .file (Text.utf8 "\x7b\x7d") newFileMode)] }

/-- An address between blanks, a number with zeros before it, and a plain number. -/
theorem interact_passes_arguments_transfer :
    runLine ["interact", "Token", "transfer", "--args", " 0x00aB ,\t007,12"] bareProject =
      exitCodeOf (interactWith "Token" "transfer" [.str "0x00aB", .int 7, .int 12] (.obj []) false)
        bareProject := by
  have haddress : Argument.Given (.address ['0', '0', 'a', 'B'] (by simp [Text.hexValue?]))
      " 0x00aB ".toList :=
    .surrounded [' '] _ [' '] (.verbatim _ _) (List.forall_mem_singleton.mpr (by decide +kernel))
      (List.forall_mem_singleton.mpr (by decide +kernel))
  have hpadded : Argument.Given (.number 7 (by norm_num)) "\t007".toList :=
    .surrounded ['\t'] _ [] (.padded 2 7 _ (by decide))
      (List.forall_mem_singleton.mpr (by decide +kernel)) (List.forall_mem_nil _)
  have hplain : Argument.Given (.number 12 (by norm_num)) "12".toList :=
    .surrounded [] _ [] (.decimal 12 _) (List.forall_mem_nil _) (List.forall_mem_nil _)
  have hthere : bareProject.files.textAt (.ofText Project.configFile) = .ok "\x7b\x7d" := by
    decide +kernel
  have hconfig : Json.parse "\x7b\x7d" = .ok (.obj []) := rfl
  exact interact_passes_arguments (.cons haddress (.cons hpadded (.cons hplain .nil)))
    (List.cons_ne_nil _ _) rfl hthere hconfig

end ContractKit.Command
