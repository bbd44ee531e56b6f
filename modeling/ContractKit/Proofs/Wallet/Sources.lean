import ContractKit.Proofs.Project.RoundTrip
import ContractKit.Proofs.Session.Looking
import ContractKit.Proofs.Text.Trim
import ContractKit.Proofs.Wallet.Keystore

/-!
# Where the private key comes from

The private key comes from the first source that offers one: the variable of the environment, the
lines of the environment files, the keystore that is given, the default keystore.  A source that
offers nothing hides nothing, and what stands in the sources after the first one that offers does
not matter.
-/

namespace ContractKit.Wallet

open Project Text

/-! ## Lines -/

/-- Quotes may stand around a value. -/
def isQuote (c : Char) : Bool := c == '"' || c == '\''

/-- The parts of a line that sets the private key, around the start that marks it: blanks at the
ends, quotes around the value, and a value that is not empty. -/
structure KeyLine (before opening value closing after : List Char) : Prop where
  blankBefore : ∀ c ∈ before, isBlank c.toNat = true
  blankAfter : ∀ c ∈ after, isBlank c.toNat = true
  quotesBefore : ∀ c ∈ opening, isQuote c = true
  quotesAfter : ∀ c ∈ closing, isQuote c = true
  notEmpty : value ≠ []
  /-- Quotes at the ends do not belong to the value. -/
  unquoted : Trimmed isQuote value
  /-- Blanks at the end of the line do not belong to the value. -/
  ends : ∀ c ∈ (value ++ closing).getLast?, isBlank c.toNat = false

def SetsKey (line value : List Char) : Prop :=
  ∃ before opening closing after,
    line = before ++ (keyLineStart.toList ++ (opening ++ value ++ closing)) ++ after ∧
      KeyLine before opening value closing after

/-- What is seen of a file that is read line by line, if it can be opened. -/
def seenAt (t : Tree) (name : String) : Option String :=
  (t.read (.ofText name)).toOption.map seenText

/-- The first of the lines of a text that set the private key sets it to this one. -/
def FirstKey (text key : String) : Prop :=
  ∃ front line rest, splitChars '\n' text.toList = front ++ line :: rest ∧
    SetsKey line key.toList ∧ ∀ l ∈ front, ∀ value, ¬ SetsKey l value

theorem trimBlanks_eq (cs : List Char) :
    trimBlanks cs = trimEnds (fun c => isBlank c.toNat) cs := rfl

theorem trimQuotes_eq (cs : List Char) : trimQuotes cs = trimEnds isQuote cs := rfl

theorem keyOfLine?_eq_some {line : List Char} {key : String} :
    keyOfLine? line = some key ↔
      ∃ rest, trimBlanks line = keyLineStart.toList ++ rest ∧ trimQuotes rest = key.toList ∧
        key.toList ≠ [] := by
  unfold keyOfLine?
  dsimp only
  by_cases hstart : keyLineStart.toList.isPrefixOf (trimBlanks line) = true
  · obtain ⟨rest, hrest⟩ := List.isPrefixOf_iff_prefix.mp hstart
    have hdrop : (trimBlanks line).drop keyLineStart.length = rest := by
      rw [← hrest, ← String.length_toList, List.drop_left]
    rw [if_pos hstart, hdrop, ← hrest]
    by_cases hempty : trimQuotes rest = []
    · rw [if_pos (by simpa using hempty)]
      refine iff_of_false (by simp) ?_
      rintro ⟨rest', heq, hvalue, hne⟩
      obtain rfl := List.append_cancel_left heq
      exact hne (hvalue.symm.trans hempty)
    · constructor
      · intro h
        obtain rfl := Option.some.inj ((if_neg (by simpa using hempty)).symm.trans h)
        exact ⟨rest, rfl, by simp, by simpa using hempty⟩
      · rintro ⟨rest', heq, hvalue, -⟩
        obtain rfl := List.append_cancel_left heq
        rw [if_neg (by simpa using hempty), hvalue, String.ofList_toList]
  · rw [if_neg hstart]
    refine iff_of_false (by simp) ?_
    rintro ⟨rest, hrest, -⟩
    exact hstart (List.isPrefixOf_iff_prefix.mpr ⟨rest, hrest.symm⟩)

/-- The last character of a line is that of its value and its quotes. -/
theorem getLast?_keyLine {opening value closing : List Char} (hne : value ≠ []) :
    (keyLineStart.toList ++ (opening ++ value ++ closing)).getLast? =
      (value ++ closing).getLast? := by
  rw [List.append_assoc opening, ← List.append_assoc,
    List.getLast?_append_of_ne_nil _ (by simp [hne])]

/-- A line with the start that marks it begins with no blank. -/
theorem head?_keyLine (rest : List Char) :
    ∀ c ∈ (keyLineStart.toList ++ rest).head?, isBlank c.toNat = false := by
  intro c hc
  obtain rfl : 'P' = c := by simpa [keyLineStart] using hc
  decide +kernel

theorem keyOfLine?_eq_some_iff {line : List Char} {key : String} :
    keyOfLine? line = some key ↔ SetsKey line key.toList := by
  rw [keyOfLine?_eq_some]
  constructor
  · rintro ⟨rest, hline, hrest, hne⟩
    rw [trimBlanks_eq, trimEnds_eq_iff (by simp [keyLineStart])] at hline
    rw [trimQuotes_eq, trimEnds_eq_iff hne] at hrest
    obtain ⟨before, after, hline, hbefore, hafter, htrimmed⟩ := hline
    obtain ⟨opening, closing, rfl, hopening, hclosing, hvalue⟩ := hrest
    refine ⟨before, opening, closing, after, hline, hbefore, hafter, hopening, hclosing, hne,
      hvalue, ?_⟩
    rw [← getLast?_keyLine hne]
    exact htrimmed.last
  · rintro ⟨before, opening, closing, after, rfl, h⟩
    refine ⟨opening ++ key.toList ++ closing, ?_, ?_, h.notEmpty⟩
    · refine trimEnds_append h.blankBefore h.blankAfter (by simp [keyLineStart])
        ⟨head?_keyLine _, ?_⟩
      rw [getLast?_keyLine h.notEmpty]
      exact h.ends
    · exact trimEnds_append h.quotesBefore h.quotesAfter h.notEmpty h.unquoted

theorem keyOfLine?_eq_none_iff {line : List Char} :
    keyOfLine? line = none ↔ ∀ value, ¬ SetsKey line value := by
  rw [Option.eq_none_iff_forall_ne_some]
  constructor
  · intro h value hvalue
    rw [← String.toList_ofList (l := value), ← keyOfLine?_eq_some_iff] at hvalue
    exact h _ hvalue
  · intro h key hkey
    exact h _ (keyOfLine?_eq_some_iff.mp hkey)

theorem keyOfLines?_eq_some_iff {text key : String} :
    keyOfLines? text = some key ↔ FirstKey text key := by
  rw [keyOfLines?, List.findSome?_eq_some_iff]
  simp only [keyOfLine?_eq_some_iff, keyOfLine?_eq_none_iff]
  rfl

/-! ## Keystores -/

section Looking

variable {γ : Type} {view : Session → γ}

theorem looks_base64Bytes (j : Json) : Looks view (base64Bytes j) := by
  cases j with
  | str text =>
    simp only [base64Bytes]
    split
    · split
      · exact looks_pure _
      · exact looks_throw _
    · exact looks_throw _
  | _ => exact looks_throw _

theorem looks_openKeystore (document : Json) (password : String) :
    Looks view (openKeystore document password) := by
  refine (looks_demand _).bind fun sealed => (looks_base64Bytes sealed).bind fun token =>
    (looks_demand _).bind fun salted => (looks_base64Bytes salted).bind fun salt => ?_
  split
  · exact looks_throw _
  · split
    · exact looks_pure _
    · exact looks_throw _

/-- The key of a keystore depends on its file only. -/
theorem looks_loadKey (file password : String) : Looks (fileView file) (loadKey file password) := by
  refine (looks_exists? file).bind fun there => ?_
  cases there with
  | false => exact looks_throw _
  | true =>
    refine ((looks_readDocument file).bind fun document =>
      looks_openKeystore document password).attempt.bind fun outcome => ?_
    cases outcome with
    | error p => exact looks_throw _
    | ok key => exact looks_pure key

end Looking

/-! ## Sources -/

/-- A source of private keys. -/
inductive KeySource where
  | environment
  | file (name : String)
  | keystore
  | defaultKeystore
  deriving DecidableEq

def sources : List KeySource :=
  .environment :: environmentFiles.map .file ++ [.keystore, .defaultKeystore]

/-- A search for the private key: a session, and the keystore and the password that may be
given. -/
structure Search where
  session : Session
  keystore : Option String
  password : Option String

/-- A text is given: it is there and not empty. -/
def Given (x : Option String) (text : String) : Prop := x = some text ∧ text ≠ ""

/-- What a source offers.  A keystore that is asked for offers what comes of opening it, even if
that fails. -/
inductive Offers (q : Search) : KeySource → Except Problem String → Prop
  | environment {key : String} (h : Given q.session.outside.privateKey key) :
    Offers q .environment (.ok (marked key))
  | file {name text key : String} (htext : seenAt q.session.files name = some text)
    (hkey : FirstKey text key) : Offers q (.file name) (.ok (marked key))
  | keystore {file password : String} {r : Except Problem String} (hfile : Given q.keystore file)
    (hpassword : Given q.password password)
    (hload : loadKey file password q.session = endWith r q.session) : Offers q .keystore r
  | defaultKeystore {password : String} {r : Except Problem String}
    (hthere : q.session.files.exists? (.ofText defaultKeystore) = .ok true)
    (hpassword : Given q.password password)
    (hload : loadKey defaultKeystore password q.session = endWith r q.session) :
    Offers q .defaultKeystore r

/-- The first source that offers anything, and what it offers. -/
def FirstOffer (q : Search) (source : KeySource) (r : Except Problem String) : Prop :=
  ∃ before after, sources = before ++ source :: after ∧ Offers q source r ∧
    ∀ earlier ∈ before, ∀ r', ¬ Offers q earlier r'

def SameSource (q q' : Search) : KeySource → Prop
  | .environment => q'.session.outside.privateKey = q.session.outside.privateKey
  | .file name => fileView name q'.session = fileView name q.session
  | .keystore => q'.keystore = q.keystore ∧ q'.password = q.password ∧
      ∀ file, q.keystore = some file → fileView file q'.session = fileView file q.session
  | .defaultKeystore => q'.password = q.password ∧
      fileView defaultKeystore q'.session = fileView defaultKeystore q.session

/-! ## Searching -/

variable {q q' : Search} {source : KeySource} {r : Except Problem String}

/-- The outcome of a task that leaves the session as it is. -/
def outcomeOf {α : Type} (x : SessionM α) (s : Session) : Except Problem α :=
  match x s with
  | .ok a _ => .ok a
  | .error p _ => .error p

theorem outcomeOf_eq_iff {α γ : Type} {view : Session → γ} {x : SessionM α} (hx : Looks view x)
    {s : Session} {r : Except Problem α} : outcomeOf x s = r ↔ x s = endWith r s := by
  obtain ⟨r', hr'⟩ := hx.exists_run s
  have hout : outcomeOf x s = r' := by cases r' <;> simp [outcomeOf, hr', endWith]
  rw [hout, hr']
  constructor
  · rintro rfl
    rfl
  · intro h
    cases r <;> cases r' <;> simp_all [endWith]

def given? (x : Option String) : Option String := x.filter (· != "")

theorem given?_eq_some_iff {x : Option String} {text : String} :
    given? x = some text ↔ Given x text := by
  simp [given?, Given, Option.filter_eq_some_iff]

/-- What a source offers, computed. -/
def offer? (q : Search) : KeySource → Option (Except Problem String)
  | .environment => (given? q.session.outside.privateKey).map fun key => .ok (marked key)
  | .file name =>
    ((seenAt q.session.files name).bind keyOfLines?).map fun key => .ok (marked key)
  | .keystore => (given? q.keystore).bind fun file => (given? q.password).map fun password =>
    outcomeOf (loadKey file password) q.session
  | .defaultKeystore =>
    if q.session.files.exists? (.ofText defaultKeystore) = .ok true then
      (given? q.password).map fun password => outcomeOf (loadKey defaultKeystore password) q.session
    else none

theorem offer?_eq_some_iff : offer? q source = some r ↔ Offers q source r := by
  constructor
  · intro h
    cases source with
    | environment =>
      obtain ⟨key, hkey, rfl⟩ := Option.map_eq_some_iff.mp h
      exact .environment (given?_eq_some_iff.mp hkey)
    | file name =>
      obtain ⟨key, hkey, rfl⟩ := Option.map_eq_some_iff.mp h
      obtain ⟨text, htext, hkey⟩ := Option.bind_eq_some_iff.mp hkey
      exact .file htext (keyOfLines?_eq_some_iff.mp hkey)
    | keystore =>
      obtain ⟨file, hfile, h⟩ := Option.bind_eq_some_iff.mp h
      obtain ⟨password, hpassword, hload⟩ := Option.map_eq_some_iff.mp h
      exact .keystore (given?_eq_some_iff.mp hfile) (given?_eq_some_iff.mp hpassword)
        ((outcomeOf_eq_iff (looks_loadKey file password)).mp hload)
    | defaultKeystore =>
      simp only [offer?] at h
      split_ifs at h with hthere
      obtain ⟨password, hpassword, hload⟩ := Option.map_eq_some_iff.mp h
      exact .defaultKeystore hthere (given?_eq_some_iff.mp hpassword)
        ((outcomeOf_eq_iff (looks_loadKey defaultKeystore password)).mp hload)
  · rintro (h | ⟨htext, hkey⟩ | ⟨hfile, hpassword, hload⟩ | ⟨hthere, hpassword, hload⟩)
    · simp [offer?, given?_eq_some_iff.mpr h]
    · simp [offer?, htext, keyOfLines?_eq_some_iff.mpr hkey]
    · simp [offer?, given?_eq_some_iff.mpr hfile, given?_eq_some_iff.mpr hpassword,
        (outcomeOf_eq_iff (looks_loadKey _ _)).mpr hload]
    · simp [offer?, hthere, given?_eq_some_iff.mpr hpassword,
        (outcomeOf_eq_iff (looks_loadKey _ _)).mpr hload]

theorem findSome?_sources (f : KeySource → Option (Except Problem String)) :
    sources.findSome? f = (f .environment).or
      ((environmentFiles.findSome? fun name => f (.file name)).or
        ((f .keystore).or (f .defaultKeystore))) := by
  simp only [sources, List.cons_append, List.findSome?_cons, List.findSome?_append,
    List.findSome?_map, List.findSome?_nil]
  cases f .environment <;> cases f .keystore <;> cases f .defaultKeystore <;>
    simp [Function.comp_def]

/-- The environment files have names that are never too long to look for. -/
theorem environmentFile_short {file : String} (h : file ∈ environmentFiles) :
    (Path.ofText file).text = file ∧
      ∀ part ∈ (Path.ofText file).parts, (Text.utf8 part).length ≤ longestName := by
  revert file
  decide +kernel

theorem defaultKeystore_short :
    ∀ part ∈ (Path.ofText defaultKeystore).parts, (Text.utf8 part).length ≤ longestName := by
  decide +kernel

theorem keyInFiles_run {files : List String} (hfiles : ∀ file ∈ files, file ∈ environmentFiles)
    (s : Session) :
    keyInFiles files s =
      .ok (files.findSome? fun name => (seenAt s.files name).bind keyOfLines?) s := by
  induction files with
  | nil => rfl
  | cons file rest ih =>
    have hrest := ih fun name hname => hfiles name (List.mem_cons_of_mem file hname)
    obtain ⟨hname, hshort⟩ := environmentFile_short (hfiles file List.mem_cons_self)
    have hexists := exists?_run (.ofText file) s
    have hread := attempt_endWith (readBytes_run (Path.named_ofText file) s)
    rw [hname] at hread
    rw [List.findSome?_cons, seenAt]
    obtain ⟨there, hthere⟩ := Tree.exists?_of_short (t := s.files) hshort
    rw [hthere] at hexists
    refine (bind_ok hexists).trans ?_
    cases there with
    | false =>
      cases hcontent : s.files.read (.ofText file) with
      | error fault => exact hrest
      | ok content =>
        exact absurd (hthere.symm.trans (Tree.exists?_of_read hcontent)) (by simp)
    | true =>
      refine (bind_ok hread).trans ?_
      cases s.files.read (.ofText file) with
      | error fault => exact hrest
      | ok content =>
        simp only [onPath, Except.toOption, Option.map_some, Option.bind_some]
        cases keyOfLines? (seenText content) with
        | none => exact hrest
        | some key => rfl

theorem findSome?_offer?_file (q : Search) :
    (environmentFiles.findSome? fun name => offer? q (.file name)) =
      (environmentFiles.findSome? fun name =>
        (seenAt q.session.files name).bind keyOfLines?).map fun key => .ok (marked key) := by
  rw [List.map_findSome?]
  rfl

/-- The outcome of a search: what the first source offers that offers anything. -/
theorem privateKey_run (q : Search) :
    privateKey q.keystore q.password q.session =
      endWith ((sources.findSome? (offer? q)).getD (.error .noPrivateKey)) q.session := by
  rw [findSome?_sources, findSome?_offer?_file]
  have hvariable :
      variableKey q.session = .ok (given? q.session.outside.privateKey) q.session := rfl
  refine (bind_ok hvariable).trans ?_
  cases hkey : given? q.session.outside.privateKey with
  | some key => simp [offer?, hkey, endWith, pure, EStateM.pure]
  | none =>
    have hfiles : fileKey q.session = .ok _ q.session := keyInFiles_run (fun _ h => h) q.session
    refine (bind_ok hfiles).trans ?_
    simp only [offer?, hkey, Option.map_none, Option.none_or]
    generalize (environmentFiles.findSome? fun name =>
      (seenAt q.session.files name).bind keyOfLines?) = found
    cases found with
    | some key => rfl
    | none =>
      simp only [Option.map_none, Option.none_or, given?]
      generalize q.keystore.filter (· != "") = keystore
      generalize q.password.filter (· != "") = password
      have hload : ∀ file password, loadKey file password q.session =
          endWith (outcomeOf (loadKey file password) q.session) q.session :=
        fun file password => (outcomeOf_eq_iff (looks_loadKey file password)).mp rfl
      have hexists := exists?_run (.ofText defaultKeystore) q.session
      obtain ⟨there, hthere⟩ := Tree.exists?_of_short (t := q.session.files) defaultKeystore_short
      rw [hthere] at hexists ⊢
      cases password with
      | none =>
        have hnone : (exists? (.ofText defaultKeystore) >>= fun _ => throw .noPrivateKey :
            SessionM String) q.session = .error .noPrivateKey q.session := bind_ok hexists
        cases keystore <;> cases there <;> exact hnone
      | some password =>
        cases keystore with
        | some file => exact hload file password
        | none =>
          refine (bind_ok hexists).trans ?_
          cases there with
          | false => rfl
          | true => exact hload defaultKeystore password

theorem privateKey_of_firstOffer (h : FirstOffer q source r) :
    privateKey q.keystore q.password q.session = endWith r q.session := by
  obtain ⟨before, after, hsources, hoffers, hbefore⟩ := h
  have hfirst : sources.findSome? (offer? q) = some r := by
    refine List.findSome?_eq_some_iff.mpr
      ⟨before, source, after, hsources, offer?_eq_some_iff.mpr hoffers, ?_⟩
    intro earlier hearlier
    rw [Option.eq_none_iff_forall_ne_some]
    exact fun r' hr' => hbefore earlier hearlier r' (offer?_eq_some_iff.mp hr')
  rw [privateKey_run, hfirst]
  rfl

theorem privateKey_of_no_offer (h : ∀ source ∈ sources, ∀ r, ¬ Offers q source r) :
    privateKey q.keystore q.password q.session = .error .noPrivateKey q.session := by
  have hnone : sources.findSome? (offer? q) = none := by
    refine List.findSome?_eq_none_iff.mpr fun source hsource => ?_
    rw [Option.eq_none_iff_forall_ne_some]
    exact fun r hr => h source hsource r (offer?_eq_some_iff.mp hr)
  rw [privateKey_run, hnone]
  rfl

/-! ## The mark -/

theorem SameSource.symm (h : SameSource q q' source) : SameSource q' q source := by
  cases source with
  | environment => exact Eq.symm h
  | file name => exact Eq.symm h
  | keystore =>
    obtain ⟨hkeystore, hpassword, hview⟩ := h
    exact ⟨hkeystore.symm, hpassword.symm, fun file hfile => (hview file (hkeystore ▸ hfile)).symm⟩
  | defaultKeystore => exact ⟨h.1.symm, h.2.symm⟩

/-- The first file with a key decides, if the variable is not given. -/
theorem firstOffer_file {front rest : List String} {name text key : String}
    (hfiles : environmentFiles = front ++ name :: rest)
    (hvariable : ∀ value, ¬ Given q.session.outside.privateKey value)
    (hfront : ∀ file ∈ front, ∀ text, seenAt q.session.files file = some text →
      ∀ key, ¬ FirstKey text key)
    (htext : seenAt q.session.files name = some text) (hkey : FirstKey text key) :
    FirstOffer q (.file name) (.ok (marked key)) := by
  refine ⟨.environment :: front.map .file, rest.map .file ++ [.keystore, .defaultKeystore], ?_,
    .file htext hkey, ?_⟩
  · simp [sources, hfiles]
  · intro earlier hearlier r' hr'
    rcases List.mem_cons.mp hearlier with rfl | hmem
    · cases hr' with
      | environment h => exact hvariable _ h
    · obtain ⟨file, hfile, rfl⟩ := List.mem_map.mp hmem
      cases hr' with
      | file htext' hkey' => exact hfront file hfile _ htext' _ hkey'

end ContractKit.Wallet
