import ContractKit.Proofs.Project.Documents
import ContractKit.Proofs.Project.SolidityBuild
import ContractKit.Proofs.Samples.Workspace

/-!
# Artifacts are read back

Whatever a build has done before, the artifacts of a contract that it reports as built are those of
the contract's file: loading them gives what the text of that file is compiled to.  The invariant of
a build is that each success among its results belongs to a file whose artifacts are there.
-/

namespace ContractKit.Project

variable {t t' made : Tree} {base : Place} {contracts output : Path} {name file : String}
  {s s' u u' : Session} {results results' : Results} {version : Option String}

/-! ## What has been built -/

/-- The artifacts of a compiled file are there, at a relative path. -/
structure Stored (output : Path) (base : Place) (file : String) (c : CompiledSource) (t : Tree) :
    Prop where
  relative : output.absolute = false
  holds : Holds t base (Path.stemOf file) (pythonDocument (Path.stemOf file) file c)
    c.compiled.interface.toJson c.compiled.codeText

/-- Nothing but artifacts was put into the tree, and each contract reported as built is that of a
file, whose artifacts are there. -/
structure Kept (made : Tree) (contracts output : Path) (base : Place) (results : Results)
    (t : Tree) : Prop where
  changes : Tree.Changes (fun p node => ∃ name, ArtifactPut base name p node) made t
  entries : ∀ name entry built, Assoc.get? name results = some entry → entry.outcome = .ok built →
    entry.sourceFile ∈ filesIn made contracts ".py" ∧ name = Path.stemOf entry.sourceFile ∧
      ∃ c, sourceAt made contracts entry.sourceFile = .ok c ∧
        Stored output base entry.sourceFile c t

/-- An entry of a failure keeps what has been built. -/
theorem Kept.fails (h : Kept made contracts output base results t) (name file : String)
    (message : String) :
    Kept made contracts output base
      (Assoc.set name ⟨.error message, file, some .python⟩ results) t := by
  refine ⟨h.changes, fun other entry built hentry hbuilt => ?_⟩
  by_cases hother : other = name
  · rw [hother, Assoc.get?_set_self] at hentry
    obtain rfl := Option.some.inj hentry
    simp at hbuilt
  · rw [Assoc.get?_set_of_ne hother] at hentry
    exact h.entries other entry built hentry hbuilt

/-- Building a file that compiles keeps what has been built of others. -/
theorem Kept.compiled (h : Kept made contracts output base results t)
    (hfile : file ∈ filesIn made contracts ".py") {c : CompiledSource}
    (hsource : sourceAt made contracts file = .ok c)
    (hchanges : Tree.Changes (ArtifactPut base (Path.stemOf file)) t t')
    {outcome : Except String Built}
    (hbuilt : ∀ built, outcome = .ok built → Stored output base file c t') :
    Kept made contracts output base
      (Assoc.set (Path.stemOf file) ⟨outcome, file, some .python⟩ results) t' := by
  refine ⟨h.changes.trans (hchanges.mono fun p node hput => ⟨_, hput⟩), ?_⟩
  intro name entry built hentry hok
  by_cases hname : name = Path.stemOf file
  · rw [hname, Assoc.get?_set_self] at hentry
    obtain rfl := Option.some.inj hentry
    exact ⟨hfile, hname, c, hsource, hbuilt built hok⟩
  · rw [Assoc.get?_set_of_ne hname] at hentry
    obtain ⟨hmem, hstem, c', hsource', hstored⟩ := h.entries name entry built hentry hok
    refine ⟨hmem, hstem, c', hsource', hstored.relative, hstored.holds.of_changes hchanges ?_⟩
    intro p node hput
    exact ⟨_, hstem ▸ Ne.symm hname, hput⟩

/-- Building contracts in turn keeps what has been built. -/
theorem buildPython_kept (hmade : made.Proper) (hcontracts : contracts.Named)
    (houtput : output.Named) (hbase : output.absolute = false → made.HasDirectory output base)
    {files : List String} (hfiles : ∀ file ∈ files, file ∈ filesIn made contracts ".py")
    {last : Option String} (h : Kept made contracts output base results u.files)
    (hrun : buildPython contracts output results last files u = .ok results' u') :
    Kept made contracts output base results' u'.files := by
  induction files generalizing u results last with
  | nil =>
    obtain ⟨rfl, rfl⟩ := EStateM.Result.ok.inj hrun
    exact h
  | cons file rest ih =>
    have hfile := hfiles file List.mem_cons_self
    have hrest : ∀ file ∈ rest, file ∈ filesIn made contracts ".py" :=
      fun file hmem => hfiles file (List.mem_cons_of_mem _ hmem)
    have hpath := named_of_mem hcontracts (.inl rfl) hmade hfile
    have hsame := sourceAt_of_changes hmade h.changes (fun _ _ hput => hput) hfile
    cases hsource : sourceAt made contracts file with
    | error p =>
      rw [hsource] at hsame
      cases last with
      | none =>
        have hends : ∃ u₁, buildPython contracts output results none (file :: rest) u =
            .error .unnamedContract u₁ := buildPython_unnamed hpath hsame
        obtain ⟨u₁, hends⟩ := hends
        simp [hends] at hrun
      | some name =>
        obtain ⟨u₁, hreported, hstep⟩ := buildPython_fault hpath hsame name
        rw [hstep] at hrun
        refine ih hrest ?_ hrun
        rw [hreported.files]
        exact h.fails name file p.message
    | ok c =>
      rw [hsource] at hsame
      obtain ⟨outcome, u₁, -, hchanges, hbuilt, -, hstep⟩ :=
        buildPython_compiled hpath houtput
          (fun hrelative => h.changes.hasDirectory (hbase hrelative))
          (isStem_of_mem hmade hfile) hsame last
      rw [hstep] at hrun
      refine ih hrest (h.compiled hfile hsource hchanges fun built hok => ?_) hrun
      obtain ⟨hrelative, -, hholds⟩ := hbuilt built hok
      exact ⟨hrelative, hholds⟩

/-! ## Loading -/

def artifactsOf (file : String) (c : CompiledSource) : Artifacts where
  interface := c.compiled.interface.toJson
  code := .str c.compiled.codeText
  metadata := c.compiled.metadata c.slots
  sourceName := .str file
  compilerVersion := .str "0.1.0"

theorem ofDocument_pythonDocument (name file : String) (c : CompiledSource) :
    Artifacts.ofDocument (pythonDocument name file c) = .ok (artifactsOf file c) := rfl

section Loading

variable {document interface : Json} {code : String}

theorem Holds.textAt (h : Holds t base name document interface code)
    (hbase : t.HasDirectory output base) (hname : Path.IsStem name) {artifact text : String}
    (he : (artifact, text) ∈ artifactTexts name document interface code)
    (hreturn : '\r' ∉ text.toList) :
    t.textAt ((output.join name).join artifact) = .ok text :=
  Tree.textAt_of_read (h.bytes hbase hname he) hreturn

theorem readText_of_textAt {path : Path} {text : String} (hpath : path.Named)
    (h : s.files.textAt path = .ok text) : readText path.text s = .ok text s := by
  have hread := readText_run hpath s
  rwa [h] at hread

theorem readDocument_of_textAt {path : Path} (hpath : path.Named)
    (hdocument : Json.Readable document) (h : s.files.textAt path = .ok document.pretty) :
    readDocument path.text s = .ok document s := by
  refine (bind_ok (readText_of_textAt hpath h)).trans ?_
  rw [parseDocument, Json.parse_pretty hdocument]
  rfl

theorem exists?_of_textAt {path : Path} {text : String} (h : t.textAt path = .ok text) :
    t.exists? path = .ok true := by
  obtain ⟨content, hread⟩ := Tree.exists_read_of_textAt h
  exact Tree.exists?_of_read hread

/-- The artifacts of a contract that are there are read: the whole document and the two parts
kept on their own. -/
theorem Holds.read (h : Holds s.files base name document interface code)
    (houtput : output.Named) (hbase : s.files.HasDirectory output base)
    (hname : Path.IsStem name) (hdocument : Json.Readable document)
    (hinterface : Json.Readable interface) (hcode : '\r' ∉ code.toList) :
    s.files.exists? ((output.join name).join (name ++ ".json")) = .ok true ∧
      readDocument ((output.join name).join (name ++ ".json")).text s = .ok document s ∧
      readDocument ((output.join name).join (name ++ "_abi.json")).text s = .ok interface s ∧
      readText ((output.join name).join (name ++ "_bytecode.txt")).text s = .ok code s := by
  have hpaths : ∀ artifact text, (artifact, text) ∈ artifactTexts name document interface code →
      ((output.join name).join artifact).Named := fun artifact text he =>
    (houtput.directory hname).join
      (isEntry_artifactTexts hname document interface code _ he).toIsName
  have hfirst : (name ++ ".json", document.pretty) ∈
      artifactTexts name document interface code := List.mem_cons_self
  have hsecond : (name ++ "_abi.json", interface.pretty) ∈
      artifactTexts name document interface code := List.mem_cons_of_mem _ List.mem_cons_self
  have hthird : (name ++ "_bytecode.txt", code) ∈ artifactTexts name document interface code :=
    List.mem_cons_of_mem _ (List.mem_cons_of_mem _ List.mem_cons_self)
  have htext := h.textAt hbase hname hfirst (Json.not_mem_pretty hdocument)
  refine ⟨exists?_of_textAt htext, ?_, ?_, ?_⟩
  · exact readDocument_of_textAt (hpaths _ _ hfirst) hdocument htext
  · exact readDocument_of_textAt (hpaths _ _ hsecond) hinterface
      (h.textAt hbase hname hsecond (Json.not_mem_pretty hinterface))
  · exact readText_of_textAt (hpaths _ _ hthird) (h.textAt hbase hname hthird hcode)

end Loading

/-- The artifacts of a compiled file are loaded, and its interface and code are also in files of
their own. -/
def ReadBack (s : Session) (output file : String) (c : CompiledSource) : Prop :=
  loadArtifacts (Path.stemOf file) output s = .ok (artifactsOf file c) s ∧
    readDocument (((Path.ofText output).join (Path.stemOf file)).join
      (Path.stemOf file ++ "_abi.json")).text s = .ok c.compiled.interface.toJson s ∧
    readText (((Path.ofText output).join (Path.stemOf file)).join
      (Path.stemOf file ++ "_bytecode.txt")).text s = .ok c.compiled.codeText s

theorem Stored.readBack {output text : String} {c : CompiledSource}
    (h : Stored (.ofText output) base file c s.files)
    (hbase : s.files.HasDirectory (.ofText output) base)
    (hname : Path.IsStem (Path.stemOf file)) (hsource : compiledSource text = .ok c) :
    ReadBack s output file c := by
  obtain ⟨hexists, hdocument, hinterface, hcode⟩ :=
    h.holds.read (Path.named_ofText output) hbase hname
      (readable_pythonDocument hsource (Path.stemOf file) file)
      (readable_interface c.compiled.interface) (not_mem_codeText c.compiled)
  refine ⟨?_, hinterface, hcode⟩
  have hfound := exists?_run (((Path.ofText output).join (Path.stemOf file)).join
    (Path.stemOf file ++ ".json")) s
  rw [hexists] at hfound
  refine (bind_ok hfound).trans ?_
  rw [if_pos rfl]
  refine (bind_ok hdocument).trans ?_
  rw [ofDocument_pythonDocument]
  rfl

/-! ## Building and loading -/

/-- If a directory has no Solidity contracts, a build that comes to its end keeps what it has
built. -/
theorem build_kept (hproper : s.files.Proper) (hcontracts : contracts.Named)
    (houtput : output.Named) {d : Place} (hd : s.files.HasDirectory contracts d)
    (hpython : filesIn s.files contracts ".sol" = [])
    (hmade : s.files.makeDirectories output = .ok made)
    (hbase : output.absolute = false → made.HasDirectory output base)
    (hbuild : build contracts output version s = .ok results s') :
    Kept made contracts output base results s'.files := by
  have hproper' := hproper.makeDirectories houtput hmade
  have hstart : Kept made contracts output base [] made :=
    ⟨.refl _ _, fun name entry _ hentry _ => (Option.some_ne_none entry hentry.symm).elim⟩
  rcases build_run hmade version with ⟨s₁, hstops, hfiles, -⟩ | ⟨v, s₁, hfiles, -, hruns⟩
  · rw [hstops] at hbuild
    obtain ⟨rfl, rfl⟩ := EStateM.Result.ok.inj hbuild
    rw [hfiles]
    exact hstart
  · rw [hruns] at hbuild
    obtain ⟨results₁, s₂, hbuilt, hsolidity⟩ := of_bind_ok hbuild
    have hkept := buildPython_kept hproper' hcontracts houtput hbase (fun _ h => h)
      (hfiles.symm ▸ hstart) hbuilt
    cases hlisted : filesIn made contracts ".sol" with
    | nil =>
      rw [hlisted] at hsolidity
      obtain ⟨rfl, rfl⟩ := EStateM.Result.ok.inj hsolidity
      exact hkept
    | cons file rest =>
      -- It is a directory that was made, and the build has ended when reading it.
      have hfile : file ∈ filesIn made contracts ".sol" := by simp [hlisted]
      have hsame := textAt_of_changes hproper' hkept.changes (fun _ _ hput => hput) (.inr rfl)
        hfile
      cases htext : made.textAt (contracts.join file) with
      | ok text =>
        have hlisted := textAt_of_makeDirectories hmade hd
          (isEntry_of_mem (.inr rfl) hproper' hfile) htext
        have hmem : file ∈ filesIn s.files contracts ".sol" :=
          List.mem_filter.mpr ⟨hlisted.2, (List.mem_filter.mp hfile).2⟩
        simp [hpython] at hmem
      | error p =>
        have hends : ∃ p', buildSolidity contracts output v results₁
            (filesIn made contracts ".sol") s₂ = .error p' s₂ :=
          buildSolidity_error (fun _ => named_of_mem hcontracts (.inr rfl) hproper') hfile
            (hsame.trans htext) v results₁
        obtain ⟨p', hends⟩ := hends
        simp [hends] at hsolidity

/-- **Artifacts are read back.**  Let a directory have no Solidity contracts, and let a build of it
come to its end, whatever was there before.  A contract that it reports as built has the name of a
file of the directory whose text compiles.  Its artifacts are loaded afterwards, and they are what
this text is compiled to, under the name of the file; its interface and its code are read from their
own files. -/
theorem artifacts_round_trip {contracts output : String} {d : Place} (hproper : s.files.Proper)
    (hcontracts : s.files.HasDirectory (.ofText contracts) d)
    (hpython : filesIn s.files (.ofText contracts) ".sol" = [])
    (hbuild : build (.ofText contracts) (.ofText output) version s = .ok results s')
    {entry : BuildEntry} {built : Built} (hentry : Assoc.get? name results = some entry)
    (hbuilt : entry.outcome = .ok built) :
    entry.sourceFile ∈ filesIn s.files (.ofText contracts) ".py" ∧
      name = Path.stemOf entry.sourceFile ∧
      ∃ text c, s.files.textAt ((Path.ofText contracts).join entry.sourceFile) = .ok text ∧
        compiledSource text = .ok c ∧ ReadBack s' output entry.sourceFile c := by
  have houtput := Path.named_ofText output
  obtain ⟨made, hmade⟩ := makeDirectories_of_build hbuild
  have hproper' := hproper.makeDirectories houtput hmade
  have hbase : ∃ base, (Path.ofText output).absolute = false →
      made.HasDirectory (.ofText output) base := by
    by_cases hrelative : (Path.ofText output).absolute = false
    · obtain ⟨base, hplace, hnode⟩ := Tree.directory_of_makeDirectories hmade hrelative
      exact ⟨base, fun _ => ⟨hplace, hnode⟩⟩
    · exact ⟨[], fun h => absurd h hrelative⟩
  obtain ⟨base, hbase⟩ := hbase
  have hkept := build_kept hproper (Path.named_ofText contracts) houtput hcontracts hpython hmade
    hbase hbuild
  obtain ⟨hfile, hname, c, hsource, hstored⟩ := hkept.entries name entry built hentry hbuilt
  have hends := (List.mem_filter.mp hfile).2
  cases htext : made.textAt ((Path.ofText contracts).join entry.sourceFile) with
  | error p => simp [sourceAt, htext] at hsource
  | ok text =>
    have hcompiled : compiledSource text = .ok c := by simpa [sourceAt, htext] using hsource
    have hlisted := textAt_of_makeDirectories hmade hcontracts
      (isEntry_of_mem (.inl rfl) hproper' hfile) htext
    refine ⟨List.mem_filter.mpr ⟨hlisted.2, hends⟩, hname, text, c, hlisted.1, hcompiled, ?_⟩
    exact hstored.readBack (hkept.changes.hasDirectory (hbase hstored.relative))
      (isStem_of_mem hproper' hfile) hcompiled

open Samples

theorem tidy_box : Tidy [("Box.py", Evm.boxText)] where
  noSlash := by decide
  ordered := by decide
  stems := by decide
  entries := by decide
  short := by decide

/-- A box is built and read back. -/
theorem artifacts_round_trip_box :
    ∃ c results s', compiledSource Evm.boxText = .ok c ∧
      build (.ofText "contracts") (.ofText "build") none
        (contractsOnly [("Box.py", Evm.boxText)]) = .ok results s' ∧
      Assoc.keys results = ["Box"] ∧ ReadBack s' "build" "Box.py" c := by
  obtain ⟨c, hbox⟩ := compiledSource_box
  have hfiles : filesIn (madeTree [("Box.py", Evm.boxText)]) (.ofText "contracts") ".py" =
      ["Box.py"] := filesIn_madeTree tidy_box ".py"
  have hsol : filesIn (madeTree [("Box.py", Evm.boxText)]) (.ofText "contracts") ".sol" = [] :=
    filesIn_madeTree tidy_box ".sol"
  have hsol' : filesIn (contractsTree [("Box.py", Evm.boxText)]) (.ofText "contracts") ".sol" =
      [] := by
    refine List.eq_nil_iff_forall_not_mem.mpr fun file hfile => ?_
    have hlisted := mem_filesIn_of_changes changes_madeTree hfile
    simp [hsol] at hlisted
  have hnames : ([("Box.py", Evm.boxText)].map Prod.fst).Nodup := by decide
  have hsource := sourceAt_box hnames List.mem_cons_self
  rw [hbox] at hsource
  have hcompiles : compiles (madeTree [("Box.py", Evm.boxText)]) (.ofText "contracts") "Box.py" =
      true := compiles_iff.mpr ⟨c, hsource⟩
  obtain ⟨s', hbuild⟩ := (buildable_contractsOnly tidy_box).build_reported
    (Path.named_ofText "contracts") (Path.named_ofText "build") hsol (by
      intro first rest hlist
      rw [hfiles] at hlist
      rw [← (List.cons.inj hlist).1]
      exact hcompiles)
  rw [hfiles, reported_cons_ok hcompiles, lastReported_nil, reportOn, hsource] at hbuild
  obtain ⟨-, -, text, c', htext, hc', hback⟩ := artifacts_round_trip tidy_box.proper
    hasDirectory_contractsTree hsol' hbuild (show Assoc.get? "Box" _ = some _ from rfl) rfl
  have hsame := (textAt_of_makeDirectories makeDirectories_contractsTree
    hasDirectory_contractsTree ⟨⟨by decide, by decide, by decide⟩, by decide⟩
    (textAt_box hnames List.mem_cons_self)).1
  obtain rfl := Except.ok.inj (htext.symm.trans hsame)
  obtain rfl := Except.ok.inj (hc'.symm.trans hbox)
  exact ⟨_, _, s', hbox, hbuild, rfl, hback⟩

end ContractKit.Project
