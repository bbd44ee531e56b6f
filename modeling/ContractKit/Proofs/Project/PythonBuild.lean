import ContractKit.Proofs.Project.Artifacts

/-!
# One contract after the other

Building Python contracts goes through their files.  A file that cannot be compiled changes no
files; it is noted under the name of the contract before it, and ends the build if there is none.  A
file that is compiled gets an entry under its own name, whether its artifacts can be written or not.
-/

namespace ContractKit.Project

variable {t t' : Tree} {base : Place} {contracts output : Path} {file name : String}
  {s s' : Session} {results : Results} {rest : List String}

/-! ## Compiling a file -/

def compiledSource (text : String) : Except Problem CompiledSource :=
  match (compile text).2.result with
  | .ok compiled => .ok ⟨compiled, (compile text).1.slots⟩
  | .error .notASource => .error .notASource
  | .error (.fault cause) => .error (.uncompilable cause)

def sourceAt (t : Tree) (contracts : Path) (file : String) : Except Problem CompiledSource :=
  match t.textAt (contracts.join file) with
  | .ok text => compiledSource text
  | .error p => .error p

theorem compileText_run (text : String) (s : Session) :
    ∃ s', compileText text s = endWith (compiledSource text) s' ∧ Reported s s' := by
  simp only [compileText, compiledSource]
  generalize compile text = compiled
  obtain ⟨s', hreports, hreported⟩ := reportAll_run compiled.2.log s
  refine ⟨s', (bind_ok hreports).trans ?_, hreported⟩
  cases compiled.2.result with
  | ok result => rfl
  | error cause => cases cause <;> rfl

theorem attempt_compile (hpath : (contracts.join file).Named) (s : Session) :
    ∃ s', attempt (do compileText (← readText (contracts.join file).text)) s =
      .ok (sourceAt s.files contracts file) s' ∧ Reported s s' := by
  have hread := readText_run hpath s
  unfold sourceAt
  cases htext : s.files.textAt (contracts.join file) with
  | error p =>
    rw [htext] at hread
    exact ⟨s, attempt_error (bind_error hread), .refl s⟩
  | ok text =>
    rw [htext] at hread
    obtain ⟨s', hcompile, hreported⟩ := compileText_run text s
    exact ⟨s', attempt_endWith ((bind_ok hread).trans hcompile), hreported⟩

/-! ## Building a file -/

/-- The first file that cannot be compiled ends the build if no contract comes before it. -/
theorem buildPython_unnamed (hpath : (contracts.join file).Named) {p : Problem}
    (h : sourceAt s.files contracts file = .error p) :
    ∃ s', buildPython contracts output results none (file :: rest) s =
      .error .unnamedContract s' := by
  obtain ⟨s₁, hreport, hreported⟩ :=
    report_run s!"[blue]Transpiling Python contract: {file}[/blue]" s
  obtain ⟨s₂, hcompile, -⟩ := attempt_compile hpath s₁
  rw [hreported.files, h] at hcompile
  exact ⟨s₂, (bind_ok hreport).trans (bind_ok hcompile)⟩

/-- A file that cannot be compiled is noted under the name of the contract before it. -/
theorem buildPython_fault (hpath : (contracts.join file).Named) {p : Problem}
    (h : sourceAt s.files contracts file = .error p) (name : String) :
    ∃ s', Reported s s' ∧ buildPython contracts output results (some name) (file :: rest) s =
      buildPython contracts output (Assoc.set name ⟨.error p.message, file, some .python⟩ results)
        (some name) rest s' := by
  obtain ⟨s₁, hreport, hreported⟩ :=
    report_run s!"[blue]Transpiling Python contract: {file}[/blue]" s
  obtain ⟨s₂, hcompile, hreported'⟩ := attempt_compile hpath s₁
  rw [hreported.files, h] at hcompile
  obtain ⟨s₃, hfailure, hreported''⟩ :=
    report_run s!"[red]✗[/red] Failed to transpile {name}: {p.message}" s₂
  refine ⟨s₃, (hreported.trans hreported').trans hreported'', ?_⟩
  refine (bind_ok hreport).trans ((bind_ok hcompile).trans ?_)
  exact bind_ok ((bind_ok hfailure).trans rfl)

/-- A file that is compiled gets an entry under its name. -/
theorem buildPython_compiled (hpath : (contracts.join file).Named) (houtput : output.Named)
    (hbase : output.absolute = false → s.files.HasDirectory output base)
    (hname : Path.IsStem (Path.stemOf file)) {c : CompiledSource}
    (h : sourceAt s.files contracts file = .ok c) (last : Option String) :
    ∃ outcome s', s'.outside = s.outside ∧
      Tree.Changes (ArtifactPut base (Path.stemOf file)) s.files s'.files ∧
      (∀ built, outcome = .ok built → output.absolute = false ∧
        built = builtOf output (Path.stemOf file) c.compiled.interface.toJson c.compiled.codeText ∧
        Holds s'.files base (Path.stemOf file) (pythonDocument (Path.stemOf file) file c)
          c.compiled.interface.toJson c.compiled.codeText) ∧
      (output.absolute = false → Room s.files base (Path.stemOf file) →
        ∃ built, outcome = .ok built) ∧
      buildPython contracts output results last (file :: rest) s =
        buildPython contracts output
          (Assoc.set (Path.stemOf file) ⟨outcome, file, some .python⟩ results)
          (some (Path.stemOf file)) rest s' := by
  obtain ⟨s₁, hreport, hreported⟩ :=
    report_run s!"[blue]Transpiling Python contract: {file}[/blue]" s
  obtain ⟨s₂, hcompile, hreported'⟩ := attempt_compile hpath s₁
  rw [hreported.files, h] at hcompile
  have hsame := hreported.trans hreported'
  rw [← hsame.files] at hbase
  obtain ⟨outcome, s₃, hwrite, houtside, hchanges, hbuilt, hroom⟩ := writeArtifacts_outcome houtput
    hbase hname (pythonDocument (Path.stemOf file) file c) c.compiled.interface.toJson
    c.compiled.codeText
  rw [hsame.files] at hchanges hroom
  cases outcome with
  | error p =>
    obtain ⟨s₄, hfailure, hreported''⟩ :=
      report_run s!"[red]✗[/red] Failed to transpile {Path.stemOf file}: {p.message}" s₃
    refine ⟨.error p.message, s₄, ?_, ?_, by simp, fun hrelative h => ?_, ?_⟩
    · rw [hreported''.outside, houtside, hsame.outside]
    · rw [hreported''.files]
      exact hchanges
    · simpa using hroom hrelative h
    · refine (bind_ok hreport).trans ((bind_ok hcompile).trans ((bind_ok hwrite).trans ?_))
      exact bind_ok ((bind_ok hfailure).trans rfl)
  | ok built =>
    obtain ⟨s₄, hdone, hreported''⟩ :=
      report_run s!"[green]✓[/green] Transpiled {Path.stemOf file} from {file}" s₃
    refine ⟨.ok built, s₄, ?_, ?_, ?_, fun _ _ => ⟨built, rfl⟩, ?_⟩
    · rw [hreported''.outside, houtside, hsame.outside]
    · rw [hreported''.files]
      exact hchanges
    · rw [hreported''.files]
      intro built' h
      exact hbuilt built' (by rw [Except.ok.inj h])
    · refine (bind_ok hreport).trans ((bind_ok hcompile).trans ((bind_ok hwrite).trans ?_))
      exact bind_ok hdone

/-! ## The files of contracts -/

/-- The files of a directory with an ending, in order. -/
def filesIn (t : Tree) (contracts : Path) (ending : String) : List String :=
  (t.names contracts).filter (Path.endsWith ending)

def IsEnding (ending : String) : Prop := ending = ".py" ∨ ending = ".sol"

theorem isEntry_of_mem {ending : String} (hending : IsEnding ending) (ht : t.Proper)
    (h : file ∈ filesIn t contracts ending) : Path.IsEntry file := by
  obtain ⟨hname, hends⟩ := List.mem_filter.mp h
  have hslash := ht.of_mem_names hname
  obtain ⟨front, hchars⟩ := Path.endsWith_iff.mp hends
  have hfile : file = String.ofList front ++ ending := String.toList_inj.mp (by simp [hchars])
  have hplain : '/' ∉ ending.toList ∧ 3 ≤ ending.length := by
    rcases hending with rfl | rfl <;> decide
  rw [hfile]
  refine Path.isEntry_append ?_ hplain.1 hplain.2
  intro hmem
  exact hslash (by simp_all)

theorem named_of_mem {ending : String} (hcontracts : contracts.Named) (hending : IsEnding ending)
    (ht : t.Proper) (h : file ∈ filesIn t contracts ending) : (contracts.join file).Named :=
  hcontracts.join (isEntry_of_mem hending ht h).toIsName

theorem isStem_of_mem (ht : t.Proper) (h : file ∈ filesIn t contracts ".py") :
    Path.IsStem (Path.stemOf file) := by
  obtain ⟨hname, hends⟩ := List.mem_filter.mp h
  exact Path.isStem_stemOf (show Path.endsWith ("." ++ "py") file = true from hends) (by decide)
    (by decide) (ht.of_mem_names hname)

theorem endsWith_artifact {ending suffix : String} (hending : IsEnding ending)
    (h : suffix ∈ artifactSuffixes) (name : String) :
    Path.endsWith ending (name ++ suffix) = false := by
  simp only [artifactSuffixes, List.mem_cons, List.not_mem_nil, or_false] at h
  rcases hending with rfl | rfl <;> rcases h with rfl | rfl | rfl <;>
    simp [Path.endsWith, List.isPrefixOf]

theorem node?_of_changes {put : Place → Node → Prop} (h : Tree.Changes put t t')
    (hput : ∀ p node, put p node → ∃ name, ArtifactPut base name p node) {d : Place}
    {ending : String} (hending : IsEnding ending) (hfile : Path.endsWith ending file = true)
    (hsome : (t.node? (d ++ [file])).isSome = true) :
    t'.node? (d ++ [file]) = t.node? (d ++ [file]) := by
  rcases h.node (d ++ [file]) with hsame | ⟨node, hnode, hp⟩
  · exact hsame
  · obtain ⟨old, hold⟩ := Option.isSome_iff_exists.mp hsome
    obtain ⟨node', hp', hkind⟩ := h.kind _ old hold
    obtain ⟨name, ⟨-, rfl⟩ | ⟨⟨suffix, hsuffix, hplace⟩, -⟩⟩ := hput _ node hnode
    · -- A directory can only be put where one was.
      rw [hp] at hp'
      obtain rfl := Option.some.inj hp'
      rw [hp, hold, Node.eq_directory hkind.symm]
    · have hname : file = name ++ suffix := by simpa using (List.append_inj' hplace rfl).2
      rw [hname, endsWith_artifact hending hsuffix] at hfile
      simp at hfile

theorem textAt_entry {d : Place} (hd : t.HasDirectory contracts d)
    (hd' : t'.HasDirectory contracts d) (hentry : Path.IsEntry file)
    (hnode : t'.node? (d ++ [file]) = t.node? (d ++ [file])) :
    t'.textAt (contracts.join file) = t.textAt (contracts.join file) := by
  have hread : t'.read (contracts.join file) = t.read (contracts.join file) := by
    rw [Tree.read, Tree.read, Tree.place_entry hd hentry, Tree.place_entry hd' hentry]
    split
    · rfl
    · simp only [bind, Except.bind, hnode]
  rw [Tree.textAt, Tree.textAt, hread]

theorem textAt_of_changes {put : Place → Node → Prop} (ht : t.Proper) (h : Tree.Changes put t t')
    (hput : ∀ p node, put p node → ∃ name, ArtifactPut base name p node) {ending : String}
    (hending : IsEnding ending) (hfile : file ∈ filesIn t contracts ending) :
    t'.textAt (contracts.join file) = t.textAt (contracts.join file) := by
  obtain ⟨hname, hends⟩ := List.mem_filter.mp hfile
  obtain ⟨d, hplace, hd, hsome⟩ := Tree.mem_names.mp hname
  have hd : t.HasDirectory contracts d := ⟨hplace, hd⟩
  exact textAt_entry hd (h.hasDirectory hd) (isEntry_of_mem hending ht hfile)
    (node?_of_changes h hput hending hends hsome)

theorem sourceAt_of_changes {put : Place → Node → Prop} (ht : t.Proper)
    (h : Tree.Changes put t t') (hput : ∀ p node, put p node → ∃ name, ArtifactPut base name p node)
    (hfile : file ∈ filesIn t contracts ".py") :
    sourceAt t' contracts file = sourceAt t contracts file := by
  rw [sourceAt, sourceAt, textAt_of_changes ht h hput (.inl rfl) hfile]

/-! ## Building a directory -/

/-- The version of the Solidity compiler that is asked for. -/
def targetVersion (version : Option String) : String :=
  (version.filter (· != "")).getD defaultCompilerVersion

/-- The version of the Solidity compiler that is asked for can be installed, or the default one. -/
def Installs (version : Option String) (o : Outside) : Prop :=
  Assoc.get? (targetVersion version) o.solc.installFailures = none ∨
    Assoc.get? defaultCompilerVersion o.solc.installFailures = none

theorem installCompiler_run (version : String) (s : Session) :
    ∃ outcome s', installCompiler version s = endWith outcome s' ∧ Reported s s' ∧
      (Assoc.get? version s.outside.solc.installFailures = none → outcome = .ok ()) := by
  obtain ⟨s₁, hnote, hreported⟩ := note_run (.installCompiler version) s
  cases hfailure : Assoc.get? version s.outside.solc.installFailures with
  | some message =>
    refine ⟨.error (.outside message), s₁, ?_, hreported, by simp⟩
    refine (bind_ok hnote).trans ((bind_ok (outside_run s₁)).trans ?_)
    rw [hreported.outside, hfailure]
    rfl
  | none =>
    obtain ⟨s₂, hselect, hreported'⟩ := note_run (.selectCompiler version) s₁
    refine ⟨.ok (), s₂, ?_, hreported.trans hreported', fun _ => rfl⟩
    refine (bind_ok hnote).trans ((bind_ok (outside_run s₁)).trans ?_)
    rw [hreported.outside, hfailure]
    exact hselect

theorem selectCompiler_run (version : Option String) (s : Session) :
    ∃ outcome s', selectCompiler version s = endWith outcome s' ∧ Reported s s' ∧
      (Installs version s.outside → ∃ v, outcome = .ok v) := by
  obtain ⟨first, s₁, hfirst, hreported, hinstalls⟩ := installCompiler_run (targetVersion version) s
  have hattempt := attempt_endWith hfirst
  cases first with
  | ok u => exact ⟨.ok (targetVersion version), s₁, bind_ok hattempt, hreported, fun _ => ⟨_, rfl⟩⟩
  | error p =>
    obtain ⟨s₂, hreport, hreported'⟩ := report_run
      s!"[yellow]Warning:[/yellow] Could not install Solidity {targetVersion version}: {p.message}"
      s₁
    obtain ⟨second, s₃, hsecond, hreported'', hinstalls'⟩ :=
      installCompiler_run defaultCompilerVersion s₂
    have hsame := hreported.trans hreported'
    rw [hsame.outside] at hinstalls'
    cases second with
    | ok u =>
      refine ⟨.ok defaultCompilerVersion, s₃, ?_, hsame.trans hreported'', fun _ => ⟨_, rfl⟩⟩
      exact (bind_ok hattempt).trans ((bind_ok hreport).trans (bind_ok hsecond))
    | error p' =>
      refine ⟨.error p', s₃, ?_, hsame.trans hreported'', fun h => ?_⟩
      · exact (bind_ok hattempt).trans ((bind_ok hreport).trans (bind_error hsecond))
      · rcases h with h | h
        · simpa using hinstalls h
        · simpa using hinstalls' h

/-- What is listed in a directory is listed after changes. -/
theorem mem_filesIn_of_changes {put : Place → Node → Prop} (h : Tree.Changes put t t')
    {ending : String} (hfile : file ∈ filesIn t contracts ending) :
    file ∈ filesIn t' contracts ending := by
  obtain ⟨hname, hends⟩ := List.mem_filter.mp hfile
  obtain ⟨d, hplace, hd, hsome⟩ := Tree.mem_names.mp hname
  obtain ⟨node, hnode⟩ := Option.isSome_iff_exists.mp hsome
  obtain ⟨node', hnode', -⟩ := h.kind _ node hnode
  have hname' : file ∈ t'.names contracts :=
    Tree.mem_names.mpr ⟨d, h.place hplace, h.directory hd, by rw [hnode']; rfl⟩
  exact List.mem_filter.mpr ⟨hname', hends⟩

/-- A text that is read when directories have been made was there before. -/
theorem textAt_of_makeDirectories {made : Tree} (hmade : t.makeDirectories output = .ok made)
    {d : Place} (hd : t.HasDirectory contracts d) (hentry : Path.IsEntry file) {text : String}
    (h : made.textAt (contracts.join file) = .ok text) :
    t.textAt (contracts.join file) = .ok text ∧ file ∈ t.names contracts := by
  have hchanges := Tree.changes_makeDirectories (P := fun _ => True) hmade (by simp) (by simp)
  have hd' := hchanges.hasDirectory hd
  unfold Tree.textAt at h
  cases hread : made.read (contracts.join file) with
  | error fault => simp [hread] at h
  | ok content =>
    obtain ⟨p, mode, hplace, hnode⟩ := Tree.read_eq_ok.mp hread
    obtain ⟨rfl, -⟩ := Tree.eq_of_place_entry hd' hentry hplace
    -- Only directories were made, so the file was there.
    have hold := (hchanges.file_iff (fun _ hput => hput.1) content mode).mp hnode
    refine ⟨?_, Tree.mem_names.mpr ⟨d, hd.place, hd.isDirectory, by rw [hold]; rfl⟩⟩
    rw [← textAt_entry hd hd' hentry (hnode.trans hold.symm), Tree.textAt]
    exact h

theorem makeDirectories_of_build {version : Option String} {a : Results}
    (h : build contracts output version s = .ok a s') :
    ∃ made, s.files.makeDirectories output = .ok made := by
  have hmake := makeDirectories_run output s
  cases hmade : s.files.makeDirectories output with
  | ok made => exact ⟨made, rfl⟩
  | error fault =>
    rw [hmade] at hmake
    have hfails : build contracts output version s = _ := bind_error hmake
    simp [hfails] at h

/-- Building a directory is building its Python contracts and then its Solidity contracts, if a
version of the Solidity compiler can be installed. -/
theorem build_run {made : Tree} (hmade : s.files.makeDirectories output = .ok made)
    (version : Option String) :
    (∃ s', build contracts output version s = .ok [] s' ∧ s'.files = made ∧
      ¬ Installs version s.outside) ∨
    ∃ v s₁, s₁.files = made ∧ s₁.outside = s.outside ∧
      build contracts output version s = (do
        let results ← buildPython contracts output [] none (filesIn made contracts ".py")
        buildSolidity contracts output v results (filesIn made contracts ".sol")) s₁ := by
  have hmake := makeDirectories_run output s
  rw [hmade] at hmake
  obtain ⟨outcome, s₁, hselect, hreported, hinstalls⟩ :=
    selectCompiler_run version { s with files := made }
  have hselect := attempt_endWith hselect
  cases outcome with
  | error p =>
    obtain ⟨s₂, hreport, hreported'⟩ :=
      report_run s!"[red]Error setting up Solidity compiler:[/red] {p.message}" s₁
    refine .inl ⟨s₂, ?_, (hreported.trans hreported').files, fun h => ?_⟩
    · exact (bind_ok hmake).trans ((bind_ok hselect).trans (bind_ok hreport))
    · simpa using hinstalls h
  | ok v =>
    obtain ⟨s₂, hreport, hreported'⟩ :=
      report_run s!"[blue]Using Solidity compiler version:[/blue] {v}" s₁
    have hsame := hreported.trans hreported'
    have hlisting : ∀ ending, contractFiles contracts ending s₂ =
        .ok (filesIn made contracts ending) s₂ := by
      intro ending
      rw [← show s₂.files = made from hsame.files]
      rfl
    by_cases hempty : filesIn made contracts ".sol" = [] ∧ filesIn made contracts ".py" = []
    · obtain ⟨s₃, hnone, hreported''⟩ :=
        report_run s!"[yellow]No .sol or .py files found in {contracts.text}[/yellow]" s₂
      have hsame := hsame.trans hreported''
      refine .inr ⟨v, s₃, hsame.files, hsame.outside, ?_⟩
      refine (bind_ok hmake).trans ((bind_ok hselect).trans ((bind_ok hreport).trans ?_))
      refine (bind_ok (hlisting ".sol")).trans ((bind_ok (hlisting ".py")).trans ?_)
      rw [hempty.1, hempty.2]
      exact bind_ok hnone
    · refine .inr ⟨v, s₂, hsame.files, hsame.outside, ?_⟩
      refine (bind_ok hmake).trans ((bind_ok hselect).trans ((bind_ok hreport).trans ?_))
      refine (bind_ok (hlisting ".sol")).trans ((bind_ok (hlisting ".py")).trans ?_)
      rw [if_neg (by simpa using hempty)]

end ContractKit.Project
