import ContractKit.Proofs.Project.PythonBuild

/-!
# Building Solidity contracts

Solidity contracts are built after the Python contracts, into the same results and the same
directory.  Building them sets entries under the names of the contracts that their compiler finds,
and under the stems of all their files if it fails; it writes artifacts of the contracts found.
-/

namespace ContractKit.Project

variable {base : Place} {contracts output : Path} {name file version : String} {s s' : Session}
  {results results' : Results}

/-! ## Sources -/

theorem readSources_ok {files : List String} (hpaths : ∀ file ∈ files, (contracts.join file).Named)
    (h : ∀ file ∈ files, ∃ text, s.files.textAt (contracts.join file) = .ok text) :
    ∃ sources, readSources contracts files s = .ok sources s := by
  induction files with
  | nil => exact ⟨[], rfl⟩
  | cons file rest ih =>
    have hread := readText_run (hpaths file List.mem_cons_self) s
    obtain ⟨text, htext⟩ := h file List.mem_cons_self
    obtain ⟨sources, hsources⟩ :=
      ih (fun file hfile => hpaths file (List.mem_cons_of_mem _ hfile))
        fun file hfile => h file (List.mem_cons_of_mem _ hfile)
    rw [htext] at hread
    exact ⟨(file, text) :: sources, (bind_ok hread).trans (bind_ok hsources)⟩

/-- A source that cannot be read ends the reading. -/
theorem readSources_error {files : List String}
    (hpaths : ∀ file ∈ files, (contracts.join file).Named) {p : Problem} (hfile : file ∈ files)
    (h : s.files.textAt (contracts.join file) = .error p) :
    ∃ p', readSources contracts files s = .error p' s := by
  induction files with
  | nil => simp at hfile
  | cons first rest ih =>
    have hread := readText_run (hpaths first List.mem_cons_self) s
    cases htext : s.files.textAt (contracts.join first) with
    | error p' =>
      rw [htext] at hread
      exact ⟨p', bind_error hread⟩
    | ok text =>
      rw [htext] at hread
      rcases List.mem_cons.mp hfile with rfl | hfile
      · simp [htext] at h
      · obtain ⟨p', hrest⟩ :=
          ih (fun file hfile => hpaths file (List.mem_cons_of_mem _ hfile)) hfile
        exact ⟨p', (bind_ok hread).trans (bind_error hrest)⟩

/-! ## Artifacts -/

/-- The task writes artifacts of a contract, or fails before it does anything. -/
def WritesOrFails (output : Path) (name : String) (task : SessionM Built) (s : Session) : Prop :=
  (∃ p, task s = .error p s) ∨
    ∃ document interface code, task s = writeArtifacts output name document interface code s

theorem WritesOrFails.demand {α : Type} {x : Except Json.Misuse α} {f : α → SessionM Built}
    (h : ∀ a, WritesOrFails output name (f a) s) :
    WritesOrFails output name (demand x >>= f) s := by
  cases x with
  | error cause => exact .inl ⟨_, rfl⟩
  | ok a => exact h a

theorem writeSolidity_cases (output : Path) (version file name : String) (data : Json)
    (s : Session) :
    WritesOrFails output name (writeSolidity output version file name data) s := by
  refine .demand fun interface => .demand fun evm => .demand fun bytecode => .demand fun code =>
    .demand fun metadata => ?_
  cases metadata with
  | str text =>
    cases hparse : Json.parse text with
    | error e =>
      have hfails : parseDocument text s = .error (.noDocument e) s := by
        rw [parseDocument, hparse]
        rfl
      exact .inl ⟨_, bind_error hfails⟩
    | ok document =>
      have hdone : parseDocument text s = .ok document s := by
        rw [parseDocument, hparse]
        rfl
      exact .inr ⟨_, _, _, bind_ok hdone⟩
  | _ => exact .inl ⟨_, rfl⟩

theorem attempt_writeSolidity (houtput : output.Named) (hbase : s.files.HasDirectory output base)
    (hname : Path.IsStem name) (version file : String) (data : Json) :
    ∃ outcome s', attempt (writeSolidity output version file name data) s = .ok outcome s' ∧
      s'.outside = s.outside ∧ Tree.Changes (ArtifactPut base name) s.files s'.files := by
  rcases writeSolidity_cases output version file name data s with
    ⟨p, hfails⟩ | ⟨document, interface, code, hwrite⟩
  · exact ⟨_, s, attempt_error hfails, rfl, .refl _ _⟩
  · obtain ⟨outcome, s', houtcome, houtside, hchanges, -⟩ :=
      writeArtifacts_outcome houtput (fun _ => hbase) hname document interface code
    refine ⟨outcome, s', ?_, houtside, hchanges⟩
    rw [← houtcome]
    simp only [attempt, hwrite]

/-! ## Results -/

/-- Entries of no Python contract were set under the names, and none under others. -/
structure Marked (names : List String) (results results' : Results) : Prop where
  others : ∀ name, name ∉ names → Assoc.get? name results' = Assoc.get? name results
  marked : ∀ name ∈ names, ∃ entry, Assoc.get? name results' = some entry ∧
    entry.language ≠ some .python

theorem Marked.refl (results : Results) : Marked [] results results :=
  ⟨fun _ _ => rfl, by simp⟩

theorem Marked.trans {names names' : List String} {results'' : Results}
    (h : Marked names results results') (h' : Marked names' results' results'') :
    Marked (names ++ names') results results'' := by
  constructor
  · intro name hname
    rw [List.mem_append, not_or] at hname
    rw [h'.others name hname.2, h.others name hname.1]
  · intro name hname
    by_cases hlater : name ∈ names'
    · exact h'.marked name hlater
    · rw [h'.others name hlater]
      exact h.marked name ((List.mem_append.mp hname).resolve_right hlater)

theorem Marked.set (results : Results) (name : String) {entry : BuildEntry}
    (h : entry.language ≠ some .python) : Marked [name] results (Assoc.set name entry results) := by
  constructor
  · intro other hother
    exact Assoc.get?_set_of_ne (by simpa using hother) entry results
  · intro other hother
    rw [List.mem_singleton.mp hother]
    exact ⟨entry, Assoc.get?_set_self name entry results, h⟩

/-! ## Contracts and files -/

/-- What building contracts of these names may put into a tree. -/
def NamedPut (base : Place) (names : List String) (p : Place) (node : Node) : Prop :=
  ∃ name ∈ names, ArtifactPut base name p node

theorem NamedPut.mono {names names' : List String} (h : ∀ name ∈ names, name ∈ names') {p : Place}
    {node : Node} (hput : NamedPut base names p node) : NamedPut base names' p node := by
  obtain ⟨name, hname, hput⟩ := hput
  exact ⟨name, h name hname, hput⟩

theorem buildSolidityFile_run (houtput : output.Named) (hbase : s.files.HasDirectory output base)
    (version file : String) {found : List (String × Json)}
    (hnames : ∀ name ∈ found.map Prod.fst, Path.IsStem name) (results : Results) :
    ∃ results' s', buildSolidityFile output version file results found s = .ok results' s' ∧
      s'.outside = s.outside ∧
      Tree.Changes (NamedPut base (found.map Prod.fst)) s.files s'.files ∧
      Marked (found.map Prod.fst) results results' := by
  induction found generalizing s results with
  | nil => exact ⟨results, s, rfl, rfl, .refl _ _, .refl results⟩
  | cons contract rest ih =>
    obtain ⟨name, data⟩ := contract
    obtain ⟨outcome, s₁, hwrite, houtside, hchanges⟩ := attempt_writeSolidity houtput hbase
      (hnames name List.mem_cons_self) version file data
    -- Whether the artifacts were written or not, there is a report and an entry.
    have hstep : ∃ entry : BuildEntry, ∃ s₂, entry.language ≠ some .python ∧ Reported s₁ s₂ ∧
        buildSolidityFile output version file results ((name, data) :: rest) s =
          buildSolidityFile output version file (Assoc.set name entry results) rest s₂ := by
      cases outcome with
      | ok built =>
        obtain ⟨s₂, hreport, hreported⟩ :=
          report_run s!"[green]✓[/green] Compiled {name} from {file}" s₁
        exact ⟨⟨.ok built, file, some .solidity⟩, s₂, by simp, hreported,
          (bind_ok hwrite).trans (bind_ok hreport)⟩
      | error p =>
        obtain ⟨s₂, hreport, hreported⟩ :=
          report_run s!"[red]✗[/red] Failed to process {name}: {p.message}" s₁
        exact ⟨⟨.error p.message, file, some .solidity⟩, s₂, by simp, hreported,
          (bind_ok hwrite).trans (bind_ok hreport)⟩
    obtain ⟨entry, s₂, hlanguage, hreported, hstep⟩ := hstep
    have hbase₂ : s₂.files.HasDirectory output base := by
      rw [hreported.files]
      exact hchanges.hasDirectory hbase
    obtain ⟨results', s', hrun, houtside', hchanges', hmarked⟩ :=
      ih hbase₂ (fun name hname => hnames name (List.mem_cons_of_mem _ hname))
        (Assoc.set name entry results)
    refine ⟨results', s', hstep.trans hrun, ?_, ?_,
      (Marked.set results name hlanguage).trans hmarked⟩
    · rw [houtside', hreported.outside, houtside]
    · rw [hreported.files] at hchanges'
      refine (hchanges.mono fun p node hput => ?_).trans (hchanges'.mono fun p node hput => ?_)
      · exact ⟨name, List.mem_cons_self, hput⟩
      · exact hput.mono fun _ hname => List.mem_cons_of_mem _ hname

/-- The names of the contracts in files, up to a file whose contracts cannot be gone through, and
whether there is none. -/
def namesFound : List (String × Json) → List String × Bool
  | [] => ([], true)
  | (_, contracts) :: rest =>
    match contracts.fields with
    | .error _ => ([], false)
    | .ok found => (found.map Prod.fst ++ (namesFound rest).1, (namesFound rest).2)

theorem buildSolidityFiles_run (houtput : output.Named) (hbase : s.files.HasDirectory output base)
    (version : String) {found : List (String × Json)}
    (hnames : ∀ name ∈ (namesFound found).1, Path.IsStem name) (results : Results) :
    ∃ results' problem s', buildSolidityFiles output version results found s =
        .ok (results', problem) s' ∧ s'.outside = s.outside ∧
      Tree.Changes (NamedPut base (namesFound found).1) s.files s'.files ∧
      Marked (namesFound found).1 results results' ∧
      (problem = none ↔ (namesFound found).2 = true) := by
  induction found generalizing s results with
  | nil => exact ⟨results, none, s, rfl, rfl, .refl _ _, .refl results, by simp [namesFound]⟩
  | cons entry rest ih =>
    obtain ⟨file, contracts⟩ := entry
    cases hfields : contracts.fields with
    | error cause =>
      simp only [namesFound, hfields]
      refine ⟨results, some (.misuse cause), s, ?_, rfl, .refl _ _, .refl results, by simp⟩
      rw [buildSolidityFiles, hfields]
      rfl
    | ok first =>
      simp only [namesFound, hfields] at hnames ⊢
      obtain ⟨results₁, s₁, hfirst, houtside, hchanges, hmarked⟩ :=
        buildSolidityFile_run houtput hbase version file
          (fun name hname => hnames name (List.mem_append_left _ hname)) results
      obtain ⟨results', problem, s', hrest, houtside', hchanges', hmarked', hproblem⟩ :=
        ih (hchanges.hasDirectory hbase)
          (fun name hname => hnames name (List.mem_append_right _ hname)) results₁
      refine ⟨results', problem, s', ?_, houtside'.trans houtside, ?_, hmarked.trans hmarked',
        hproblem⟩
      · rw [buildSolidityFiles, hfields]
        exact (bind_ok hfirst).trans hrest
      · refine (hchanges.mono fun p node hput => ?_).trans
          (hchanges'.mono fun p node hput => ?_)
        · exact hput.mono fun _ hname => List.mem_append_left _ hname
        · exact hput.mono fun _ hname => List.mem_append_right _ hname

/-! ## All files -/

/-- The files and contracts that the Solidity compiler finds. -/
def solcFound (o : Outside) : Except Problem (List (String × Json)) :=
  match o.solc.output with
  | .error message => .error (.outside message)
  | .ok output => (output.field "contracts" >>= Json.fields).mapError .misuse

/-- The names of the contracts that the Solidity compiler finds. -/
def solcNames (o : Outside) : List String :=
  match solcFound o with
  | .error _ => []
  | .ok found => (namesFound found).1

/-- The Solidity compiler finds contracts, and they can be gone through. -/
def solcSucceeds (o : Outside) : Bool :=
  match solcFound o with
  | .error _ => false
  | .ok found => (namesFound found).2

/-- The names under which building Solidity files sets entries. -/
def touched (o : Outside) (files : List String) : List String :=
  if files.isEmpty then []
  else solcNames o ++ if solcSucceeds o then [] else files.map Path.stemOf

theorem compileSolidity_run (sources : List (String × String)) (s : Session) :
    ∃ s', compileSolidity sources s = endWith (solcFound s.outside) s' ∧ Reported s s' := by
  obtain ⟨s₁, hnote, hreported⟩ := note_run (.compileSolidity (solidityInput sources)) s
  refine ⟨s₁, ?_, hreported⟩
  refine (bind_ok hnote).trans ((bind_ok (outside_run s₁)).trans ?_)
  rw [hreported.outside]
  unfold solcFound
  cases houtput : s.outside.solc.output with
  | error message => rfl
  | ok output =>
    refine (bind_ok (show answer (.ok output) s₁ = .ok output s₁ from rfl)).trans ?_
    dsimp only
    cases output.field "contracts" with
    | error cause => rfl
    | ok contracts =>
      refine (bind_ok (show demand (.ok contracts) s₁ = .ok contracts s₁ from rfl)).trans ?_
      change demand contracts.fields s₁ = endWith (contracts.fields.mapError .misuse) s₁
      cases contracts.fields <;> rfl

/-- The results with all files noted as failed. -/
def withFailures (files : List String) (p : Problem) (results : Results) : Results :=
  files.foldl (fun results file =>
    Assoc.set (Path.stemOf file) ⟨.error p.message, file, none⟩ results) results

theorem marked_withFailures (files : List String) (p : Problem) (results : Results) :
    Marked (files.map Path.stemOf) results (withFailures files p results) := by
  induction files generalizing results with
  | nil => exact .refl results
  | cons file rest ih => exact (Marked.set results (Path.stemOf file) (by simp)).trans (ih _)

/-- If the Solidity compiler fails, all files are noted as failed. -/
theorem buildSolidity_fails {files : List String} (hempty : files.isEmpty = false)
    (hpaths : ∀ file ∈ files, (contracts.join file).Named)
    (hread : ∀ file ∈ files, ∃ text, s.files.textAt (contracts.join file) = .ok text) {p : Problem}
    (hfails : solcFound s.outside = .error p) (version : String) (results : Results) :
    ∃ s', Reported s s' ∧ buildSolidity contracts output version results files s =
      .ok (withFailures files p results) s' := by
  obtain ⟨sources, hsources⟩ := readSources_ok hpaths hread
  obtain ⟨s₁, hcompile, hreported⟩ := compileSolidity_run sources s
  have hcompile := attempt_endWith hcompile
  rw [hfails] at hcompile
  obtain ⟨s', hreport, hreported'⟩ :=
    report_run s!"[red]Compilation failed:[/red] {p.message}" s₁
  refine ⟨s', hreported.trans hreported', ?_⟩
  have hpure : (pure (results, some p) : SessionM (Results × Option Problem)) s₁ =
      .ok (results, some p) s₁ := rfl
  rw [buildSolidity, if_neg (by simp [hempty])]
  refine (bind_ok hsources).trans ((bind_ok hcompile).trans ?_)
  exact (bind_ok hpure).trans (bind_ok hreport)

/-- **Building Solidity contracts.**  If all sources can be read, entries are set under certain
names, and the artifacts of contracts that were found are written. -/
theorem buildSolidity_run {files : List String} (houtput : output.Named)
    (hbase : s.files.HasDirectory output base)
    (hpaths : ∀ file ∈ files, (contracts.join file).Named)
    (hread : ∀ file ∈ files, ∃ text, s.files.textAt (contracts.join file) = .ok text)
    (hnames : ∀ name ∈ solcNames s.outside, Path.IsStem name) (version : String)
    (results : Results) :
    ∃ results' s', buildSolidity contracts output version results files s = .ok results' s' ∧
      Tree.Changes (NamedPut base (touched s.outside files)) s.files s'.files ∧
      Marked (touched s.outside files) results results' := by
  cases hempty : files.isEmpty with
  | true =>
    refine ⟨results, s, ?_, .refl _ _, ?_⟩
    · rw [buildSolidity, if_pos hempty]
      rfl
    · rw [touched, if_pos hempty]
      exact .refl results
  | false =>
    have hnonempty : ¬ files.isEmpty = true := by simp [hempty]
    cases hfound : solcFound s.outside with
    | error p =>
      obtain ⟨s', hreported, hfails⟩ :=
        buildSolidity_fails hempty hpaths hread hfound version results
      refine ⟨withFailures files p results, s', hfails, ?_, ?_⟩
      · rw [hreported.files]
        exact .refl _ _
      · simpa [touched, hempty, solcNames, solcSucceeds, hfound] using
          marked_withFailures files p results
    | ok found =>
      obtain ⟨sources, hsources⟩ := readSources_ok hpaths hread
      obtain ⟨s₁, hcompile, hreported⟩ := compileSolidity_run sources s
      have hcompile := attempt_endWith hcompile
      rw [hfound] at hcompile
      have hfoundNames : solcNames s.outside = (namesFound found).1 := by
        rw [solcNames, hfound]
      have hsucceeds : solcSucceeds s.outside = (namesFound found).2 := by
        rw [solcSucceeds, hfound]
      rw [hfoundNames] at hnames
      rw [← hreported.files] at hbase
      obtain ⟨results₁, problem, s₂, hfiles, -, hchanges, hmarked, hproblem⟩ :=
        buildSolidityFiles_run houtput hbase version hnames results
      rw [hreported.files] at hchanges
      have hchanges : Tree.Changes (NamedPut base (touched s.outside files)) s.files s₂.files :=
        hchanges.mono fun p node hput => hput.mono fun name hname => by
          rw [touched, if_neg hnonempty, hfoundNames]
          exact List.mem_append_left _ hname
      cases problem with
      | none =>
        refine ⟨results₁, s₂, ?_, hchanges, ?_⟩
        · rw [buildSolidity, if_neg hnonempty]
          exact (bind_ok hsources).trans ((bind_ok hcompile).trans (bind_ok hfiles))
        · simpa [touched, hempty, hfoundNames, hsucceeds, hproblem.mp rfl] using hmarked
      | some p =>
        have hfails : (namesFound found).2 = false := by simpa using hproblem
        obtain ⟨s', hreport, hreported'⟩ :=
          report_run s!"[red]Compilation failed:[/red] {p.message}" s₂
        refine ⟨withFailures files p results₁, s', ?_, ?_, ?_⟩
        · rw [buildSolidity, if_neg hnonempty]
          refine (bind_ok hsources).trans ((bind_ok hcompile).trans ?_)
          exact (bind_ok hfiles).trans (bind_ok hreport)
        · rw [hreported'.files]
          exact hchanges
        · simpa [touched, hempty, hfoundNames, hsucceeds, hfails] using
            hmarked.trans (marked_withFailures files p results₁)

/-- A source that cannot be read ends the build. -/
theorem buildSolidity_error {files : List String}
    (hpaths : ∀ file ∈ files, (contracts.join file).Named) {p : Problem} (hfile : file ∈ files)
    (h : s.files.textAt (contracts.join file) = .error p) (version : String) (results : Results) :
    ∃ p', buildSolidity contracts output version results files s = .error p' s := by
  obtain ⟨p', hread⟩ := readSources_error hpaths hfile h
  refine ⟨p', ?_⟩
  rw [buildSolidity, if_neg (by simpa using List.ne_nil_of_mem hfile)]
  exact bind_error hread

end ContractKit.Project
