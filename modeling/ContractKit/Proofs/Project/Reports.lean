import ContractKit.Proofs.Project.PythonBuild

/-!
# Which contract a file is reported under

A build reports a file that cannot be compiled under the name of the last contract that was compiled
before it; if there is no such contract the build ends with a problem of its own.  The results of a
build are therefore known from which files compile: they have an entry for each of these, and it is
the report on the last file up to the next one that compiles.
-/

namespace ContractKit.Project

variable {t t' made : Tree} {base : Place} {contracts output : Path} {file name : String}
  {s s' : Session} {version : Option String}

/-! ## Room is kept -/

/-- Building contracts keeps the room for others. -/
theorem Room.of_changes {put : Place → Node → Prop} (h : Room t base name)
    (hname : Path.IsEntry name) (hchanges : Tree.Changes put t t')
    (hput : ∀ p node, put p node → ∃ name, Path.IsEntry name ∧ ArtifactPut base name p node) :
    Room t' base name := by
  refine ⟨h.short, fun node hnode => ?_, fun suffix hsuffix hdirectory => ?_⟩
  · rcases hchanges.node (directoryAt base name) with hsame | ⟨node', hnode', hp⟩
    · exact h.directory node (hsame ▸ hnode)
    · obtain rfl : node = node' := Option.some.inj (hnode.symm.trans hp)
      obtain ⟨other, hother, ⟨-, hdirectory⟩ | ⟨⟨suffix, -, hfile⟩, -⟩⟩ := hput _ node hnode'
      · exact hdirectory
      · have hlength := congrArg List.length hfile
        simp [fileAt, directoryAt_entry _ hname, directoryAt_entry _ hother] at hlength
  · rcases hchanges.node (fileAt base name suffix) with hsame | ⟨node', hnode', hp⟩
    · exact h.files suffix hsuffix (hsame ▸ hdirectory)
    · obtain rfl := Option.some.inj (hdirectory.symm.trans hp)
      obtain ⟨other, hother, ⟨hplace, -⟩ | ⟨-, hkind⟩⟩ := hput _ _ hnode'
      · have hlength := congrArg List.length hplace
        simp [fileAt, directoryAt_entry _ hname, directoryAt_entry _ hother] at hlength
      · simp [Node.isDirectory] at hkind

/-! ## Reports -/

def compiles (t : Tree) (contracts : Path) (file : String) : Bool :=
  (sourceAt t contracts file).isOk

theorem compiles_iff :
    compiles t contracts file = true ↔ ∃ c, sourceAt t contracts file = .ok c := by
  unfold compiles
  cases sourceAt t contracts file <;> simp [Except.isOk, Except.toBool]

theorem compiles_eq_false_iff :
    compiles t contracts file = false ↔ ∃ p, sourceAt t contracts file = .error p := by
  unfold compiles
  cases sourceAt t contracts file <;> simp [Except.isOk, Except.toBool]

def reportOn (t : Tree) (contracts output : Path) (file : String) : BuildEntry where
  outcome :=
    match sourceAt t contracts file with
    | .ok c =>
      .ok (builtOf output (Path.stemOf file) c.compiled.interface.toJson c.compiled.codeText)
    | .error p => .error p.message
  sourceFile := file
  language := some .python

/-- The last of the files up to the next one that compiles, or the one before them. -/
def lastReported (ok : String → Bool) (file : String) (rest : List String) : String :=
  (rest.takeWhile (!ok ·)).getLastD file

/-- The files that compile, with the files whose reports they get. -/
def reports (ok : String → Bool) : List String → List (String × String)
  | [] => []
  | file :: rest =>
    if ok file then (file, lastReported ok file rest) :: reports ok rest else reports ok rest

/-- The reports of a build by the names of contracts. -/
def reported (t : Tree) (contracts output : Path) (files : List String) : Results :=
  (reports (compiles t contracts) files).map fun pair =>
    (Path.stemOf pair.1, reportOn t contracts output pair.2)

/-- The Python contracts of a directory can be built: the output directory can be made and a
Solidity compiler be installed, the names of contracts are different and are entries of a
directory, and nothing is in the way of their artifacts. -/
structure Buildable (contracts output : Path) (version : Option String) (s : Session)
    (made : Tree) (base : Place) : Prop where
  proper : s.files.Proper
  makes : s.files.makeDirectories output = .ok made
  installs : Installs version s.outside
  output : made.HasDirectory output base
  stems : ((filesIn made contracts ".py").map Path.stemOf).Nodup
  entries : ∀ file ∈ filesIn made contracts ".py", Path.IsEntry (Path.stemOf file)
  room : ∀ file ∈ filesIn made contracts ".py", Room made base (Path.stemOf file)

/-- What building the Python contracts of a directory may put into a tree. -/
def PythonPut (made : Tree) (contracts : Path) (base : Place) (p : Place) (node : Node) : Prop :=
  ∃ file ∈ filesIn made contracts ".py", ArtifactPut base (Path.stemOf file) p node

theorem PythonPut.exists_entry (h : Buildable contracts output version s made base) :
    ∀ p node, PythonPut made contracts base p node →
      ∃ name, Path.IsEntry name ∧ ArtifactPut base name p node := by
  rintro p node ⟨file, hfile, hput⟩
  exact ⟨Path.stemOf file, h.entries file hfile, hput⟩

theorem PythonPut.mono (hfile : file ∈ filesIn made contracts ".py")
    (h : Tree.Changes (ArtifactPut base (Path.stemOf file)) t t') :
    Tree.Changes (PythonPut made contracts base) t t' :=
  h.mono fun _ _ hput => ⟨file, hfile, hput⟩

def ArtifactsOf (made : Tree) (contracts : Path) (base : Place) (file : String) (t : Tree) :
    Prop :=
  ∀ c, sourceAt made contracts file = .ok c →
    Holds t base (Path.stemOf file) (pythonDocument (Path.stemOf file) file c)
      c.compiled.interface.toJson c.compiled.codeText

theorem Buildable.proper_made (h : Buildable contracts output version s made base)
    (houtput : output.Named) : made.Proper :=
  h.proper.makeDirectories houtput h.makes

/-! ## One file -/

section Steps

variable {u : Session} {results : Results} {rest : List String}
  (h : Buildable contracts output version s made base) (hcontracts : contracts.Named)
  (houtput : output.Named) (hu : Tree.Changes (PythonPut made contracts base) made u.files)
  (hfile : file ∈ filesIn made contracts ".py")

include h houtput hu hfile

theorem Buildable.sourceAt_eq : sourceAt u.files contracts file = sourceAt made contracts file :=
  sourceAt_of_changes (h.proper_made houtput) hu
    (fun p node hput => (PythonPut.exists_entry h p node hput).imp fun _ hname => hname.2) hfile

include hcontracts

theorem Buildable.step_unnamed (hfails : compiles made contracts file = false) :
    ∃ u', buildPython contracts output results none (file :: rest) u =
      .error .unnamedContract u' := by
  have hpath := named_of_mem hcontracts (.inl rfl) (h.proper_made houtput) hfile
  obtain ⟨p, hsource⟩ := compiles_eq_false_iff.mp hfails
  exact buildPython_unnamed hpath ((h.sourceAt_eq houtput hu hfile).trans hsource)

/-- A file that cannot be compiled takes the place of the contract before it. -/
theorem Buildable.step_fails (hfails : compiles made contracts file = false) (name : String) :
    ∃ u', Reported u u' ∧
      buildPython contracts output results (some name) (file :: rest) u =
        buildPython contracts output
          (Assoc.set name (reportOn made contracts output file) results) (some name) rest u' := by
  have hpath := named_of_mem hcontracts (.inl rfl) (h.proper_made houtput) hfile
  obtain ⟨p, hsource⟩ := compiles_eq_false_iff.mp hfails
  obtain ⟨u', hreported, hbuild⟩ :=
    buildPython_fault hpath ((h.sourceAt_eq houtput hu hfile).trans hsource) name
  refine ⟨u', hreported, hbuild.trans ?_⟩
  rw [reportOn, hsource]

/-- A file that compiles is reported under its own name, and its artifacts are written. -/
theorem Buildable.step_compiles (hok : compiles made contracts file = true)
    (last : Option String) :
    ∃ u', u'.outside = u.outside ∧
      Tree.Changes (ArtifactPut base (Path.stemOf file)) u.files u'.files ∧
      ArtifactsOf made contracts base file u'.files ∧
      buildPython contracts output results last (file :: rest) u =
        buildPython contracts output
          (Assoc.set (Path.stemOf file) (reportOn made contracts output file) results)
          (some (Path.stemOf file)) rest u' := by
  have hpath := named_of_mem hcontracts (.inl rfl) (h.proper_made houtput) hfile
  obtain ⟨c, hsource⟩ := compiles_iff.mp hok
  obtain ⟨outcome, u', houtside, hchanges, hbuilt, hroom, hbuild⟩ :=
    buildPython_compiled hpath houtput
      (fun _ => hu.hasDirectory h.output) (isStem_of_mem (h.proper_made houtput) hfile)
      ((h.sourceAt_eq houtput hu hfile).trans hsource) last
  obtain ⟨built, rfl⟩ := hroom (Tree.relative_of_place h.output.place)
    ((h.room file hfile).of_changes (h.entries file hfile) hu (PythonPut.exists_entry h))
  obtain ⟨-, hbuiltOf, hholds⟩ := hbuilt built rfl
  refine ⟨u', houtside, hchanges, fun c' hc' => ?_, hbuild.trans ?_⟩
  · obtain rfl : c = c' := Except.ok.inj (hsource.symm.trans hc')
    exact hholds
  · rw [reportOn, hsource, hbuiltOf]

end Steps

/-! ## All files -/

section Lists

variable {ok : String → Bool} {current : String} {rest : List String}

theorem lastReported_nil (ok : String → Bool) (current : String) :
    lastReported ok current [] = current := rfl

theorem lastReported_cons_fails (h : ok file = false) :
    lastReported ok current (file :: rest) = lastReported ok file rest := by
  rw [lastReported, List.takeWhile_cons_of_pos (by simp [h]), List.getLastD_cons]
  rfl

theorem lastReported_cons_ok (h : ok file = true) :
    lastReported ok current (file :: rest) = current := by
  simp [lastReported, h]

theorem reported_cons_fails (h : compiles t contracts file = false) :
    reported t contracts output (file :: rest) = reported t contracts output rest := by
  simp [reported, reports, h]

theorem reported_cons_ok (h : compiles t contracts file = true) :
    reported t contracts output (file :: rest) =
      (Path.stemOf file,
        reportOn t contracts output (lastReported (compiles t contracts) file rest)) ::
        reported t contracts output rest := by
  simp [reported, reports, h]

/-- There is an entry for each file that compiles. -/
theorem keys_reported (files : List String) :
    Assoc.keys (reported t contracts output files) =
      (files.filter (compiles t contracts)).map Path.stemOf := by
  induction files with
  | nil => rfl
  | cons file rest ih =>
    cases hok : compiles t contracts file with
    | false => rw [reported_cons_fails hok, ih, List.filter_cons_of_neg (by simp [hok])]
    | true =>
      rw [reported_cons_ok hok, List.filter_cons_of_pos hok, List.map_cons, ← ih]
      rfl

theorem get?_reported {files : List String} (hstems : (files.map Path.stemOf).Nodup)
    (hfile : file ∈ files) (h : compiles t contracts file = true) :
    ∃ last, Assoc.get? (Path.stemOf file) (reported t contracts output files) =
      some (reportOn t contracts output last) := by
  have hkeys : Path.stemOf file ∈ Assoc.keys (reported t contracts output files) := by
    rw [keys_reported]
    exact List.mem_map_of_mem (List.mem_filter.mpr ⟨hfile, h⟩)
  obtain ⟨pair, hpair, hstem⟩ := List.mem_map.mp hkeys
  obtain ⟨⟨first, last⟩, -, rfl⟩ := List.mem_map.mp hpair
  refine ⟨last, Assoc.get?_of_mem ?_ (hstem ▸ hpair)⟩
  rw [keys_reported]
  exact hstems.sublist (List.filter_sublist.map _)

theorem lastReported_mem : lastReported ok current rest ∈ current :: rest := by
  induction rest generalizing current with
  | nil => exact List.mem_cons_self
  | cons file rest ih =>
    cases hok : ok file with
    | true => rw [lastReported_cons_ok hok]; exact List.mem_cons_self
    | false => rw [lastReported_cons_fails hok]; exact List.mem_cons_of_mem _ ih

theorem lastReported_congr {ok' : String → Bool} (h : ∀ file ∈ rest, ok' file = ok file) :
    lastReported ok' current rest = lastReported ok current rest := by
  induction rest generalizing current with
  | nil => rfl
  | cons file rest ih =>
    have hfile := h file List.mem_cons_self
    have hrest := fun file hmem => h file (List.mem_cons_of_mem _ hmem)
    cases hok : ok file with
    | true => rw [lastReported_cons_ok hok, lastReported_cons_ok (hfile.trans hok)]
    | false =>
      rw [lastReported_cons_fails hok, lastReported_cons_fails (hfile.trans hok), ih hrest]

/-- The reports depend on what the files are compiled to only. -/
theorem reported_congr {files : List String}
    (h : ∀ file ∈ files, sourceAt t' contracts file = sourceAt t contracts file) :
    reported t' contracts output files = reported t contracts output files := by
  have hcompiles : ∀ file ∈ files, compiles t' contracts file = compiles t contracts file :=
    fun file hfile => by rw [compiles, compiles, h file hfile]
  have hreport : ∀ file ∈ files,
      reportOn t' contracts output file = reportOn t contracts output file :=
    fun file hfile => by rw [reportOn, reportOn, h file hfile]
  induction files with
  | nil => rfl
  | cons file rest ih =>
    have hfile := hcompiles file List.mem_cons_self
    have hrest := fun file hmem => hcompiles file (List.mem_cons_of_mem _ hmem)
    have hih := ih (fun file hmem => h file (List.mem_cons_of_mem _ hmem)) hrest
      fun file hmem => hreport file (List.mem_cons_of_mem _ hmem)
    cases hok : compiles t contracts file with
    | false => rw [reported_cons_fails hok, reported_cons_fails (hfile.trans hok), hih]
    | true =>
      rw [reported_cons_ok hok, reported_cons_ok (hfile.trans hok), hih,
        lastReported_congr hrest, hreport _ lastReported_mem]

end Lists

theorem set_last {front : Results} {e e' : BuildEntry} (h : name ∉ Assoc.keys front) :
    Assoc.set name e' (front ++ [(name, e)]) = front ++ [(name, e')] := by
  induction front with
  | nil => simp [Assoc.set]
  | cons entry rest ih =>
    simp only [Assoc.keys, List.map_cons, List.mem_cons, not_or] at h
    simp [Assoc.set, Ne.symm h.1, ih h.2]

/-- From a contract that has been compiled on, each further file is reported under the last contract
that compiles. -/
theorem Buildable.run (h : Buildable contracts output version s made base)
    (hcontracts : contracts.Named) (houtput : output.Named) {u : Session} {files : List String}
    {first current : String} {front : Results}
    (hu : Tree.Changes (PythonPut made contracts base) made u.files)
    (hfiles : ∀ file ∈ files, file ∈ filesIn made contracts ".py")
    (hkeys : (Assoc.keys front ++ Path.stemOf first :: files.map Path.stemOf).Nodup) :
    ∃ u', u'.outside = u.outside ∧ Tree.Changes (PythonPut made contracts base) made u'.files ∧
      buildPython contracts output
          (front ++ [(Path.stemOf first, reportOn made contracts output current)])
          (some (Path.stemOf first)) files u =
        .ok (front ++ (Path.stemOf first, reportOn made contracts output
            (lastReported (compiles made contracts) current files)) ::
          reported made contracts output files) u' := by
  -- `current` is the file on which the last contract, from `first`, is reported so far.
  induction files generalizing u first current front with
  | nil => exact ⟨u, rfl, hu, rfl⟩
  | cons file rest ih =>
    have hfile := hfiles file List.mem_cons_self
    have hrest : ∀ file ∈ rest, file ∈ filesIn made contracts ".py" :=
      fun file hmem => hfiles file (List.mem_cons_of_mem _ hmem)
    cases hok : compiles made contracts file with
    | false =>
      obtain ⟨u₁, hreported, hstep⟩ :=
        h.step_fails hcontracts houtput hu hfile hok (Path.stemOf first)
      rw [← hreported.files] at hu
      have hnew : Path.stemOf first ∉ Assoc.keys front := by
        intro hmem
        exact (List.nodup_append.mp hkeys).2.2 _ hmem _ List.mem_cons_self rfl
      have hkeys' : (Assoc.keys front ++ Path.stemOf first :: rest.map Path.stemOf).Nodup :=
        hkeys.sublist (((List.sublist_cons_self _ _).cons_cons _).append_left _)
      rw [set_last hnew] at hstep
      obtain ⟨u', houtside', hu', hrun⟩ := @ih u₁ first file front hu hrest hkeys'
      refine ⟨u', houtside'.trans hreported.outside, hu', hstep.trans (hrun.trans ?_)⟩
      rw [lastReported_cons_fails hok, reported_cons_fails hok]
    | true =>
      obtain ⟨u₁, houtside, hchanges, -, hstep⟩ :=
        h.step_compiles hcontracts houtput hu hfile hok (some (Path.stemOf first))
      have hkeys' : (Assoc.keys (front ++
          [(Path.stemOf first, reportOn made contracts output current)]) ++
          Path.stemOf file :: rest.map Path.stemOf).Nodup := by
        simpa [Assoc.keys] using hkeys
      have hnew : Assoc.has (Path.stemOf file) (front ++
          [(Path.stemOf first, reportOn made contracts output current)]) = false := by
        rw [← Bool.not_eq_true, Assoc.has_iff_mem_keys]
        intro hmem
        exact (List.nodup_append.mp hkeys').2.2 _ hmem _ List.mem_cons_self rfl
      rw [Assoc.set_of_not_has hnew] at hstep
      obtain ⟨u', houtside', hu', hrun⟩ :=
        @ih u₁ file file _ (hu.trans (PythonPut.mono hfile hchanges)) hrest hkeys'
      refine ⟨u', houtside'.trans houtside, hu', hstep.trans (hrun.trans ?_)⟩
      rw [lastReported_cons_ok hok, reported_cons_ok hok]
      simp

section Directory

variable (h : Buildable contracts output version s made base) (hcontracts : contracts.Named)
  (houtput : output.Named)

include h hcontracts houtput

/-- If the first file does not compile, building the Python contracts of a directory ends with a
problem. -/
theorem Buildable.buildPython_unnamed {u : Session} (hu : u.files = made) {first : String}
    {rest : List String} (hfiles : filesIn made contracts ".py" = first :: rest)
    (hfails : compiles made contracts first = false) :
    ∃ u', buildPython contracts output [] none (filesIn made contracts ".py") u =
      .error .unnamedContract u' := by
  have hchanges : Tree.Changes (PythonPut made contracts base) made u.files := by
    rw [hu]
    exact .refl _ _
  have hfirst : first ∈ filesIn made contracts ".py" := by
    rw [hfiles]
    exact List.mem_cons_self
  rw [hfiles]
  exact h.step_unnamed hcontracts houtput hchanges hfirst hfails

/-- If the first file compiles, the results of building the Python contracts of a directory are
known from which of them compile. -/
theorem Buildable.buildPython_reported {u : Session} (hu : u.files = made)
    (hfirst : ∀ first rest, filesIn made contracts ".py" = first :: rest →
      compiles made contracts first = true) :
    ∃ u', u'.outside = u.outside ∧ Tree.Changes (PythonPut made contracts base) made u'.files ∧
      buildPython contracts output [] none (filesIn made contracts ".py") u =
        .ok (reported made contracts output (filesIn made contracts ".py")) u' := by
  have hchanges : Tree.Changes (PythonPut made contracts base) made u.files := by
    rw [hu]
    exact .refl _ _
  cases hlist : filesIn made contracts ".py" with
  | nil => exact ⟨u, rfl, hchanges, rfl⟩
  | cons first rest =>
    have hok := hfirst first rest hlist
    have hfiles : ∀ file ∈ first :: rest, file ∈ filesIn made contracts ".py" := by
      rw [hlist]
      exact fun _ hfile => hfile
    have hstems := h.stems
    rw [hlist] at hstems
    have hlisted := hfiles first List.mem_cons_self
    obtain ⟨u₁, houtside, hput, -, hstep⟩ :=
      h.step_compiles hcontracts houtput hchanges hlisted hok none
    have hu₁ := hchanges.trans (PythonPut.mono hlisted hput)
    obtain ⟨u', houtside', hu', hrun⟩ := @Buildable.run _ _ _ _ _ _ h hcontracts houtput u₁ rest
      first first [] hu₁ (fun file hfile => hfiles file (List.mem_cons_of_mem _ hfile)) hstems
    refine ⟨u', houtside'.trans houtside, hu', hstep.trans (hrun.trans ?_)⟩
    rw [reported_cons_ok hok]
    rfl

theorem Buildable.build_unnamed {first : String} {rest : List String}
    (hfiles : filesIn made contracts ".py" = first :: rest)
    (hfails : compiles made contracts first = false) :
    ∃ s', build contracts output version s = .error .unnamedContract s' := by
  rcases build_run h.makes version with ⟨-, -, -, hinstalls⟩ | ⟨v, u, hu, -, hbuild⟩
  · exact absurd h.installs hinstalls
  · obtain ⟨u', hpython⟩ := h.buildPython_unnamed hcontracts houtput hu hfiles hfails
    exact ⟨u', hbuild.trans (bind_error hpython)⟩

theorem Buildable.build_reported (hpython : filesIn made contracts ".sol" = [])
    (hfirst : ∀ first rest, filesIn made contracts ".py" = first :: rest →
      compiles made contracts first = true) :
    ∃ s', build contracts output version s =
      .ok (reported made contracts output (filesIn made contracts ".py")) s' := by
  rcases build_run h.makes version with ⟨-, -, -, hinstalls⟩ | ⟨v, u, hu, -, hbuild⟩
  · exact absurd h.installs hinstalls
  · obtain ⟨u', -, -, hrun⟩ := h.buildPython_reported hcontracts houtput hu hfirst
    rw [hpython] at hbuild
    exact ⟨u', hbuild.trans (bind_ok hrun)⟩

end Directory

end ContractKit.Project
