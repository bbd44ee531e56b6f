import ContractKit.Proofs.Project.Reports
import ContractKit.Proofs.Project.SolidityBuild
import ContractKit.Proofs.Samples.Workspace
import ContractKit.Proofs.Workspace.Restrict

/-!
# When Solidity contracts disturb Python contracts

The contracts of both languages share the results of a build and its output directory.  A Python
contract is undisturbed by the Solidity contracts of its directory if its entry and its artifacts
are those of a build without them.  That is so iff all Solidity files can be read and none of the
names under which they are noted is the name of the contract.
-/

namespace ContractKit.Project

variable {t t' made : Tree} {base d : Place} {contracts output : Path} {file name : String}
  {s s' u u' : Session} {results results' : Results} {version : Option String}

/-! ## Artifacts of Python contracts -/

theorem ArtifactsOf.of_changes {put : Place → Node → Prop}
    (h : ArtifactsOf made contracts base file t) (hchanges : Tree.Changes put t t')
    (hput : ∀ p node, put p node →
      ∃ other, other ≠ Path.stemOf file ∧ ArtifactPut base other p node) :
    ArtifactsOf made contracts base file t' :=
  fun c hc => (h c hc).of_changes hchanges hput

section Python

variable (h : Buildable contracts output version s made base) (hcontracts : contracts.Named)
  (houtput : output.Named)

include h hcontracts houtput

/-- Building Python contracts in turn keeps the artifacts of those that are done. -/
theorem Buildable.buildPython_artifacts {files done : List String} {last : Option String}
    (hu : Tree.Changes (PythonPut made contracts base) made u.files)
    (hfiles : ∀ file ∈ files, file ∈ filesIn made contracts ".py")
    (hstems : ((done ++ files).map Path.stemOf).Nodup)
    (hdone : ∀ file ∈ done, ArtifactsOf made contracts base file u.files)
    (hrun : buildPython contracts output results last files u = .ok results' u') :
    ∀ file ∈ done ++ files, ArtifactsOf made contracts base file u'.files := by
  induction files generalizing u results last done with
  | nil =>
    obtain ⟨rfl, rfl⟩ := EStateM.Result.ok.inj hrun
    simpa using hdone
  | cons file rest ih =>
    have hfile := hfiles file List.mem_cons_self
    have hrest : ∀ file ∈ rest, file ∈ filesIn made contracts ".py" :=
      fun file hmem => hfiles file (List.mem_cons_of_mem _ hmem)
    have hlist : done ++ file :: rest = done ++ [file] ++ rest := by simp
    cases hok : compiles made contracts file with
    | false =>
      cases last with
      | none =>
        have hends : ∃ u₁, buildPython contracts output results none (file :: rest) u =
            .error .unnamedContract u₁ :=
          h.step_unnamed hcontracts houtput hu hfile hok
        obtain ⟨u₁, hends⟩ := hends
        simp [hends] at hrun
      | some name =>
        obtain ⟨u₁, hreported, hstep⟩ :=
          h.step_fails hcontracts houtput hu hfile hok name
        rw [hstep] at hrun
        rw [← hreported.files] at hu hdone
        rw [hlist] at hstems ⊢
        refine ih hu hrest hstems (fun other hother => ?_) hrun
        rcases List.mem_append.mp hother with hother | hother
        · exact hdone other hother
        · -- The file does not compile, so it has no artifacts.
          intro c hc
          rw [List.mem_singleton.mp hother] at hc
          simp [compiles_iff.mpr ⟨c, hc⟩] at hok
    | true =>
      obtain ⟨u₁, -, hchanges, hartifacts, hstep⟩ :=
        h.step_compiles hcontracts houtput hu hfile hok last
      rw [hstep] at hrun
      have hnew : ∀ other ∈ done, Path.stemOf file ≠ Path.stemOf other := by
        intro other hother heq
        rw [List.map_append] at hstems
        exact (List.nodup_append.mp hstems).2.2 _ (List.mem_map_of_mem hother) _
          (List.mem_map_of_mem List.mem_cons_self) heq.symm
      rw [hlist] at hstems ⊢
      refine ih (hu.trans (PythonPut.mono hfile hchanges)) hrest hstems
        (fun other hother => ?_) hrun
      rcases List.mem_append.mp hother with hother | hother
      · exact (hdone other hother).of_changes hchanges fun _ _ hput =>
          ⟨_, hnew other hother, hput⟩
      · rw [List.mem_singleton.mp hother]
        exact hartifacts

/-! ## Building both -/

variable (hfirst : ∀ first rest, filesIn made contracts ".py" = first :: rest →
  compiles made contracts first = true)

include hfirst

/-- After the Python contracts their results are known, their artifacts are there and the Solidity
files are as before. -/
theorem Buildable.build_both :
    ∃ v u', u'.outside = s.outside ∧ u'.files.HasDirectory output base ∧
      (∀ file ∈ filesIn made contracts ".sol",
        u'.files.textAt (contracts.join file) = made.textAt (contracts.join file)) ∧
      (∀ file ∈ filesIn made contracts ".py", ArtifactsOf made contracts base file u'.files) ∧
      build contracts output version s =
        buildSolidity contracts output v
          (reported made contracts output (filesIn made contracts ".py"))
          (filesIn made contracts ".sol") u' := by
  rcases build_run h.makes version with ⟨-, -, -, hinstalls⟩ | ⟨v, u, hu, houtside, hbuild⟩
  · exact absurd h.installs hinstalls
  · obtain ⟨u', houtside', hu', hrun⟩ := h.buildPython_reported hcontracts houtput hu hfirst
    have hstart : Tree.Changes (PythonPut made contracts base) made u.files := by
      rw [hu]
      exact .refl _ _
    refine ⟨v, u', houtside'.trans houtside, hu'.hasDirectory h.output, fun file hfile => ?_, ?_,
      hbuild.trans (bind_ok hrun)⟩
    · exact textAt_of_changes (h.proper_made houtput) hu' (fun p node hput =>
        (PythonPut.exists_entry h p node hput).imp fun _ hname => hname.2) (.inr rfl) hfile
    · have hall : ∀ file ∈ [] ++ filesIn made contracts ".py",
          ArtifactsOf made contracts base file u'.files :=
        h.buildPython_artifacts hcontracts houtput hstart (fun _ hfile => hfile) h.stems (by simp)
          hrun
      exact hall

/-- What a build with Solidity contracts leaves of the Python contracts. -/
theorem Buildable.build_marked (hnames : ∀ name ∈ solcNames s.outside, Path.IsStem name)
    (hread : ∀ file ∈ filesIn made contracts ".sol",
      ∃ text, made.textAt (contracts.join file) = .ok text) :
    ∃ results s', build contracts output version s = .ok results s' ∧
      s'.files.HasDirectory output base ∧
      Marked (touched s.outside (filesIn made contracts ".sol"))
        (reported made contracts output (filesIn made contracts ".py")) results ∧
      ∀ file ∈ filesIn made contracts ".py",
        Path.stemOf file ∉ touched s.outside (filesIn made contracts ".sol") →
          ArtifactsOf made contracts base file s'.files := by
  obtain ⟨v, u', houtside, hbase, htexts, hartifacts, hbuild⟩ :=
    h.build_both hcontracts houtput hfirst
  rw [← houtside] at hnames ⊢
  obtain ⟨results, s', hrun, hchanges, hmarked⟩ := buildSolidity_run houtput hbase
    (fun _ => named_of_mem hcontracts (.inr rfl) (h.proper_made houtput))
    (fun file hfile => by rw [htexts file hfile]; exact hread file hfile) hnames v
    (reported made contracts output (filesIn made contracts ".py"))
  refine ⟨results, s', hbuild.trans hrun, hchanges.hasDirectory hbase, hmarked, ?_⟩
  intro file hfile hstem
  refine (hartifacts file hfile).of_changes hchanges ?_
  rintro p node ⟨name, hname, hput⟩
  exact ⟨name, fun heq => hstem (heq ▸ hname), hput⟩

/-- A Solidity file that cannot be read ends the build. -/
theorem Buildable.build_unreadable (hfile : file ∈ filesIn made contracts ".sol") {p : Problem}
    (herror : made.textAt (contracts.join file) = .error p) :
    ∃ p' s', build contracts output version s = .error p' s' := by
  obtain ⟨v, u', -, -, htexts, -, hbuild⟩ := h.build_both hcontracts houtput hfirst
  rw [← htexts file hfile] at herror
  obtain ⟨p', hends⟩ := buildSolidity_error
    (fun _ => named_of_mem hcontracts (.inr rfl) (h.proper_made houtput)) hfile herror v
    (reported made contracts output (filesIn made contracts ".py"))
  exact ⟨p', u', hbuild.trans hends⟩

end Python

/-! ## Without Solidity files -/

/-- What is no Solidity file in the directory at a place. -/
def notSolidity (d p : Place) : Bool :=
  !(p.dropLast == d && p.getLast?.any (Path.endsWith ".sol"))

/-- The session in which the Solidity files in the directory at a place are gone. -/
def withoutSolidity (d : Place) (s : Session) : Session :=
  { s with files := s.files.restrict (notSolidity d) }

theorem notSolidity_entry (d : Place) (name : String) :
    notSolidity d (d ++ [name]) = !Path.endsWith ".sol" name := by
  simp [notSolidity]

theorem notSolidity_python (h : Path.endsWith ".py" name = true) :
    notSolidity d (d ++ [name]) = true := by
  rw [notSolidity_entry]
  cases hsol : Path.endsWith ".sol" name with
  | false => rfl
  | true =>
    obtain ⟨front, hpy⟩ := Path.endsWith_iff.mp h
    obtain ⟨front', hsol⟩ := Path.endsWith_iff.mp hsol
    simpa [hpy] using congrArg List.getLast? hsol

section Without

variable (hd : t.HasDirectory contracts d)
  (hsol : ∀ file ∈ filesIn t contracts ".sol", t.node? (d ++ [file]) ≠ some .directory)

include hd hsol

theorem keepsDirectories_notSolidity : t.KeepsDirectories (notSolidity d) := by
  intro p hp
  by_contra hgone
  simp only [notSolidity, Bool.not_eq_true, Bool.not_eq_false', Bool.and_eq_true, beq_iff_eq,
    Option.any_eq_true] at hgone
  obtain ⟨rfl, file, hlast, hends⟩ := hgone
  have hplace : p.dropLast ++ [file] = p := List.dropLast_append_getLast? file hlast
  refine hsol file (List.mem_filter.mpr ⟨Tree.mem_names.mpr ?_, hends⟩) (by rw [hplace, hp])
  exact ⟨_, hd.place, hd.isDirectory, by rw [hplace, hp]; rfl⟩

theorem filesIn_withoutSolidity :
    filesIn (t.restrict (notSolidity d)) contracts ".py" = filesIn t contracts ".py" ∧
      filesIn (t.restrict (notSolidity d)) contracts ".sol" = [] := by
  have hkeeps := keepsDirectories_notSolidity hd hsol
  have hd' := hd.restrict hkeeps
  refine ⟨Tree.filter_names_restrict hkeeps hd fun _ => notSolidity_python, ?_⟩
  refine List.eq_nil_iff_forall_not_mem.mpr fun file hfile => ?_
  obtain ⟨hname, hends⟩ := List.mem_filter.mp hfile
  obtain ⟨p, hplace, -, hnode⟩ := Tree.mem_names.mp hname
  obtain rfl := Except.ok.inj (hplace.symm.trans hd'.place)
  simp [Tree.node?_restrict hkeeps, notSolidity_entry, hends] at hnode

theorem sourceAt_withoutSolidity (ht : t.Proper) (hfile : file ∈ filesIn t contracts ".py") :
    sourceAt (t.restrict (notSolidity d)) contracts file = sourceAt t contracts file := by
  have hkeeps := keepsDirectories_notSolidity hd hsol
  have hnode : (t.restrict (notSolidity d)).node? (d ++ [file]) = t.node? (d ++ [file]) := by
    rw [Tree.node?_restrict hkeeps, if_pos (notSolidity_python (List.mem_filter.mp hfile).2)]
  rw [sourceAt, sourceAt,
    textAt_entry hd (hd.restrict hkeeps) (isEntry_of_mem (.inl rfl) ht hfile) hnode]

end Without

theorem Room.restrict {keep : Place → Bool} (h : Room t base name)
    (hkeep : t.KeepsDirectories keep) : Room (t.restrict keep) base name := by
  refine ⟨h.short, fun node hnode => ?_, fun suffix hsuffix hdirectory => ?_⟩
  · rw [Tree.node?_restrict hkeep] at hnode
    split at hnode
    · exact h.directory node hnode
    · simp at hnode
  · exact h.files suffix hsuffix ((Tree.directory_restrict_iff hkeep).mp hdirectory)

/-- The Python contracts of a directory can be built without its Solidity files. -/
theorem Buildable.withoutSolidity (h : Buildable contracts output version s made base)
    (hd : made.HasDirectory contracts d)
    (hsol : ∀ file ∈ filesIn made contracts ".sol", made.node? (d ++ [file]) ≠ some .directory) :
    Buildable contracts output version (withoutSolidity d s) (made.restrict (notSolidity d))
      base := by
  have hkeeps := keepsDirectories_notSolidity hd hsol
  have hbefore := hkeeps.of_changes
    (Tree.changes_makeDirectories (P := fun _ => True) h.makes (by simp) (by simp))
  have hpython := (filesIn_withoutSolidity hd hsol).1
  refine ⟨h.proper.restrict hbefore, Tree.makeDirectories_restrict hkeeps h.makes, h.installs,
    h.output.restrict hkeeps, ?_, ?_, ?_⟩
  · rw [hpython]
    exact h.stems
  · rw [hpython]
    exact h.entries
  · rw [hpython]
    exact fun file hfile => (h.room file hfile).restrict hkeeps

/-- Without the Solidity files of its directory, a build reports on the Python contracts and writes
their artifacts. -/
theorem Buildable.build_without (h : Buildable contracts output version s made base)
    (hcontracts : contracts.Named) (houtput : output.Named)
    (hfirst : ∀ first rest, filesIn made contracts ".py" = first :: rest →
      compiles made contracts first = true)
    (hd : made.HasDirectory contracts d)
    (hsol : ∀ file ∈ filesIn made contracts ".sol", made.node? (d ++ [file]) ≠ some .directory) :
    ∃ s₀, build contracts output version (Project.withoutSolidity d s) =
        .ok (reported made contracts output (filesIn made contracts ".py")) s₀ ∧
      s₀.files.HasDirectory output base ∧
      ∀ file ∈ filesIn made contracts ".py", ArtifactsOf made contracts base file s₀.files := by
  obtain ⟨hpython, hnone⟩ := filesIn_withoutSolidity hd hsol
  have hsame : ∀ file ∈ filesIn made contracts ".py",
      sourceAt (made.restrict (notSolidity d)) contracts file = sourceAt made contracts file :=
    fun file hfile => sourceAt_withoutSolidity hd hsol (h.proper_made houtput) hfile
  obtain ⟨v, s₀, -, hbase, -, hartifacts, hbuild⟩ :=
    (h.withoutSolidity hd hsol).build_both hcontracts houtput (by
      intro first rest hlist
      rw [hpython] at hlist
      rw [compiles, hsame first (by simp [hlist])]
      exact hfirst first rest hlist)
  rw [hnone, hpython, reported_congr hsame] at hbuild
  refine ⟨s₀, hbuild, hbase, fun file hfile c hc => ?_⟩
  rw [hpython] at hartifacts
  exact hartifacts file hfile c ((hsame file hfile).trans hc)

/-! ## Undisturbed contracts -/

/-- The entry of a contract and the bytes of its artifacts are the same after two builds. -/
structure SameContract (output : Path) (name : String) (results results' : Results)
    (t t' : Tree) : Prop where
  entry : Assoc.get? name results' = Assoc.get? name results
  artifacts : ∀ suffix ∈ artifactSuffixes,
    t'.read ((output.join name).join (name ++ suffix)) =
      t.read ((output.join name).join (name ++ suffix))

theorem ArtifactsOf.read_eq (h : ArtifactsOf made contracts base file t)
    (h' : ArtifactsOf made contracts base file t') (hok : compiles made contracts file = true)
    (hbase : t.HasDirectory output base) (hbase' : t'.HasDirectory output base)
    (hname : Path.IsStem (Path.stemOf file)) {suffix : String}
    (hsuffix : suffix ∈ artifactSuffixes) :
    t'.read ((output.join (Path.stemOf file)).join (Path.stemOf file ++ suffix)) =
      t.read ((output.join (Path.stemOf file)).join (Path.stemOf file ++ suffix)) := by
  obtain ⟨c, hsource⟩ := compiles_iff.mp hok
  have hmem : Path.stemOf file ++ suffix ∈ (artifactTexts (Path.stemOf file)
      (pythonDocument (Path.stemOf file) file c) c.compiled.interface.toJson
      c.compiled.codeText).map Prod.fst := List.mem_map_of_mem hsuffix
  obtain ⟨⟨artifact, text⟩, he, rfl⟩ := List.mem_map.mp hmem
  rw [(h c hsource).bytes hbase hname he, (h' c hsource).bytes hbase' hname he]

/-- **When a Python contract is undisturbed.**  Let the Python contracts of a directory be
buildable, let the first of its files compile, and let the names that the Solidity compiler answers
with have no slashes.  Without the Solidity files a build comes to its end.  The entry and the
artifacts of a Python file that compiles are the same with them iff each of them can be read and the
stem of the Python file is not touched: it is no name of a contract that the Solidity compiler has
found and, if that compiler fails, no stem of a Solidity file. -/
theorem undisturbed_iff {contracts output : String}
    (h : Buildable (.ofText contracts) (.ofText output) version s made base)
    (hd : made.HasDirectory (.ofText contracts) d)
    (hsol : ∀ source ∈ filesIn made (.ofText contracts) ".sol",
      made.node? (d ++ [source]) ≠ some .directory)
    (hnames : ∀ name ∈ solcNames s.outside, Path.IsStem name)
    (hfirst : ∀ first rest, filesIn made (.ofText contracts) ".py" = first :: rest →
      compiles made (.ofText contracts) first = true)
    (hfile : file ∈ filesIn made (.ofText contracts) ".py")
    (hok : compiles made (.ofText contracts) file = true) :
    ∃ results₀ s₀, build (.ofText contracts) (.ofText output) version (withoutSolidity d s) =
        .ok results₀ s₀ ∧
      ((∃ results s', build (.ofText contracts) (.ofText output) version s = .ok results s' ∧
          SameContract (.ofText output) (Path.stemOf file) results₀ results s₀.files s'.files) ↔
        (∀ source ∈ filesIn made (.ofText contracts) ".sol",
          ∃ text, made.textAt ((Path.ofText contracts).join source) = .ok text) ∧
        Path.stemOf file ∉ touched s.outside (filesIn made (.ofText contracts) ".sol")) := by
  have hcontracts := Path.named_ofText contracts
  have houtput := Path.named_ofText output
  obtain ⟨s₀, hbuild₀, hbase₀, hartifacts₀⟩ :=
    h.build_without hcontracts houtput hfirst hd hsol
  refine ⟨_, s₀, hbuild₀, ?_, ?_⟩
  · rintro ⟨results, s', hbuild, hcontract⟩
    have hread : ∀ source ∈ filesIn made (.ofText contracts) ".sol",
        ∃ text, made.textAt ((Path.ofText contracts).join source) = .ok text := by
      intro source hsource
      cases htext : made.textAt ((Path.ofText contracts).join source) with
      | ok text => exact ⟨text, rfl⟩
      | error p =>
        obtain ⟨p', u, hends⟩ := h.build_unreadable hcontracts houtput hfirst hsource htext
        simp [hends] at hbuild
    refine ⟨hread, fun htouched => ?_⟩
    obtain ⟨results₁, s₁, hbuild₁, -, hmarked, -⟩ :=
      h.build_marked hcontracts houtput hfirst hnames hread
    rw [hbuild₁] at hbuild
    obtain ⟨rfl, -⟩ := EStateM.Result.ok.inj hbuild
    -- The entry was set for something that is no Python contract.
    obtain ⟨entry, hentry, hlanguage⟩ := hmarked.marked _ htouched
    obtain ⟨last, hlast⟩ := get?_reported h.stems hfile hok
    rw [hcontract.entry, hlast] at hentry
    exact hlanguage (by rw [← Option.some.inj hentry]; rfl)
  · rintro ⟨hread, huntouched⟩
    obtain ⟨results, s', hbuild, hbase, hmarked, hartifacts⟩ :=
      h.build_marked hcontracts houtput hfirst hnames hread
    refine ⟨results, s', hbuild, hmarked.others _ huntouched, fun suffix hsuffix => ?_⟩
    exact (hartifacts₀ file hfile).read_eq (hartifacts file hfile huntouched) hok hbase₀ hbase
      (isStem_of_mem (h.proper_made houtput) hfile) hsuffix

/-! ## A Solidity file of the same stem -/

open Samples

/-- A Python contract, and a Solidity file of the same stem. -/
def boxTwice : List (String × String) :=
  [("Box.py", Evm.boxText), ("Box.sol", "contract Vault {}\n")]

theorem tidy_boxTwice : Tidy boxTwice where
  noSlash := by decide
  ordered := by decide
  stems := by decide
  entries := by decide
  short := by decide

/-- A session with these contracts, in which the Solidity compiler gives an answer. -/
def boxTwiceWith (answer : Reply) : Session :=
  { contractsOnly boxTwice with outside := { solc := { output := answer } } }

/-- What the Solidity compiler answers if it finds a contract in the file. -/
def vaultFound : Json :=
  .obj [("contracts", .obj [("Box.sol", .obj [("Vault", .obj [])])])]

theorem buildable_boxTwice (answer : Reply) :
    Buildable (.ofText "contracts") (.ofText "build") none (boxTwiceWith answer)
      (madeTree boxTwice) ["build"] :=
  { buildable_contractsOnly tidy_boxTwice with installs := .inl rfl }

theorem python_boxTwice :
    filesIn (madeTree boxTwice) (.ofText "contracts") ".py" = ["Box.py"] :=
  filesIn_madeTree tidy_boxTwice ".py"

theorem solidity_boxTwice :
    filesIn (madeTree boxTwice) (.ofText "contracts") ".sol" = ["Box.sol"] :=
  filesIn_madeTree tidy_boxTwice ".sol"

theorem names_boxTwice : (boxTwice.map Prod.fst).Nodup := by decide

theorem mem_boxTwice : ("Box.sol", "contract Vault {}\n") ∈ boxTwice :=
  List.mem_cons_of_mem _ List.mem_cons_self

theorem compiles_boxTwice {first : String} {rest : List String}
    (h : filesIn (madeTree boxTwice) (.ofText "contracts") ".py" = first :: rest) :
    compiles (madeTree boxTwice) (.ofText "contracts") first = true := by
  obtain ⟨c, hbox⟩ := compiledSource_box
  rw [python_boxTwice] at h
  rw [← (List.cons.inj h).1]
  exact compiles_iff.mpr ⟨c, (sourceAt_box names_boxTwice List.mem_cons_self).trans hbox⟩

theorem file_boxTwice {source : String}
    (h : source ∈ filesIn (madeTree boxTwice) (.ofText "contracts") ".sol") :
    (madeTree boxTwice).node? (["contracts"] ++ [source]) ≠ some .directory := by
  rw [solidity_boxTwice, List.mem_singleton] at h
  simp [h, node?_contract names_boxTwice mem_boxTwice]

theorem textAt_boxTwice {source : String}
    (h : source ∈ filesIn (madeTree boxTwice) (.ofText "contracts") ".sol") :
    ∃ text, (madeTree boxTwice).textAt ((Path.ofText "contracts").join source) = .ok text := by
  rw [solidity_boxTwice, List.mem_singleton] at h
  rw [h]
  exact ⟨_, textAt_contractsOnly names_boxTwice mem_boxTwice
    ⟨⟨by decide, by decide, by decide⟩, by decide⟩ (by decide) (by decide)⟩

/-- If the Solidity compiler fails, the Python contract is lost: its entry is that of the Solidity
file. -/
theorem solidity_failure_replaces_box :
    ∃ results s' results₀ s₀ built,
      build (.ofText "contracts") (.ofText "build") none
        (boxTwiceWith (.error "no such version")) = .ok results s' ∧
      Assoc.get? "Box" results = some ⟨.error "no such version", "Box.sol", none⟩ ∧
      build (.ofText "contracts") (.ofText "build") none
        (withoutSolidity ["contracts"] (boxTwiceWith (.error "no such version"))) =
          .ok results₀ s₀ ∧
      Assoc.get? "Box" results₀ = some ⟨.ok built, "Box.py", some .python⟩ := by
  have hcontracts := Path.named_ofText "contracts"
  have houtput := Path.named_ofText "build"
  have hbuildable := buildable_boxTwice (.error "no such version")
  obtain ⟨v, u, houtside, -, htexts, -, hbuild⟩ :=
    hbuildable.build_both hcontracts houtput fun _ _ => compiles_boxTwice
  have hfails : solcFound u.outside = .error (.outside "no such version") := by
    rw [houtside]
    rfl
  obtain ⟨s', -, hrun⟩ := buildSolidity_fails (by rw [solidity_boxTwice]; rfl)
    (fun _ => named_of_mem hcontracts (.inr rfl) (hbuildable.proper_made houtput))
    (fun source hsource => by rw [htexts source hsource]; exact textAt_boxTwice hsource) hfails v
    (reported (madeTree boxTwice) (.ofText "contracts") (.ofText "build")
      (filesIn (madeTree boxTwice) (.ofText "contracts") ".py"))
  obtain ⟨s₀, hbuild₀, -, -⟩ := hbuildable.build_without hcontracts houtput
    (fun _ _ => compiles_boxTwice) hasDirectory_contracts fun _ => file_boxTwice
  obtain ⟨c, hbox⟩ := compiledSource_box
  have hreported : reported (madeTree boxTwice) (.ofText "contracts") (.ofText "build")
      ["Box.py"] = [("Box", ⟨.ok (builtOf (.ofText "build") "Box" c.compiled.interface.toJson
        c.compiled.codeText), "Box.py", some .python⟩)] := by
    rw [reported_cons_ok (compiles_boxTwice python_boxTwice), lastReported_nil, reportOn,
      sourceAt_box names_boxTwice List.mem_cons_self, hbox]
    rfl
  rw [python_boxTwice, hreported] at hrun hbuild hbuild₀
  rw [solidity_boxTwice] at hrun hbuild
  exact ⟨_, s', _, s₀, _, hbuild.trans hrun, Assoc.get?_set_self "Box" _ _, hbuild₀, rfl⟩

/-- If it finds another contract in the file, the Python contract is undisturbed. -/
theorem undisturbed_iff_vault :
    ∃ results₀ s₀ results s',
      build (.ofText "contracts") (.ofText "build") none
        (withoutSolidity ["contracts"] (boxTwiceWith (.ok vaultFound))) = .ok results₀ s₀ ∧
      build (.ofText "contracts") (.ofText "build") none (boxTwiceWith (.ok vaultFound)) =
        .ok results s' ∧
      SameContract (.ofText "build") "Box" results₀ results s₀.files s'.files := by
  have hbox : "Box.py" ∈ filesIn (madeTree boxTwice) (.ofText "contracts") ".py" := by
    simp [python_boxTwice]
  have hnames : ∀ name ∈ solcNames (boxTwiceWith (.ok vaultFound)).outside,
      Path.IsStem name := by
    intro name hname
    obtain rfl : name = "Vault" := List.mem_singleton.mp hname
    exact ⟨by decide, by decide⟩
  obtain ⟨results₀, s₀, hbuild₀, hiff⟩ := undisturbed_iff
    (buildable_boxTwice (.ok vaultFound)) hasDirectory_contracts (fun _ => file_boxTwice) hnames
    (fun _ _ => compiles_boxTwice) hbox (compiles_boxTwice python_boxTwice)
  obtain ⟨results, s', hbuild, hsame⟩ := hiff.mpr
    ⟨fun _ => textAt_boxTwice, by rw [solidity_boxTwice]; decide⟩
  exact ⟨results₀, s₀, results, s', hbuild₀, hbuild, hsame⟩

end ContractKit.Project
