import ContractKit.Proofs.Evm.DeclaredValues
import ContractKit.Proofs.Samples.Workspace

/-!
# Every contract for itself

Every Python contract of a directory should be reported for itself.  A file that cannot be compiled
takes the place of the contract before it, whose own report is lost, or ends the build.  So the
files are reported each for itself only if all of them compile.
-/

namespace ContractKit.Project

variable {t made : Tree} {base : Place} {contracts output : Path} {file : String} {s : Session}
  {version : Option String}

/-- Every file is reported for itself: the results have one entry for each file, under its stem,
that names the file and is a success iff the file compiles. -/
structure EachForItself (t : Tree) (contracts : Path) (files : List String) (results : Results) :
    Prop where
  keys : (Assoc.keys results).Perm (files.map Path.stemOf)
  entries : ∀ file ∈ files, ∃ entry, Assoc.get? (Path.stemOf file) results = some entry ∧
    entry.sourceFile = file ∧ entry.outcome.isOk = compiles t contracts file

/-- If all files compile each is reported under its own name. -/
theorem reported_of_all {files : List String}
    (h : ∀ file ∈ files, compiles t contracts file = true) :
    reported t contracts output files =
      files.map fun file => (Path.stemOf file, reportOn t contracts output file) := by
  induction files with
  | nil => rfl
  | cons file rest ih =>
    have hrest : ∀ file ∈ rest, compiles t contracts file = true :=
      fun file hfile => h file (List.mem_cons_of_mem _ hfile)
    have hlast : lastReported (compiles t contracts) file rest = file := by
      cases rest with
      | nil => rfl
      | cons next rest => exact lastReported_cons_ok (hrest next List.mem_cons_self)
    rw [reported_cons_ok (h file List.mem_cons_self), hlast, ih hrest]
    rfl

theorem isOk_reportOn :
    (reportOn t contracts output file).outcome.isOk = compiles t contracts file := by
  cases hsource : sourceAt t contracts file <;>
    simp [reportOn, compiles, hsource, Except.isOk, Except.toBool]

theorem eachForItself_reported_iff {files : List String} (hstems : (files.map Path.stemOf).Nodup) :
    EachForItself t contracts files (reported t contracts output files) ↔
      ∀ file ∈ files, compiles t contracts file = true := by
  constructor
  · intro h
    -- There are as many entries as files that compile.
    have hlength := h.keys.length_eq
    rw [keys_reported, List.length_map, List.length_map] at hlength
    exact List.length_filter_eq_length_iff.mp hlength
  · intro h
    have hkeys : Assoc.keys (reported t contracts output files) = files.map Path.stemOf := by
      rw [keys_reported, List.filter_eq_self.mpr h]
    refine ⟨by rw [hkeys], fun file hfile => ?_⟩
    refine ⟨reportOn t contracts output file, Assoc.get?_of_mem (by rw [hkeys]; exact hstems) ?_,
      rfl, isOk_reportOn⟩
    rw [reported_of_all h]
    exact List.mem_map_of_mem hfile

/-- **Which contract a file is reported under.**  Let the Python contracts of a directory without
Solidity contracts be buildable.  If the first file does not compile the build ends with a problem.
Otherwise it has an entry for each file that compiles, but that is the report on the last file up to
the next one that compiles.  So every file is reported for itself iff all of them compile. -/
theorem each_for_itself_iff_all_compile {contracts output : String}
    (h : Buildable (.ofText contracts) (.ofText output) version s made base)
    (hpython : filesIn made (.ofText contracts) ".sol" = []) :
    (∀ first rest, filesIn made (.ofText contracts) ".py" = first :: rest →
      compiles made (.ofText contracts) first = false → ∃ s',
        build (.ofText contracts) (.ofText output) version s = .error .unnamedContract s') ∧
    ((∀ first rest, filesIn made (.ofText contracts) ".py" = first :: rest →
      compiles made (.ofText contracts) first = true) → ∃ s',
        build (.ofText contracts) (.ofText output) version s =
          .ok (reported made (.ofText contracts) (.ofText output)
            (filesIn made (.ofText contracts) ".py")) s') ∧
    ((∃ results s', build (.ofText contracts) (.ofText output) version s = .ok results s' ∧
        EachForItself made (.ofText contracts) (filesIn made (.ofText contracts) ".py") results) ↔
      ∀ file ∈ filesIn made (.ofText contracts) ".py",
        compiles made (.ofText contracts) file = true) := by
  have hcontracts := Path.named_ofText contracts
  have houtput := Path.named_ofText output
  refine ⟨fun first rest hfiles hfails => h.build_unnamed hcontracts houtput hfiles hfails,
    fun hfirst => h.build_reported hcontracts houtput hpython hfirst, ?_, ?_⟩
  · rintro ⟨results, s', hresult, heach⟩
    have hfirst : ∀ first rest, filesIn made (.ofText contracts) ".py" = first :: rest →
        compiles made (.ofText contracts) first = true := by
      intro first rest hfiles
      by_contra hfails
      obtain ⟨s'', hends⟩ :=
        h.build_unnamed hcontracts houtput hfiles (Bool.eq_false_iff.mpr hfails)
      simp [hends] at hresult
    obtain ⟨s'', hdone⟩ := h.build_reported hcontracts houtput hpython hfirst
    rw [hdone] at hresult
    obtain ⟨rfl, -⟩ := EStateM.Result.ok.inj hresult
    exact (eachForItself_reported_iff h.stems).mp heach
  · intro hall
    obtain ⟨s', hdone⟩ := h.build_reported hcontracts houtput hpython fun first rest hfiles =>
      hall first (by rw [hfiles]; exact List.mem_cons_self)
    exact ⟨_, s', hdone, (eachForItself_reported_iff h.stems).mpr hall⟩

/-! ## A file that takes the place of another -/

open Samples

/-- A source that cannot be compiled: there is no code for a number that is not whole. -/
def fractionText : String :=
  "class Fraction(PySmartContract):\n" ++
  "    def setup(self):\n" ++
  "        self.x = 1.5\n"

theorem compiledSource_fraction : ∃ p, compiledSource fractionText = .error p := by
  have heval : (compile fractionText).2.result.isOk = false := by decide +kernel
  unfold compiledSource
  revert heval
  generalize compile fractionText = compiled
  intro heval
  cases hresult : compiled.2.result with
  | ok r => simp [hresult, Except.isOk, Except.toBool] at heval
  | error cause => cases cause <;> exact ⟨_, rfl⟩

/-- A contract, and a file that cannot be compiled. -/
def boxAndFraction : List (String × String) :=
  [("Box.py", Evm.boxText), ("fraction.py", fractionText)]

theorem tidy_boxAndFraction : Tidy boxAndFraction where
  noSlash := by decide
  ordered := by decide
  stems := by decide
  entries := by decide
  short := by decide

theorem tidy_fraction : Tidy [("fraction.py", fractionText)] where
  noSlash := by decide
  ordered := by decide
  stems := by decide
  entries := by decide
  short := by decide

/-- A build of a directory with no other contract ends with a problem. -/
theorem fraction_ends_build :
    ∃ s', build (.ofText "contracts") (.ofText "build") none
      (contractsOnly [("fraction.py", fractionText)]) = .error .unnamedContract s' := by
  obtain ⟨p, hsource⟩ := compiledSource_fraction
  have hbad := sourceAt_contractsOnly
    (show ([("fraction.py", fractionText)].map Prod.fst).Nodup by decide) List.mem_cons_self
    ⟨⟨by decide, by decide, by decide⟩, by decide⟩ (by decide) (by decide)
  refine (buildable_contractsOnly tidy_fraction).build_unnamed (Path.named_ofText _)
    (Path.named_ofText _) (filesIn_madeTree tidy_fraction ".py") ?_
  exact compiles_eq_false_iff.mpr ⟨p, hbad.trans hsource⟩

/-- If a contract comes before, its report is lost. -/
theorem each_for_itself_iff_all_compile_fraction :
    ∃ made base, Buildable (.ofText "contracts") (.ofText "build") none
        (contractsOnly boxAndFraction) made base ∧
      filesIn made (.ofText "contracts") ".sol" = [] ∧
      compiles made (.ofText "contracts") "Box.py" = true ∧
      ∃ message s', build (.ofText "contracts") (.ofText "build") none
          (contractsOnly boxAndFraction) =
        .ok [("Box", ⟨.error message, "fraction.py", some .python⟩)] s' := by
  obtain ⟨p, hfraction⟩ := compiledSource_fraction
  obtain ⟨c, hbox⟩ := compiledSource_box
  have hfiles : filesIn (madeTree boxAndFraction) (.ofText "contracts") ".py" =
      ["Box.py", "fraction.py"] := filesIn_madeTree tidy_boxAndFraction ".py"
  have hsol : filesIn (madeTree boxAndFraction) (.ofText "contracts") ".sol" = [] :=
    filesIn_madeTree tidy_boxAndFraction ".sol"
  have hnames : (boxAndFraction.map Prod.fst).Nodup := by decide
  have hfirst := sourceAt_box hnames List.mem_cons_self
  have hsecond := sourceAt_contractsOnly hnames (List.mem_cons_of_mem _ List.mem_cons_self)
    ⟨⟨by decide, by decide, by decide⟩, by decide⟩ (by decide) (by decide)
  rw [hbox] at hfirst
  rw [hfraction] at hsecond
  have hcompiles : compiles (madeTree boxAndFraction) (.ofText "contracts") "Box.py" = true :=
    compiles_iff.mpr ⟨c, hfirst⟩
  have hfails : compiles (madeTree boxAndFraction) (.ofText "contracts") "fraction.py" = false :=
    compiles_eq_false_iff.mpr ⟨p, hsecond⟩
  have hbuildable := buildable_contractsOnly tidy_boxAndFraction
  obtain ⟨s', hbuild⟩ := (each_for_itself_iff_all_compile hbuildable hsol).2.1 (by
    intro first rest hlist
    rw [hfiles] at hlist
    rw [← (List.cons.inj hlist).1]
    exact hcompiles)
  refine ⟨_, _, hbuildable, hsol, hcompiles, p.message, s', ?_⟩
  have hreport : reportOn (madeTree boxAndFraction) (.ofText "contracts") (.ofText "build")
      "fraction.py" = ⟨.error p.message, "fraction.py", some .python⟩ := by
    rw [reportOn, hsecond]
  rw [hbuild, hfiles, reported_cons_ok hcompiles, lastReported_cons_fails hfails,
    reported_cons_fails hfails, lastReported_nil, hreport]
  rfl

end ContractKit.Project
